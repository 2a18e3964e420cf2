import Ok3506.At.Capture
import Ok3506.Dbb.Thread
import Ok3506.Lib.History

/-!
What the thread hears.

A `Listening` is a capture as the module meets it. Which captures a round performs, and
which of the module's answers each of them meets, follows from the state before the round
and the answers alone. `Records` relates these captures to the history: what a service has
heard is passed on behind its capture, and what another caller has heard is not.
-/

namespace Ok3506.Dbb

open CString At History

/-! ### Listenings -/

/-- A capture as the module meets it: whether a service performs it, its timeout, and what
`select` and `read` answer while it lasts. -/
structure Listening where
  polling : Bool
  timeoutMs : Nat
  events : List PortEvent

namespace Listening

/-- The outcomes up to the one that ends the capture. -/
noncomputable def taken (l : Listening) : List PortEvent :=
  takenAfter maxResponse l.timeoutMs [] l.events

/-- What they deliver, as far as it fits the response buffer. -/
noncomputable def heard (l : Listening) : List UInt8 :=
  (delivered l.taken).take (maxResponse - 1)

/-- They deliver something and none of them is an error. -/
def Answered (l : Listening) : Prop :=
  ¬ (.selectError ∈ l.taken ∨ .readError ∈ l.taken) ∧ l.heard ≠ []

/-- The texts are in the answer. -/
def Says (l : Listening) (texts : List (List UInt8)) : Prop :=
  l.Answered ∧ ∀ text ∈ texts, contains (cstr l.heard) text = true

/-- The answer to a service. -/
def Polls (l : Listening) : Prop := l.polling = true ∧ l.Answered

/-- The capture behind a command, which has to fit its buffer and to be written out. -/
def command (cmd : List UInt8) (answer : PortAnswer) : Listening where
  polling := false
  timeoutMs := atTimeoutMs
  events :=
    if 256 ≤ (cmd ++ [13]).length ∨ (writeAll answer.write (cmd ++ [13])).1 = false then []
    else answer.read

/-- The capture of a service. -/
def poll (answer : PortAnswer) : Listening := ⟨true, 1000, answer.read⟩

end Listening

/-! ### The listenings of a round -/

/-- A command, the text that is expected beside OK, and whether the dialogue goes on only when
they come. -/
structure Command where
  cmd : List UInt8
  expect : Option (List UInt8)
  needed : Bool := true

open Classical in
/-- The captures of a dialogue, one answer for each. -/
noncomputable def dialogue : List Command → List Answer → List Listening
  | [], _ => []
  | c :: cs, answers =>
      let l := Listening.command c.cmd (answers.headD {}).port
      l :: if c.needed = false ∨ l.Says (ascii "OK" :: c.expect.toList) then
          dialogue cs answers.tail
        else []

/-- The commands that lead to broadcast mode. -/
def broadcastDialogue : List Command :=
  [⟨ascii "AT^MISWITCH=0", some (ascii "OK"), true⟩,
    ⟨ascii "AT^BMCARDSWITCH=0", some (ascii "OK"), true⟩,
    ⟨ascii "AT^DUMMYUSIM=1", some (ascii "OK"), true⟩,
    ⟨ascii "AT^BBICRSTSW=1", none, false⟩,
    ⟨ascii "AT^SSRINFOXW=1", some (ascii "OK"), true⟩,
    ⟨ascii "AT+CFUN=1", some (ascii "OK"), true⟩]

/-- The commands that lead back. -/
def normalDialogue : List Command :=
  [⟨ascii "AT^MISWITCH=1", some (ascii "OK"), true⟩,
    ⟨ascii "AT^BMCARDSWITCH=1", some (ascii "OK"), true⟩,
    ⟨ascii "AT^BBICRSTSW=0", none, false⟩]

/-- The command of a state on the way to service. -/
def bringupCommand : Status → Option Command
  | .powerOn => some ⟨ascii "AT+CIMI", some (ascii "OK"), true⟩
  | .simReady => some ⟨ascii "AT+CFUN=5", some (ascii "OK"), true⟩
  | .cfunOk => some ⟨ascii "AT+CREG=1", some (ascii "OK"), true⟩
  | .cregOk => some ⟨ascii "AT+CNMI=2,2,0,1,0", some (ascii "OK"), true⟩
  | .cnmiOk => some ⟨ascii "AT+DSCI=1", some (ascii "OK"), true⟩
  | .dsciOk => some ⟨ascii "AT+CGDCONT=1,\"IP\"", some (ascii "OK"), true⟩
  | .cgdcontOk => some ⟨ascii "AT^PSDATA=2", some (ascii "OK"), true⟩
  | .waitCregxw => some ⟨ascii "AT+CREGXW?", some (ascii "+CREGXW:1"), true⟩
  | .waitCireg => some ⟨ascii "AT+CIREG?", some (ascii "+CIREG:1"), true⟩
  | _ => none

/-- The command of the uplink. -/
def uplinkCommand : List UInt8 := ascii "AT+ULNETDATA=11,\"BASE64\",\"REJCLVVQLURFTU8=\""

/-- The uplink of the service is due. -/
def UplinkDue (ctrl : Ctrl) (now : Int) : Prop :=
  ctrl.lastUplinkTs = 0 ∨ ctrl.uplinkIntervalSec ≤ now - ctrl.lastUplinkTs

/-- The message of the service has not been sent. -/
def SmsPending (ctrl : Ctrl) : Prop :=
  ctrl.smsSendOnceDone = 0 ∧ ctrl.smsTarget ≠ [] ∧ ctrl.smsText ≠ []

section Listenings

variable (utf8ToUcs2be : List UInt8 → Option (List UInt8))

open Classical in
/-- The captures while a message is sent: the prompt, and the result when the message has been
written behind it. -/
noncomputable def smsListenings (target text : List UInt8) (answer : SmsAnswer) :
    List Listening :=
  match dbbBuildSmsSubmitPdu utf8ToUcs2be target text 512 with
  | none => []
  | some (pduHex, cmgsLen) =>
      let prompt := Listening.command (ascii "AT+CMGS=" ++ decimal cmgsLen) answer.prompt
      if prompt.Answered ∧ 62 ∈ cstr prompt.heard ∧ (writeAll answer.pdu pduHex).1 = true ∧
          (writeAll answer.endChar [0x1A]).1 = true then
        [prompt, ⟨false, 10000, answer.result.read⟩]
      else [prompt]

open Classical in
/-- The captures of a round in normal service: the poll, the uplink when it is due, and the
message that is sent once. -/
noncomputable def serviceListenings (ctrl : Ctrl) (answers : List Answer) : List Listening :=
  let answer := answers.headD {}
  let rest := if UplinkDue ctrl answer.now then answers.tail.tail else answers.tail
  Listening.poll answer.port ::
    ((if UplinkDue ctrl answer.now then
        [Listening.command uplinkCommand (answers.tail.headD {}).port]
      else []) ++
      if SmsPending ctrl then
        smsListenings utf8ToUcs2be ctrl.smsTarget ctrl.smsText (rest.headD {}).sms
      else [])

/-- The captures of a round in broadcast mode. -/
noncomputable def broadcastListenings (status : Status) (answers : List Answer) :
    List Listening :=
  match status with
  | .idle | .powerOff | .psdataOk => []
  | .onlineBroadcast => [Listening.poll (answers.headD {}).port]
  | .init | .powerOn | .simReady | .cfunOk | .cregOk | .cnmiOk | .dsciOk | .cgdcontOk
  | .waitCregxw | .waitCrev | .waitCireg | .online => dialogue broadcastDialogue answers

/-- The captures of a round in normal mode. -/
noncomputable def normalListenings (ctrl : Ctrl) (answers : List Answer) : List Listening :=
  match ctrl.status with
  | .idle | .init | .powerOff | .psdataOk => []
  | .onlineBroadcast => dialogue normalDialogue answers
  | .waitCrev => [⟨false, 30000, (answers.headD {}).port.read⟩]
  | .online => serviceListenings utf8ToUcs2be ctrl answers
  | .powerOn | .simReady | .cfunOk | .cregOk | .cnmiOk | .dsciOk | .cgdcontOk | .waitCregxw
  | .waitCireg => dialogue (bringupCommand ctrl.status).toList answers

/-- The captures of a round, in their order. -/
noncomputable def roundListenings (ctrl : Ctrl) (r : Round) : List Listening :=
  if r.mode = .broadcast then broadcastListenings ctrl.status r.answers
  else normalListenings utf8ToUcs2be ctrl r.answers

/-- The captures along a run, each round from the state before it. -/
noncomputable def listenings (w : World) : List Round → List Listening
  | [] => []
  | r :: rounds =>
      roundListenings utf8ToUcs2be w.ctrl r ++ listenings (round utf8ToUcs2be w r) rounds

end Listenings

/-! ### What a capture leaves -/

namespace Listening

/-- What the capture returns. -/
noncomputable def captured (l : Listening) : Captured := captureOf maxResponse l.taken

theorem ret_captured (l : Listening) : l.captured.ret = 0 ↔ l.Answered := by
  unfold captured captureOf Answered heard
  dsimp only
  split
  · rename_i failed
    exact iff_of_false (by decide) fun answered => failed.elim answered.1 answered.2
  · rename_i fine
    exact iff_of_true rfl (not_or.mp fine)

theorem captured_of_no_events {polling : Bool} {timeoutMs : Nat} :
    (⟨polling, timeoutMs, []⟩ : Listening).captured = ⟨-1, []⟩ := rfl

theorem not_polls {l : Listening} (quiet : l.polling = false) : ¬ l.Polls := by
  rintro ⟨polling, -⟩
  rw [quiet] at polling
  cases polling

end Listening

/-- A capture without a command. -/
theorem capture_listening (polling : Bool) (timeoutMs : Nat) (answer : PortAnswer) :
    (dbbCaptureResponse none maxResponse timeoutMs answer).1 =
      (⟨polling, timeoutMs, answer.read⟩ : Listening).captured :=
  captureLoop_eq_captureOf maxResponse timeoutMs answer.read

/-- A capture behind a command. -/
theorem capture_command (cmd : List UInt8) (answer : PortAnswer) :
    (dbbCaptureResponse (some cmd) maxResponse atTimeoutMs answer).1 =
      (Listening.command cmd answer).captured := by
  rw [dbbCaptureResponse, capture, Listening.command]
  dsimp only
  by_cases long : 256 ≤ (cmd ++ [13]).length
  · rw [if_pos long, if_pos (.inl long), Listening.captured_of_no_events]
  · rw [if_neg long]
    by_cases sent : (writeAll answer.write (cmd ++ [13])).1 = true
    · have heard : ¬ (256 ≤ (cmd ++ [13]).length ∨
          (writeAll answer.write (cmd ++ [13])).1 = false) :=
        not_or.mpr ⟨long, by rw [sent]; decide⟩
      rw [if_pos sent, if_neg heard]
      exact captureLoop_eq_captureOf maxResponse atTimeoutMs answer.read
    · rw [if_neg sent, if_pos (.inr (Bool.not_eq_true _ |>.mp sent)),
        Listening.captured_of_no_events]

theorem captured_dbbAtExpect (cmd : List UInt8) (expect : Option (List UInt8))
    (answer : PortAnswer) :
    (dbbAtExpect cmd expect answer).captured = [(Listening.command cmd answer).captured] := by
  rw [← capture_command]
  rfl

theorem ok_dbbAtExpect (cmd : List UInt8) (expect : Option (List UInt8)) (answer : PortAnswer) :
    (dbbAtExpect cmd expect answer).ok = true ↔
      (Listening.command cmd answer).Says (ascii "OK" :: expect.toList) := by
  have same := capture_command cmd answer
  have ret := Listening.ret_captured (Listening.command cmd answer)
  rw [dbbAtExpect]
  dsimp only
  rw [same, decide_eq_true_eq, ret, Listening.Says, List.forall_mem_cons]
  simp only [Option.mem_toList]
  rfl

/-! ### What a round appends -/

/-- The history of some captures: what a service has heard is passed on behind its capture. -/
inductive Records : List Event → List Listening → Prop where
  | nil : Records [] []
  | kept {caller l history ls} : ¬ l.Polls → Records history ls →
      Records (.captured caller l.captured :: history) (l :: ls)
  | handedOn {l history ls} : l.Polls → Records history ls →
      Records (.captured .service l.captured :: .urcBlob (cstr l.heard) :: history) (l :: ls)
  | at {cmd ok history ls} : Records history ls → Records (.at cmd ok :: history) ls
  | entered {status history ls} : Records history ls → Records (.entered status :: history) ls

theorem Records.append {a b : List Event} {ls ls' : List Listening} (h : Records a ls)
    (h' : Records b ls') : Records (a ++ b) (ls ++ ls') := by
  induction h with
  | nil => exact h'
  | kept other _ ih => exact .kept other ih
  | handedOn polls _ ih => exact .handedOn polls ih
  | «at» _ ih => exact .at ih
  | entered _ ih => exact .entered ih

/-- From this world, the operation appends the history of the captures. -/
def Hears {α : Type} (m : M α) (w : World) (ls : List Listening) : Prop :=
  Appends World.history m w (Records · ls)

section Operations

variable {α β : Type} {m : M α} {f : α → M β} {w : World} {ls ls' : List Listening}

theorem Hears.bind (h : Hears m w ls) (h' : Hears (f (m w).1) (m w).2 ls') :
    Hears (m >>= f) w (ls ++ ls') :=
  Appends.bind h h' Records.append

theorem Hears.of_same (h : (m w).2.history = w.history) : Hears m w [] :=
  Appends.of_same .nil h

/-- An operation without captures behind another. -/
theorem Hears.then (h : Hears m w ls) (h' : Hears (f (m w).1) (m w).2 []) :
    Hears (m >>= f) w ls := by
  have both := h.bind h'
  rwa [List.append_nil] at both

/-- An operation that does what another does in a world of the same history. -/
theorem Hears.of_run {m' : M α} {w' : World} (h : Hears m' w' ls) (same : m w = m' w')
    (history : w'.history = w.history) : Hears m w ls := by
  rw [Hears, Appends, same, ← history]
  exact h

theorem hears_setStatus (status : Status) : Hears (setStatus status) w [] :=
  ⟨[.entered status], .entered .nil, rfl⟩

theorem hears_advance {op : M Bool} (h : Hears op w ls) (next : Status) :
    Hears (advance op next) w ls := by
  refine h.then ?_
  cases (op w).1
  · exact .of_same rfl
  · exact hears_setStatus next

/-- An exchange that is not that of a service. -/
theorem hears_exchange (caller : Caller) {done : Exchange}
    (captured : done.captured = ls.map Listening.captured) (quiet : ∀ l ∈ ls, l.polling = false) :
    Hears (exchange caller done) w ls := by
  refine ⟨(ls.map Listening.captured).map fun c => .captured caller c, ?_, ?_⟩
  · clear captured
    induction ls with
    | nil => exact .nil
    | cons l ls ih =>
        obtain ⟨now, later⟩ := List.forall_mem_cons.mp quiet
        exact .kept (Listening.not_polls now) (ih later)
  · rw [← captured]
    rfl

theorem hears_atExpect (cmd : List UInt8) (expect : Option (List UInt8)) :
    Hears (atExpect cmd expect) w [Listening.command cmd (w.answers.headD {}).port] := by
  have captured := captured_dbbAtExpect cmd expect (w.answers.headD {}).port
  refine ⟨[.captured .atExpect (Listening.command cmd (w.answers.headD {}).port).captured,
    .at cmd (dbbAtExpect cmd expect (w.answers.headD {}).port).ok],
    .kept (Listening.not_polls rfl) (.at .nil), ?_⟩
  change w.history ++ (dbbAtExpect cmd expect (w.answers.headD {}).port).captured.map _ ++ _ = _
  rw [captured, List.append_assoc]
  rfl

theorem atExpect_fst (cmd : List UInt8) (expect : Option (List UInt8)) :
    (atExpect cmd expect w).1 = true ↔
      (Listening.command cmd (w.answers.headD {}).port).Says (ascii "OK" :: expect.toList) :=
  ok_dbbAtExpect cmd expect (w.answers.headD {}).port

/-! ### Dialogues -/

/-- The operation is a dialogue of these commands. -/
def Talks (m : M Bool) (cs : List Command) : Prop := ∀ w, Hears m w (dialogue cs w.answers)

theorem talks_pure (b : Bool) : Talks (pure b) [] := fun _ => .of_same rfl

theorem dialogue_goesOn {c : Command} {answers : List Answer} (cs : List Command)
    (h : c.needed = false ∨
      (Listening.command c.cmd (answers.headD {}).port).Says (ascii "OK" :: c.expect.toList)) :
    dialogue (c :: cs) answers =
      [Listening.command c.cmd (answers.headD {}).port] ++ dialogue cs answers.tail := by
  rw [dialogue]
  exact congrArg (_ :: ·) (if_pos h)

theorem dialogue_ends {c : Command} {answers : List Answer} (cs : List Command)
    (h : ¬ (c.needed = false ∨
      (Listening.command c.cmd (answers.headD {}).port).Says (ascii "OK" :: c.expect.toList))) :
    dialogue (c :: cs) answers = [Listening.command c.cmd (answers.headD {}).port] ++ [] := by
  rw [dialogue]
  exact congrArg (_ :: ·) (if_neg h)

theorem talks_atExpect (cmd : List UInt8) (expect : Option (List UInt8)) (needed : Bool) :
    Talks (atExpect cmd expect) [⟨cmd, expect, needed⟩] := by
  intro w
  have single : dialogue [⟨cmd, expect, needed⟩] w.answers =
      [Listening.command cmd (w.answers.headD {}).port] := by
    rw [dialogue, dialogue]
    dsimp only
    rw [ite_self]
  rw [single]
  exact hears_atExpect cmd expect

/-- The dialogue goes on when the texts come. -/
theorem talks_andThen {m : M Bool} {cs : List Command} (cmd : List UInt8)
    (expect : Option (List UInt8)) (h : Talks m cs) :
    Talks (andThen (atExpect cmd expect) m) (⟨cmd, expect, true⟩ :: cs) := by
  intro w
  have said := atExpect_fst (w := w) cmd expect
  by_cases ok : (atExpect cmd expect w).1 = true
  · rw [dialogue_goesOn (c := ⟨cmd, expect, true⟩) cs (.inr (said.mp ok))]
    refine (hears_atExpect cmd expect).bind ?_
    rw [ok]
    exact h (atExpect cmd expect w).2
  · have silent : ¬ (true = false ∨ (Listening.command cmd (w.answers.headD {}).port).Says
        (ascii "OK" :: expect.toList)) := not_or.mpr ⟨by decide, fun came => ok (said.mpr came)⟩
    rw [dialogue_ends (c := ⟨cmd, expect, true⟩) cs silent]
    refine (hears_atExpect cmd expect).bind ?_
    rw [(Bool.not_eq_true _).mp ok]
    exact .of_same rfl

/-- The dialogue goes on in any case. -/
theorem talks_ignored {m : M Bool} {cs : List Command} (cmd : List UInt8)
    (expect : Option (List UInt8)) (h : Talks m cs) :
    Talks (atExpect cmd expect >>= fun _ => m) (⟨cmd, expect, false⟩ :: cs) := by
  intro w
  rw [dialogue_goesOn (c := ⟨cmd, expect, false⟩) cs (.inl rfl)]
  exact (hears_atExpect cmd expect).bind (h (atExpect cmd expect w).2)

theorem talks_dbbCfgBroadcastMode : Talks dbbCfgBroadcastMode broadcastDialogue :=
  talks_andThen _ _ <| talks_andThen _ _ <| talks_andThen _ _ <| talks_ignored _ _ <|
    talks_andThen _ _ <| talks_atExpect _ _ true

theorem talks_dbbCfgNormalMode : Talks dbbCfgNormalMode normalDialogue :=
  talks_andThen _ _ <| talks_andThen _ _ <| talks_ignored _ _ <| talks_pure true

theorem hears_waitForText {expect : List UInt8} (some_text : expect ≠ []) :
    Hears (waitForText expect) w [⟨false, 30000, (w.answers.headD {}).port.read⟩] := by
  have captured : (dbbWaitForText expect maxResponse 30000 (w.answers.headD {}).port).captured =
      [(⟨false, 30000, (w.answers.headD {}).port.read⟩ : Listening)].map Listening.captured := by
    rw [dbbWaitForText, if_neg some_text, List.map_singleton, ← capture_listening]
  exact hears_exchange (w := { w with answers := w.answers.tail }) .waitForText captured (by simp)

/-! ### The services -/

/-- A service passes on what it has heard, when the capture returned 0. -/
theorem hears_monitor (answer : Answer) :
    Hears (monitor answer) w [Listening.poll answer.port] ∧
      (monitor answer w).2.answers = w.answers ∧
      ∃ downlink, (monitor answer w).2.ctrl = { w.ctrl with downlink } := by
  have same : (dbbCaptureResponse none maxResponse 1000 answer.port).1 =
      (Listening.poll answer.port).captured := capture_listening true 1000 answer.port
  have ret := Listening.ret_captured (Listening.poll answer.port)
  rw [← same] at ret
  unfold monitor
  by_cases answered : (Listening.poll answer.port).Answered
  · have done := ret.mpr answered
    simp only [done, if_true]
    refine ⟨⟨[.captured .service (Listening.poll answer.port).captured,
      .urcBlob (cstr (Listening.poll answer.port).heard)], .handedOn ⟨rfl, answered⟩ .nil, ?_⟩,
      rfl, _, rfl⟩
    refine (List.append_assoc w.history [_] [_]).trans ?_
    rw [same]
    rfl
  · have failed : ¬ (dbbCaptureResponse none maxResponse 1000 answer.port).1.ret = 0 :=
      fun done => answered (ret.mp done)
    simp only [failed, if_false]
    refine ⟨⟨[.captured .service (Listening.poll answer.port).captured],
      .kept (fun polls => answered polls.2) .nil, ?_⟩, rfl, w.ctrl.downlink, rfl⟩
    rw [← same]
    rfl

/-- The uplink of the service is one command. -/
theorem dbbSendUplink_demo (answer : PortAnswer) :
    dbbSendUplink demoUplinkRaw .base64 answer = dbbAtExpect uplinkCommand none answer := by
  have prepared : dbbDataPrepareUplink demoUplinkRaw .base64 1536 =
      some ⟨ascii "REJCLVVQLURFTU8=", 11, ascii "BASE64"⟩ := by decide +kernel
  have command : (⟨ascii "REJCLVVQLURFTU8=", 11, ascii "BASE64"⟩ : Uplink).command =
      uplinkCommand := by decide +kernel
  have short : ¬ 1088 ≤ uplinkCommand.length := by decide +kernel
  rw [dbbSendUplink, prepared]
  dsimp only
  rw [command, if_neg short]

end Operations

section Thread

variable (utf8ToUcs2be : List UInt8 → Option (List UInt8)) {w : World}

theorem captured_dbbSendSms (target text : List UInt8) (answer : SmsAnswer) :
    (dbbSendSms utf8ToUcs2be target text answer).captured =
      (smsListenings utf8ToUcs2be target text answer).map Listening.captured := by
  rw [dbbSendSms, smsListenings]
  cases dbbBuildSmsSubmitPdu utf8ToUcs2be target text 512 with
  | none => rfl
  | some built =>
      obtain ⟨pduHex, cmgsLen⟩ := built
      dsimp only
      have prompt := capture_command (ascii "AT+CMGS=" ++ decimal cmgsLen) answer.prompt
      have ret := Listening.ret_captured
        (Listening.command (ascii "AT+CMGS=" ++ decimal cmgsLen) answer.prompt)
      have result := capture_listening false 10000 answer.result
      rw [prompt]
      generalize Listening.command (ascii "AT+CMGS=" ++ decimal cmgsLen) answer.prompt = l at *
      have used : l.captured.used = l.heard := rfl
      by_cases prompted : l.Answered ∧ 62 ∈ cstr l.heard
      · have found : ¬ (l.captured.ret ≠ 0 ∨ strchr 62 (cstr l.captured.used) = none) := by
          rw [used, strchr_eq_none_iff]
          exact not_or.mpr ⟨not_not.mpr (ret.mpr prompted.1), not_not.mpr prompted.2⟩
        rw [if_neg found]
        cases pdu : (writeAll answer.pdu pduHex).1 with
        | false => simp [prompted]
        | true =>
            cases endChar : (writeAll answer.endChar [0x1A]).1 with
            | false => simp [prompted]
            | true => simp [prompted, result]
      · have missing : l.captured.ret ≠ 0 ∨ strchr 62 (cstr l.captured.used) = none := by
          rw [used, strchr_eq_none_iff]
          by_contra both
          obtain ⟨zero, mem⟩ := not_or.mp both
          exact prompted ⟨ret.mp (not_not.mp zero), not_not.mp mem⟩
        rw [if_pos missing, if_neg fun both => prompted ⟨both.1, both.2.1⟩]
        rfl

theorem quiet_smsListenings (target text : List UInt8) (answer : SmsAnswer) :
    ∀ l ∈ smsListenings utf8ToUcs2be target text answer, l.polling = false := by
  intro l mem
  rw [smsListenings] at mem
  split at mem
  · cases mem
  · dsimp only at mem
    split at mem
    · simp only [List.mem_cons, List.not_mem_nil, or_false] at mem
      rcases mem with rfl | rfl <;> rfl
    · rw [List.mem_singleton.mp mem]
      rfl

/-- An exchange whose success is noted. -/
def reported (caller : Caller) (done : Exchange) (f : Ctrl → Ctrl) : M Unit := do
  if ← exchange caller done then modifyCtrl f

variable {ls : List Listening}

theorem hears_reported (caller : Caller) {done : Exchange} (f : Ctrl → Ctrl)
    (captured : done.captured = ls.map Listening.captured) (quiet : ∀ l ∈ ls, l.polling = false) :
    Hears (reported caller done f) w ls ∧ (reported caller done f w).2.answers = w.answers ∧
      (reported caller done f w).2.ctrl = if done.ok then f w.ctrl else w.ctrl := by
  refine ⟨(hears_exchange caller captured quiet).then ?_, ?_⟩
  · change Hears (if done.ok then _ else _) _ _
    cases done.ok <;> exact .of_same rfl
  · change ((if done.ok then _ else _ : M Unit) _).2.answers = _ ∧
      ((if done.ok then _ else _ : M Unit) _).2.ctrl = _
    cases done.ok <;> exact ⟨rfl, rfl⟩

theorem serviceUplink_of_due {now : Int} (due : UplinkDue w.ctrl now) :
    serviceUplink now w =
      reported .atExpect (dbbAtExpect uplinkCommand none (w.answers.headD {}).port)
        (fun ctrl => { ctrl with lastUplinkTs := now }) { w with answers := w.answers.tail } := by
  rw [← dbbSendUplink_demo]
  exact congrFun (if_pos due) w

theorem serviceUplink_of_not_due {now : Int} (early : ¬ UplinkDue w.ctrl now) :
    serviceUplink now w = ((), w) :=
  congrFun (if_neg early) w

theorem serviceSms_of_pending (pending : SmsPending w.ctrl) :
    serviceSms utf8ToUcs2be w =
      reported .sendSms
        (dbbSendSms utf8ToUcs2be w.ctrl.smsTarget w.ctrl.smsText (w.answers.headD {}).sms)
        (fun ctrl => { ctrl with smsSendOnceDone := 1 }) { w with answers := w.answers.tail } :=
  congrFun (if_pos pending) w

theorem serviceSms_of_not_pending (done : ¬ SmsPending w.ctrl) :
    serviceSms utf8ToUcs2be w = ((), w) :=
  congrFun (if_neg done) w

open Classical in
/-- The message is sent with the number and the text of this state. -/
theorem hears_serviceSms {ctrl : Ctrl} (pending : SmsPending w.ctrl ↔ SmsPending ctrl)
    (target : w.ctrl.smsTarget = ctrl.smsTarget) (text : w.ctrl.smsText = ctrl.smsText) :
    Hears (serviceSms utf8ToUcs2be) w
      (if SmsPending ctrl then
        smsListenings utf8ToUcs2be ctrl.smsTarget ctrl.smsText (w.answers.headD {}).sms
      else []) := by
  rw [← target, ← text]
  by_cases h : SmsPending ctrl
  · have sent := (hears_reported (w := { w with answers := w.answers.tail }) .sendSms
      (fun ctrl => { ctrl with smsSendOnceDone := 1 })
      (captured_dbbSendSms utf8ToUcs2be w.ctrl.smsTarget w.ctrl.smsText (w.answers.headD {}).sms)
      (quiet_smsListenings utf8ToUcs2be _ _ _)).1
    rw [if_pos h]
    exact sent.of_run (serviceSms_of_pending utf8ToUcs2be (pending.mpr h)) rfl
  · rw [if_neg h]
    exact .of_same (by rw [serviceSms_of_not_pending utf8ToUcs2be (mt pending.mp h)])

open Classical in
/-- The uplink leaves the message alone. -/
theorem hears_serviceUplink {ctrl : Ctrl} {now : Int}
    (due : UplinkDue w.ctrl now ↔ UplinkDue ctrl now) :
    Hears (serviceUplink now) w
        (if UplinkDue ctrl now then [Listening.command uplinkCommand (w.answers.headD {}).port]
        else []) ∧
      (serviceUplink now w).2.answers =
        (if UplinkDue ctrl now then w.answers.tail else w.answers) ∧
      ∃ lastUplinkTs, (serviceUplink now w).2.ctrl = { w.ctrl with lastUplinkTs } := by
  by_cases h : UplinkDue ctrl now
  · have captured : (dbbAtExpect uplinkCommand none (w.answers.headD {}).port).captured =
        [Listening.command uplinkCommand (w.answers.headD {}).port].map Listening.captured :=
      captured_dbbAtExpect uplinkCommand none (w.answers.headD {}).port
    obtain ⟨sent, answers, after⟩ := hears_reported (w := { w with answers := w.answers.tail })
      .atExpect (fun ctrl => { ctrl with lastUplinkTs := now }) captured
      (List.forall_mem_singleton.mpr rfl)
    have run := serviceUplink_of_due (due.mpr h)
    rw [if_pos h, if_pos h]
    refine ⟨sent.of_run run rfl, by rw [run, answers], ?_⟩
    rw [run, after]
    split
    · exact ⟨now, rfl⟩
    · exact ⟨w.ctrl.lastUplinkTs, rfl⟩
  · have run := serviceUplink_of_not_due (mt due.mp h)
    rw [if_neg h, if_neg h]
    exact ⟨.of_same (by rw [run]), by rw [run], w.ctrl.lastUplinkTs, by rw [run]⟩

theorem hears_dbbOnlineService :
    Hears (dbbOnlineService utf8ToUcs2be) w
      (serviceListenings utf8ToUcs2be w.ctrl w.answers) := by
  obtain ⟨polled, answers, downlink, ctrl⟩ :=
    hears_monitor (w := { w with answers := w.answers.tail }) (w.answers.headD {})
  set w₁ := (monitor (w.answers.headD {}) { w with answers := w.answers.tail }).2
  have due : UplinkDue w₁.ctrl (w.answers.headD {}).now ↔
      UplinkDue w.ctrl (w.answers.headD {}).now := by rw [ctrl]; rfl
  obtain ⟨sent, answers', lastUplinkTs, ctrl'⟩ := hears_serviceUplink due
  rw [answers] at sent answers'
  set w₂ := (serviceUplink (w.answers.headD {}).now w₁).2
  have pending : SmsPending w₂.ctrl ↔ SmsPending w.ctrl := by rw [ctrl', ctrl]; rfl
  have told := hears_serviceSms utf8ToUcs2be (w := w₂) pending (by rw [ctrl', ctrl])
    (by rw [ctrl', ctrl])
  rw [answers'] at told
  have rest : Hears (serviceUplink (w.answers.headD {}).now >>= fun _ => serviceSms utf8ToUcs2be)
      w₁ _ := sent.bind told
  exact polled.bind (f := fun _ =>
    serviceUplink (w.answers.headD {}).now >>= fun _ => serviceSms utf8ToUcs2be) rest

theorem hears_dbbOnlineBroadcastService :
    Hears dbbOnlineBroadcastService w [Listening.poll (w.answers.headD {}).port] :=
  (hears_monitor (w := { w with answers := w.answers.tail }) (w.answers.headD {})).1

theorem hears_broadcastSwitch (status : Status) :
    Hears (broadcastSwitch status) w (broadcastListenings status w.answers) := by
  cases status
  case idle => exact .of_same rfl
  case powerOff | psdataOk => exact hears_setStatus _
  case onlineBroadcast => exact hears_dbbOnlineBroadcastService
  all_goals exact hears_advance (talks_dbbCfgBroadcastMode w) _

/-- A state on the way to service sends its command. -/
theorem hears_bringup (cmd : List UInt8) (expect : Option (List UInt8)) (next : Status) :
    Hears (advance (atExpect cmd expect) next) w (dialogue [⟨cmd, expect, true⟩] w.answers) :=
  hears_advance (talks_atExpect cmd expect true w) next

theorem hears_normalSwitch :
    Hears (normalSwitch utf8ToUcs2be w.ctrl.status) w
      (normalListenings utf8ToUcs2be w.ctrl w.answers) := by
  rw [normalListenings]
  cases w.ctrl.status
  case idle => exact .of_same rfl
  case init | powerOff | psdataOk => exact hears_setStatus _
  case onlineBroadcast => exact hears_advance (talks_dbbCfgNormalMode w) _
  case waitCrev => exact hears_advance (hears_waitForText (by decide)) _
  case online => exact hears_dbbOnlineService utf8ToUcs2be
  all_goals exact hears_bringup _ _ _

/-- A round appends the history of its captures. -/
theorem hears_round (w : World) (r : Round) :
    ∃ segment, Records segment (roundListenings utf8ToUcs2be w.ctrl r) ∧
      (round utf8ToUcs2be w r).history = w.history ++ segment := by
  have heard : Hears (dbbOnlineFunc utf8ToUcs2be)
      { w with ctrl := { w.ctrl with mode := r.mode }, answers := r.answers }
      (roundListenings utf8ToUcs2be w.ctrl r) := by
    change Hears (if r.mode = .broadcast then _ else _) _ (if r.mode = .broadcast then _ else _)
    split
    · exact hears_broadcastSwitch w.ctrl.status
    · exact hears_normalSwitch utf8ToUcs2be
  exact heard

/-- A run appends the history of its captures. -/
theorem records_run (w : World) (rounds : List Round) :
    ∃ segment, Records segment (listenings utf8ToUcs2be w rounds) ∧
      (rounds.foldl (round utf8ToUcs2be) w).history = w.history ++ segment := by
  induction rounds generalizing w with
  | nil => exact ⟨[], .nil, (List.append_nil _).symm⟩
  | cons r rounds ih =>
      obtain ⟨first, records, eq⟩ := hears_round utf8ToUcs2be w r
      obtain ⟨rest, records', eq'⟩ := ih (round utf8ToUcs2be w r)
      refine ⟨first ++ rest, records.append records', ?_⟩
      rw [List.foldl_cons, eq', eq, List.append_assoc]

end Thread

end Ok3506.Dbb
