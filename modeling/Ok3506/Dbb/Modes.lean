import Ok3506.Dbb.Thread
import Ok3506.Lib.History
import Ok3506.Lib.Machine

/-!
The two modes of the DBB module.

One status serves the bring-up in normal mode and the switch to broadcast mode. A
switch that fails leaves the status where it was, whatever the module has accepted
of it, and normal mode goes on from there.
-/

namespace Ok3506.Dbb

open CString At History Machine

/-! ### What the service relies on -/

/-- An AT command was answered as expected. -/
def accepted (cmd : List UInt8) (e : Event) : Prop := e = .at cmd true

/-- `dbb_wait_for_text` has seen a text. -/
def seen (text : List UInt8) : Event → Prop
  | .captured .waitForText captured =>
      captured.ret = 0 ∧ contains (cstr captured.used) text = true
  | _ => False

/-- The ten steps of the bring-up. -/
def bringUp : List (Event → Prop) :=
  [accepted (ascii "AT+CIMI"), accepted (ascii "AT+CFUN=5"), accepted (ascii "AT+CREG=1"),
    accepted (ascii "AT+CNMI=2,2,0,1,0"), accepted (ascii "AT+DSCI=1"),
    accepted (ascii "AT+CGDCONT=1,\"IP\""), accepted (ascii "AT^PSDATA=2"),
    accepted (ascii "AT+CREGXW?"), seen (ascii "+CREV: ME PDN ACT 1"),
    accepted (ascii "AT+CIREG?")]

/-- The commands of `dbb_cfg_broadcast_mode`. -/
def broadcastCommands : List (List UInt8) :=
  [ascii "AT^MISWITCH=0", ascii "AT^BMCARDSWITCH=0", ascii "AT^DUMMYUSIM=1",
    ascii "AT^BBICRSTSW=1", ascii "AT^SSRINFOXW=1", ascii "AT+CFUN=1"]

/-- What a `dbb_cfg_normal_mode` that returns 0 has done. -/
def normalMode : List (Event → Prop) :=
  [accepted (ascii "AT^MISWITCH=1"), accepted (ascii "AT^BMCARDSWITCH=1"),
    fun e => ∃ ok, e = .at (ascii "AT^BBICRSTSW=0") ok]

/-- Since the last visit to `DEV_DBB_INIT` the bring-up has succeeded in its order. -/
def BroughtUp (history : List Event) : Prop :=
  InOrder bringUp (sinceLast (.entered .init) history)

/-- Since the last visit to `DEV_DBB_INIT` no command of the broadcast mode was
accepted without a later successful `dbb_cfg_normal_mode`. -/
def Unswitched (history : List Event) : Prop :=
  ∀ cmd ∈ broadcastCommands, ∀ before after,
    sinceLast (.entered .init) history = before ++ .at cmd true :: after → InOrder normalMode after

/-- The call executes `dbb_online_service`. -/
def Serves (w : World) (r : Round) : Prop := r.mode ≠ .broadcast ∧ w.ctrl.status = .online

/-- The statuses in which a call in broadcast mode runs `dbb_cfg_broadcast_mode`. -/
def Status.switchable : Status → Bool
  | .idle | .onlineBroadcast | .powerOff | .psdataOk => false
  | _ => true

/-- The module accepts the `n`-th command of a call, when that is `cmd`. -/
def accepts (r : Round) (n : Nat) (cmd : List UInt8) : Bool :=
  (dbbAtExpect cmd (some (ascii "OK")) (r.answers.getD n {}).port).ok

/-- The call begins to switch the module to broadcast mode and does not complete:
AT^MISWITCH=0 is accepted and another of the commands that count is not. -/
def HalfSwitches (w : World) (r : Round) : Prop :=
  r.mode = .broadcast ∧ w.ctrl.status.switchable = true ∧
    accepts r 0 (ascii "AT^MISWITCH=0") = true ∧
    ¬ (accepts r 1 (ascii "AT^BMCARDSWITCH=0") = true ∧
      accepts r 2 (ascii "AT^DUMMYUSIM=1") = true ∧
      accepts r 4 (ascii "AT^SSRINFOXW=1") = true ∧ accepts r 5 (ascii "AT+CFUN=1") = true)

instance (w : World) (r : Round) : Decidable (HalfSwitches w r) :=
  inferInstanceAs (Decidable (_ ∧ _))

/-! ### What operations do to the world -/

/-- An event that is no status. -/
def Event.unmarked : Event → Prop
  | .entered _ => False
  | _ => True

/-- An event that is no status and no accepted command of the broadcast mode. -/
def Event.harmless : Event → Prop
  | .entered _ => False
  | .at cmd ok => ¬ (cmd ∈ broadcastCommands ∧ ok = true)
  | _ => True

theorem Event.harmless.unmarked {e : Event} (h : e.harmless) : e.unmarked := by
  cases e with
  | entered status => exact h
  | _ => trivial

/-- An operation that keeps the status and appends events of a kind. -/
def Adds (C : Event → Prop) {α : Type} (m : M α) : Prop :=
  ∀ w, (m w).2.ctrl.status = w.ctrl.status ∧
    ∃ events, (m w).2.history = w.history ++ events ∧ ∀ e ∈ events, C e

section Adds

variable {C : Event → Prop} {α β : Type}

theorem Adds.pure (a : α) : Adds C (Pure.pure a : M α) :=
  fun _ => ⟨rfl, [], (List.append_nil _).symm, nofun⟩

theorem Adds.bind {m : M α} {f : α → M β} (h : Adds C m) (h' : ∀ a, Adds C (f a)) :
    Adds C (m >>= f) := by
  intro w
  obtain ⟨status, events, history, kind⟩ := h w
  obtain ⟨status', events', history', kind'⟩ := h' (m w).1 (m w).2
  refine ⟨status'.trans status, events ++ events', ?_, ?_⟩
  · rw [← List.append_assoc, ← history]
    exact history'
  · intro e mem
    exact (List.mem_append.mp mem).elim (kind e) (kind' e)

theorem Adds.ite {c : Prop} [Decidable c] {m n : M α} (h : Adds C m) (h' : Adds C n) :
    Adds C (if c then m else n) := by
  split
  · exact h
  · exact h'

theorem adds_ask : Adds C ask := fun _ => ⟨rfl, [], (List.append_nil _).symm, nofun⟩

theorem adds_getCtrl : Adds C getCtrl := fun _ => ⟨rfl, [], (List.append_nil _).symm, nofun⟩

theorem adds_modifyCtrl {f : Ctrl → Ctrl} (same : ∀ c, (f c).status = c.status) :
    Adds C (modifyCtrl f) :=
  fun w => ⟨same w.ctrl, [], (List.append_nil _).symm, nofun⟩

theorem adds_record {events : List Event} (kind : ∀ e ∈ events, C e) : Adds C (record events) :=
  fun _ => ⟨rfl, events, rfl, kind⟩

end Adds

section Operations

theorem adds_exchange (caller : Caller) (done : Exchange) :
    Adds Event.harmless (exchange caller done) := by
  refine (adds_record ?_).bind fun _ => .pure _
  intro e mem
  obtain ⟨captured, -, rfl⟩ := List.mem_map.mp mem
  trivial

theorem adds_monitor (answer : Answer) : Adds Event.harmless (monitor answer) := by
  unfold monitor
  refine (adds_record ?_).bind fun _ => .ite ?_ (.pure _)
  · intro e mem
    rw [List.mem_singleton.mp mem]
    trivial
  · refine (adds_record ?_).bind fun _ => adds_modifyCtrl fun _ => rfl
    intro e mem
    rw [List.mem_singleton.mp mem]
    trivial

theorem adds_dbbOnlineService (utf8ToUcs2be : List UInt8 → Option (List UInt8)) :
    Adds Event.harmless (dbbOnlineService utf8ToUcs2be) := by
  refine adds_ask.bind fun answer => (adds_monitor answer).bind fun _ => .bind ?_ fun _ => ?_
  · refine adds_getCtrl.bind fun ctrl => .ite ?_ (.pure _)
    refine adds_ask.bind fun answer => (adds_exchange _ _).bind fun sent => ?_
    exact .ite (adds_modifyCtrl fun _ => rfl) (.pure _)
  · refine adds_getCtrl.bind fun ctrl => .ite ?_ (.pure _)
    refine adds_ask.bind fun answer => (adds_exchange _ _).bind fun sent => ?_
    exact .ite (adds_modifyCtrl fun _ => rfl) (.pure _)

/-- What `dbb_at_expect` leaves. -/
theorem atExpect_eq (cmd : List UInt8) (expect : Option (List UInt8)) (w : World) :
    atExpect cmd expect w =
      ((dbbAtExpect cmd expect (w.answers.headD {}).port).ok,
        { w with
          answers := w.answers.tail
          history := w.history ++
            ((dbbAtExpect cmd expect (w.answers.headD {}).port).captured.map
              fun captured => .captured .atExpect captured) ++
            [.at cmd (dbbAtExpect cmd expect (w.answers.headD {}).port).ok] }) :=
  rfl

theorem adds_atExpect {C : Event → Prop} (cmd : List UInt8) (expect : Option (List UInt8))
    (kind : ∀ ok, C (.at cmd ok)) (captures : ∀ captured, C (.captured .atExpect captured)) :
    Adds C (atExpect cmd expect) := by
  intro w
  rw [atExpect_eq]
  refine ⟨rfl, _, List.append_assoc _ _ _, ?_⟩
  intro e mem
  rcases List.mem_append.mp mem with mem | mem
  · obtain ⟨captured, -, rfl⟩ := List.mem_map.mp mem
    exact captures captured
  · rw [List.mem_singleton.mp mem]
    exact kind _

theorem adds_andThen {C : Event → Prop} {a b : M Bool} (h : Adds C a) (h' : Adds C b) :
    Adds C (andThen a b) :=
  h.bind fun _ => .ite h' (.pure _)

theorem adds_dbbCfgBroadcastMode : Adds Event.unmarked dbbCfgBroadcastMode := by
  have sent (cmd : List UInt8) (expect : Option (List UInt8)) :
      Adds Event.unmarked (atExpect cmd expect) :=
    adds_atExpect cmd expect (fun _ => trivial) fun _ => trivial
  refine adds_andThen (sent _ _) (adds_andThen (sent _ _) (adds_andThen (sent _ _) ?_))
  exact (sent _ _).bind fun _ => adds_andThen (sent _ _) (sent _ _)

theorem andThen_apply (a b : M Bool) (w : World) :
    andThen a b w = if (a w).1 then b (a w).2 else (false, (a w).2) := by
  change (if (a w).1 = true then b else pure false : M Bool) (a w).2 = _
  cases (a w).1 <;> rfl

theorem advance_apply (op : M Bool) (next : Status) (w : World) :
    (advance op next w).2 = if (op w).1 then (setStatus next (op w).2).2 else (op w).2 := by
  change ((if (op w).1 = true then setStatus next else pure () : M Unit) (op w).2).2 = _
  cases (op w).1 <;> rfl

end Operations

/-! ### What a call does -/

/-- How far the bring-up is. -/
def Status.progress : Status → Nat
  | .simReady => 1
  | .cfunOk => 2
  | .cregOk => 3
  | .cnmiOk => 4
  | .dsciOk => 5
  | .cgdcontOk => 6
  | .waitCregxw => 7
  | .waitCrev => 8
  | .waitCireg => 9
  | .online => 10
  | .idle | .init | .powerOn | .psdataOk | .onlineBroadcast | .powerOff => 0

/-- What a call can do to a status and a history; a switch to broadcast mode may
stop halfway when `half` holds. -/
inductive Moves (half : Prop) (status : Status) (history : List Event) :
    Status → List Event → Prop where
  | kept {events} : (∀ e ∈ events, e.harmless) →
      Moves half status history status (history ++ events)
  | advanced {next events steps} : status.switchable → next ≠ .init →
      (∀ e ∈ events, e.harmless) → InOrder steps events →
      bringUp.take next.progress = bringUp.take status.progress ++ steps →
      Moves half status history next (history ++ events ++ [.entered next])
  | halfway {events} : half → (∀ e ∈ events, e.unmarked) →
      Moves half status history status (history ++ events)
  | restarted {before} : Moves half status history .init (before ++ [.entered .init])
  | left {next after} : next.switchable = false → Moves half status history next after

/-- An operation that adds harmless events, and `done` among them when it succeeds. -/
def Performs (m : M Bool) (done : Event → Prop) : Prop :=
  ∀ w, (m w).2.ctrl.status = w.ctrl.status ∧
    ∃ events, (m w).2.history = w.history ++ events ∧ (∀ e ∈ events, e.harmless) ∧
      ((m w).1 = true → ∃ e ∈ events, done e)

section Calls

variable {half : Prop} {w : World} {status next : Status}

theorem performs_atExpect {cmd : List UInt8} (other : cmd ∉ broadcastCommands)
    (expect : Option (List UInt8)) : Performs (atExpect cmd expect) (accepted cmd) := by
  intro w
  rw [atExpect_eq]
  refine ⟨rfl, _, List.append_assoc _ _ _, ?_, ?_⟩
  · intro e mem
    rcases List.mem_append.mp mem with mem | mem
    · obtain ⟨captured, -, rfl⟩ := List.mem_map.mp mem
      trivial
    · rw [List.mem_singleton.mp mem]
      exact fun switched => other switched.1
  · intro ok
    refine ⟨.at cmd true, List.mem_append_right _ ?_, rfl⟩
    have answered : (dbbAtExpect cmd expect (w.answers.headD {}).port).ok = true := ok
    rw [answered]
    exact List.mem_singleton_self _

theorem performs_waitForText (text : List UInt8) : Performs (waitForText text) (seen text) := by
  intro w
  have run : waitForText text w = exchange .waitForText
      (dbbWaitForText text maxResponse 30000 (w.answers.headD {}).port)
      { w with answers := w.answers.tail } := rfl
  rw [run]
  unfold dbbWaitForText
  split
  · exact ⟨rfl, [], rfl, nofun, nofun⟩
  · let captured := (dbbCaptureResponse none maxResponse 30000 (w.answers.headD {}).port).1
    refine ⟨rfl, [.captured .waitForText captured], rfl, ?_, ?_⟩
    · intro e mem
      rw [List.mem_singleton.mp mem]
      trivial
    · intro ok
      have found : captured.ret = 0 ∧ contains (cstr captured.used) text = true :=
        of_decide_eq_true ok
      exact ⟨_, List.mem_singleton_self _, found⟩

theorem moves_advance {op : M Bool} {done : Event → Prop} (performs : Performs op done)
    (current : w.ctrl.status = status) (switchable : status.switchable) (notInit : next ≠ .init)
    (edge : bringUp.take next.progress = bringUp.take status.progress ++ [done]) :
    Moves half status w.history (advance op next w).2.ctrl.status
      (advance op next w).2.history := by
  obtain ⟨same, events, history, harmless, success⟩ := performs w
  rw [advance_apply]
  by_cases ok : (op w).1 = true
  · obtain ⟨e, mem, holds⟩ := success ok
    rw [if_pos ok]
    change Moves half status w.history next ((op w).2.history ++ [.entered next])
    rw [history]
    exact .advanced switchable notInit harmless (inOrder_singleton mem holds) edge
  · rw [if_neg ok, same, current, history]
    exact .kept harmless

/-- A switch whose first command is refused. -/
theorem dbbCfgBroadcastMode_refused
    (refused : (atExpect (ascii "AT^MISWITCH=0") (some (ascii "OK")) w).1 = false) :
    dbbCfgBroadcastMode w =
      (false, (atExpect (ascii "AT^MISWITCH=0") (some (ascii "OK")) w).2) := by
  rw [dbbCfgBroadcastMode, andThen_apply, if_neg (by rw [refused]; exact nofun)]

/-- A switch whose commands are all accepted, but for one that does not count. -/
theorem dbbCfgBroadcastMode_accepted {r : Round} (given : w.answers = r.answers)
    (miswitch : accepts r 0 (ascii "AT^MISWITCH=0") = true)
    (bmcard : accepts r 1 (ascii "AT^BMCARDSWITCH=0") = true)
    (dummyusim : accepts r 2 (ascii "AT^DUMMYUSIM=1") = true)
    (ssrinfo : accepts r 4 (ascii "AT^SSRINFOXW=1") = true)
    (cfun : accepts r 5 (ascii "AT+CFUN=1") = true) :
    (dbbCfgBroadcastMode w).1 = true := by
  have answer (n : Nat) (cmd : List UInt8) (later : World)
      (reached : later.answers.headD {} = r.answers.getD n {}) (ok : accepts r n cmd = true) :
      (atExpect cmd (some (ascii "OK")) later).1 = true := by
    rw [atExpect_eq, reached]
    exact ok
  -- AT^BBICRSTSW=1 is sent without a look at its answer
  have sent (cmd : List UInt8) (x : M Bool) (later : World) :
      (do let _ ← atExpect cmd none; x : M Bool) later = x (atExpect cmd none later).2 := rfl
  unfold dbbCfgBroadcastMode
  rw [andThen_apply, if_pos (answer 0 _ _ (by simp [given, List.head?_eq_getElem?]) miswitch)]
  rw [andThen_apply, if_pos (answer 1 _ _ (by simp [atExpect_eq, given]) bmcard)]
  rw [andThen_apply, if_pos (answer 2 _ _ (by simp [atExpect_eq, given]) dummyusim)]
  rw [sent, andThen_apply, if_pos (answer 4 _ _ (by simp [atExpect_eq, given]) ssrinfo)]
  exact answer 5 _ _ (by simp [atExpect_eq, given]) cfun

/-- The switch of a call in broadcast mode. -/
theorem moves_dbbCfgBroadcastMode {r : Round} (given : w.answers = r.answers)
    (current : w.ctrl.status = status)
    (halfway : accepts r 0 (ascii "AT^MISWITCH=0") = true →
      ¬ (accepts r 1 (ascii "AT^BMCARDSWITCH=0") = true ∧
        accepts r 2 (ascii "AT^DUMMYUSIM=1") = true ∧
        accepts r 4 (ascii "AT^SSRINFOXW=1") = true ∧ accepts r 5 (ascii "AT+CFUN=1") = true) →
      half) :
    Moves half status w.history (advance dbbCfgBroadcastMode .onlineBroadcast w).2.ctrl.status
      (advance dbbCfgBroadcastMode .onlineBroadcast w).2.history := by
  rw [advance_apply]
  split
  · exact .left rfl
  · rename_i failed
    by_cases first : accepts r 0 (ascii "AT^MISWITCH=0") = true
    · obtain ⟨same, events, history, unmarked⟩ := adds_dbbCfgBroadcastMode w
      rw [same, current, history]
      refine .halfway (halfway first ?_) unmarked
      rintro ⟨bmcard, dummyusim, ssrinfo, cfun⟩
      exact failed (dbbCfgBroadcastMode_accepted given first bmcard dummyusim ssrinfo cfun)
    · have refused :
          (dbbAtExpect (ascii "AT^MISWITCH=0") (some (ascii "OK")) (w.answers.headD {}).port).ok =
            false := by
        rw [given, List.headD_eq_head?_getD, List.head?_eq_getElem?, ← Bool.not_eq_true]
        exact first
      rw [dbbCfgBroadcastMode_refused refused, atExpect_eq, refused, List.append_assoc]
      change Moves half status w.history w.ctrl.status _
      rw [current]
      refine .kept ?_
      intro e mem
      rcases List.mem_append.mp mem with mem | mem
      · obtain ⟨captured, -, rfl⟩ := List.mem_map.mp mem
        trivial
      · rw [List.mem_singleton.mp mem]
        exact fun switched => nomatch switched.2

theorem moves_broadcastSwitch {r : Round} (mode : r.mode = .broadcast)
    (given : w.answers = r.answers) (current : w.ctrl.status = status)
    (halfway : HalfSwitches w r → half) :
    Moves half status w.history (broadcastSwitch status w).2.ctrl.status
      (broadcastSwitch status w).2.history := by
  have switch (switchable : status.switchable = true) :=
    moves_dbbCfgBroadcastMode given current fun first refused =>
      halfway ⟨mode, by rw [current]; exact switchable, first, refused⟩
  cases status with
  | idle =>
      refine .left ?_
      change w.ctrl.status.switchable = false
      rw [current]
      rfl
  | onlineBroadcast =>
      have served : Adds Event.harmless dbbOnlineBroadcastService :=
        adds_ask.bind fun answer => adds_monitor answer
      refine .left ?_
      change (dbbOnlineBroadcastService w).2.ctrl.status.switchable = false
      rw [(served w).1, current]
      rfl
  | powerOff => exact .left rfl
  | psdataOk => exact .restarted
  | _ => exact switch rfl

theorem moves_normalSwitch (utf8ToUcs2be : List UInt8 → Option (List UInt8))
    (current : w.ctrl.status = status) :
    Moves half status w.history (normalSwitch utf8ToUcs2be status w).2.ctrl.status
      (normalSwitch utf8ToUcs2be status w).2.history := by
  cases status with
  | idle =>
      refine .left ?_
      change w.ctrl.status.switchable = false
      rw [current]
      rfl
  | onlineBroadcast =>
      have sent (cmd : List UInt8) (expect : Option (List UInt8)) :
          Adds Event.unmarked (atExpect cmd expect) :=
        adds_atExpect cmd expect (fun _ => trivial) fun _ => trivial
      have configured : Adds Event.unmarked dbbCfgNormalMode :=
        adds_andThen (sent _ _) (adds_andThen (sent _ _) ((sent _ _).bind fun _ => .pure _))
      change Moves half _ _ (advance dbbCfgNormalMode .init w).2.ctrl.status
        (advance dbbCfgNormalMode .init w).2.history
      rw [advance_apply]
      split
      · exact .restarted
      · rw [(configured w).1, current]
        exact .left rfl
  | init =>
      change Moves half .init w.history .powerOn (w.history ++ [.entered .powerOn])
      have moves : Moves half .init w.history .powerOn (w.history ++ [] ++ [.entered .powerOn]) :=
        .advanced rfl nofun nofun inOrder_nil rfl
      rwa [List.append_nil] at moves
  | powerOn | simReady | cfunOk | cregOk | cnmiOk | dsciOk | cgdcontOk | waitCregxw | waitCireg =>
      exact moves_advance (performs_atExpect (by decide) _) current rfl nofun rfl
  | waitCrev => exact moves_advance (performs_waitForText _) current rfl nofun rfl
  | online =>
      obtain ⟨same, events, history, harmless⟩ := adds_dbbOnlineService utf8ToUcs2be w
      change Moves half _ _ (dbbOnlineService utf8ToUcs2be w).2.ctrl.status
        (dbbOnlineService utf8ToUcs2be w).2.history
      rw [same, current, history]
      exact .kept harmless
  | powerOff => exact .left rfl
  | psdataOk => exact .restarted

/-- **What a call can do.** -/
theorem moves_round (utf8ToUcs2be : List UInt8 → Option (List UInt8)) (w : World) (r : Round) :
    Moves (HalfSwitches w r) w.ctrl.status w.history (round utf8ToUcs2be w r).ctrl.status
      (round utf8ToUcs2be w r).history := by
  let started : World :=
    { w with ctrl := { w.ctrl with mode := r.mode }, answers := r.answers }
  have run : round utf8ToUcs2be w r =
      ((if r.mode = .broadcast then broadcastSwitch w.ctrl.status
        else normalSwitch utf8ToUcs2be w.ctrl.status : M Unit) started).2 := rfl
  rw [run]
  split
  · rename_i mode
    exact moves_broadcastSwitch (w := started) mode rfl rfl id
  · exact moves_normalSwitch (w := started) utf8ToUcs2be rfl

end Calls

/-! ### Along a run -/

/-- How far the bring-up is since the last visit to `DEV_DBB_INIT`. -/
def Trail (status : Status) (history : List Event) : Prop :=
  InOrder (bringUp.take status.progress) (sinceLast (.entered .init) history)

/-- Where normal mode can go on, nothing of the broadcast mode has been accepted. -/
def Clean (status : Status) (history : List Event) : Prop :=
  status.switchable →
    ∀ cmd ∈ broadcastCommands, .at cmd true ∉ sinceLast (.entered .init) history

section Invariants

variable {half : Prop} {status status' : Status} {history history' events : List Event}

theorem init_not_mem (unmarked : ∀ e ∈ events, e.unmarked) : .entered .init ∉ events :=
  fun mem => unmarked _ mem

theorem Trail.append (h : Trail status history) (unmarked : ∀ e ∈ events, e.unmarked) :
    Trail status (history ++ events) := by
  unfold Trail
  rw [sinceLast_append (init_not_mem unmarked)]
  exact h.extend events

theorem trail_of_start (start : status.progress = 0) : Trail status history := by
  unfold Trail
  rw [start]
  exact inOrder_nil

theorem progress_of_not_switchable (h : status.switchable = false) : status.progress = 0 := by
  cases status <;> first | rfl | cases h

/-- Every call keeps the trail. -/
theorem Trail.moves (h : Trail status history)
    (moves : Moves half status history status' history') :
    Trail status' history' := by
  cases moves with
  | kept harmless => exact h.append fun e mem => (harmless e mem).unmarked
  | advanced switchable notInit harmless done edge =>
      have others : .entered .init ∉ [Event.entered status'] := by
        rw [List.mem_singleton, Event.entered.injEq]
        exact notInit.symm
      unfold Trail
      rw [edge, sinceLast_append others,
        sinceLast_append (init_not_mem fun e mem => (harmless e mem).unmarked)]
      exact (InOrder.append h done).extend _
  | halfway _ unmarked => exact h.append unmarked
  | restarted => exact trail_of_start rfl
  | left other => exact trail_of_start (progress_of_not_switchable other)

/-- A call that does not switch halfway keeps the module clean. -/
theorem Clean.moves (h : Clean status history) (moves : Moves half status history status' history')
    (whole : ¬ half) : Clean status' history' := by
  have add {events : List Event} (harmless : ∀ e ∈ events, e.harmless)
      (switchable : status.switchable) (cmd : List UInt8) (mem : cmd ∈ broadcastCommands) :
      .at cmd true ∉ sinceLast (.entered .init) (history ++ events) := by
    rw [sinceLast_append (init_not_mem fun e mem => (harmless e mem).unmarked), List.mem_append]
    rintro (before | now)
    · exact h switchable cmd mem before
    · exact harmless _ now ⟨mem, rfl⟩
  cases moves with
  | kept harmless => exact fun switchable => add harmless switchable
  | advanced switchable notInit harmless done edge =>
      intro _ cmd mem
      have others : .entered .init ∉ [Event.entered status'] := by
        rw [List.mem_singleton, Event.entered.injEq]
        exact notInit.symm
      rw [sinceLast_append others, List.mem_append]
      rintro (before | now)
      · exact add harmless switchable cmd mem before
      · cases List.mem_singleton.mp now
  | halfway stopped _ => exact (whole stopped).elim
  | restarted =>
      intro _ cmd mem
      rw [sinceLast_marker]
      exact nofun
  | left other =>
      intro switchable
      rw [other] at switchable
      cases switchable

theorem Clean.unswitched (h : Clean status history) (switchable : status.switchable) :
    Unswitched history := by
  intro cmd mem before after same
  refine (h switchable cmd mem ?_).elim
  rw [same]
  exact List.mem_append_right _ List.mem_cons_self

end Invariants

section Service

variable (utf8ToUcs2be : List UInt8 → Option (List UInt8))

/-- A call of `dbb_online_func`. -/
def roundStep (w : World) (r : Round) : World × Unit := (round utf8ToUcs2be w r, ())

/-- **The service in normal mode.** Along every run from `DEV_DBB_INIT` the bring-up
has succeeded, in its order and since the last visit to `DEV_DBB_INIT`, whenever
`dbb_online_service` is executed. When no call switches the module halfway to
broadcast mode, the module is in normal mode then, too. -/
theorem service_configured (ctrl : Ctrl) (rounds : List Round) :
    Steps (roundStep utf8ToUcs2be) (fun w r => Serves w r → BroughtUp w.history)
        { ctrl := { ctrl with status := .init } } rounds ∧
      (Steps (roundStep utf8ToUcs2be) (fun w r => ¬ HalfSwitches w r)
          { ctrl := { ctrl with status := .init } } rounds →
        Steps (roundStep utf8ToUcs2be)
          (fun w r => Serves w r → BroughtUp w.history ∧ Unswitched w.history)
          { ctrl := { ctrl with status := .init } } rounds) := by
  have broughtUp {w : World} {r : Round} (trail : Trail w.ctrl.status w.history)
      (serves : Serves w r) : BroughtUp w.history := by
    rw [serves.2] at trail
    exact trail
  constructor
  · refine steps_of_keeps (I := fun w => Trail w.ctrl.status w.history) (C := fun _ _ => True)
      ?_ ?_ (trail_of_start rfl) fun _ _ _ => trivial
    · exact fun w r trail _ => trail.moves (moves_round utf8ToUcs2be w r)
    · exact fun w r trail _ => broughtUp trail
  · refine steps_of_keeps
      (I := fun w => Trail w.ctrl.status w.history ∧ Clean w.ctrl.status w.history) ?_ ?_ ?_
    · rintro w r ⟨trail, clean⟩ whole
      have moves := moves_round utf8ToUcs2be w r
      exact ⟨trail.moves moves, clean.moves moves whole⟩
    · rintro w r ⟨trail, clean⟩ - serves
      exact ⟨broughtUp trail serves, clean.unswitched (by rw [serves.2]; rfl)⟩
    · exact ⟨trail_of_start rfl, fun _ _ _ => nofun⟩

end Service

/-- A response to an AT command, or an event. -/
def response (text : List UInt8) : Answer :=
  { port := { read := [.read text, .silence, .silence] } }

def normalRound (answers : List Answer) : Round := { mode := .normal, answers }

/-- A bring-up in which everything succeeds. -/
def onlineRounds : List Round :=
  [[], [response (ascii "OK")], [response (ascii "OK")], [response (ascii "OK")],
    [response (ascii "OK")], [response (ascii "OK")], [response (ascii "OK")],
    [response (ascii "OK")], [response (ascii "+CREGXW:1 OK")],
    [response (ascii "+CREV: ME PDN ACT 1")], [response (ascii "+CIREG:1 OK")]].map normalRound

/-- AT^MISWITCH=0 is accepted, AT^BMCARDSWITCH=0 is not. -/
def halfRound : Round :=
  { mode := .broadcast, answers := [response (ascii "OK"), response (ascii "ERROR")] }

/-- The module is switched to broadcast mode, listens there, and is switched back. -/
def broadcastAndBack : List Round :=
  [{ mode := .broadcast, answers := List.replicate 6 (response (ascii "OK")) },
    { mode := .broadcast, answers := [] },
    normalRound (List.replicate 3 (response (ascii "OK")))]

/-- A run with service before broadcast mode and behind it. -/
theorem service_configured_broadcastAndBack :
    ((final (roundStep some) { ctrl := { status := .init } }
        (onlineRounds ++ [normalRound []] ++ broadcastAndBack.take 1)).ctrl.status =
          .onlineBroadcast ∧
      Serves (final (roundStep some) { ctrl := { status := .init } }
        (onlineRounds ++ [normalRound []] ++ broadcastAndBack ++ onlineRounds)) (normalRound [])) ∧
    Steps (roundStep some) (fun w r => Serves w r → BroughtUp w.history ∧ Unswitched w.history)
      { ctrl := { status := .init } }
      (onlineRounds ++ [normalRound []] ++ broadcastAndBack ++ onlineRounds ++ [normalRound []]) :=
  ⟨⟨by decide +kernel, by decide, by decide +kernel⟩,
    (service_configured some {} _).2 (by decide +kernel)⟩

/-- The service runs on a module that is half switched to broadcast mode. -/
theorem service_half_switched :
    ¬ Steps (roundStep some) (fun w r => Serves w r → BroughtUp w.history ∧ Unswitched w.history)
      { ctrl := { status := .init } } (onlineRounds ++ [halfRound, normalRound []]) := by
  intro safe
  let w := final (roundStep some) { ctrl := { status := .init } } (onlineRounds ++ [halfRound])
  let since := sinceLast (.entered .init) w.history
  have serves : Serves w (normalRound []) := ⟨by decide, by decide +kernel⟩
  have begins : onlineRounds ++ [halfRound] ++ [normalRound []] <+:
      onlineRounds ++ [halfRound, normalRound []] := by
    rw [List.append_assoc]
    exact List.prefix_rfl
  have unswitched := (safe _ _ begins serves).2
  have half : since = since.take 31 ++ .at (ascii "AT^MISWITCH=0") true :: since.drop 32 := by
    decide +kernel
  have normal := unswitched _ (by decide) _ _ half
  obtain ⟨e, mem, rfl⟩ := normal.exists_mem (List.mem_cons_self)
  have missing : .at (ascii "AT^MISWITCH=1") true ∉ since.drop 32 := by decide +kernel
  exact missing mem

end Ok3506.Dbb
