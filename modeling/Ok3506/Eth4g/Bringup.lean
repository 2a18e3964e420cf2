import Ok3506.Eth4g.Device
import Ok3506.Lib.History
import Ok3506.Lib.Machine

/-!
The order of the 4G bring-up.

`Inv` says, for each status, which operations have succeeded since the last
entries to `DEV_4G_INIT` and `DEV_4G_AT_READY`. Operations only append their
outcomes to the history (`Reports`), so a step either leaves the trail of its
status alone or extends it by what it did.
-/

namespace Ok3506.Eth4g

open CString At Machine

/-! ### What operations do to the world -/

/-- The members that no operation below the state machine changes. -/
structure Same (c c' : Ctrl) : Prop where
  enabled : c'.enabled = c.enabled
  status : c'.status = c.status
  apn : c'.apn = c.apn

theorem Same.refl (c : Ctrl) : Same c c := ⟨rfl, rfl, rfl⟩

theorem Same.trans {a b c : Ctrl} (h : Same a b) (h' : Same b c) : Same a c :=
  ⟨h'.enabled.trans h.enabled, h'.status.trans h.status, h'.apn.trans h.apn⟩

/-- An operation that leaves no trace. -/
def Quiet {α : Type} (m : M α) : Prop :=
  ∀ w, Same w.ctrl (m w).2.ctrl ∧ (m w).2.history = w.history

section Quiet

variable {α β : Type}

theorem Quiet.pure (a : α) : Quiet (Pure.pure a : M α) := fun w => ⟨.refl w.ctrl, rfl⟩

theorem Quiet.bind {m : M α} {f : α → M β} (h : Quiet m) (h' : ∀ a, Quiet (f a)) :
    Quiet (m >>= f) := by
  intro w
  obtain ⟨same, kept⟩ := h w
  obtain ⟨same', kept'⟩ := h' (m w).1 (m w).2
  exact ⟨same.trans same', kept'.trans kept⟩

theorem Quiet.ite {c : Prop} [Decidable c] {m n : M α} (h : Quiet m) (h' : Quiet n) :
    Quiet (if c then m else n) := by
  split
  · exact h
  · exact h'

theorem quiet_ask : Quiet ask := fun w => ⟨.refl w.ctrl, rfl⟩

theorem quiet_getCtrl : Quiet getCtrl := fun w => ⟨.refl w.ctrl, rfl⟩

theorem quiet_setFd (fd : Int) : Quiet (setFd fd) := fun _ => ⟨⟨rfl, rfl, rfl⟩, rfl⟩

theorem quiet_call : Quiet call := quiet_ask.bind fun _ => .pure _

theorem quiet_closeDevice : Quiet closeDevice :=
  quiet_getCtrl.bind fun _ => .ite (quiet_setFd _) (.pure _)

theorem quiet_openDevice : Quiet openDevice := by
  refine quiet_getCtrl.bind fun ctrl => .ite (.pure _) ?_
  refine quiet_ask.bind fun answer => (quiet_setFd _).bind fun _ => .ite (.pure _) ?_
  exact .ite (.pure _) (quiet_closeDevice.bind fun _ => .pure _)

theorem quiet_captureAtResponse (cmd : List UInt8) : Quiet (captureAtResponse cmd) := by
  refine quiet_openDevice.bind fun opened => .ite (.pure _) ?_
  exact quiet_ask.bind fun answer => .pure _

theorem quiet_waitForIfaceLoop (n : Nat) : Quiet (waitForIfaceLoop n) := by
  induction n with
  | zero => exact .pure _
  | succ n ih => exact quiet_call.bind fun present => .ite (.pure _) ih

theorem quiet_waitForIpLoop (ipCommand ifconfigCommand : List UInt8) (n : Nat) :
    Quiet (waitForIpLoop ipCommand ifconfigCommand n) := by
  induction n with
  | zero => exact .pure _
  | succ n ih =>
      refine .ite (.pure _) (quiet_call.bind fun found => .ite (.pure _) ?_)
      exact .ite (.pure _) (quiet_call.bind fun found => .ite (.pure _) ih)

end Quiet

/-- An event other than a status or an acknowledged AT+CFUN=0. -/
def Event.plain : Event → Prop
  | .entered _ => False
  | .done op ok => ¬ (op = .at standbyCommand ∧ ok = true)

/-- The success of some operations. -/
def succeeded (ops : List Operation) : List Event := ops.map fun op => .done op true

/-- An operation that appends plain events to the history, and among them the
success of `ops` when it succeeds. -/
def Reports (m : M Bool) (ops : List UInt8 → List Operation) : Prop :=
  ∀ w, Same w.ctrl (m w).2.ctrl ∧ ∃ events, (m w).2.history = w.history ++ events ∧
    (∀ e ∈ events, e.plain) ∧ ((m w).1 = true → (succeeded (ops w.ctrl.apn)).Sublist events)

section Reports

variable {ops ops' : List UInt8 → List Operation}

theorem Reports.pure_false : Reports (pure false) ops :=
  fun w => ⟨.refl w.ctrl, [], (List.append_nil _).symm, nofun, nofun⟩

theorem reports_record {op : Operation} (other : op ≠ .at standbyCommand) (ok : Bool) :
    Reports (record op ok) fun _ => [op] := by
  intro w
  refine ⟨.refl w.ctrl, [.done op ok], rfl, ?_, ?_⟩
  · intro e mem
    rw [List.mem_singleton.mp mem]
    exact fun h => other h.1
  · rintro rfl
    exact List.Sublist.refl _

theorem Reports.bind {α : Type} {m : M α} {f : α → M Bool} (h : Quiet m)
    (h' : ∀ a, Reports (f a) ops) : Reports (m >>= f) ops := by
  intro w
  obtain ⟨same, kept⟩ := h w
  obtain ⟨same', events, history, plain, success⟩ := h' (m w).1 (m w).2
  exact ⟨same.trans same', events, history.trans (by rw [kept]), plain, same.apn ▸ success⟩

theorem Reports.ite {c : Prop} [Decidable c] {m n : M Bool} (h : Reports m ops)
    (h' : Reports n ops) : Reports (if c then m else n) ops := by
  split
  · exact h
  · exact h'

theorem andThen_apply (a b : M Bool) (w : World) :
    andThen a b w = if (a w).1 then b (a w).2 else (false, (a w).2) := by
  change (if (a w).1 = true then b else pure false : M Bool) (a w).2 = _
  cases (a w).1 <;> rfl

theorem Reports.andThen {a b : M Bool} (h : Reports a ops) (h' : Reports b ops') :
    Reports (andThen a b) fun apn => ops apn ++ ops' apn := by
  intro w
  obtain ⟨same, events, history, plain, success⟩ := h w
  rw [andThen_apply]
  by_cases first : (a w).1 = true
  · obtain ⟨same', events', history', plain', success'⟩ := h' (a w).2
    rw [if_pos first]
    refine ⟨same.trans same', events ++ events', ?_, ?_, ?_⟩
    · rw [history', history, List.append_assoc]
    · intro e mem
      exact (List.mem_append.mp mem).elim (plain e) (plain' e)
    · intro second
      rw [succeeded, List.map_append]
      exact (success first).append (same.apn ▸ success' second)
  · rw [if_neg first]
    exact ⟨same, events, history, plain, nofun⟩

/-! ### The operations of the bring-up -/

theorem reports_atExpect {cmd : List UInt8} (other : cmd ≠ standbyCommand) (expect : List UInt8) :
    Reports (atExpect cmd expect) fun _ => [.at cmd] := by
  have op : Operation.at cmd ≠ .at standbyCommand := fun same => other (Operation.at.inj same)
  refine .bind (quiet_captureAtResponse cmd) ?_
  intro response
  cases response <;> exact reports_record op _

theorem reports_query {op : Operation} (other : op ≠ .at standbyCommand) (cmd : List UInt8)
    (texts : List (List UInt8)) : Reports (query op cmd texts) fun _ => [op] := by
  refine .bind (quiet_captureAtResponse cmd) ?_
  intro response
  cases response <;> exact reports_record other _

theorem reports_simReady : Reports simReady fun _ => [.simReady] := reports_query (by nofun) _ _

theorem reports_signalQuality : Reports signalQuality fun _ => [.signalQuality] :=
  reports_query (by nofun) _ _

theorem reports_registrationOk : Reports registrationOk fun _ => [.registration] :=
  reports_query (by nofun) _ _

theorem reports_packetAttached : Reports packetAttached fun _ => [.packetAttached] :=
  reports_query (by nofun) _ _

theorem apnCommand_ne_standbyCommand (apn : List UInt8) : apnCommand apn ≠ standbyCommand := by
  intro same
  have letter : (apnCommand apn)[4]? = (ascii "AT+CGDCONT=1,\"IP\",\"")[4]? := by
    rw [apnCommand, List.append_assoc]
    exact List.getElem?_append_left (by decide)
  rw [same] at letter
  exact absurd letter (by decide)

theorem reports_setApn : Reports setApn fun apn => [.at (apnCommand apn)] := by
  intro w
  have run : setApn w = (if 128 ≤ (apnCommand w.ctrl.apn).length then pure false
      else atExpect (apnCommand w.ctrl.apn) (ascii "OK") : M Bool) w := rfl
  rw [run]
  split
  · exact (Reports.pure_false : Reports _ fun apn => [.at (apnCommand apn)]) w
  · exact reports_atExpect (apnCommand_ne_standbyCommand _) _ w

theorem statusOk_eq : statusOk = andThen simReady (andThen registrationOk packetAttached) := by
  funext w
  rw [andThen_apply, andThen_apply]
  change (if ¬ (simReady w).1 = true then pure false else (do
    if ¬ (← registrationOk) then return false
    packetAttached) : M Bool) (simReady w).2 = _
  cases (simReady w).1
  · rfl
  · change (if ¬ (registrationOk (simReady w).2).1 = true then pure false else packetAttached :
      M Bool) (registrationOk (simReady w).2).2 = _
    cases (registrationOk (simReady w).2).1 <;> rfl

theorem reports_statusOk :
    Reports statusOk fun _ => [.simReady] ++ ([.registration] ++ [.packetAttached]) := by
  rw [statusOk_eq]
  exact reports_simReady.andThen (reports_registrationOk.andThen reports_packetAttached)

theorem reports_bringIfaceUp : Reports bringIfaceUp fun _ => [.ifaceUp] := by
  refine .bind quiet_getCtrl fun ctrl => .ite (reports_record (by nofun) _) ?_
  exact .bind quiet_call fun ok => reports_record (by nofun) _

theorem reports_waitForIface (n : Nat) : Reports (waitForIface n) fun _ => [.iface] := by
  refine .bind quiet_getCtrl fun ctrl => .ite (reports_record (by nofun) _) ?_
  exact .bind (quiet_waitForIfaceLoop n) fun ok => reports_record (by nofun) _

theorem reports_startDhcp : Reports startDhcp fun _ => [.dhcp] := by
  have run (length : Nat) :
      Reports (if 256 ≤ length then record .dhcp false else call >>= record .dhcp)
        fun _ => [.dhcp] :=
    .ite (reports_record (by nofun) _) (.bind quiet_call fun ok => reports_record (by nofun) _)
  refine .bind quiet_getCtrl fun ctrl => .bind quiet_call fun udhcpc => .ite (run _) ?_
  exact .bind quiet_call fun dhclient => .ite (run _) (reports_record (by nofun) _)

theorem reports_waitForIp (n : Nat) : Reports (waitForIp n) fun _ => [.ip] := by
  refine .bind quiet_getCtrl fun ctrl => ?_
  exact .bind (quiet_waitForIpLoop _ _ n) fun ok => reports_record (by nofun) _

theorem reports_powerOn : Reports powerOn fun _ => [.powerOn] := by
  have fails : Reports (record .powerOn false) fun _ => [.powerOn] := reports_record (by nofun) _
  refine .bind quiet_call fun reset => .ite fails (.bind quiet_call fun power => .ite fails ?_)
  exact .bind quiet_call fun usb => .ite fails (reports_record (by nofun) _)

end Reports

/-- The outcome of an AT command is what its history says. -/
theorem atExpect_spec (cmd expect : List UInt8) (w : World) :
    Same w.ctrl (atExpect cmd expect w).2.ctrl ∧
      (atExpect cmd expect w).2.history =
        w.history ++ [.done (.at cmd) (atExpect cmd expect w).1] := by
  obtain ⟨same, kept⟩ := quiet_captureAtResponse cmd w
  have run : atExpect cmd expect w = record (.at cmd)
      ((captureAtResponse cmd w).1.elim false fun response =>
        contains response (ascii "OK") && contains response expect)
      (captureAtResponse cmd w).2 := by
    unfold atExpect
    change StateT.bind (captureAtResponse cmd) _ w = _
    unfold StateT.bind
    obtain ⟨response, after⟩ := captureAtResponse cmd w
    cases response <;> rfl
  rw [run]
  exact ⟨same, congrArg (· ++ _) kept⟩

/-! ### Trails -/

/-- The history since a status was last entered. -/
def since (marker : Status) (history : List Event) : List Event :=
  (history.reverse.takeWhile (· ≠ .entered marker)).reverse

/-- What has to have succeeded since the last entry to `DEV_4G_INIT`. -/
def handshake : Status → List Operation
  | .idle | .init | .powerOff => []
  | .powerOn => [.powerOn]
  | _ => [.powerOn, .at (ascii "AT"), .at (ascii "ATE0")]

/-- The bring-up from `DEV_4G_AT_READY` to `DEV_4G_ONLINE`. -/
def bringUp (apn : List UInt8) : List Operation :=
  [.simReady, .signalQuality, .at (ascii "AT+CFUN=1"), .at (ascii "AT+CFUN?"), .registration,
    .at (apnCommand apn), .at (ascii "AT+CGATT=1"), .packetAttached, .ifaceUp, .iface, .dhcp, .ip]

/-- How far the bring-up is. -/
def Status.progress : Status → Nat
  | .idle | .init | .powerOn | .atReady | .powerOff => 0
  | .simReady => 1
  | .signalOk => 2
  | .cfunOk => 4
  | .registered => 5
  | .apnOk => 6
  | .attached => 8
  | .ifaceUp => 9
  | .linkUp => 10
  | .dhcpOk | .ipOk => 11
  | .online => 12

/-- The statuses from `DEV_4G_AT_READY` on. -/
def Status.ready : Status → Bool
  | .idle | .init | .powerOn | .powerOff => false
  | _ => true

/-- The trail of a status. -/
structure Trail (status : Status) (apn : List UInt8) (history : List Event) : Prop where
  handshake : (succeeded (handshake status)).Sublist (since .init history)
  bringUp : (succeeded ((bringUp apn).take status.progress)).Sublist (since .atReady history)
  powered : status.ready → .done (.at standbyCommand) true ∉ since .atReady history

section Trails

variable {status next : Status} {apn : List UInt8} {history events : List Event}

theorem since_append {marker : Status} (others : .entered marker ∉ events) :
    since marker (history ++ events) = since marker history ++ events :=
  History.sinceLast_append others

theorem since_entered (marker : Status) (history : List Event) :
    since marker (history ++ [.entered marker]) = [] :=
  History.sinceLast_marker

theorem entered_not_mem (plain : ∀ e ∈ events, e.plain) (marker : Status) :
    .entered marker ∉ events := fun mem => plain _ mem

theorem standby_not_mem (plain : ∀ e ∈ events, e.plain) :
    .done (.at standbyCommand) true ∉ events := fun mem => plain _ mem ⟨rfl, rfl⟩

/-- A status without a trail. -/
theorem Trail.of_start (h : Eth4g.handshake status = []) (progress : status.progress = 0)
    (ready : status.ready = false) : Trail status apn history where
  handshake := by
    rw [h]
    exact List.nil_sublist _
  bringUp := by
    rw [progress]
    exact List.nil_sublist _
  powered := by
    rw [ready]
    exact nofun

/-- Plain events keep the trail. -/
theorem Trail.append (h : Trail status apn history) (plain : ∀ e ∈ events, e.plain) :
    Trail status apn (history ++ events) where
  handshake := by
    rw [since_append (entered_not_mem plain _)]
    exact h.handshake.trans (List.sublist_append_left _ _)
  bringUp := by
    rw [since_append (entered_not_mem plain _)]
    exact h.bringUp.trans (List.sublist_append_left _ _)
  powered := by
    intro ready
    rw [since_append (entered_not_mem plain _), List.mem_append]
    exact not_or.mpr ⟨h.powered ready, standby_not_mem plain⟩

/-- Entering another status than the two markers keeps what was done. -/
theorem since_entered_other {marker : Status} (other : next ≠ marker) :
    since marker (history ++ [.entered next]) = since marker history ++ [.entered next] := by
  apply since_append
  rw [List.mem_singleton, Event.entered.injEq]
  exact fun same => other same.symm

/-- A status that follows `status` when `ops` have succeeded. -/
structure Follows (status next : Status) (apn : List UInt8) (ops : List Operation) : Prop where
  notInit : next ≠ .init
  notReady : next ≠ .atReady
  ready : status.ready
  handshake : handshake next = handshake status
  bringUp : (bringUp apn).take next.progress = (bringUp apn).take status.progress ++ ops

theorem Trail.advance {ops : List Operation} (h : Trail status apn history)
    (plain : ∀ e ∈ events, e.plain) (success : (succeeded ops).Sublist events)
    (follows : Follows status next apn ops) :
    Trail next apn (history ++ events ++ [.entered next]) where
  handshake := by
    rw [since_entered_other follows.notInit, follows.handshake]
    exact (h.append plain).handshake.trans (List.sublist_append_left _ _)
  bringUp := by
    rw [since_entered_other follows.notReady, since_append (entered_not_mem plain _),
      follows.bringUp, succeeded, List.map_append]
    exact (h.bringUp.append success).trans (List.sublist_append_left _ _)
  powered := by
    intro _
    rw [since_entered_other follows.notReady, List.mem_append, List.mem_singleton]
    exact not_or.mpr ⟨(h.append plain).powered follows.ready, nofun⟩

/-- A first pass, or a soft recovery, enters `DEV_4G_AT_READY`. -/
theorem Trail.enter_atReady
    (h : (succeeded (Eth4g.handshake .atReady)).Sublist (since .init history)) :
    Trail .atReady apn (history ++ [.entered .atReady]) where
  handshake := by
    rw [since_entered_other (by decide)]
    exact h.trans (List.sublist_append_left _ _)
  bringUp := List.nil_sublist _
  powered := by
    intro _
    rw [since_entered]
    exact nofun

end Trails

/-! ### One call -/

/-- The invariant: the trail of the current status. -/
def Inv (w : World) : Prop := Trail w.ctrl.status w.ctrl.apn w.history

section Keeps

variable {w : World}

theorem Inv.quiet {α : Type} {m : M α} (h : Inv w) (quiet : Quiet m) : Inv (m w).2 := by
  obtain ⟨same, kept⟩ := quiet w
  unfold Inv
  rw [same.status, same.apn, kept]
  exact h

theorem Inv.reports {m : M Bool} {ops : List UInt8 → List Operation} (h : Inv w)
    (reports : Reports m ops) : Inv (m w).2 := by
  obtain ⟨same, events, history, plain, -⟩ := reports w
  unfold Inv
  rw [same.status, same.apn, history]
  exact Trail.append h plain

/-- `if (m) { x }`. -/
theorem when_apply (m : M Bool) (x : M Unit) (w : World) :
    ((do if ← m then x : M Unit) w).2 = if (m w).1 then (x (m w).2).2 else (m w).2 := by
  change ((if (m w).1 = true then x else pure () : M Unit) (m w).2).2 = _
  cases (m w).1 <;> rfl

/-- Advancing within the bring-up. -/
theorem Inv.advance {op : M Bool} {ops : List UInt8 → List Operation} {status next : Status}
    (h : Inv w) (current : w.ctrl.status = status) (reports : Reports op ops)
    (follows : Follows status next w.ctrl.apn (ops w.ctrl.apn)) :
    Inv (advance op next w).2 := by
  rw [← current] at follows
  rw [Eth4g.advance, when_apply]
  by_cases ok : (op w).1 = true
  · obtain ⟨same, events, history, plain, success⟩ := reports w
    rw [if_pos ok]
    change Trail next (op w).2.ctrl.apn ((op w).2.history ++ [.entered next])
    rw [same.apn, history]
    exact Trail.advance h plain (success ok) follows
  · rw [if_neg ok]
    exact h.reports reports

/-- Power on: from `DEV_4G_INIT` to `DEV_4G_POWER_ON`. -/
theorem inv_init (env : Environ) (status : w.ctrl.status = .init) :
    Inv (onlineSwitch env .init w).2 := by
  have loaded : Inv (loadEnv env w).2 := by
    unfold Inv
    change Trail w.ctrl.status _ _
    rw [status]
    exact .of_start rfl rfl rfl
  change Inv ((do if ← powerOn then (do setStatus .powerOn; closeDevice) : M Unit)
    (loadEnv env w).2).2
  generalize (loadEnv env w).2 = w' at loaded
  rw [when_apply]
  split
  · rename_i ok
    obtain ⟨same, events, history, plain, success⟩ := reports_powerOn w'
    have entered : Inv (setStatus .powerOn (powerOn w').2).2 := by
      change Trail .powerOn (powerOn w').2.ctrl.apn ((powerOn w').2.history ++ [.entered .powerOn])
      refine ⟨?_, List.nil_sublist _, nofun⟩
      rw [history, since_entered_other (by decide), since_append (entered_not_mem plain _)]
      exact (success ok).trans
        ((List.sublist_append_right _ _).trans (List.sublist_append_left _ _))
    change Inv (closeDevice (setStatus .powerOn (powerOn w').2).2).2
    exact entered.quiet quiet_closeDevice
  · exact loaded.reports reports_powerOn

/-- The handshake: from `DEV_4G_POWER_ON` to `DEV_4G_AT_READY`. -/
theorem inv_powerOn (h : Inv w) (env : Environ) (status : w.ctrl.status = .powerOn) :
    Inv (onlineSwitch env .powerOn w).2 := by
  have opened := h.quiet quiet_openDevice
  have kept : (openDevice w).2.ctrl.status = .powerOn := (quiet_openDevice w).1.status.trans status
  have reports : Reports
      (andThen (atExpect (ascii "AT") (ascii "OK")) (atExpect (ascii "ATE0") (ascii "OK")))
      fun _ => [.at (ascii "AT")] ++ [.at (ascii "ATE0")] :=
    (reports_atExpect (by decide) _).andThen (reports_atExpect (by decide) _)
  have run : (onlineSwitch env .powerOn w).2 =
      (advance (andThen (atExpect (ascii "AT") (ascii "OK")) (atExpect (ascii "ATE0") (ascii "OK")))
        .atReady (openDevice w).2).2 := rfl
  rw [run]
  generalize (openDevice w).2 = w' at opened kept
  rw [advance, when_apply]
  split
  · rename_i ok
    obtain ⟨same, events, history, plain, success⟩ := reports w'
    apply Trail.enter_atReady
    rw [history, since_append (entered_not_mem plain _)]
    have powered : (succeeded [.powerOn]).Sublist (since .init w'.history) := by
      have trail := opened.handshake
      rw [kept] at trail
      exact trail
    exact powered.append (success ok)
  · exact opened.reports reports

/-- Waiting for the address: the last step before `DEV_4G_ONLINE`. -/
theorem inv_waitForIp (h : Inv w)
    (follows : Follows w.ctrl.status .online w.ctrl.apn [.ip]) :
    Inv ((do if ← waitForIp 30 then (do showStatus; setStatus .online) : M Unit) w).2 := by
  rw [when_apply]
  split
  · rename_i ok
    obtain ⟨same, events, history, plain, success⟩ := reports_waitForIp 30 w
    have reported := success ok
    have quiet : Quiet showStatus := quiet_call.bind fun _ => quiet_call.bind fun _ => .pure _
    generalize (waitForIp 30 w).2 = w' at same history
    obtain ⟨shown, kept⟩ := quiet w'
    change Trail .online (showStatus w').2.ctrl.apn
      ((showStatus w').2.history ++ [.entered .online])
    rw [shown.apn, same.apn, kept, history]
    exact Trail.advance h plain reported follows
  · exact h.reports (reports_waitForIp 30)

/-- Soft recovery: an acknowledged AT+CFUN=0 leads back to `DEV_4G_AT_READY`. -/
theorem inv_softRecover (h : Inv w) (status : w.ctrl.status = .online) :
    Inv (softRecover w).2 := by
  have opened := h.quiet quiet_openDevice
  have kept : (openDevice w).2.ctrl.status = .online := (quiet_openDevice w).1.status.trans status
  unfold softRecover
  rw [when_apply]
  generalize openDevice w = out at opened kept
  obtain ⟨found, w'⟩ := out
  split
  · rw [when_apply]
    obtain ⟨same, history⟩ := atExpect_spec standbyCommand (ascii "OK") w'
    split
    · apply Trail.enter_atReady
      have trail := opened.handshake
      rw [kept] at trail
      rw [history, since_append (by simp)]
      exact trail.trans (List.sublist_append_left _ _)
    · rename_i refused
      rw [Bool.not_eq_true] at refused
      unfold Inv
      rw [same.status, same.apn, history]
      apply Trail.append opened
      intro e mem
      rw [List.mem_singleton.mp mem, refused]
      exact fun acknowledged => nomatch acknowledged.2
  · exact opened

/-- Each case of the switch keeps the invariant. -/
theorem inv_onlineSwitch (h : Inv w) (env : Environ) :
    Inv (onlineSwitch env w.ctrl.status w).2 := by
  cases status : w.ctrl.status with
  | idle => exact h
  | init => exact inv_init env status
  | powerOn => exact inv_powerOn h env status
  | atReady =>
      exact h.advance status reports_simReady ⟨by decide, by decide, rfl, rfl, rfl⟩
  | simReady =>
      exact h.advance status reports_signalQuality ⟨by decide, by decide, rfl, rfl, rfl⟩
  | signalOk =>
      exact h.advance status
        ((reports_atExpect (by decide) _).andThen (reports_atExpect (by decide) _))
        ⟨by decide, by decide, rfl, rfl, rfl⟩
  | cfunOk =>
      exact h.advance status reports_registrationOk ⟨by decide, by decide, rfl, rfl, rfl⟩
  | registered =>
      exact h.advance status reports_setApn ⟨by decide, by decide, rfl, rfl, rfl⟩
  | apnOk =>
      exact h.advance status ((reports_atExpect (by decide) _).andThen reports_packetAttached)
        ⟨by decide, by decide, rfl, rfl, rfl⟩
  | attached =>
      exact h.advance status reports_bringIfaceUp ⟨by decide, by decide, rfl, rfl, rfl⟩
  | ifaceUp =>
      exact h.advance status (reports_waitForIface 10) ⟨by decide, by decide, rfl, rfl, rfl⟩
  | linkUp =>
      exact h.advance status reports_startDhcp ⟨by decide, by decide, rfl, rfl, rfl⟩
  | dhcpOk | ipOk =>
      apply inv_waitForIp h
      rw [status]
      exact ⟨by decide, by decide, rfl, rfl, rfl⟩
  | online =>
      have checked := h.reports reports_statusOk
      have kept : (statusOk w).2.ctrl.status = .online := (reports_statusOk w).1.status.trans status
      change Inv ((if ¬ (statusOk w).1 = true then softRecover else pure () : M Unit)
        (statusOk w).2).2
      split
      · exact inv_softRecover checked kept
      · exact checked
  | powerOff => exact Trail.of_start rfl rfl rfl

/-- The status that a call starts in. -/
def override (w : World) : World :=
  if w.ctrl.enabled = 0 ∧ w.ctrl.status ≠ .idle then (setStatus .powerOff w).2
  else if w.ctrl.enabled = 1 ∧ w.ctrl.status = .idle then (setStatus .init w).2
  else w

theorem onlineFunc_eq (env : Environ) (w : World) :
    (onlineFunc env w).2 = (onlineSwitch env (override w).ctrl.status (override w)).2 := by
  change ((do
    if w.ctrl.enabled = 0 ∧ w.ctrl.status ≠ .idle then setStatus .powerOff
    else if w.ctrl.enabled = 1 ∧ w.ctrl.status = .idle then setStatus .init
    onlineSwitch env (← getCtrl).status : M Unit) w).2 = _
  unfold override
  split
  · rfl
  · split <;> rfl

/-- An override enters a status without a trail. -/
theorem Inv.override (h : Inv w) : Inv (override w) := by
  unfold Eth4g.override
  split
  · exact Trail.of_start rfl rfl rfl
  · split
    · exact Trail.of_start rfl rfl rfl
    · exact h

/-- A call keeps the invariant. -/
theorem inv_step (h : Inv w) (i : Input) : Inv (step w i).1 := by
  change Inv (onlineFunc i.env _).2
  rw [onlineFunc_eq]
  refine inv_onlineSwitch (Inv.override ?_) i.env
  exact h

/-- Powering off closes the device. -/
theorem powerOff_closed (w : World) : (powerOff w).2.ctrl.fd < 0 := by
  have kept (w : World) : (call w).2.ctrl = w.ctrl := rfl
  have closed : (closeDevice w).2.ctrl.fd < 0 := by
    change ((if 0 ≤ w.ctrl.fd then setFd (-1) else pure () : M Unit) w).2.ctrl.fd < 0
    split
    · exact (by decide : (-1 : Int) < 0)
    · rename_i closed
      exact Int.not_le.mp closed
  exact closed

end Keeps

/-! ### Runs -/

theorem inv_final {w : World} (h : Inv w) (is : List Input) : Inv (final step w is) := by
  induction is generalizing w with
  | nil => exact h
  | cons i is ih => exact ih (inv_step h i)

/-- **The bring-up.** Along every run of `eth_4g_online_func`, when the status is
`DEV_4G_ONLINE` the power-on and the handshake have succeeded since the last entry
to `DEV_4G_INIT`, the whole bring-up since the last entry to `DEV_4G_AT_READY`,
each in this order, and no AT+CFUN=0 was acknowledged since. A call that starts
with `enabled` 0 ends in `DEV_4G_IDLE`, with the device closed unless it was idle
before. -/
theorem bringup_order (is : List Input) :
    let w := final step {} is
    (w.ctrl.status = .online →
      (succeeded [.powerOn, .at (ascii "AT"), .at (ascii "ATE0")]).Sublist
          (since .init w.history) ∧
        (succeeded (bringUp w.ctrl.apn)).Sublist (since .atReady w.history) ∧
        .done (.at standbyCommand) true ∉ since .atReady w.history) ∧
    ∀ i : Input, i.enabled = 0 →
      (step w i).1.ctrl.status = .idle ∧
        (w.ctrl.status = .idle ∨ (step w i).1.ctrl.fd < 0) := by
  intro w
  have inv : Inv w := inv_final (Trail.of_start rfl rfl rfl) is
  constructor
  · intro online
    unfold Inv at inv
    rw [online] at inv
    exact ⟨inv.handshake, inv.bringUp, inv.powered rfl⟩
  · intro i disabled
    generalize started : { w with
      ctrl := { w.ctrl with enabled := i.enabled }, answers := i.answers } = w'
    have enabled : w'.ctrl.enabled = 0 := by
      rw [← started]
      exact disabled
    have status : w'.ctrl.status = w.ctrl.status := by
      rw [← started]
    have run : (step w i).1 = (onlineSwitch i.env (override w').ctrl.status (override w')).2 := by
      rw [← onlineFunc_eq, ← started]
      rfl
    rw [run]
    by_cases idle : w.ctrl.status = .idle
    · have same : override w' = w' := by
        unfold override
        rw [if_neg (fun h => h.2 (status.trans idle)), if_neg]
        rw [enabled]
        exact fun h => absurd h.1 (by decide)
      rw [same, status, idle]
      exact ⟨status.trans idle, .inl rfl⟩
    · have off : override w' = (setStatus .powerOff w').2 := by
        unfold override
        rw [if_pos ⟨enabled, fun h => idle (status.symm.trans h)⟩]
      rw [off]
      exact ⟨rfl, .inr (powerOff_closed _)⟩

end Ok3506.Eth4g
