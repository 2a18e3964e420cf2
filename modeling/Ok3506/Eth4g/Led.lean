import Ok3506.Eth4g.Bringup

/-!
The LED of the 4G module.

Three cases of `eth_4g_online_func` call `set_led`. They stand here over the
switch without them: erasing the LED gives back its runs (`final_ledStep_world`).
The one that switches the LED on belongs to `DEV_4G_IP_OK`, which no call enters,
so the LED is dark when `DEV_4G_DHCP_OK` has led to `DEV_4G_ONLINE`.
-/

namespace Ok3506.Eth4g

open CString Machine

/-! ### The machine with its LED -/

/-- The module, and what `set_led(DEV_4G_LED, x)` was last called with. -/
structure LedWorld where
  world : World := {}
  led : Option Bool := none

abbrev LedM := StateM LedWorld

/-- An operation that leaves the LED alone. -/
def lift {α : Type} (m : M α) : LedM α := fun w =>
  ((m w.world).1, { w with world := (m w.world).2 })

/-- `set_led(DEV_4G_LED, on)`. -/
def setLed (on : Bool) : LedM Unit := fun w => ((), { w with led := some on })

/-- The switch of `eth_4g_online_func`, with the LED. -/
def ledSwitch (env : Environ) : Status → LedM Unit
  | .idle => setLed false
  | .init => do
      lift (loadEnv env)
      if ← lift powerOn then
        setLed false
        lift (setStatus .powerOn)
        lift closeDevice
  | .ipOk => do
      if ← lift (waitForIp 30) then
        lift showStatus
        lift (setStatus .online)
        setLed true
  | status => lift (onlineSwitch env status)

/-- `eth_4g_online_func`, with the LED. -/
def ledFunc (env : Environ) : LedM Unit := do
  let ctrl ← lift getCtrl
  if ctrl.enabled = 0 ∧ ctrl.status ≠ .idle then lift (setStatus .powerOff)
  else if ctrl.enabled = 1 ∧ ctrl.status = .idle then lift (setStatus .init)
  ledSwitch env (← lift getCtrl).status

/-- The module at the start of a call. -/
def begin (w : World) (i : Input) : World :=
  { w with ctrl := { w.ctrl with enabled := i.enabled }, answers := i.answers }

/-- A call of `eth_4g_online_func`, with the LED. -/
def ledStep (w : LedWorld) (i : Input) : LedWorld × Unit :=
  ((ledFunc i.env { w with world := begin w.world i }).2, ())

/-- The states of the bring-up, `DEV_4G_POWER_ON` to `DEV_4G_IP_OK`. -/
def Status.bringingUp : Status → Bool
  | .idle | .init | .online | .powerOff => false
  | _ => true

/-- The LED tells the truth. -/
structure LedTrue (w : LedWorld) : Prop where
  online : w.world.ctrl.status = .online → w.led = some true
  bringUp : w.world.ctrl.status.bringingUp → w.led = some false

/-! ### Erasing the LED -/

theorem ledFunc_eq (env : Environ) (w : LedWorld) :
    (ledFunc env w).2 =
      (ledSwitch env (override w.world).ctrl.status { w with world := override w.world }).2 := by
  change ((do
    if w.world.ctrl.enabled = 0 ∧ w.world.ctrl.status ≠ .idle then lift (setStatus .powerOff)
    else if w.world.ctrl.enabled = 1 ∧ w.world.ctrl.status = .idle then lift (setStatus .init)
    ledSwitch env (← lift getCtrl).status : LedM Unit) w).2 = _
  unfold override
  split
  · rfl
  · split <;> rfl

/-- `if (m) { x }` under the LED. -/
theorem lift_when_apply (m : M Bool) (x : LedM Unit) (w : LedWorld) :
    ((do if ← lift m then x : LedM Unit) w).2 =
      if (m w.world).1 then (x { w with world := (m w.world).2 }).2
      else { w with world := (m w.world).2 } := by
  change ((if (m w.world).1 = true then x else pure () : LedM Unit)
    { w with world := (m w.world).2 }).2 = _
  cases (m w.world).1 <;> rfl

theorem ledSwitch_world (env : Environ) (status : Status) (w : LedWorld) :
    (ledSwitch env status w).2.world = (onlineSwitch env status w.world).2 := by
  cases status with
  | init =>
      change ((do
        if ← lift powerOn then (do setLed false; lift (setStatus .powerOn); lift closeDevice) :
          LedM Unit) { w with world := (loadEnv env w.world).2 }).2.world =
        ((do if ← powerOn then (do setStatus .powerOn; closeDevice) : M Unit)
          (loadEnv env w.world).2).2
      rw [lift_when_apply, when_apply]
      split <;> rfl
  | ipOk =>
      change ((do
        if ← lift (waitForIp 30) then (do
          lift showStatus; lift (setStatus .online); setLed true) : LedM Unit) w).2.world =
        ((do if ← waitForIp 30 then (do showStatus; setStatus .online) : M Unit) w.world).2
      rw [lift_when_apply, when_apply]
      split <;> rfl
  | _ => rfl

theorem ledStep_world (w : LedWorld) (i : Input) :
    (ledStep w i).1.world = (step w.world i).1 := by
  change (ledFunc i.env { w with world := begin w.world i }).2.world =
    (onlineFunc i.env (begin w.world i)).2
  rw [ledFunc_eq, ledSwitch_world, onlineFunc_eq]

/-- **Erasure.** Without its LED the machine runs as `eth_4g_online_func` does. -/
theorem final_ledStep_world (w : LedWorld) (is : List Input) :
    (final ledStep w is).world = final step w.world is :=
  final_fold ledStep_world w is

/-! ### Where a case of the switch leads -/

/-- The status that a case of the switch may assign. -/
def Status.successor : Status → Option Status
  | .idle => none
  | .init => some .powerOn
  | .powerOn => some .atReady
  | .atReady => some .simReady
  | .simReady => some .signalOk
  | .signalOk => some .cfunOk
  | .cfunOk => some .registered
  | .registered => some .apnOk
  | .apnOk => some .attached
  | .attached => some .ifaceUp
  | .ifaceUp => some .linkUp
  | .linkUp => some .dhcpOk
  | .dhcpOk | .ipOk => some .online
  | .online => some .atReady
  | .powerOff => some .idle

/-- A status that was kept or assigned. -/
def Leads (old new : Status) : Prop := new = old ∨ old.successor = some new

/-- Only three statuses lead to `DEV_4G_ONLINE`. -/
theorem leads_online {old : Status} (h : Leads old .online) :
    old = .online ∨ old = .dhcpOk ∨ old = .ipOk := by
  rcases h with kept | edge
  · exact .inl kept.symm
  · cases old with
    | dhcpOk => exact .inr (.inl rfl)
    | ipOk => exact .inr (.inr rfl)
    | _ => cases edge

section Leads

variable {w : World} {status next : Status}

theorem leads_advance {op : M Bool} {ops : List UInt8 → List Operation}
    (reports : Reports op ops) (current : w.ctrl.status = status)
    (edge : status.successor = some next) :
    Leads status (advance op next w).2.ctrl.status := by
  rw [advance, when_apply]
  split
  · exact .inr edge
  · exact .inl ((reports w).1.status.trans current)

theorem status_waitForIp (w : World) :
    ((do if ← waitForIp 30 then (do showStatus; setStatus .online) : M Unit) w).2.ctrl.status =
      if (waitForIp 30 w).1 then .online else w.ctrl.status := by
  rw [when_apply]
  split
  · rfl
  · exact (reports_waitForIp 30 w).1.status

theorem leads_waitForIp (current : w.ctrl.status = status)
    (edge : status.successor = some .online) :
    Leads status
      ((do if ← waitForIp 30 then (do showStatus; setStatus .online) : M Unit)
        w).2.ctrl.status := by
  rw [status_waitForIp]
  split
  · exact .inr edge
  · exact .inl current

/-- **The edges of the state machine.** -/
theorem leads_onlineSwitch (env : Environ) (current : w.ctrl.status = status) :
    Leads status (onlineSwitch env status w).2.ctrl.status := by
  cases status with
  | idle => exact .inl current
  | init =>
      have loaded : (loadEnv env w).2.ctrl.status = .init := current
      change Leads .init ((do if ← powerOn then (do setStatus .powerOn; closeDevice) : M Unit)
        (loadEnv env w).2).2.ctrl.status
      rw [when_apply]
      split
      · have closed := (quiet_closeDevice (setStatus .powerOn (powerOn (loadEnv env w).2).2).2).1
        exact .inr (congrArg some closed.status.symm)
      · exact .inl ((reports_powerOn _).1.status.trans loaded)
  | powerOn =>
      exact leads_advance (w := (openDevice w).2)
        ((reports_atExpect (by decide) _).andThen (reports_atExpect (by decide) _))
        ((quiet_openDevice w).1.status.trans current) rfl
  | atReady => exact leads_advance reports_simReady current rfl
  | simReady => exact leads_advance reports_signalQuality current rfl
  | signalOk =>
      exact leads_advance
        ((reports_atExpect (by decide) _).andThen (reports_atExpect (by decide) _)) current rfl
  | cfunOk => exact leads_advance reports_registrationOk current rfl
  | registered => exact leads_advance reports_setApn current rfl
  | apnOk =>
      exact leads_advance ((reports_atExpect (by decide) _).andThen reports_packetAttached)
        current rfl
  | attached => exact leads_advance reports_bringIfaceUp current rfl
  | ifaceUp => exact leads_advance (reports_waitForIface 10) current rfl
  | linkUp => exact leads_advance reports_startDhcp current rfl
  | dhcpOk | ipOk => exact leads_waitForIp current rfl
  | online =>
      have kept : (statusOk w).2.ctrl.status = .online :=
        (reports_statusOk w).1.status.trans current
      change Leads .online ((if ¬ (statusOk w).1 = true then softRecover else pure () : M Unit)
        (statusOk w).2).2.ctrl.status
      split
      · unfold softRecover
        rw [when_apply]
        have opened := (quiet_openDevice (statusOk w).2).1.status.trans kept
        split
        · rw [when_apply]
          split
          · exact .inr rfl
          · exact .inl ((atExpect_spec _ _ _).1.status.trans opened)
        · exact .inl opened
      · exact .inl kept
  | powerOff => exact .inr rfl

end Leads

/-! ### The address -/

/-- The first command of a check in `eth_4g_wait_for_ip`, the longer one. -/
def ipCommand (netIf : List UInt8) : List UInt8 :=
  ascii "command -v ip >/dev/null 2>&1 && ip addr show dev " ++ netIf ++ ascii " | grep -q 'inet '"

/-- A call that starts in `DEV_4G_DHCP_OK` finds an address: one of the sixty checks
of `eth_4g_wait_for_ip` succeeds. -/
def AddressFound (w : World) (i : Input) : Prop :=
  w.ctrl.status = .dhcpOk ∧ i.enabled ≠ 0 ∧ (ipCommand w.ctrl.netIf).length < 256 ∧
    ∃ answer ∈ i.answers.take 60, answer.ok = true

theorem exists_ok_take_succ (answers : List Answer) (n : Nat) :
    (∃ answer ∈ answers.take (n + 1), answer.ok = true) ↔
      (answers.headD {}).ok = true ∨ ∃ answer ∈ answers.tail.take n, answer.ok = true := by
  cases answers <;> simp

theorem waitForIpLoop_iff {a b : List UInt8} (le : b.length ≤ a.length) (n : Nat) (w : World) :
    (waitForIpLoop a b n w).1 = true ↔
      a.length < 256 ∧ ∃ answer ∈ w.answers.take (2 * n), answer.ok = true := by
  induction n generalizing w with
  | zero =>
      have none : (waitForIpLoop a b 0 w).1 = false := rfl
      simp [none]
  | succ n ih =>
      by_cases fits : a.length < 256
      · have shorter : b.length < 256 := le.trans_lt fits
        have run : waitForIpLoop a b (n + 1) w =
            if (w.answers.headD {}).ok then (true, { w with answers := w.answers.tail })
            else if (w.answers.tail.headD {}).ok then
              (true, { w with answers := w.answers.tail.tail })
            else waitForIpLoop a b n { w with answers := w.answers.tail.tail } := by
          rw [waitForIpLoop, if_neg (not_le.mpr fits), if_neg (not_le.mpr shorter)]
          change (if (w.answers.headD {}).ok = true then pure true else call >>= fun found =>
            if found = true then pure true else waitForIpLoop a b n : M Bool)
            { w with answers := w.answers.tail } = _
          cases (w.answers.headD {}).ok
          · change (if (w.answers.tail.headD {}).ok = true then pure true
              else waitForIpLoop a b n : M Bool) { w with answers := w.answers.tail.tail } = _
            cases (w.answers.tail.headD {}).ok <;> rfl
          · rfl
        rw [run, Nat.mul_succ, exists_ok_take_succ, exists_ok_take_succ]
        split
        · rename_i first
          exact iff_of_true rfl ⟨fits, .inl first⟩
        · rename_i first
          split
          · rename_i second
            exact iff_of_true rfl ⟨fits, .inr (.inl second)⟩
          · rename_i second
            rw [ih, or_iff_right first, or_iff_right second]
      · have run : waitForIpLoop a b (n + 1) w = (false, w) := by
          rw [waitForIpLoop, if_pos (not_lt.mp fits)]
          rfl
        rw [run]
        exact iff_of_false Bool.false_ne_true fun h => fits h.1

theorem waitForIp_iff (w : World) :
    (waitForIp 30 w).1 = true ↔
      (ipCommand w.ctrl.netIf).length < 256 ∧ ∃ answer ∈ w.answers.take 60, answer.ok = true := by
  have le (netIf : List UInt8) :
      (ascii "command -v ifconfig >/dev/null 2>&1 && ifconfig " ++ netIf ++
        ascii " | grep -q 'inet '").length ≤ (ipCommand netIf).length := by
    simp only [ipCommand, List.length_append]
    exact Nat.add_le_add_right (Nat.add_le_add_right (by decide) _) _
  have found (n : Nat) : (waitForIp n w).1 = (waitForIpLoop (ipCommand w.ctrl.netIf)
      (ascii "command -v ifconfig >/dev/null 2>&1 && ifconfig " ++ w.ctrl.netIf ++
        ascii " | grep -q 'inet '") n w).1 := rfl
  rw [found]
  exact waitForIpLoop_iff (le w.ctrl.netIf) 30 w

/-! ### The LED along a run -/

/-- The statuses from `DEV_4G_POWER_ON` on. -/
def Status.powered : Status → Bool
  | .idle | .init | .powerOff => false
  | _ => true

/-- The invariant: `DEV_4G_IP_OK` is not entered, and the LED is off in every
status from `DEV_4G_POWER_ON` on. -/
structure Dark (w : LedWorld) : Prop where
  unreached : w.world.ctrl.status ≠ .ipOk
  off : w.world.ctrl.status.powered → w.led = some false

theorem powered_of_bringingUp {status : Status} (h : status.bringingUp) : status.powered := by
  cases status <;> first | rfl | cases h

/-- A case of the switch that leaves the LED alone. -/
theorem Dark.kept {w : LedWorld} {world : World} (h : Dark w)
    (powered : w.world.ctrl.status.powered)
    (leads : Leads w.world.ctrl.status world.ctrl.status) : Dark { w with world } := by
  refine ⟨?_, fun _ => h.off powered⟩
  rcases leads with same | edge
  · rw [same]
    exact h.unreached
  · intro reached
    rw [reached] at edge
    generalize w.world.ctrl.status = status at edge
    cases status <;> cases edge

theorem dark_init {w : LedWorld} (status : w.world.ctrl.status = .init) (env : Environ) :
    Dark (ledSwitch env .init w).2 := by
  have loaded : (loadEnv env w.world).2.ctrl.status = .init := status
  change Dark ((do
    if ← lift powerOn then (do setLed false; lift (setStatus .powerOn); lift closeDevice) :
      LedM Unit) { w with world := (loadEnv env w.world).2 }).2
  rw [lift_when_apply]
  split
  · have closed := (quiet_closeDevice (setStatus .powerOn
      (powerOn (loadEnv env w.world).2).2).2).1.status
    refine ⟨?_, fun _ => rfl⟩
    change (closeDevice
      (setStatus .powerOn (powerOn (loadEnv env w.world).2).2).2).2.ctrl.status ≠ _
    rw [closed]
    exact nofun
  · have kept := (reports_powerOn (loadEnv env w.world).2).1.status.trans loaded
    refine ⟨?_, ?_⟩
    · change (powerOn (loadEnv env w.world).2).2.ctrl.status ≠ _
      rw [kept]
      exact nofun
    · intro powered
      change (powerOn (loadEnv env w.world).2).2.ctrl.status.powered at powered
      rw [kept] at powered
      cases powered

theorem dark_ledSwitch {w : LedWorld} (h : Dark w) (env : Environ) :
    Dark (ledSwitch env w.world.ctrl.status w).2 := by
  have leads := leads_onlineSwitch env (rfl : w.world.ctrl.status = w.world.ctrl.status)
  cases status : w.world.ctrl.status with
  | idle =>
      refine ⟨?_, fun _ => rfl⟩
      change w.world.ctrl.status ≠ .ipOk
      exact h.unreached
  | init => exact dark_init status env
  | ipOk => exact (h.unreached status).elim
  | powerOff => exact ⟨nofun, nofun⟩
  | _ =>
      have powered : w.world.ctrl.status.powered := by rw [status]; rfl
      have dark := h.kept powered leads
      rw [status] at dark
      exact dark

/-- The status that a call starts in, and that it is kept in or led to. -/
theorem Dark.override {w : LedWorld} (h : Dark w) (i : Input) :
    Dark { w with world := override (begin w.world i) } := by
  unfold Eth4g.override
  split
  · exact ⟨nofun, nofun⟩
  · split
    · exact ⟨nofun, nofun⟩
    · exact ⟨h.unreached, h.off⟩

theorem ledStep_eq (w : LedWorld) (i : Input) :
    (ledStep w i).1 =
      (ledSwitch i.env (override (begin w.world i)).ctrl.status
        { w with world := override (begin w.world i) }).2 :=
  ledFunc_eq i.env { w with world := begin w.world i }

theorem dark_ledStep {w : LedWorld} (h : Dark w) (i : Input) : Dark (ledStep w i).1 := by
  rw [ledStep_eq]
  exact dark_ledSwitch (h.override i) i.env

/-- Along every run the LED is off in the states of the bring-up. -/
theorem off_while_bringingUp (is : List Input) :
    Along ledStep (fun w => w.world.ctrl.status.bringingUp → w.led = some false) {} is := by
  intro pre begins bringingUp
  have start : Dark {} := ⟨nofun, nofun⟩
  have run : Along ledStep Dark {} is :=
    along_of_keeps (P := Dark) (fun _ i h => dark_ledStep h i) start is
  have dark := run pre begins
  exact dark.off (powered_of_bringingUp bringingUp)

/-- An enabled module that is not idle goes on where it was. -/
theorem override_of_enabled {w : World} {i : Input} (enabled : i.enabled ≠ 0)
    (started : w.ctrl.status ≠ .idle) : override (begin w i) = begin w i := by
  unfold override
  rw [if_neg fun off => enabled off.1, if_neg fun on => started on.2]

theorem status_override (w : World) (i : Input) :
    (override (begin w i)).ctrl.status = w.ctrl.status ∨
      (override (begin w i)).ctrl.status = .powerOff ∨
      (override (begin w i)).ctrl.status = .init := by
  unfold override
  split
  · exact .inr (.inl rfl)
  · split
    · exact .inr (.inr rfl)
    · exact .inl rfl

/-- A call ends in `DEV_4G_ONLINE` when it was there before, or found an address. -/
theorem status_step_online {w : World} (unreached : w.ctrl.status ≠ .ipOk)
    (offline : w.ctrl.status ≠ .online) (i : Input) :
    (step w i).1.ctrl.status = .online ↔ AddressFound w i := by
  have run : (step w i).1 = (onlineSwitch i.env (override (begin w i)).ctrl.status
      (override (begin w i))).2 := onlineFunc_eq i.env (begin w i)
  rw [run]
  by_cases waiting : w.ctrl.status = .dhcpOk ∧ i.enabled ≠ 0
  · have started : w.ctrl.status ≠ .idle := by
      rw [waiting.1]
      exact nofun
    rw [override_of_enabled waiting.2 started]
    have status : (begin w i).ctrl.status = .dhcpOk := waiting.1
    rw [status]
    change ((do if ← waitForIp 30 then (do showStatus; setStatus .online) : M Unit)
      (begin w i)).2.ctrl.status = .online ↔ _
    rw [status_waitForIp, AddressFound, and_iff_right waiting.1, and_iff_right waiting.2]
    refine Iff.trans ?_ (waitForIp_iff (begin w i))
    cases (waitForIp 30 (begin w i)).1
    · exact iff_of_false (offline ·) Bool.false_ne_true
    · exact iff_of_true rfl rfl
  · refine iff_of_false ?_ fun found => waiting ⟨found.1, found.2.1⟩
    intro online
    have leads := leads_onlineSwitch (w := override (begin w i)) i.env rfl
    rw [online] at leads
    have before := leads_online leads
    -- the statuses that the preamble assigns do not lead there
    have same : (override (begin w i)).ctrl.status = w.ctrl.status := by
      rcases status_override w i with same | off | start
      · exact same
      · rw [off] at before
        rcases before with h | h | h <;> cases h
      · rw [start] at before
        rcases before with h | h | h <;> cases h
    rw [same] at before
    rcases before with already | dhcp | ip
    · exact offline already
    · refine waiting ⟨dhcp, fun off => ?_⟩
      unfold override at same
      rw [if_pos ⟨off, by change w.ctrl.status ≠ _; rw [dhcp]; exact nofun⟩, dhcp] at same
      cases same
    · exact unreached ip

/-- **The LED.** It tells the truth along a run of `eth_4g_online_func` exactly when
no call finds an address in `DEV_4G_DHCP_OK`. -/
theorem led_true_iff (is : List Input) :
    Along ledStep LedTrue {} is ↔
      Steps ledStep (fun w i => ¬ AddressFound w.world i) {} is := by
  apply along_iff_steps (I := fun w => Dark w ∧ w.world.ctrl.status ≠ .online)
  · intro w ⟨dark, offline⟩
    exact ⟨fun online => (offline online).elim,
      fun bringingUp => dark.off (powered_of_bringingUp bringingUp)⟩
  · intro w i ⟨dark, offline⟩ missed
    refine ⟨dark_ledStep dark i, ?_⟩
    rw [ledStep_world]
    exact fun online => missed ((status_step_online dark.unreached offline i).mp online)
  · intro w i ⟨dark, offline⟩ found truth
    have online := (status_step_online dark.unreached offline i).mpr (not_not.mp found)
    rw [← ledStep_world] at online
    have off := (dark_ledStep dark i).off (by rw [online]; rfl)
    rw [truth.online online] at off
    cases off
  · exact ⟨⟨nofun, nofun⟩, nofun⟩

/-- A response to an AT command. -/
def response (text : List UInt8) : Answer := { port := { read := [.read text, .silence] } }

/-- A bring-up in which everything succeeds. -/
def onlineRun : List Input :=
  let ok : Answer := { ok := true }
  let opened : Answer := { openFd := 3 }
  [[ok, ok, ok], [opened, response (ascii "OK"), response (ascii "OK")],
    [response (ascii "+CPIN: READY")], [response (ascii "OK")],
    [response (ascii "OK"), response (ascii "+CFUN: 1 OK")], [response (ascii "+CEREG: 0,1")],
    [response (ascii "OK")], [response (ascii "OK"), response (ascii "+CGATT: 1")], [ok], [ok],
    [ok, ok], [ok]].map fun answers => { enabled := 1, answers }

/-- The module is online and its LED is off. -/
theorem led_off_online : ¬ Along ledStep LedTrue {} onlineRun := by
  intro truth
  have online : (final ledStep {} onlineRun).world.ctrl.status = .online := by decide +kernel
  have off : (final ledStep {} onlineRun).led = some false := by decide +kernel
  have on := (truth onlineRun List.prefix_rfl).online online
  rw [off] at on
  cases on

end Ok3506.Eth4g
