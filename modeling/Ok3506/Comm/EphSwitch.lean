import Ok3506.Comm.Commands

/-!
The ephemeris switches and the commands that reach the receiver.

A SET_EPH_SW makes `update_eph_sw` write one command for each of eight kinds.
From then on the commands written last, the mirror flags and the two settings
are related; `Configured` is that relation, and every step of the service keeps
it as long as the writes succeed.
-/

namespace Ok3506.Comm

open Mem Gnss Machine

/-! ### The commands of `update_eph_sw` -/

/-- The kinds in the order in which `update_eph_sw` treats them. -/
def ephKinds : List EphKind := [.bdxw, .bd2, .bd3, .gps, .gal, .glo, .bd3cnav2, .bd3cnav3]

/-- The type name that `update_eph_sw` writes for a kind. -/
def ephTypeName : EphKind → String
  | .bdxw => "BDXWEPHB"
  | .bd2 => "BD2EPHB"
  | .bd3 => "BD3EPHB"
  | .gps => "GPSEPHB"
  | .gal => "GALEPHB"
  | .glo => "GLOEPHB"
  | .bd3cnav2 => "BD3CANV2EPHB"
  | .bd3cnav3 => "BD3CNAV3EPHB"

theorem mem_ephKinds (kind : EphKind) : kind ∈ ephKinds := by
  cases kind <;> decide

theorem ephTypeName_injective : Function.Injective ephTypeName := by
  intro a b same
  cases a <;> cases b <;> first | rfl | exact absurd same (by decide)

/-- The receiver's name for a kind, except where `update_eph_sw` misspells it. -/
theorem cfgdataTypeFromName_ephTypeName (kind : EphKind) :
    cfgdataTypeFromName (ephTypeName kind) =
      if kind = .bd3cnav2 then none else some (.ephb kind) := by
  cases kind <;> decide +kernel

/-- The command for a kind, with the switches and the frequency in force. -/
def ephCommand (ephSw : UInt16) (freq : UInt8) (kind : EphKind) : GnssCommand :=
  cfgCommand (ephTypeName kind) (if ephSwBit ephSw kind then 1 else 0) freq

@[simp] theorem type_ephCommand (ephSw : UInt16) (freq : UInt8) (kind : EphKind) :
    (ephCommand ephSw freq kind).type = ephTypeName kind :=
  type_cfgCommand _ _ _

theorem ephCommand_of_set {ephSw : UInt16} {kind : EphKind} (set : ephSwBit ephSw kind)
    (freq : UInt8) : ephCommand ephSw freq kind = .openOntime (ephTypeName kind) freq := by
  simp [ephCommand, cfgCommand, set]

theorem isOpen_ephCommand (ephSw : UInt16) (freq : UInt8) (kind : EphKind) :
    (ephCommand ephSw freq kind).isOpen = ephSwBit ephSw kind := by
  unfold ephCommand cfgCommand
  cases ephSwBit ephSw kind <;> rfl

section UpdateEphSw

variable {config : GlobCommConfig} {write : GnssCommand → Int} {gnss : GnssCtrl}

theorem updateEphSw_eq_foldl :
    updateEphSw config write gnss =
      ephKinds.foldl (fun gnss kind => updateEphOutput config write kind (ephTypeName kind) gnss)
        gnss := by
  simp only [updateEphSw, ephKinds, ephTypeName, List.foldl_cons, List.foldl_nil]

variable (config) in
/-- What the branches for some kinds do to an open receiver. -/
theorem foldl_updateEphOutput (opened : 0 ≤ gnss.fd) (ok : ∀ command, 0 ≤ write command)
    (kinds : List EphKind) :
    let out := kinds.foldl
      (fun gnss kind => updateEphOutput config write kind (ephTypeName kind) gnss) gnss
    0 ≤ out.fd ∧
      out.commands = gnss.commands ++ kinds.map (ephCommand config.ephSw config.outputFreq) ∧
      ∀ kind, out.output (.ephb kind) =
        if kind ∈ kinds ∧ kind ≠ .bd3cnav2 then (if ephSwBit config.ephSw kind then 1 else 0)
        else gnss.output (.ephb kind) := by
  induction kinds generalizing gnss with
  | nil => simp [opened]
  | cons first kinds ih =>
      have next : 0 ≤ (updateEphOutput config write first (ephTypeName first) gnss).fd := by
        rw [updateEphOutput, fd_gnssCfgData]
        exact opened
      obtain ⟨stillOpened, commands, output⟩ := ih next
      refine ⟨stillOpened, ?_, ?_⟩
      · rw [List.foldl_cons, commands, updateEphOutput, commands_gnssCfgData _ _ _ _ opened,
          List.append_assoc]
        rfl
      · intro kind
        rw [List.foldl_cons, output, updateEphOutput, output_gnssCfgData _ _ _ _ opened ok,
          cfgdataTypeFromName_ephTypeName]
        by_cases listed : kind ∈ kinds ∧ kind ≠ .bd3cnav2
        · have among : kind ∈ first :: kinds ∧ kind ≠ .bd3cnav2 :=
            ⟨List.mem_cons_of_mem _ listed.1, listed.2⟩
          rw [if_pos listed, if_pos among]
        · rw [if_neg listed]
          by_cases same : first = kind
          · subst same
            by_cases misspelled : first = .bd3cnav2
            · simp [misspelled]
            · simp [misspelled]
          · have notNamed : ¬ (if first = .bd3cnav2 then none else some (DataType.ephb first)) =
                some (.ephb kind) := by
              split <;> simp [same]
            have notAmong : ¬ (kind ∈ first :: kinds ∧ kind ≠ .bd3cnav2) := by
              rw [List.mem_cons]
              exact fun h => h.1.elim (fun eq => same eq.symm) fun mem => listed ⟨mem, h.2⟩
            rw [if_neg notNamed, if_neg notAmong]

end UpdateEphSw

/-! ### The last command for a kind -/

/-- The last command to the receiver of which `p` holds. -/
def lastCommand (p : GnssCommand → Bool) (commands : List GnssCommand) : Option GnssCommand :=
  commands.reverse.find? p

/-- The last command written for a kind. -/
def lastFor (gnss : GnssCtrl) (kind : EphKind) : Option GnssCommand :=
  lastCommand (fun c => c.type = ephTypeName kind) gnss.commands

/-- The last OPEN command written for a kind. -/
def lastOpenFor (gnss : GnssCtrl) (kind : EphKind) : Option GnssCommand :=
  lastCommand (fun c => c.type = ephTypeName kind ∧ c.isOpen) gnss.commands

/-- Among the commands of one `update_eph_sw`, `p` singles out that of a kind. -/
theorem lastCommand_ephKinds {p : GnssCommand → Bool} {ephSw : UInt16} {freq : UInt8}
    {kind : EphKind} (earlier : List GnssCommand)
    (only : ∀ other, p (ephCommand ephSw freq other) ↔ other = kind) :
    lastCommand p (earlier ++ ephKinds.map (ephCommand ephSw freq)) =
      some (ephCommand ephSw freq kind) := by
  have found : lastCommand p (ephKinds.map (ephCommand ephSw freq)) =
      some (ephCommand ephSw freq kind) := by
    rw [lastCommand, ← List.map_reverse, List.find?_map]
    have pick : p ∘ ephCommand ephSw freq = fun other => decide (other = kind) := by
      funext other
      exact Bool.eq_iff_iff.mpr ((only other).trans decide_eq_true_iff.symm)
    rw [pick]
    cases kind <;> rfl
  rw [lastCommand, List.reverse_append, List.find?_append, ← lastCommand, found, Option.some_or]

/-! ### What a run establishes -/

/-- The settings, the commands and the mirror flags after a SET_EPH_SW that was
handled at the frequency `freq`. -/
structure Configured (s : Service) (freq : UInt8) : Prop where
  opened : 0 ≤ s.gnss.fd
  commands : ∃ earlier,
    s.gnss.commands = earlier ++ ephKinds.map (ephCommand s.config.ephSw freq)
  output : ∀ kind, kind ≠ .bd3cnav2 →
    s.gnss.output (.ephb kind) = if ephSwBit s.config.ephSw kind then 1 else 0

section Configured

variable {s : Service} {freq : UInt8}

theorem Configured.lastFor (h : Configured s freq) (kind : EphKind) :
    lastFor s.gnss kind = some (ephCommand s.config.ephSw freq kind) := by
  obtain ⟨earlier, commands⟩ := h.commands
  rw [Comm.lastFor, commands]
  apply lastCommand_ephKinds
  intro other
  simp only [type_ephCommand, decide_eq_true_eq, ephTypeName_injective.eq_iff]

theorem Configured.lastOpenFor (h : Configured s freq) {kind : EphKind}
    (set : ephSwBit s.config.ephSw kind) :
    lastOpenFor s.gnss kind = some (.openOntime (ephTypeName kind) freq) := by
  obtain ⟨earlier, commands⟩ := h.commands
  rw [Comm.lastOpenFor, commands, ← ephCommand_of_set set freq]
  apply lastCommand_ephKinds
  intro other
  simp only [type_ephCommand, decide_eq_true_eq, ephTypeName_injective.eq_iff, isOpen_ephCommand]
  exact ⟨fun h => h.1, fun h => ⟨h, h ▸ set⟩⟩

end Configured

/-! ### One step -/

/-- A frame that sets the switches. -/
def NetFrame.setsSwitch (f : NetFrame) : Bool := f.cmd = revCmdSetEphSw ∧ f.payload.length = 2

/-- What the writes to the receiver return during a step. -/
def Input.write : Input → GnssCommand → Int
  | .recvfrom _ _ _ env | .netSend _ _ env | .netSendEph _ _ env => env.write
  | .recvError | .pop => fun _ => 0

/-- A step that handles a SET_EPH_SW. -/
def Input.setsSwitch (i : Input) : Bool := (acceptedFrame i).any NetFrame.setsSwitch

/-- The settings after a frame. -/
def GlobCommConfig.accept (config : GlobCommConfig) (f : NetFrame) : GlobCommConfig :=
  { config with
    ephSw := setEphSw config.ephSw f
    outputFreq := setOutputFreq config.outputFreq f }

theorem config_step (s : Service) (i : Input) :
    (step s i).1.config = (acceptedFrame i).elim s.config s.config.accept := by
  obtain ⟨next, id, -⟩ := step_commandStep s i
  have ephSw := congrArg Registers.ephSw next
  have outputFreq := congrArg Registers.outputFreq next
  rw [ephSw_commandStep] at ephSw
  rw [outputFreq_commandStep] at outputFreq
  cases accepted : acceptedFrame i with
  | none =>
      rw [accepted] at ephSw outputFreq
      exact GlobCommConfig.ext ephSw outputFreq id
  | some f =>
      rw [accepted] at ephSw outputFreq
      exact GlobCommConfig.ext ephSw outputFreq id

@[simp] theorem gnss_netSend (s : Service) (env : Env) (kind : CommServiceKind) (cmd : UInt8)
    (data : Mem) (len : Nat) : (netSend s env kind cmd data len).service.gnss = s.gnss := by
  cases kind <;> rfl

theorem config_accept_setEphSw {config : GlobCommConfig} {f : NetFrame} {data : Mem}
    (cmd : f.cmd = revCmdSetEphSw) (payload : data.bytes 0 2 = f.payload) :
    config.accept f = { config with ephSw := UInt16.ofNat (data.load16 0) } := by
  have regs := accept_setEphSw (r := ⟨config.ephSw, config.outputFreq, none⟩) cmd payload
  exact GlobCommConfig.ext (congrArg Registers.ephSw regs) (congrArg Registers.outputFreq regs) rfl

theorem gnss_revProcess {s : Service} {env : Env} {call : RevCall} {f : NetFrame}
    (h : Hands call f) :
    (revProcess s env call).1.gnss =
      if f.setsSwitch then updateEphSw (s.config.accept f) env.write s.gnss else s.gnss := by
  have hlen := h.len
  unfold revProcess NetFrame.setsSwitch
  rw [h.cmd, ← hlen]
  split
  · rename_i cmd
    simp only [sendEphSw, gnss_netSend]
    by_cases two : call.len = 2
    · rw [config_accept_setEphSw cmd (two ▸ h.payload)]
      simp [two, cmd]
    · simp [two]
  · rename_i other
    simp only [other, false_and, decide_false]
    split
    · split <;> exact gnss_netSend _ _ _ _ _ _
    · split
      · exact gnss_netSend _ _ _ _ _ _
      · split
        · exact gnss_netSend _ _ _ _ _ _
        · rfl

/-- The receiver is written to by the steps that set the switches, and by no other. -/
theorem gnss_step (s : Service) (i : Input) :
    (step s i).1.gnss =
      if i.setsSwitch then updateEphSw (step s i).1.config i.write s.gnss else s.gnss := by
  rw [config_step]
  cases i with
  | recvfrom peer datagram stack env =>
      simp only [step, Input.setsSwitch, acceptedFrame, Input.write]
      rcases Option.eq_none_or_eq_some (NetFrame.decode (received datagram)) with found | ⟨f, found⟩
      · simp only [found, commUdpRx_of_decode_none found]
        rfl
      · obtain ⟨data, payload, handled⟩ := commUdpRx_of_decode found
        have hands : Hands ⟨f.cmd, data, f.payload.length⟩ f := ⟨rfl, rfl, payload⟩
        simp only [found]
        rw [handled, gnss_revProcess hands]
        rfl
  | recvError | netSend | netSendEph => rfl
  | pop =>
      simp only [step]
      cases commUdpQueuePopFrame s.udp <;> rfl

section Steps

variable {s : Service} {i : Input}

/-- A SET_EPH_SW configures the receiver at the frequency in force. -/
theorem configured_of_setsSwitch (opened : 0 ≤ s.gnss.fd) (ok : ∀ command, 0 ≤ i.write command)
    (sets : i.setsSwitch) : Configured (step s i).1 (step s i).1.config.outputFreq := by
  obtain ⟨stillOpened, commands, output⟩ :=
    foldl_updateEphOutput (step s i).1.config opened ok ephKinds
  have gnss := gnss_step s i
  rw [if_pos sets, updateEphSw_eq_foldl] at gnss
  rw [← gnss] at stillOpened commands output
  refine ⟨stillOpened, ⟨_, commands⟩, ?_⟩
  intro kind spelled
  rw [output kind, if_pos ⟨mem_ephKinds kind, spelled⟩]

theorem ephSw_step_of_not_setsSwitch (other : ¬ i.setsSwitch) :
    (step s i).1.config.ephSw = s.config.ephSw := by
  rw [config_step]
  unfold Input.setsSwitch at other
  cases accepted : acceptedFrame i with
  | none => rfl
  | some f =>
      rw [accepted] at other
      apply setEphSw_eq_self
      simpa [NetFrame.setsSwitch, or_iff_not_imp_left] using other

/-- No other step changes what the receiver was told. -/
theorem Configured.step {freq : UInt8} (h : Configured s freq) (other : ¬ i.setsSwitch) :
    Configured (step s i).1 freq := by
  have gnss := gnss_step s i
  rw [if_neg other] at gnss
  have ephSw := ephSw_step_of_not_setsSwitch (s := s) other
  exact ⟨gnss ▸ h.opened, by rw [gnss, ephSw]; exact h.commands,
    by rw [gnss, ephSw]; exact h.output⟩

end Steps

/-! ### Runs -/

/-- The writes to the receiver succeed along a run. -/
def WritesSucceed (is : List Input) : Prop := ∀ i ∈ is, ∀ command, 0 ≤ i.write command

/-- A configured service stays configured, at some frequency. -/
theorem configured_final {s : Service} {freq : UInt8} (h : Configured s freq) (is : List Input)
    (ok : WritesSucceed is) : ∃ freq', Configured (final step s is) freq' := by
  induction is generalizing s freq with
  | nil => exact ⟨freq, h⟩
  | cons i is ih =>
      have rest : WritesSucceed is := fun j mem => ok j (List.mem_cons_of_mem _ mem)
      rw [final_cons]
      by_cases sets : i.setsSwitch
      · exact ih (configured_of_setsSwitch h.opened (ok i List.mem_cons_self) sets) rest
      · exact ih (h.step sets) rest

/-- The switch of a kind is applied: its mirror flag is the bit, and the last
command for it has the name that the receiver's configuration knows, and is an
OPEN exactly when the bit is set. -/
structure SwitchApplied (s : Service) (kind : EphKind) : Prop where
  output : s.gnss.output (.ephb kind) = if ephSwBit s.config.ephSw kind then 1 else 0
  command : ∃ command, lastFor s.gnss kind = some command ∧
    cfgdataTypeFromName command.type = some (.ephb kind) ∧
    command.isOpen = ephSwBit s.config.ephSw kind

/-- **The switches.** After every run that begins with a SET_EPH_SW the switch of
each kind is applied, except that of BD3 CNAV2, which never is. -/
theorem switchApplied_iff {s : Service} {i : Input} {is : List Input} (opened : 0 ≤ s.gnss.fd)
    (ok : WritesSucceed (i :: is)) (sets : i.setsSwitch) (kind : EphKind) :
    SwitchApplied (final step s (i :: is)) kind ↔ kind ≠ .bd3cnav2 := by
  have first := configured_of_setsSwitch opened (ok i List.mem_cons_self) sets
  obtain ⟨freq, configured⟩ :=
    configured_final first is fun j mem => ok j (List.mem_cons_of_mem _ mem)
  have last := configured.lastFor kind
  constructor
  · rintro ⟨-, command, written, named, -⟩ rfl
    rw [final_cons, last, Option.some.injEq] at written
    rw [← written, type_ephCommand, cfgdataTypeFromName_ephTypeName, if_pos rfl] at named
    cases named
  · intro spelled
    refine ⟨configured.output kind spelled, _, last, ?_, isOpen_ephCommand _ _ _⟩
    rw [type_ephCommand, cfgdataTypeFromName_ephTypeName, if_neg spelled]

/-- A command frame from the peer 5000; every write returns 0. -/
def commandInput (cmd : UInt8) (payload : List UInt8) : Input :=
  .recvfrom ⟨5000, 1⟩ (encodeFrame 1 cmd payload) (zeroPadded []) {}

/-- A service whose receiver is open. -/
def openService : Service := { gnss := ⟨3, fun _ => 0, []⟩ }

theorem switchApplied_iff_gps :
    SwitchApplied (final step openService [commandInput revCmdSetEphSw [0x20, 0]]) .gps ↔
      EphKind.gps ≠ .bd3cnav2 := by
  refine switchApplied_iff (by decide) ?_ (by decide +kernel) .gps
  intro i mem command
  rw [List.mem_singleton.mp mem]
  exact le_refl 0

/-- Switched on, BD3 CNAV2 keeps a clear mirror flag. -/
theorem bd3cnav2_not_applied :
    let s := final step openService [commandInput revCmdSetEphSw [0x08, 0]]
    ephSwBit s.config.ephSw .bd3cnav2 = true ∧ s.gnss.output (.ephb .bd3cnav2) = 0 ∧
      lastFor s.gnss .bd3cnav2 = some (.openOntime "BD3CANV2EPHB" 1) ∧
      cfgdataTypeFromName "BD3CANV2EPHB" = none ∧ ¬ SwitchApplied s .bd3cnav2 := by
  intro s
  have flag : s.gnss.output (.ephb .bd3cnav2) = 0 := by decide +kernel
  have bit : ephSwBit s.config.ephSw .bd3cnav2 = true := by decide +kernel
  refine ⟨bit, flag, by decide +kernel, by decide +kernel, ?_⟩
  intro applied
  have output := applied.output
  rw [flag, bit] at output
  exact absurd output (by decide)

/-! ### The frequency in force -/

/-- For each kind that is switched on, the last OPEN command has the frequency of
the settings. -/
def RateInForce (s : Service) : Prop :=
  ∀ kind, ephSwBit s.config.ephSw kind →
    lastOpenFor s.gnss kind = some (.openOntime (ephTypeName kind) s.config.outputFreq)

/-- No kind is switched on. -/
def NoneSet (ephSw : UInt16) : Prop := ∀ kind, ¬ ephSwBit ephSw kind

/-- Every frame that changes the frequency comes while no kind is switched on. -/
def FreqChangesUnset : GlobCommConfig → List NetFrame → Prop
  | _, [] => True
  | config, f :: frames =>
      (setOutputFreq config.outputFreq f = config.outputFreq ∨ NoneSet config.ephSw) ∧
        FreqChangesUnset (config.accept f) frames

theorem Configured.rate_iff {s : Service} {freq : UInt8} (h : Configured s freq) :
    RateInForce s ↔ freq = s.config.outputFreq ∨ NoneSet s.config.ephSw := by
  constructor
  · intro rate
    by_cases unset : NoneSet s.config.ephSw
    · exact .inr unset
    · obtain ⟨kind, set⟩ := not_forall_not.mp unset
      have written := h.lastOpenFor set
      rw [rate kind set, Option.some.injEq, GnssCommand.openOntime.injEq] at written
      exact .inl written.2.symm
  · rintro (rfl | unset) kind set
    · exact h.lastOpenFor set
    · exact absurd set (unset kind)

theorem outputFreq_step_of_setsSwitch {s : Service} {i : Input} (sets : i.setsSwitch) :
    (step s i).1.config.outputFreq = s.config.outputFreq := by
  rw [config_step]
  unfold Input.setsSwitch at sets
  cases accepted : acceptedFrame i with
  | none => rfl
  | some f =>
      rw [accepted] at sets
      obtain ⟨cmd, -⟩ := of_decide_eq_true sets
      exact setOutputFreq_eq_self (.inl (by rw [cmd]; decide))

/-- A step keeps the rates in force exactly when it keeps the frequency, or no
kind was switched on before it. -/
theorem rateInForce_step_iff {s : Service} {freq : UInt8} {i : Input} (h : Configured s freq)
    (rate : RateInForce s) (ok : ∀ command, 0 ≤ i.write command) :
    RateInForce (step s i).1 ↔
      ((step s i).1.config.outputFreq = s.config.outputFreq ∨ NoneSet s.config.ephSw) := by
  by_cases sets : i.setsSwitch
  · have next := configured_of_setsSwitch h.opened ok sets
    exact iff_of_true (next.rate_iff.mpr (.inl rfl))
      (.inl (outputFreq_step_of_setsSwitch sets))
  · rw [(h.step sets).rate_iff, ephSw_step_of_not_setsSwitch sets]
    rcases h.rate_iff.mp rate with rfl | unset
    · rw [eq_comm]
    · exact iff_of_true (.inr unset) (.inr unset)

/-- The frames of a run that begins with a step. -/
theorem freqChangesUnset_cons (s : Service) (i : Input) (is : List Input) :
    FreqChangesUnset s.config ((i :: is).filterMap acceptedFrame) ↔
      ((step s i).1.config.outputFreq = s.config.outputFreq ∨ NoneSet s.config.ephSw) ∧
        FreqChangesUnset (step s i).1.config (is.filterMap acceptedFrame) := by
  rw [config_step, List.filterMap_cons]
  cases acceptedFrame i with
  | none => simp
  | some f => rfl

/-- From a configured service with the rates in force. -/
theorem rateInForce_run_iff {s : Service} {freq : UInt8} (h : Configured s freq)
    (rate : RateInForce s) (is : List Input) (ok : WritesSucceed is) :
    Along step RateInForce s is ↔ FreqChangesUnset s.config (is.filterMap acceptedFrame) := by
  induction is generalizing s freq with
  | nil => exact iff_of_true (along_nil.mpr rate) trivial
  | cons i is ih =>
      have okStep := ok i List.mem_cons_self
      have okRest : WritesSucceed is := fun j mem => ok j (List.mem_cons_of_mem _ mem)
      have stepIff := rateInForce_step_iff h rate okStep
      obtain ⟨freq', next⟩ := configured_final h [i] (by simpa [WritesSucceed] using okStep)
      rw [along_cons, freqChangesUnset_cons, ← stepIff]
      constructor
      · rintro ⟨-, after⟩
        have kept : RateInForce (step s i).1 := after [] List.nil_prefix
        exact ⟨kept, (ih next kept okRest).mp after⟩
      · rintro ⟨kept, unset⟩
        exact ⟨rate, (ih next kept okRest).mpr unset⟩

/-- **The frequency in force.** Along a run that begins with a SET_EPH_SW the
OPEN commands keep the frequency of the settings exactly when every change of
the frequency comes while no kind is switched on: SET_OUTPUT_FREQ writes no
command. -/
theorem rateInForce_iff {s : Service} {i : Input} {is : List Input} (opened : 0 ≤ s.gnss.fd)
    (ok : WritesSucceed (i :: is)) (sets : i.setsSwitch) :
    Along step RateInForce (step s i).1 is ↔
      FreqChangesUnset s.config ((i :: is).filterMap acceptedFrame) := by
  have first := configured_of_setsSwitch opened (ok i List.mem_cons_self) sets
  have run := rateInForce_run_iff first (first.rate_iff.mpr (.inl rfl)) is
    fun j mem => ok j (List.mem_cons_of_mem _ mem)
  rw [freqChangesUnset_cons, ← run]
  exact ⟨fun h => ⟨.inl (outputFreq_step_of_setsSwitch sets), h⟩, fun h => h.2⟩

theorem rateInForce_iff_reset :
    Along step RateInForce (step openService (commandInput revCmdSetEphSw [0, 0])).1
        [commandInput revCmdSetOutputFreq [5]] ↔
      FreqChangesUnset openService.config
        ([commandInput revCmdSetEphSw [0, 0], commandInput revCmdSetOutputFreq [5]].filterMap
          acceptedFrame) := by
  refine rateInForce_iff (by decide) ?_ (by decide +kernel)
  intro i mem command
  rcases List.mem_pair.mp mem with rfl | rfl <;> exact le_refl 0

/-- GPS is switched on at 1 Hz; the frequency is then set to 5 Hz, the receiver
is not told. -/
theorem rate_left_behind :
    let s := final step openService
      [commandInput revCmdSetEphSw [0x20, 0], commandInput revCmdSetOutputFreq [5]]
    ephSwBit s.config.ephSw .gps = true ∧ s.config.outputFreq = 5 ∧
      lastOpenFor s.gnss .gps = some (.openOntime "GPSEPHB" 1) ∧ ¬ RateInForce s := by
  intro s
  have bit : ephSwBit s.config.ephSw .gps = true := by decide +kernel
  have freq : s.config.outputFreq = 5 := by decide +kernel
  have last : lastOpenFor s.gnss .gps = some (.openOntime "GPSEPHB" 1) := by decide +kernel
  refine ⟨bit, freq, last, ?_⟩
  intro rate
  have told := rate .gps bit
  rw [last, freq] at told
  exact absurd told (by decide)

end Ok3506.Comm
