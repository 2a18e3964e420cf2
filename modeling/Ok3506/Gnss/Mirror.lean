import Ok3506.Gnss.Config
import Ok3506.Lib.Machine

/-!
The mirror of the receiver's outputs.

`gnss_cfg_data`, `gnss_cfg_data_onchange` and `gnss_cfg_disable_out` write output
commands. The flags in `data_cfg` should say, for each kind, what the last command
was that reached the receiver whole. They do not follow a CLOSEALL, and they follow
a command of which `write` took only a part.
-/

namespace Ok3506.Gnss

open Machine

/-- The commands of the three functions. -/
inductive OutputCommand where
  /-- OPEN or CLOSE -/
  | cfg (command : GnssCommand)
  | onchange (type : String)
  | closeAll
  deriving DecidableEq, Repr

namespace OutputCommand

/-- The text that `snprintf` puts into `buff[128]`. -/
def text : OutputCommand → List Char
  | cfg command => command.text
  | onchange type => ("CSHG ONCHANGE COM1 " ++ type ++ " ONCHANGED \r\n").toList.take 127
  | closeAll => "CSHG CLOSEALL COM1 \r\n".toList.take 127

/-- The type name in the command. -/
def type : OutputCommand → Option String
  | cfg command => some command.type
  | onchange type => some type
  | closeAll => none

/-- The command affects the output of a kind. -/
def affects (d : DataType) (command : OutputCommand) : Bool :=
  match command.type with
  | some type => cfgdataTypeFromName type = some d
  | none => true

/-- OPEN and ONCHANGE. -/
def opens : OutputCommand → Bool
  | cfg command => command.isOpen
  | onchange _ => true
  | closeAll => false

end OutputCommand

/-- The module, and the commands that reached `write`, each with what it returned. -/
structure OutputWorld where
  ctrl : GnssCtrl
  sent : List (OutputCommand × Int)

/-- `gnss_dev_write` of a command, where `write` returns `result`. -/
def devWrite (w : OutputWorld) (command : OutputCommand) (result : Int) : OutputWorld × Int :=
  if w.ctrl.fd < 0 then (w, -1)
  else ({ w with sent := w.sent ++ [(command, result)] }, if result < 0 then -1 else result)

/-- `gnss_cfg_data`, with its command in the history. -/
def cfgData (w : OutputWorld) (type : String) (enable perSecond : UInt8) (result : Int) :
    OutputWorld where
  ctrl := gnssCfgData w.ctrl type enable perSecond fun _ => result
  sent := (devWrite w (.cfg (cfgCommand type enable perSecond)) result).1.sent

/-- `gnss_cfg_data_onchange`. -/
def gnssCfgDataOnchange (w : OutputWorld) (type : String) (result : Int) : OutputWorld :=
  let (w, result) := devWrite w (.onchange type) result
  if result < 0 then w
  else
    match cfgdataTypeFromName type with
    | some d =>
        { w with ctrl := { w.ctrl with
          output := fun d' => if d' = d then 1 else w.ctrl.output d' } }
    | none => w

/-- `gnss_cfg_disable_out`. -/
def gnssCfgDisableOut (w : OutputWorld) (result : Int) : OutputWorld :=
  (devWrite w .closeAll result).1

/-- The three functions. -/
inductive OutputCall where
  | cfgData (type : String) (enable perSecond : UInt8)
  | cfgDataOnchange (type : String)
  | cfgDisableOut
  deriving DecidableEq, Repr

/-- The command that a function writes. -/
def OutputCall.command : OutputCall → OutputCommand
  | cfgData type enable perSecond => .cfg (cfgCommand type enable perSecond)
  | cfgDataOnchange type => .onchange type
  | cfgDisableOut => .closeAll

/-- A call: the device as it is then, and what its `write` returns. -/
structure OutputInput where
  fd : Int
  call : OutputCall
  result : Int

/-- One call. -/
def outputStep (w : OutputWorld) (i : OutputInput) : OutputWorld × Unit :=
  let w := { w with ctrl := { w.ctrl with fd := i.fd } }
  (match i.call with
  | .cfgData type enable perSecond => cfgData w type enable perSecond i.result
  | .cfgDataOnchange type => gnssCfgDataOnchange w type i.result
  | .cfgDisableOut => gnssCfgDisableOut w i.result, ())

/-- At the start all outputs are closed. -/
def outputStart : OutputWorld where
  ctrl := { fd := -1, output := fun _ => 0, written := [] }
  sent := []

/-! ### The last command -/

/-- The command was written completely. -/
def complete (entry : OutputCommand × Int) : Bool := (entry.1.text.length : Int) ≤ entry.2

/-- What the last completely written command that affects a kind was: OPEN or
ONCHANGE, or else. -/
def lastOpens (sent : List (OutputCommand × Int)) (d : DataType) : Bool :=
  ((sent.filter fun entry => complete entry && entry.1.affects d).getLast?).any
    fun entry => entry.1.opens

/-- The flags say what the last commands were. -/
def Mirrored (w : OutputWorld) : Prop :=
  ∀ d, w.ctrl.output d ≠ 0 ↔ lastOpens w.sent d = true

theorem lastOpens_append (sent : List (OutputCommand × Int)) (entry : OutputCommand × Int)
    (d : DataType) :
    lastOpens (sent ++ [entry]) d =
      if complete entry && entry.1.affects d then entry.1.opens else lastOpens sent d := by
  unfold lastOpens
  rw [List.filter_append, List.filter_singleton]
  cases complete entry && entry.1.affects d
  · rw [cond_false, List.append_nil]
    rfl
  · rw [cond_true, List.getLast?_append]
    rfl

/-! ### One call -/

/-- The flags and the receiver part: the command is CLOSEALL and written completely,
or another and not, and it would change a kind. -/
def Drifts (w : OutputWorld) (i : OutputInput) : Prop :=
  0 ≤ i.fd ∧ 0 ≤ i.result ∧
    (i.call = .cfgDisableOut ↔ complete (i.call.command, i.result) = true) ∧
    ∃ d, i.call.command.affects d = true ∧ ¬ (w.ctrl.output d ≠ 0 ↔ i.call.command.opens = true)

section Step

variable {w : OutputWorld} {i : OutputInput} {d : DataType}

/-- Without a device nothing changes. -/
theorem outputStep_of_closed (closed : i.fd < 0) :
    (outputStep w i).1.ctrl.output = w.ctrl.output ∧ (outputStep w i).1.sent = w.sent := by
  obtain ⟨fd, call, result⟩ := i
  cases call <;>
    simp [outputStep, cfgData, gnssCfgDataOnchange, gnssCfgDisableOut, gnssCfgData, gnssDevWrite,
      devWrite, show fd < 0 from closed]

theorem devWrite_of_opened (opened : 0 ≤ w.ctrl.fd) (command : OutputCommand) (result : Int) :
    devWrite w command result =
      ({ w with sent := w.sent ++ [(command, result)] }, if result < 0 then -1 else result) :=
  if_neg (not_lt.mpr opened)

theorem sent_outputStep (opened : 0 ≤ i.fd) :
    (outputStep w i).1.sent = w.sent ++ [(i.call.command, i.result)] := by
  obtain ⟨fd, call, result⟩ := i
  cases call with
  | cfgData type enable perSecond =>
      change (devWrite _ _ _).1.sent = _
      rw [devWrite_of_opened opened]
      rfl
  | cfgDataOnchange type =>
      simp only [outputStep, gnssCfgDataOnchange]
      rw [devWrite_of_opened opened]
      split
      · rfl
      · split <;> rfl
  | cfgDisableOut =>
      change (devWrite _ _ _).1.sent = _
      rw [devWrite_of_opened opened]
      rfl

theorem output_gnssCfgDataOnchange (type : String) {result : Int} (opened : 0 ≤ w.ctrl.fd)
    (written : 0 ≤ result) :
    (gnssCfgDataOnchange w type result).ctrl.output d =
      if cfgdataTypeFromName type = some d then 1 else w.ctrl.output d := by
  have succeeds : ¬ result < 0 := not_lt.mpr written
  simp only [gnssCfgDataOnchange, devWrite_of_opened opened, succeeds, if_false]
  split
  · rename_i named
    simp only [named, Option.some.injEq, eq_comm]
  · rename_i unnamed
    simp [unnamed]

/-- A flag that is set where its kind is named. -/
theorem flag_ne_zero_iff {named follows sense : Prop} [Decidable named] [Decidable follows]
    {value old : UInt8} (same : follows ↔ named) (states : value ≠ 0 ↔ sense) :
    (if named then value else old) ≠ 0 ↔ if follows then sense else old ≠ 0 := by
  by_cases here : named
  · rw [if_pos here, if_pos (same.mpr here)]
    exact states
  · rw [if_neg here, if_neg (mt same.mp here)]

/-- The flag of a kind after a call: that of the command, if it names the kind and
its write did not fail. -/
theorem output_outputStep (opened : 0 ≤ i.fd) :
    (outputStep w i).1.ctrl.output d ≠ 0 ↔
      if 0 ≤ i.result ∧ i.call ≠ .cfgDisableOut ∧ i.call.command.affects d = true then
        i.call.command.opens = true
      else w.ctrl.output d ≠ 0 := by
  obtain ⟨fd, call, result⟩ := i
  have closed : ¬ fd < 0 := not_lt.mpr opened
  by_cases failed : result < 0
  · have cases : ¬ (0 ≤ result ∧ call ≠ .cfgDisableOut ∧ call.command.affects d = true) :=
      fun h => absurd h.1 (not_le.mpr failed)
    rw [if_neg cases]
    cases call <;>
      simp [outputStep, cfgData, gnssCfgDataOnchange, gnssCfgDisableOut, gnssCfgData,
        gnssDevWrite, devWrite, closed, failed]
  · have written : 0 ≤ result := not_lt.mp failed
    cases call with
    | cfgData type enable perSecond =>
        have names : OutputCommand.affects d (.cfg (cfgCommand type enable perSecond)) = true ↔
            cfgdataTypeFromName type = some d := by
          simp [OutputCommand.affects, OutputCommand.type]
        have other : OutputCall.cfgData type enable perSecond ≠ .cfgDisableOut := by rintro ⟨⟩
        change (gnssCfgData _ _ _ _ _).output d ≠ 0 ↔ _
        rw [output_gnssCfgData type enable perSecond _ opened fun _ => written]
        refine flag_ne_zero_iff ?_ ?_
        · exact ⟨fun follows => names.mp follows.2.2,
            fun named => ⟨written, other, names.mpr named⟩⟩
        · by_cases on : enable = 0 <;>
            simp [OutputCall.command, OutputCommand.opens, cfgCommand, GnssCommand.isOpen, on]
    | cfgDataOnchange type =>
        have names : OutputCommand.affects d (.onchange type) = true ↔
            cfgdataTypeFromName type = some d := by
          simp [OutputCommand.affects, OutputCommand.type]
        have other : OutputCall.cfgDataOnchange type ≠ .cfgDisableOut := by rintro ⟨⟩
        change (gnssCfgDataOnchange _ _ _).ctrl.output d ≠ 0 ↔ _
        rw [output_gnssCfgDataOnchange type opened written]
        refine flag_ne_zero_iff ?_ (iff_of_true (by decide) rfl)
        exact ⟨fun follows => names.mp follows.2.2,
          fun named => ⟨written, other, names.mpr named⟩⟩
    | cfgDisableOut =>
        simp [outputStep, gnssCfgDisableOut, devWrite, closed]

/-- A call on correct flags leaves them correct, unless it drifts. -/
theorem mirrored_outputStep (h : Mirrored w) :
    Mirrored (outputStep w i).1 ↔ ¬ Drifts w i := by
  by_cases closed : i.fd < 0
  · obtain ⟨output, sent⟩ := outputStep_of_closed (w := w) closed
    refine iff_of_true ?_ fun drifts => absurd drifts.1 (not_le.mpr closed)
    intro d
    rw [output, sent]
    exact h d
  · have opened : 0 ≤ i.fd := not_lt.mp closed
    have next (d : DataType) := output_outputStep (w := w) (d := d) opened
    have last (d : DataType) :
        lastOpens (outputStep w i).1.sent d = if complete (i.call.command, i.result) &&
          i.call.command.affects d then i.call.command.opens else lastOpens w.sent d := by
      rw [sent_outputStep opened, lastOpens_append]
    constructor
    · rintro mirrored ⟨-, written, parts, d, affected, differs⟩
      have now := mirrored d
      rw [next, last, affected, Bool.and_true] at now
      by_cases off : i.call = .cfgDisableOut
      · rw [if_neg fun follows => follows.2.1 off, if_pos (parts.mp off)] at now
        exact differs now
      · rw [if_pos ⟨written, off, rfl⟩, if_neg fun whole => off (parts.mpr whole), ← h d] at now
        exact differs now.symm
    · intro steady d
      rw [next, last]
      by_cases affected : i.call.command.affects d = true
      · rw [affected, Bool.and_true]
        have whole (done : complete (i.call.command, i.result) = true) : 0 ≤ i.result :=
          (Int.natCast_nonneg _).trans (of_decide_eq_true done)
        by_cases same : 0 ≤ i.result ∧ i.call ≠ .cfgDisableOut ↔
            complete (i.call.command, i.result) = true
        · by_cases done : complete (i.call.command, i.result) = true
          · obtain ⟨written, on⟩ := same.mpr done
            rw [if_pos ⟨written, on, rfl⟩, if_pos done]
          · rw [if_neg fun follows => done (same.mp ⟨follows.1, follows.2.1⟩), if_neg done]
            exact h d
        · have written : 0 ≤ i.result := by
            by_contra failed
            exact same
              (iff_of_false (fun follows => failed follows.1) fun done => failed (whole done))
          have parts : i.call = .cfgDisableOut ↔ complete (i.call.command, i.result) = true := by
            rw [and_iff_right written] at same
            exact not_not.symm.trans (not_iff.mp same)
          have agree : w.ctrl.output d ≠ 0 ↔ i.call.command.opens = true := by
            by_contra differs
            exact steady ⟨opened, written, parts, d, affected, differs⟩
          by_cases off : i.call = .cfgDisableOut
          · rw [if_neg fun follows => follows.2.1 off, if_pos (parts.mp off)]
            exact agree
          · rw [if_pos ⟨written, off, rfl⟩, if_neg fun done => off (parts.mpr done), ← agree]
            exact h d
      · rw [if_neg fun follows => affected follows.2.2, Bool.eq_false_of_not_eq_true affected,
          Bool.and_false, if_neg Bool.false_ne_true]
        exact h d

end Step

/-! ### Runs -/

/-- **The mirror.** The flags follow the receiver along a run exactly when no call
drifts: no CLOSEALL is written while a flag is on, and no part of another command
while it would change the flag of its kind. -/
theorem mirrored_iff (is : List OutputInput) :
    Along outputStep Mirrored outputStart is ↔
      Steps outputStep (fun w i => ¬ Drifts w i) outputStart is := by
  refine along_iff_steps (I := Mirrored) (fun _ h => h) ?_ ?_ ?_ is
  · exact fun w i mirrored steady => (mirrored_outputStep mirrored).mpr steady
  · exact fun w i mirrored drifts next => drifts ((mirrored_outputStep mirrored).mp next)
  · exact fun d => iff_of_false (fun on => on rfl) nofun

/-- RMC is opened, then everything is closed. -/
def closeAllRun : List OutputInput :=
  [{ fd := 3, call := .cfgData "RMC" 1 1, result := 30 },
    { fd := 3, call := .cfgDisableOut, result := 21 }]

/-- The flag stays on. -/
theorem mirror_after_closeAll : ¬ Along outputStep Mirrored outputStart closeAllRun := by
  intro mirrored
  have last := mirrored closeAllRun List.prefix_rfl .rmc
  have on : (final outputStep outputStart closeAllRun).ctrl.output .rmc ≠ 0 := by decide +kernel
  have closed : lastOpens (final outputStep outputStart closeAllRun).sent .rmc = false := by
    decide +kernel
  rw [closed] at last
  exact Bool.false_ne_true (last.mp on)

end Ok3506.Gnss
