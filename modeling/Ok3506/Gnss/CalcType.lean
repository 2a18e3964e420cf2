import Ok3506.Gnss.Config
import Ok3506.Dbb.Urc
import Ok3506.Lib.Machine

/-!
The calculation type of the receiver.

`gnss_cfg_calcType_ex` and `gnss_cfg_calcType` write a MODE command and set
`gnss_ctrl.calcType`. The first one looks at what `gnss_dev_write` returned before
it assigns, the second one does not.
-/

namespace Ok3506.Gnss

open Machine Dbb

/-- The commands of the two functions. -/
inductive ModeCommand where
  | mode (workMode calcType : String) (freqCode : UInt8)
  | sysen (sys : String)
  deriving DecidableEq, Repr

/-- The text that `snprintf` puts into `buff[128]`. -/
def ModeCommand.text : ModeCommand → List Char
  | mode workMode calcType freqCode =>
      ("CSHG MODE " ++ workMode ++ " " ++ calcType ++ " " ++ toString freqCode.toNat ++
        " \r\n").toList.take 127
  | sysen sys => ("CSHG SYSEN " ++ sys ++ " ON \r\n").toList.take 127

/-- The members of `gnss_ctrl` that the two functions use. `written` holds the
commands that reached `write`, each with what it returned. -/
structure CalcCtrl where
  fd : Int
  calcType : GnssCalcType
  written : List (ModeCommand × Int) := []

/-- `gnss_dev_write` of a command, where `write` returns `result`. -/
def modeWrite (ctrl : CalcCtrl) (command : ModeCommand) (result : Int) : CalcCtrl × Int :=
  if ctrl.fd < 0 then (ctrl, -1)
  else ({ ctrl with written := ctrl.written ++ [(command, result)] },
    if result < 0 then -1 else result)

/-- The names in `gnss_cfg_calcType_ex`. -/
def calcTypeExFromName (calcType : String) : Option GnssCalcType :=
  if strcasecmpEq calcType "ppp" then some .ppp
  else if strcasecmpEq calcType "fppp" then some .fppp
  else if strcasecmpEq calcType "rtk" then some .rtk
  else if strcasecmpEq calcType "rtd" then some .rtd
  else if strcasecmpEq calcType "dppp" then some .dppp
  else none

/-- The names in `gnss_cfg_calcType`. -/
def calcTypeFromName (calcType : String) : Option GnssCalcType :=
  match calcTypeExFromName calcType with
  | some type => some type
  | none =>
      if strcasecmpEq calcType "bds_ppp" then some .bdsPpp
      else if strcasecmpEq calcType "bds_rtk" then some .bdsRtk
      else if strcasecmpEq calcType "bds_rtd" then some .bdsRtd
      else none

/-- `gnss_cfg_calcType_ex`, with what `gnss_dev_write` returned. -/
def gnssCfgCalcTypeEx (ctrl : CalcCtrl) (workMode calcType : String) (freqCode : UInt8)
    (result : Int) : CalcCtrl × Int :=
  let (ctrl, result) := modeWrite ctrl (.mode workMode calcType freqCode) result
  if result < 0 then (ctrl, result)
  else
    match calcTypeExFromName calcType with
    | some type => ({ ctrl with calcType := type }, result)
    | none => (ctrl, result)

/-- A branch of `gnss_cfg_calcType` for a type without a system. -/
def calcTypeBranch (ctrl : CalcCtrl) (calcType : String) (type : GnssCalcType) (result : Int) :
    CalcCtrl × Int :=
  let (ctrl, result) := modeWrite ctrl (.mode "rover" calcType 13) result
  ({ ctrl with calcType := type }, result)

/-- A branch of `gnss_cfg_calcType` for a type of the BDS: `sysen` is what the second
`write` returns. -/
def calcTypeBdsBranch (ctrl : CalcCtrl) (calcType : String) (type : GnssCalcType)
    (result sysen : Int) : CalcCtrl × Int :=
  let (ctrl, result) := modeWrite ctrl (.mode "rover" calcType 13) result
  let (ctrl, _) := modeWrite ctrl (.sysen "bds") sysen
  ({ ctrl with calcType := type }, result)

/-- `gnss_cfg_calcType`, with what `gnss_dev_write` returned for the MODE command, if
there was one. -/
def gnssCfgCalcType (ctrl : CalcCtrl) (calcType : String) (result sysen : Int) :
    CalcCtrl × Option Int :=
  let wrote (out : CalcCtrl × Int) : CalcCtrl × Option Int := (out.1, some out.2)
  if strcasecmpEq calcType "ppp" then wrote (calcTypeBranch ctrl calcType .ppp result)
  else if strcasecmpEq calcType "fppp" then wrote (calcTypeBranch ctrl calcType .fppp result)
  else if strcasecmpEq calcType "rtk" then wrote (calcTypeBranch ctrl calcType .rtk result)
  else if strcasecmpEq calcType "rtd" then wrote (calcTypeBranch ctrl calcType .rtd result)
  else if strcasecmpEq calcType "dppp" then wrote (calcTypeBranch ctrl calcType .dppp result)
  else if strcasecmpEq calcType "bds_ppp" then
    wrote (calcTypeBdsBranch ctrl "ppp" .bdsPpp result sysen)
  else if strcasecmpEq calcType "bds_rtk" then
    wrote (calcTypeBdsBranch ctrl "rtk" .bdsRtk result sysen)
  else if strcasecmpEq calcType "bds_rtd" then
    wrote (calcTypeBdsBranch ctrl "rtd" .bdsRtd result sysen)
  else (ctrl, none)

/-! ### Runs -/

/-- A call of one of the two functions. -/
inductive CalcCall where
  | calcTypeEx (workMode calcType : String) (freqCode : UInt8)
  | calcType (calcType : String)
  deriving DecidableEq, Repr

/-- The type that a call asks for, when its function recognises the name. -/
def CalcCall.requested : CalcCall → Option GnssCalcType
  | calcTypeEx _ name _ => calcTypeExFromName name
  | calcType name => calcTypeFromName name

/-- The module, and the calls so far, each with what `gnss_dev_write` reported for
its MODE command. -/
structure CalcWorld where
  ctrl : CalcCtrl
  calls : List (CalcCall × Option Int) := []

/-- A call: the device as it is then, and what its writes return. -/
structure CalcInput where
  fd : Int
  call : CalcCall
  result : Int
  sysen : Int := 0

def calcStep (w : CalcWorld) (i : CalcInput) : CalcWorld × Unit :=
  let ctrl := { w.ctrl with fd := i.fd }
  let (ctrl, reported) :=
    match i.call with
    | .calcTypeEx workMode name freqCode =>
        let (ctrl, reported) := gnssCfgCalcTypeEx ctrl workMode name freqCode i.result
        (ctrl, some reported)
    | .calcType name => gnssCfgCalcType ctrl name i.result i.sysen
  ({ ctrl, calls := w.calls ++ [(i.call, reported)] }, ())

/-- The type of a call whose name was recognised and whose MODE command was
reported as written. -/
def givenType (entry : CalcCall × Option Int) : Option GnssCalcType :=
  if entry.2.any fun reported => 0 ≤ reported then entry.1.requested else none

/-- The type that the receiver was given last. -/
def lastGiven (initial : GnssCalcType) (calls : List (CalcCall × Option Int)) : GnssCalcType :=
  (calls.filterMap givenType).getLast?.getD initial

/-- `gnss_ctrl.calcType` is the mode the receiver was given. -/
def Given (initial : GnssCalcType) (w : CalcWorld) : Prop :=
  w.ctrl.calcType = lastGiven initial w.calls

/-- `gnss_cfg_calcType` assigns another type although its MODE command failed. -/
def Assumes (w : CalcWorld) (i : CalcInput) : Prop :=
  ∃ name type, i.call = .calcType name ∧ i.call.requested = some type ∧
    (i.fd < 0 ∨ i.result < 0) ∧ type ≠ w.ctrl.calcType

theorem lastGiven_append (initial : GnssCalcType) (calls : List (CalcCall × Option Int))
    (entry : CalcCall × Option Int) :
    lastGiven initial (calls ++ [entry]) = (givenType entry).getD (lastGiven initial calls) := by
  unfold lastGiven
  rw [List.filterMap_append, List.filterMap_cons, List.filterMap_nil]
  cases givenType entry
  · rw [List.append_nil]
    rfl
  · rw [List.getLast?_append]
    rfl

/-! ### One call -/

/-- What `gnss_dev_write` returns. -/
def report (fd result : Int) : Int := if fd < 0 ∨ result < 0 then -1 else result

theorem report_nonneg (fd result : Int) : 0 ≤ report fd result ↔ ¬ (fd < 0 ∨ result < 0) := by
  unfold report
  split
  · rename_i failed
    exact iff_of_false (by decide) (not_not.mpr failed)
  · rename_i written
    exact iff_of_true (not_lt.mp (not_or.mp written).2) written

section Calls

variable (ctrl : CalcCtrl)

theorem modeWrite_spec (command : ModeCommand) (result : Int) :
    (modeWrite ctrl command result).1.calcType = ctrl.calcType ∧
      (modeWrite ctrl command result).2 = report ctrl.fd result := by
  unfold modeWrite report
  split
  · rename_i closed
    rw [if_pos (.inl closed)]
    exact ⟨rfl, rfl⟩
  · rename_i opened
    simp only [opened, false_or]
    exact ⟨trivial, trivial⟩

/-- `gnss_cfg_calcType_ex` assigns when its command was written. -/
theorem gnssCfgCalcTypeEx_spec (workMode name : String) (freqCode : UInt8) (result : Int) :
    (gnssCfgCalcTypeEx ctrl workMode name freqCode result).1.calcType =
        (if 0 ≤ report ctrl.fd result then (calcTypeExFromName name).getD ctrl.calcType
          else ctrl.calcType) ∧
      (gnssCfgCalcTypeEx ctrl workMode name freqCode result).2 = report ctrl.fd result := by
  obtain ⟨same, reported⟩ := modeWrite_spec ctrl (.mode workMode name freqCode) result
  unfold gnssCfgCalcTypeEx
  generalize modeWrite ctrl (.mode workMode name freqCode) result = out at same reported
  obtain ⟨after, returned⟩ := out
  simp only at same reported ⊢
  rw [← reported, ← same]
  by_cases failed : returned < 0
  · rw [if_pos failed, if_neg (not_le.mpr failed)]
    exact ⟨rfl, rfl⟩
  · rw [if_neg failed, if_pos (not_lt.mp failed)]
    cases calcTypeExFromName name <;> exact ⟨rfl, rfl⟩

/-- `gnss_cfg_calcType` assigns in any case. -/
theorem gnssCfgCalcType_spec (name : String) (result sysen : Int) :
    (gnssCfgCalcType ctrl name result sysen).1.calcType =
        (calcTypeFromName name).getD ctrl.calcType ∧
      (gnssCfgCalcType ctrl name result sysen).2 =
        (calcTypeFromName name).map fun _ => report ctrl.fd result := by
  have plain (name : String) (type : GnssCalcType) :
      (calcTypeBranch ctrl name type result).2 = report ctrl.fd result :=
    (modeWrite_spec ctrl (.mode "rover" name 13) result).2
  have bds (name : String) (type : GnssCalcType) :
      (calcTypeBdsBranch ctrl name type result sysen).2 = report ctrl.fd result :=
    (modeWrite_spec ctrl (.mode "rover" name 13) result).2
  unfold gnssCfgCalcType calcTypeFromName calcTypeExFromName
  -- one case for each name, and one for the others
  split_ifs <;> first
    | exact ⟨rfl, congrArg some (plain _ _)⟩
    | exact ⟨rfl, congrArg some (bds _ _)⟩
    | exact ⟨rfl, rfl⟩

end Calls

/-- A call keeps a type that was given, unless it assumes another one. -/
theorem given_calcStep {initial : GnssCalcType} {w : CalcWorld} (h : Given initial w)
    (i : CalcInput) : Given initial (calcStep w i).1 ↔ ¬ Assumes w i := by
  obtain ⟨fd, call, result, sysen⟩ := i
  unfold Given
  cases call with
  | calcTypeEx workMode name freqCode =>
      obtain ⟨assigned, returned⟩ :=
        gnssCfgCalcTypeEx_spec { w.ctrl with fd := fd } workMode name freqCode result
      refine iff_of_true ?_ ?_
      · change (gnssCfgCalcTypeEx _ _ _ _ _).1.calcType = lastGiven initial (w.calls ++
          [(_, some (gnssCfgCalcTypeEx _ _ _ _ _).2)])
        rw [assigned, returned, lastGiven_append, ← h, givenType]
        simp only [Option.any_some, decide_eq_true_eq]
        split <;> rfl
      · rintro ⟨_, _, other, -⟩
        cases other
  | calcType name =>
      obtain ⟨assigned, returned⟩ :=
        gnssCfgCalcType_spec { w.ctrl with fd := fd } name result sysen
      change (gnssCfgCalcType _ _ _ _).1.calcType = lastGiven initial (w.calls ++
        [(_, (gnssCfgCalcType _ _ _ _).2)]) ↔ _
      rw [assigned, returned, lastGiven_append, ← h, givenType]
      have requested : (CalcCall.calcType name).requested = calcTypeFromName name := rfl
      simp only [requested]
      cases named : calcTypeFromName name with
      | none =>
          refine iff_of_true rfl ?_
          rintro ⟨_, _, _, asked, -⟩
          rw [requested, named] at asked
          cases asked
      | some type =>
          simp only [Option.map_some, Option.any_some, decide_eq_true_eq, report_nonneg]
          by_cases failed : fd < 0 ∨ result < 0
          · rw [if_neg (not_not.mpr failed)]
            constructor
            · rintro same ⟨_, other, _, asked, -, differs⟩
              rw [requested, named] at asked
              cases asked
              exact differs same
            · intro known
              by_contra differs
              exact known ⟨name, type, rfl, named, failed, differs⟩
          · rw [if_pos failed]
            exact iff_of_true rfl fun ⟨_, _, _, _, failed', _⟩ => failed failed'

/-- **The calculation type.** Along a run `gnss_ctrl.calcType` is the type that the
receiver was given last, exactly when no call of `gnss_cfg_calcType` assigns another
type after a MODE command that failed. -/
theorem given_iff (initial : GnssCalcType) (is : List CalcInput) :
    Along calcStep (Given initial) { ctrl := { fd := -1, calcType := initial } } is ↔
      Steps calcStep (fun w i => ¬ Assumes w i)
        { ctrl := { fd := -1, calcType := initial } } is := by
  refine along_iff_steps (I := Given initial) (fun _ h => h) ?_ ?_ ?_ is
  · exact fun w i given known => (given_calcStep given i).mpr known
  · exact fun w i given assumes next => assumes ((given_calcStep given i).mp next)
  · exact (rfl : initial = lastGiven initial [])

/-- DPPP is asked for while the receiver has no device. -/
def closedRun : List CalcInput := [{ fd := -1, call := .calcType "dppp", result := 0 }]

theorem assumed_without_device :
    ¬ Along calcStep (Given .fppp) { ctrl := { fd := -1, calcType := .fppp } } closedRun := by
  intro given
  have last := given closedRun List.prefix_rfl
  have assigned : (final calcStep { ctrl := { fd := -1, calcType := .fppp } }
      closedRun).ctrl.calcType = .dppp := by decide +kernel
  have never : lastGiven .fppp (final calcStep { ctrl := { fd := -1, calcType := .fppp } }
      closedRun).calls = .fppp := by decide +kernel
  rw [Given, assigned, never] at last
  cases last

end Ok3506.Gnss
