import Mathlib.Data.List.Nodup
import Mathlib.Data.List.ReduceOption
import Ok3506.Gnss.Recording

/-!
Two commands of the console.

`gnss sys` joins its arguments with a space in front of each, and
`CfgsysType_from_name` compares the whole text with single names: it finds none, so
the mirror keeps its first value for ever. `gnss file ephb` passes on a word of its
own grammar, which neither table of type names contains.
-/

namespace Ok3506.Gnss

open Machine

/-! ### The satellite systems -/

/-- The bits of `gnss_SysType_t`. -/
inductive Sys where
  | bds
  | gps
  | gal
  | glo
  deriving DecidableEq, Repr

/-- The bits that `CfgsysType_from_name` assigns. -/
def cfgsysTypeFromName (sys : String) : List Sys :=
  if strcasecmpEq sys "bds" then [.bds]
  else if strcasecmpEq sys "gps" then [.gps]
  else if strcasecmpEq sys "gal" then [.gal]
  else if strcasecmpEq sys "glo" then [.glo]
  else if strcasecmpEq sys "all" then [.bds, .gps, .gal, .glo]
  else []

/-- The members of `gnss_ctrl` that `gnss_cfg_sys` uses. `written` holds the texts that
reached `write`, each with what it returned. -/
structure SysCtrl where
  fd : Int
  sysType : Sys → UInt8 := fun _ => 0
  written : List (List Char × Int) := []

/-- The text that `snprintf` puts into `buff[128]`. -/
def sysenText (sys : String) (enable : UInt8) : List Char :=
  ("CSHG SYSEN " ++ sys ++ (if enable ≠ 0 then " ON \r\n" else " OFF \r\n")).toList.take 127

/-- `gnss_cfg_sys`, where `write` returns `result`. A bit takes the lowest bit of
`enable`. -/
def gnssCfgSys (ctrl : SysCtrl) (sys : String) (enable : UInt8) (result : Int) : SysCtrl :=
  if ctrl.fd < 0 then ctrl
  else
    let ctrl := { ctrl with written := ctrl.written ++ [(sysenText sys enable, result)] }
    if result < 0 then ctrl
    else
      { ctrl with
        sysType := fun s =>
          if s ∈ cfgsysTypeFromName sys then enable % 2 else ctrl.sysType s }

/-- The words for systems in the grammar of the command. -/
inductive SysWord where
  | all
  | bds
  | gsp
  | glo
  | gal
  deriving DecidableEq, Repr

namespace SysWord

def name : SysWord → String
  | all => "all"
  | bds => "bds"
  | gsp => "gsp"
  | glo => "glo"
  | gal => "gal"

/-- The systems that the operator means. -/
def systems : SysWord → List Sys
  | all => [.bds, .gps, .gal, .glo]
  | bds => [.bds]
  | gsp => [.gps]
  | glo => [.glo]
  | gal => [.gal]

end SysWord

/-- A command line: the slots of the words, of which each may be empty, and what the
device write returns. -/
structure SysLine where
  on : Bool
  argv : List (Option SysWord)
  listed : argv.reduceOption ≠ []
  nodup : argv.reduceOption.Nodup
  result : Int
  succeeds : 0 ≤ result

namespace SysLine

/-- The loop of `gnss_sys_cfg` over `argv`. -/
def sys (line : SysLine) : String :=
  line.argv.foldl (fun sys arg =>
    match arg with
    | some word => sys ++ " " ++ word.name
    | none => sys) ""

def enable (line : SysLine) : UInt8 := if line.on then 1 else 0

/-- The systems of the words that are listed. -/
def systems (line : SysLine) : List Sys := line.argv.reduceOption.flatMap SysWord.systems

end SysLine

/-- `gnss_sys_cfg`. -/
def gnssSysCfg (ctrl : SysCtrl) (line : SysLine) : SysCtrl :=
  gnssCfgSys ctrl line.sys line.enable line.result

/-- What `show_gnss_sys_cfg` prints for a system. -/
def showGnssSysCfg (ctrl : SysCtrl) (s : Sys) : String :=
  if ctrl.sysType s ≠ 0 then "on" else "off"

def sysStep (ctrl : SysCtrl) (line : SysLine) : SysCtrl × Unit := (gnssSysCfg ctrl line, ())

/-- A command sets the bits of the systems it lists, and no other. -/
structure UpdatesSys (ctrl : SysCtrl) (line : SysLine) : Prop where
  listed : ∀ s ∈ line.systems, (gnssSysCfg ctrl line).sysType s = line.enable ∧
    showGnssSysCfg (gnssSysCfg ctrl line) s = if line.on then "on" else "off"
  others : ∀ s, s ∉ line.systems → (gnssSysCfg ctrl line).sysType s = ctrl.sysType s

/-- The joined words, each behind a space. -/
theorem toList_sys (line : SysLine) :
    line.sys.toList = line.argv.reduceOption.flatMap fun word => ' ' :: word.name.toList := by
  have joined (start : String) (argv : List (Option SysWord)) :
      (argv.foldl (fun sys arg =>
        match arg with
        | some word => sys ++ " " ++ word.name
        | none => sys) start).toList =
      start.toList ++ argv.reduceOption.flatMap fun word => ' ' :: word.name.toList := by
    induction argv generalizing start with
    | nil => exact (List.append_nil _).symm
    | cons arg argv ih =>
        rw [List.foldl_cons, ih]
        cases arg with
        | none => rfl
        | some word => simp [List.reduceOption_cons_of_some]
  rw [SysLine.sys, joined]
  rfl

/-- The joined words fit `sys[50]`. -/
theorem length_sys_lt (line : SysLine) : line.sys.toList.length < 50 := by
  have few : line.argv.reduceOption.length ≤ 5 := by
    have within : line.argv.reduceOption ⊆ [.all, .bds, .gsp, .glo, .gal] := by
      intro word _
      cases word <;> decide
    exact (line.nodup.subperm within).length_le
  have each (word : SysWord) : (' ' :: word.name.toList).length = 4 := by
    cases word <;> decide
  have total (words : List SysWord) :
      (words.flatMap fun word => ' ' :: word.name.toList).length = 4 * words.length := by
    induction words with
    | nil => rfl
    | cons word words ih =>
        rw [List.flatMap_cons, List.length_append, each, ih, List.length_cons]
        omega
  rw [toList_sys, total]
  omega

/-- No name starts with a space. -/
theorem cfgsysTypeFromName_space {sys : String} {rest : List Char} (h : sys.toList = ' ' :: rest) :
    cfgsysTypeFromName sys = [] := by
  have differs (name : String) (c : Char) (cs : List Char) (is : name.toList = c :: cs)
      (letter : c.toLower ≠ ' ') : strcasecmpEq sys name = false := by
    rw [strcasecmpEq, h, is, List.map_cons, List.map_cons, beq_eq_false_iff_ne]
    intro same
    exact letter (List.cons.inj same).1.symm
  rw [cfgsysTypeFromName, differs "bds" 'b' ['d', 's'] (by decide) (by decide),
    differs "gps" 'g' ['p', 's'] (by decide) (by decide),
    differs "gal" 'g' ['a', 'l'] (by decide) (by decide),
    differs "glo" 'g' ['l', 'o'] (by decide) (by decide),
    differs "all" 'a' ['l', 'l'] (by decide) (by decide)]
  rfl

/-- **The mirror** of the systems is never assigned by the command. -/
theorem sysType_gnssSysCfg (ctrl : SysCtrl) (line : SysLine) :
    (gnssSysCfg ctrl line).sysType = ctrl.sysType := by
  have none_found : cfgsysTypeFromName line.sys = [] := by
    obtain ⟨word, words, eq⟩ := List.exists_cons_of_ne_nil line.listed
    have spaced : line.sys.toList = ' ' :: (word.name.toList ++
        words.flatMap fun word => ' ' :: word.name.toList) := by
      rw [toList_sys, eq, List.flatMap_cons, List.cons_append]
    exact cfgsysTypeFromName_space spaced
  unfold gnssSysCfg gnssCfgSys
  split
  · rfl
  · dsimp only
    split
    · rfl
    · simp [none_found]

theorem updatesSys_iff (ctrl : SysCtrl) (line : SysLine) :
    UpdatesSys ctrl line ↔ ∀ s ∈ line.systems, ctrl.sysType s = line.enable := by
  constructor
  · intro updates s listed
    rw [← (updates.listed s listed).1, sysType_gnssSysCfg]
  · intro already
    refine ⟨?_, fun s _ => by rw [sysType_gnssSysCfg]⟩
    intro s listed
    have now : (gnssSysCfg ctrl line).sysType s = line.enable := by
      rw [sysType_gnssSysCfg, already s listed]
    refine ⟨now, ?_⟩
    rw [showGnssSysCfg, now, SysLine.enable]
    cases line.on <;> rfl

/-- **The commands** of a run do what they say exactly when the mirror has had the
values they set from the start. -/
theorem updatesSys_run_iff (ctrl : SysCtrl) (lines : List SysLine) :
    Steps sysStep UpdatesSys ctrl lines ↔
      ∀ line ∈ lines, ∀ s ∈ line.systems, ctrl.sysType s = line.enable := by
  induction lines generalizing ctrl with
  | nil => exact iff_of_true steps_nil (by simp)
  | cons line lines ih =>
      rw [steps_cons, updatesSys_iff, ih, List.forall_mem_cons, sysStep, sysType_gnssSysCfg]

/-- `gnss sys on bds`, as the parser of the console fills its slots. -/
def sysOnBds : SysLine where
  on := true
  argv := [none, some .bds, none, none, none]
  listed := by decide
  nodup := by decide
  result := 0
  succeeds := le_refl 0

/-- The first command after the start leaves the bit at 0. -/
theorem not_updatesSys_sysOnBds : ¬ Steps sysStep UpdatesSys { fd := 0 } [sysOnBds] := by
  intro updates
  have already := (updatesSys_iff _ _).mp (steps_cons.mp updates).1 .bds (by decide)
  exact absurd already (by decide)

/-! ### The ephemeris files -/

/-- The word for a kind in the grammar of the command. -/
def EphKind.word : EphKind → String
  | .bdxw => "bdxw"
  | .gps => "gps"
  | .bd2 => "bd2"
  | .bd3 => "bd3"
  | .bd3cnav2 => "bd3cnav2"
  | .bd3cnav3 => "bd3cnav3"
  | .glo => "glo"
  | .gal => "gal"

/-- A command line, the time of the call, and what the device writes return. -/
structure EphbLine where
  kind : EphKind
  on : Bool
  time : List Char
  write : GnssCommand → Int
  succeeds : ∀ command, 0 ≤ write command

def EphbLine.sw (line : EphbLine) : UInt8 := if line.on then 1 else 0

/-- The path that the command prints, the value of `gnss_ephb_info_file_header`. -/
def EphbLine.filePath (line : EphbLine) : List Char := ephbFilePath line.kind.word line.time

/-- `gnss_file_ephb_cfg`; `fopen` succeeds. -/
def gnssFileEphbCfg (w : RecordWorld) (line : EphbLine) : RecordWorld :=
  gnssEphbInfoFileHeader w line.kind.word line.sw line.time true line.write

def ephbStep (w : RecordWorld) (line : EphbLine) : RecordWorld × Unit :=
  (gnssFileEphbCfg w line, ())

/-- The descriptor and the mirror flag of a kind have the values of a command. -/
structure HasEphb (w : RecordWorld) (line : EphbLine) : Prop where
  en : (w.files (.ephb line.kind)).en = line.sw
  path : line.on = true → (w.files (.ephb line.kind)).path = line.filePath
  output : w.ctrl.output (.ephb line.kind) = line.sw

/-- A command gives its kind the values, and changes no other. -/
structure TakesEffect (w : RecordWorld) (line : EphbLine) : Prop where
  has : HasEphb (gnssFileEphbCfg w line) line
  files : ∀ d, d ≠ .ephb line.kind → (gnssFileEphbCfg w line).files d = w.files d
  outputs : ∀ d, d ≠ .ephb line.kind → (gnssFileEphbCfg w line).ctrl.output d = w.ctrl.output d

/-- No word of the grammar is a type name. -/
theorem fromName_word (kind : EphKind) :
    ephbFileFromName kind.word = none ∧ cfgdataTypeFromName kind.word = none := by
  cases kind <;> decide

/-- **The descriptors and flags** are never assigned by the command. -/
theorem gnssFileEphbCfg_eq (w : RecordWorld) (line : EphbLine) :
    (gnssFileEphbCfg w line).files = w.files ∧
      (gnssFileEphbCfg w line).ctrl.output = w.ctrl.output := by
  obtain ⟨noFile, noFlag⟩ := fromName_word line.kind
  unfold gnssFileEphbCfg gnssEphbInfoFileHeader
  rw [noFile]
  exact ⟨rfl, output_gnssCfgData_of_unnamed noFlag _ _ _⟩

theorem hasEphb_gnssFileEphbCfg {w : RecordWorld} (line line' : EphbLine) :
    HasEphb (gnssFileEphbCfg w line) line' ↔ HasEphb w line' := by
  obtain ⟨files, output⟩ := gnssFileEphbCfg_eq w line
  constructor
  · rintro ⟨en, path, flag⟩
    rw [files] at en path
    rw [output] at flag
    exact ⟨en, path, flag⟩
  · rintro ⟨en, path, flag⟩
    rw [← files] at en path
    rw [← output] at flag
    exact ⟨en, path, flag⟩

theorem takesEffect_iff (w : RecordWorld) (line : EphbLine) :
    TakesEffect w line ↔ HasEphb w line := by
  obtain ⟨files, output⟩ := gnssFileEphbCfg_eq w line
  constructor
  · rintro ⟨has, -, -⟩
    exact (hasEphb_gnssFileEphbCfg line line).mp has
  · intro has
    refine ⟨(hasEphb_gnssFileEphbCfg line line).mpr has, fun d _ => by rw [files], fun d _ => ?_⟩
    rw [output]

/-- **The commands** of a run take effect exactly when descriptors and flags have had
the values they set from the start. -/
theorem takesEffect_run_iff (w : RecordWorld) (lines : List EphbLine) :
    Steps ephbStep TakesEffect w lines ↔ ∀ line ∈ lines, HasEphb w line := by
  induction lines generalizing w with
  | nil => exact iff_of_true steps_nil (by simp)
  | cons line lines ih =>
      rw [steps_cons, takesEffect_iff, ih, List.forall_mem_cons, ephbStep]
      simp only [hasEphb_gnssFileEphbCfg]

/-- `gnss file ephb gps on`. -/
def ephbGpsOn : EphbLine where
  kind := .gps
  on := true
  time := "2025-01-01_00-00-00".toList
  write := fun _ => 30
  succeeds := fun _ => by decide

/-- The first command after the start leaves the recording off. -/
theorem not_takesEffect_ephbGpsOn :
    ¬ Steps ephbStep TakesEffect { ctrl := { fd := 0, output := fun _ => 0, written := [] } }
      [ephbGpsOn] := by
  intro effects
  have has := (takesEffect_iff _ _).mp (steps_cons.mp effects).1
  exact absurd has.en (by decide)

end Ok3506.Gnss
