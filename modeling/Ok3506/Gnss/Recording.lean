import Ok3506.Gnss.Config
import Ok3506.Lib.Machine

/-!
The files that GNSS data is recorded in.

Three functions switch the recording of a kind of data on and off. Each creates a
new file when it switches on; the two for NMEA switch off when `fopen` fails, and
`gnss_ephb_info_file_header` stays on.
-/

namespace Ok3506.Gnss

open Machine

/-- The NMEA sentences with files. -/
inductive NmeaSentence where
  | gbs
  | gga
  | gll
  | gsa
  | gst
  | gsv
  | rmc
  | vtg
  | zda
  deriving DecidableEq, Repr

/-- A `File_cfg_t` in `data_cfg`: `file` of an ephemeris, `file` and `file_ex` of a
sentence. -/
inductive Descriptor where
  | ephb (kind : EphKind)
  | nmea (sentence : NmeaSentence)
  | nmeaEx (sentence : NmeaSentence)
  deriving DecidableEq, Repr

/-- `File_cfg_t`. -/
structure FileCfg where
  en : UInt8 := 0
  path : List Char := []

/-- What a call for a descriptor does: it switches off, or on, where `fopen` may fail. -/
inductive Outcome where
  | disabled
  | failed
  | created (path : List Char)
  deriving DecidableEq, Repr

/-- The outcome of a call with a file name. -/
def outcome (enable : UInt8) (fopen : Bool) (path : List Char) : Outcome :=
  if enable = 0 then .disabled else if fopen then .created path else .failed

/-- The module, and the calls for its descriptors so far. -/
structure RecordWorld where
  ctrl : GnssCtrl
  files : Descriptor → FileCfg := fun _ => {}
  calls : List (Descriptor × Outcome) := []

/-- `strftime` into `time_str[64]`, and a file name around it. -/
def fileName (start type : String) (time : List Char) (suffix : String) : List Char :=
  start.toList ++ type.toList ++ '_' :: time.take 63 ++ suffix.toList

/-- The descriptor that `gnss_ephb_info_file_header` finds. -/
def ephbFileFromName (type : String) : Option EphKind :=
  if type = "gpsephb" then some .gps
  else if type = "gloephb" then some .glo
  else if type = "galephb" then some .gal
  else if type = "bd2ephb" then some .bd2
  else if type = "bd3ephb" then some .bd3
  else if type = "bdxwephb" then some .bdxw
  else if type = "bd3cnav2ephb" then some .bd3cnav2
  else if type = "bd3cnav3ephb" then some .bd3cnav3
  else none

/-- `nmea_file_type_from_name`. -/
def nmeaFileTypeFromName (name : String) : Option NmeaSentence :=
  if name = "gbs" then some .gbs
  else if name = "gga" then some .gga
  else if name = "gll" then some .gll
  else if name = "gsa" then some .gsa
  else if name = "gst" then some .gst
  else if name = "gsv" then some .gsv
  else if name = "rmc" then some .rmc
  else if name = "vtg" then some .vtg
  else if name = "zda" then some .zda
  else none

/-- The name in `file_path[256]`. -/
def ephbFilePath (type : String) (time : List Char) : List Char :=
  (fileName "/root/ephb_" type time ".csv").take 255

/-- The name in `file_path[128]` of `gnss_nmea_file_header`. -/
def nmeaFilePath (type : String) (time : List Char) : List Char :=
  (fileName "/root/nmea_" type time ".txt").take 127

/-- The name in `file_path[128]` of `gnss_nmea_ex_file_header`. -/
def nmeaExFilePath (type : String) (time : List Char) : List Char :=
  (fileName "/root/nmea_ex_" type time ".txt").take 127

/-- A descriptor is assigned, and the call for it entered. -/
def assignFile (w : RecordWorld) (d : Descriptor) (file : FileCfg) (what : Outcome) :
    RecordWorld :=
  { w with files := fun d' => if d' = d then file else w.files d', calls := w.calls ++ [(d, what)] }

/-- A branch of `gnss_ephb_info_file_header`. -/
def ephbFileBranch (w : RecordWorld) (kind : EphKind) (enable : UInt8) (filePath : List Char)
    (fopen : Bool) : RecordWorld :=
  let file := w.files (.ephb kind)
  let file := if enable ≠ 0 ∧ fopen then { file with path := filePath.take 128 } else file
  assignFile w (.ephb kind) { file with en := if enable ≠ 0 then 1 else 0 }
    (outcome enable fopen filePath)

/-- `gnss_ephb_info_file_header`; it ends with a call of `gnss_cfg_data`. -/
def gnssEphbInfoFileHeader (w : RecordWorld) (type : String) (enable : UInt8) (time : List Char)
    (fopen : Bool) (write : GnssCommand → Int) : RecordWorld :=
  let filePath := ephbFilePath type time
  let w :=
    match ephbFileFromName type with
    | some kind => ephbFileBranch w kind enable filePath fopen
    | none => w
  { w with ctrl := gnssCfgData w.ctrl type enable 1 write }

/-- What `gnss_nmea_file_header` and `gnss_nmea_ex_file_header` share, for the
descriptor and the name that they have. -/
def nmeaFile (w : RecordWorld) (d : Descriptor) (enable : UInt8) (filePath : List Char)
    (fopen : Bool) : RecordWorld :=
  let file := w.files d
  let what := outcome enable fopen filePath
  if enable ≠ 0 then
    if fopen = false then assignFile w d { file with en := 0 } what
    else assignFile w d { en := 1, path := filePath.take 127 } what
  else assignFile w d { file with en := 0 } what

/-- `gnss_nmea_file_header`. -/
def gnssNmeaFileHeader (w : RecordWorld) (type : String) (enable : UInt8) (time : List Char)
    (fopen : Bool) : RecordWorld :=
  match nmeaFileTypeFromName type with
  | some sentence => nmeaFile w (.nmea sentence) enable (nmeaFilePath type time) fopen
  | none => w

/-- `gnss_nmea_ex_file_header`. -/
def gnssNmeaExFileHeader (w : RecordWorld) (type : String) (enable : UInt8) (time : List Char)
    (fopen : Bool) : RecordWorld :=
  match nmeaFileTypeFromName type with
  | some sentence => nmeaFile w (.nmeaEx sentence) enable (nmeaExFilePath type time) fopen
  | none => w

/-! ### Runs -/

/-- The three functions. -/
inductive HeaderFunc where
  | ephbInfo
  | nmea
  | nmeaEx
  deriving DecidableEq, Repr

/-- A call, with the time, whether `fopen` succeeds, and what `write` returns. -/
structure HeaderCall where
  func : HeaderFunc
  type : String
  enable : UInt8
  time : List Char
  fopen : Bool
  write : GnssCommand → Int := fun _ => 0

/-- The descriptor that a call names. -/
def HeaderCall.descriptor (i : HeaderCall) : Option Descriptor :=
  match i.func with
  | .ephbInfo => (ephbFileFromName i.type).map .ephb
  | .nmea => (nmeaFileTypeFromName i.type).map .nmea
  | .nmeaEx => (nmeaFileTypeFromName i.type).map .nmeaEx

def headerStep (w : RecordWorld) (i : HeaderCall) : RecordWorld × Unit :=
  (match i.func with
  | .ephbInfo => gnssEphbInfoFileHeader w i.type i.enable i.time i.fopen i.write
  | .nmea => gnssNmeaFileHeader w i.type i.enable i.time i.fopen
  | .nmeaEx => gnssNmeaExFileHeader w i.type i.enable i.time i.fopen, ())

/-- The outcome of the last call for a descriptor. -/
def lastOutcome (calls : List (Descriptor × Outcome)) (d : Descriptor) : Option Outcome :=
  (calls.filterMap fun call => if call.1 = d then some call.2 else none).getLast?

/-- What a descriptor should hold after its last call. -/
def Holds (file : FileCfg) : Option Outcome → Prop
  | some (.created path) => file.en = 1 ∧ file.path = path
  | _ => file.en = 0

/-- Every descriptor holds what its last call left. -/
def Recorded (w : RecordWorld) : Prop := ∀ d, Holds (w.files d) (lastOutcome w.calls d)

/-- The call enables the recording of an ephemeris, and `fopen` fails. -/
def LosesFile (i : HeaderCall) : Prop :=
  i.func = .ephbInfo ∧ (ephbFileFromName i.type).isSome = true ∧ i.enable ≠ 0 ∧ i.fopen = false

theorem lastOutcome_append (calls : List (Descriptor × Outcome)) (d d' : Descriptor)
    (what : Outcome) :
    lastOutcome (calls ++ [(d', what)]) d =
      if d' = d then some what else lastOutcome calls d := by
  unfold lastOutcome
  rw [List.filterMap_append, List.filterMap_cons, List.filterMap_nil]
  by_cases same : d' = d
  · simp [same]
  · simp [same]

/-! ### File names -/

theorem fileName_length {start type suffix : String} {time : List Char} {n : Nat}
    (short : start.toList.length + type.toList.length + suffix.toList.length + 64 ≤ n) :
    (fileName start type time suffix).length ≤ n := by
  have taken := List.length_take_le 63 time
  simp only [fileName, List.length_append, List.length_cons]
  omega

/-- The longest of the eight names has twelve letters. -/
theorem length_of_ephbFileFromName {type : String} {kind : EphKind}
    (h : ephbFileFromName type = some kind) : type.toList.length ≤ 12 := by
  unfold ephbFileFromName at h
  split_ifs at h with h1 h2 h3 h4 h5 h6 h7 h8 <;> simp [*]

theorem ephbFilePath_length {type : String} {kind : EphKind}
    (h : ephbFileFromName type = some kind) (time : List Char) :
    (ephbFilePath type time).length ≤ 128 := by
  have short := length_of_ephbFileFromName h
  have start : "/root/ephb_".toList.length = 11 := by decide
  have suffix : ".csv".toList.length = 4 := by decide
  exact (List.length_take_le' 255 _).trans (fileName_length (by omega))

/-! ### One call -/

/-- A call names a descriptor and assigns only that one. -/
structure Assigns (w : RecordWorld) (i : HeaderCall) (d : Descriptor) (after : RecordWorld) :
    Prop where
  names : i.descriptor = some d
  kept : ∀ d' ≠ d, after.files d' = w.files d'
  entered : ∃ what, after.calls = w.calls ++ [(d, what)] ∧
    (Holds (after.files d) (some what) ↔ ¬ LosesFile i)

section Step

variable {w : RecordWorld} {i : HeaderCall}

theorem holds_nmeaFile (d : Descriptor) (enable : UInt8) (filePath : List Char) (fopen : Bool)
    (short : filePath.length ≤ 127) :
    Holds ((nmeaFile w d enable filePath fopen).files d)
      (some (outcome enable fopen filePath)) := by
  unfold nmeaFile outcome
  by_cases off : enable = 0
  · simp [off, assignFile, Holds]
  · cases fopen <;> simp [off, assignFile, Holds, List.take_of_length_le short]

theorem assigns_nmeaFile {d : Descriptor} {filePath : List Char} (names : i.descriptor = some d)
    (nmea : i.func ≠ .ephbInfo) (short : filePath.length ≤ 127) :
    Assigns w i d (nmeaFile w d i.enable filePath i.fopen) where
  names := names
  kept := by
    intro d' other
    unfold nmeaFile
    split
    · split <;> exact if_neg other
    · exact if_neg other
  entered := by
    refine ⟨outcome i.enable i.fopen filePath, ?_, ?_⟩
    · unfold nmeaFile
      split
      · split <;> rfl
      · rfl
    · exact iff_of_true (holds_nmeaFile d i.enable filePath i.fopen short) fun loses => nmea loses.1

theorem assigns_ephbFileBranch {kind : EphKind} {filePath : List Char}
    (names : ephbFileFromName i.type = some kind) (ephb : i.func = .ephbInfo)
    (short : filePath.length ≤ 128) :
    Assigns w i (.ephb kind) (ephbFileBranch w kind i.enable filePath i.fopen) where
  names := by
    unfold HeaderCall.descriptor
    rw [ephb, names]
    rfl
  kept := fun d' other => if_neg other
  entered := by
    refine ⟨outcome i.enable i.fopen filePath, rfl, ?_⟩
    have known : (ephbFileFromName i.type).isSome = true := by
      rw [names]
      rfl
    unfold LosesFile
    rw [and_iff_right ephb, and_iff_right known]
    unfold outcome
    by_cases off : i.enable = 0
    · simp [off, ephbFileBranch, assignFile, Holds]
    · cases fopen : i.fopen <;>
        simp [off, ephbFileBranch, assignFile, Holds, List.take_of_length_le short]

/-- **What a call does**: nothing to the files, or one assignment. -/
theorem headerStep_cases (w : RecordWorld) (i : HeaderCall) :
    (i.descriptor = none ∧ ¬ LosesFile i ∧ (headerStep w i).1.files = w.files ∧
        (headerStep w i).1.calls = w.calls) ∨
      ∃ d, Assigns w i d (headerStep w i).1 := by
  obtain ⟨func, type, enable, time, fopen, write⟩ := i
  cases func with
  | ephbInfo =>
      cases named : ephbFileFromName type with
      | none =>
          refine .inl ⟨?_, ?_, ?_⟩
          · simp [HeaderCall.descriptor, named]
          · simp [LosesFile, named]
          · simp [headerStep, gnssEphbInfoFileHeader, named]
      | some kind =>
          have branch : Assigns w ⟨.ephbInfo, type, enable, time, fopen, write⟩ (.ephb kind)
              (ephbFileBranch w kind enable (ephbFilePath type time) fopen) :=
            assigns_ephbFileBranch named rfl (ephbFilePath_length named time)
          refine .inr ⟨.ephb kind, branch.names, ?_, ?_⟩
          · simpa [headerStep, gnssEphbInfoFileHeader, named] using branch.kept
          · simpa [headerStep, gnssEphbInfoFileHeader, named] using branch.entered
  | nmea =>
      cases named : nmeaFileTypeFromName type with
      | none => exact .inl (by simp [HeaderCall.descriptor, LosesFile, headerStep,
          gnssNmeaFileHeader, named])
      | some sentence =>
          refine .inr ⟨.nmea sentence, ?_⟩
          simp only [headerStep, gnssNmeaFileHeader, named]
          exact assigns_nmeaFile (by simp [HeaderCall.descriptor, named]) nofun
            (List.length_take_le 127 _)
  | nmeaEx =>
      cases named : nmeaFileTypeFromName type with
      | none => exact .inl (by simp [HeaderCall.descriptor, LosesFile, headerStep,
          gnssNmeaExFileHeader, named])
      | some sentence =>
          refine .inr ⟨.nmeaEx sentence, ?_⟩
          simp only [headerStep, gnssNmeaExFileHeader, named]
          exact assigns_nmeaFile (by simp [HeaderCall.descriptor, named]) nofun
            (List.length_take_le 127 _)

/-- A call on good recordings leaves them good, unless it loses its file. -/
theorem recorded_headerStep (h : Recorded w) : Recorded (headerStep w i).1 ↔ ¬ LosesFile i := by
  rcases headerStep_cases w i with ⟨-, found, files, calls⟩ | ⟨d, -, kept, what, calls, holds⟩
  · refine iff_of_true ?_ found
    intro d
    rw [files, calls]
    exact h d
  · rw [← holds]
    constructor
    · intro recorded
      have now := recorded d
      rwa [calls, lastOutcome_append, if_pos rfl] at now
    · intro now d'
      rw [calls, lastOutcome_append]
      by_cases same : d = d'
      · subst same
        rw [if_pos rfl]
        exact now
      · rw [if_neg same, kept d' (Ne.symm same)]
        exact h d'

end Step

/-- **The recordings.** In every state of a run each descriptor holds what its last
call left, exactly when no enabling call for an ephemeris fails to create its file; and
a call changes only the descriptor it names. -/
theorem recorded_iff (ctrl : GnssCtrl) (is : List HeaderCall) :
    (Along headerStep Recorded { ctrl } is ↔
        Steps headerStep (fun _ i => ¬ LosesFile i) { ctrl } is) ∧
      ∀ w i d, i.descriptor ≠ some d → (headerStep w i).1.files d = w.files d := by
  constructor
  · refine along_iff_steps (I := Recorded) (fun _ h => h) ?_ ?_ ?_ is
    · exact fun w i recorded found => (recorded_headerStep recorded).mpr found
    · exact fun w i recorded loses next => loses ((recorded_headerStep recorded).mp next)
    · exact fun d => (rfl : (0 : UInt8) = 0)
  · intro w i d other
    rcases headerStep_cases w i with ⟨-, -, files, -⟩ | ⟨d', names, kept, -⟩
    · rw [files]
    · refine kept d ?_
      rintro rfl
      exact other names

/-- The GPS ephemeris is to be recorded, and `fopen` fails. -/
def failedCall : HeaderCall :=
  { func := .ephbInfo, type := "gpsephb", enable := 1, time := [], fopen := false }

/-- The recording is on, with an empty file name. -/
theorem enabled_without_file :
    ¬ Along headerStep Recorded { ctrl := { fd := -1, output := fun _ => 0, written := [] } }
      [failedCall] := by
  intro recorded
  let w := final headerStep
    { ctrl := { fd := -1, output := fun _ => 0, written := [] } } [failedCall]
  have holds : Holds (w.files (.ephb .gps)) (lastOutcome w.calls (.ephb .gps)) :=
    recorded [failedCall] List.prefix_rfl (.ephb .gps)
  have last : lastOutcome w.calls (.ephb .gps) = some .failed := by decide +kernel
  have on : (w.files (.ephb .gps)).en = 1 := by decide +kernel
  rw [last] at holds
  exact absurd (on.symm.trans holds) (by decide)

end Ok3506.Gnss
