import Ok3506.Gnss.NmeaHandler
import Ok3506.Gnss.Recording

/-!
The NMEA files over a run.

The console switches the recording of a type on and off, and the handler appends the
sentences. What a file holds is compared with a journal that knows neither descriptors
nor file names.
-/

namespace Ok3506.Gnss

open CString Machine

/-! ### Descriptors and files -/

/-- `nmea_file_config` and `nmea_ex_file_config`: the types with files. -/
def nmeaFileConfig : MinmeaSentenceId → Option NmeaSentence
  | .gbs => some .gbs
  | .gga => some .gga
  | .gll => some .gll
  | .gsa => some .gsa
  | .gst => some .gst
  | .gsv => some .gsv
  | .rmc => some .rmc
  | .vtg => some .vtg
  | .zda => some .zda
  | _ => none

/-- The descriptors, and the contents of the files by their names. -/
structure JournalWorld where
  record : RecordWorld
  disk : List Char → List UInt8 := fun _ => []

def JournalWorld.store (w : JournalWorld) (path : List Char) (contents : List UInt8) :
    JournalWorld :=
  { w with disk := fun p => if p = path then contents else w.disk p }

/-- `fopen(path, "a")` and `vfprintf`, for the descriptor of a log. -/
def appendLog (w : JournalWorld) (d : Option Descriptor) (text : List UInt8) (fopen : Bool) :
    JournalWorld :=
  match d with
  | some d =>
      let file := w.record.files d
      if file.en ≠ 0 ∧ fopen = true then w.store file.path (w.disk file.path ++ text) else w
  | none => w

/-- `GNSS_NMEA_LOG`. -/
def gnssNmeaLog (w : JournalWorld) (type : MinmeaSentenceId) (text : List UInt8) (fopen : Bool) :
    JournalWorld :=
  appendLog w ((nmeaFileConfig type).map .nmea) text fopen

/-- `GNSS_NMEA_EX_LOG`. -/
def gnssNmeaExLog (w : JournalWorld) (type : MinmeaSentenceId) (text : List UInt8)
    (fopen : Bool) : JournalWorld :=
  appendLog w ((nmeaFileConfig type).map .nmeaEx) text fopen

/-- `fopen(file_path, "w")` where a known type is switched on. -/
def createFile (w : JournalWorld) (type : String) (enable : UInt8) (path : List Char)
    (fopen : Bool) : JournalWorld :=
  if (nmeaFileTypeFromName type).isSome ∧ enable ≠ 0 ∧ fopen = true then w.store path [] else w

/-! ### Runs -/

/-- What happens: a call of the console for one of the two kinds of files, a sentence, a
line of `GNSS_NMEA_EX_LOG`. -/
inductive JournalInput where
  | file (type : String) (enable : UInt8) (time : List Char) (fopen : Bool)
  | exFile (type : String) (enable : UInt8) (time : List Char) (fopen : Bool)
  | sentence (clock : DeviceClock) (s : List UInt8) (fopen : Bool)
  | exLog (type : MinmeaSentenceId) (text : List UInt8) (fopen : Bool)

/-- A call of the handler, as far as the files are concerned. -/
def recordCall (fopen : Bool) (w : JournalWorld) : NmeaCall → JournalWorld
  | .log type text => gnssNmeaLog w type (text ++ [10]) fopen
  | _ => w

def journalStep (zone : TimeZone) (w : JournalWorld) : JournalInput → JournalWorld × Unit
  | .file type enable time fopen =>
      let w := createFile w type enable (nmeaFilePath type time) fopen
      ({ w with record := gnssNmeaFileHeader w.record type enable time fopen }, ())
  | .exFile type enable time fopen =>
      let w := createFile w type enable (nmeaExFilePath type time) fopen
      ({ w with record := gnssNmeaExFileHeader w.record type enable time fopen }, ())
  | .sentence clock s fopen =>
      match handleGnssNmea zone clock s with
      | .ok calls => (calls.foldl (recordCall fopen) w, ())
      | .error _ => (w, ())
  | .exLog type text fopen => (gnssNmeaExLog w type text fopen, ())

/-! ### The journal -/

/-- What is recorded of each type; `none` where nothing is. -/
abbrev Journal := NmeaSentence → Option (List UInt8)

/-- What happens to the records: a switch starts one anew or ends it, and a sentence is
added to the record of its type. -/
def journal (j : Journal) : JournalInput → Journal
  | .file type enable _ fopen => fun k =>
      if nmeaFileTypeFromName type = some k then
        if enable ≠ 0 ∧ fopen = true then some [] else none
      else j k
  | .sentence _ s fopen => fun k =>
      if (acceptedType s).bind nmeaFileConfig = some k ∧ fopen = true then
        (j k).map (· ++ (cstr s ++ [10]))
      else j k
  | _ => j

/-- A type is recorded in its file, or not at all. -/
def Records (w : JournalWorld) (k : NmeaSentence) : Option (List UInt8) → Prop
  | some text => (w.record.files (.nmea k)).en ≠ 0 ∧ w.disk (w.record.files (.nmea k)).path = text
  | none => (w.record.files (.nmea k)).en = 0

/-! ### File names -/

section Names

/-- The three letters behind `/root/nmea_`, which tell the types apart by their paths. -/
def pathTag (path : List Char) : List Char := (path.drop 11).take 3

/-- The letters in the names of a descriptor's files. -/
def Descriptor.tag : Descriptor → List Char
  | .nmea .gbs => ['g', 'b', 's']
  | .nmea .gga => ['g', 'g', 'a']
  | .nmea .gll => ['g', 'l', 'l']
  | .nmea .gsa => ['g', 's', 'a']
  | .nmea .gst => ['g', 's', 't']
  | .nmea .gsv => ['g', 's', 'v']
  | .nmea .rmc => ['r', 'm', 'c']
  | .nmea .vtg => ['v', 't', 'g']
  | .nmea .zda => ['z', 'd', 'a']
  | .nmeaEx _ => ['e', 'x', '_']
  | .ephb _ => []

theorem tag_injective {k k' : NmeaSentence}
    (h : (Descriptor.nmea k).tag = (Descriptor.nmea k').tag) : k = k' := by
  cases k <;> cases k' <;> first | rfl | cases h

theorem tag_ne_ex (k k' : NmeaSentence) :
    (Descriptor.nmea k).tag ≠ (Descriptor.nmeaEx k').tag := by
  cases k <;> nofun

/-- The name of a file type selects the type whose tag its paths carry. -/
theorem toList_of_nmeaFileTypeFromName {type : String} {k : NmeaSentence}
    (h : nmeaFileTypeFromName type = some k) : type.toList = (Descriptor.nmea k).tag := by
  unfold nmeaFileTypeFromName at h
  split_ifs at h <;> cases h <;> subst type <;> rfl

theorem pathTag_nmeaFilePath {type : String} {k : NmeaSentence}
    (h : nmeaFileTypeFromName type = some k) (time : List Char) :
    pathTag (nmeaFilePath type time) = (Descriptor.nmea k).tag := by
  rw [pathTag, nmeaFilePath, fileName, toList_of_nmeaFileTypeFromName h]
  cases k <;> rfl

theorem pathTag_nmeaExFilePath (type : String) (k : NmeaSentence) (time : List Char) :
    pathTag (nmeaExFilePath type time) = (Descriptor.nmeaEx k).tag := rfl

theorem length_nmeaFilePath (type : String) (time : List Char) :
    (nmeaFilePath type time).take 127 = nmeaFilePath type time :=
  List.take_of_length_le (List.length_take_le 127 _)

end Names

/-! ### One step -/

section Step

variable {zone : TimeZone} {w : JournalWorld} {j : Journal}

/-- Every file that is in use has a name of its descriptor. -/
def Named (w : JournalWorld) : Prop :=
  ∀ d, (w.record.files d).en ≠ 0 → (∀ kind, d ≠ .ephb kind) →
    pathTag (w.record.files d).path = d.tag

/-- The invariant of a run: the descriptors are open on paths of their own types, and each
type's file is as the journal says. -/
structure Kept (w : JournalWorld) (j : Journal) : Prop where
  named : Named w
  records : ∀ k, Records w k (j k)

/-- A step that leaves the descriptor of a type and its file alone leaves its record as it
was. -/
theorem Records.same {k : NmeaSentence} {o : Option (List UInt8)} (h : Records w k o)
    {w' : JournalWorld} (file : w'.record.files (.nmea k) = w.record.files (.nmea k))
    (text : (w.record.files (.nmea k)).en ≠ 0 →
      w'.disk (w.record.files (.nmea k)).path = w.disk (w.record.files (.nmea k)).path) :
    Records w' k o := by
  cases o with
  | none =>
      rw [Records, file]
      exact h
  | some contents =>
      rw [Records, file]
      exact ⟨h.1, (text h.1).trans h.2⟩

theorem store_of_ne {path path' : List Char} {contents : List UInt8} (other : path' ≠ path) :
    (w.store path contents).disk path' = w.disk path' :=
  if_neg other

/-- A file with a name of another tag is stored. -/
theorem Kept.store (h : Kept w j) {path : List Char} (contents : List UInt8)
    (other : ∀ k, pathTag path ≠ (Descriptor.nmea k).tag) : Kept (w.store path contents) j where
  named := h.named
  records k := by
    refine (h.records k).same rfl fun on => store_of_ne fun same => other k ?_
    rw [← same]
    exact h.named (.nmea k) on nofun

theorem nmeaFile_files (r : RecordWorld) (d : Descriptor) (enable : UInt8) (filePath : List Char)
    (fopen : Bool) :
    (nmeaFile r d enable filePath fopen).files = fun d' =>
      if d' = d then
        if enable ≠ 0 ∧ fopen = true then ⟨1, filePath.take 127⟩ else { r.files d with en := 0 }
      else r.files d' := by
  by_cases on : enable = 0
  · simp [nmeaFile, assignFile, on]
  · cases fopen <;> simp [nmeaFile, assignFile, on]

/-- A descriptor is switched off, or on with a name of its own. -/
theorem named_nmeaFile (h : Named w) {d : Descriptor} {enable : UInt8} {filePath : List Char}
    {fopen : Bool} (name : pathTag (filePath.take 127) = d.tag) :
    Named { w with record := nmeaFile w.record d enable filePath fopen } := by
  intro d' on kind
  rw [nmeaFile_files] at on ⊢
  by_cases same : d' = d
  · subst same
    simp only [if_true] at on ⊢
    split at on
    · rename_i created
      rw [if_pos created]
      exact name
    · exact absurd rfl on
  · simp only [if_neg same] at on ⊢
    exact h d' on kind

theorem Kept.exLog (h : Kept w j) (type : MinmeaSentenceId) (text : List UInt8) (fopen : Bool) :
    Kept (gnssNmeaExLog w type text fopen) j := by
  unfold gnssNmeaExLog appendLog
  cases nmeaFileConfig type with
  | none => exact h
  | some k =>
      dsimp only [Option.map_some]
      split
      · rename_i on
        refine h.store _ fun k' => ?_
        rw [h.named (.nmeaEx k) on.1 nofun]
        exact (tag_ne_ex k' k).symm
      · exact h

theorem Kept.exFile (h : Kept w j) (type : String) (enable : UInt8) (time : List Char)
    (fopen : Bool) : Kept (journalStep zone w (.exFile type enable time fopen)).1 j := by
  have created : Kept (createFile w type enable (nmeaExFilePath type time) fopen) j := by
    unfold createFile
    split
    · exact h.store [] fun k => (tag_ne_ex k k).symm
    · exact h
  unfold journalStep gnssNmeaExFileHeader
  dsimp only
  generalize createFile w type enable (nmeaExFilePath type time) fopen = w' at created
  cases nmeaFileTypeFromName type with
  | none => exact created
  | some k =>
      refine ⟨named_nmeaFile created.named rfl, fun k' => ?_⟩
      refine (created.records k').same ?_ fun _ => rfl
      dsimp only
      rw [nmeaFile_files]
      exact if_neg nofun

theorem Kept.file (h : Kept w j) (type : String) (enable : UInt8) (time : List Char)
    (fopen : Bool) :
    Kept (journalStep zone w (.file type enable time fopen)).1
      (journal j (.file type enable time fopen)) := by
  unfold journalStep gnssNmeaFileHeader createFile journal
  dsimp only
  cases found : nmeaFileTypeFromName type with
  | none => simpa using h
  | some k =>
      have tag := pathTag_nmeaFilePath found time
      have whole := length_nmeaFilePath type time
      constructor
      · refine named_nmeaFile ?_ (whole.symm ▸ tag)
        split
        · exact h.named
        · exact h.named
      · intro k'
        dsimp only
        by_cases same : k' = k
        · subst same
          by_cases on : enable ≠ 0 ∧ fopen = true
          · simp [Records, nmeaFile_files, on, JournalWorld.store, whole]
          · simp [Records, nmeaFile_files, on]
        · have other : ¬ some k = some k' := fun eq => same (Option.some.inj eq).symm
          rw [if_neg other]
          refine (h.records k').same ?_ fun on => ?_
          · dsimp only
            rw [nmeaFile_files]
            dsimp only
            rw [if_neg fun eq => same (Descriptor.nmea.inj eq)]
            split <;> rfl
          · dsimp only
            split
            · refine store_of_ne fun eq => same (tag_injective ?_)
              rw [← tag, ← eq, h.named (.nmea k') on nofun]
            · rfl

/-- A sentence that is logged is appended to the file of its type and to the journal alike.
-/
theorem Kept.log (h : Kept w j) (type : MinmeaSentenceId) (text : List UInt8) (fopen : Bool) :
    Kept (gnssNmeaLog w type text fopen) fun k =>
      if nmeaFileConfig type = some k ∧ fopen = true then (j k).map (· ++ text) else j k := by
  unfold gnssNmeaLog appendLog
  cases nmeaFileConfig type with
  | none => simpa using h
  | some k =>
      dsimp only [Option.map_some]
      cases fopen with
      | false => simpa using h
      | true =>
          have tag := h.named (.nmea k)
          refine ⟨?_, fun k' => ?_⟩
          · split
            · exact h.named
            · exact h.named
          · have now := h.records k'
            have line : (if some k = some k' ∧ true = true then (j k').map (· ++ text) else j k') =
                if k' = k then (j k').map (· ++ text) else j k' := by
              simp [eq_comm]
            rw [line]
            by_cases on : (w.record.files (.nmea k)).en ≠ 0 ∧ true = true
            · rw [if_pos on]
              by_cases same : k' = k
              · subst same
                rw [if_pos rfl]
                cases hj : j k' with
                | none =>
                    rw [hj] at now
                    exact absurd now on.1
                | some contents =>
                    rw [hj] at now
                    rw [now.2]
                    exact ⟨now.1, if_pos rfl⟩
              · rw [if_neg same]
                refine now.same rfl fun on' => store_of_ne fun eq => same (tag_injective ?_)
                rw [← h.named (.nmea k') on' nofun, eq, tag on.1 nofun]
            · rw [if_neg on]
              by_cases same : k' = k
              · subst same
                rw [if_pos rfl]
                cases hj : j k' with
                | none =>
                    rw [hj] at now
                    exact now
                | some contents =>
                    rw [hj] at now
                    exact absurd ⟨now.1, rfl⟩ on
              · rw [if_neg same]
                exact now

end Step

/-! ### What the handler records -/

section Handler

variable {zone : TimeZone} {clock : DeviceClock} {s : List UInt8} {calls : List NmeaCall}

/-- The call appends a sentence to the file of its type, if this is open. -/
def NmeaCall.isLog : NmeaCall → Bool
  | .log _ _ => true
  | _ => false

/-- A sentence with a type is recorded under it, once and as it is, before anything else is
done. Any other sentence leads to nothing, and one that overflows an `int` has no type. -/
def Logged (s : List UInt8) : Scan (List NmeaCall) → Prop
  | .ok calls =>
      match acceptedType s with
      | some type => ∃ rest, calls = .log type (cstr s) :: rest ∧ ∀ call ∈ rest, call.isLog = false
      | none => calls = []
  | .error _ => acceptedType s = none

theorem setClock_isLog (frame : SentenceRmc) :
    ∀ call ∈ (setClock zone clock frame).1, call.isLog = false := by
  simp only [setClock]
  split
  · split
    · cases clock.settable <;> simp [NmeaCall.isLog]
    · simp
  · simp

/-- An RMC sentence is recorded before the clock is set and the position is sent. -/
theorem rmcCalls_eq (type : MinmeaSentenceId) (frame : SentenceRmc) :
    ∃ rest, rmcCalls zone clock type s frame = .log type (cstr s) :: rest ∧
      ∀ call ∈ rest, call.isLog = false := by
  refine ⟨_, rfl, fun call mem => ?_⟩
  rcases List.mem_append.mp mem with mem | mem
  · exact setClock_isLog frame call mem
  · rw [List.mem_singleton.mp mem]
    rfl

theorem logged_whenParsed {α : Type} {frame : Scan α} {f : α → List NmeaCall}
    {type : MinmeaSentenceId}
    (recorded : acceptedType s = if frame.isOk = true then some type else none)
    (log : ∀ a, ∃ rest, f a = .log type (cstr s) :: rest ∧ ∀ call ∈ rest, call.isLog = false) :
    Logged s (whenParsed frame f) := by
  cases frame with
  | ok a =>
      have accepted : acceptedType s = some type := recorded
      rw [whenParsed, Logged, accepted]
      exact log a
  | error e =>
      have refused : acceptedType s = none := recorded
      cases e <;> simp [whenParsed, Logged, refused]

/-- `handle_gnss_nmea` logs a sentence once under the type that accepts it, and logs no
other sentence. -/
theorem logged_handleGnssNmea (zone : TimeZone) (clock : DeviceClock) (s : List UInt8) :
    Logged s (handleGnssNmea zone clock s) := by
  rw [handleGnssNmea]
  cases passed : minmeaCheck s false with
  | error e => simp [Logged, acceptedType, passed]
  | ok b =>
      rw [ok_bind]
      cases b with
      | false => simp [Logged, acceptedType, passed]
      | true =>
          rw [if_neg (by decide)]
          cases found : minmeaSentenceId s false with
          | error e => simp [Logged, acceptedType, passed, found]
          | ok type =>
              have recorded : acceptedType s =
                  if parserAccepts s type = true then some type else none := by
                rw [acceptedType, passed, found]
              have log : ∃ rest,
                  ([.log type (cstr s)] : List NmeaCall) = .log type (cstr s) :: rest ∧
                    ∀ call ∈ rest, call.isLog = false :=
                ⟨[], rfl, by simp⟩
              rw [ok_bind, ok_bind]
              cases type <;> first
                | exact logged_whenParsed recorded fun frame => rmcCalls_eq .rmc frame
                | exact logged_whenParsed recorded fun _ => log
                | simp [Logged, recorded, parserAccepts]

end Handler

/-! ### Runs of the recordings -/

section Run

variable {zone : TimeZone} {w : JournalWorld} {j : Journal}

theorem foldl_recordCall {fopen : Bool} {rest : List NmeaCall}
    (h : ∀ call ∈ rest, call.isLog = false) : rest.foldl (recordCall fopen) w = w := by
  induction rest with
  | nil => rfl
  | cons call rest ih =>
      obtain ⟨now, later⟩ := List.forall_mem_cons.mp h
      have skip : recordCall fopen w call = w := by
        cases call with
        | log type text => cases now
        | _ => rfl
      rw [List.foldl_cons, skip, ih later]

theorem Kept.sentence (h : Kept w j) (clock : DeviceClock) (s : List UInt8) (fopen : Bool) :
    Kept (journalStep zone w (.sentence clock s fopen)).1
      (journal j (.sentence clock s fopen)) := by
  unfold journalStep journal
  dsimp only
  have logged := logged_handleGnssNmea zone clock s
  cases run : handleGnssNmea zone clock s with
  | error e =>
      rw [run] at logged
      have unrecorded : acceptedType s = none := logged
      simpa [unrecorded] using h
  | ok calls =>
      rw [run, Logged] at logged
      cases recorded : acceptedType s with
      | none =>
          rw [recorded] at logged
          obtain rfl : calls = [] := logged
          simpa using h
      | some type =>
          rw [recorded] at logged
          obtain ⟨rest, rfl, others⟩ := logged
          dsimp only [Option.bind_some]
          rw [List.foldl_cons, foldl_recordCall others]
          exact h.log type (cstr s ++ [10]) fopen

/-- **Step lemma.** Every step does to the files what it does to the journal. -/
theorem Kept.step (h : Kept w j) (i : JournalInput) :
    Kept (journalStep zone w i).1 (journal j i) := by
  cases i with
  | file type enable time fopen => exact h.file type enable time fopen
  | exFile type enable time fopen => exact h.exFile type enable time fopen
  | sentence clock s fopen => exact h.sentence clock s fopen
  | exLog type text fopen => exact h.exLog type text fopen

/-- **The files are the journal.** Along every run, in any order of switches and sentences, a
type is switched on exactly when the journal records it, and then its file holds the
sentences of this type since it was switched on, one a line. -/
theorem journal_run (zone : TimeZone) (ctrl : GnssCtrl) (disk : List Char → List UInt8)
    (is : List JournalInput) (k : NmeaSentence) :
    Records (final (journalStep zone) ⟨{ ctrl }, disk⟩ is) k
      (is.foldl journal (fun _ => none) k) ∧
    ∀ clock s, Logged s (handleGnssNmea zone clock s) := by
  have run {w : JournalWorld} {j : Journal} (h : Kept w j) :
      Kept (final (journalStep zone) w is) (is.foldl journal j) := by
    induction is generalizing w j with
    | nil => exact h
    | cons i is ih => exact ih (h.step i)
  have start : Kept ⟨{ ctrl }, disk⟩ fun _ => none :=
    ⟨fun d on => absurd rfl on, fun k => rfl⟩
  exact ⟨(run start).records k, logged_handleGnssNmea zone⟩

end Run

end Ok3506.Gnss
