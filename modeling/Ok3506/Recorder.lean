import Ok3506.Gnss.EphCsv
import Ok3506.Gnss.NmeaJournal
import Ok3506.Telemetry

/-!
The ephemeris files over a run.

The console switches the recording of a kind on and off, and the GNSS thread appends a row for
each frame; the NMEA files are on the same disk. What the files hold is compared with journals
that know neither descriptors nor file names. Where a file cannot be created the recording is
on all the same: the rows go to the last file of the kind, or nowhere, and a GPS row that cannot
be written ends the program with an `fclose(NULL)`.
-/

namespace Ok3506.Recorder

open Mem Gnss
open Telemetry (ephFrame)

/-! ### Files -/

/-- `fopen(file_path, "w")` and the column names, where a known kind is switched on. -/
def createRecording (w : JournalWorld) (type : String) (enable : UInt8) (path : List Char)
    (fopen : Bool) : JournalWorld :=
  match ephbFileFromName type with
  | some k => if enable ≠ 0 ∧ fopen = true then w.store path (headerLine k ++ [10]) else w
  | none => w

/-- `fopen(path, "a")` and the row of a record. No file has an empty name; and
`gpsephb_file_append` calls `fclose` whether there is a file or not. -/
def appendRow (w : JournalWorld) (k : EphKind) (eph : EphRecord) (fopen : Bool) :
    Option JournalWorld :=
  let path := (w.record.files (.ephb k)).path
  if fopen = true ∧ path ≠ [] then some (w.store path (w.disk path ++ ephbFileAppend eph))
  else if k = .gps then none
  else some w

/-- What happens: a call of the console for an ephemeris, a step of the NMEA files, a frame that
was found in a buffer. -/
inductive Input where
  | file (type : String) (enable : UInt8) (time : List Char) (fopen : Bool)
    (write : GnssCommand → Int)
  | nmea (i : JournalInput)
  | frame (data : Mem) (p : Nat × RawFrame) (ephSw : EphKind → Bool) (fopen : Bool)

/-- An action of the type switch, as far as the files are concerned. -/
def act (fopen : Bool) (w : JournalWorld) : SwitchAction → Option JournalWorld
  | .fileAppend k eph => appendRow w k eph fopen
  | .netSendEph _ _ => some w

/-- `ephb_file->en` -/
def fileEn (w : JournalWorld) (k : EphKind) : Bool := (w.record.files (.ephb k)).en ≠ 0

/-- One step; `none` where the program ends. -/
def step (zone : TimeZone) (w : JournalWorld) : Input → Option JournalWorld
  | .file type enable time fopen write =>
      let w := createRecording w type enable (ephbFilePath type time) fopen
      some { w with record := gnssEphbInfoFileHeader w.record type enable time fopen write }
  | .nmea i => some (journalStep zone w i).1
  | .frame data p ephSw fopen => (switchPacket ⟨fileEn w, ephSw⟩ data p).foldlM (act fopen) w

/-! ### The journals -/

/-- The recording of a kind: whether it is on, and the packets in the last file, if one was
created. -/
structure FileState where
  on : Bool := false
  packets : Option (List Mem) := none

/-- What was recorded of the sentences and of the ephemerides. -/
structure Journals where
  sentences : Journal := fun _ => none
  ephemerides : EphKind → FileState := fun _ => {}

/-- A switch puts a kind on or off, and on starts a file where it can be created. -/
def FileState.switch (f : FileState) (enable : UInt8) (fopen : Bool) : FileState :=
  if enable = 0 then { f with on := false }
  else { on := true, packets := if fopen = true then some [] else f.packets }

/-- A packet is added to the file of its kind. For GPS there must be one. -/
def Journals.add (j : Journals) (k : EphKind) (packet : Mem) (fopen : Bool) : Option Journals :=
  let f := j.ephemerides k
  if fopen = true ∧ f.packets.isSome = true then
    some { j with
      ephemerides := fun k' =>
        if k' = k then { f with packets := f.packets.map (· ++ [packet]) } else j.ephemerides k' }
  else if k = .gps then none
  else some j

/-- One step; the packet of a frame is added where the recording of its kind is on. -/
def journals (j : Journals) : Input → Option Journals
  | .file type enable _ fopen _ =>
      some { j with
        ephemerides := fun k =>
          if ephbFileFromName type = some k then (j.ephemerides k).switch enable fopen
          else j.ephemerides k }
  | .nmea i => some { j with sentences := journal j.sentences i }
  | .frame data p _ fopen =>
      match ephFrame data p with
      | some (k, _) =>
          if recordsFile k = true ∧ (j.ephemerides k).on = true then
            j.add k (data.shift p.1) fopen
          else some j
      | none => some j

/-- The name is that of a file of the kind. -/
def FileOf (k : EphKind) (path : List Char) : Prop :=
  ∃ type time, ephbFileFromName type = some k ∧ path = ephbFilePath type time

/-- The rows of the packets are in the file of the kind; without packets there is no file. -/
def Contents (w : JournalWorld) (k : EphKind) : Option (List Mem) → Prop
  | none => (w.record.files (.ephb k)).path = []
  | some packets => FileOf k (w.record.files (.ephb k)).path ∧
      w.disk (w.record.files (.ephb k)).path = recording k (packets.map (recordOf k))

/-- The descriptor and the file of a kind are as the journal has them. -/
structure Filed (w : JournalWorld) (k : EphKind) (f : FileState) : Prop where
  on : fileEn w k = f.on
  contents : Contents w k f.packets

/-- The file of the kind is read back, a row for each packet. -/
def ReadBack (w : JournalWorld) (k : EphKind) (packets : List Mem) : Prop :=
  ∃ rows, parseRecording k (w.disk (w.record.files (.ephb k)).path) = some rows ∧
    List.Forall₂ (fun row m => List.Forall₂ Recovers ((columns k (members k)).zip row)
      (columns k (recordOf k m).fields)) rows packets

/-! ### File names -/

section Names

/-- The word of a kind in its file names. -/
def kindName : EphKind → List Char
  | .bd2 => ['b', 'd', '2', 'e', 'p', 'h', 'b']
  | .bd3 => ['b', 'd', '3', 'e', 'p', 'h', 'b']
  | .bd3cnav2 => ['b', 'd', '3', 'c', 'n', 'a', 'v', '2', 'e', 'p', 'h', 'b']
  | .bd3cnav3 => ['b', 'd', '3', 'c', 'n', 'a', 'v', '3', 'e', 'p', 'h', 'b']
  | .bdxw => ['b', 'd', 'x', 'w', 'e', 'p', 'h', 'b']
  | .gps => ['g', 'p', 's', 'e', 'p', 'h', 'b']
  | .glo => ['g', 'l', 'o', 'e', 'p', 'h', 'b']
  | .gal => ['g', 'a', 'l', 'e', 'p', 'h', 'b']

/-- The word behind `/root/ephb_`, which tells the kinds apart by their paths. -/
def nameTag (path : List Char) : List Char := (path.drop 11).takeWhile (· ≠ '_')

theorem kindName_injective {k k' : EphKind} (h : kindName k = kindName k') : k = k' := by
  revert h
  cases k <;> cases k' <;> decide

theorem toList_of_ephbFileFromName {type : String} {k : EphKind}
    (h : ephbFileFromName type = some k) : type.toList = kindName k := by
  unfold ephbFileFromName at h
  split_ifs at h <;> cases h <;> subst type <;> rfl

variable {k k' : EphKind} {path : List Char}

theorem FileOf.nameTag (h : FileOf k path) : nameTag path = kindName k := by
  obtain ⟨type, time, name, rfl⟩ := h
  rw [Recorder.nameTag, ephbFilePath, fileName, toList_of_ephbFileFromName name]
  cases k <;> rfl

theorem FileOf.pathTag (h : FileOf k path) : pathTag path = (kindName k).take 3 := by
  obtain ⟨type, time, name, rfl⟩ := h
  rw [Gnss.pathTag, ephbFilePath, fileName, toList_of_ephbFileFromName name]
  cases k <;> rfl

theorem FileOf.ne_nil (h : FileOf k path) : path ≠ [] := by
  rintro rfl
  have tag := h.pathTag
  revert tag
  cases k <;> decide

/-- A path is that of one kind only, so that kinds do not share files. -/
theorem FileOf.kind_eq (h : FileOf k path) (h' : FileOf k' path) : k = k' :=
  kindName_injective (h.nameTag.symm.trans h'.nameTag)

/-- The NMEA files have names of their own. -/
theorem FileOf.ne_nmea (h : FileOf k path) (s : NmeaSentence) :
    Gnss.pathTag path ≠ (Descriptor.nmea s).tag := by
  rw [h.pathTag]
  cases k <;> cases s <;> decide

theorem FileOf.ne_nmeaEx (h : FileOf k path) (s : NmeaSentence) :
    Gnss.pathTag path ≠ (Descriptor.nmeaEx s).tag := by
  rw [h.pathTag]
  cases k <;> exact fun eq => absurd (List.head_eq_of_cons_eq eq) (by decide)

theorem take_ephbFilePath {type : String} (h : ephbFileFromName type = some k)
    (time : List Char) : (ephbFilePath type time).take 128 = ephbFilePath type time :=
  List.take_of_length_le (ephbFilePath_length h time)

end Names

/-! ### The NMEA files -/

section Nmea

variable {zone : TimeZone} {w w' w'' : JournalWorld}

/-- A step leaves the descriptors and the files of all ephemeris kinds as they are. -/
structure Beside (w w' : JournalWorld) : Prop where
  files : ∀ k, w'.record.files (.ephb k) = w.record.files (.ephb k)
  disk : ∀ k path, FileOf k path → w'.disk path = w.disk path

theorem Beside.refl (w : JournalWorld) : Beside w w := ⟨fun _ => rfl, fun _ _ _ => rfl⟩

theorem Beside.trans (h : Beside w w') (h' : Beside w' w'') : Beside w w'' where
  files k := (h'.files k).trans (h.files k)
  disk k path file := (h'.disk k path file).trans (h.disk k path file)

/-- A file is stored whose name is that of an NMEA descriptor. -/
theorem beside_store {path : List Char} (contents : List UInt8)
    (other : ∀ k, ¬ FileOf k path) : Beside w (w.store path contents) where
  files _ := rfl
  disk k _ file := store_of_ne fun same => other k (same ▸ file)

theorem record_appendLog (w : JournalWorld) (d : Option Descriptor) (text : List UInt8)
    (fopen : Bool) : (appendLog w d text fopen).record = w.record := by
  unfold appendLog
  cases d with
  | none => rfl
  | some d =>
      dsimp only
      split <;> rfl

theorem beside_appendLog (named : Named w) {d : Option Descriptor}
    (nmea : ∀ d' ∈ d, ∀ kind, d' ≠ .ephb kind) (text : List UInt8) (fopen : Bool) :
    Beside w (appendLog w d text fopen) := by
  unfold appendLog
  cases d with
  | none => exact .refl w
  | some d =>
      dsimp only
      split
      · rename_i on
        have tag := named d on.1 (nmea d rfl)
        refine beside_store _ fun k file => ?_
        cases d with
        | ephb kind => exact nmea _ rfl kind rfl
        | nmea s => exact file.ne_nmea s tag
        | nmeaEx s => exact file.ne_nmeaEx s tag
      · exact .refl w

theorem beside_calls (named : Named w) (fopen : Bool) (calls : List NmeaCall) :
    Beside w (calls.foldl (recordCall fopen) w) := by
  induction calls generalizing w with
  | nil => exact .refl w
  | cons call calls ih =>
      rw [List.foldl_cons]
      cases call with
      | log type text =>
          have first : Beside w (gnssNmeaLog w type (text ++ [10]) fopen) := by
            refine beside_appendLog named (fun d mem kind => ?_) _ _
            obtain ⟨s, -, rfl⟩ := Option.mem_map.mp mem
            exact Descriptor.noConfusion
          refine first.trans (ih ?_)
          unfold Named gnssNmeaLog
          rw [record_appendLog]
          exact named
      | _ => exact ih named

theorem beside_createFile (type : String) (enable : UInt8) {path : List Char} (fopen : Bool)
    (other : ∀ s, nmeaFileTypeFromName type = some s → ∀ k, ¬ FileOf k path) :
    Beside w (createFile w type enable path fopen) := by
  unfold createFile
  split
  · rename_i known
    obtain ⟨s, name⟩ := Option.isSome_iff_exists.mp known.1
    exact beside_store _ (other s name)
  · exact .refl w

/-- **The NMEA steps** leave the ephemeris files alone. -/
theorem beside_journalStep (named : Named w) (i : JournalInput) :
    Beside w (journalStep zone w i).1 := by
  cases i with
  | file type enable time fopen =>
      have created : Beside w (createFile w type enable (nmeaFilePath type time) fopen) :=
        beside_createFile type enable fopen fun s name k file =>
          file.ne_nmea s (pathTag_nmeaFilePath name time)
      refine created.trans ⟨fun k => ?_, fun _ _ _ => rfl⟩
      unfold journalStep gnssNmeaFileHeader
      dsimp only
      cases nmeaFileTypeFromName type with
      | none => rfl
      | some s =>
          dsimp only
          rw [nmeaFile_files]
          exact if_neg Descriptor.noConfusion
  | exFile type enable time fopen =>
      have created : Beside w (createFile w type enable (nmeaExFilePath type time) fopen) :=
        beside_createFile type enable fopen fun s _ k file =>
          file.ne_nmeaEx s (pathTag_nmeaExFilePath type s time)
      refine created.trans ⟨fun k => ?_, fun _ _ _ => rfl⟩
      unfold journalStep gnssNmeaExFileHeader
      dsimp only
      cases nmeaFileTypeFromName type with
      | none => rfl
      | some s =>
          dsimp only
          rw [nmeaFile_files]
          exact if_neg Descriptor.noConfusion
  | sentence clock s fopen =>
      unfold journalStep
      dsimp only
      cases handleGnssNmea zone clock s with
      | error e => exact .refl w
      | ok calls => exact beside_calls named fopen calls
  | exLog type text fopen =>
      refine beside_appendLog named (fun d mem kind => ?_) _ _
      obtain ⟨s, -, rfl⟩ := Option.mem_map.mp mem
      exact Descriptor.noConfusion

end Nmea

/-! ### The ephemeris files -/

section Steps

variable {zone : TimeZone} {w w' : JournalWorld} {n : Journal} {j : Journals} {k k' : EphKind}
  {f : FileState} {path : List Char}

/-- The invariant of a run: the sentences are as their journal says, and each kind is as its
journal says. -/
structure Inv (w : JournalWorld) (j : Journals) : Prop where
  kept : Kept w j.sentences
  filed : ∀ k, Filed w k (j.ephemerides k)

theorem Contents.same {o : Option (List Mem)} (h : Contents w k o)
    (name : (w'.record.files (.ephb k)).path = (w.record.files (.ephb k)).path)
    (disk : FileOf k (w.record.files (.ephb k)).path →
      w'.disk (w.record.files (.ephb k)).path = w.disk (w.record.files (.ephb k)).path) :
    Contents w' k o := by
  cases o with
  | none => exact name.trans h
  | some packets =>
      rw [Contents, name]
      exact ⟨h.1, (disk h.1).trans h.2⟩

/-- A step that leaves the descriptor of a kind and its file alone leaves its record as it
was. -/
theorem Filed.same (h : Filed w k f)
    (files : w'.record.files (.ephb k) = w.record.files (.ephb k))
    (disk : FileOf k (w.record.files (.ephb k)).path →
      w'.disk (w.record.files (.ephb k)).path = w.disk (w.record.files (.ephb k)).path) :
    Filed w' k f where
  on := by
    rw [fileEn, files]
    exact h.on
  contents := h.contents.same (congrArg FileCfg.path files) disk

theorem Filed.store_of_ne (h : Filed w k f) (file : FileOf k' path) (other : k ≠ k')
    (contents : List UInt8) : Filed (w.store path contents) k f := by
  refine h.same rfl fun own => Gnss.store_of_ne fun same => other ?_
  rw [same] at own
  exact own.kind_eq file

theorem Inv.nmea (h : Inv w j) (i : JournalInput) :
    Inv (journalStep zone w i).1 { j with sentences := journal j.sentences i } where
  kept := h.kept.step i
  filed k := by
    have beside : Beside w (journalStep zone w i).1 := beside_journalStep h.kept.named i
    exact (h.filed k).same (beside.files k) fun file => beside.disk k _ file

/-- The descriptors behind a switch command for an ephemeris kind. -/
theorem files_gnssEphbInfoFileHeader (r : RecordWorld) {type : String} (enable : UInt8)
    (time : List Char) (fopen : Bool) (write : GnssCommand → Int)
    (name : ephbFileFromName type = some k) :
    (gnssEphbInfoFileHeader r type enable time fopen write).files = fun d =>
      if d = .ephb k then
        { en := if enable ≠ 0 then 1 else 0
          path := if enable ≠ 0 ∧ fopen = true then ephbFilePath type time
            else (r.files (.ephb k)).path }
      else r.files d := by
  funext d
  simp only [gnssEphbInfoFileHeader, name, ephbFileBranch, assignFile, take_ephbFilePath name]
  split
  · by_cases created : enable ≠ 0 ∧ fopen = true
    · rw [if_pos created, if_pos created]
    · rw [if_neg created, if_neg created]
  · rfl

/-- The kind that is switched: without a new file the old one stays. -/
theorem Filed.switch (h : Filed w k f) {enable : UInt8} {fopen : Bool} (file : FileOf k path)
    (files : w'.record.files (.ephb k) =
      { en := if enable ≠ 0 then 1 else 0
        path := if enable ≠ 0 ∧ fopen = true then path else (w.record.files (.ephb k)).path })
    (disk : w'.disk = if enable ≠ 0 ∧ fopen = true then
      (w.store path (headerLine k ++ [10])).disk else w.disk) :
    Filed w' k (f.switch enable fopen) := by
  have kept (skip : ¬ (enable ≠ 0 ∧ fopen = true)) : Contents w' k f.packets := by
    rw [if_neg skip] at files disk
    have name := congrArg FileCfg.path files
    exact h.contents.same name fun _ => congrFun disk _
  unfold FileState.switch
  by_cases off : enable = 0
  · rw [if_pos off]
    refine ⟨?_, kept fun both => both.1 off⟩
    rw [fileEn, files, if_neg (not_not.mpr off)]
    rfl
  · rw [if_neg off]
    constructor
    · rw [fileEn, files, if_pos off]
      rfl
    · cases fopen with
      | false => exact kept fun both => Bool.noConfusion both.2
      | true =>
          have created : enable ≠ 0 ∧ true = true := ⟨off, rfl⟩
          rw [if_pos created] at files disk
          have name : (w'.record.files (.ephb k)).path = path := congrArg FileCfg.path files
          refine ⟨?_, ?_⟩
          · rw [name]
            exact file
          · rw [name, disk]
            exact if_pos rfl

/-- The NMEA descriptors and files are not those of an ephemeris. -/
theorem kept_switch (h : Kept w n) {r : RecordWorld}
    (files : ∀ d, d ≠ .ephb k → r.files d = w.record.files d) :
    Kept { w with record := r } n where
  named d on nmea := by
    have same := files d (nmea k)
    rw [same] at on ⊢
    exact h.named d on nmea
  records s := (h.records s).same (files _ Descriptor.noConfusion) fun _ => rfl

theorem Inv.file (h : Inv w j) (type : String) (enable : UInt8) (time : List Char)
    (fopen : Bool) (write : GnssCommand → Int) :
    Option.Rel Inv (step zone w (.file type enable time fopen write))
      (journals j (.file type enable time fopen write)) := by
  refine .some ?_
  cases name : ephbFileFromName type with
  | none =>
      have files : (gnssEphbInfoFileHeader w.record type enable time fopen write).files =
          w.record.files := by
        simp only [gnssEphbInfoFileHeader, name]
      have created : createRecording w type enable (ephbFilePath type time) fopen = w := by
        simp only [createRecording, name]
      rw [created]
      constructor
      · exact kept_switch (k := .gps) h.kept fun d _ => congrFun files d
      · intro k
        have skip : none ≠ some k := (Option.some_ne_none k).symm
        dsimp only
        rw [if_neg skip]
        exact (h.filed k).same (congrFun files _) fun _ => rfl
  | some k =>
      have file : FileOf k (ephbFilePath type time) := ⟨type, time, name, rfl⟩
      have files := files_gnssEphbInfoFileHeader (k := k)
        (createRecording w type enable (ephbFilePath type time) fopen).record enable time fopen
        write name
      have created : createRecording w type enable (ephbFilePath type time) fopen =
          if enable ≠ 0 ∧ fopen = true then
            w.store (ephbFilePath type time) (headerLine k ++ [10]) else w := by
        simp only [createRecording, name]
      generalize createRecording w type enable (ephbFilePath type time) fopen = v at created files
      have record : v.record = w.record := by
        rw [created]
        split <;> rfl
      rw [record] at files
      have kept : Kept v j.sentences := by
        rw [created]
        split
        · exact h.kept.store _ file.ne_nmea
        · exact h.kept
      constructor
      · refine kept_switch (k := k) kept fun d other => ?_
        rw [record, files]
        exact if_neg other
      · intro k'
        by_cases same : k' = k
        · subst same
          dsimp only
          rw [if_pos rfl]
          refine (h.filed k').switch file ?_ ?_
          · dsimp only
            rw [record, files]
            exact if_pos rfl
          · dsimp only
            rw [created]
            split <;> rfl
        · have other : some k ≠ some k' := fun eq => same (Option.some.inj eq).symm
          have before : Filed v k' (j.ephemerides k') := by
            rw [created]
            split
            · exact (h.filed k').store_of_ne file same _
            · exact h.filed k'
          dsimp only
          rw [if_neg other]
          refine before.same ?_ fun _ => rfl
          dsimp only
          rw [record, files]
          exact if_neg fun eq => same (Descriptor.ephb.inj eq)

/-- A row is added to the file, and its packet to the journal. -/
theorem Inv.row (h : Inv w j) (k : EphKind) (packet : Mem) (fopen : Bool) :
    Option.Rel Inv (appendRow w k (recordOf k packet) fopen) (j.add k packet fopen) := by
  have contents := (h.filed k).contents
  have lost (closed : ¬ (fopen = true ∧ (w.record.files (.ephb k)).path ≠ []))
      (missing : ¬ (fopen = true ∧ (j.ephemerides k).packets.isSome = true)) :
      Option.Rel Inv (appendRow w k (recordOf k packet) fopen) (j.add k packet fopen) := by
    rw [appendRow, Journals.add, if_neg closed, if_neg missing]
    split
    · exact .none
    · exact .some h
  cases earlier : (j.ephemerides k).packets with
  | none =>
      rw [earlier] at contents
      exact lost (fun opened => opened.2 contents) (by simp [earlier])
  | some packets =>
      rw [earlier] at contents
      obtain ⟨file, text⟩ := contents
      cases fopen with
      | false => exact lost (by simp) (by simp)
      | true =>
          have isSome : (j.ephemerides k).packets.isSome = true := by
            rw [earlier]
            rfl
          rw [appendRow, Journals.add, if_pos ⟨rfl, file.ne_nil⟩, if_pos ⟨rfl, isSome⟩]
          refine .some ⟨h.kept.store _ file.ne_nmea, fun k' => ?_⟩
          dsimp only
          by_cases same : k' = k
          · subst same
            rw [if_pos rfl]
            refine ⟨(h.filed k').on, ?_⟩
            rw [earlier]
            refine ⟨file, (if_pos rfl).trans ?_⟩
            rw [text, List.map_append, recording, recording, List.foldl_append]
            rfl
          · rw [if_neg same]
            exact (h.filed k').store_of_ne file same _

theorem recordOf_of_ephFrame {data : Mem} {p : Nat × RawFrame} {eph : EphRecord}
    (frame : ephFrame data p = some (k, eph)) : eph = recordOf k (data.shift p.1) := by
  unfold ephFrame at frame
  split at frame
  · split at frame
    · cases frame
      rfl
    · cases frame
  · cases frame

/-- The case of a frame appends its record exactly when the recording is on. -/
theorem foldlM_switchPacket (sw : EphSwitches) (fopen : Bool) (w : JournalWorld) (data : Mem)
    (p : Nat × RawFrame) :
    (switchPacket sw data p).foldlM (act fopen) w =
      match ephFrame data p with
      | some (k, eph) =>
          if recordsFile k = true ∧ sw.fileEn k = true then appendRow w k eph fopen else some w
      | none => some w := by
  rw [Telemetry.switchPacket_eq]
  cases ephFrame data p with
  | none => rfl
  | some r =>
      obtain ⟨k, eph⟩ := r
      dsimp only
      cases recordsFile k <;> cases sw.fileEn k <;> cases sw.ephSw k <;> simp [act]

/-- **Step lemma.** A step does to the files what it does to the journals, and ends the program
when they say so. -/
theorem Inv.step (h : Inv w j) (i : Input) :
    Option.Rel Inv (step zone w i) (journals j i) := by
  cases i with
  | file type enable time fopen write => exact h.file type enable time fopen write
  | nmea i => exact .some (h.nmea i)
  | frame data p ephSw fopen =>
      rw [Recorder.step, foldlM_switchPacket, journals]
      cases frame : ephFrame data p with
      | none => exact .some h
      | some r =>
          obtain ⟨k, eph⟩ := r
          have on : fileEn w k = (j.ephemerides k).on := (h.filed k).on
          have record := recordOf_of_ephFrame frame
          subst record
          dsimp only
          by_cases added : recordsFile k = true ∧ (j.ephemerides k).on = true
          · rw [if_pos added, if_pos ⟨added.1, on.trans added.2⟩]
            exact h.row k _ fopen
          · rw [if_neg added, if_neg fun both => added ⟨both.1, on.symm.trans both.2⟩]
            exact .some h

/-- A reader of the file gets the packets of the journal. -/
theorem Filed.readBack (h : Filed w k f) (recorded : recordsFile k = true) {packets : List Mem}
    (mem : packets ∈ f.packets) : ReadBack w k packets := by
  have contents := h.contents
  rw [Option.mem_def.mp mem] at contents
  rw [ReadBack, contents.2]
  exact parseRecording_recording recorded packets

end Steps

/-! ### Runs -/

/-- **The recordings.** Along every run, in any order of switches, frames and NMEA steps, and
whatever files can be created and opened, each kind is recorded exactly when the journal has it
on. Its last file holds the column names and a row for each packet of the journal, and is read
back as these packets; the NMEA files are as their own journal has them. The program ends
exactly when the journals do: at a GPS frame with the recording on and no file to write to. -/
theorem recordings_run (zone : TimeZone) (ctrl : GnssCtrl) (disk : List Char → List UInt8)
    (is : List Input) :
    Option.Rel (fun w j => (∀ k, Filed w k (j.ephemerides k)) ∧
        (∀ k, recordsFile k = true →
          ∀ packets ∈ (j.ephemerides k).packets, ReadBack w k packets) ∧
        ∀ s, Records w s (j.sentences s))
      (is.foldlM (step zone) ⟨{ ctrl }, disk⟩) (is.foldlM journals {}) := by
  have start : Inv ⟨{ ctrl }, disk⟩ {} :=
    ⟨⟨fun d on => absurd rfl on, fun k => rfl⟩, fun k => ⟨rfl, rfl⟩⟩
  refine Machine.rel_foldlM (fun w j i h => h.step i) (fun w j h => ?_) start is
  exact ⟨h.filed, fun k recorded packets mem => (h.filed k).readBack recorded mem,
    h.kept.records⟩

end Ok3506.Recorder
