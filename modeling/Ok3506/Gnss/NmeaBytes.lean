import Ok3506.Lib.History
import Ok3506.Lib.Lines
import Ok3506.Lib.Machine
import Ok3506.Lib.Bits

/-!
The line assembly of `gnss_thread.c`.

`gnss_handle_nmea_bytes` collects a sentence in `data_nmea` and hands it to
`handle_gnss_nmea` at each line feed. Without the carriage returns it is a
collector of lines: how the bytes are cut into calls has no influence, and each
line is judged alone.
-/

namespace Ok3506.Gnss

open Bits History Lines Machine Mem

/-- The characters that the assembly tells apart. -/
def carriageReturn : UInt8 := 13
def lineFeed : UInt8 := 10
def dollar : UInt8 := 36

/-- `sizeof(gnss_ctrl.data_nmea)`, `MINMEA_MAX_SENTENCE_LENGTH + 16`. -/
def sizeofDataNmea : Nat := 96

/-- `data_nmea` and `data_nmea_len` of `gnss_ctrl`, and what the buffer held, up to and
with the terminator, in the calls of `handle_gnss_nmea`. -/
structure GnssNmea where
  dataNmea : Mem := fun _ => 0
  dataNmeaLen : Nat := 0
  handled : List (List UInt8) := []

/-- The reset at the start of a sentence. -/
def GnssNmea.restart (requireSentenceStart : Bool) (s : GnssNmea) (c : UInt8) : GnssNmea :=
  if requireSentenceStart && c = dollar then { s with dataNmeaLen := 0 } else s

/-- One iteration of `gnss_handle_nmea_bytes`. -/
def gnssHandleNmeaByte (requireSentenceStart : Bool) (s : GnssNmea) (c : UInt8) : GnssNmea :=
  if c = carriageReturn then s
  else
    let s := s.restart requireSentenceStart c
    if s.dataNmeaLen = 0 ∧ requireSentenceStart = true ∧ c ≠ dollar then s
    else if s.dataNmeaLen = 0 ∧ requireSentenceStart = false ∧ c = lineFeed then s
    else if c = lineFeed then
      if s.dataNmeaLen > 0 then
        let dataNmea := s.dataNmea.store8 s.dataNmeaLen 0
        { dataNmea, dataNmeaLen := 0
          handled := s.handled ++ [dataNmea.bytes 0 (s.dataNmeaLen + 1)] }
      else s
    else if s.dataNmeaLen < sizeofDataNmea - 1 then
      { s with
        dataNmea := s.dataNmea.store8 s.dataNmeaLen c
        dataNmeaLen := uint16 (s.dataNmeaLen + 1) }
    else { s with dataNmeaLen := 0 }

/-- `gnss_handle_nmea_bytes`. -/
def gnssHandleNmeaBytes (requireSentenceStart : Bool) (s : GnssNmea) (buf : List UInt8) :
    GnssNmea :=
  buf.foldl (gnssHandleNmeaByte requireSentenceStart) s

/-- The calls of `handle_gnss_nmea` along a stream that is cut into chunks. -/
def handledNmea (requireSentenceStart : Bool) (chunks : List (List UInt8)) : List (List UInt8) :=
  (chunks.foldl (gnssHandleNmeaBytes requireSentenceStart) {}).handled

/-! ### The sentences of a stream -/

/-- What a line contains from its last `$` on, if that fits the buffer. -/
def sentence (line : List UInt8) : Option (List UInt8) :=
  if dollar ∈ line ∧ (dollar :: sinceLast dollar line).length ≤ 95 then
    some (dollar :: sinceLast dollar line)
  else none

/-- The terminated lines of a stream without its carriage returns. -/
def nmeaLines (stream : List UInt8) : List (List UInt8) :=
  terminated lineFeed (stream.filter (· ≠ carriageReturn))

/-- A line that is empty or one sentence. -/
def CleanLine (line : List UInt8) : Prop :=
  line = [] ∨ ∃ rest, line = dollar :: rest ∧ dollar ∉ rest ∧ line.length ≤ 95

/-! ### The collector -/

/-- The buffer after a byte of a line. -/
def sentenceStep (requireSentenceStart : Bool) (held : List UInt8) (c : UInt8) : List UInt8 :=
  let held := if requireSentenceStart && c = dollar then [] else held
  if held = [] ∧ requireSentenceStart = true ∧ c ≠ dollar then []
  else if held.length < 95 then held ++ [c]
  else []

/-- A sentence is handed out with its terminator, an empty buffer is not. -/
def sentenceFlush (held : List UInt8) : List (List UInt8) :=
  if held = [] then [] else [held ++ [0]]

/-- The bytes that are held, and the calls. -/
def GnssNmea.collected (s : GnssNmea) : List UInt8 × List (List UInt8) :=
  (s.dataNmea.bytes 0 s.dataNmeaLen, s.handled)

theorem bytes_store8_end (m : Mem) (n : Nat) (c : UInt8) :
    (m.store8 n c).bytes 0 (n + 1) = m.bytes 0 n ++ [c] := by
  rw [bytes_append, bytes_store8_of_disjoint (by omega), Nat.zero_add, bytes_store8]

theorem bytes_eq_nil_iff {m : Mem} {n : Nat} : m.bytes 0 n = [] ↔ n = 0 := by
  rw [← List.length_eq_zero_iff, bytes_length]

theorem collected_restart (r : Bool) (s : GnssNmea) (c : UInt8) :
    (s.restart r c).collected =
      (if r && c = dollar then [] else s.collected.1, s.handled) := by
  unfold GnssNmea.restart
  split <;> rfl

/-- A line feed flushes. -/
theorem collected_lineFeed (r : Bool) (s : GnssNmea) :
    (gnssHandleNmeaByte r s lineFeed).collected =
      ([], s.handled ++ sentenceFlush s.collected.1) := by
  have notReturn : lineFeed ≠ carriageReturn := by decide
  have notDollar : lineFeed ≠ dollar := by decide
  have noReset : s.restart r lineFeed = s := by simp [GnssNmea.restart, notDollar]
  rw [gnssHandleNmeaByte, if_neg notReturn, noReset]
  by_cases empty : s.dataNmeaLen = 0
  · have nothing : s.collected = ([], s.handled) := by
      rw [GnssNmea.collected, bytes_eq_nil_iff.mpr empty]
    have flushed : s.handled ++ sentenceFlush s.collected.1 = s.handled := by
      rw [nothing, sentenceFlush, if_pos rfl, List.append_nil]
    rw [flushed]
    cases r <;> simp [empty, notDollar, nothing]
  · have held : s.collected.1 ≠ [] := fun nil => empty (bytes_eq_nil_iff.mp nil)
    rw [sentenceFlush, if_neg held]
    simp [empty, Nat.pos_of_ne_zero empty, GnssNmea.collected, bytes_store8_end, bytes_eq_nil_iff]

/-- Another byte is added, or dropped. -/
theorem collected_of_ne (r : Bool) (s : GnssNmea) {c : UInt8} (notReturn : c ≠ carriageReturn)
    (notFeed : c ≠ lineFeed) :
    (gnssHandleNmeaByte r s c).collected = (sentenceStep r s.collected.1 c, s.handled) := by
  obtain ⟨held, same⟩ := Prod.mk.inj (collected_restart r s c)
  generalize reset : s.restart r c = t at held same
  simp only [gnssHandleNmeaByte, if_neg notReturn, sentenceStep, reset, ← held, bytes_eq_nil_iff,
    bytes_length, notFeed, and_false, if_false, sizeofDataNmea, ← same]
  split
  · rename_i skipped
    rw [GnssNmea.collected, bytes_eq_nil_iff.mpr skipped.1]
  · split
    · rename_i room
      have small : uint16 (t.dataNmeaLen + 1) = t.dataNmeaLen + 1 := Nat.mod_eq_of_lt (by omega)
      rw [GnssNmea.collected, small, bytes_store8_end]
    · rfl

/-- One byte other than a carriage return is one step of the collector. -/
theorem collected_gnssHandleNmeaByte (r : Bool) (s : GnssNmea) {c : UInt8}
    (h : c ≠ carriageReturn) :
    (gnssHandleNmeaByte r s c).collected =
      collect lineFeed (sentenceStep r) [] sentenceFlush s.collected c := by
  rw [collect]
  split
  · rename_i feed
    rw [feed, collected_lineFeed]
    rfl
  · rename_i other
    rw [collected_of_ne r s h other]
    rfl

theorem gnssHandleNmeaByte_carriageReturn (r : Bool) (s : GnssNmea) :
    gnssHandleNmeaByte r s carriageReturn = s :=
  if_pos rfl

/-- A call is a run of the collector over its bytes. -/
theorem collected_gnssHandleNmeaBytes (r : Bool) (s : GnssNmea) (buf : List UInt8) :
    (gnssHandleNmeaBytes r s buf).collected =
      (buf.filter (· ≠ carriageReturn)).foldl
        (collect lineFeed (sentenceStep r) [] sentenceFlush) s.collected := by
  induction buf generalizing s with
  | nil => rfl
  | cons c buf ih =>
      rw [gnssHandleNmeaBytes, List.foldl_cons, ← gnssHandleNmeaBytes, ih]
      by_cases h : c = carriageReturn
      · rw [h, gnssHandleNmeaByte_carriageReturn, List.filter_cons_of_neg (by simp)]
      · rw [collected_gnssHandleNmeaByte r s h, List.filter_cons_of_pos (by simpa using h),
          List.foldl_cons]

/-- The calls depend on the stream only, line by line. -/
theorem handledNmea_eq (r : Bool) (chunks : List (List UInt8)) :
    handledNmea r chunks =
      (nmeaLines chunks.flatten).flatMap fun line =>
        sentenceFlush (line.foldl (sentenceStep r) []) := by
  have joined : chunks.foldl (gnssHandleNmeaBytes r) {} =
      gnssHandleNmeaBytes r {} chunks.flatten := by
    rw [gnssHandleNmeaBytes, List.foldl_flatten]
    rfl
  have calls := congrArg Prod.snd (collected_gnssHandleNmeaBytes r {} chunks.flatten)
  have start : GnssNmea.collected {} = ([], []) := rfl
  rw [start, foldl_collect] at calls
  rw [handledNmea, joined]
  exact calls

/-! ### What a line leaves -/

/-- A `$` starts the sentence anew. -/
theorem sentence_dollar (line : List UInt8) : sentence (line ++ [dollar]) = some [dollar] := by
  have started : sinceLast dollar (line ++ [dollar]) = [] := sinceLast_marker
  have mem : dollar ∈ line ++ [dollar] := List.mem_append_right line List.mem_cons_self
  rw [sentence, started, if_pos ⟨mem, by decide⟩]

theorem sentence_append_of_none {line : List UInt8} {c : UInt8} (other : c ≠ dollar)
    (h : sentence line = none) : sentence (line ++ [c]) = none := by
  have apart : dollar ∉ [c] := fun mem => other (List.mem_singleton.mp mem).symm
  unfold sentence at h ⊢
  rw [if_neg]
  · rintro ⟨mem, short⟩
    rw [sinceLast_append apart, List.length_cons, List.length_append] at short
    rcases List.mem_append.mp mem with mem | mem
    · rw [if_pos ⟨mem, by rw [List.length_cons]; omega⟩] at h
      cases h
    · exact apart mem

theorem sentence_append_of_some {line found : List UInt8} {c : UInt8} (other : c ≠ dollar)
    (h : sentence line = some found) :
    sentence (line ++ [c]) = if found.length < 95 then some (found ++ [c]) else none := by
  have apart : dollar ∉ [c] := fun mem => other (List.mem_singleton.mp mem).symm
  unfold sentence at h ⊢
  split at h
  · rename_i ok
    cases h
    have mem : dollar ∈ line ++ [c] := List.mem_append_left [c] ok.1
    simp only [mem, true_and, sinceLast_append apart, List.length_cons, List.length_append,
      List.length_nil, List.cons_append]
    rfl
  · cases h

theorem ne_nil_of_sentence_eq_some {line found : List UInt8} (h : sentence line = some found) :
    found ≠ [] := by
  unfold sentence at h
  split at h
  · cases h
    exact List.cons_ne_nil _ _
  · cases h

theorem sentenceStep_of_ne_nil (r : Bool) {held : List UInt8} {c : UInt8} (other : c ≠ dollar)
    (h : held ≠ []) :
    sentenceStep r held c = if held.length < 95 then held ++ [c] else [] := by
  simp [sentenceStep, other, h]

/-- In AUTO mode the buffer holds the sentence of the line so far. -/
theorem foldl_sentenceStep_auto (line : List UInt8) :
    line.foldl (sentenceStep true) [] = (sentence line).getD [] := by
  induction line using List.reverseRecOn with
  | nil => rfl
  | append_singleton line c ih =>
      rw [List.foldl_append, List.foldl_cons, List.foldl_nil, ih]
      by_cases start : c = dollar
      · rw [start, sentence_dollar]
        rfl
      · cases h : sentence line with
        | none =>
            rw [sentence_append_of_none start h]
            simp [sentenceStep, start]
        | some found =>
            have held := ne_nil_of_sentence_eq_some h
            rw [sentence_append_of_some start h, Option.getD_some,
              sentenceStep_of_ne_nil true start held]
            split <;> rfl

/-- In NMEA mode the buffer holds the whole line as long as it fits. -/
theorem foldl_sentenceStep_nmea {line : List UInt8} (short : line.length ≤ 95) :
    line.foldl (sentenceStep false) [] = line := by
  induction line using List.reverseRecOn with
  | nil => rfl
  | append_singleton line c ih =>
      rw [List.length_append, List.length_singleton] at short
      rw [List.foldl_append, List.foldl_cons, List.foldl_nil, ih (by omega)]
      have room : line.length < 95 := by omega
      simp [sentenceStep, room]

/-- A clean line is its own sentence. -/
theorem CleanLine.foldl_eq {line : List UInt8} (h : CleanLine line) :
    line.foldl (sentenceStep false) [] = line.foldl (sentenceStep true) [] := by
  rcases h with rfl | ⟨rest, rfl, single, short⟩
  · rfl
  · have body : sinceLast dollar (dollar :: rest) = rest := by
      have split : sinceLast dollar ([dollar] ++ rest) = sinceLast dollar [dollar] ++ rest :=
        sinceLast_append single
      have cleared : sinceLast dollar ([] ++ [dollar]) = [] := sinceLast_marker
      exact split.trans (congrArg (· ++ rest) cleared)
    rw [foldl_sentenceStep_nmea short, foldl_sentenceStep_auto, sentence, body,
      if_pos ⟨List.mem_cons_self, short⟩, Option.getD_some]

/-- AUTO mode hands out the sentences of the stream. -/
theorem handledNmea_auto (chunks : List (List UInt8)) :
    handledNmea true chunks =
      ((nmeaLines chunks.flatten).filterMap sentence).map (· ++ [0]) := by
  rw [handledNmea_eq]
  induction nmeaLines chunks.flatten with
  | nil => rfl
  | cons line lines ih =>
      rw [List.flatMap_cons, ih, foldl_sentenceStep_auto]
      cases h : sentence line with
      | none =>
          rw [List.filterMap_cons_none h, Option.getD_none, sentenceFlush, if_pos rfl,
            List.nil_append]
      | some found =>
          rw [List.filterMap_cons_some h, Option.getD_some, sentenceFlush,
            if_neg (ne_nil_of_sentence_eq_some h)]
          rfl

/-- On clean lines the modes agree. -/
theorem handledNmea_nmea {chunks : List (List UInt8)}
    (clean : ∀ line ∈ nmeaLines chunks.flatten, CleanLine line) :
    handledNmea false chunks = handledNmea true chunks := by
  rw [handledNmea_eq, handledNmea_eq]
  refine List.flatMap_congr fun line mem => ?_
  rw [(clean line mem).foldl_eq]

/-! ### The buffer -/

/-- What stays true of the buffer. -/
structure NmeaInv (s : GnssNmea) : Prop where
  len : s.dataNmeaLen ≤ 95
  outside : ∀ k, sizeofDataNmea ≤ k → s.dataNmea k = 0

theorem NmeaInv.step {s : GnssNmea} (inv : NmeaInv s) (r : Bool) (c : UInt8) :
    NmeaInv (gnssHandleNmeaByte r s c) := by
  have restarted : NmeaInv (s.restart r c) := by
    unfold GnssNmea.restart
    split
    · exact ⟨Nat.zero_le _, inv.outside⟩
    · exact inv
  have stored {t : GnssNmea} (h : NmeaInv t) (v : UInt8) (k : Nat) (hk : sizeofDataNmea ≤ k) :
      t.dataNmea.store8 t.dataNmeaLen v k = 0 := by
    have len := h.len
    rw [sizeofDataNmea] at hk
    rw [store8, if_neg (by omega), h.outside k hk]
  unfold gnssHandleNmeaByte
  generalize s.restart r c = t at restarted
  split
  · exact inv
  · dsimp only
    split
    · exact restarted
    · split
      · exact restarted
      · split
        · split
          · exact ⟨Nat.zero_le _, stored restarted 0⟩
          · exact restarted
        · split
          · rename_i room
            refine ⟨?_, stored restarted c⟩
            have small : uint16 (t.dataNmeaLen + 1) = t.dataNmeaLen + 1 := by
              rw [sizeofDataNmea] at room
              exact Nat.mod_eq_of_lt (by omega)
            rw [sizeofDataNmea] at room
            dsimp only
            omega
          · exact ⟨Nat.zero_le _, restarted.outside⟩

/-- Along every sequence of calls, in any modes, the length stays below the size and
nothing is written outside the buffer. -/
theorem nmeaInv_final (calls : List (Bool × List UInt8)) :
    NmeaInv (calls.foldl (fun s call => gnssHandleNmeaBytes call.1 s call.2) {}) := by
  have call {s : GnssNmea} (h : NmeaInv s) (r : Bool) (buf : List UInt8) :
      NmeaInv (gnssHandleNmeaBytes r s buf) := by
    induction buf generalizing s with
    | nil => exact h
    | cons c buf ih => exact ih (h.step r c)
  have run {s : GnssNmea} (h : NmeaInv s) :
      NmeaInv (calls.foldl (fun s call => gnssHandleNmeaBytes call.1 s call.2) s) := by
    induction calls generalizing s with
    | nil => exact h
    | cons first calls ih => exact ih (call h first.1 first.2)
  exact run ⟨Nat.zero_le _, fun _ _ => rfl⟩

/-- **Line assembly.** The chunks of one stream give the sentences of its lines in AUTO
mode, the same in NMEA mode when the lines are clean, and the terminator always
fits. -/
theorem lineAssembly (stream : List UInt8) :
    (∀ chunks : List (List UInt8), chunks.flatten = stream →
      handledNmea true chunks = ((nmeaLines stream).filterMap sentence).map (· ++ [0])) ∧
    ((∀ line ∈ nmeaLines stream, CleanLine line) →
      ∀ chunks chunks' : List (List UInt8), chunks.flatten = stream → chunks'.flatten = stream →
        handledNmea false chunks = handledNmea true chunks') ∧
    ∀ calls : List (Bool × List UInt8),
      NmeaInv (calls.foldl (fun s call => gnssHandleNmeaBytes call.1 s call.2) {}) := by
  refine ⟨?_, ?_, nmeaInv_final⟩
  · rintro chunks rfl
    exact handledNmea_auto chunks
  · rintro clean chunks chunks' rfl same
    rw [handledNmea_nmea clean, handledNmea_auto, handledNmea_auto, same]

end Ok3506.Gnss
