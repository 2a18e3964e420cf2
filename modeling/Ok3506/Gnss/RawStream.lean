import Ok3506.Lib.Machine
import Ok3506.Gnss.ScanPath

/-!
The accumulation buffer of `gnss_thread.c`, one step for each chunk that `read`
returns.

`gnssHandleRawBytes` is the function of that name. A call whose scan has not
ended after `fuel` iterations keeps the thread, so no later chunk is handled.
`trace` runs beside it a record of where in the byte stream each byte of
`data_raw` came from; it reads nothing of the scan but how many bytes are left,
and every log entry gets the stream position of the frame.
-/

namespace Ok3506.Gnss

open Mem Bits

/-- `sizeof(gnss_ctrl.data_raw)`. -/
def sizeofDataRaw : Nat := 8192

/-- `data_raw` and `data_raw_len` of `gnss_ctrl`, and whether a call is still in
its scan. -/
structure GnssRaw where
  dataRaw : Mem := fun _ => 0
  dataRawLen : Nat := 0
  hung : Bool := false

namespace GnssRaw

/-- The overflow guard. -/
def dropFull (s : GnssRaw) : GnssRaw :=
  if s.dataRawLen = sizeofDataRaw then { s with dataRawLen := 0 } else s

/-- `memcpy` of what fits the free room. -/
def append (s : GnssRaw) (buf : List UInt8) : GnssRaw :=
  let room := sizeofDataRaw - s.dataRawLen
  let copyLen := if buf.length < room then buf.length else room
  { s with
    dataRaw := s.dataRaw.copy s.dataRawLen (ofList buf fun _ => 0) copyLen
    dataRawLen := uint16 (s.dataRawLen + copyLen) }

/-- `memmove` of what is left behind the handled bytes. -/
def consume (s : GnssRaw) (handleLen : Nat) : GnssRaw :=
  if handleLen > 0 then
    { s with
      dataRaw :=
        if handleLen < s.dataRawLen then
          s.dataRaw.copy 0 (s.dataRaw.shift handleLen) (s.dataRawLen - handleLen)
        else s.dataRaw
      dataRawLen := uint16 (s.dataRawLen + 2 ^ 16 - handleLen) }
  else s

end GnssRaw

/-- The buffer a call on `buf` scans. -/
def scanned (s : GnssRaw) (buf : List UInt8) : GnssRaw := s.dropFull.append buf

/-- `gnss_handle_raw_bytes`, with the frames that reach the type switch. -/
def gnssHandleRawBytes (fuel : Nat) (s : GnssRaw) (buf : List UInt8) :
    GnssRaw × List (Nat × RawFrame) :=
  if s.hung then (s, [])
  else
    let t := scanned s buf
    let r := handleGnssRaw fuel t.dataRaw t.dataRawLen
    if Returned t.dataRawLen r then (t.consume (uint16 r.handleCnt), r.accepted)
    else ({ t with hung := true }, r.accepted)

/-! ### Stream positions -/

/-- The buffer, the stream position of each of its bytes, and the bytes read so
far. -/
structure Traced where
  raw : GnssRaw := {}
  origin : List Nat := []
  fed : Nat := 0

namespace Traced

/-- The positions that survive the overflow guard. -/
def kept (s : Traced) : List Nat := if s.raw.dataRawLen = sizeofDataRaw then [] else s.origin

/-- The positions of the bytes that a call scans. -/
def held (s : Traced) (buf : List UInt8) : List Nat :=
  (s.kept ++ List.range' s.fed buf.length).take sizeofDataRaw

end Traced

/-- One call, with the stream positions of the frames it accepts. -/
def trace (fuel : Nat) (s : Traced) (buf : List UInt8) : Traced × List (Nat × RawFrame) :=
  if s.raw.hung then (s, [])
  else
    let call := gnssHandleRawBytes fuel s.raw buf
    let held := s.held buf
    ({ raw := call.1
       origin := held.drop (held.length - call.1.dataRawLen)
       fed := s.fed + buf.length },
      call.2.map fun p => (held.getD p.1 0, p.2))

/-- The thread after a sequence of chunks. -/
def afterChunks (fuel : Nat) (chunks : List (List UInt8)) : GnssRaw :=
  Machine.final (gnssHandleRawBytes fuel) {} chunks

/-- The frames accepted along a sequence of chunks, each with its position in the
stream. -/
def acceptedFrames (fuel : Nat) (chunks : List (List UInt8)) : List (Nat × RawFrame) :=
  (Machine.outputs (trace fuel) {} chunks).flatten

theorem acceptedFrames_append (fuel : Nat) (pre : List (List UInt8)) (c : List UInt8) :
    acceptedFrames fuel (pre ++ [c]) =
      acceptedFrames fuel pre ++ (trace fuel (Machine.final (trace fuel) {} pre) c).2 := by
  simp [acceptedFrames, Machine.outputs_append]

theorem gnssHandleRawBytes_hung {fuel : Nat} {s : GnssRaw} (h : s.hung = true) (buf : List UInt8) :
    gnssHandleRawBytes fuel s buf = (s, []) := by
  rw [gnssHandleRawBytes, if_pos h]

theorem trace_hung {fuel : Nat} {s : Traced} (h : s.raw.hung = true) (buf : List UInt8) :
    trace fuel s buf = (s, []) := by
  rw [trace, if_pos h]

/-- The trace does not act on the buffer. -/
theorem trace_raw (fuel : Nat) (s : Traced) (buf : List UInt8) :
    (trace fuel s buf).1.raw = (gnssHandleRawBytes fuel s.raw buf).1 := by
  rw [trace]
  split
  · rename_i h
    rw [gnssHandleRawBytes_hung h]
  · rfl

theorem final_trace_raw (fuel : Nat) (s : Traced) (chunks : List (List UInt8)) :
    (Machine.final (trace fuel) s chunks).raw =
      Machine.final (gnssHandleRawBytes fuel) s.raw chunks :=
  Machine.final_fold (trace_raw fuel) s chunks

/-! ### Lengths -/

namespace GnssRaw

variable {s : GnssRaw} {buf : List UInt8}

theorem dropFull_dataRawLen :
    s.dropFull.dataRawLen = if s.dataRawLen = sizeofDataRaw then 0 else s.dataRawLen := by
  rw [dropFull]
  split <;> rfl

theorem dropFull_lt (h : s.dataRawLen ≤ sizeofDataRaw) :
    s.dropFull.dataRawLen < sizeofDataRaw := by
  rw [dropFull_dataRawLen]
  split
  · simp [sizeofDataRaw]
  · omega

@[simp] theorem dropFull_hung : s.dropFull.hung = s.hung := by
  rw [dropFull]
  split <;> rfl

@[simp] theorem append_hung : (s.append buf).hung = s.hung := rfl

@[simp] theorem consume_hung (n : Nat) : (s.consume n).hung = s.hung := by
  rw [consume]
  split <;> rfl

theorem append_dataRawLen (h : s.dataRawLen ≤ sizeofDataRaw) :
    (s.append buf).dataRawLen = min (s.dataRawLen + buf.length) sizeofDataRaw := by
  have size : sizeofDataRaw = 8192 := rfl
  simp only [append, uint16]
  split <;> omega

theorem append_dataRaw :
    (s.append buf).dataRaw = s.dataRaw.copy s.dataRawLen (ofList buf fun _ => 0)
      (min buf.length (sizeofDataRaw - s.dataRawLen)) := by
  have copyLen : (if buf.length < sizeofDataRaw - s.dataRawLen then buf.length
      else sizeofDataRaw - s.dataRawLen) = min buf.length (sizeofDataRaw - s.dataRawLen) := by
    split <;> omega
  rw [append, copyLen]

theorem consume_dataRawLen {n : Nat} (h : s.dataRawLen ≤ sizeofDataRaw) (hn : n ≤ s.dataRawLen) :
    (s.consume n).dataRawLen = s.dataRawLen - n := by
  simp only [sizeofDataRaw] at h
  simp only [consume, uint16]
  split
  · simp only
    omega
  · omega

/-- What is left moves to the front. -/
theorem consume_dataRaw {n k : Nat} (hk : n + k < s.dataRawLen) :
    (s.consume n).dataRaw k = s.dataRaw (n + k) := by
  rw [consume]
  split
  · rw [if_pos (by omega)]
    have moved : s.dataRaw.copy 0 (s.dataRaw.shift n) (s.dataRawLen - n) (0 + k) =
        s.dataRaw.shift n k := copy_apply_mem (by omega)
    rwa [Nat.zero_add] at moved
  · rw [show n = 0 by omega, Nat.zero_add]

end GnssRaw

theorem scanned_dataRawLen {s : GnssRaw} (h : s.dataRawLen ≤ sizeofDataRaw) (buf : List UInt8) :
    (scanned s buf).dataRawLen =
      min ((if s.dataRawLen = sizeofDataRaw then 0 else s.dataRawLen) + buf.length)
        sizeofDataRaw := by
  rw [scanned, GnssRaw.append_dataRawLen (GnssRaw.dropFull_lt h).le, GnssRaw.dropFull_dataRawLen]

/-- The scan a call on `buf` makes. -/
abbrev scanOf (fuel : Nat) (s : GnssRaw) (buf : List UInt8) : ScanState :=
  handleGnssRaw fuel (scanned s buf).dataRaw (scanned s buf).dataRawLen

theorem gnssHandleRawBytes_accepted {fuel : Nat} {s : GnssRaw} (run : s.hung = false)
    (buf : List UInt8) : (gnssHandleRawBytes fuel s buf).2 = (scanOf fuel s buf).accepted := by
  rw [gnssHandleRawBytes, if_neg (by simp [run])]
  simp only
  split <;> rfl

/-- A call whose scan ends leaves the thread running. -/
theorem gnssHandleRawBytes_running {fuel : Nat} {s : GnssRaw} (run : s.hung = false)
    {buf : List UInt8} (ended : Returned (scanned s buf).dataRawLen (scanOf fuel s buf)) :
    (gnssHandleRawBytes fuel s buf).1.hung = false := by
  rw [gnssHandleRawBytes, if_neg (by simp [run])]
  simp only [if_pos ended]
  rw [GnssRaw.consume_hung, scanned, GnssRaw.append_hung, GnssRaw.dropFull_hung]
  exact run

/-- What a call leaves in the buffer: the scanned bytes without the first `n`,
where `n` is the returned count. -/
theorem gnssHandleRawBytes_left (fuel : Nat) {s : GnssRaw} (bound : s.dataRawLen ≤ sizeofDataRaw)
    (run : s.hung = false) (buf : List UInt8) :
    ∃ n, n ≤ (scanned s buf).dataRawLen ∧
      (gnssHandleRawBytes fuel s buf).1.dataRawLen = (scanned s buf).dataRawLen - n ∧
      (∀ k, n + k < (scanned s buf).dataRawLen →
        (gnssHandleRawBytes fuel s buf).1.dataRaw k = (scanned s buf).dataRaw (n + k)) ∧
      ((gnssHandleRawBytes fuel s buf).1.hung = false → n = (scanOf fuel s buf).handleCnt) := by
  have size : sizeofDataRaw = 8192 := rfl
  have small : (scanned s buf).dataRawLen ≤ sizeofDataRaw := by
    rw [scanned_dataRawLen bound]
    exact Nat.min_le_right _ _
  have count : (scanOf fuel s buf).handleCnt ≤ (scanned s buf).dataRawLen :=
    handleCnt_le (by omega) fuel
  have conv : uint16 (scanOf fuel s buf).handleCnt = (scanOf fuel s buf).handleCnt :=
    Nat.mod_eq_of_lt (by omega)
  rw [gnssHandleRawBytes, if_neg (by simp [run])]
  simp only [conv]
  split
  · exact ⟨_, count, GnssRaw.consume_dataRawLen small count,
      fun k hk => GnssRaw.consume_dataRaw hk, fun _ => rfl⟩
  · exact ⟨0, Nat.zero_le _, rfl, fun k _ => by rw [Nat.zero_add], fun h => by cases h⟩

/-! ### The trace is right -/

/-- `pos` lists, in order, the stream positions of the bytes of `buffer`. -/
structure Origins (stream : List UInt8) (pos : List Nat) (buffer : Mem) : Prop where
  sorted : pos.Pairwise (· < ·)
  bytes : ∀ k (h : k < pos.length), stream[pos[k]]? = some (buffer k)

namespace Origins

variable {stream : List UInt8} {pos : List Nat} {buffer : Mem}

theorem below (h : Origins stream pos buffer) : ∀ o ∈ pos, o < stream.length := by
  intro o ho
  obtain ⟨k, hk, rfl⟩ := List.getElem_of_mem ho
  exact (List.getElem?_eq_some_iff.mp (h.bytes k hk)).1

theorem nil : Origins stream [] buffer := ⟨.nil, fun _ h => by cases h⟩

/-- Dropping consumed positions. -/
theorem drop (h : Origins stream pos buffer) (n : Nat) {buffer' : Mem}
    (moved : ∀ k, n + k < pos.length → buffer' k = buffer (n + k)) :
    Origins stream (pos.drop n) buffer' := by
  refine ⟨h.sorted.sublist (List.drop_sublist n pos), ?_⟩
  intro k hk
  rw [List.length_drop] at hk
  rw [List.getElem_drop, moved k (by omega)]
  exact h.bytes (n + k) (by omega)

/-- Copying a chunk behind the buffer. -/
theorem append (h : Origins stream pos buffer) (buf : List UInt8) (n : Nat) :
    Origins (stream ++ buf) ((pos ++ List.range' stream.length buf.length).take n)
      (buffer.copy pos.length (ofList buf fun _ => 0) (min buf.length (n - pos.length))) := by
  constructor
  · refine List.Pairwise.sublist (List.take_sublist _ _) (List.pairwise_append.mpr
      ⟨h.sorted, List.pairwise_lt_range', fun o ho p hp => ?_⟩)
    have := h.below o ho
    have := (List.mem_range'_1.mp hp).1
    omega
  · intro k hk
    rw [List.length_take, List.length_append, List.length_range'] at hk
    rw [List.getElem_take]
    by_cases hpos : k < pos.length
    · rw [List.getElem_append_left hpos, copy_apply_lt hpos,
        List.getElem?_append_left (h.below _ (List.getElem_mem hpos))]
      exact h.bytes k hpos
    · obtain ⟨j, rfl⟩ := Nat.exists_eq_add_of_le (Nat.not_lt.mp hpos)
      have hj : j < buf.length := by omega
      rw [List.getElem_append_right (Nat.le_add_right _ _), List.getElem_range',
        copy_apply_mem (by omega), ofList_apply_lt _ hj,
        List.getElem?_append_right (by omega)]
      simp [hj]

end Origins

/-- What holds of the traced buffer after the bytes `stream`. -/
structure TraceInv (stream : List UInt8) (s : Traced) : Prop where
  bound : s.raw.dataRawLen ≤ sizeofDataRaw
  length : s.origin.length = s.raw.dataRawLen
  fed : s.raw.hung = false → s.fed = stream.length
  origins : Origins stream s.origin s.raw.dataRaw

theorem TraceInv.start : TraceInv [] {} := ⟨Nat.zero_le _, rfl, fun _ => rfl, .nil⟩

section Call

variable {stream : List UInt8} {s : Traced} (fuel : Nat)

theorem TraceInv.kept (inv : TraceInv stream s) :
    s.kept.length = s.raw.dropFull.dataRawLen ∧ Origins stream s.kept s.raw.dropFull.dataRaw := by
  rw [Traced.kept, GnssRaw.dropFull_dataRawLen, GnssRaw.dropFull]
  split
  · exact ⟨rfl, .nil⟩
  · exact ⟨inv.length, inv.origins⟩

/-- The scanned buffer holds the bytes at the held positions. -/
theorem TraceInv.held (inv : TraceInv stream s) (run : s.raw.hung = false) (buf : List UInt8) :
    (s.held buf).length = (scanned s.raw buf).dataRawLen ∧
      (scanned s.raw buf).dataRawLen ≤ sizeofDataRaw ∧
      Origins (stream ++ buf) (s.held buf) (scanned s.raw buf).dataRaw := by
  obtain ⟨length, origins⟩ := inv.kept
  have full := (GnssRaw.dropFull_lt inv.bound).le
  have bytes := origins.append buf sizeofDataRaw
  rw [← inv.fed run, length] at bytes
  refine ⟨?_, ?_, ?_⟩
  · rw [scanned, GnssRaw.append_dataRawLen full, Traced.held, List.length_take,
      List.length_append, List.length_range', length, Nat.min_comm]
  · rw [scanned, GnssRaw.append_dataRawLen full]
    exact Nat.min_le_right _ _
  · rwa [scanned, GnssRaw.append_dataRaw]

/-- **One call.** It drops some of the positions it held: as many as the scan
counted, or none when the scan does not end. -/
theorem trace_call (inv : TraceInv stream s) (run : s.raw.hung = false) (buf : List UInt8) :
    ∃ n, (trace fuel s buf).1.origin = (s.held buf).drop n ∧
      (trace fuel s buf).1.fed = s.fed + buf.length ∧
      ((trace fuel s buf).1.raw.hung = false → n = (scanOf fuel s.raw buf).handleCnt) ∧
      (trace fuel s buf).2 =
        (scanOf fuel s.raw buf).accepted.map (fun p => ((s.held buf).getD p.1 0, p.2)) ∧
      TraceInv (stream ++ buf) (trace fuel s buf).1 := by
  obtain ⟨length, bound, origins⟩ := inv.held run buf
  obtain ⟨n, le, left, moved, count⟩ := gnssHandleRawBytes_left fuel inv.bound run buf
  have call : trace fuel s buf =
      (⟨(gnssHandleRawBytes fuel s.raw buf).1, (s.held buf).drop n, s.fed + buf.length⟩,
        (scanOf fuel s.raw buf).accepted.map fun p => ((s.held buf).getD p.1 0, p.2)) := by
    have back : (s.held buf).length - (gnssHandleRawBytes fuel s.raw buf).1.dataRawLen = n := by
      omega
    rw [trace, if_neg (by simp [run])]
    simp only [back, gnssHandleRawBytes_accepted run]
  rw [call]
  refine ⟨n, rfl, rfl, count, rfl, ⟨?_, ?_, ?_, ?_⟩⟩
  · simp only
    omega
  · simp only [List.length_drop]
    omega
  · intro _
    simp only [List.length_append, inv.fed run]
  · exact origins.drop n fun k hk => moved k (by omega)

/-- The trace stays right along a run. -/
theorem TraceInv.step (inv : TraceInv stream s) (buf : List UInt8) :
    TraceInv (stream ++ buf) (trace fuel s buf).1 := by
  cases run : s.raw.hung with
  | false =>
      obtain ⟨_, _, _, _, _, next⟩ := trace_call fuel inv run buf
      exact next
  | true =>
      rw [trace_hung run]
      refine ⟨inv.bound, inv.length, fun h => ?_, inv.origins.sorted, fun k hk => ?_⟩
      · rw [run] at h
        cases h
      · rw [List.getElem?_append_left (inv.origins.below _ (List.getElem_mem hk))]
        exact inv.origins.bytes k hk

end Call

theorem traceInv_final (fuel : Nat) (chunks : List (List UInt8)) :
    TraceInv chunks.flatten (Machine.final (trace fuel) {} chunks) := by
  induction chunks using List.reverseRecOn with
  | nil => exact .start
  | append_singleton chunks c ih =>
      rw [Machine.final_append, List.flatten_append, List.flatten_singleton]
      exact ih.step fuel c

end Ok3506.Gnss
