import Ok3506.Lib.Fetch
import Ok3506.Gnss.RawStream

/-!
The raw buffer never wraps and is never left.

The scan is written once more with its reads logged, in the order of the source
and with its subtractions in `size_t`: `fetchFrame` is the loop body up to the
type switch, `fetchGnssRaw` the whole loop. It finds what `handleGnssRaw` finds
and reads nothing at or behind `len`. `CallBounds` collects what that gives for
one call of `gnss_handle_raw_bytes`, and holds for every call of every run. The
decoders behind the type switch are not part of the scan.
-/

namespace Ok3506.Gnss

open Mem Bits

/-- The difference of two `size_t` values, which wraps below zero. -/
def sizeSub (a b : Nat) : Nat := if b ≤ a then a - b else a + 2 ^ 64 - b

theorem sizeSub_eq {a b : Nat} (le : b ≤ a) : sizeSub a b = a - b := if_pos le

/-! ### The loop body with its reads -/

/-- `packet->header == Header1` or `packet2->header == Header2`. -/
def fetchHeader (data : Mem) (i : Nat) : PacketKind → Fetch Bool
  | .data1 => Fetch.view data i 4 fun packet => decide (packet.load32 0 = header1)
  | .data2 => Fetch.view data i 8 fun packet => decide (packet.load64 0 = header2)

/-- The room test with the header test behind it. -/
def fetchHeaderAt (data : Mem) (len i : Nat) (k : PacketKind) : Fetch Bool :=
  if sizeSub len i > k.size then fetchHeader data i k else return false

/-- The length and checksum tests; the type is read for the switch. -/
def fetchPacket (data : Mem) (len i : Nat) (k : PacketKind) : Fetch (Option RawFrame) := do
  let length ← Fetch.view data (i + (k.size - 5)) 2 fun field => field.load16 0
  if length > sizeSub (sizeSub len i) k.size then return none
  else
    let crcCalculated ← Fetch.view data i (length + (k.size - 3)) fun packet =>
      rtkCrc24q packet (length + (k.size - 3))
    let b0 ← Fetch.byte data (i + k.size + length - 3)
    let b1 ← Fetch.byte data (i + k.size + length - 2)
    let b2 ← Fetch.byte data (i + k.size + length - 1)
    if crcCalculated = (b0.toNat <<< 16 ||| b1.toNat <<< 8 ||| b2.toNat) then
      let type ← Fetch.view data (i + (k.size - 7)) 2 fun field => field.load16 0
      return some ⟨k, type, length⟩
    else return none

/-- What the loop body finds at offset `i`. -/
def fetchFrame (data : Mem) (len i : Nat) : Fetch (Option RawFrame) := do
  if ← fetchHeaderAt data len i .data1 then fetchPacket data len i .data1
  else if ← fetchHeaderAt data len i .data2 then fetchPacket data len i .data2
  else return none

/-- The loop body with its increment. -/
def fetchStep (data : Mem) (len : Nat) (s : ScanState) : Fetch ScanState := do
  match ← fetchFrame data len s.i with
  | some f =>
      match f.kind with
      | .data1 =>
          return { i := sizeT (skipPacket s.i f.length + 1)
                   handleCnt := s.i + f.length
                   accepted := s.accepted ++ [(s.i, f)] }
      | .data2 => return { s with i := sizeT (s.i + 1), accepted := s.accepted ++ [(s.i, f)] }
  | none => return { s with i := sizeT (s.i + 1) }

/-- At most `fuel` iterations of the loop. -/
def fetchLoop (data : Mem) (len : Nat) : Nat → ScanState → Fetch ScanState
  | 0, s => return s
  | fuel + 1, s =>
      if s.i < sizeSub len 3 then do
        let t ← fetchStep data len s
        fetchLoop data len fuel t
      else return s

/-- `handle_gnss_raw` with its reads. -/
def fetchGnssRaw (fuel : Nat) (data : Mem) (len : Nat) : Fetch ScanState :=
  if len < PacketKind.data1.size then return {} else fetchLoop data len fuel {}

/-! ### It is the same scan -/

section Body

variable {data : Mem} {len i : Nat} {k : PacketKind}

theorem fetchHeader_yields (room : i + k.size ≤ len) :
    (fetchHeader data i k).Yields len (decide (k.HasHeader (data.shift i))) := by
  cases k with
  | data1 =>
      have header : i + 4 ≤ len := le_trans (by simp [PacketKind.size]) room
      have read := Fetch.yields_view (m := data)
        (f := fun packet => decide (packet.load32 0 = header1)) header fun packet same => by
          have word : packet.load32 0 = (data.shift i).load32 0 :=
            load32_congr fun j hj => by simpa using same j hj
          rw [word]
      exact read
  | data2 =>
      have header : i + 8 ≤ len := le_trans (by simp [PacketKind.size]) room
      have read := Fetch.yields_view (m := data)
        (f := fun packet => decide (packet.load64 0 = header2)) header fun packet same => by
          have word : packet.load64 0 = (data.shift i).load64 0 :=
            load64_congr fun j hj => by simpa using same j hj
          rw [word]
      exact read

/-- A two-byte field of the packet. -/
theorem fetchField_yields {off : Nat} (room : i + (off + 2) ≤ len) :
    (Fetch.view data (i + off) 2 fun field => field.load16 0).Yields len
      ((data.shift i).load16 off) := by
  have shifted : (data.shift (i + off)).load16 0 = (data.shift i).load16 off :=
    load16_congr fun j _ => by simp [Nat.add_assoc]
  rw [← shifted]
  refine Fetch.yields_view (by omega) fun field same => ?_
  exact load16_congr fun j hj => by simpa using same j hj

/-- The room test guards the header test. -/
theorem fetchHeaderAt_yields (inside : i < len) :
    (fetchHeaderAt data len i k).Yields len (decide (HeaderAt data len i k)) := by
  rw [fetchHeaderAt, sizeSub_eq inside.le]
  split
  case isTrue room =>
    have fits : i + k.size ≤ len := by omega
    have same : decide (k.HasHeader (data.shift i)) = decide (HeaderAt data len i k) := by
      simp [HeaderAt, room]
    rw [← same]
    exact fetchHeader_yields fits
  case isFalse crowded =>
    have none : decide (HeaderAt data len i k) = false := by simp [HeaderAt, crowded]
    rw [none]
    exact Fetch.yields_pure false

/-- The room test guards the length, the length test the checksum. -/
theorem fetchPacket_yields (room : len - i > k.size) :
    (fetchPacket data len i k).Yields len (checkPacket data len i k) := by
  have size := k.size_ge
  have length : (Fetch.view data (i + (k.size - 5)) 2 fun field => field.load16 0).Yields len
      (k.length (data.shift i)) := by
    cases k <;> exact fetchField_yields (by omega)
  have type : (Fetch.view data (i + (k.size - 7)) 2 fun field => field.load16 0).Yields len
      (k.type (data.shift i)) := by
    cases k <;> exact fetchField_yields (by omega)
  refine length.bind ?_
  rw [sizeSub_eq (show i ≤ len by omega), sizeSub_eq (by omega), checkPacket]
  split
  case isTrue => exact Fetch.yields_pure none
  case isFalse fits =>
    have crc : (Fetch.view data i (k.length (data.shift i) + (k.size - 3)) fun packet =>
        rtkCrc24q packet (k.length (data.shift i) + (k.size - 3))).Yields len
        (rtkCrc24q (data.shift i) (k.length (data.shift i) + (k.size - 3))) :=
      Fetch.yields_view (by omega) fun _ same => rtkCrc24q_congr same
    refine crc.bind ?_
    refine (Fetch.yields_byte (by omega)).bind ?_
    refine (Fetch.yields_byte (by omega)).bind ?_
    refine (Fetch.yields_byte (by omega)).bind ?_
    rw [crcReceived]
    split
    case isTrue => exact type.bind (Fetch.yields_pure _)
    case isFalse => exact Fetch.yields_pure none

theorem fetchFrame_yields (inside : i < len) :
    (fetchFrame data len i).Yields len (frameAt data len i) := by
  rw [fetchFrame, frameAt]
  refine (fetchHeaderAt_yields (k := .data1) inside).bind ?_
  split
  case isTrue found =>
    have header := of_decide_eq_true found
    rw [if_pos header]
    exact fetchPacket_yields header.1
  case isFalse missing1 =>
    have other := of_decide_eq_false (Bool.eq_false_iff.mpr missing1)
    rw [if_neg other]
    refine (fetchHeaderAt_yields (k := .data2) inside).bind ?_
    split
    case isTrue found =>
      have header := of_decide_eq_true found
      rw [if_pos header]
      exact fetchPacket_yields header.1
    case isFalse missing2 =>
      have neither := of_decide_eq_false (Bool.eq_false_iff.mpr missing2)
      rw [if_neg neither]
      exact Fetch.yields_pure none

variable {s : ScanState}

theorem fetchStep_yields (inside : s.i < len) :
    (fetchStep data len s).Yields len (scanStep data len s) := by
  rw [fetchStep, scanStep]
  refine (fetchFrame_yields inside).bind ?_
  cases frameAt data len s.i with
  | none => exact Fetch.yields_pure _
  | some f =>
      obtain ⟨kind, type, length⟩ := f
      cases kind with
      | data1 => exact Fetch.yields_pure _
      | data2 => exact Fetch.yields_pure _

theorem fetchLoop_yields (long : 3 ≤ len) (fuel : Nat) :
    (fetchLoop data len fuel s).Yields len
      (Loop.iter (Scanning len) (scanStep data len) fuel s) := by
  induction fuel generalizing s with
  | zero => exact Fetch.yields_pure s
  | succ fuel ih =>
      rw [fetchLoop, Loop.iter, sizeSub_eq long]
      by_cases go : s.i < len - 3
      · rw [if_pos go, if_pos (show Scanning len s from go)]
        exact (fetchStep_yields (by omega)).bind ih
      · rw [if_neg go, if_neg (show ¬ Scanning len s from go)]
        exact Fetch.yields_pure s

end Body

/-- **The scan reads below `len` only**, and finds what `handleGnssRaw` finds. -/
theorem fetchGnssRaw_yields (fuel : Nat) (data : Mem) {len : Nat} :
    (fetchGnssRaw fuel data len).Yields len (handleGnssRaw fuel data len) := by
  by_cases short : len < PacketKind.data1.size
  · rw [fetchGnssRaw, if_pos short, handleGnssRaw, if_pos short]
    exact Fetch.yields_pure _
  · rw [fetchGnssRaw, if_neg short, handleGnssRaw, if_neg short]
    have size : PacketKind.data1.size = 11 := rfl
    exact fetchLoop_yields (by omega) fuel

/-! ### One call -/

/-- `data_raw[0..data_raw_len)`. -/
def GnssRaw.contents (s : GnssRaw) : List UInt8 := s.dataRaw.bytes 0 s.dataRawLen

/-- The part of a chunk that `memcpy` takes. -/
def copied (s : GnssRaw) (buf : List UInt8) : List UInt8 :=
  buf.take (sizeofDataRaw - s.dropFull.dataRawLen)

/-- What a call on `buf` keeps: the lengths stay in the buffer, no sum, difference
or conversion loses anything, the scan reads scanned bytes only, and what is left is
the suffix behind the returned count. -/
structure CallBounds (fuel : Nat) (s : GnssRaw) (buf : List UInt8) : Prop where
  before : s.dataRawLen ≤ sizeofDataRaw
  filled : (scanned s buf).dataRawLen = s.dropFull.dataRawLen + (copied s buf).length
  inside : (scanned s buf).dataRawLen ≤ sizeofDataRaw
  scan : (fetchGnssRaw fuel (scanned s buf).dataRaw (scanned s buf).dataRawLen).Yields
    (scanned s buf).dataRawLen (scanOf fuel s buf)
  count : (scanOf fuel s buf).handleCnt ≤ (scanned s buf).dataRawLen
  signed : int32 (scanOf fuel s buf).handleCnt = (scanOf fuel s buf).handleCnt
  converted : uint16 (scanOf fuel s buf).handleCnt = (scanOf fuel s buf).handleCnt
  left : (gnssHandleRawBytes fuel s buf).1.dataRawLen + (scanOf fuel s buf).handleCnt =
    (scanned s buf).dataRawLen
  after : (gnssHandleRawBytes fuel s buf).1.dataRawLen ≤ sizeofDataRaw
  contents : (gnssHandleRawBytes fuel s buf).1.contents =
    (s.dropFull.contents ++ copied s buf).drop (scanOf fuel s buf).handleCnt

section Call

variable {s : GnssRaw}

theorem length_copied (s : GnssRaw) (buf : List UInt8) :
    (copied s buf).length = min buf.length (sizeofDataRaw - s.dropFull.dataRawLen) := by
  rw [copied, List.length_take, Nat.min_comm]

theorem scanned_length (bound : s.dataRawLen ≤ sizeofDataRaw) (buf : List UInt8) :
    (scanned s buf).dataRawLen = s.dropFull.dataRawLen + (copied s buf).length := by
  have kept := GnssRaw.dropFull_lt bound
  rw [scanned, GnssRaw.append_dataRawLen kept.le, length_copied]
  omega

/-- The scanned bytes are the kept ones and the copied ones. -/
theorem scanned_contents (bound : s.dataRawLen ≤ sizeofDataRaw) (buf : List UInt8) :
    (scanned s buf).contents = s.dropFull.contents ++ copied s buf := by
  have copyLen := length_copied s buf
  rw [GnssRaw.contents, scanned_length bound, bytes_append, Nat.zero_add, scanned,
    GnssRaw.append_dataRaw, ← copyLen]
  congr 1
  · exact bytes_copy_before (Nat.zero_add _).le
  · rw [bytes_copy]
    have whole := bytes_ofList buf fun _ => 0
    have part := take_bytes (ofList buf fun _ => 0) 0 buf.length (copied s buf).length (by omega)
    rw [whole] at part
    rw [← part]
    exact (List.prefix_iff_eq_take.mp (List.take_prefix _ _)).symm

theorem callBounds (fuel : Nat) (bound : s.dataRawLen ≤ sizeofDataRaw) (run : s.hung = false)
    (buf : List UInt8) (returns : (gnssHandleRawBytes fuel s buf).1.hung = false) :
    CallBounds fuel s buf := by
  have size : sizeofDataRaw = 8192 := rfl
  obtain ⟨n, le, left, moved, count⟩ := gnssHandleRawBytes_left fuel bound run buf
  obtain rfl := count returns
  have filled := scanned_length bound buf
  have copyLen := length_copied s buf
  have kept := GnssRaw.dropFull_lt bound
  have small : (scanOf fuel s buf).handleCnt ≤ 8192 := by omega
  refine ⟨bound, filled, by omega, fetchGnssRaw_yields fuel _, le, ?_, ?_, by omega, by omega, ?_⟩
  · rw [int32, Nat.mod_eq_of_lt (by omega), toSigned_of_lt (by omega)]
  · exact Nat.mod_eq_of_lt (by omega)
  · have split : (scanned s buf).dataRawLen =
        (scanOf fuel s buf).handleCnt + (gnssHandleRawBytes fuel s buf).1.dataRawLen := by omega
    have rest : (scanned s buf).contents.drop (scanOf fuel s buf).handleCnt =
        (scanned s buf).dataRaw.bytes (scanOf fuel s buf).handleCnt
          (gnssHandleRawBytes fuel s buf).1.dataRawLen := by
      rw [GnssRaw.contents, split, bytes_append, Nat.zero_add]
      exact List.drop_left' (bytes_length ..)
    rw [← scanned_contents bound, rest, GnssRaw.contents]
    refine bytes_eq_bytes_iff.mpr fun k hk => ?_
    rw [Nat.zero_add]
    exact moved k (by omega)

/-- A call on a thread that is still in an earlier scan does not return. -/
theorem running_of_returns {fuel : Nat} {buf : List UInt8}
    (returns : (gnssHandleRawBytes fuel s buf).1.hung = false) : s.hung = false := by
  by_contra stuck
  rw [Bool.not_eq_false] at stuck
  rw [gnssHandleRawBytes_hung stuck, stuck] at returns
  cases returns

end Call

/-- **The buffer arithmetic of every run.** As long as the scans return, every call
keeps its bounds. -/
theorem rawBuffer_bounds (fuel : Nat) (chunks : List (List UInt8)) (buf : List UInt8)
    (returns : (afterChunks fuel (chunks ++ [buf])).hung = false) :
    CallBounds fuel (afterChunks fuel chunks) buf := by
  have last : afterChunks fuel (chunks ++ [buf]) =
      (gnssHandleRawBytes fuel (afterChunks fuel chunks) buf).1 := by
    rw [afterChunks, Machine.final_append, Machine.final_cons, Machine.final_nil, afterChunks]
  rw [last] at returns
  have bound : (afterChunks fuel chunks).dataRawLen ≤ sizeofDataRaw := by
    have inv := (traceInv_final fuel chunks).bound
    rwa [final_trace_raw] at inv
  exact callBounds fuel bound (running_of_returns returns) buf returns

/-- A CSHG frame in two chunks. -/
theorem rawBuffer_bounds_example :
    CallBounds 20 (afterChunks 20 [[0x43, 0x53, 0x48]])
      [0x47, 0x00, 0x00, 0x01, 0x00, 0x00, 0xEA, 0x0A, 0xBF] :=
  rawBuffer_bounds 20 [[0x43, 0x53, 0x48]] _ (by decide +kernel)

end Ok3506.Gnss
