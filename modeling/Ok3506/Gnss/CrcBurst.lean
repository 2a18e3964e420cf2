import Ok3506.Lib.CyclicCode
import Ok3506.Gnss.Scan

/-!
The frame checksum as a cyclic code.

`tbl_CRC24Q` holds eight shifts of the CRC-24Q register for each byte, so
`rtk_crc24q` computes the residue of its message, and a frame passes the check
exactly when the number its bits spell, checksum included, is divisible by the
generator. A burst of at most 24 flipped bits is never divisible.
-/

namespace Ok3506.Gnss

open Mem Bits CyclicCode

/-! ### The checksum is a residue -/

/-- The generator of CRC-24Q. -/
def crc24q : Generator where
  width := 24
  taps := 0x1864CFB
  lead := by decide
  const := by decide

/-- Each table entry is eight shifts of its index. -/
theorem tblCrc24q_eq_turns :
    ∀ i < 256, tblCrc24q.getD i 0 = crc24q.turn^[8] (i <<< 16) := by
  decide +kernel

/-- The step of the register for one byte. -/
theorem residue_crcStep {crc : Nat} (h : crc < 2 ^ 24) (b : UInt8) :
    crc24q.residue (crcStep crc b) =
      crc24q.x ^ 8 * crc24q.residue crc + crc24q.x ^ 24 * crc24q.residue b.toNat := by
  have low : (crc <<< 8) &&& 0xFFFFFF = (crc % 2 ^ 16) <<< 8 := by
    have mask : (0xFFFFFF : Nat) = 2 ^ 24 - 1 := rfl
    rw [mask, Nat.and_two_pow_sub_one_eq_mod, Nat.shiftLeft_eq, Nat.shiftLeft_eq]
    omega
  have parts : crc = 2 ^ 16 * (crc >>> 16) + crc % 2 ^ 16 := by
    rw [Nat.shiftRight_eq_div_pow]
    omega
  have whole : crc24q.residue crc =
      crc24q.x ^ 16 * crc24q.residue (crc >>> 16) + crc24q.residue (crc % 2 ^ 16) := by
    conv_lhs => rw [parts]
    exact crc24q.residue_append (Nat.mod_lt _ (by omega)) _
  rw [crcStep, tblCrc24q_eq_turns _ (crcIndex_lt h b), low, Generator.residue_xor,
    Generator.residue_turns, Generator.residue_shiftLeft, Generator.residue_shiftLeft, crcIndex,
    Generator.residue_xor, whole]
  ring

/-- **`rtk_crc24q` is the residue of its message.** -/
theorem residue_rtkCrc24q (m : Mem) (n : Nat) :
    crc24q.residue (rtkCrc24q m n) = crc24q.x ^ 24 * crc24q.residue (bitsVal m 0 (8 * n)) := by
  induction n with
  | zero => simp [rtkCrc24q, Mem.bytes, bitsVal]
  | succ n ih =>
      have message : bitsVal m 0 (8 * (n + 1)) = 2 ^ 8 * bitsVal m 0 (8 * n) + (m n).toNat := by
        rw [Nat.mul_succ, bitsVal_add, Nat.zero_add, bitsVal_byte, Nat.mul_comm]
      have step : rtkCrc24q m (n + 1) = crcStep (rtkCrc24q m n) (m n) := by
        rw [rtkCrc24q, bytes_append, List.foldl_append, bytes_one, List.foldl_cons, List.foldl_nil,
          Nat.zero_add, rtkCrc24q]
      rw [step, residue_crcStep (rtkCrc24q_lt m n), ih, message,
        crc24q.residue_append (m n).toNat_lt]
      ring

/-- The received checksum is the number its three bytes spell. -/
theorem crcReceived_eq_sum (m : Mem) (n : Nat) :
    crcReceived m (n + 3) =
      (m n).toNat * 2 ^ 16 + ((m (n + 1)).toNat * 2 ^ 8 + (m (n + 2)).toNat) := by
  have b1 := (m (n + 1)).toNat_lt
  have b2 := (m (n + 2)).toNat_lt
  have low : (m (n + 1)).toNat <<< 8 ||| (m (n + 2)).toNat =
      (m (n + 1)).toNat <<< 8 + (m (n + 2)).toNat := (Nat.shiftLeft_add_eq_or_of_lt b2 _).symm
  have high : (m n).toNat <<< 16 ||| ((m (n + 1)).toNat <<< 8 + (m (n + 2)).toNat) =
      (m n).toNat <<< 16 + ((m (n + 1)).toNat <<< 8 + (m (n + 2)).toNat) := by
    refine (Nat.shiftLeft_add_eq_or_of_lt ?_ _).symm
    rw [Nat.shiftLeft_eq]
    omega
  change (m n).toNat <<< 16 ||| (m (n + 1)).toNat <<< 8 ||| (m (n + 2)).toNat = _
  rw [Nat.or_assoc, low, high, Nat.shiftLeft_eq, Nat.shiftLeft_eq]

/-- The received checksum is a big-endian field. -/
theorem crcReceived_eq (m : Mem) (n : Nat) : crcReceived m (n + 3) = bitsVal m (8 * n) 24 := by
  have field : bitsVal m (8 * n) (8 + (8 + 8)) =
      (m n).toNat * 2 ^ 16 + ((m (n + 1)).toNat * 2 ^ 8 + (m (n + 2)).toNat) := by
    rw [bitsVal_add, bitsVal_add, ← Nat.mul_succ, ← Nat.mul_succ, bitsVal_byte, bitsVal_byte,
      bitsVal_byte]
  rw [crcReceived_eq_sum, field]

/-- **A message and the checksum behind it match exactly when the number they
spell is divisible by the generator.** -/
theorem check_iff (m : Mem) (n : Nat) :
    rtkCrc24q m n = crcReceived m (n + 3) ↔ crc24q.residue (bitsVal m 0 (8 * (n + 3))) = 0 := by
  have split : bitsVal m 0 (8 * (n + 3)) =
      2 ^ 24 * bitsVal m 0 (8 * n) + crcReceived m (n + 3) := by
    rw [Nat.mul_add, bitsVal_add, Nat.zero_add, crcReceived_eq, Nat.mul_comm]
  have received : crcReceived m (n + 3) < 2 ^ 24 := by
    rw [crcReceived_eq]
    exact bitsVal_lt m (8 * n) 24
  rw [split]
  exact (crc24q.residue_check (rtkCrc24q_lt m n) received (residue_rtkCrc24q m n)).symm

/-! ### Bursts in a frame -/

/-- Byte `k` of the buffer carries type, payload or checksum of the frame `f` at `i`. -/
def RawFrame.Carries (f : RawFrame) (i k : Nat) : Prop :=
  (i + (f.kind.size - 7) ≤ k ∧ k < i + (f.kind.size - 5)) ∨
    (i + (f.kind.size - 3) ≤ k ∧ k < i + f.size)

/-- The two buffers differ in a nonzero pattern of bits: all in the 24 from
`start` on, and all in bytes that carry type, payload or checksum of `f`. -/
structure Burst (data data' : Mem) (i : Nat) (f : RawFrame) (start : Nat) : Prop where
  window : ∀ k, bitAt data k ≠ bitAt data' k → start ≤ k ∧ k < start + 24
  carried : ∀ k, bitAt data k ≠ bitAt data' k → f.Carries i (k / 8)
  nonzero : ∃ k, bitAt data k ≠ bitAt data' k

namespace Burst

variable {data data' : Mem} {i start : Nat} {f : RawFrame}

/-- Header, length and everything outside the frame are unchanged. -/
theorem same (burst : Burst data data' i f start) {k : Nat} (h : ¬ f.Carries i k) :
    data k = data' k := by
  apply byte_eq_of_bitAt
  intro j hj
  by_contra differ
  have carried := burst.carried _ differ
  have byte : (8 * k + j) / 8 = k := by omega
  rw [byte] at carried
  exact h carried

theorem header (burst : Burst data data' i f start) (header : f.kind.HasHeader (data.shift i)) :
    f.kind.HasHeader (data'.shift i) := by
  have size := f.kind.size_ge
  refine PacketKind.hasHeader_congr (fun k hk => burst.same ?_) header
  rintro (⟨low, -⟩ | ⟨low, -⟩) <;> omega

theorem length (burst : Burst data data' i f start) :
    f.kind.length (data'.shift i) = f.kind.length (data.shift i) := by
  have size := f.kind.size_ge
  refine (PacketKind.length_congr ?_).symm
  intro k hk
  apply burst.same
  rintro (⟨low, high⟩ | ⟨low, high⟩) <;> omega

/-- The numbers that the two frames spell differ within 24 places. -/
theorem spelled (burst : Burst data data' i f start) (t : Nat)
    (differ : (bitsVal (data.shift i) 0 (8 * f.size)).testBit t ≠
      (bitsVal (data'.shift i) 0 (8 * f.size)).testBit t) :
    8 * i + 8 * f.size - (start + 24) ≤ t ∧ t < 8 * i + 8 * f.size - (start + 24) + 24 := by
  have inside : t < 8 * f.size := by
    by_contra out
    have le : 2 ^ (8 * f.size) ≤ 2 ^ t := Nat.pow_le_pow_right (by omega) (by omega)
    rw [Nat.testBit_lt_two_pow ((bitsVal_lt _ _ _).trans_le le),
      Nat.testBit_lt_two_pow ((bitsVal_lt _ _ _).trans_le le)] at differ
    exact differ rfl
  rw [testBit_bitsVal _ _ inside, testBit_bitsVal _ _ inside, bitAt_shift, bitAt_shift] at differ
  have window := burst.window _ differ
  omega

theorem spelled_ne (burst : Burst data data' i f start) :
    bitsVal (data.shift i) 0 (8 * f.size) ≠ bitsVal (data'.shift i) 0 (8 * f.size) := by
  obtain ⟨k, differ⟩ := burst.nonzero
  have size := f.kind.size_ge
  have whole : f.size = f.kind.size + f.length := rfl
  have inside : 8 * i ≤ k ∧ k < 8 * i + 8 * f.size := by
    rcases burst.carried k differ with ⟨low, high⟩ | ⟨low, high⟩ <;> omega
  intro same
  have bit := bitsVal_inj same (k - 8 * i) (by omega)
  have place : 8 * i + (0 + (k - 8 * i)) = k := by omega
  rw [bitAt_shift, bitAt_shift, place] at bit
  exact differ bit

end Burst

/-- A frame passes the check exactly when the number it spells is divisible by the
generator. -/
theorem frame_check_iff (data : Mem) (i : Nat) (f : RawFrame) :
    rtkCrc24q (data.shift i) (f.length + (f.kind.size - 3)) = crcReceived data (i + f.size) ↔
      crc24q.residue (bitsVal (data.shift i) 0 (8 * f.size)) = 0 := by
  have size := f.kind.size_ge
  have stop : f.length + (f.kind.size - 3) + 3 = f.size := by
    rw [RawFrame.size]
    omega
  rw [← crcReceived_shift data i (by omega), ← stop]
  exact check_iff (data.shift i) _

/-- **The checksum detects every burst**: behind the unchanged header and length
the corrupted frame fails the check, and nothing is accepted at its offset. -/
theorem burst_rejected {data data' : Mem} {len i start : Nat} {f : RawFrame}
    (accepted : frameAt data len i = some f) (burst : Burst data data' i f start) :
    f.kind.HasHeader (data'.shift i) ∧ f.kind.length (data'.shift i) = f.length ∧
      rtkCrc24q (data'.shift i) (f.length + (f.kind.size - 3)) ≠ crcReceived data' (i + f.size) ∧
      frameAt data' len i = none := by
  obtain ⟨valid, -, -⟩ := frameAt_eq_some.mp accepted
  have header := burst.header valid.header
  have length := burst.length.trans valid.length
  have fails : rtkCrc24q (data'.shift i) (f.length + (f.kind.size - 3)) ≠
      crcReceived data' (i + f.size) := by
    rw [Ne, frame_check_iff]
    exact crc24q.burst_detected ((frame_check_iff data i f).mp valid.crc) burst.spelled_ne
      burst.spelled
  refine ⟨header, length, fails, ?_⟩
  by_contra found
  obtain ⟨g, some⟩ := Option.ne_none_iff_exists'.mp found
  obtain ⟨other, -, -⟩ := frameAt_eq_some.mp some
  have kinds : g.kind = f.kind := PacketKind.eq_of_hasHeader other.header header
  have lengths : g.length = f.length := by rw [← other.length, kinds, length]
  have sizes : g.size = f.size := by rw [RawFrame.size, kinds, lengths, RawFrame.size]
  have crc := other.crc
  rw [kinds, lengths, sizes] at crc
  exact fails crc

/-- A CSHG frame with one payload byte. -/
def oneByteFrame : Mem :=
  zeroPadded [0x43, 0x53, 0x48, 0x47, 0x00, 0x00, 0x01, 0x00, 0x00, 0xEA, 0x0A, 0xBF]

/-- Its payload byte changed. -/
theorem burst_oneByteFrame :
    Burst oneByteFrame (oneByteFrame.store8 8 0x81) 0 ⟨.data1, 0, 1⟩ 64 := by
  have place {k : Nat} (differ : bitAt oneByteFrame k ≠ bitAt (oneByteFrame.store8 8 0x81) k) :
      k / 8 = 8 := by
    by_contra other
    rw [bitAt, bitAt, store8, if_neg other] at differ
    exact differ rfl
  refine ⟨fun k differ => ?_, fun k differ => ?_, 64, by decide⟩
  · have := place differ
    omega
  · rw [place differ]
    exact .inr (by decide)

theorem burst_rejected_oneByteFrame :
    PacketKind.HasHeader ((oneByteFrame.store8 8 0x81).shift 0) .data1 ∧
      PacketKind.length ((oneByteFrame.store8 8 0x81).shift 0) .data1 = 1 ∧
      rtkCrc24q ((oneByteFrame.store8 8 0x81).shift 0) 9 ≠
        crcReceived (oneByteFrame.store8 8 0x81) 12 ∧
      frameAt (oneByteFrame.store8 8 0x81) 12 0 = none := by
  have accepted : frameAt oneByteFrame 12 0 = some ⟨.data1, 0, 1⟩ := by decide +kernel
  exact burst_rejected accepted burst_oneByteFrame

end Ok3506.Gnss
