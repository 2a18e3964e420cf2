import Ok3506.Lib.BitReader
import Ok3506.Lib.RatPi
import Mathlib.Data.Nat.Bitwise

/-!
The bit readers and scalings of `gnss_ephb_decode.c`.

`readBitsBe` and `readBitsBe64` accumulate a field bit by bit; the signed
readers flip the sign bit and subtract its weight in the accumulator's width.
`readSignedBitsBe` is declared to return `uint32_t`, so its value here is the
wrapped natural number and every caller shows the conversion it applies.
Doubles are exact: `ldexp` of an integer is a rational, a product with `M_PI` a
rational multiple of π.
-/

namespace Ok3506.Gnss

open Mem Bits

/-! ### Bit readers -/

/-- `read_bits_be`; the callers pass at most 32 bits, so nothing is shifted out. -/
def readBitsBe (buf : Mem) (bitOffset bitLen : Nat) : Nat :=
  (List.range bitLen).foldl (fun value bit =>
    let idx := bitOffset + bit
    if (buf (idx / 8)).toNat &&& (1 <<< (7 - idx % 8)) ≠ 0 then
      value ||| (1 <<< (bitLen - 1 - bit))
    else value) 0

/-- `read_bits_be64`: the same loop over a 64-bit accumulator. -/
def readBitsBe64 (buf : Mem) (bitOffset bitLen : Nat) : Nat := readBitsBe buf bitOffset bitLen

/-- `read_signed_bits_be`, with its declared return type `uint32_t`. -/
def readSignedBitsBe (buf : Mem) (bitOffset bitLen : Nat) : Nat :=
  let raw := readBitsBe buf bitOffset bitLen
  if bitLen = 32 then raw
  else
    let signBit := 1 <<< (bitLen - 1)
    ((raw ^^^ signBit) + 2 ^ 32 - signBit) % 2 ^ 32

/-- `read_signed_bits_be64`. -/
def readSignedBitsBe64 (buf : Mem) (bitOffset bitLen : Nat) : Int :=
  let raw := readBitsBe64 buf bitOffset bitLen
  if bitLen = 64 then int64 raw
  else
    let signBit := 1 <<< (bitLen - 1)
    int64 (((raw ^^^ signBit) + 2 ^ 64 - signBit) % 2 ^ 64)

theorem and_one_shiftLeft_ne_zero (n i : Nat) : n &&& (1 <<< i) ≠ 0 ↔ n.testBit i = true := by
  rw [Nat.one_shiftLeft, Nat.and_two_pow]
  cases n.testBit i <;> simp

/-- The loop of `read_bits_be` after `n` of `len` bits: the value of those bits,
in the high part of the field. -/
theorem readBitsBe_prefix (buf : Mem) (off len n : Nat) (h : n ≤ len) :
    (List.range n).foldl (fun value bit =>
      let idx := off + bit
      if (buf (idx / 8)).toNat &&& (1 <<< (7 - idx % 8)) ≠ 0 then
        value ||| (1 <<< (len - 1 - bit))
      else value) 0 = bitsVal buf off n * 2 ^ (len - n) := by
  induction n with
  | zero => simp [bitsVal]
  | succ n ih =>
      rw [List.range_succ, List.foldl_append, ih (by omega), List.foldl_cons, List.foldl_nil]
      simp only [and_one_shiftLeft_ne_zero]
      have hpow : 2 ^ (len - n) = 2 * 2 ^ (len - 1 - n) := by
        rw [← Nat.pow_succ', show len - n = (len - 1 - n) + 1 by omega]
      have hsub : len - (n + 1) = len - 1 - n := by omega
      rw [bitsVal, hsub, Nat.add_mul]
      change (if bitAt buf (off + n) = true then _ else _) = _
      cases hb : bitAt buf (off + n) with
      | false => simp [hpow]; ring
      | true =>
          have low : 2 ^ (len - 1 - n) < 2 ^ (len - n) := by
            have := Nat.two_pow_pos (len - 1 - n)
            omega
          rw [if_pos rfl, Nat.one_shiftLeft, Bool.toNat_true, Nat.one_mul,
            ← Nat.shiftLeft_eq _ (len - n), ← Nat.shiftLeft_add_eq_or_of_lt low,
            Nat.shiftLeft_eq, hpow]
          ring

/-- `read_bits_be` returns the integer its bits spell. -/
@[simp] theorem readBitsBe_eq (buf : Mem) (off len : Nat) :
    readBitsBe buf off len = bitsVal buf off len := by
  rw [readBitsBe, readBitsBe_prefix buf off len len le_rfl, Nat.sub_self, Nat.pow_zero, Nat.mul_one]

@[simp] theorem readBitsBe64_eq (buf : Mem) (off len : Nat) :
    readBitsBe64 buf off len = bitsVal buf off len := readBitsBe_eq buf off len

/-! ### Conversions of what the readers return -/

theorem uint8_bitsVal (buf : Mem) (off : Nat) {len : Nat} (h : len ≤ 8) :
    uint8 (bitsVal buf off len) = bitsVal buf off len :=
  Nat.mod_eq_of_lt ((bitsVal_lt buf off len).trans_le (Nat.pow_le_pow_right (by omega) h))

theorem uint16_bitsVal (buf : Mem) (off : Nat) {len : Nat} (h : len ≤ 16) :
    uint16 (bitsVal buf off len) = bitsVal buf off len :=
  Nat.mod_eq_of_lt ((bitsVal_lt buf off len).trans_le (Nat.pow_le_pow_right (by omega) h))

/-- The unit of a multiplied field cannot overflow 32 bits. -/
theorem uint32_bitsVal_mul (buf : Mem) (off : Nat) {len k : Nat} (h : 2 ^ len * k ≤ 2 ^ 32)
    (hk : 0 < k) : uint32 (bitsVal buf off len * k) = bitsVal buf off len * k :=
  Nat.mod_eq_of_lt ((Nat.mul_lt_mul_of_pos_right (bitsVal_lt buf off len) hk).trans_le h)

theorem int64_bitsVal (buf : Mem) (off : Nat) {len : Nat} (h : len < 64) :
    int64 (bitsVal buf off len) = bitsVal buf off len := by
  have lt := bitsVal_lt buf off len
  have le : 2 ^ len ≤ 2 ^ 63 := Nat.pow_le_pow_right (by omega) (by omega)
  rw [int64, Nat.mod_eq_of_lt (by omega), toSigned_of_lt (by omega)]

/-- A sign-extended field, read back in the accumulator's width, is the
two's-complement value of the field. -/
theorem toSigned_extend {w n r : Nat} (hr : r < 2 ^ (w + 1)) (hn : w < n) :
    toSigned n (((r ^^^ 2 ^ w) + 2 ^ n - 2 ^ w) % 2 ^ n) = toSigned (w + 1) r := by
  have hw : 2 ^ (w + 1) ≤ 2 ^ n := Nat.pow_le_pow_right (by omega) hn
  have castn : ((2 ^ n : Nat) : Int) = (2 : Int) ^ n := by push_cast; rfl
  have castw : ((2 ^ (w + 1) : Nat) : Int) = (2 : Int) ^ (w + 1) := by push_cast; rfl
  rw [xor_sub_signBit hr hn]
  by_cases h : 2 * r < 2 ^ (w + 1)
  · rw [if_pos h, toSigned_of_lt (by omega), toSigned_of_lt h]
  · rw [if_neg h, toSigned_of_ge (by omega), toSigned_of_ge (by omega), ← castn, ← castw]
    omega

/-- `read_signed_bits_be`, converted to `int32_t`, is the two's-complement value
of the field. -/
theorem int32_readSignedBitsBe (buf : Mem) (off : Nat) {len : Nat} (pos : 0 < len)
    (le : len ≤ 32) :
    int32 (readSignedBitsBe buf off len) = toSigned len (bitsVal buf off len) := by
  have lt := bitsVal_lt buf off len
  simp only [readSignedBitsBe, readBitsBe_eq]
  split
  · rename_i full
    subst full
    rw [int32, Nat.mod_eq_of_lt lt]
  · obtain ⟨w, rfl⟩ := Nat.exists_eq_succ_of_ne_zero pos.ne'
    rw [int32, Nat.succ_sub_one, Nat.one_shiftLeft, Nat.mod_mod]
    exact toSigned_extend lt (by omega)

/-- Without that conversion the wrapped value is off by `2 ^ 32` on negative
fields. -/
theorem readSignedBitsBe_eq (buf : Mem) (off : Nat) {len : Nat} (pos : 0 < len)
    (lt32 : len < 32) :
    readSignedBitsBe buf off len =
      if 2 * bitsVal buf off len < 2 ^ len then bitsVal buf off len
      else bitsVal buf off len + 2 ^ 32 - 2 ^ len := by
  obtain ⟨w, rfl⟩ := Nat.exists_eq_succ_of_ne_zero pos.ne'
  simp only [readSignedBitsBe, readBitsBe_eq]
  rw [if_neg (by omega), Nat.succ_sub_one, Nat.one_shiftLeft]
  exact xor_sub_signBit (bitsVal_lt buf off (w + 1)) (by omega)

/-- A conversion to `n` bits undoes the wrap of a field that fits them. -/
theorem toSigned_readSignedBitsBe_mod (buf : Mem) (off : Nat) {len n : Nat} (pos : 0 < len)
    (fits : len ≤ n) (narrow : n < 32) :
    toSigned n (readSignedBitsBe buf off len % 2 ^ n) = toSigned len (bitsVal buf off len) := by
  have lt := bitsVal_lt buf off len
  have small : 2 ^ len ≤ 2 ^ n := Nat.pow_le_pow_right (by omega) fits
  rw [readSignedBitsBe_eq buf off pos (by omega)]
  split
  case isTrue nonneg =>
    rw [Nat.mod_eq_of_lt (by omega), toSigned_of_lt (by omega), toSigned_of_lt nonneg]
  case isFalse negative =>
    have castn : ((2 ^ n : Nat) : Int) = (2 : Int) ^ n := by push_cast; rfl
    have cast : ((2 ^ len : Nat) : Int) = (2 : Int) ^ len := by push_cast; rfl
    have factor : 2 ^ 32 = 2 ^ n * 2 ^ (32 - n) := by rw [← pow_add, Nat.add_sub_cancel' narrow.le]
    have least : 2 ^ n ≤ 2 ^ 32 := Nat.pow_le_pow_right (by omega) narrow.le
    have wrap : bitsVal buf off len + 2 ^ 32 - 2 ^ len =
        bitsVal buf off len + 2 ^ n - 2 ^ len + 2 ^ n * (2 ^ (32 - n) - 1) := by
      rw [Nat.mul_sub_one, ← factor]
      omega
    rw [wrap, Nat.add_mul_mod_self_left, Nat.mod_eq_of_lt (by omega), toSigned_of_ge (by omega),
      toSigned_of_ge (by omega), ← cast, ← castn]
    omega

/-- `(int8_t)read_signed_bits_be(.., 8)` is the two's-complement value. -/
theorem int8_readSignedBitsBe (buf : Mem) (off : Nat) :
    int8 (readSignedBitsBe buf off 8) = toSigned 8 (bitsVal buf off 8) :=
  toSigned_readSignedBitsBe_mod buf off (by omega) le_rfl (by omega)

/-- `(int16_t)read_signed_bits_be` is the two's-complement value of a field of at
most 16 bits. -/
theorem int16_readSignedBitsBe (buf : Mem) (off : Nat) {len : Nat} (pos : 0 < len)
    (le : len ≤ 16) : int16 (readSignedBitsBe buf off len) = toSigned len (bitsVal buf off len) :=
  toSigned_readSignedBitsBe_mod buf off pos le (by omega)

/-- `read_signed_bits_be64` is the two's-complement value of the field. -/
theorem readSignedBitsBe64_eq (buf : Mem) (off : Nat) {len : Nat} (pos : 0 < len)
    (le : len ≤ 64) :
    readSignedBitsBe64 buf off len = toSigned len (bitsVal buf off len) := by
  have lt := bitsVal_lt buf off len
  simp only [readSignedBitsBe64, readBitsBe64_eq]
  split
  · rename_i full
    subst full
    rw [int64, Nat.mod_eq_of_lt lt]
  · obtain ⟨w, rfl⟩ := Nat.exists_eq_succ_of_ne_zero pos.ne'
    rw [int64, Nat.succ_sub_one, Nat.one_shiftLeft, Nat.mod_mod]
    exact toSigned_extend lt (by omega)

/-! ### Scalings -/

/-- `scale_pow2`: `ldexp((double)raw, exp)`. -/
def scalePow2 (raw : Int) (exp : Int) : RatPi := ⟨raw * 2 ^ exp, 0⟩

/-- `scale_pow2_u`. -/
def scalePow2U (raw : Nat) (exp : Int) : RatPi := ⟨raw * 2 ^ exp, 0⟩

/-- `scale_pi_pow2`: `ldexp((double)raw, exp) * M_PI`. -/
def scalePiPow2 (raw : Int) (exp : Int) : RatPi := ⟨0, raw * 2 ^ exp⟩

/-- `scale_tenth_ns`: `(double)raw * 1.0e-10`. -/
def scaleTenthNs (raw : Int) : RatPi := ⟨raw * (1 / 10 ^ 10), 0⟩

/-- `scale_pow2_64`. -/
def scalePow264 (raw : Int) (exp : Int) : RatPi := ⟨raw * 2 ^ exp, 0⟩

/-- `scale_pow2_u64`. -/
def scalePow2U64 (raw : Nat) (exp : Int) : RatPi := ⟨raw * 2 ^ exp, 0⟩

/-- `scale_pi_pow2_64`. -/
def scalePiPow264 (raw : Int) (exp : Int) : RatPi := ⟨0, raw * 2 ^ exp⟩

/-! ### Readers over the running bit offset

`take…` is a read at `bit` followed by `bit += len`; `peek…` leaves `bit` where
it is. -/

theorem readSignedBitsBe_congr {m m' : Mem} {b len : Nat}
    (h : ∀ k < len, bitAt m (b + k) = bitAt m' (b + k)) :
    readSignedBitsBe m b len = readSignedBitsBe m' b len := by
  rw [readSignedBitsBe, readSignedBitsBe, readBitsBe_eq, readBitsBe_eq, bitsVal_congr h]

theorem readSignedBitsBe64_congr {m m' : Mem} {b len : Nat}
    (h : ∀ k < len, bitAt m (b + k) = bitAt m' (b + k)) :
    readSignedBitsBe64 m b len = readSignedBitsBe64 m' b len := by
  rw [readSignedBitsBe64, readSignedBitsBe64, readBitsBe64_eq, readBitsBe64_eq, bitsVal_congr h]

def peekBits (len : Nat) : BitReader Nat :=
  .peek len (fun m b => readBitsBe m b len) fun _ _ _ h => by
    rw [readBitsBe_eq, readBitsBe_eq, bitsVal_congr h]

def peekSignedBits (len : Nat) : BitReader Nat :=
  .peek len (fun m b => readSignedBitsBe m b len) fun _ _ _ h => readSignedBitsBe_congr h

def takeBits (len : Nat) : BitReader Nat := do
  let raw ← peekBits len
  BitReader.skip len
  return raw

def takeSignedBits (len : Nat) : BitReader Nat := do
  let raw ← peekSignedBits len
  BitReader.skip len
  return raw

def takeBits64 (len : Nat) : BitReader Nat := do
  let raw ← .peek len (fun m b => readBitsBe64 m b len) fun _ _ _ h => by
    rw [readBitsBe64_eq, readBitsBe64_eq, bitsVal_congr h]
  BitReader.skip len
  return raw

def takeSignedBits64 (len : Nat) : BitReader Int := do
  let raw ← .peek len (fun m b => readSignedBitsBe64 m b len) fun _ _ _ h =>
    readSignedBitsBe64_congr h
  BitReader.skip len
  return raw

/-- `memcpy(out->head, payload, len)` with `bit += 8 * len`. -/
def takeHead (len : Nat) : BitReader (List UInt8) := do
  let head ← .headBytes len
  BitReader.skip (8 * len)
  return head

section Runs

variable (m : Mem) (b len : Nat)

@[simp] theorem run_skip :
    (BitReader.skip len : BitReader PUnit).run m b = ⟨⟨⟩, b + len, []⟩ := rfl

@[simp] theorem run_peekBits :
    (peekBits len).run m b = ⟨readBitsBe m b len, b, [(b, len)]⟩ := rfl

@[simp] theorem run_peekSignedBits :
    (peekSignedBits len).run m b = ⟨readSignedBitsBe m b len, b, [(b, len)]⟩ := rfl

@[simp] theorem run_takeBits :
    (takeBits len).run m b = ⟨readBitsBe m b len, b + len, [(b, len)]⟩ := rfl

@[simp] theorem run_takeSignedBits :
    (takeSignedBits len).run m b = ⟨readSignedBitsBe m b len, b + len, [(b, len)]⟩ := rfl

@[simp] theorem run_takeBits64 :
    (takeBits64 len).run m b = ⟨readBitsBe64 m b len, b + len, [(b, len)]⟩ := rfl

@[simp] theorem run_takeSignedBits64 :
    (takeSignedBits64 len).run m b = ⟨readSignedBitsBe64 m b len, b + len, [(b, len)]⟩ := rfl

@[simp] theorem run_takeHead :
    (takeHead len).run m b = ⟨m.bytes 0 len, b + 8 * len, [(0, 8 * len)]⟩ := rfl

end Runs

theorem forward_skip (len : Nat) : BitReader.Forward (BitReader.skip len : BitReader PUnit) :=
  fun _ b => ⟨Nat.le_add_right b len, fun _ h => by cases h⟩

theorem forward_takeHead (len : Nat) : (takeHead len).Forward :=
  fun _ b => ⟨Nat.le_add_right b (8 * len), fun r h => by
    rw [List.mem_singleton.mp h]
    exact Nat.add_le_add_right b.zero_le _⟩

theorem forward_takeBits (len : Nat) : (takeBits len).Forward :=
  fun _ b => ⟨Nat.le_add_right b len, fun r h => by rw [List.mem_singleton.mp h]; rfl⟩

theorem forward_takeSignedBits (len : Nat) : (takeSignedBits len).Forward :=
  fun _ b => ⟨Nat.le_add_right b len, fun r h => by rw [List.mem_singleton.mp h]; rfl⟩

end Ok3506.Gnss
