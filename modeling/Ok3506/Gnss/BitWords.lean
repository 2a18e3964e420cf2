import Ok3506.Gnss.BitFields

/-!
The bit readers over machine words.

The decoders' readers accumulate a field in a natural number. Here the
accumulator is the word of the source: 32 bits in `read_bits_be`, 64 in
`read_bits_be64`, and the sign extension is the word arithmetic
`(raw ^ sign_bit) - sign_bit`. No bit is shifted out of a word that the field
fits, so words and numbers agree.
-/

namespace Ok3506.Gnss

open Mem Bits

/-- The loop of the readers over an accumulator of `n` bits. -/
def readWord (n : Nat) (buf : Mem) (bitOffset bitLen : Nat) : BitVec n :=
  (List.range bitLen).foldl (fun value bit =>
    let idx := bitOffset + bit
    if (buf (idx / 8)).toNat &&& (1 <<< (7 - idx % 8)) ≠ 0 then
      value ||| (1#n <<< (bitLen - 1 - bit))
    else value) 0

/-- The signed readers over `n` bits: flip the sign bit and subtract its weight. -/
def readSignedWord (n : Nat) (buf : Mem) (bitOffset bitLen : Nat) : BitVec n :=
  let raw := readWord n buf bitOffset bitLen
  if bitLen = n then raw
  else
    let signBit := 1#n <<< (bitLen - 1)
    (raw ^^^ signBit) - signBit

/-- `read_bits_be` over `uint32_t`. -/
def readBitsBeWord : Mem → Nat → Nat → BitVec 32 := readWord 32

/-- `read_bits_be64` over `uint64_t`. -/
def readBitsBe64Word : Mem → Nat → Nat → BitVec 64 := readWord 64

/-- `read_signed_bits_be`, as the `uint32_t` it returns. -/
def readSignedBitsBeWord : Mem → Nat → Nat → BitVec 32 := readSignedWord 32

/-- `read_signed_bits_be64`, as the bits of its `int64_t`. -/
def readSignedBitsBe64Word : Mem → Nat → Nat → BitVec 64 := readSignedWord 64

/-- One bit of a word. -/
theorem toNat_one_shiftLeft {n k : Nat} (h : k < n) : (1#n <<< k).toNat = 1 <<< k := by
  have pos : 1 < 2 ^ n := Nat.one_lt_two_pow (by omega)
  have lt : 2 ^ k < 2 ^ n := Nat.pow_lt_pow_right (by omega) h
  rw [BitVec.toNat_shiftLeft, BitVec.toNat_ofNat, Nat.mod_eq_of_lt pos, Nat.one_shiftLeft,
    Nat.mod_eq_of_lt lt]

/-- Words and numbers accumulate the same field. -/
theorem toNat_readWord {n : Nat} (buf : Mem) (off : Nat) {w : Nat} (fits : w ≤ n) :
    (readWord n buf off w).toNat = readBitsBe buf off w := by
  rcases Nat.eq_zero_or_pos w with rfl | pos
  · rfl
  rw [readWord, readBitsBe]
  refine (List.foldl_hom BitVec.toNat fun value bit => ?_).symm
  have inside : w - 1 - bit < n := by omega
  dsimp only
  split
  · rw [BitVec.toNat_or, toNat_one_shiftLeft inside]
  · rfl

/-- A word is the integer its bits spell. -/
theorem toNat_readWord_eq {n : Nat} (buf : Mem) (off : Nat) {w : Nat} (fits : w ≤ n) :
    (readWord n buf off w).toNat = bitsVal buf off w := by
  rw [toNat_readWord buf off fits, readBitsBe_eq]

/-- Two reads one behind the other are one read. -/
theorem toNat_readWord_add {n : Nat} (buf : Mem) (off : Nat) {a b : Nat} (fits : a + b ≤ n) :
    (readWord n buf off (a + b)).toNat =
      (readWord n buf off a).toNat * 2 ^ b + (readWord n buf (off + a) b).toNat := by
  rw [toNat_readWord_eq buf off fits, toNat_readWord_eq buf off (by omega),
    toNat_readWord_eq buf (off + a) (by omega), bitsVal_add]

/-- Words and numbers extend the sign in the same way. -/
theorem toNat_readSignedWord {n : Nat} (buf : Mem) (off : Nat) {w : Nat} (pos : 0 < w)
    (fits : w ≤ n) :
    (readSignedWord n buf off w).toNat =
      if w = n then readBitsBe buf off w
      else ((readBitsBe buf off w ^^^ 1 <<< (w - 1)) + 2 ^ n - 1 <<< (w - 1)) % 2 ^ n := by
  have raw := toNat_readWord buf off fits
  rw [readSignedWord]
  split
  case isTrue => exact raw
  case isFalse part =>
    have bit : (1#n <<< (w - 1)).toNat = 1 <<< (w - 1) := toNat_one_shiftLeft (by omega)
    have small : 1 <<< (w - 1) < 2 ^ n := by
      rw [Nat.one_shiftLeft]
      exact Nat.pow_lt_pow_right (by omega) (by omega)
    have reorder : 2 ^ n - 1 <<< (w - 1) + (readBitsBe buf off w ^^^ 1 <<< (w - 1)) =
        (readBitsBe buf off w ^^^ 1 <<< (w - 1)) + 2 ^ n - 1 <<< (w - 1) := by omega
    rw [BitVec.toNat_sub, BitVec.toNat_xor, bit, raw, reorder]

/-- The signed reader of the decoders, as a word. -/
theorem toNat_readSignedBitsBeWord (buf : Mem) (off : Nat) {w : Nat} (pos : 0 < w)
    (fits : w ≤ 32) : (readSignedBitsBeWord buf off w).toNat = readSignedBitsBe buf off w :=
  toNat_readSignedWord buf off pos fits

/-- The sign extension in the word. -/
theorem toInt_readSignedWord {n : Nat} (buf : Mem) (off : Nat) {w : Nat} (pos : 0 < w)
    (fits : w ≤ n) :
    (readSignedWord n buf off w).toInt = toSigned w (bitsVal buf off w) := by
  have lt := bitsVal_lt buf off w
  rw [toInt_eq_toSigned, toNat_readSignedWord buf off pos fits, readBitsBe_eq]
  split
  case isTrue full => rw [full]
  case isFalse part =>
    obtain ⟨v, rfl⟩ := Nat.exists_eq_succ_of_ne_zero pos.ne'
    rw [Nat.succ_sub_one, Nat.one_shiftLeft]
    exact toSigned_extend lt (by omega)

/-- The 64-bit signed reader of the decoders, as a word. -/
theorem toInt_readSignedBitsBe64Word (buf : Mem) (off : Nat) {w : Nat} (pos : 0 < w)
    (fits : w ≤ 64) : (readSignedBitsBe64Word buf off w).toInt = readSignedBitsBe64 buf off w := by
  rw [readSignedBitsBe64_eq buf off pos fits]
  exact toInt_readSignedWord buf off pos fits

/-- `r` is the integer whose binary digits, most significant first, are the `w`
bits at `off`. -/
def IsField (buf : Mem) (off w r : Nat) : Prop :=
  r < 2 ^ w ∧ ∀ k < w, r.testBit (w - 1 - k) = bitAt buf (off + k)

theorem isField_bitsVal (buf : Mem) (off w : Nat) : IsField buf off w (bitsVal buf off w) := by
  refine ⟨bitsVal_lt buf off w, fun k hk => ?_⟩
  have place : w - 1 - (w - 1 - k) = k := by omega
  rw [testBit_bitsVal buf off (by omega), place]

/-- The digits determine the integer. -/
theorem isField_iff {buf : Mem} {off w r : Nat} : IsField buf off w r ↔ r = bitsVal buf off w := by
  constructor
  · rintro ⟨lt, digits⟩
    exact (bitsVal_eq_of_testBit lt fun k hk => (digits k hk).symm).symm
  · rintro rfl
    exact isField_bitsVal buf off w

/-- **The bit readers compute the specified integers**: fields of up to 32 and 64
bits, unsigned and in two's complement, and a field is its parts put together. -/
theorem bitReaders_correct (buf : Mem) (off w : Nat) :
    (w ≤ 32 → IsField buf off w (readBitsBeWord buf off w).toNat) ∧
      (w ≤ 64 → IsField buf off w (readBitsBe64Word buf off w).toNat) ∧
      (w ≤ 32 → (readBitsBeWord buf off w).toNat = (readBitsBe64Word buf off w).toNat) ∧
      (∀ v, w + v ≤ 32 → (readBitsBeWord buf off (w + v)).toNat =
        (readBitsBeWord buf off w).toNat * 2 ^ v + (readBitsBeWord buf (off + w) v).toNat) ∧
      (∀ v, w + v ≤ 64 → (readBitsBe64Word buf off (w + v)).toNat =
        (readBitsBe64Word buf off w).toNat * 2 ^ v + (readBitsBe64Word buf (off + w) v).toNat) ∧
      (1 ≤ w → w ≤ 64 →
        (readSignedBitsBe64Word buf off w).toInt = toSigned w (bitsVal buf off w)) ∧
      (1 ≤ w → w ≤ 32 →
        (readSignedBitsBeWord buf off w).toInt = toSigned w (bitsVal buf off w)) := by
  refine ⟨fun fits => ?_, fun fits => ?_, fun fits => ?_, fun v => ?_, fun v => ?_, ?_, ?_⟩
  · exact isField_iff.mpr (toNat_readWord_eq buf off fits)
  · exact isField_iff.mpr (toNat_readWord_eq buf off fits)
  · exact (toNat_readWord_eq buf off fits).trans
      (toNat_readWord_eq buf off (by omega)).symm
  · exact toNat_readWord_add buf off
  · exact toNat_readWord_add buf off
  · exact toInt_readSignedWord buf off
  · exact toInt_readSignedWord buf off

end Ok3506.Gnss
