import Ok3506.Lib.Memory
import Mathlib.Algebra.Order.Ring.Nat
import Mathlib.Tactic.Ring
import Mathlib.Tactic.IntervalCases
import Mathlib.Data.List.Forall2
import Mathlib.Data.List.GetD

/-!
Big-endian bit fields of a byte memory.

Bit `k` of a memory is bit `7 - k % 8` of byte `k / 8`, so bits are numbered in
transmission order. `bitsVal` is the integer a field spells most significant
bit first, `toSigned` its two's-complement reading. `packFields` concatenates
fields and `byteList` cuts the bits into bytes; `readFields_pack` says that
consecutive reads invert them.
-/

namespace Ok3506.Bits

open Mem

/-- Bit `k` in transmission order. -/
def bitAt (m : Mem) (k : Nat) : Bool := (m (k / 8)).toNat.testBit (7 - k % 8)

/-- The integer spelled by the `w` bits at `off`, most significant first. -/
def bitsVal (m : Mem) (off : Nat) : Nat → Nat
  | 0 => 0
  | w + 1 => 2 * bitsVal m off w + (bitAt m (off + w)).toNat

/-- The two's-complement value of a `w`-bit field. -/
def toSigned (w n : Nat) : Int := if 2 * n < 2 ^ w then n else (n : Int) - 2 ^ w

/-! ### Integer conversions -/

/-- Conversion to `uint8_t`. -/
def uint8 (n : Nat) : Nat := n % 2 ^ 8

/-- Conversion to `uint16_t`. -/
def uint16 (n : Nat) : Nat := n % 2 ^ 16

/-- Conversion to `uint32_t`. -/
def uint32 (n : Nat) : Nat := n % 2 ^ 32

/-- Conversion to `size_t`. -/
def sizeT (n : Nat) : Nat := n % 2 ^ 64

/-- Conversion to `int8_t`. -/
def int8 (n : Nat) : Int := toSigned 8 (n % 2 ^ 8)

/-- Conversion to `int16_t`. -/
def int16 (n : Nat) : Int := toSigned 16 (n % 2 ^ 16)

/-- Conversion to `int32_t`. -/
def int32 (n : Nat) : Int := toSigned 32 (n % 2 ^ 32)

/-- Conversion to `int64_t`. -/
def int64 (n : Nat) : Int := toSigned 64 (n % 2 ^ 64)

/-! ### Values of fields -/

theorem bitsVal_lt (m : Mem) (off w : Nat) : bitsVal m off w < 2 ^ w := by
  induction w with
  | zero => simp [bitsVal]
  | succ w ih =>
      have hb := Bool.toNat_lt (bitAt m (off + w))
      rw [bitsVal, Nat.pow_succ]
      omega

/-- A field is determined by its own bits. -/
theorem bitsVal_congr {m m' : Mem} {off off' w : Nat}
    (h : ∀ k < w, bitAt m (off + k) = bitAt m' (off' + k)) :
    bitsVal m off w = bitsVal m' off' w := by
  induction w with
  | zero => rfl
  | succ w ih =>
      rw [bitsVal, bitsVal, ih fun k hk => h k (by omega), h w (by omega)]

/-- A field determines its own bits. -/
theorem bitsVal_inj {m m' : Mem} {off off' w : Nat}
    (h : bitsVal m off w = bitsVal m' off' w) :
    ∀ k < w, bitAt m (off + k) = bitAt m' (off' + k) := by
  induction w with
  | zero => intro k hk; omega
  | succ w ih =>
      rw [bitsVal, bitsVal] at h
      have hb := Bool.toNat_lt (bitAt m (off + w))
      have hb' := Bool.toNat_lt (bitAt m' (off' + w))
      have high : bitsVal m off w = bitsVal m' off' w := by omega
      have low : (bitAt m (off + w)).toNat = (bitAt m' (off' + w)).toNat := by omega
      intro k hk
      rcases Nat.lt_succ_iff_lt_or_eq.mp hk with hk | rfl
      · exact ih high k hk
      · cases hc : bitAt m (off + k) <;> cases hc' : bitAt m' (off' + k) <;> simp_all

/-- A field is its first `a` bits followed by the next `b`. -/
theorem bitsVal_add (m : Mem) (off a b : Nat) :
    bitsVal m off (a + b) = bitsVal m off a * 2 ^ b + bitsVal m (off + a) b := by
  induction b with
  | zero => simp [bitsVal]
  | succ b ih =>
      rw [← Nat.add_assoc, bitsVal, ih, bitsVal, Nat.pow_succ, Nat.add_assoc off]
      ring

/-- A memory whose bits are those of `r` spells `r`. -/
theorem bitsVal_eq_of_testBit {m : Mem} {off w r : Nat} (lt : r < 2 ^ w)
    (h : ∀ k < w, bitAt m (off + k) = r.testBit (w - 1 - k)) : bitsVal m off w = r := by
  induction w generalizing r with
  | zero => exact (Nat.lt_one_iff.mp lt).symm
  | succ w ih =>
      have high : bitsVal m off w = r / 2 := by
        apply ih
        · rw [Nat.pow_succ] at lt
          omega
        · intro k hk
          rw [h k (by omega), Nat.testBit_div_two]
          congr 1
          omega
      have low : (bitAt m (off + w)).toNat = r % 2 := by
        rw [h w (by omega), Nat.add_sub_cancel, Nat.sub_self, Nat.testBit_zero]
        rcases Nat.mod_two_eq_zero_or_one r with hr | hr <;> simp [hr]
      rw [bitsVal, high, low]
      omega

/-- The bits of a field, counted from its end. -/
theorem testBit_bitsVal (m : Mem) (off : Nat) {w k : Nat} (h : k < w) :
    (bitsVal m off w).testBit k = bitAt m (off + (w - 1 - k)) := by
  induction w generalizing k with
  | zero => omega
  | succ w ih =>
      have low := Bool.toNat_lt (bitAt m (off + w))
      rw [bitsVal]
      cases k with
      | zero =>
          rw [Nat.testBit_zero, Nat.add_sub_cancel, Nat.sub_zero]
          cases bitAt m (off + w) <;> simp
      | succ k =>
          have half : (2 * bitsVal m off w + (bitAt m (off + w)).toNat) / 2 = bitsVal m off w := by
            omega
          have place : w + 1 - 1 - (k + 1) = w - 1 - k := by omega
          rw [Nat.testBit_succ, half, ih (by omega), place]

/-- A byte as a field. -/
theorem bitsVal_byte (m : Mem) (k : Nat) : bitsVal m (8 * k) 8 = (m k).toNat := by
  apply bitsVal_eq_of_testBit (m k).toNat_lt
  intro j hj
  have byte : (8 * k + j) / 8 = k := by omega
  have place : (8 * k + j) % 8 = j := by omega
  rw [bitAt, byte, place]

/-- Bytes with the same bits are the same. -/
theorem byte_eq_of_bitAt {m m' : Mem} {k : Nat}
    (h : ∀ j < 8, bitAt m (8 * k + j) = bitAt m' (8 * k + j)) : m k = m' k := by
  apply UInt8.toNat_inj.mp
  rw [← bitsVal_byte, ← bitsVal_byte, bitsVal_congr h]

/-- The leading bit of a field is its sign. -/
theorem bitAt_eq_decide_le (m : Mem) (off w : Nat) :
    bitAt m off = decide (2 ^ w ≤ bitsVal m off (w + 1)) := by
  have split := bitsVal_add m off 1 w
  have hlt := bitsVal_lt m (off + 1) w
  rw [Nat.add_comm w 1, split]
  cases h : bitAt m off with
  | false =>
      have : bitsVal m off 1 = 0 := by simp [bitsVal, h]
      simp [this, hlt]
  | true =>
      have : bitsVal m off 1 = 1 := by simp [bitsVal, h]
      simp [this]

theorem bitAt_eq_false_iff (m : Mem) (off : Nat) {w : Nat} (pos : 0 < w) :
    bitAt m off = false ↔ 2 * bitsVal m off w < 2 ^ w := by
  obtain ⟨v, rfl⟩ := Nat.exists_eq_succ_of_ne_zero pos.ne'
  rw [bitAt_eq_decide_le m off v, decide_eq_false_iff_not, Nat.succ_eq_add_one, Nat.pow_succ]
  omega

/-! ### Two's complement -/

theorem toSigned_of_lt {w n : Nat} (h : 2 * n < 2 ^ w) : toSigned w n = n := if_pos h

theorem toSigned_of_ge {w n : Nat} (h : 2 ^ w ≤ 2 * n) : toSigned w n = (n : Int) - 2 ^ w :=
  if_neg (Nat.not_lt.mpr h)

theorem toInt_eq_toSigned {w : Nat} (x : BitVec w) : x.toInt = toSigned w x.toNat := by
  rw [BitVec.toInt_eq_toNat_cond, toSigned]
  norm_cast

theorem toSigned_eq_self {w n : Nat} : toSigned w n = n ↔ 2 * n < 2 ^ w := by
  refine ⟨fun same => ?_, toSigned_of_lt⟩
  by_contra ge
  have pos : (0 : Int) < 2 ^ w := by positivity
  rw [toSigned_of_ge (Nat.not_lt.mp ge)] at same
  omega

/-- The signed reading loses nothing of a `w`-bit field. -/
theorem toSigned_inj {w n n' : Nat} (h : n < 2 ^ w) (h' : n' < 2 ^ w)
    (e : toSigned w n = toSigned w n') : n = n' := by
  have cast : ((2 ^ w : Nat) : Int) = (2 : Int) ^ w := by push_cast; rfl
  unfold toSigned at e
  split at e <;> split at e <;> omega

/-- Only the zero field denotes zero. -/
theorem toSigned_eq_zero {w n : Nat} (h : n < 2 ^ w) : toSigned w n = 0 ↔ n = 0 := by
  constructor
  · intro e
    exact toSigned_inj h (Nat.two_pow_pos w) (e.trans (by simp [toSigned]))
  · rintro rfl
    simp [toSigned]

/-- The range of a signed field. -/
theorem toSigned_bounds {w n : Nat} (h : n < 2 ^ (w + 1)) :
    -2 ^ w ≤ toSigned (w + 1) n ∧ toSigned (w + 1) n < 2 ^ w := by
  have cast : ((2 ^ w : Nat) : Int) = (2 : Int) ^ w := by push_cast; rfl
  rw [toSigned, pow_succ]
  rw [Nat.pow_succ] at h
  split <;> omega

/-- Setting the bit above a number adds its weight. -/
theorem xor_two_pow_of_lt {w r : Nat} (h : r < 2 ^ w) : r ^^^ 2 ^ w = r + 2 ^ w := by
  have sum := Nat.shiftLeft_add_eq_or_of_lt h 1
  rw [Nat.shiftLeft_eq, Nat.one_mul] at sum
  rw [Nat.add_comm, sum]
  apply Nat.eq_of_testBit_eq
  intro i
  simp only [Nat.testBit_xor, Nat.testBit_or, Nat.testBit_two_pow]
  by_cases hi : w = i
  · subst hi
    simp [Nat.testBit_lt_two_pow h]
  · simp [hi]

/-- Flipping the sign bit of a `w + 1`-bit field and subtracting its weight
modulo `2 ^ n` extends the sign to `n` bits. -/
theorem xor_sub_signBit {w n r : Nat} (hr : r < 2 ^ (w + 1)) (hn : w < n) :
    ((r ^^^ 2 ^ w) + 2 ^ n - 2 ^ w) % 2 ^ n =
      if 2 * r < 2 ^ (w + 1) then r else r + 2 ^ n - 2 ^ (w + 1) := by
  have hw : 2 ^ (w + 1) ≤ 2 ^ n := Nat.pow_le_pow_right (by omega) hn
  rw [Nat.pow_succ] at hr hw ⊢
  by_cases h : r < 2 ^ w
  · rw [xor_two_pow_of_lt h, if_pos (by omega), Nat.mod_eq_sub_mod (by omega),
      Nat.mod_eq_of_lt (by omega)]
    omega
  · obtain ⟨s, rfl⟩ := Nat.exists_eq_add_of_le' (Nat.not_lt.mp h)
    have hs : s < 2 ^ w := by omega
    rw [← xor_two_pow_of_lt hs, Nat.xor_assoc, Nat.xor_self, Nat.xor_zero,
      xor_two_pow_of_lt hs, if_neg (by omega), Nat.mod_eq_of_lt (by omega)]
    omega

/-! ### Packing consecutive fields -/

/-- The bits of a raw value, most significant first. -/
def bitsOf (w r : Nat) : List Bool := (List.range w).map fun k => r.testBit (w - 1 - k)

/-- Consecutive fields, one raw value for each width. -/
def packFields (ws rs : List Nat) : List Bool := (List.zipWith bitsOf ws rs).flatten

/-- One raw value of the right size for each width. -/
structure Raws (ws : List Nat) where
  vals : List Nat
  fits : List.Forall₂ (fun w r => r < 2 ^ w) ws vals

/-- The byte with the given bits, most significant first. -/
def byteOfBits (f : Nat → Bool) : UInt8 :=
  UInt8.ofNat ((List.range 8).foldl (fun v k => 2 * v + (f k).toNat) 0)

/-- The whole bytes of a bit string. -/
def byteList (bits : List Bool) : List UInt8 :=
  (List.range (bits.length / 8)).map fun k => byteOfBits fun j => bits.getD (8 * k + j) false

/-- Consecutive fields of the given widths, read from `off` on. -/
def readFields (m : Mem) : Nat → List Nat → List Nat
  | _, [] => []
  | off, w :: ws => bitsVal m off w :: readFields m (off + w) ws

@[simp] theorem bitsOf_length (w r : Nat) : (bitsOf w r).length = w := by simp [bitsOf]

theorem packFields_cons (w r : Nat) (ws rs : List Nat) :
    packFields (w :: ws) (r :: rs) = bitsOf w r ++ packFields ws rs := by
  simp [packFields]

theorem packFields_length {ws rs : List Nat} (h : List.Forall₂ (fun w r => r < 2 ^ w) ws rs) :
    (packFields ws rs).length = ws.sum := by
  induction h with
  | nil => rfl
  | cons _ _ ih => rw [packFields_cons, List.length_append, bitsOf_length, ih, List.sum_cons]

/-- The fields of any memory fit their widths. -/
theorem readFields_fits (m : Mem) (off : Nat) (ws : List Nat) :
    List.Forall₂ (fun w r => r < 2 ^ w) ws (readFields m off ws) := by
  induction ws generalizing off with
  | nil => exact .nil
  | cons w ws ih => exact .cons (bitsVal_lt m off w) (ih (off + w))

/-- A memory that carries packed fields reads back their raw values. -/
theorem readFields_of_pack {m : Mem} {off : Nat} {ws rs : List Nat}
    (fits : List.Forall₂ (fun w r => r < 2 ^ w) ws rs)
    (h : ∀ k < ws.sum, bitAt m (off + k) = (packFields ws rs).getD k false) :
    readFields m off ws = rs := by
  induction fits generalizing off with
  | nil => rfl
  | @cons w r ws rs lt _ ih =>
      rw [packFields_cons] at h
      have first : bitsVal m off w = r := by
        apply bitsVal_eq_of_testBit lt
        intro k hk
        rw [h k (by rw [List.sum_cons]; omega), List.getD_append _ _ _ _ (by simpa using hk)]
        simp [bitsOf, hk]
      have rest : readFields m (off + w) ws = rs := by
        apply ih
        intro k hk
        rw [Nat.add_assoc, h (w + k) (by rw [List.sum_cons]; omega),
          List.getD_append_right _ _ _ _ (by simp)]
        simp
      rw [readFields, first, rest]

/-- The memory carries a bit string from `off` on. -/
def Spells (m : Mem) (off : Nat) (bits : List Bool) : Prop :=
  ∀ k < bits.length, bitAt m (off + k) = bits.getD k false

theorem spells_append {m : Mem} {off : Nat} {xs ys : List Bool} :
    Spells m off (xs ++ ys) ↔ Spells m off xs ∧ Spells m (off + xs.length) ys := by
  constructor
  · intro h
    constructor
    · intro k hk
      rw [h k (by rw [List.length_append]; omega), List.getD_append _ _ _ _ hk]
    · intro k hk
      rw [Nat.add_assoc, h (xs.length + k) (by rw [List.length_append]; omega),
        List.getD_append_right _ _ _ _ (Nat.le_add_right _ _), Nat.add_sub_cancel_left]
  · rintro ⟨first, second⟩ k hk
    rw [List.length_append] at hk
    by_cases inside : k < xs.length
    · rw [first k inside, List.getD_append _ _ _ _ inside]
    · have later := second (k - xs.length) (by omega)
      rwa [Nat.add_assoc, Nat.add_sub_cancel' (Nat.not_lt.mp inside),
        ← List.getD_append_right _ _ _ _ (Nat.not_lt.mp inside)] at later

/-- Fields are read back where their bits stand. -/
theorem Spells.readFields {m : Mem} {off : Nat} {ws rs : List Nat}
    (h : Spells m off (packFields ws rs)) (fits : List.Forall₂ (fun w r => r < 2 ^ w) ws rs) :
    readFields m off ws = rs :=
  readFields_of_pack fits fun k hk => h k (by rwa [packFields_length fits])

/-- Equal field values mean equal bits. -/
theorem readFields_inj {m m' : Mem} {off off' : Nat} {ws : List Nat}
    (h : readFields m off ws = readFields m' off' ws) :
    ∀ k < ws.sum, bitAt m (off + k) = bitAt m' (off' + k) := by
  induction ws generalizing off off' with
  | nil => intro k hk; simp at hk
  | cons w ws ih =>
      obtain ⟨first, rest⟩ := List.cons.inj h
      intro k hk
      rw [List.sum_cons] at hk
      by_cases hw : k < w
      · exact bitsVal_inj first k hw
      · have tail := ih rest (k - w) (by omega)
        rwa [Nat.add_assoc, Nat.add_assoc, Nat.add_sub_cancel' (Nat.not_lt.mp hw)] at tail

theorem testBit_byteOfBits (f : Nat → Bool) {k : Nat} (h : k < 8) :
    (byteOfBits f).toNat.testBit (7 - k) = f k := by
  have all : ∀ b0 b1 b2 b3 b4 b5 b6 b7 : Bool,
      ∀ k : Fin 8, (UInt8.ofNat (List.foldl (fun (v : Nat) (b : Bool) => 2 * v + b.toNat) 0
        [b0, b1, b2, b3, b4, b5, b6, b7])).toNat.testBit (7 - k) =
          [b0, b1, b2, b3, b4, b5, b6, b7].getD k false := by
    decide +kernel
  have here := all (f 0) (f 1) (f 2) (f 3) (f 4) (f 5) (f 6) (f 7) ⟨k, h⟩
  have lookup : [f 0, f 1, f 2, f 3, f 4, f 5, f 6, f 7].getD k false = f k := by
    interval_cases k <;> rfl
  rw [← lookup, ← here]
  rfl

/-- The memory whose `w` bits at `off` spell `raw`, all others clear. -/
def spelling (off w raw : Nat) : Mem := fun k => byteOfBits fun j =>
  decide (off ≤ 8 * k + j ∧ 8 * k + j < off + w) && raw.testBit (w - 1 - (8 * k + j - off))

theorem bitsVal_spelling {off w raw : Nat} (lt : raw < 2 ^ w) :
    bitsVal (spelling off w raw) off w = raw := by
  apply bitsVal_eq_of_testBit lt
  intro k hk
  have bit := testBit_byteOfBits (fun j =>
    decide (off ≤ 8 * ((off + k) / 8) + j ∧ 8 * ((off + k) / 8) + j < off + w) &&
      raw.testBit (w - 1 - (8 * ((off + k) / 8) + j - off))) (Nat.mod_lt (off + k) (by omega))
  rw [bitAt, spelling, bit, Nat.div_add_mod, Nat.add_sub_cancel_left]
  simp [hk]

theorem bitAt_shift (m : Mem) (p k : Nat) : bitAt (shift m p) k = bitAt m (8 * p + k) := by
  have hdiv : (8 * p + k) / 8 = p + k / 8 := by omega
  have hmod : (8 * p + k) % 8 = k % 8 := by omega
  rw [bitAt, bitAt, hdiv, hmod, shift_apply]

theorem shift_ofList_append (a b : List UInt8) (rest : Mem) :
    shift (ofList (a ++ b) rest) a.length = ofList b (shift rest a.length) := by
  funext k
  simp only [shift_apply, ofList]
  rw [List.getD_append_right _ _ _ _ (Nat.le_add_right _ _), Nat.add_sub_cancel_left]

/-- The bits of the bytes cut from a bit string are the string's. -/
theorem bitAt_byteList {bits : List Bool} (rest : Mem) {k : Nat} (h : k < 8 * (bits.length / 8)) :
    bitAt (ofList (byteList bits) rest) k = bits.getD k false := by
  have hk : k / 8 < (byteList bits).length := by
    simp only [byteList, List.length_map, List.length_range]
    omega
  rw [bitAt, ofList_apply_lt rest hk]
  simp only [byteList, List.getElem_map, List.getElem_range]
  rw [testBit_byteOfBits _ (Nat.mod_lt k (by omega)), Nat.div_add_mod]

/-- The bytes cut from a bit string carry it, behind a head and whatever follows. -/
theorem spells_byteList {bits : List Bool} (whole : 8 ∣ bits.length) (head : List UInt8)
    (rest : Mem) : Spells (ofList (head ++ byteList bits) rest) (8 * head.length) bits := by
  intro k hk
  rw [← bitAt_shift, shift_ofList_append, bitAt_byteList]
  omega

/-- **Reading inverts packing.** The fields packed behind a head of whole bytes
are read back, whatever follows them. -/
theorem readFields_pack {ws : List Nat} (rs : Raws ws) (whole : 8 ∣ ws.sum)
    (head : List UInt8) (rest : Mem) :
    readFields (ofList (head ++ byteList (packFields ws rs.vals)) rest) (8 * head.length) ws =
      rs.vals := by
  have spelled := spells_byteList ((packFields_length rs.fits).symm ▸ whole) head rest
  exact spelled.readFields rs.fits

end Ok3506.Bits
