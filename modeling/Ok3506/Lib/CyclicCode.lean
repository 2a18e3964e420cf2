import Mathlib.RingTheory.AdjoinRoot
import Mathlib.Algebra.Field.ZMod
import Mathlib.Data.Nat.Bitwise
import Mathlib.Tactic.Ring

/-!
Binary cyclic codes.

`binPoly n` is the polynomial over the field of two elements whose coefficients
are the bits of `n`: exclusive or is its sum, a left shift its product with a
power of `X`. `Generator.residue` is its class modulo a generator polynomial,
and `turn` the feedback shift register that multiplies a class by `X`. A
generator with a constant term divides no burst shorter than its own degree, so
a word of the code with a burst of errors is no word of the code. Nothing here
refers to a particular program.
-/

namespace Ok3506.CyclicCode

open Polynomial

/-! ### Bursts -/

/-- A polynomial with a constant term divides no shifted polynomial of smaller
degree. -/
theorem not_dvd_burst {K : Type*} [Field K] {g w : K[X]} (const : g.coeff 0 ≠ 0) (nonzero : w ≠ 0)
    (short : w.degree < g.degree) (a : Nat) : ¬ g ∣ X ^ a * w := by
  intro dvd
  have coprime : IsCoprime X g := irreducible_X.coprime_iff_not_dvd.mpr (mt X_dvd_iff.mp const)
  have rest : g ∣ w := coprime.symm.pow_right.dvd_of_dvd_mul_left dvd
  exact nonzero (eq_zero_of_dvd_of_degree_lt rest short)

/-! ### Numbers as polynomials -/

/-- The polynomial whose coefficients are the bits of `n`. -/
noncomputable def binPoly (n : Nat) : (ZMod 2)[X] :=
  ∑ i ∈ Finset.range n with n.testBit i, X ^ i

theorem coeff_binPoly (n i : Nat) : (binPoly n).coeff i = if n.testBit i then 1 else 0 := by
  have small : n.testBit i → i < n := fun bit =>
    Nat.lt_two_pow_self.trans_le (Nat.ge_two_pow_of_testBit bit)
  simp only [binPoly, finsetSum_coeff, coeff_X_pow, Finset.sum_ite_eq, Finset.mem_filter,
    Finset.mem_range]
  split <;> split <;> simp_all

theorem binPoly_inj {a b : Nat} (h : binPoly a = binPoly b) : a = b := by
  apply Nat.eq_of_testBit_eq
  intro i
  have bits := congrArg (fun p => coeff p i) h
  simp only [coeff_binPoly] at bits
  cases ha : a.testBit i <;> cases hb : b.testBit i <;> simp_all

@[simp] theorem binPoly_zero : binPoly 0 = 0 := by simp [binPoly]

theorem binPoly_xor (a b : Nat) : binPoly (a ^^^ b) = binPoly a + binPoly b := by
  ext i
  rw [coeff_add, coeff_binPoly, coeff_binPoly, coeff_binPoly, Nat.testBit_xor]
  cases a.testBit i <;> cases b.testBit i <;> decide

/-- Appending `k` low bits. -/
theorem binPoly_append {r k : Nat} (h : r < 2 ^ k) (n : Nat) :
    binPoly (2 ^ k * n + r) = X ^ k * binPoly n + binPoly r := by
  ext i
  rw [coeff_add, coeff_X_pow_mul', coeff_binPoly, coeff_binPoly, coeff_binPoly,
    Nat.testBit_two_pow_mul_add n h]
  by_cases low : i < k
  · simp [low]
  · have high : r.testBit i = false :=
      Nat.testBit_lt_two_pow (h.trans_le (Nat.pow_le_pow_right (by omega) (by omega)))
    simp [low, high, Nat.not_lt.mp low]

theorem binPoly_shiftLeft (n k : Nat) : binPoly (n <<< k) = X ^ k * binPoly n := by
  have append := binPoly_append (Nat.two_pow_pos k) n
  rwa [binPoly_zero, Nat.add_zero, add_zero, Nat.mul_comm, ← Nat.shiftLeft_eq] at append

theorem degree_binPoly_lt {n k : Nat} (h : n < 2 ^ k) : (binPoly n).degree < k := by
  rw [degree_lt_iff_coeff_zero]
  intro i hi
  rw [coeff_binPoly, Nat.testBit_lt_two_pow (h.trans_le (Nat.pow_le_pow_right (by omega) hi))]
  simp

theorem le_degree_binPoly {n k : Nat} (h : 2 ^ k ≤ n) : (k : WithBot Nat) ≤ (binPoly n).degree := by
  obtain ⟨i, hi, bit⟩ := Nat.exists_ge_and_testBit_of_ge_two_pow h
  have lead : (i : WithBot Nat) ≤ (binPoly n).degree := by
    apply le_degree_of_ne_zero
    rw [coeff_binPoly, if_pos bit]
    exact one_ne_zero
  exact le_trans (by exact_mod_cast hi) lead

/-! ### Generators -/

/-- A generator polynomial of degree at least `width` with a constant term. -/
structure Generator where
  width : Nat
  taps : Nat
  lead : 2 ^ width ≤ taps
  const : taps.testBit 0 = true

namespace Generator

variable (G : Generator)

/-- The residue of a number modulo the generator. -/
noncomputable def residue (n : Nat) : AdjoinRoot (binPoly G.taps) := AdjoinRoot.mk _ (binPoly n)

/-- The residue of `X`. -/
noncomputable def x : AdjoinRoot (binPoly G.taps) := AdjoinRoot.root _

/-- One shift of the feedback register. -/
def turn (s : Nat) : Nat :=
  if (s <<< 1).testBit G.width then (s <<< 1) ^^^ G.taps else s <<< 1

theorem testBit_width (short : G.taps < 2 ^ (G.width + 1)) : G.taps.testBit G.width = true := by
  have quotient : G.taps / 2 ^ G.width = 1 := by
    rw [Nat.pow_succ] at short
    exact Nat.div_eq_of_lt_le (by rw [Nat.one_mul]; exact G.lead) (by omega)
  rw [Nat.testBit_eq_decide_div_mod_eq, quotient]
  rfl

@[simp] theorem residue_zero : G.residue 0 = 0 := by simp [residue]

theorem residue_xor (a b : Nat) : G.residue (a ^^^ b) = G.residue a + G.residue b := by
  rw [residue, binPoly_xor, map_add, residue, residue]

theorem residue_append {r k : Nat} (h : r < 2 ^ k) (n : Nat) :
    G.residue (2 ^ k * n + r) = G.x ^ k * G.residue n + G.residue r := by
  rw [residue, binPoly_append h, map_add, map_mul, map_pow, AdjoinRoot.mk_X, x, residue, residue]

theorem residue_shiftLeft (n k : Nat) : G.residue (n <<< k) = G.x ^ k * G.residue n := by
  rw [residue, binPoly_shiftLeft, map_mul, map_pow, AdjoinRoot.mk_X, x, residue]

/-- The register multiplies by `X`. -/
theorem residue_turn (s : Nat) : G.residue (G.turn s) = G.x * G.residue s := by
  have taps : G.residue G.taps = 0 := AdjoinRoot.mk_self
  rw [turn]
  split
  · rw [residue_xor, taps, add_zero, residue_shiftLeft, pow_one]
  · rw [residue_shiftLeft, pow_one]

theorem residue_turns (n s : Nat) : G.residue (G.turn^[n] s) = G.x ^ n * G.residue s := by
  induction n with
  | zero => rw [Function.iterate_zero, id_eq, pow_zero, one_mul]
  | succ n ih => rw [Function.iterate_succ_apply', residue_turn, ih, pow_succ', mul_assoc]

/-- One clock of the bit-serial divider: the register moves up, the next bit of the
message comes in above it, and the generator is subtracted from what leaves. -/
def clock (s : Nat) (bit : Bool) : Nat :=
  let t := (s <<< 1) ^^^ (bit.toNat <<< G.width)
  if t.testBit G.width then t ^^^ G.taps else t

theorem residue_clock (s : Nat) (bit : Bool) :
    G.residue (G.clock s bit) = G.x * G.residue s + G.x ^ G.width * G.residue bit.toNat := by
  have taps : G.residue G.taps = 0 := AdjoinRoot.mk_self
  have moved : G.residue ((s <<< 1) ^^^ (bit.toNat <<< G.width)) =
      G.x * G.residue s + G.x ^ G.width * G.residue bit.toNat := by
    rw [residue_xor, residue_shiftLeft, residue_shiftLeft, pow_one]
  rw [clock]
  split
  · rw [residue_xor, taps, add_zero, moved]
  · exact moved

/-- The divider stays within `width` bits. -/
theorem clock_lt (short : G.taps < 2 ^ (G.width + 1)) {s : Nat} (h : s < 2 ^ G.width)
    (bit : Bool) : G.clock s bit < 2 ^ G.width := by
  have double : s <<< 1 < 2 ^ (G.width + 1) := by
    rw [Nat.shiftLeft_eq, Nat.pow_succ]
    omega
  have incoming : bit.toNat <<< G.width < 2 ^ (G.width + 1) := by
    rw [Nat.shiftLeft_eq, Nat.pow_succ]
    cases bit <;> simp
  have wide := Nat.xor_lt_two_pow double incoming
  have leading : G.taps.testBit G.width = true := testBit_width G short
  -- what leaves the register at the top is cancelled by the leading term
  have cleared {t : Nat} (lt : t < 2 ^ (G.width + 1)) (top : t.testBit G.width = false) :
      t < 2 ^ G.width := by
    apply Nat.lt_pow_two_of_testBit
    intro i hi
    rcases Nat.eq_or_lt_of_le hi with rfl | above
    · exact top
    · exact Nat.testBit_lt_two_pow (lt.trans_le (Nat.pow_le_pow_right (by omega) above))
  rw [clock]
  split
  · rename_i top
    refine cleared (Nat.xor_lt_two_pow wide short) ?_
    rw [Nat.testBit_xor, top, leading, Bool.xor_self]
  · rename_i top
    exact cleared wide (Bool.eq_false_iff.mpr top)

/-- A burst of at most `width` bits is no word of the code. -/
theorem residue_burst_ne_zero {w : Nat} (pos : w ≠ 0) (lt : w < 2 ^ G.width) (a : Nat) :
    G.residue (w <<< a) ≠ 0 := by
  rw [residue, binPoly_shiftLeft, Ne, AdjoinRoot.mk_eq_zero]
  refine not_dvd_burst ?_ ?_ ?_ a
  · rw [coeff_binPoly, if_pos G.const]
    exact one_ne_zero
  · intro zero
    exact pos (binPoly_inj (zero.trans binPoly_zero.symm))
  · exact (degree_binPoly_lt lt).trans_le (le_degree_binPoly G.lead)

theorem residue_eq_zero_iff {n : Nat} (lt : n < 2 ^ G.width) : G.residue n = 0 ↔ n = 0 := by
  constructor
  · intro zero
    by_contra pos
    have burst := G.residue_burst_ne_zero pos lt 0
    rw [Nat.shiftLeft_zero] at burst
    exact burst zero
  · rintro rfl
    exact G.residue_zero

/-- Numbers below the generator are told apart by their residues. -/
theorem residue_inj {a b : Nat} (ha : a < 2 ^ G.width) (hb : b < 2 ^ G.width)
    (same : G.residue a = G.residue b) : a = b := by
  rw [← Nat.xor_eq_zero_iff, ← G.residue_eq_zero_iff (Nat.xor_lt_two_pow ha hb), residue_xor, same]
  rw [residue, ← map_add, ← binPoly_xor, Nat.xor_self, binPoly_zero, map_zero]

/-- A generator of degree `width` exactly is monic. -/
theorem monic (short : G.taps < 2 ^ (G.width + 1)) : (binPoly G.taps).Monic := by
  refine monic_of_degree_le G.width (Order.le_of_lt_succ ?_) ?_
  · exact_mod_cast degree_binPoly_lt short
  · rw [coeff_binPoly, if_pos (G.testBit_width short)]

/-- The number below the generator with the residue of `p` is the remainder of `p`. -/
theorem binPoly_eq_modByMonic (short : G.taps < 2 ^ (G.width + 1)) {c : Nat} {p : (ZMod 2)[X]}
    (hc : c < 2 ^ G.width) (same : G.residue c = AdjoinRoot.mk _ p) :
    binPoly c = p %ₘ binPoly G.taps := by
  have small : (binPoly c).degree < (binPoly G.taps).degree :=
    (degree_binPoly_lt hc).trans_le (le_degree_binPoly G.lead)
  have dvd : binPoly G.taps ∣ p - binPoly c := AdjoinRoot.mk_eq_mk.mp same.symm
  rw [modByMonic_eq_of_dvd_sub (G.monic short) dvd]
  exact ((modByMonic_eq_self_iff (G.monic short)).mpr small).symm

/-- A number and its checksum are a word of the code exactly when the checksum is
the residue of the shifted number. -/
theorem residue_check {n c r : Nat} (hc : c < 2 ^ G.width) (hr : r < 2 ^ G.width)
    (sum : G.residue c = G.x ^ G.width * G.residue n) :
    G.residue (2 ^ G.width * n + r) = 0 ↔ c = r := by
  rw [residue_append G hr, ← sum, ← residue_xor,
    G.residue_eq_zero_iff (Nat.xor_lt_two_pow hc hr), Nat.xor_eq_zero_iff]

end Generator

/-- The bits in which two numbers differ, all in `width` consecutive places, are
a shifted number of that width. -/
theorem xor_eq_shiftLeft {m n a k : Nat}
    (h : ∀ t, m.testBit t ≠ n.testBit t → a ≤ t ∧ t < a + k) :
    ∃ w < 2 ^ k, m ^^^ n = w <<< a := by
  refine ⟨(m ^^^ n) >>> a, ?_, ?_⟩
  · apply Nat.lt_pow_two_of_testBit
    intro i hi
    rw [Nat.testBit_shiftRight, Nat.testBit_xor, bne_eq_false_iff_eq]
    by_contra differ
    have := (h _ differ).2
    omega
  · apply Nat.eq_of_testBit_eq
    intro i
    rw [Nat.testBit_shiftLeft, Nat.testBit_shiftRight]
    by_cases hi : a ≤ i
    · simp [hi]
    · have same : m.testBit i = n.testBit i := by
        by_contra differ
        exact hi (h i differ).1
      simp [hi, same]

/-- **A word of the code with a burst of errors is no word of the code.** -/
theorem Generator.burst_detected (G : Generator) {m n a : Nat} (word : G.residue m = 0)
    (differ : m ≠ n) (burst : ∀ t, m.testBit t ≠ n.testBit t → a ≤ t ∧ t < a + G.width) :
    G.residue n ≠ 0 := by
  obtain ⟨w, lt, diff⟩ := xor_eq_shiftLeft burst
  intro zero
  have pos : w ≠ 0 := by
    rintro rfl
    rw [Nat.zero_shiftLeft, Nat.xor_eq_zero_iff] at diff
    exact differ diff
  have sum := G.residue_xor m n
  rw [word, zero, add_zero, diff] at sum
  exact G.residue_burst_ne_zero pos lt a sum

end Ok3506.CyclicCode
