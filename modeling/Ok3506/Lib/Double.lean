import Mathlib.Algebra.Order.Field.Rat
import Mathlib.Data.Int.Log
import Mathlib.Data.Rat.Floor
import Mathlib.Data.Real.Basic
import Mathlib.Tactic.FieldSimp
import Mathlib.Tactic.Linarith
import Mathlib.Tactic.Positivity
import Mathlib.Tactic.Ring

/-!
Double precision numbers, below the overflow.

A number is rounded to a multiple of its last place, to the nearest one, and to the even one
of two; the last place is the 53rd binary place, and not below that of the smallest double.
What is computed here is exact: the rounded number, the word that stands for it, and the
number for which a word stands.
-/

namespace Ok3506.Double

/-- The integer nearest to `y`, the even one of two. -/
def nearest (y : ℚ) : ℤ :=
  if Int.fract y < 1 / 2 ∨ (Int.fract y = 1 / 2 ∧ ⌊y⌋ % 2 = 0) then ⌊y⌋ else ⌊y⌋ + 1

/-- The exponent of the last place of `x`. -/
def lastPlace (x : ℚ) : ℤ := if x = 0 then -1074 else max (Int.log 2 |x| - 52) (-1074)

/-- The rounded magnitude, counted in last places. -/
def significand (x : ℚ) : ℕ := (nearest (|x| / 2 ^ lastPlace x)).toNat

/-- The double nearest to `x`. -/
def round (x : ℚ) : ℚ :=
  if x < 0 then -(significand x * 2 ^ lastPlace x) else significand x * 2 ^ lastPlace x

/-- The word of the double nearest to `x`: sign, exponent and fraction. The leading bit of
the significand counts as one in the exponent, and so does its carry. -/
def word (x : ℚ) : ℕ :=
  (if x < 0 then 2 ^ 63 else 0) + ((lastPlace x + 1074).toNat * 2 ^ 52 + significand x)

/-- The exponent field of a word. -/
def exponent (w : ℕ) : ℕ := w / 2 ^ 52 % 2 ^ 11

/-- The fraction field of a word. -/
def fraction (w : ℕ) : ℕ := w % 2 ^ 52

/-- The magnitude of a word whose exponent is not that of infinity. -/
def magnitude (w : ℕ) : ℚ :=
  if exponent w = 0 then fraction w * 2 ^ (-1074 : ℤ)
  else ((2 ^ 52 + fraction w : ℕ) : ℚ) * 2 ^ ((exponent w : ℤ) - 1075)

/-- The number of a word whose exponent is not that of infinity. -/
def value (w : ℕ) : ℚ := if 2 ^ 63 ≤ w then -magnitude w else magnitude w

/-! ### Operations -/

/-- `(double)n` -/
def ofInt (n : ℤ) : ℚ := round n

/-- `x * y` -/
def mul (x y : ℚ) : ℚ := round (x * y)

/-- `ldexp(x, e)` -/
def ldexp (x : ℚ) (e : ℤ) : ℚ := round (x * 2 ^ e)

/-! ### Nearest integers -/

theorem abs_nearest_sub_le (y : ℚ) : |(nearest y : ℚ) - y| ≤ 1 / 2 := by
  have split := Int.floor_add_fract y
  have low := Int.fract_nonneg y
  have high := Int.fract_lt_one y
  rw [nearest, abs_le]
  split
  case isTrue down =>
    have half : Int.fract y ≤ 1 / 2 := down.elim le_of_lt fun tie => tie.1.le
    constructor <;> linarith
  case isFalse up =>
    have half : 1 / 2 ≤ Int.fract y := not_lt.mp fun below => up (.inl below)
    push_cast
    constructor <;> linarith

@[simp] theorem nearest_intCast (n : ℤ) : nearest n = n := by
  rw [nearest, Int.fract_intCast, if_pos (.inl (by norm_num)), Int.floor_intCast]

theorem nearest_nonneg {y : ℚ} (nonneg : 0 ≤ y) : 0 ≤ nearest y := by
  have floor := Int.floor_nonneg.mpr nonneg
  rw [nearest]
  split <;> omega

theorem nearest_le {y : ℚ} {n : ℤ} (le : y ≤ n) : nearest y ≤ n := by
  have near := abs_le.mp (abs_nearest_sub_le y)
  have below : (nearest y : ℚ) < (n + 1 : ℤ) := by
    push_cast
    linarith
  exact Int.lt_add_one_iff.mp (Int.cast_lt.mp below)

theorem le_nearest {y : ℚ} {n : ℤ} (le : n ≤ y) : n ≤ nearest y := by
  have near := abs_le.mp (abs_nearest_sub_le y)
  have above : ((n - 1 : ℤ) : ℚ) < nearest y := by
    push_cast
    linarith
  exact Int.sub_one_lt_iff.mp (Int.cast_lt.mp above)

/-! ### The last place -/

section LastPlace

variable {x : ℚ}

theorem lastPlace_ge (x : ℚ) : -1074 ≤ lastPlace x := by
  rw [lastPlace]
  split
  · exact le_rfl
  · exact le_max_right _ _

theorem two_zpow_pos (e : ℤ) : (0 : ℚ) < 2 ^ e := zpow_pos two_pos e

theorem zpow_le_abs (nonzero : x ≠ 0) : (2 : ℚ) ^ Int.log 2 |x| ≤ |x| := by
  exact_mod_cast Int.zpow_log_le_self (b := 2) (by decide) (abs_pos.mpr nonzero)

theorem abs_lt_zpow (x : ℚ) : |x| < (2 : ℚ) ^ (Int.log 2 |x| + 1) := by
  exact_mod_cast Int.lt_zpow_succ_log_self (b := 2) (by decide) |x|

theorem log_lt {e : ℤ} (nonzero : x ≠ 0) (lt : |x| < 2 ^ e) : Int.log 2 |x| < e := by
  have := (zpow_le_abs nonzero).trans_lt lt
  exact (zpow_lt_zpow_iff_right₀ one_lt_two).mp this

/-- What is below `2 ^ e` has its last place below `2 ^ (e - 52)`. -/
theorem lastPlace_lt {e : ℤ} (lt : |x| < 2 ^ e) (normal : -1022 < e) : lastPlace x < e - 52 := by
  rw [lastPlace]
  split
  · omega
  · rename_i nonzero
    have := log_lt nonzero lt
    omega

/-- A magnitude has at most 53 places. -/
theorem abs_div_lt (x : ℚ) : |x| / 2 ^ lastPlace x < 2 ^ 53 := by
  rw [div_lt_iff₀ (two_zpow_pos _)]
  by_cases zero : x = 0
  · rw [zero, abs_zero]
    exact mul_pos (by norm_num) (two_zpow_pos _)
  · calc
      |x| < (2 : ℚ) ^ (Int.log 2 |x| + 1) := abs_lt_zpow x
      _ ≤ (2 : ℚ) ^ (53 + lastPlace x) := by
        refine zpow_le_zpow_right₀ one_le_two ?_
        rw [lastPlace, if_neg zero]
        omega
      _ = 2 ^ 53 * 2 ^ lastPlace x := by
        rw [zpow_add₀ two_ne_zero]
        norm_num

/-- Above the smallest last place it has exactly 53. -/
theorem le_abs_div (h : -1074 < lastPlace x) : 2 ^ 52 ≤ |x| / 2 ^ lastPlace x := by
  rw [le_div_iff₀ (two_zpow_pos _)]
  rw [lastPlace] at h ⊢
  split at h
  case isTrue => exact absurd h (lt_irrefl _)
  case isFalse nonzero =>
    have place : max (Int.log 2 |x| - 52) (-1074) = Int.log 2 |x| - 52 := by omega
    rw [if_neg nonzero, place]
    calc
      (2 : ℚ) ^ 52 * 2 ^ (Int.log 2 |x| - 52) = 2 ^ Int.log 2 |x| := by
        rw [zpow_sub₀ two_ne_zero]
        exact mul_div_cancel₀ _ (by norm_num)
      _ ≤ |x| := zpow_le_abs nonzero

theorem abs_div_nonneg (x : ℚ) : 0 ≤ |x| / 2 ^ lastPlace x :=
  div_nonneg (abs_nonneg x) (two_zpow_pos _).le

theorem significand_eq (x : ℚ) :
    ((significand x : ℕ) : ℤ) = nearest (|x| / 2 ^ lastPlace x) :=
  Int.toNat_of_nonneg (nearest_nonneg (abs_div_nonneg x))

theorem significand_le (x : ℚ) : significand x ≤ 2 ^ 53 := by
  have := nearest_le (n := 2 ^ 53) (by exact_mod_cast (abs_div_lt x).le)
  rw [← significand_eq] at this
  exact_mod_cast this

theorem le_significand (h : -1074 < lastPlace x) : 2 ^ 52 ≤ significand x := by
  have := le_nearest (n := 2 ^ 52) (by exact_mod_cast le_abs_div h)
  rw [← significand_eq] at this
  exact_mod_cast this

end LastPlace

/-! ### Rounding -/

section Round

variable {x : ℚ}

/-- The error is that of the significand. -/
theorem abs_round_sub (x : ℚ) :
    |round x - x| = |(nearest (|x| / 2 ^ lastPlace x) : ℚ) - |x| / 2 ^ lastPlace x| *
      2 ^ lastPlace x := by
  have pos := two_zpow_pos (lastPlace x)
  have magnitude : |x| / 2 ^ lastPlace x * 2 ^ lastPlace x = |x| := div_mul_cancel₀ _ pos.ne'
  have count : (significand x : ℚ) = nearest (|x| / 2 ^ lastPlace x) := by
    exact_mod_cast congrArg (Int.cast (R := ℚ)) (significand_eq x)
  rw [← abs_of_pos pos, ← abs_mul, abs_of_pos pos, sub_mul, magnitude, ← count, round]
  split
  case isTrue negative =>
    rw [abs_of_neg negative, ← abs_neg]
    congr 1
    ring
  case isFalse nonneg => rw [abs_of_nonneg (not_lt.mp nonneg)]

/-- At most half a unit of the last place is lost. -/
theorem abs_round_sub_le (x : ℚ) : |round x - x| ≤ 2 ^ lastPlace x / 2 := by
  rw [abs_round_sub]
  have := mul_le_mul_of_nonneg_right (abs_nearest_sub_le (|x| / 2 ^ lastPlace x))
    (two_zpow_pos (lastPlace x)).le
  linarith

/-- A multiple of its last place stays. -/
theorem round_of_multiple {n : ℤ} (h : |x| = n * 2 ^ lastPlace x) : round x = x := by
  have whole : |x| / 2 ^ lastPlace x = n := by
    rw [h]
    exact mul_div_cancel_right₀ _ (two_zpow_pos _).ne'
  have error := abs_round_sub x
  rw [whole, nearest_intCast, sub_self, abs_zero, zero_mul, abs_eq_zero] at error
  exact sub_eq_zero.mp error

@[simp] theorem round_zero : round 0 = 0 := round_of_multiple (n := 0) (by simp)

/-- A number of at most 53 places is a double. -/
theorem round_dyadic {n e : ℤ} (places : |n| < 2 ^ 53) (ge : -1074 ≤ e) :
    round (n * 2 ^ e) = n * 2 ^ e := by
  have pos := two_zpow_pos e
  by_cases zero : n = 0
  · simp [zero]
  · have magnitude : |(n : ℚ) * 2 ^ e| = |n| * 2 ^ e := by
      rw [abs_mul, abs_of_pos pos, Int.cast_abs]
    have nonzero : (n : ℚ) * 2 ^ e ≠ 0 := mul_ne_zero (by exact_mod_cast zero) pos.ne'
    have small : |(n : ℚ) * 2 ^ e| < 2 ^ (53 + e) := by
      rw [magnitude, zpow_add₀ two_ne_zero]
      exact mul_lt_mul_of_pos_right (by exact_mod_cast places) pos
    have place : lastPlace (n * 2 ^ e) ≤ e := by
      have log := log_lt nonzero small
      rw [lastPlace, if_neg nonzero]
      omega
    obtain ⟨k, split⟩ := Int.le.dest place
    refine round_of_multiple (n := |n| * 2 ^ k) ?_
    rw [magnitude]
    push_cast
    rw [mul_assoc, ← zpow_natCast, ← zpow_add₀ two_ne_zero, add_comm (k : ℤ), split]

/-- The relative error, for a number that is not too small. -/
theorem abs_round_sub_le_mul (normal : x = 0 ∨ (2 : ℚ) ^ (-1022 : ℤ) ≤ |x|) :
    |round x - x| ≤ |x| / 2 ^ 53 := by
  rcases normal with rfl | normal
  · simp
  · have nonzero : x ≠ 0 := by
      rintro rfl
      rw [abs_zero] at normal
      exact absurd normal (not_le.mpr (two_zpow_pos _))
    have log : -1022 ≤ Int.log 2 |x| := by
      have := (zpow_lt_zpow_iff_right₀ (one_lt_two (α := ℚ))).mp (normal.trans_lt (abs_lt_zpow x))
      omega
    have place : lastPlace x = Int.log 2 |x| - 52 := by
      rw [lastPlace, if_neg nonzero]
      omega
    have whole : (2 : ℚ) ^ lastPlace x * 2 ^ 52 = 2 ^ Int.log 2 |x| := by
      rw [place, zpow_sub₀ two_ne_zero]
      norm_num
    have error := abs_round_sub_le x
    have bound := zpow_le_abs nonzero
    rw [← whole] at bound
    rw [le_div_iff₀ (by norm_num)]
    linarith

theorem abs_round_sub_le_of_pos (normal : (2 : ℚ) ^ (-1022 : ℤ) ≤ x) :
    |round x - x| ≤ x / 2 ^ 53 := by
  have magnitude : |x| = x := abs_of_pos ((two_zpow_pos _).trans_le normal)
  have error := abs_round_sub_le_mul (.inr (magnitude.symm ▸ normal))
  rwa [magnitude] at error

/-- A product with a constant that is known up to 52 places. -/
theorem abs_round_mul_sub_le {q c : ℚ} {γ : ℝ} (pos : 0 < γ) (close : |(c : ℝ) - γ| ≤ γ / 2 ^ 52)
    (normal : q * c = 0 ∨ (2 : ℚ) ^ (-1022 : ℤ) ≤ |q * c|) :
    |(round (q * c) : ℝ) - q * γ| ≤ |q * γ| / 2 ^ 51 := by
  have rounded : |(round (q * c) : ℝ) - q * c| ≤ |(q : ℝ)| * (2 * γ) / 2 ^ 53 := by
    have error : |(round (q * c) : ℝ) - q * c| ≤ |(q : ℝ) * c| / 2 ^ 53 := by
      exact_mod_cast (Rat.cast_le (K := ℝ)).mpr (abs_round_sub_le_mul normal)
    have constant : |(c : ℝ)| ≤ 2 * γ := by
      have near := abs_le.mp close
      rw [abs_le]
      constructor <;> linarith
    refine error.trans ?_
    rw [abs_mul]
    exact div_le_div_of_nonneg_right (mul_le_mul_of_nonneg_left constant (abs_nonneg _))
      (by positivity)
  have approximated : |(q : ℝ) * c - q * γ| ≤ |(q : ℝ)| * (γ / 2 ^ 52) := by
    rw [← mul_sub, abs_mul]
    exact mul_le_mul_of_nonneg_left close (abs_nonneg _)
  calc
    |(round (q * c) : ℝ) - q * γ| ≤ |(round (q * c) : ℝ) - q * c| + |(q : ℝ) * c - q * γ| :=
      abs_sub_le _ _ _
    _ ≤ |(q : ℝ)| * (2 * γ) / 2 ^ 53 + |(q : ℝ)| * (γ / 2 ^ 52) := add_le_add rounded approximated
    _ = |(q : ℝ) * γ| / 2 ^ 51 := by
      rw [abs_mul, abs_of_pos pos]
      ring

/-- No multiple of a unit that is not too small is too small, but zero. -/
theorem zero_or_normal {c : ℚ} (normal : (2 : ℚ) ^ (-1022 : ℤ) ≤ c) (n : ℤ) :
    (n : ℚ) * c = 0 ∨ (2 : ℚ) ^ (-1022 : ℤ) ≤ |(n : ℚ) * c| := by
  have pos : 0 < c := (two_zpow_pos _).trans_le normal
  by_cases zero : n = 0
  · simp [zero]
  · right
    have one : (1 : ℚ) ≤ |n| := by exact_mod_cast Int.one_le_abs zero
    rw [abs_mul, abs_of_pos pos, ← Int.cast_abs]
    nlinarith

/-- Multiples of a unit that is not too small stay different. -/
theorem round_mul_injective {c : ℚ} (normal : (2 : ℚ) ^ (-1022 : ℤ) ≤ c) {m n : ℤ}
    (hm : |m| < 2 ^ 52) (hn : |n| < 2 ^ 52) (same : round (m * c) = round (n * c)) : m = n := by
  have pos : 0 < c := (two_zpow_pos _).trans_le normal
  have error {k : ℤ} (hk : |k| < 2 ^ 52) : |round (k * c) - k * c| < c / 2 := by
    have magnitude : |(k : ℚ) * c| = |k| * c := by rw [abs_mul, abs_of_pos pos, Int.cast_abs]
    have size : ((|k| : ℤ) : ℚ) * c < 2 ^ 52 * c :=
      mul_lt_mul_of_pos_right (by exact_mod_cast hk) pos
    have := abs_round_sub_le_mul (zero_or_normal normal k)
    rw [magnitude, le_div_iff₀ (by norm_num)] at this
    linarith
  have left := abs_lt.mp (error hm)
  have right := abs_lt.mp (error hn)
  rw [same] at left
  have above : ((m - n : ℤ) : ℚ) * c < 1 * c := by
    push_cast
    linarith
  have below : ((n - m : ℤ) : ℚ) * c < 1 * c := by
    push_cast
    linarith
  have lt : ((m - n : ℤ) : ℚ) < (1 : ℤ) := by exact_mod_cast (mul_lt_mul_iff_left₀ pos).mp above
  have gt : ((n - m : ℤ) : ℚ) < (1 : ℤ) := by exact_mod_cast (mul_lt_mul_iff_left₀ pos).mp below
  have lt := Int.cast_lt.mp lt
  have gt := Int.cast_lt.mp gt
  omega

end Round

/-! ### Words -/

section Words

variable {x : ℚ}

theorem two_zpow_toNat (x : ℚ) :
    (2 : ℚ) ^ lastPlace x = 2 ^ (((lastPlace x + 1074).toNat : ℤ) - 1074) := by
  rw [Int.toNat_of_nonneg (by have := lastPlace_ge x; omega), add_sub_cancel_right]

/-- The fields of a word, as long as a significand of 52 places has the smallest exponent. -/
theorem magnitude_fields {sign p s : ℕ} (bit : sign = 0 ∨ sign = 2 ^ 63) (small : p < 2045)
    (normal : 0 < p → 2 ^ 52 ≤ s) (le : s ≤ 2 ^ 53) :
    magnitude (sign + (p * 2 ^ 52 + s)) = s * 2 ^ ((p : ℤ) - 1074) := by
  rcases Nat.lt_or_ge s (2 ^ 52) with subnormal | leading
  · obtain rfl : p = 0 := by
      by_contra nonzero
      have := normal (by omega)
      omega
    have zero : exponent (sign + (0 * 2 ^ 52 + s)) = 0 := by
      rw [exponent]
      omega
    have places : fraction (sign + (0 * 2 ^ 52 + s)) = s := by
      rw [fraction]
      omega
    rw [magnitude, if_pos zero, places]
    rfl
  · rcases Nat.lt_or_ge s (2 ^ 53) with fits | carries
    · have next : exponent (sign + (p * 2 ^ 52 + s)) = p + 1 := by
        rw [exponent]
        omega
      have places : 2 ^ 52 + fraction (sign + (p * 2 ^ 52 + s)) = s := by
        rw [fraction]
        omega
      have shifted : ((p + 1 : ℕ) : ℤ) - 1075 = (p : ℤ) - 1074 := by omega
      rw [magnitude, if_neg (by omega), places, next, shifted]
    · obtain rfl : s = 2 ^ 53 := le_antisymm le carries
      have next : exponent (sign + (p * 2 ^ 52 + 2 ^ 53)) = p + 2 := by
        rw [exponent]
        omega
      have places : 2 ^ 52 + fraction (sign + (p * 2 ^ 52 + 2 ^ 53)) = 2 ^ 52 := by
        rw [fraction]
        omega
      have shifted : ((p + 2 : ℕ) : ℤ) - 1075 = 1 + ((p : ℤ) - 1074) := by omega
      rw [magnitude, if_neg (by omega), places, next, shifted, zpow_add₀ two_ne_zero]
      push_cast
      ring

theorem lastPlace_lt_of_finite (finite : |x| < 2 ^ 1023) : lastPlace x < 971 :=
  lastPlace_lt (e := 1023) (by exact_mod_cast finite) (by decide)

/-- A word stands for the rounded number. -/
theorem value_word (finite : |x| < 2 ^ 1023) : value (word x) = round x := by
  have place := lastPlace_lt_of_finite finite
  have ge := lastPlace_ge x
  have le := significand_le x
  have normal : 0 < (lastPlace x + 1074).toNat → 2 ^ 52 ≤ significand x := fun pos =>
    le_significand (by omega)
  have small : (lastPlace x + 1074).toNat < 2045 := by omega
  rw [round, word, value, two_zpow_toNat]
  split
  case isTrue negative =>
    rw [if_pos (Nat.le_add_right _ _), magnitude_fields (.inr rfl) small normal le]
  case isFalse =>
    rw [if_neg (by omega), magnitude_fields (.inl rfl) small normal le]

theorem word_lt (finite : |x| < 2 ^ 1023) : word x < 2 ^ 64 := by
  have place := lastPlace_lt_of_finite finite
  have le := significand_le x
  rw [word]
  split <;> omega

end Words

end Ok3506.Double
