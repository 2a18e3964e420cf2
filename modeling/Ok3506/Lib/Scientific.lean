import Ok3506.Lib.Decimal
import Ok3506.Lib.Double

/-!
Numbers in scientific notation.

`text` is what `%.<places>e` prints: the digits of the number nearest to `x` with so many
places behind the point, the even one of two, and an exponent of at least two digits. A number
that is rounded up to the next power of ten gets the exponent of that. `read` accepts such
texts, with a sign or blanks before them; what is read back is off by at most half a unit of
the last place.
-/

namespace Ok3506.Scientific

open CString Decimal

/-- How often the last place goes into `x`. -/
def count (places : ℕ) (x : ℚ) : ℕ :=
  (Double.nearest (|x| / 10 ^ (Int.log 10 |x| - places))).toNat

/-- The digits, as a number; those of a power of ten where the count is one. -/
def digits (places : ℕ) (x : ℚ) : ℕ :=
  if count places x = 10 ^ (places + 1) then 10 ^ places else count places x

/-- The exponent of the first digit. -/
def exponent (places : ℕ) (x : ℚ) : ℤ :=
  if count places x = 10 ^ (places + 1) then Int.log 10 |x| + 1 else Int.log 10 |x|

/-- The number that is printed. -/
def printed (places : ℕ) (x : ℚ) : ℚ :=
  let magnitude : ℚ := digits places x * 10 ^ (exponent places x - places)
  if x < 0 then -magnitude else magnitude

/-- The digits of an exponent. -/
def exponentDigits (e : ℤ) : List UInt8 :=
  if e.natAbs < 100 then padded 2 e.natAbs else decimal e.natAbs

/-- `%.<places>e`, and with `blank` as `% .<places>e`; there is at least one place. -/
def text (blank : Bool) (places : ℕ) (x : ℚ) : List UInt8 :=
  (if x < 0 then [45] else if blank then [32] else []) ++
    (decimal (digits places x / 10 ^ places) ++
      46 :: (padded places (digits places x % 10 ^ places) ++
        101 :: (if exponent places x < 0 then 45 else 43) :: exponentDigits (exponent places x)))

/-- Some digits, and the rest. -/
def scanDigits (s : List UInt8) : Option (List UInt8 × List UInt8) :=
  let digits := s.takeWhile isdigit
  if digits = [] then none else some (digits, s.drop digits.length)

/-- A number with a point and an exponent. -/
def read (s : List UInt8) : Option ℚ := do
  let (negative, s) := scanSign (s.dropWhile isspace)
  let (whole, s) ← scanDigits s
  let s ← scanText [46] s
  let (places, s) ← scanDigits s
  let s ← scanText [101] s
  let (down, s) := scanSign s
  let (exponent, s) ← scanDigits s
  let e : ℤ := digitsValue exponent
  let magnitude : ℚ :=
    digitsValue (whole ++ places) * 10 ^ ((if down then -e else e) - places.length)
  if s = [] then some (if negative then -magnitude else magnitude) else none

variable {places : ℕ} {x : ℚ}

/-! ### Digits and exponent -/

theorem ten_zpow_pos (e : ℤ) : (0 : ℚ) < 10 ^ e := zpow_pos (by norm_num) e

theorem count_eq (places : ℕ) (x : ℚ) :
    ((count places x : ℕ) : ℤ) = Double.nearest (|x| / 10 ^ (Int.log 10 |x| - places)) :=
  Int.toNat_of_nonneg (Double.nearest_nonneg (div_nonneg (abs_nonneg x) (ten_zpow_pos _).le))

/-- The first digit is not zero, and there is one in front of the point. -/
theorem count_bounds (places : ℕ) (nonzero : x ≠ 0) :
    10 ^ places ≤ count places x ∧ count places x ≤ 10 ^ (places + 1) := by
  have pos := ten_zpow_pos (Int.log 10 |x| - places)
  have low : (10 : ℚ) ^ Int.log 10 |x| ≤ |x| := by
    exact_mod_cast Int.zpow_log_le_self (b := 10) (by decide) (abs_pos.mpr nonzero)
  have high : |x| < (10 : ℚ) ^ (Int.log 10 |x| + 1) := by
    exact_mod_cast Int.lt_zpow_succ_log_self (b := 10) (by decide) |x|
  have split (n : ℕ) : (10 : ℚ) ^ n * 10 ^ (Int.log 10 |x| - places) =
      10 ^ (Int.log 10 |x| + (n - places)) := by
    rw [← zpow_natCast, ← zpow_add₀ (by norm_num)]
    congr 1
    ring
  constructor
  · have le := Double.le_nearest (y := |x| / 10 ^ (Int.log 10 |x| - places)) (n := 10 ^ places) (by
      push_cast
      rw [le_div_iff₀ pos, split, sub_self, add_zero]
      exact low)
    rw [← count_eq] at le
    exact_mod_cast le
  · have le := Double.nearest_le (y := |x| / 10 ^ (Int.log 10 |x| - places))
      (n := 10 ^ (places + 1)) (by
        push_cast
        rw [div_le_iff₀ pos, split]
        push_cast
        rw [add_sub_cancel_left]
        exact high.le)
    rw [← count_eq] at le
    exact_mod_cast le

theorem log_zero : Int.log 10 |(0 : ℚ)| = 0 := by
  rw [abs_zero]
  exact Int.log_of_right_le_zero 10 le_rfl

@[simp] theorem count_zero (places : ℕ) : count places 0 = 0 := by
  have zero := count_eq places 0
  rw [abs_zero, zero_div, ← Int.cast_zero, Double.nearest_intCast] at zero
  exact_mod_cast zero

theorem count_le (places : ℕ) (x : ℚ) : count places x ≤ 10 ^ (places + 1) := by
  by_cases zero : x = 0
  · rw [zero, count_zero]
    exact Nat.zero_le _
  · exact (count_bounds places zero).2

theorem digits_lt (places : ℕ) (x : ℚ) : digits places x < 10 ^ (places + 1) := by
  have le := count_le places x
  rw [digits]
  split
  case isTrue => exact Nat.pow_lt_pow_right (by decide) (Nat.lt_succ_self places)
  case isFalse other => exact lt_of_le_of_ne le other

/-- A carry does not change the number. -/
theorem digits_mul (places : ℕ) (x : ℚ) :
    (digits places x : ℚ) * 10 ^ (exponent places x - places) =
      count places x * 10 ^ (Int.log 10 |x| - places) := by
  rw [digits, exponent]
  split
  case isFalse => rfl
  case isTrue carry =>
    rw [carry]
    push_cast
    rw [← zpow_natCast, ← zpow_natCast, ← zpow_add₀ (by norm_num), ← zpow_add₀ (by norm_num)]
    congr 1
    push_cast
    ring

/-- **What is printed** is off by at most half a unit of the last place. -/
theorem abs_printed_sub_le (places : ℕ) (x : ℚ) :
    |printed places x - x| ≤ |x| / (2 * 10 ^ places) := by
  have pos := ten_zpow_pos (Int.log 10 |x| - places)
  have error : |(count places x : ℚ) * 10 ^ (Int.log 10 |x| - places) - (|x| : ℚ)| ≤
      10 ^ (Int.log 10 |x| - places) / 2 := by
    have near := Double.abs_nearest_sub_le (|x| / 10 ^ (Int.log 10 |x| - places))
    rw [← count_eq, Int.cast_natCast] at near
    have scaled := mul_le_mul_of_nonneg_right near pos.le
    rw [← abs_of_pos pos, ← abs_mul, abs_of_pos pos, sub_mul, div_mul_cancel₀ _ pos.ne'] at scaled
    linarith
  have magnitude : |printed places x - x| =
      |(count places x : ℚ) * 10 ^ (Int.log 10 |x| - places) - (|x| : ℚ)| := by
    rw [printed, digits_mul]
    split
    case isTrue negative =>
      rw [abs_of_neg negative, ← abs_neg]
      congr 1
      ring
    case isFalse nonneg => rw [abs_of_nonneg (not_lt.mp nonneg)]
  rw [magnitude]
  by_cases zero : x = 0
  · simp [zero]
  · have low : (10 : ℚ) ^ Int.log 10 |x| ≤ |x| := by
      exact_mod_cast Int.zpow_log_le_self (b := 10) (by decide) (abs_pos.mpr zero)
    refine error.trans ?_
    rw [zpow_sub₀ (by norm_num), zpow_natCast, div_div, mul_comm _ (2 : ℚ)]
    exact div_le_div_of_nonneg_right low (by positivity)

/-! ### Texts -/

theorem digitsValue_exponentDigits (e : ℤ) : digitsValue (exponentDigits e) = e.natAbs := by
  rw [exponentDigits]
  split
  case isTrue small => rw [digitsValue_padded, Nat.mod_eq_of_lt (by exact small)]
  case isFalse => exact digitsValue_decimal _

theorem digits_exponentDigits (e : ℤ) : Digits (exponentDigits e) := by
  rw [exponentDigits]
  split
  · exact digits_padded _ _
  · exact digits_decimal _

theorem exponentDigits_ne_nil (e : ℤ) : exponentDigits e ≠ [] := by
  rw [exponentDigits, ← List.length_pos_iff]
  split
  · rw [length_padded]
    decide
  · exact length_decimal_pos _

theorem scanDigits_append {l s : List UInt8} (h : Digits l) (nonempty : l ≠ [])
    (stop : ∀ c ∈ s.head?, isdigit c = false) : scanDigits (l ++ s) = some (l, s) := by
  have taken : (l ++ s).takeWhile isdigit = l := by
    rw [List.takeWhile_append_of_pos h]
    cases s with
    | nil => simp
    | cons c s => rw [List.takeWhile_cons_of_neg (by simp [stop c rfl]), List.append_nil]
  rw [scanDigits, taken, if_neg nonempty, List.drop_left]

theorem scanDigits_whole {l : List UInt8} (h : Digits l) (nonempty : l ≠ []) :
    scanDigits l = some (l, []) := by
  have scanned := scanDigits_append (s := []) h nonempty fun c mem => by simp at mem
  rwa [List.append_nil] at scanned

/-- A number starts neither with a sign nor with a blank. -/
theorem decimal_head (n : ℕ) : ∃ c l, decimal n = c :: l ∧ isdigit c = true := by
  cases split : decimal n with
  | nil => exact absurd (length_decimal_pos n) (by rw [split]; decide)
  | cons c l => exact ⟨c, l, rfl, digits_decimal n c (by rw [split]; exact List.mem_cons_self)⟩

theorem isspace_of_isdigit {c : UInt8} (h : isdigit c = true) : isspace c = false := by
  simp only [isdigit, isspace, UInt8.le_iff_toNat_le, UInt8.reduceToNat, Bool.and_eq_true,
    decide_eq_true_eq, Bool.or_eq_false_iff, decide_eq_false_iff_not, Bool.and_eq_false_iff,
    ← UInt8.toNat_inj] at h ⊢
  omega

theorem scanSign_digit {c : UInt8} (h : isdigit c = true) (s : List UInt8) :
    scanSign (c :: s) = (false, c :: s) := by
  have minus : c ≠ 45 := by
    rintro rfl
    exact absurd h (by decide)
  have plus : c ≠ 43 := by
    rintro rfl
    exact absurd h (by decide)
  rw [scanSign.eq_def]
  split
  · rename_i eq
    exact absurd (List.cons.inj eq).1 minus
  · rename_i eq
    exact absurd (List.cons.inj eq).1 plus
  · rfl

/-- **Round trip**: the printed number is read. -/
theorem read_text (blank : Bool) (pos : 0 < places) (x : ℚ) :
    read (text blank places x) = some (printed places x) := by
  obtain ⟨c, l, first, digit⟩ := decimal_head (digits places x / 10 ^ places)
  have whole := digits_decimal (digits places x / 10 ^ places)
  have rest := digits_padded places (digits places x % 10 ^ places)
  have some_places : padded places (digits places x % 10 ^ places) ≠ [] := by
    rw [← List.length_pos_iff, length_padded]
    exact pos
  have value : digitsValue (decimal (digits places x / 10 ^ places) ++
      padded places (digits places x % 10 ^ places)) = digits places x := by
    rw [digitsValue, digitsFrom_append, digitsFrom_eq, length_padded, digitsValue_padded,
      ← digitsValue, digitsValue_decimal, Nat.mod_mod]
    exact Nat.div_add_mod' _ _
  have negative : scanSign ((text blank places x).dropWhile isspace) = (decide (x < 0),
      decimal (digits places x / 10 ^ places) ++
        46 :: (padded places (digits places x % 10 ^ places) ++
          101 :: (if exponent places x < 0 then 45 else 43) ::
            exponentDigits (exponent places x))) := by
    have solid := isspace_of_isdigit digit
    rw [text, first]
    by_cases below : x < 0
    · rw [if_pos below, decide_eq_true below]
      rfl
    · rw [if_neg below, decide_eq_false below]
      cases blank with
      | true =>
          rw [if_pos rfl, List.singleton_append, List.dropWhile_cons_of_pos (by decide),
            List.cons_append, List.dropWhile_cons_of_neg (by simp [solid]), scanSign_digit digit]
      | false =>
          rw [if_neg Bool.false_ne_true, List.nil_append, List.cons_append,
            List.dropWhile_cons_of_neg (by simp [solid]), scanSign_digit digit]
  have sign : scanSign ((if exponent places x < 0 then 45 else 43) ::
      exponentDigits (exponent places x)) = (decide (exponent places x < 0),
        exponentDigits (exponent places x)) := by
    split
    case isTrue down => rw [scanSign, decide_eq_true down]
    case isFalse up => rw [scanSign, decide_eq_false up]
  have last := scanDigits_whole (digits_exponentDigits (exponent places x))
    (exponentDigits_ne_nil _)
  have stop (c : UInt8) (other : isdigit c = false) (s : List UInt8) :
      ∀ d ∈ (c :: s).head?, isdigit d = false := by
    intro d mem
    rwa [Option.some.inj mem.symm]
  have point (c : UInt8) (s : List UInt8) : scanText [c] (c :: s) = some s := by
    simp [scanText]
  simp only [read, negative, scanDigits_append whole (by simp [first]) (stop 46 (by decide) _),
    point, scanDigits_append rest some_places (stop 101 (by decide) _), sign, last, value,
    length_padded, digitsValue_exponentDigits, Option.bind_eq_bind, Option.bind_some, if_true]
  have back : (if decide (exponent places x < 0) = true then
      -((exponent places x).natAbs : ℤ) else (exponent places x).natAbs) = exponent places x := by
    simp only [decide_eq_true_eq]
    split <;> omega
  rw [back, printed]
  simp only [decide_eq_true_eq]

/-- The characters of a text. -/
theorem mem_text {blank : Bool} {c : UInt8} (mem : c ∈ text blank places x) :
    isdigit c = true ∨ c ∈ ([32, 43, 45, 46, 101] : List UInt8) := by
  simp only [text, List.mem_append, List.mem_cons] at mem
  rcases mem with mem | mem | rfl | mem | rfl | mem | mem
  · split at mem
    · simp_all
    · split at mem <;> simp_all
  · exact .inl (digits_decimal _ c mem)
  · simp
  · exact .inl (digits_padded _ _ c mem)
  · simp
  · split at mem <;> simp_all
  · exact .inl (digits_exponentDigits _ c mem)

/-- The exponent of a number that is neither too large nor too small is bounded. -/
theorem natAbs_exponent_le {k : ℕ} (bounds : x = 0 ∨ (10 : ℚ) ^ (-k : ℤ) ≤ |x|)
    (small : |x| < (10 : ℚ) ^ (k : ℤ)) : (exponent places x).natAbs ≤ k := by
  by_cases zero : x = 0
  · have none : count places 0 ≠ 10 ^ (places + 1) := by
      rw [count_zero]
      exact (Nat.pow_pos (by decide)).ne
    rw [zero, exponent, if_neg none, log_zero]
    exact Nat.zero_le k
  · have pos := abs_pos.mpr zero
    have low : -k ≤ Int.log 10 |x| :=
      (Int.zpow_le_iff_le_log (b := 10) (by decide) pos).mp
        (by exact_mod_cast bounds.resolve_left zero)
    have high : Int.log 10 |x| < k :=
      (Int.lt_zpow_iff_log_lt (b := 10) (by decide) pos).mp (by exact_mod_cast small)
    rw [exponent]
    split <;> omega

theorem length_text_le (blank : Bool) (few : (exponent places x).natAbs < 1000) :
    (text blank places x).length ≤ places + 8 := by
  have leading : (decimal (digits places x / 10 ^ places)).length ≤ 1 := by
    rw [length_decimal_le_iff Nat.one_pos, Nat.div_lt_iff_lt_mul (Nat.pow_pos (by decide)),
      pow_one, ← pow_succ']
    exact digits_lt places x
  have last : (exponentDigits (exponent places x)).length ≤ 3 := by
    rw [exponentDigits]
    split
    · rw [length_padded]
      decide
    · rwa [length_decimal_le_iff (by decide)]
  have sign : (if x < 0 then [45] else if blank then [32] else [] : List UInt8).length ≤ 1 := by
    split
    · exact le_rfl
    · split <;> simp
  simp only [text, List.length_append, List.length_cons, length_padded]
  omega

end Ok3506.Scientific
