import Ok3506.Gnss.MinmeaFields
import Mathlib.Data.Rat.Defs
import Mathlib.Algebra.Order.Field.Rat
import Mathlib.Algebra.Order.Ring.Abs
import Mathlib.Tactic.FieldSimp
import Mathlib.Tactic.Linarith
import Mathlib.Tactic.Positivity

/-!
The numbers of `minmea_scan`.

A `Numeral` is a decimal number as it is written. The `'f'` conversion keeps as many
digits of its fraction as `int_least32_t` can hold, so the value it stores is the
number truncated towards zero at a power of ten, and exact where it fits.
-/

namespace Ok3506.Gnss

open CString Decimal

/-! ### Numerals -/

/-- A decimal number as a sentence writes it: blanks, a sign that is a minus or a plus, the
digits before the point, and those behind it where there is a point. -/
structure Numeral where
  blanks : Nat
  sign : Option Bool
  whole : List UInt8
  fraction : Option (List UInt8)
  deriving DecidableEq, Repr

namespace Numeral

def signText (n : Numeral) : List UInt8 :=
  n.sign.elim [] fun minus => if minus then [45] else [43]

def text (n : Numeral) : List UInt8 :=
  List.replicate n.blanks 32 ++ (n.signText ++ (n.whole ++ n.fraction.elim [] (fullStop :: ·)))

/-- The digits behind the point. -/
def decimals (n : Numeral) : List UInt8 := n.fraction.getD []

/-- The text is a number that the conversion reads: it has at least one digit. -/
structure Valid (n : Numeral) : Prop where
  whole : Digits n.whole
  decimals : Digits n.decimals
  some : n.whole ≠ [] ∨ n.decimals ≠ []

/-- `sign` of the conversion. -/
def signValue (n : Numeral) : Int := n.sign.elim 0 fun minus => if minus then -1 else 1

/-- The factor that the sign stands for in the value of the number. -/
def factor (n : Numeral) : Int := if n.sign = some true then -1 else 1

/-- The rational number that the text stands for, whatever the conversion keeps of it. -/
def value (n : Numeral) : ℚ :=
  n.factor * (digitsValue (n.whole ++ n.decimals) / 10 ^ n.decimals.length)

/-- `INT_LEAST32_MAX`. -/
def limit : Nat := 2147483647

/-- The digits behind the point that the conversion keeps: as long as the value stays within
the limit. -/
def kept (n : Numeral) : List UInt8 := fitting limit (digitsValue n.whole) n.decimals

/-- The `minmea_float` that the conversion stores for the number, or the way in which it
fails. -/
def float (n : Numeral) : Scan MinmeaFloat :=
  if limit < digitsValue n.whole then .error .parseError
  else if 9 < n.kept.length then .error .overflow
  else .ok ⟨n.factor * digitsValue (n.whole ++ n.kept), 10 ^ n.kept.length⟩

end Numeral

/-! ### The loop -/

section Loop

variable {s : FloatState} {c : UInt8} {l rest : List UInt8}

theorem intMax_eq : intMax = Numeral.limit := rfl

/-- The value of the digits read so far; -1, which says that there are none yet, counts as
0. -/
def FloatState.count (s : FloatState) : Nat := s.value.toNat

/-- The state of the conversion after it has taken one more digit. -/
def FloatState.next (s : FloatState) (digit : Nat) (scale : Int) : FloatState :=
  ⟨s.sign, (10 * s.count + digit : Nat), scale⟩

@[simp] theorem FloatState.count_next (s : FloatState) (digit : Nat) (scale : Int) :
    (s.next digit scale).count = 10 * s.count + digit :=
  Int.toNat_natCast _

theorem FloatState.digit_eq (known : -1 ≤ s.value) (digit : Nat) :
    s.digit digit =
      if Numeral.limit < 10 * s.count + digit then
        if s.scale ≠ 0 then .ok none else .error .parseError
      else if 10 * s.scale > intMax then .error .overflow
      else .ok (some (s.next digit (10 * s.scale))) := by
  have value : (if s.value = -1 then 0 else s.value) = (s.count : Int) := by
    unfold count
    split <;> omega
  have large : (s.count : Int) > (intMax - digit) / 10 ↔ Numeral.limit < 10 * s.count + digit := by
    rw [intMax_eq, Numeral.limit]
    omega
  simp only [FloatState.digit, value, large]
  split
  · rfl
  · split
    · rfl
    · simp [FloatState.next]

theorem FloatState.step_digit (h : isdigit c = true) : s.step c = s.digit (c.toNat - 48 : Nat) := by
  have plus : c ≠ 43 := by
    rintro rfl
    cases h
  have minus : c ≠ 45 := by
    rintro rfl
    cases h
  rw [FloatState.step, if_neg fun h => plus h.1, if_neg fun h => minus h.1, if_pos h]

theorem floatText_some {s' : FloatState} (h : s.step c = .ok (some s')) :
    floatText s (c :: l) = floatText s' l := by
  rw [floatText, h]
  rfl

theorem floatText_none (h : s.step c = .ok none) : floatText s (c :: l) = .ok s := by
  rw [floatText, h]
  rfl

theorem floatText_error {e : ScanStop} (h : s.step c = .error e) :
    floatText s (c :: l) = .error e := by
  rw [floatText, h]
  rfl

theorem floatText_blanks (k : Nat) : floatText {} (List.replicate k 32 ++ rest) =
    floatText {} rest := by
  induction k with
  | zero => rfl
  | succ k ih =>
      have stays : FloatState.step {} 32 = .ok (some {}) := rfl
      rw [List.replicate_succ, List.cons_append, floatText_some stays, ih]

/-- The state of the conversion after it has taken some digits. -/
def FloatState.read (s : FloatState) (digits : List UInt8) (scale : Int) : FloatState :=
  ⟨s.sign, if digits = [] then s.value else digitsFrom s.count digits, scale⟩

theorem read_nil : s.read [] s.scale = s := rfl

theorem count_read (scale : Int) : (s.read l scale).count = digitsFrom s.count l := by
  cases l with
  | nil => rfl
  | cons c l => exact Int.toNat_natCast _

/-- Digits are taken one after the other. -/
theorem read_next (scale scale' : Int) :
    (s.next (c.toNat - 48) scale).read l scale' = s.read (c :: l) scale' := by
  rw [FloatState.read, FloatState.read, FloatState.count_next, digitsFrom_cons,
    if_neg (List.cons_ne_nil c l)]
  cases l <;> rfl

theorem known_next (digit : Nat) (scale : Int) : -1 ≤ (s.next digit scale).value := by
  have counted : (s.next digit scale).value = (10 * s.count + digit : Nat) := rfl
  omega

/-- The conversion takes the digits before the point, or fails when their value does not
fit. -/
theorem floatText_whole (digits : Digits l) (known : -1 ≤ s.value) (start : s.scale = 0)
    (fits : s.count ≤ Numeral.limit) :
    floatText s (l ++ rest) =
      if Numeral.limit < digitsFrom s.count l then .error .parseError
      else floatText (s.read l 0) rest := by
  induction l generalizing s with
  | nil => rw [digitsFrom_nil, if_neg (Nat.not_lt.mpr fits), List.nil_append, ← start, read_nil]
  | cons c l ih =>
      have first := digits c List.mem_cons_self
      have later : Digits l := fun d mem => digits d (List.mem_cons_of_mem c mem)
      have step := FloatState.step_digit (s := s) first
      rw [FloatState.digit_eq known, start, mul_zero] at step
      rw [List.cons_append, digitsFrom_cons]
      by_cases large : Numeral.limit < 10 * s.count + (c.toNat - 48)
      · rw [if_pos large, if_neg (by decide)] at step
        rw [floatText_error step, if_pos (large.trans_le (le_digitsFrom _ l))]
      · rw [if_neg large, if_neg (by decide)] at step
        have fits' := Nat.not_lt.mp large
        rw [floatText_some step, ih later (known_next _ _) rfl (by rwa [FloatState.count_next]),
          read_next, FloatState.count_next]

theorem ten_pow_le_intMax {k : Nat} (h : k ≤ 9) : ¬ (10 : Int) ^ k > intMax := by
  have top : (10 : Int) ^ k ≤ 10 ^ 9 := pow_le_pow_right₀ (by decide) h
  have room : (10 : Int) ^ 9 ≤ intMax := by decide
  omega

/-- The conversion takes the digits behind the point that fit, and its scale overflows when
there are more than nine of them. -/
theorem floatText_decimals (digits : Digits l) (known : -1 ≤ s.value) {k : Nat}
    (scale : s.scale = 10 ^ k) (small : k ≤ 9) :
    floatText s l =
      if 9 < k + (fitting Numeral.limit s.count l).length then .error .overflow
      else .ok (s.read (fitting Numeral.limit s.count l)
        (10 ^ (k + (fitting Numeral.limit s.count l).length))) := by
  induction l generalizing s k with
  | nil =>
      have nothing : fitting Numeral.limit s.count [] = [] := rfl
      rw [nothing, List.length_nil, Nat.add_zero, if_neg (Nat.not_lt.mpr small), ← scale, read_nil]
      rfl
  | cons c l ih =>
      have first := digits c List.mem_cons_self
      have later : Digits l := fun d mem => digits d (List.mem_cons_of_mem c mem)
      have step := FloatState.step_digit (s := s) first
      have positive : s.scale ≠ 0 := by
        rw [scale]
        exact pow_ne_zero k (by decide)
      have next : 10 * s.scale = 10 ^ (k + 1) := by
        rw [scale, pow_succ, Int.mul_comm]
      rw [FloatState.digit_eq known, next] at step
      rw [fitting]
      by_cases large : Numeral.limit < 10 * s.count + (c.toNat - 48)
      · rw [if_pos large, if_pos positive] at step
        rw [floatText_none step, if_neg (Nat.not_le.mpr large), List.length_nil, Nat.add_zero,
          if_neg (Nat.not_lt.mpr small), ← scale, read_nil]
      · rw [if_neg large] at step
        rw [if_pos (Nat.not_lt.mp large), List.length_cons]
        rcases Nat.lt_or_ge k 9 with room | full
        · rw [if_neg (ten_pow_le_intMax room)] at step
          have count := FloatState.count_next s (c.toNat - 48) (10 ^ (k + 1))
          rw [floatText_some step, ih later (known_next _ _) rfl room, count, read_next,
            Nat.succ_add_eq_add_succ]
        · -- The scale itself no longer fits.
          obtain rfl : k = 9 := Nat.le_antisymm small full
          rw [if_pos (by decide)] at step
          rw [floatText_error step, if_pos (by omega)]

end Loop

/-! ### The conversion -/

section Conversion

variable {n : Numeral}

theorem floatText_sign (n : Numeral) (rest : List UInt8) :
    floatText {} (n.signText ++ rest) = floatText ⟨n.signValue, -1, 0⟩ rest := by
  rcases n with ⟨blanks, - | - | -, whole, fraction⟩
  · rfl
  · exact floatText_some rfl
  · exact floatText_some rfl

/-- A state with digits stores its value and its scale, with the sign. -/
theorem result_numeral (n : Numeral) (value : Nat) (scale : Int) :
    (FloatState.mk n.signValue value scale).result =
      .ok ⟨n.factor * value, if scale = 0 then 1 else scale⟩ := by
  have some : ¬ (value : Int) = -1 := by omega
  rcases n with ⟨blanks, - | - | -, whole, fraction⟩ <;>
    simp [FloatState.result, some, Numeral.signValue, Numeral.factor]

/-- Where there are digits, some are kept. -/
theorem some_kept (valid : n.Valid) : n.whole ≠ [] ∨ n.kept ≠ [] := by
  rcases valid.some with some | some
  · exact .inl some
  · by_cases whole : n.whole = []
    · right
      rw [Numeral.kept, whole]
      cases eq : n.decimals with
      | nil => exact absurd eq some
      | cons c l =>
          have digit := digit_lt (valid.decimals c (eq ▸ List.mem_cons_self))
          have small : 10 * digitsValue [] + (c.toNat - 48) ≤ Numeral.limit := by
            rw [digitsValue, digitsFrom_nil, Numeral.limit]
            omega
          rw [fitting, if_pos small]
          exact List.cons_ne_nil _ _
    · exact .inl whole

/-- Reading the whole part and then the fraction gives the kept digits of both as one value.
-/
theorem read_read (sign : Int) (n : Numeral) (some : n.whole ≠ [] ∨ n.kept ≠ []) (scale : Int) :
    ((FloatState.mk sign (-1) 0).read n.whole 1).read n.kept scale =
      ⟨sign, digitsValue (n.whole ++ n.kept), scale⟩ := by
  unfold FloatState.read FloatState.count digitsValue
  by_cases whole : n.whole = []
  · have kept := some.resolve_left fun h => h whole
    simp [whole, kept]
  · by_cases kept : n.kept = []
    · simp [whole, kept]
    · simp [whole, kept]

theorem floatText_numeral (valid : n.Valid) :
    (do (← floatText {} n.text).result) = n.float := by
  have start : (FloatState.mk n.signValue (-1) 0).count = 0 := rfl
  have fits : (FloatState.mk n.signValue (-1) 0).count ≤ Numeral.limit := Nat.zero_le _
  rw [Numeral.text, floatText_blanks, floatText_sign,
    floatText_whole valid.whole (le_refl _) rfl fits, start, ← digitsValue, Numeral.float]
  by_cases large : Numeral.limit < digitsValue n.whole
  · rw [if_pos large, if_pos large, error_bind]
  · rw [if_neg large, if_neg large]
    cases hf : n.fraction with
    | none =>
        have none : n.decimals = [] := by rw [Numeral.decimals, hf]; rfl
        have kept : n.kept = [] := by rw [Numeral.kept, none]; rfl
        have some : n.whole ≠ [] := (some_kept valid).resolve_right fun h => h kept
        have state : (FloatState.mk n.signValue (-1) 0).read n.whole 0 =
            ⟨n.signValue, digitsValue n.whole, 0⟩ := by
          rw [FloatState.read, if_neg some, start, ← digitsValue]
        rw [Option.elim_none, floatText, pure_eq_ok, ok_bind, state, result_numeral, kept]
        simp
    | some decimals =>
        have decimals_eq : n.decimals = decimals := by rw [Numeral.decimals, hf]; rfl
        have point : FloatState.step ((FloatState.mk n.signValue (-1) 0).read n.whole 0) fullStop =
            .ok (some ((FloatState.mk n.signValue (-1) 0).read n.whole 1)) := rfl
        have known : -1 ≤ ((FloatState.mk n.signValue (-1) 0).read n.whole 1).value := by
          unfold FloatState.read
          dsimp only
          split <;> omega
        have count : ((FloatState.mk n.signValue (-1) 0).read n.whole 1).count =
            digitsValue n.whole := count_read 1
        have digits : Digits decimals := decimals_eq ▸ valid.decimals
        have kept : fitting Numeral.limit (digitsValue n.whole) decimals = n.kept := by
          rw [Numeral.kept, decimals_eq]
        rw [Option.elim_some, floatText_some point, floatText_decimals digits known (k := 0) rfl
          (Nat.zero_le 9), count, kept, Nat.zero_add]
        by_cases many : 9 < n.kept.length
        · rw [if_pos many, if_pos many, error_bind]
        · have scale : (10 : Int) ^ n.kept.length ≠ 0 := pow_ne_zero _ (by decide)
          rw [if_neg many, if_neg many, ok_bind, read_read _ _ (some_kept valid), result_numeral,
            if_neg scale]

theorem read_numeral (valid : n.Valid) : Directive.read .f (some n.text) = n.float :=
  floatText_numeral valid

/-! ### Accuracy -/

theorem digitsValue_append (l r : List UInt8) :
    digitsValue (l ++ r) = digitsValue l * 10 ^ r.length + digitsValue r := by
  rw [digitsValue, digitsFrom_append, digitsFrom_eq, ← digitsValue]

/-- What is kept is the number up to less than one unit of the last digit kept. -/
theorem kept_le_value (valid : n.Valid) :
    (digitsValue (n.whole ++ n.kept) : ℚ) / 10 ^ n.kept.length ≤
        digitsValue (n.whole ++ n.decimals) / 10 ^ n.decimals.length ∧
      (digitsValue (n.whole ++ n.decimals) : ℚ) / 10 ^ n.decimals.length <
        digitsValue (n.whole ++ n.kept) / 10 ^ n.kept.length + 1 / 10 ^ n.kept.length := by
  obtain ⟨dropped, split⟩ := fitting_front Numeral.limit (digitsValue n.whole) n.decimals
  rw [← Numeral.kept] at split
  have digits : Digits dropped := fun c mem =>
    valid.decimals c (split ▸ List.mem_append_right _ mem)
  have small : (digitsValue dropped : ℚ) < 10 ^ dropped.length := by
    exact_mod_cast digitsValue_lt digits
  have nonneg : (0 : ℚ) ≤ digitsValue dropped := Nat.cast_nonneg _
  rw [← split, ← List.append_assoc, digitsValue_append (n.whole ++ n.kept), List.length_append]
  push_cast
  generalize (digitsValue (n.whole ++ n.kept) : ℚ) = v at *
  generalize (digitsValue dropped : ℚ) = d at *
  have p : (0 : ℚ) < 10 ^ n.kept.length := by positivity
  have q : (0 : ℚ) < 10 ^ dropped.length := by positivity
  rw [pow_add]
  generalize (10 : ℚ) ^ n.kept.length = a at *
  generalize (10 : ℚ) ^ dropped.length = b at *
  constructor
  · rw [div_le_div_iff₀ p (by positivity)]
    nlinarith
  · rw [← add_div, div_lt_div_iff₀ (by positivity) p]
    nlinarith

theorem isField_text (valid : n.Valid) : MinmeaField n.text := by
  have digits {l : List UInt8} (h : Digits l) : MinmeaField l := fun c mem =>
    isfield_of_isdigit (h c mem)
  intro c mem
  rcases List.mem_append.mp mem with mem | mem
  · rw [List.eq_of_mem_replicate mem]
    rfl
  · rcases List.mem_append.mp mem with mem | mem
    · rcases n with ⟨blanks, - | - | -, whole, fraction⟩
      · cases mem
      · rw [List.mem_singleton.mp mem]
        rfl
      · rw [List.mem_singleton.mp mem]
        rfl
    · rcases List.mem_append.mp mem with mem | mem
      · exact digits valid.whole c mem
      · have decimals := valid.decimals
        unfold Numeral.decimals at decimals
        cases hf : n.fraction with
        | none =>
            rw [hf] at mem
            cases mem
        | some l =>
            rw [hf] at mem decimals
            rcases List.mem_cons.mp mem with rfl | mem
            · rfl
            · exact digits decimals c mem

/-- Ten digits are kept when the number they end fits. -/
theorem ten_le_kept_iff (small : digitsValue n.whole ≤ Numeral.limit) :
    9 < n.kept.length ↔
      10 ≤ n.decimals.length ∧ digitsValue (n.whole ++ n.decimals.take 10) ≤ Numeral.limit := by
  rw [digitsValue, digitsFrom_append]
  exact le_length_fitting_iff (k := 10) small

/-- **Accuracy.** A number that fits is stored exactly; from the others digits of the
fraction are cut off, which loses less than one unit of the last one that is kept. A
number whose integer part does not fit is refused, and with ten kept digits the scale
overflows. -/
theorem scanFloat_numeral (n : Numeral) (valid : n.Valid) (rest : List UInt8)
    (ends : FieldEnd rest) :
    (Numeral.limit < digitsValue n.whole →
      scanFloat (some (n.text ++ rest)) = .error .parseError) ∧
    (digitsValue n.whole ≤ Numeral.limit → 10 ≤ n.decimals.length →
      digitsValue (n.whole ++ n.decimals.take 10) ≤ Numeral.limit →
      scanFloat (some (n.text ++ rest)) = .error .overflow) ∧
    (digitsValue n.whole ≤ Numeral.limit →
      (10 ≤ n.decimals.length → Numeral.limit < digitsValue (n.whole ++ n.decimals.take 10)) →
      ∃ x k, scanFloat (some (n.text ++ rest)) = .ok x ∧ x.scale = 10 ^ k ∧ k ≤ 9 ∧
        |(x.value : ℚ) / x.scale| ≤ |n.value| ∧ |n.value - x.value / x.scale| < 1 / x.scale ∧
        (digitsValue (n.whole ++ n.decimals) ≤ Numeral.limit →
          (x.value : ℚ) / x.scale = n.value ∧ k = n.decimals.length)) := by
  have run : scanFloat (some (n.text ++ rest)) = n.float := by
    rw [← floatText_numeral valid, scanFloat, floatLoop_eq {} (isField_text valid) ends]
  rw [run, Numeral.float]
  refine ⟨fun large => if_pos large, fun small many fits => ?_, fun small few => ?_⟩
  · rw [if_neg (Nat.not_lt.mpr small), if_pos ((ten_le_kept_iff small).mpr ⟨many, fits⟩)]
  · have short : ¬ 9 < n.kept.length := fun long =>
      absurd ((ten_le_kept_iff small).mp long).2
        (Nat.not_le.mpr (few ((ten_le_kept_iff small).mp long).1))
    refine ⟨_, n.kept.length, by rw [if_neg (Nat.not_lt.mpr small), if_neg short], rfl,
      Nat.not_lt.mp short, ?_⟩
    obtain ⟨below, above⟩ := kept_le_value valid
    have exact_ : digitsValue (n.whole ++ n.decimals) ≤ Numeral.limit → n.kept = n.decimals := by
      intro fits
      rw [digitsValue, digitsFrom_append] at fits
      exact fitting_eq_self fits
    have sign : (n.factor : ℚ) = 1 ∨ (n.factor : ℚ) = -1 := by
      unfold Numeral.factor
      split <;> simp
    have quotient : ((n.factor * digitsValue (n.whole ++ n.kept) : Int) : ℚ) /
        ((10 ^ n.kept.length : Int) : ℚ) =
          n.factor * (digitsValue (n.whole ++ n.kept) / 10 ^ n.kept.length) := by
      push_cast
      rw [mul_div_assoc]
    have positive : (0 : ℚ) ≤ digitsValue (n.whole ++ n.kept) / 10 ^ n.kept.length :=
      div_nonneg (Nat.cast_nonneg _) (by positivity)
    dsimp only
    rw [quotient, Numeral.value]
    refine ⟨?_, ?_, fun fits => ?_⟩
    · rw [abs_mul, abs_mul, abs_of_nonneg positive, abs_of_nonneg (positive.trans below)]
      exact mul_le_mul_of_nonneg_left below (abs_nonneg _)
    · have unit : |(n.factor : ℚ)| = 1 := by rcases sign with h | h <;> simp [h]
      rw [← mul_sub, abs_mul, unit, one_mul, abs_of_nonneg (sub_nonneg.mpr below)]
      push_cast
      linarith
    · rw [exact_ fits]
      exact ⟨rfl, rfl⟩

/-- `-14507.3612345`, of which two digits do not fit. -/
def longNumeral : Numeral := ⟨0, some true, ascii "14507", some (ascii "3612345")⟩

theorem longNumeral_valid : longNumeral.Valid where
  whole := by decide
  decimals := by decide
  some := by decide

theorem scanFloat_numeral_long :
    ∃ (x : MinmeaFloat) (k : Nat), scanFloat (some (ascii "-14507.3612345,")) = .ok x ∧
      x.scale = 10 ^ k ∧ |longNumeral.value - x.value / x.scale| < 1 / x.scale := by
  obtain ⟨x, k, run, scale, -, -, close, -⟩ :=
    (scanFloat_numeral longNumeral longNumeral_valid [comma] ⟨⟨comma, [], rfl, rfl⟩⟩).2.2
      (by decide) (by decide)
  exact ⟨x, k, run, scale, close⟩

end Conversion

/-! ### Coordinates -/

/-- `minmea_tocoord`, with `none` for NaN. -/
def minmeaTocoord (f : MinmeaFloat) : Option ℚ :=
  if f.scale = 0 then none
  else if f.scale > intMax.tdiv 100 then none
  else if f.scale < intMin.tdiv 100 then none
  else
    let degrees := f.value.tdiv (f.scale * 100)
    let minutes := f.value.tmod (f.scale * 100)
    some (degrees + minutes / (60 * f.scale : Int))

section Coordinates

/-- The angle that degrees and minutes `DDMM.mmm` stand for. -/
def Numeral.angle (n : Numeral) : ℚ :=
  n.factor * ((digitsValue n.whole / 100 : Nat) +
    ((digitsValue n.whole % 100 : Nat) + digitsValue n.decimals / 10 ^ n.decimals.length) / 60)

/-- `minmea_tocoord` of the negated value is the negated angle, so only north and east need
a proof. -/
theorem minmeaTocoord_neg (f : MinmeaFloat) :
    minmeaTocoord ⟨-f.value, f.scale⟩ = (minmeaTocoord f).map (-·) := by
  unfold minmeaTocoord
  dsimp only
  split_ifs
  · rfl
  · rfl
  · rfl
  · rw [Int.neg_tdiv, Int.neg_tmod, Option.map_some]
    push_cast
    ring_nf

/-- With a scale below eight decimals the degrees and the minutes are taken apart without
loss. -/
theorem minmeaTocoord_parts (whole fraction k : Nat) (small : fraction < 10 ^ k) (fine : k ≤ 7) :
    minmeaTocoord ⟨(whole * 10 ^ k + fraction : Nat), 10 ^ k⟩ =
      some (((whole / 100 : Nat) : ℚ) + ((whole % 100 : Nat) + fraction / 10 ^ k) / 60) := by
  have top : (10 : Int) ^ k ≤ 10 ^ 7 := pow_le_pow_right₀ (by decide) fine
  have bound : (10 : Int) ^ 7 ≤ intMax.tdiv 100 := by decide
  have low : intMin.tdiv 100 ≤ 0 := by decide
  have positive : (0 : Int) < 10 ^ k := pow_pos (by decide) k
  have width : (10 : Int) ^ k * 100 = ((100 * 10 ^ k : Nat) : Int) := by push_cast; ring
  have split : whole * 10 ^ k + fraction =
      100 * 10 ^ k * (whole / 100) + (whole % 100 * 10 ^ k + fraction) := by
    conv_lhs => rw [← Nat.div_add_mod whole 100]
    ring
  have rest : whole % 100 * 10 ^ k + fraction < 100 * 10 ^ k := by
    have := Nat.mod_lt whole (show 0 < 100 by decide)
    calc whole % 100 * 10 ^ k + fraction < whole % 100 * 10 ^ k + 10 ^ k :=
          Nat.add_lt_add_left small _
      _ = (whole % 100 + 1) * 10 ^ k := by ring
      _ ≤ 100 * 10 ^ k := Nat.mul_le_mul_right _ this
  have degrees : (whole * 10 ^ k + fraction) / (100 * 10 ^ k) = whole / 100 := by
    rw [split, Nat.mul_add_div (by positivity), Nat.div_eq_of_lt rest, Nat.add_zero]
  have minutes : (whole * 10 ^ k + fraction) % (100 * 10 ^ k) =
      whole % 100 * 10 ^ k + fraction := by
    rw [split, Nat.mul_add_mod, Nat.mod_eq_of_lt rest]
  have scale : ((10 : ℚ) ^ k) ≠ 0 := pow_ne_zero k (by norm_num)
  unfold minmeaTocoord
  dsimp only
  rw [if_neg (by omega), if_neg (by omega), if_neg (by omega), width, ← Int.ofNat_tdiv,
    ← Int.ofNat_tmod, degrees, minutes, Option.some.injEq]
  generalize whole / 100 = degrees
  generalize whole % 100 = minutes
  push_cast
  field_simp

/-- A scale of eight decimals or more is refused. -/
theorem minmeaTocoord_fine (value : Int) {k : Nat} (fine : 8 ≤ k) :
    minmeaTocoord ⟨value, 10 ^ k⟩ = none := by
  have low : (10 : Int) ^ 8 ≤ 10 ^ k := pow_le_pow_right₀ (by decide) fine
  have bound : intMax.tdiv 100 < 10 ^ 8 := by decide
  unfold minmeaTocoord
  dsimp only
  split
  · rfl
  · rw [if_pos (by omega)]

/-- The kept digits as one number are the value that is stored, scaled to the fraction. -/
theorem digitsValue_kept (n : Numeral) :
    digitsValue (n.whole ++ n.kept) =
      digitsValue n.whole * 10 ^ n.kept.length + digitsValue n.kept :=
  digitsValue_append _ _

theorem digits_kept {n : Numeral} (valid : n.Valid) : Digits n.kept := fun c mem =>
  valid.decimals c ((fitting_front _ _ _).subset mem)

/-- The kept fraction of the minutes is at most the written one, and differs by less than
one unit of its last digit. -/
theorem kept_fraction {n : Numeral} (valid : n.Valid) :
    (digitsValue n.kept : ℚ) / 10 ^ n.kept.length ≤
        digitsValue n.decimals / 10 ^ n.decimals.length ∧
      (digitsValue n.decimals : ℚ) / 10 ^ n.decimals.length <
        digitsValue n.kept / 10 ^ n.kept.length + 1 / 10 ^ n.kept.length := by
  have whole {l : List UInt8} : (digitsValue (n.whole ++ l) : ℚ) / 10 ^ l.length =
      digitsValue n.whole + digitsValue l / 10 ^ l.length := by
    have scale : ((10 : ℚ) ^ l.length) ≠ 0 := pow_ne_zero _ (by norm_num)
    rw [digitsValue_append]
    push_cast
    rw [add_div, mul_div_cancel_right₀ _ scale]
  have bounds := kept_le_value valid
  rw [whole, whole] at bounds
  constructor
  · linarith [bounds.1]
  · linarith [bounds.2]

/-- **Coordinates.** The angle `DDMM.mmm` comes out up to less than one unit of the last
digit of the minutes that is kept, never too large, and exactly if all are; from eight
kept digits on it is NaN. -/
theorem minmeaTocoord_numeral (n : Numeral) (valid : n.Valid) (direction : Int)
    (sign : direction = 1 ∨ direction = -1) :
    (n.kept.length ≤ 7 → ∃ q, minmeaTocoord
        ⟨n.factor * digitsValue (n.whole ++ n.kept) * direction, 10 ^ n.kept.length⟩ = some q ∧
      |q| ≤ |n.angle| ∧ |direction * n.angle - q| < 1 / (60 * 10 ^ n.kept.length) ∧
      (n.kept = n.decimals → q = direction * n.angle)) ∧
    (8 ≤ n.kept.length → minmeaTocoord
        ⟨n.factor * digitsValue (n.whole ++ n.kept) * direction, 10 ^ n.kept.length⟩ = none) := by
  refine ⟨fun fine => ?_, minmeaTocoord_fine _⟩
  have parts := minmeaTocoord_parts (digitsValue n.whole) (digitsValue n.kept) n.kept.length
    (digitsValue_lt (digits_kept valid)) fine
  rw [← digitsValue_kept] at parts
  obtain ⟨below, above⟩ := kept_fraction valid
  generalize hd : ((digitsValue n.whole / 100 : Nat) : ℚ) = degrees at parts
  generalize hm : ((digitsValue n.whole % 100 : Nat) : ℚ) = minutes at parts
  have angle : n.angle = n.factor *
      (degrees + (minutes + digitsValue n.decimals / 10 ^ n.decimals.length) / 60) := by
    rw [Numeral.angle, hd, hm]
  have unit : (1 : ℚ) / (60 * 10 ^ n.kept.length) = 1 / 10 ^ n.kept.length / 60 := by
    rw [div_div, mul_comm]
  have nonneg : 0 ≤ degrees + (minutes + digitsValue n.kept / 10 ^ n.kept.length) / 60 := by
    rw [← hd, ← hm]
    positivity
  have exact_ : n.kept = n.decimals →
      (digitsValue n.kept : ℚ) / 10 ^ n.kept.length =
        digitsValue n.decimals / 10 ^ n.decimals.length := fun eq => by rw [eq]
  generalize (digitsValue n.kept : ℚ) / 10 ^ n.kept.length = kept at *
  generalize (digitsValue n.decimals : ℚ) / 10 ^ n.decimals.length = decimals at *
  have both : n.factor * direction = 1 ∧ (n.factor : ℚ) * direction = 1 ∨
      n.factor * direction = -1 ∧ (n.factor : ℚ) * direction = -1 := by
    unfold Numeral.factor
    rcases sign with rfl | rfl <;> split <;> norm_num
  have size : |(n.factor : ℚ)| = 1 := by
    unfold Numeral.factor
    split <;> norm_num
  have regroup : n.factor * digitsValue (n.whole ++ n.kept) * direction =
      n.factor * direction * digitsValue (n.whole ++ n.kept) := by ring
  have target : (direction : ℚ) * n.angle =
      n.factor * direction * (degrees + (minutes + decimals) / 60) := by
    rw [angle]
    ring
  have large : |n.angle| = degrees + (minutes + decimals) / 60 := by
    rw [angle, abs_mul, size, one_mul, abs_of_nonneg (by linarith)]
  rw [regroup, target, large, unit]
  rcases both with ⟨plus, plus'⟩ | ⟨minus, minus'⟩
  · rw [plus, plus', one_mul, one_mul]
    refine ⟨_, parts, ?_, ?_, fun eq => by rw [exact_ eq]⟩
    · rw [abs_of_nonneg nonneg]
      linarith
    · rw [abs_of_nonneg (by linarith)]
      linarith
  · rw [minus, minus', neg_one_mul, neg_one_mul]
    refine ⟨_, (minmeaTocoord_neg _).trans (by rw [parts]), ?_, ?_,
      fun eq => by rw [exact_ eq]⟩
    · rw [abs_neg, abs_of_nonneg nonneg]
      linarith
    · rw [abs_of_nonpos (by linarith)]
      linarith

end Coordinates

end Ok3506.Gnss
