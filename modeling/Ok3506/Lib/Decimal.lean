import Ok3506.Lib.CString
import Mathlib.Tactic.Ring

/-!
Decimal digits as texts.

`digitsValue` is the number a text of digits spells. `decimal` writes a number
without leading zeros, `padded` with a fixed number of digits. `fitting` is the part
of a text of digits that can follow a number without passing a bound; it is what
remains of a fraction in a fixed-point format of bounded size.
-/

namespace Ok3506.Decimal

open CString

/-- The number that digits spell, behind those that spell `n`. -/
def digitsFrom (n : Nat) (digits : List UInt8) : Nat :=
  digits.foldl (fun n c => 10 * n + (c.toNat - 48)) n

/-- The number that digits spell. -/
def digitsValue (digits : List UInt8) : Nat := digitsFrom 0 digits

/-- A text of digits. -/
def Digits (l : List UInt8) : Prop := ∀ c ∈ l, isdigit c = true

instance (l : List UInt8) : Decidable (Digits l) :=
  decidable_of_iff (l.all isdigit = true) List.all_eq_true

/-- The character of a digit. -/
def digitChar (d : Nat) : UInt8 := UInt8.ofNat (48 + d)

/-- `n` with `k` digits, as far as it fits. -/
def padded : Nat → Nat → List UInt8
  | 0, _ => []
  | k + 1, n => padded k (n / 10) ++ [digitChar (n % 10)]

/-- The longest part of some digits with which `n` does not pass `bound`. -/
def fitting (bound : Nat) : Nat → List UInt8 → List UInt8
  | _, [] => []
  | n, c :: digits =>
      if 10 * n + (c.toNat - 48) ≤ bound then
        c :: fitting bound (10 * n + (c.toNat - 48)) digits
      else []

variable {l r : List UInt8} {n k bound : Nat} {c : UInt8}

/-! ### Values -/

@[simp] theorem digitsFrom_nil : digitsFrom n [] = n := rfl

@[simp] theorem digitsFrom_cons :
    digitsFrom n (c :: l) = digitsFrom (10 * n + (c.toNat - 48)) l := by
  rw [digitsFrom, List.foldl_cons, ← digitsFrom]

@[simp] theorem digitsFrom_append : digitsFrom n (l ++ r) = digitsFrom (digitsFrom n l) r :=
  List.foldl_append

theorem digitsFrom_eq (n : Nat) (l : List UInt8) :
    digitsFrom n l = n * 10 ^ l.length + digitsValue l := by
  induction l using List.reverseRecOn with
  | nil => simp [digitsValue]
  | append_singleton l c ih =>
      simp only [digitsValue, digitsFrom_append, digitsFrom_cons, digitsFrom_nil, ih,
        List.length_append, List.length_singleton, Nat.pow_succ]
      ring

theorem le_digitsFrom (n : Nat) (l : List UInt8) : n ≤ digitsFrom n l := by
  rw [digitsFrom_eq]
  exact Nat.le_add_right_of_le (Nat.le_mul_of_pos_right n (Nat.pow_pos (by decide)))

theorem digit_lt (h : isdigit c = true) : c.toNat - 48 < 10 := by
  simp only [isdigit, Bool.and_eq_true, decide_eq_true_eq, UInt8.le_iff_toNat_le,
    UInt8.reduceToNat] at h
  omega

theorem digitsValue_lt (h : Digits l) : digitsValue l < 10 ^ l.length := by
  induction l using List.reverseRecOn with
  | nil => simp [digitsValue]
  | append_singleton l c ih =>
      have before := ih fun d mem => h d (List.mem_append_left _ mem)
      have last := digit_lt (h c (List.mem_append_right l List.mem_cons_self))
      simp only [digitsValue, digitsFrom_append, digitsFrom_cons, digitsFrom_nil,
        List.length_append, List.length_singleton, Nat.pow_succ] at before ⊢
      omega

/-! ### Written numbers -/

theorem digitChar_toNat {d : Nat} (h : d < 10) : (digitChar d).toNat = 48 + d :=
  UInt8.toNat_ofNat_of_lt' (by simp only [UInt8.size]; omega)

theorem isdigit_digitChar {d : Nat} (h : d < 10) : isdigit (digitChar d) = true := by
  simp only [isdigit, UInt8.le_iff_toNat_le, digitChar_toNat h, UInt8.reduceToNat,
    Bool.and_eq_true, decide_eq_true_eq]
  omega

@[simp] theorem length_padded : (padded k n).length = k := by
  induction k generalizing n with
  | zero => rfl
  | succ k ih => rw [padded, List.length_append, ih, List.length_singleton]

theorem digits_padded (k n : Nat) : Digits (padded k n) := by
  induction k generalizing n with
  | zero => exact fun c mem => absurd mem List.not_mem_nil
  | succ k ih =>
      intro c mem
      rcases List.mem_append.mp mem with mem | mem
      · exact ih (n / 10) c mem
      · rw [List.mem_singleton.mp mem]
        exact isdigit_digitChar (Nat.mod_lt n (by decide))

/-- A fixed number of digits spells the last digits of the number. -/
theorem digitsValue_padded (k n : Nat) : digitsValue (padded k n) = n % 10 ^ k := by
  induction k generalizing n with
  | zero => simp [padded, digitsValue, Nat.mod_one]
  | succ k ih =>
      have last : (digitChar (n % 10)).toNat - 48 = n % 10 := by
        rw [digitChar_toNat (Nat.mod_lt n (by decide))]
        omega
      have first : digitsFrom 0 (padded k (n / 10)) = n / 10 % 10 ^ k := ih (n / 10)
      rw [digitsValue, padded, digitsFrom_append, first, digitsFrom_cons, digitsFrom_nil, last,
        Nat.pow_succ, Nat.mul_comm (10 ^ k), Nat.mod_mul]
      ring

theorem decimal_of_lt (h : n < 10) : decimal n = [digitChar n] := by
  rw [decimal, Nat.toDigits_of_lt_base h, List.map_singleton,
    Nat.toNat_digitChar_of_lt_ten h]
  rfl

theorem decimal_of_le (h : 10 ≤ n) : decimal n = decimal (n / 10) ++ [digitChar (n % 10)] := by
  rw [decimal, Nat.toDigits_of_base_le (by decide) h, List.map_append, List.map_singleton,
    Nat.toNat_digitChar_of_lt_ten (Nat.mod_lt n (by decide))]
  rfl

theorem digits_decimal (n : Nat) : Digits (decimal n) := by
  induction n using Nat.strong_induction_on with
  | _ n ih =>
      rcases Nat.lt_or_ge n 10 with small | large
      · rw [decimal_of_lt small]
        intro c mem
        rw [List.mem_singleton.mp mem]
        exact isdigit_digitChar small
      · rw [decimal_of_le large]
        intro c mem
        rcases List.mem_append.mp mem with mem | mem
        · exact ih (n / 10) (by omega) c mem
        · rw [List.mem_singleton.mp mem]
          exact isdigit_digitChar (Nat.mod_lt n (by decide))

theorem digitsValue_decimal (n : Nat) : digitsValue (decimal n) = n := by
  induction n using Nat.strong_induction_on with
  | _ n ih =>
      rcases Nat.lt_or_ge n 10 with small | large
      · rw [decimal_of_lt small, digitsValue, digitsFrom_cons, digitsFrom_nil,
          digitChar_toNat small]
        omega
      · have first : digitsFrom 0 (decimal (n / 10)) = n / 10 := ih (n / 10) (by omega)
        rw [decimal_of_le large, digitsValue, digitsFrom_append, first, digitsFrom_cons,
          digitsFrom_nil, digitChar_toNat (Nat.mod_lt n (by decide))]
        omega

/-! ### What fits -/

theorem fitting_front (bound n : Nat) (l : List UInt8) : fitting bound n l <+: l := by
  induction l generalizing n with
  | nil => exact List.prefix_rfl
  | cons c l ih =>
      rw [fitting]
      split
      · exact List.cons_prefix_cons.mpr ⟨rfl, ih _⟩
      · exact List.nil_prefix

/-- `k` digits fit when the number they end does. -/
theorem le_length_fitting_iff (h : n ≤ bound) :
    k ≤ (fitting bound n l).length ↔ k ≤ l.length ∧ digitsFrom n (l.take k) ≤ bound := by
  induction l generalizing n k with
  | nil => simp [fitting, h]
  | cons c l ih =>
      cases k with
      | zero => simp [h]
      | succ k =>
          rw [fitting, List.take_succ_cons, digitsFrom_cons, List.length_cons,
            Nat.add_le_add_iff_right]
          split
          · rename_i small
            rw [List.length_cons, Nat.add_le_add_iff_right, ih small]
          · rename_i large
            have more := le_digitsFrom (10 * n + (c.toNat - 48)) (l.take k)
            rw [List.length_nil]
            omega

/-- All of it fits when the whole number does. -/
theorem fitting_eq_self (h : digitsFrom n l ≤ bound) : fitting bound n l = l := by
  induction l generalizing n with
  | nil => rfl
  | cons c l ih =>
      have small := (le_digitsFrom _ l).trans h
      rw [fitting, if_pos small, ih h]

end Ok3506.Decimal
