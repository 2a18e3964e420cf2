import Mathlib.Algebra.Order.Ring.Nat
import Mathlib.Data.List.Infix

/-!
C strings as lists, without the terminating NUL: the searches of `string.h` and
the directives of `sscanf`.
-/

namespace Ok3506.CString

universe u

/-- The bytes of an ASCII text. -/
def ascii (s : String) : List UInt8 := s.toList.map fun c => UInt8.ofNat c.toNat

/-- The string in a buffer: what stands before the first NUL. -/
def cstr (buffer : List UInt8) : List UInt8 := buffer.takeWhile (· ≠ 0)

/-- What `%zu` prints. -/
def decimal (n : Nat) : List UInt8 := (Nat.toDigits 10 n).map fun c => UInt8.ofNat c.toNat

theorem length_decimal_le_iff {n k : Nat} (h : 0 < k) : (decimal n).length ≤ k ↔ n < 10 ^ k := by
  rw [decimal, List.length_map]
  exact Nat.length_toDigits_le_iff (by decide) h

theorem length_decimal_pos (n : Nat) : 0 < (decimal n).length := by
  rw [decimal, List.length_map]
  exact Nat.length_toDigits_pos

/-! ### Directives of `sscanf` in the C locale -/

def isspace (c : UInt8) : Bool := c = 32 || (9 ≤ c && c ≤ 13)

def isdigit (c : UInt8) : Bool := 48 ≤ c && c ≤ 57

def toupper (c : UInt8) : UInt8 := if 97 ≤ c ∧ c ≤ 122 then c - 32 else c

/-- A literal part of the format. -/
def scanText (text s : List UInt8) : Option (List UInt8) :=
  if text <+: s then some (s.drop text.length) else none

/-- The sign that `%d` accepts: whether it is a minus, and the rest. -/
def scanSign : List UInt8 → Bool × List UInt8
  | 45 :: s => (true, s)
  | 43 :: s => (false, s)
  | s => (false, s)

/-- `%d`, as the number that is written. -/
def scanInt (s : List UInt8) : Option (Int × List UInt8) :=
  let (negative, s) := scanSign (s.dropWhile isspace)
  let digits := s.takeWhile isdigit
  let n : Nat := digits.foldl (fun n c => 10 * n + (c.toNat - 48)) 0
  if digits = [] then none else some (if negative then -n else n, s.drop digits.length)

/-- `%<width>[^c]`: at least one and at most `width` characters other than `c`. -/
def scanNot (c : UInt8) (width : Nat) (s : List UInt8) : Option (List UInt8 × List UInt8) :=
  let token := (s.take width).takeWhile (· ≠ c)
  if token = [] then none else some (token, s.drop token.length)

/-! ### Searches -/

variable {α : Type u} [DecidableEq α]

/-- `strstr`: the rest of the string from the first occurrence on. -/
def strstr (needle : List α) : List α → Option (List α)
  | [] => if needle = [] then some [] else none
  | a :: l => if needle <+: a :: l then some (a :: l) else strstr needle l

/-- `strchr`: the rest of the string from the first such character on. -/
def strchr (c : α) : List α → Option (List α)
  | [] => none
  | a :: l => if a = c then some (a :: l) else strchr c l

/-- `strstr(s, needle) != NULL`. -/
def contains (s needle : List α) : Bool := (strstr needle s).isSome

theorem contains_iff_infix {s needle : List α} : contains s needle = true ↔ needle <:+: s := by
  induction s with
  | nil => simp [contains, strstr]
  | cons a l ih =>
      rw [List.infix_cons_iff, ← ih, contains, strstr]
      by_cases here : needle <+: a :: l
      · simp [here]
      · simp [here, contains]

/-- All places where a text occurs, as the rests of the string from there on. -/
def occurrences (needle l : List α) : List (List α) := l.tails.filter fun p => needle <+: p

theorem occurrences_cons (needle : List α) (a : α) (l : List α) :
    occurrences needle (a :: l) =
      if needle <+: a :: l then (a :: l) :: occurrences needle l else occurrences needle l := by
  unfold occurrences
  rw [List.tails_cons, List.filter_cons]
  by_cases here : needle <+: a :: l
  · simp [here]
  · simp [here]

/-- A text does not occur where its first character does not. -/
theorem occurrences_append {c : α} (t : List α) {l : List α} (m : List α) (h : c ∉ l) :
    occurrences (c :: t) (l ++ m) = occurrences (c :: t) m := by
  induction l with
  | nil => rfl
  | cons a l ih =>
      have other : c ≠ a := fun eq => h (eq ▸ List.mem_cons_self)
      rw [List.cons_append, occurrences_cons, if_neg (by simp [List.cons_prefix_cons, other]),
        ih fun later => h (List.mem_cons_of_mem _ later)]

theorem occurrences_of_strstr_eq_none {needle l : List α} (some_needle : needle ≠ [])
    (h : strstr needle l = none) : occurrences needle l = [] := by
  induction l with
  | nil => simp [occurrences, some_needle]
  | cons a l ih =>
      unfold strstr at h
      split at h
      · cases h
      · rename_i other
        rw [occurrences_cons, if_neg other, ih h]

/-- The first occurrence; a text that starts with a character of its own does not
overlap with itself, so the next one is behind it. -/
theorem occurrences_of_strstr_eq_some {c : α} {t l p : List α} (own : c ∉ t)
    (h : strstr (c :: t) l = some p) :
    occurrences (c :: t) l = p :: occurrences (c :: t) (p.drop (c :: t).length) := by
  induction l with
  | nil => simp [strstr] at h
  | cons a l ih =>
      unfold strstr at h
      split at h
      · rename_i here
        cases h
        obtain ⟨rest, rfl, rfl⟩ : ∃ rest, a = c ∧ l = t ++ rest := by
          obtain ⟨rest, eq⟩ := here
          rw [List.cons_append, List.cons.injEq] at eq
          exact ⟨rest, eq.1.symm, eq.2.symm⟩
        rw [occurrences_cons, if_pos here, occurrences_append t rest own, List.length_cons,
          List.drop_succ_cons, List.drop_left]
      · rename_i other
        rw [occurrences_cons, if_neg other, ih h]

/-- `strstr` finds the first occurrence. -/
theorem strstr_eq_head? {needle : List α} (some_needle : needle ≠ []) (l : List α) :
    strstr needle l = (occurrences needle l).head? := by
  induction l with
  | nil => simp [strstr, occurrences, some_needle]
  | cons a l ih =>
      rw [strstr, occurrences_cons]
      by_cases here : needle <+: a :: l
      · rw [if_pos here, if_pos here, List.head?_cons]
      · rw [if_neg here, if_neg here, ih]

theorem strchr_append {c : α} {before : List α} (free : c ∉ before) (l : List α) :
    strchr c (before ++ l) = strchr c l := by
  induction before with
  | nil => rfl
  | cons a before ih =>
      rw [List.mem_cons, not_or] at free
      obtain ⟨here, later⟩ := free
      rw [List.cons_append, strchr, if_neg (Ne.symm here), ih later]

/-- `strchr` finds every character that is there. -/
theorem strchr_eq_none_iff {c : α} {l : List α} : strchr c l = none ↔ c ∉ l := by
  induction l with
  | nil => simp [strchr]
  | cons a l ih =>
      rw [strchr, List.mem_cons, not_or]
      split
      · rename_i found
        simp [found]
      · rename_i other
        rw [ih]
        exact (and_iff_right (Ne.symm other)).symm

/-- `strchr` splits the string at the first such character. -/
theorem strchr_eq_some_iff {c : α} {l rest : List α} :
    strchr c l = some rest ↔ ∃ before, c ∉ before ∧ l = before ++ rest ∧ rest.head? = some c := by
  induction l with
  | nil =>
      simp only [strchr, reduceCtorEq, false_iff, not_exists, not_and]
      rintro before - eq
      obtain ⟨-, rfl⟩ := List.append_eq_nil_iff.mp eq.symm
      simp
  | cons a l ih =>
      rw [strchr]
      by_cases here : a = c
      · rw [if_pos here, Option.some.injEq]
        constructor
        · rintro rfl
          exact ⟨[], by simp, rfl, by simp [here]⟩
        · rintro ⟨before, other, split, -⟩
          cases before with
          | nil => exact split
          | cons b before =>
              rw [List.cons_append, List.cons.injEq] at split
              rw [split.1.symm.trans here] at other
              exact absurd List.mem_cons_self other
      · rw [if_neg here, ih]
        constructor
        · rintro ⟨before, other, rfl, first⟩
          exact ⟨a :: before, by simp [other, Ne.symm here], rfl, first⟩
        · rintro ⟨before, other, split, first⟩
          cases before with
          | nil =>
              rw [List.nil_append] at split
              rw [← split, List.head?_cons, Option.some.injEq] at first
              exact absurd first here
          | cons b before =>
              rw [List.cons_append, List.cons.injEq] at split
              exact ⟨before, fun later => other (List.mem_cons_of_mem _ later), split.2, first⟩

theorem length_of_strstr_eq_some {needle l p : List α} (h : strstr needle l = some p) :
    needle.length ≤ p.length ∧ p.length ≤ l.length := by
  induction l with
  | nil =>
      unfold strstr at h
      split at h
      · rename_i empty
        cases h
        simp [empty]
      · cases h
  | cons a l ih =>
      unfold strstr at h
      split at h
      · rename_i here
        cases h
        exact ⟨here.length_le, le_refl _⟩
      · exact ⟨(ih h).1, Nat.le_succ_of_le (ih h).2⟩

end Ok3506.CString
