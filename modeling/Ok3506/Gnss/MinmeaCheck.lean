import Ok3506.Gnss.Minmea
import Ok3506.Lib.Xor
import Mathlib.Data.List.TakeWhile

/-!
The language of `minmea_check`.

A `SentenceText` has a body, perhaps a checksum, and newlines. The check accepts the
texts whose checksum is the exclusive or of the body, and nothing else; one changed
byte leaves this language except where the `*` itself is lost.
-/

namespace Ok3506.Gnss

open CString

/-! ### Sentences as texts -/

/-- What may stand between the `$` and the `*`. -/
def bodyChar (c : UInt8) : Bool := isprint c && c ≠ asterisk

/-- What may stand behind the checksum. -/
def newlineChar (c : UInt8) : Bool := c = 13 || c = 10

/-- The parts of a sentence. -/
structure SentenceText where
  body : List UInt8
  digits : Option (UInt8 × UInt8)
  ending : List UInt8
  deriving DecidableEq, Repr

namespace SentenceText

/-- `*` and the two digits, where they are present. -/
def checksum (t : SentenceText) : List UInt8 := t.digits.elim [] fun d => [asterisk, d.1, d.2]

def text (t : SentenceText) : List UInt8 := 36 :: (t.body ++ (t.checksum ++ t.ending))

end SentenceText

/-- Two hexadecimal digits that spell a byte. -/
def Spells (d : UInt8 × UInt8) (c : UInt8) : Prop :=
  ∃ upper lower, hex2int d.1 = some upper ∧ hex2int d.2 = some lower ∧
    c.toNat = 16 * upper + lower

/-- What a sentence must satisfy; `strict` asks for a checksum. -/
structure SentenceText.Valid (strict : Bool) (t : SentenceText) : Prop where
  body : ∀ c ∈ t.body, bodyChar c = true
  ending : ∀ c ∈ t.ending, newlineChar c = true
  digits : ∀ d ∈ t.digits, Spells d (xorSum t.body)
  checked : strict = true → t.digits ≠ none

/-- No NUL stands in a sentence. -/
theorem SentenceText.Valid.terminated {strict : Bool} {t : SentenceText} (h : t.Valid strict) :
    (0 : UInt8) ∉ t.text := by
  intro mem
  rcases List.mem_cons.mp mem with start | mem
  · cases start
  · rcases List.mem_append.mp mem with mem | mem
    · cases h.body 0 mem
    · rcases List.mem_append.mp mem with mem | mem
      · rcases t with ⟨body, - | d, ending⟩
        · cases mem
        · obtain ⟨upper, lower, hu, hl, -⟩ := h.digits d rfl
          simp only [checksum, Option.elim_some, List.mem_cons, List.not_mem_nil, or_false] at mem
          rcases mem with mark | first | second
          · cases mark
          · rw [← first] at hu
            cases hu
          · rw [← second] at hl
            cases hl
      · cases h.ending 0 mem

/-! ### The loops -/

theorem hex2int_lt {c : UInt8} {v : Nat} (h : hex2int c = some v) : v < 16 := Hex.value_lt h

theorem hex2int_zero : hex2int 0 = none := rfl

theorem shift_or {upper lower : Nat} (h : lower < 16) :
    (upper <<< 4 ||| lower) = 16 * upper + lower := by
  rw [Nat.shiftLeft_eq, Nat.mul_comm]
  exact Nat.two_pow_add_eq_or_of_lt (i := 4) h upper |>.symm

theorem checksumLoop_append {body : List UInt8} (all : ∀ c ∈ body, bodyChar c = true) {c : UInt8}
    (stop : bodyChar c = false) (checksum : UInt8) (p : List UInt8) :
    checksumLoop checksum (body ++ c :: p) = .ok (checksum ^^^ xorSum body, c :: p) := by
  induction body generalizing checksum with
  | nil =>
      have ends : ¬ (c ≠ 0 ∧ c ≠ asterisk ∧ isprint c = true) := by
        rintro ⟨-, other, print⟩
        simp [bodyChar, print, other] at stop
      rw [List.nil_append, checksumLoop, if_neg ends, xorSum_nil, UInt8.xor_zero]
  | cons a body ih =>
      have more : a ≠ 0 ∧ a ≠ asterisk ∧ isprint a = true := by
        have inside := all a List.mem_cons_self
        simp only [bodyChar, Bool.and_eq_true, decide_eq_true_eq] at inside
        refine ⟨?_, inside.2, inside.1⟩
        rintro rfl
        exact absurd inside.1 (by decide)
      rw [List.cons_append, checksumLoop, if_pos more,
        ih (fun c mem => all c (List.mem_cons_of_mem a mem)), xorSum_cons, UInt8.xor_assoc]

theorem checkEnd_eq {tail : List UInt8} (h : 0 ∉ tail) (junk : List UInt8) :
    checkEnd (tail ++ 0 :: junk) = .ok (tail.all newlineChar) := by
  induction tail with
  | nil => rfl
  | cons c tail ih =>
      have later : (0 : UInt8) ∉ tail := fun mem => h (List.mem_cons_of_mem c mem)
      have some : c ≠ 0 := fun zero => h (zero ▸ List.mem_cons_self)
      have next : skipWhile (fun c => c = 13 || c = 10) (c :: (tail ++ 0 :: junk)) =
          if newlineChar c then skipWhile (fun c => c = 13 || c = 10) (tail ++ 0 :: junk)
          else .ok (c :: (tail ++ 0 :: junk)) := rfl
      rw [List.cons_append, checkEnd, next, List.all_cons]
      cases end_ : newlineChar c with
      | true =>
          rw [if_pos rfl, Bool.true_and, ← ih later]
          rfl
      | false => simp [some]

/-- The part of a sentence behind the body. -/
structure SentenceText.ValidTail (strict : Bool) (checksum : UInt8) (t : SentenceText) : Prop where
  ending : ∀ c ∈ t.ending, newlineChar c = true
  digits : ∀ d ∈ t.digits, Spells d checksum
  checked : strict = true → t.digits ≠ none

/-- Behind the `*` the check accepts exactly a tail whose digits spell the checksum. -/
theorem checkTail_asterisk (strict : Bool) (checksum : UInt8) {p : List UInt8} (h : 0 ∉ p)
    (junk : List UInt8) :
    ∃ b, checkTail strict checksum (asterisk :: (p ++ 0 :: junk)) = .ok b ∧
      (b = true ↔ ∃ d ending, p = d.1 :: d.2 :: ending ∧ Spells d checksum ∧
        ∀ c ∈ ending, newlineChar c = true) := by
  have refused (none : ∀ d ending, p = d.1 :: d.2 :: ending → ¬ Spells d checksum) :
      false = true ↔ ∃ d ending, p = d.1 :: d.2 :: ending ∧ Spells d checksum ∧
        ∀ c ∈ ending, newlineChar c = true := by
    refine ⟨Bool.noConfusion, ?_⟩
    rintro ⟨d, ending, rfl, spells, -⟩
    exact absurd spells (none d ending rfl)
  rcases p with - | ⟨c, - | ⟨c', p⟩⟩
  · refine ⟨false, by simp [checkTail, hex2int_zero], refused ?_⟩
    rintro d ending ⟨⟩
  · refine ⟨false, ?_, refused fun d ending eq => by simp at eq⟩
    cases upper : hex2int c <;> simp [checkTail, upper, hex2int_zero]
  · have rest : (0 : UInt8) ∉ p := fun mem =>
      h (List.mem_cons_of_mem c (List.mem_cons_of_mem c' mem))
    cases hupper : hex2int c with
    | none =>
        refine ⟨false, by simp [checkTail, hupper], refused ?_⟩
        rintro d ending ⟨⟩ ⟨upper, lower, eq, -⟩
        rw [hupper] at eq
        cases eq
    | some upper =>
        cases hlower : hex2int c' with
        | none =>
            refine ⟨false, by simp [checkTail, hupper, hlower], refused ?_⟩
            rintro d ending ⟨⟩ ⟨upper, lower, -, eq, -⟩
            rw [hlower] at eq
            cases eq
        | some lower =>
            have expected (upper : Nat) := @shift_or upper lower (hex2int_lt hlower)
            by_cases match_ : checksum.toNat = 16 * upper + lower
            · refine ⟨p.all newlineChar, ?_, ?_⟩
              · simp [checkTail, hupper, hlower, expected, match_, checkEnd_eq rest]
              · rw [List.all_eq_true]
                constructor
                · exact fun all => ⟨(c, c'), p, rfl, ⟨upper, lower, hupper, hlower, match_⟩, all⟩
                · rintro ⟨d, ending, ⟨⟩, -, all⟩
                  exact all
            · refine ⟨false, by simp [checkTail, hupper, hlower, expected, match_], refused ?_⟩
              rintro d ending ⟨⟩ ⟨upper', lower', eq, eq', value⟩
              rw [hupper, Option.some.injEq] at eq
              rw [hlower, Option.some.injEq] at eq'
              exact match_ (by rw [eq, eq', value])

/-- The check of what follows the body accepts exactly the tails of a sentence. -/
theorem checkTail_eq (strict : Bool) (checksum : UInt8) {tail : List UInt8} (h : 0 ∉ tail)
    (junk : List UInt8) :
    ∃ b, checkTail strict checksum (tail ++ 0 :: junk) = .ok b ∧
      (b = true ↔ ∃ t : SentenceText, t.checksum ++ t.ending = tail ∧
        t.ValidTail strict checksum) := by
  cases tail with
  | nil =>
      have checked : checkTail strict checksum ([] ++ 0 :: junk) = .ok (!strict) := by
        cases strict <;> rfl
      refine ⟨!strict, checked, ?_⟩
      constructor
      · intro lax
        refine ⟨⟨[], none, []⟩, rfl, ⟨by simp, by simp, fun eq => ?_⟩⟩
        simp [eq] at lax
      · rintro ⟨⟨body, digits, ending⟩, eq, valid⟩
        cases digits with
        | none => simpa using valid.checked
        | some d => cases eq
  | cons c p =>
      have rest : (0 : UInt8) ∉ p := fun mem => h (List.mem_cons_of_mem c mem)
      by_cases mark : c = asterisk
      · obtain ⟨b, run, accepted⟩ := checkTail_asterisk strict checksum rest junk
        refine ⟨b, mark ▸ run, accepted.trans ?_⟩
        constructor
        · rintro ⟨d, ending, rfl, spells, newlines⟩
          refine ⟨⟨[], some d, ending⟩, by rw [mark]; rfl, newlines, ?_, by simp⟩
          rintro d' ⟨⟩
          exact spells
        · rintro ⟨⟨body, digits, ending⟩, eq, valid⟩
          cases digits with
          | none =>
              have first := valid.ending c (by
                have here : ending = c :: p := eq
                rw [here]
                exact List.mem_cons_self)
              rw [mark] at first
              exact absurd first (by decide)
          | some d =>
              obtain ⟨-, rfl⟩ := List.cons.inj eq
              exact ⟨d, ending, rfl, valid.digits d rfl, valid.ending⟩
      · have run : checkTail strict checksum (c :: p ++ 0 :: junk) =
            .ok (!strict && (c :: p).all newlineChar) := by
          have ends := checkEnd_eq h junk
          rw [List.cons_append] at ends
          cases strict with
          | true => simp [checkTail, mark]
          | false => simpa [checkTail, mark] using ends
        refine ⟨_, run, ?_⟩
        rw [Bool.and_eq_true, List.all_eq_true]
        constructor
        · rintro ⟨lax, newlines⟩
          refine ⟨⟨[], none, c :: p⟩, rfl, newlines, by simp, fun eq => ?_⟩
          simp [eq] at lax
        · rintro ⟨⟨body, digits, ending⟩, eq, valid⟩
          cases digits with
          | none =>
              have whole : ending = c :: p := eq
              exact ⟨by simpa using valid.checked, whole ▸ valid.ending⟩
          | some d =>
              obtain ⟨same, -⟩ := List.cons.inj eq
              exact absurd same.symm mark

/-! ### The language -/

theorem takeWhile_body {body tail : List UInt8} (all : ∀ c ∈ body, bodyChar c = true)
    (stop : ∀ c ∈ tail.head?, bodyChar c = false) :
    (body ++ tail).takeWhile bodyChar = body ∧ (body ++ tail).dropWhile bodyChar = tail := by
  rw [List.takeWhile_append_of_pos all, List.dropWhile_append_of_pos all]
  cases tail with
  | nil => simp
  | cons c tail => simp [stop c rfl]

theorem SentenceText.ValidTail.stop {strict : Bool} {checksum : UInt8} {t : SentenceText}
    (h : t.ValidTail strict checksum) :
    ∀ c ∈ (t.checksum ++ t.ending).head?, bodyChar c = false := by
  rcases t with ⟨body, - | d, - | ⟨c, ending⟩⟩
  · rintro c ⟨⟩
  · rintro c ⟨⟩
    have newline := h.ending c List.mem_cons_self
    simp only [newlineChar, Bool.or_eq_true, decide_eq_true_eq] at newline
    rcases newline with rfl | rfl <;> decide
  · rintro c ⟨⟩
    decide
  · rintro c ⟨⟩
    decide

theorem SentenceText.valid_iff {strict : Bool} {t : SentenceText} :
    t.Valid strict ↔
      (∀ c ∈ t.body, bodyChar c = true) ∧ t.ValidTail strict (xorSum t.body) :=
  ⟨fun h => ⟨h.body, h.ending, h.digits, h.checked⟩,
    fun h => ⟨h.1, h.2.ending, h.2.digits, h.2.checked⟩⟩

/-- The text is one that the check asks for. -/
def InLanguage (strict : Bool) (s : List UInt8) : Prop :=
  ∃ t : SentenceText, t.text = s ∧ t.Valid strict

/-- The body of a sentence ends where its characters do. -/
theorem inLanguage_split {strict : Bool} {body tail : List UInt8}
    (all : ∀ c ∈ body, bodyChar c = true) (stop : ∀ c ∈ tail.head?, bodyChar c = false) :
    InLanguage strict (36 :: (body ++ tail)) ↔
      ∃ t : SentenceText, t.checksum ++ t.ending = tail ∧ t.ValidTail strict (xorSum body) := by
  obtain ⟨take, drop⟩ := takeWhile_body all stop
  constructor
  · rintro ⟨t, eq, valid⟩
    obtain ⟨inside, behind⟩ := SentenceText.valid_iff.mp valid
    obtain ⟨-, same⟩ := List.cons.inj eq
    obtain ⟨take', drop'⟩ := takeWhile_body inside behind.stop
    rw [same, take] at take'
    rw [same, drop] at drop'
    exact ⟨t, drop'.symm, take' ▸ behind⟩
  · rintro ⟨⟨_, digits, ending⟩, eq, behind⟩
    refine ⟨⟨body, digits, ending⟩, ?_, all, behind.ending, behind.digits, behind.checked⟩
    rw [SentenceText.text, ← eq]
    rfl

/-- `minmea_check` decides the language, and reads nothing behind the NUL. -/
theorem minmeaCheck_eq (strict : Bool) {s : List UInt8} (h : 0 ∉ s) (junk : List UInt8) :
    ∃ b, minmeaCheck (s ++ 0 :: junk) strict = .ok b ∧ (b = true ↔ InLanguage strict s) := by
  have refused (other : ∀ p, s ≠ 36 :: p) : false = true ↔ InLanguage strict s := by
    refine ⟨Bool.noConfusion, ?_⟩
    rintro ⟨t, rfl, -⟩
    exact absurd rfl (other _)
  cases s with
  | nil => exact ⟨false, rfl, refused (by simp)⟩
  | cons c p =>
      by_cases start : c = 36
      · obtain ⟨body, tail, rfl, all, stop⟩ : ∃ body tail, p = body ++ tail ∧
            (∀ c ∈ body, bodyChar c = true) ∧ ∀ c ∈ tail.head?, bodyChar c = false := by
          refine ⟨p.takeWhile bodyChar, p.dropWhile bodyChar, by simp,
            fun c mem => List.mem_takeWhile_imp mem, fun c mem => ?_⟩
          simpa [Option.mem_def.mp mem] using List.head?_dropWhile_not bodyChar p
        have rest : (0 : UInt8) ∉ tail := fun mem =>
          h (List.mem_cons_of_mem c (List.mem_append_right body mem))
        obtain ⟨b, run, accepted⟩ := checkTail_eq strict (xorSum body) rest junk
        refine ⟨b, ?_, ?_⟩
        · have loop : checksumLoop 0 (body ++ (tail ++ 0 :: junk)) =
              .ok (xorSum body, tail ++ 0 :: junk) := by
            cases tail with
            | nil =>
                rw [List.nil_append, checksumLoop_append all (by decide), UInt8.zero_xor]
            | cons d tail =>
                rw [List.cons_append, checksumLoop_append all (stop d rfl), UInt8.zero_xor]
          simp [minmeaCheck, start, List.append_assoc, loop, run]
        · rw [start, inLanguage_split all stop, accepted]
      · refine ⟨false, ?_, refused fun q eq => start (List.cons.inj eq).1⟩
        simp [minmeaCheck, start]

/-- A text has its parts in one way. -/
theorem SentenceText.eq_of_text_eq {strict : Bool} {t t' : SentenceText} (h : t.Valid strict)
    (h' : t'.Valid strict) (same : t.text = t'.text) : t = t' := by
  obtain ⟨inside, behind⟩ := valid_iff.mp h
  obtain ⟨inside', behind'⟩ := valid_iff.mp h'
  obtain ⟨take, drop⟩ := takeWhile_body inside behind.stop
  obtain ⟨take', drop'⟩ := takeWhile_body inside' behind'.stop
  have rest := (List.cons.inj same).2
  have bodies : t.body = t'.body := by rw [← take, rest, take']
  have tails : t.checksum ++ t.ending = t'.checksum ++ t'.ending := by rw [← drop, rest, drop']
  rcases t with ⟨body, - | d, ending⟩ <;> rcases t' with ⟨body', - | d', ending'⟩
  · have endings : ending = ending' := tails
    cases bodies
    rw [endings]
  · have whole : ending = asterisk :: d'.1 :: d'.2 :: ending' := tails
    cases h.ending asterisk (whole ▸ List.mem_cons_self)
  · have whole : asterisk :: d.1 :: d.2 :: ending = ending' := tails
    cases h'.ending asterisk (whole ▸ List.mem_cons_self)
  · simp only [checksum, Option.elim_some, List.cons_append, List.nil_append, List.cons.injEq,
      true_and] at tails
    obtain ⟨first, second, endings⟩ := tails
    cases bodies
    cases endings
    rw [Prod.ext first second]

/-- **The check decides an unambiguous format.** Whatever stands behind the NUL, it
accepts a string exactly when this is a sentence, which then has its parts in one way. -/
theorem minmeaCheck_language (strict : Bool) (s : List UInt8) (h : 0 ∉ s) (junk : List UInt8) :
    ∃ b, minmeaCheck (s ++ 0 :: junk) strict = .ok b ∧
      (b = true ↔ ∃! t : SentenceText, t.text = s ∧ t.Valid strict) := by
  obtain ⟨b, run, language⟩ := minmeaCheck_eq strict h junk
  refine ⟨b, run, language.trans ⟨?_, ExistsUnique.exists⟩⟩
  rintro ⟨t, rfl, valid⟩
  exact ⟨t, ⟨rfl, valid⟩, fun t' h' => SentenceText.eq_of_text_eq h'.2 valid h'.1⟩

theorem minmeaCheck_language_gll :
    ∃ b, minmeaCheck (ascii "$GPGLL,,,,,,V,N*64" ++ 0 :: [255]) true = .ok b ∧
      (b = true ↔ ∃! t : SentenceText, t.text = ascii "$GPGLL,,,,,,V,N*64" ∧ t.Valid true) :=
  minmeaCheck_language true _ (by decide) [255]

/-! ### One changed byte -/

section Substitution

variable {strict : Bool} {body ending l r : List UInt8} {d : UInt8 × UInt8} {a b : UInt8}

theorem spells_inj {d : UInt8 × UInt8} {c c' : UInt8} (h : Spells d c) (h' : Spells d c') :
    c = c' := by
  obtain ⟨upper, lower, hu, hl, eq⟩ := h
  obtain ⟨upper', lower', hu', hl', eq'⟩ := h'
  rw [hu, Option.some.injEq] at hu'
  rw [hl, Option.some.injEq] at hl'
  exact UInt8.toNat_inj.mp (by rw [eq, eq', hu', hl'])

/-- Of two spellings of a byte each digit has one value. -/
theorem spells_iff {d d' : UInt8 × UInt8} {c : UInt8} (h : Spells d c) :
    Spells d' c ↔ hex2int d'.1 = hex2int d.1 ∧ hex2int d'.2 = hex2int d.2 := by
  obtain ⟨upper, lower, hu, hl, eq⟩ := h
  constructor
  · rintro ⟨upper', lower', hu', hl', eq'⟩
    have small := hex2int_lt hl
    have small' := hex2int_lt hl'
    rw [hu, hl, hu', hl', Option.some.injEq, Option.some.injEq]
    omega
  · rintro ⟨first, second⟩
    exact ⟨upper, lower, first.trans hu, second.trans hl, eq⟩

theorem bodyChar_of_hex2int {c : UInt8} {v : Nat} (h : hex2int c = some v) :
    bodyChar c = true ∧ newlineChar c = false := by
  unfold hex2int Hex.value at h
  simp only [bodyChar, isprint, asterisk, newlineChar, UInt8.le_iff_toNat_le, UInt8.reduceToNat,
    Bool.and_eq_true, decide_eq_true_eq, ne_eq, Bool.or_eq_false_iff, decide_eq_false_iff_not,
    ← UInt8.toNat_inj] at h ⊢
  split_ifs at h <;> omega

/-- A tail that starts with the `*` is that of a sentence when digits of the checksum
follow, and then newlines only. -/
theorem exists_validTail_asterisk {checksum : UInt8} {p : List UInt8} :
    (∃ t : SentenceText, t.checksum ++ t.ending = asterisk :: p ∧ t.ValidTail strict checksum) ↔
      ∃ d ending, p = d.1 :: d.2 :: ending ∧ Spells d checksum ∧
        ∀ c ∈ ending, newlineChar c = true := by
  constructor
  · rintro ⟨⟨_, - | d, ending⟩, eq, valid⟩
    · have whole : ending = asterisk :: p := eq
      have first := valid.ending asterisk (whole ▸ List.mem_cons_self)
      cases first
    · obtain ⟨-, rfl⟩ := List.cons.inj eq
      exact ⟨d, ending, rfl, valid.digits d rfl, valid.ending⟩
  · rintro ⟨d, ending, rfl, spells, newlines⟩
    refine ⟨⟨[], some d, ending⟩, rfl, newlines, ?_, by simp⟩
    rintro d' ⟨⟩
    exact spells

/-- A tail without the `*` is that of a sentence when the mode is not strict and newlines
follow. -/
theorem exists_validTail_of_ne {checksum : UInt8} {tail : List UInt8}
    (other : tail.head? ≠ some asterisk) :
    (∃ t : SentenceText, t.checksum ++ t.ending = tail ∧ t.ValidTail strict checksum) ↔
      strict = false ∧ ∀ c ∈ tail, newlineChar c = true := by
  constructor
  · rintro ⟨⟨_, - | d, ending⟩, rfl, valid⟩
    · exact ⟨by simpa using valid.checked, valid.ending⟩
    · exact absurd rfl other
  · rintro ⟨rfl, newlines⟩
    exact ⟨⟨[], none, tail⟩, rfl, newlines, by simp, by simp⟩

/-- A byte of the body that is changed is noticed. -/
theorem not_inLanguage_of_body {m : List UInt8} (all : ∀ c ∈ l ++ a :: m, bodyChar c = true)
    (spells : Spells d (xorSum (l ++ a :: m))) (other : a ≠ b) :
    ¬ InLanguage strict (36 :: (l ++ b :: (m ++ asterisk :: d.1 :: d.2 :: ending))) := by
  have before : ∀ c ∈ l, bodyChar c = true := fun c mem => all c (List.mem_append_left _ mem)
  have mark : asterisk ∈ m ++ asterisk :: d.1 :: d.2 :: ending :=
    List.mem_append_right m List.mem_cons_self
  cases inside : bodyChar b with
  | true =>
      have all' : ∀ c ∈ l ++ b :: m, bodyChar c = true := by
        intro c mem
        rcases List.mem_append.mp mem with mem | mem
        · exact before c mem
        · rcases List.mem_cons.mp mem with rfl | mem
          · exact inside
          · exact all c (List.mem_append_right l (List.mem_cons_of_mem a mem))
      have regroup : l ++ b :: (m ++ asterisk :: d.1 :: d.2 :: ending) =
          (l ++ b :: m) ++ asterisk :: d.1 :: d.2 :: ending := by simp
      rw [regroup, inLanguage_split all' (by rintro c ⟨⟩; decide), exists_validTail_asterisk]
      rintro ⟨d', ending', eq, spells', -⟩
      obtain ⟨first, later⟩ := List.cons.inj eq
      have second := (List.cons.inj later).1
      rw [← Prod.ext first second] at spells'
      exact other (xorSum_substitute.mp (spells_inj spells spells'))
  | false =>
      rw [inLanguage_split before (by rintro c ⟨⟩; exact inside)]
      by_cases lost : b = asterisk
      · rw [lost, exists_validTail_asterisk]
        rintro ⟨d', ending', eq, ⟨upper, lower, hu, hl, -⟩, newlines⟩
        rw [eq] at mark
        rcases List.mem_cons.mp mark with same | mark
        · rw [← same] at hu
          cases hu
        · rcases List.mem_cons.mp mark with same | mark
          · rw [← same] at hl
            cases hl
          · cases newlines _ mark
      · rw [exists_validTail_of_ne (by simpa using lost)]
        rintro ⟨-, newlines⟩
        cases newlines _ (List.mem_cons_of_mem b mark)

/-- Where the `*` is changed, the sentence passes as one without a checksum, if at all. -/
theorem inLanguage_mark (all : ∀ c ∈ body, bodyChar c = true) (spells : Spells d (xorSum body))
    (newlines : ∀ c ∈ ending, newlineChar c = true) (other : asterisk ≠ b) :
    InLanguage strict (36 :: (body ++ b :: d.1 :: d.2 :: ending)) ↔
      strict = false ∧ bodyChar b = true := by
  obtain ⟨upper, lower, hu, hl, -⟩ := spells
  have first := bodyChar_of_hex2int hu
  have second := bodyChar_of_hex2int hl
  cases inside : bodyChar b with
  | true =>
      have all' : ∀ c ∈ body ++ [b, d.1, d.2], bodyChar c = true := by
        simpa [or_imp, forall_and, inside, first.1, second.1] using all
      have stop : ∀ c ∈ ending.head?, bodyChar c = false := by
        have valid : SentenceText.ValidTail false 0 ⟨[], none, ending⟩ :=
          ⟨newlines, by simp, by simp⟩
        exact valid.stop
      have regroup : body ++ b :: d.1 :: d.2 :: ending = (body ++ [b, d.1, d.2]) ++ ending := by
        simp
      have head : ending.head? ≠ some asterisk := by
        intro eq
        have mem := newlines asterisk (List.mem_of_head? eq)
        cases mem
      rw [regroup, inLanguage_split all' stop, exists_validTail_of_ne head]
      simp only [and_true, and_iff_left_iff_imp]
      exact fun _ => newlines
  | false =>
      have head : (b :: d.1 :: d.2 :: ending).head? ≠ some asterisk := by simpa using other.symm
      rw [inLanguage_split all (by rintro c ⟨⟩; exact inside), exists_validTail_of_ne head]
      simp only [Bool.false_eq_true, and_false, iff_false, not_and]
      intro _ newlines'
      have mem := newlines' d.1 (List.mem_cons_of_mem b List.mem_cons_self)
      rw [first.2] at mem
      cases mem

/-- Behind the `*` the digits must keep their values and the newlines stay newlines. -/
theorem inLanguage_behind (all : ∀ c ∈ body, bodyChar c = true) {p : List UInt8} :
    InLanguage strict (36 :: (body ++ asterisk :: p)) ↔
      ∃ d ending, p = d.1 :: d.2 :: ending ∧ Spells d (xorSum body) ∧
        ∀ c ∈ ending, newlineChar c = true := by
  rw [inLanguage_split all (by rintro c ⟨⟩; decide), exists_validTail_asterisk]

/-- The changes that are not noticed: `b` for `a`, behind `l`. -/
inductive Unnoticed (strict : Bool) (body : List UInt8) (d : UInt8 × UInt8) (a b : UInt8) :
    List UInt8 → Prop
  /-- Without its `*` the sentence has no checksum, which only the strict mode refuses. -/
  | mark : strict = false → bodyChar b = true → Unnoticed strict body d a b (36 :: body)
  /-- A digit in the other case. -/
  | upper : hex2int b = hex2int a → Unnoticed strict body d a b (36 :: (body ++ [asterisk]))
  | lower : hex2int b = hex2int a → Unnoticed strict body d a b (36 :: (body ++ [asterisk, d.1]))
  | newline (before : List UInt8) : newlineChar b = true →
      Unnoticed strict body d a b (36 :: (body ++ asterisk :: d.1 :: d.2 :: before))

theorem length_of_unnoticed (h : Unnoticed strict body d a b l) : body.length < l.length := by
  cases h <;> simp only [List.length_cons, List.length_append] <;> omega

/-- A byte behind the body is the `*`, one of the two digits or part of the ending. -/
theorem inLanguage_substitute_behind (all : ∀ c ∈ body, bodyChar c = true)
    (spells : Spells d (xorSum body)) (newlines : ∀ c ∈ ending, newlineChar c = true)
    {m : List UInt8} (split : m ++ a :: r = asterisk :: d.1 :: d.2 :: ending) (other : a ≠ b) :
    InLanguage strict (36 :: (body ++ (m ++ b :: r))) ↔
      Unnoticed strict body d a b (36 :: (body ++ m)) := by
  rcases m with - | ⟨c, - | ⟨c', - | ⟨c'', m⟩⟩⟩
  · obtain ⟨rfl, rfl⟩ := List.cons.inj split
    rw [List.nil_append, inLanguage_mark all spells newlines other, List.append_nil]
    constructor
    · exact fun h => .mark h.1 h.2
    · intro h
      generalize same : 36 :: body = place at h
      cases h with
      | mark lax inside => exact ⟨lax, inside⟩
      | upper | lower | newline => simp at same
  · obtain ⟨rfl, rest⟩ := List.cons.inj split
    obtain ⟨rfl, rfl⟩ := List.cons.inj rest
    have start : body ++ ([asterisk] ++ b :: d.2 :: ending) =
        body ++ asterisk :: b :: d.2 :: ending := rfl
    rw [start, inLanguage_behind all]
    constructor
    · rintro ⟨d', ending', eq, spells', -⟩
      simp only [List.cons.injEq] at eq
      obtain ⟨rfl, second, -⟩ := eq
      exact .upper ((spells_iff spells).mp spells').1
    · intro h
      generalize same : 36 :: (body ++ [asterisk]) = place at h
      cases h with
      | upper value => exact ⟨(b, d.2), ending, rfl, (spells_iff spells).mpr ⟨value, rfl⟩, newlines⟩
      | mark | lower | newline => simp at same
  · obtain ⟨rfl, rest⟩ := List.cons.inj split
    obtain ⟨rfl, rest'⟩ := List.cons.inj rest
    obtain ⟨rfl, rfl⟩ := List.cons.inj rest'
    have start : body ++ ([asterisk, d.1] ++ b :: r) =
        body ++ asterisk :: d.1 :: b :: r := rfl
    rw [start, inLanguage_behind all]
    constructor
    · rintro ⟨d', ending', eq, spells', -⟩
      simp only [List.cons.injEq] at eq
      obtain ⟨first, rfl, -⟩ := eq
      exact .lower ((spells_iff spells).mp spells').2
    · intro h
      generalize same : 36 :: (body ++ [asterisk, d.1]) = place at h
      cases h with
      | lower value => exact ⟨(d.1, b), r, rfl, (spells_iff spells).mpr ⟨rfl, value⟩, newlines⟩
      | mark | upper | newline => simp at same
  · obtain ⟨rfl, rest⟩ := List.cons.inj split
    obtain ⟨rfl, rest'⟩ := List.cons.inj rest
    obtain ⟨rfl, rfl⟩ := List.cons.inj rest'
    have start : body ++ (asterisk :: d.1 :: d.2 :: m ++ b :: r) =
        body ++ asterisk :: d.1 :: d.2 :: (m ++ b :: r) := rfl
    rw [start, inLanguage_behind all]
    constructor
    · rintro ⟨d', ending', eq, -, newlines'⟩
      simp only [List.cons.injEq] at eq
      obtain ⟨-, -, rfl⟩ := eq
      exact .newline m (newlines' b (List.mem_append_right m List.mem_cons_self))
    · intro h
      generalize same : 36 :: (body ++ asterisk :: d.1 :: d.2 :: m) = place at h
      cases h with
      | newline before newline =>
          refine ⟨d, m ++ b :: r, rfl, spells, fun c mem => ?_⟩
          rcases List.mem_append.mp mem with mem | mem
          · exact newlines c (List.mem_append_left _ mem)
          · rcases List.mem_cons.mp mem with rfl | mem
            · exact newline
            · exact newlines c (List.mem_append_right m (List.mem_cons_of_mem a mem))
      | mark | upper | lower => simp at same

/-- **One changed byte.** In a sentence with a checksum the check notices every change of
one byte, but for the `*` outside strict mode, for the case of a digit and among newlines. -/
theorem minmeaCheck_substitute (strict : Bool) (t : SentenceText) (valid : t.Valid strict)
    (d : UInt8 × UInt8) (digits : t.digits = some d) (l r : List UInt8) (a b : UInt8)
    (split : l ++ a :: r = t.text) (other : a ≠ b) (nonzero : b ≠ 0) (junk : List UInt8) :
    ∃ accepted, minmeaCheck (l ++ b :: (r ++ 0 :: junk)) strict = .ok accepted ∧
      (accepted = true ↔ Unnoticed strict t.body d a b l) := by
  have spells := valid.digits d digits
  have whole : t.text = 36 :: (t.body ++ asterisk :: d.1 :: d.2 :: t.ending) := by
    rw [SentenceText.text, SentenceText.checksum, digits]
    rfl
  have terminated : (0 : UInt8) ∉ l ++ b :: r := by
    have free := valid.terminated
    rw [← split] at free
    intro mem
    rcases List.mem_append.mp mem with mem | mem
    · exact free (List.mem_append_left _ mem)
    · rcases List.mem_cons.mp mem with zero | mem
      · exact nonzero zero.symm
      · exact free (List.mem_append_right l (List.mem_cons_of_mem a mem))
  obtain ⟨accepted, run, language⟩ := minmeaCheck_eq strict terminated junk
  refine ⟨accepted, by simpa using run, language.trans ?_⟩
  rw [whole] at split
  rcases l with - | ⟨first, l⟩
  · obtain ⟨rfl, -⟩ := List.cons.inj split
    constructor
    · rintro ⟨t', eq, -⟩
      exact absurd (List.cons.inj eq).1 other
    · intro h
      exact absurd (length_of_unnoticed h) (Nat.not_lt_zero _)
  · obtain ⟨rfl, rest⟩ := List.cons.inj split
    -- The place lies behind the body, or the body has a byte at it.
    rcases List.append_eq_append_iff.mp rest with ⟨m, inside, eq⟩ | ⟨m, rfl, eq⟩
    · rcases m with - | ⟨c, m⟩
      · rw [List.append_nil] at inside
        subst inside
        have behind : InLanguage strict (36 :: (t.body ++ ([] ++ b :: r))) ↔ _ :=
          inLanguage_substitute_behind valid.body spells valid.ending eq other
        rwa [List.append_nil] at behind
      · obtain ⟨rfl, rfl⟩ := List.cons.inj eq
        rw [inside] at spells ⊢
        have noticed : ¬ InLanguage strict
            (36 :: (l ++ b :: (m ++ asterisk :: d.1 :: d.2 :: t.ending))) :=
          not_inLanguage_of_body (inside ▸ valid.body) spells other
        constructor
        · exact fun accepted => absurd accepted noticed
        · intro h
          have long := length_of_unnoticed h
          simp at long
    · have behind : InLanguage strict (36 :: (t.body ++ (m ++ b :: r))) ↔ _ :=
        inLanguage_substitute_behind valid.body spells valid.ending eq.symm other
      rwa [← List.append_assoc] at behind

/-- A GLL sentence without a position, with its checksum. -/
def gllText : SentenceText := ⟨ascii "GPGLL,,,,,,V,N", some (54, 52), [13, 10]⟩

theorem gllText_valid : gllText.Valid true where
  body := List.all_eq_true.mp (by decide)
  ending := List.all_eq_true.mp (by decide)
  digits := by
    rintro d ⟨⟩
    exact ⟨6, 4, rfl, rfl, rfl⟩
  checked := by decide

theorem minmeaCheck_substitute_gll :
    ∃ accepted, minmeaCheck (ascii "$GP" ++ 88 :: (ascii "LL,,,,,,V,N*64\r\n" ++ 0 :: [])) true =
        .ok accepted ∧
      (accepted = true ↔ Unnoticed true (ascii "GPGLL,,,,,,V,N") (54, 52) 71 88 (ascii "$GP")) :=
  minmeaCheck_substitute true gllText gllText_valid (54, 52) rfl (ascii "$GP")
    (ascii "LL,,,,,,V,N*64\r\n") 71 88 (by decide) (by decide) (by decide) []

end Substitution

end Ok3506.Gnss
