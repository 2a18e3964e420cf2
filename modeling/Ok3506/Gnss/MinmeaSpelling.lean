import Ok3506.Gnss.MinmeaFrames
import Ok3506.Gnss.MinmeaNumbers

/-!
Writing sentences.

`Directive.Spells` says which texts a talker may write for a value: leading zeros,
signs, points and the choice of the compass letter are free. A sentence put together
from such texts, with its checksum, is accepted by the check, and the scanner gives the
values back.
-/

namespace Ok3506.Gnss

open CString Decimal

/-! ### Spellings of values -/

/-- A number that `'f'` can hold, without a digit lost. -/
structure Numeral.Fits (n : Numeral) : Prop extends n.Valid where
  limit : digitsValue (n.whole ++ n.decimals) ≤ Numeral.limit
  fine : n.decimals.length ≤ 9

/-- The value that is held. -/
def Numeral.toFloat (n : Numeral) : MinmeaFloat :=
  ⟨n.factor * digitsValue (n.whole ++ n.decimals), 10 ^ n.decimals.length⟩

/-- A whole number as it is written. -/
structure IntegerText where
  sign : Option Bool
  digits : List UInt8

namespace IntegerText

def text (n : IntegerText) : List UInt8 :=
  n.sign.elim [] (fun minus => if minus then [45] else [43]) ++ n.digits

def value (n : IntegerText) : Int := (if n.sign = some true then -1 else 1) * digitsValue n.digits

structure Valid (n : IntegerText) : Prop where
  digits : Digits n.digits
  some : n.digits ≠ []
  low : intMin ≤ n.value
  high : n.value ≤ intMax

end IntegerText

/-- Three numbers of two digits each, as dates and times write them. -/
def sixDigits (a b c : Nat) : List UInt8 := padded 2 a ++ (padded 2 b ++ padded 2 c)

/-- The texts that stand for a value. -/
def Directive.Spells : (letter : Directive) → letter.Value → List UInt8 → Prop
  | .c, v, text => v = 0 ∧ text = [] ∨ minmeaIsfield v = true ∧ text = [v]
  | .d, v, text =>
      v = 0 ∧ text = [] ∨ v = 1 ∧ (text = [78] ∨ text = [69]) ∨
        v = -1 ∧ (text = [83] ∨ text = [87])
  | .f, v, text => v = ⟨0, 0⟩ ∧ text = [] ∨ ∃ n : Numeral, n.Fits ∧ text = n.text ∧ v = n.toFloat
  | .i, v, text =>
      v = 0 ∧ text = [] ∨ ∃ n : IntegerText, n.Valid ∧ text = n.text ∧ v = n.value
  | .s, v, text => text = v
  | .t, v, text =>
      v.talkerId.length = 2 ∧ v.sentenceId.length = 3 ∧ text = 36 :: (v.talkerId ++ v.sentenceId)
  | .D, v, text =>
      v = ⟨-1, -1, -1⟩ ∧ text = [] ∨ ∃ d m y : Nat, d < 100 ∧ m < 100 ∧ y < 100 ∧
        v = ⟨d, m, y⟩ ∧ text = sixDigits d m y
  | .T, v, text =>
      v = ⟨-1, -1, -1, -1⟩ ∧ text = [] ∨ ∃ (h m s : Nat) (fraction : Option (List UInt8)),
        h < 100 ∧ m < 100 ∧ s < 100 ∧ Digits (fraction.getD []) ∧ (fraction.getD []).length ≤ 6 ∧
        v = ⟨h, m, s,
          (digitsValue (fraction.getD []) * 10 ^ (6 - (fraction.getD []).length) : Nat)⟩ ∧
        text = sixDigits h m s ++ fraction.elim [] (fullStop :: ·)
  | .ignored, _, _ => True
  | .optional, _, _ => False

/-- The fields that stand for the values of a format. Behind `;` fields may be missing,
which stands for what an empty field does; behind the last letter more may follow. -/
def Spelled : (format : List Directive) → (isOptional : Bool) → Values format →
    List (List UInt8) → Prop
  | [], _, _, _ => True
  | .optional :: format, _, (_, values), fields => Spelled format true values fields
  | letter :: format, isOptional, (value, values), [] =>
      isOptional = true ∧ letter ≠ .t ∧ letter.Spells value [] ∧
        Spelled format isOptional values []
  | letter :: format, isOptional, (value, values), field :: fields =>
      letter.Spells value field ∧ Spelled format isOptional values fields

/-! ### Reading what was written -/

theorem padded_two (n : Nat) : padded 2 n = [digitChar (n / 10 % 10), digitChar (n % 10)] := rfl

theorem twoDigits_padded {n i : Nat} {l : List UInt8} (small : n < 100)
    (first : l[i]? = some (digitChar (n / 10 % 10)))
    (second : l[i + 1]? = some (digitChar (n % 10))) :
    twoDigits l i = n := by
  have high := digitChar_toNat (Nat.mod_lt (n / 10) (show 0 < 10 by decide))
  have low := digitChar_toNat (Nat.mod_lt n (show 0 < 10 by decide))
  rw [twoDigits, List.getD_eq_getElem?_getD, List.getD_eq_getElem?_getD, first, second,
    Option.getD_some, Option.getD_some, high, low]
  omega

/-- Six digits, and what follows them. -/
theorem sixDigits_read {a b c : Nat} (ha : a < 100) (hb : b < 100) (hc : c < 100)
    (rest : List UInt8) :
    ((sixDigits a b c ++ rest).take 6).all isdigit = true ∧ 6 ≤ (sixDigits a b c ++ rest).length ∧
      twoDigits (sixDigits a b c ++ rest) 0 = a ∧ twoDigits (sixDigits a b c ++ rest) 2 = b ∧
      twoDigits (sixDigits a b c ++ rest) 4 = c ∧ (sixDigits a b c ++ rest).drop 6 = rest := by
  have digit (n : Nat) : isdigit (digitChar (n % 10)) = true :=
    isdigit_digitChar (Nat.mod_lt n (by decide))
  refine ⟨?_, ?_, twoDigits_padded ha rfl rfl, twoDigits_padded hb rfl rfl,
    twoDigits_padded hc rfl rfl, rfl⟩
  · simp [sixDigits, padded_two, digit]
  · simp [sixDigits, padded_two]

section Read

variable {text : List UInt8}

theorem headD_of_spells {v : UInt8} (h : Directive.Spells .c v text) : text.headD 0 = v := by
  rcases h with ⟨rfl, rfl⟩ | ⟨-, rfl⟩ <;> rfl

theorem directionText_of_spells {v : Int} (h : Directive.Spells .d v text) :
    directionText text = .ok v := by
  rcases h with ⟨rfl, rfl⟩ | ⟨rfl, rfl | rfl⟩ | ⟨rfl, rfl | rfl⟩ <;> rfl

theorem float_of_fits {n : Numeral} (fits : n.Fits) : n.float = .ok n.toFloat := by
  have all : n.kept = n.decimals := by
    have limit := fits.limit
    rw [digitsValue, digitsFrom_append] at limit
    exact fitting_eq_self limit
  have whole : digitsValue n.whole ≤ Numeral.limit := by
    have limit := fits.limit
    rw [digitsValue, digitsFrom_append] at limit
    exact (le_digitsFrom _ _).trans limit
  have fine := fits.fine
  rw [Numeral.float, all, if_neg (by omega), if_neg (by omega), Numeral.toFloat]

theorem floatText_of_spells {v : MinmeaFloat} (h : Directive.Spells .f v text) :
    Directive.read .f (some text) = .ok v := by
  rcases h with ⟨rfl, rfl⟩ | ⟨n, fits, rfl, rfl⟩
  · rfl
  · rw [read_numeral fits.toValid, float_of_fits fits]

/-- The sign and the digits of a written number are told apart. -/
theorem integerText_parts {n : IntegerText} (digits : Digits n.digits) (some : n.digits ≠ []) :
    n.text.dropWhile isspace = n.text ∧ signText n.text = n.digits ∧
      (n.text.head? = Option.some 45 ↔ n.sign = Option.some true) := by
  obtain ⟨sign, digits_⟩ := n
  obtain ⟨c, l, rfl⟩ := List.exists_cons_of_ne_nil some
  have first := digits c List.mem_cons_self
  have solid : isspace c = false := by
    simp only [isdigit, isspace, UInt8.le_iff_toNat_le, UInt8.reduceToNat, Bool.and_eq_true,
      decide_eq_true_eq, Bool.or_eq_false_iff, decide_eq_false_iff_not, Bool.and_eq_false_iff,
      ← UInt8.toNat_inj] at first ⊢
    omega
  have plain : c ≠ 43 ∧ c ≠ 45 := by
    constructor <;> rintro rfl <;> cases first
  rcases sign with - | - | -
  · simp [IntegerText.text, signText, solid, plain]
  · have blank : isspace 43 = false := rfl
    simp [IntegerText.text, signText, blank]
  · have blank : isspace 45 = false := rfl
    simp [IntegerText.text, signText, blank]

theorem integerText_of_spells {v : Int} (h : Directive.Spells .i v text) :
    integerText text = .ok v := by
  rcases h with ⟨rfl, rfl⟩ | ⟨n, valid, rfl, rfl⟩
  · rfl
  · obtain ⟨drop, unsigned, minus⟩ := integerText_parts valid.digits valid.some
    have all : n.digits.all isdigit = true := List.all_eq_true.mpr valid.digits
    have written : n.text ≠ [] := by
      intro eq
      rw [IntegerText.text] at eq
      exact valid.some (List.append_eq_nil_iff.mp eq).2
    have value : (if n.text.head? = some 45 then -(digitsValue n.digits : Int)
        else digitsValue n.digits) = n.value := by
      rw [IntegerText.value]
      by_cases negative : n.sign = some true
      · rw [if_pos (minus.mpr negative), if_pos negative, neg_one_mul]
      · rw [if_neg fun h => negative (minus.mp h), if_neg negative, one_mul]
    simp only [integerText, drop, unsigned, if_neg written, valid.some, all, value, or_self,
      if_false, reduceCtorEq, min_eq_right valid.high, max_eq_right valid.low, pure_eq_ok]

theorem typeText_of_spells {v : MinmeaType} (h : Directive.Spells .t v text) :
    typeText text = .ok v := by
  obtain ⟨two, three, rfl⟩ := h
  have long : 6 ≤ (36 :: (v.talkerId ++ v.sentenceId)).length := by
    simp only [List.length_cons, List.length_append]
    omega
  have talker : (v.talkerId ++ v.sentenceId).take 2 = v.talkerId := by
    rw [← two, List.take_left]
  have sentence : ((v.talkerId ++ v.sentenceId).drop 2).take 3 = v.sentenceId := by
    rw [← two, List.drop_left, ← three, List.take_length]
  rw [typeText, if_pos ⟨rfl, long⟩, List.drop_succ_cons, List.drop_zero, List.drop_succ_cons,
    talker, sentence]
  rfl

theorem dateText_of_spells {v : MinmeaDate} (h : Directive.Spells .D v text) :
    dateText text = .ok v := by
  rcases h with ⟨rfl, rfl⟩ | ⟨d, m, y, hd, hm, hy, rfl, rfl⟩
  · rfl
  · obtain ⟨all, long, day, month, year, -⟩ := sixDigits_read hd hm hy []
    rw [List.append_nil] at all long day month year
    have written : sixDigits d m y ≠ [] := by
      intro eq
      rw [eq] at long
      cases long
    rw [dateText, if_neg written, if_pos ⟨all, long⟩, day, month, year]
    rfl

theorem fractionText_digits {digits : List UInt8} (h : Digits digits) (short : digits.length ≤ 6) :
    fractionText digits = digitsValue digits * 10 ^ (6 - digits.length) := by
  have all : digits.takeWhile isdigit = digits := by
    rw [List.takeWhile_eq_self_iff]
    exact h
  rw [fractionText, all, List.take_of_length_le short]

theorem timeText_of_spells {v : MinmeaTime} (h : Directive.Spells .T v text) :
    timeText text = .ok v := by
  rcases h with ⟨rfl, rfl⟩ | ⟨h, m, s, fraction, hh, hm, hs, digits, short, rfl, rfl⟩
  · rfl
  · obtain ⟨all, long, hours, minutes, seconds, rest⟩ :=
      sixDigits_read hh hm hs (fraction.elim [] (fullStop :: ·))
    have written : sixDigits h m s ++ fraction.elim [] (fullStop :: ·) ≠ [] := by
      intro eq
      rw [eq] at long
      cases long
    have point : (sixDigits h m s ++ fraction.elim [] (fullStop :: ·))[6]? =
        (fraction.elim [] (fullStop :: ·)).head? := by
      rw [← List.head?_drop, rest]
    have behind : (sixDigits h m s ++ fraction.elim [] (fullStop :: ·)).drop 7 =
        (fraction.elim [] (fullStop :: ·)).drop 1 := rfl
    rw [timeText, if_neg written, if_pos ⟨all, long⟩, hours, minutes, seconds, point, behind]
    cases fraction with
    | none => rfl
    | some digits_ =>
        have value := fractionText_digits digits short
        simp only [Option.getD_some] at value ⊢
        rw [Option.elim_some, List.head?_cons, if_pos rfl, List.drop_succ_cons, List.drop_zero,
          value]
        rfl

/-- A text that stands for a value is read as the value. -/
theorem read_of_spells {letter : Directive} {v : letter.Value} (h : letter.Spells v text) :
    letter.read (some text) = .ok v := by
  cases letter with
  | c => exact congrArg Except.ok (headD_of_spells h)
  | d => exact directionText_of_spells h
  | f => exact floatText_of_spells h
  | i => exact integerText_of_spells h
  | s => exact congrArg Except.ok h
  | t => exact typeText_of_spells h
  | D => exact dateText_of_spells h
  | T => exact timeText_of_spells h
  | ignored => rfl
  | optional => exact h.elim

/-- A missing field is read like an empty one, but for the type. -/
theorem read_none {letter : Directive} (other : letter ≠ .t) :
    letter.read none = letter.read (some []) := by
  cases letter <;> first | exact absurd rfl other | rfl

theorem scanFields_of_spelled {format : List Directive} {isOptional : Bool}
    {values : Values format} {fields : List (List UInt8)}
    (h : Spelled format isOptional values fields) :
    scanFields format isOptional fields = .ok values := by
  induction format generalizing isOptional fields with
  | nil => rfl
  | cons letter format ih =>
      obtain ⟨value, values⟩ := values
      by_cases opt : letter = .optional
      · subst opt
        exact congrArg (· >>= fun rest => pure ((), rest)) (ih h)
      · rw [scanFields_cons opt]
        cases fields with
        | nil =>
            obtain ⟨rfl, other, spelled, later⟩ : isOptional = true ∧ letter ≠ .t ∧
                letter.Spells value [] ∧ Spelled format isOptional values [] := by
              cases letter <;> first | exact absurd rfl opt | exact h
            rw [if_neg (by simp), List.head?_nil, read_none other, read_of_spells spelled]
            simp only [ok_bind, List.tail_nil, ih later, pure_eq_ok]
        | cons field fields =>
            obtain ⟨spelled, later⟩ : letter.Spells value field ∧
                Spelled format isOptional values fields := by
              cases letter <;> first | exact absurd rfl opt | exact h
            rw [if_neg (by simp), List.head?_cons, read_of_spells spelled]
            simp only [ok_bind, List.tail_cons, ih later, pure_eq_ok]

end Read

/-! ### Whole sentences -/

/-- The sentence of some fields, with its checksum. -/
def writeSentence (fields : List (List UInt8)) (ending : List UInt8) : SentenceText :=
  let body := ((fields.headD []) ++ joined fields.tail).drop 1
  { body
    digits := some (Hex.digit ((xorSum body).toNat / 16), Hex.digit ((xorSum body).toNat % 16))
    ending }

theorem splitOn_joined {first : List UInt8} {later : List (List UInt8)}
    (solid : ∀ f ∈ first :: later, comma ∉ f) :
    (first ++ joined later).splitOn comma = first :: later := by
  induction later generalizing first with
  | nil =>
      rw [joined, List.flatMap_nil, List.append_nil]
      exact List.splitOn_eq_singleton (solid first List.mem_cons_self)
  | cons next later ih =>
      have rest : joined (next :: later) = comma :: (next ++ joined later) := rfl
      rw [rest, List.splitOn_append_cons_self_of_not_mem (solid first List.mem_cons_self),
        ih fun f mem => solid f (List.mem_cons_of_mem first mem)]

section Write

variable {first : List UInt8} {later : List (List UInt8)} {ending : List UInt8}

theorem comma_not_mem (isField : MinmeaField first) : comma ∉ first := fun mem => by
  cases isField comma mem

/-- The characters of a sentence are those of its fields, and commas. -/
theorem mem_joined {c : UInt8} (h : c ∈ joined later) : c = comma ∨ ∃ f ∈ later, c ∈ f := by
  obtain ⟨f, mem, inside⟩ := List.mem_flatMap.mp h
  rcases List.mem_cons.mp inside with rfl | inside
  · exact .inl rfl
  · exact .inr ⟨f, mem, inside⟩

theorem bodyChar_of_isfield {c : UInt8} (h : minmeaIsfield c = true) : bodyChar c = true := by
  simp only [minmeaIsfield, Bool.and_eq_true] at h
  rw [bodyChar, h.1.1, h.2]
  rfl

theorem writeSentence_valid (isField : ∀ f ∈ (36 :: first) :: later, MinmeaField f)
    (newlines : ∀ c ∈ ending, newlineChar c = true) :
    (writeSentence ((36 :: first) :: later) ending).Valid true where
  body c mem := by
    rcases List.mem_append.mp mem with mem | mem
    · exact bodyChar_of_isfield (isField _ List.mem_cons_self c (List.mem_cons_of_mem 36 mem))
    · rcases mem_joined mem with rfl | ⟨f, inside, mem⟩
      · rfl
      · exact bodyChar_of_isfield (isField f (List.mem_cons_of_mem _ inside) c mem)
  ending := newlines
  digits := by
    rintro d ⟨⟩
    have small (c : UInt8) : c.toNat / 16 < 16 := Nat.div_lt_of_lt_mul c.toNat_lt
    exact ⟨_, _, Hex.value_digit (small _), Hex.value_digit (Nat.mod_lt _ (by decide)),
      (Nat.div_add_mod _ 16).symm⟩
  checked := by simp [writeSentence]

theorem fieldList_writeSentence (isField : ∀ f ∈ (36 :: first) :: later, MinmeaField f) :
    (writeSentence ((36 :: first) :: later) ending).fieldList = (36 :: first) :: later := by
  have solid : ∀ f ∈ (36 :: first) :: later, comma ∉ f := fun f mem =>
    comma_not_mem (isField f mem)
  exact splitOn_joined solid

/-- **Round trip.** Whatever texts stand for the values of a format, the sentence that is
put together from them passes the strict check, and the scanner gives the values back. -/
theorem minmeaScan_writeSentence (format : List Directive) (values : Values (.t :: format))
    (fields : List (List UInt8)) (spelled : Spelled (.t :: format) false values fields)
    (isField : ∀ f ∈ fields, MinmeaField f) (ending : List UInt8)
    (newlines : ∀ c ∈ ending, newlineChar c = true) (junk : List UInt8) :
    minmeaCheck ((writeSentence fields ending).text ++ 0 :: junk) true = .ok true ∧
      minmeaScan ((writeSentence fields ending).text ++ 0 :: junk) (.t :: format) =
        .ok values := by
  obtain ⟨type, values⟩ := values
  rcases fields with - | ⟨field, fields⟩
  · exact absurd rfl spelled.2.1
  · obtain ⟨-, -, start⟩ := spelled.1
    subst start
    have valid := writeSentence_valid isField newlines
    obtain ⟨b, run, language⟩ := minmeaCheck_eq true valid.terminated junk
    refine ⟨?_, ?_⟩
    · rw [run, language.mpr ⟨_, rfl, valid⟩]
    · rw [minmeaScan_eq valid, fieldList_writeSentence isField, scanFields_of_spelled spelled]

/-- The sentence of a type and a time is read back. -/
theorem minmeaScan_writeSentence_time :
    minmeaCheck ((writeSentence [ascii "$GPZDA", ascii "201530.25"] [13]).text ++ 0 :: []) true =
        .ok true ∧
      minmeaScan ((writeSentence [ascii "$GPZDA", ascii "201530.25"] [13]).text ++ 0 :: [])
        [.t, .T] = .ok (⟨ascii "GP", ascii "ZDA"⟩, ⟨20, 15, 30, 250000⟩, ()) := by
  have time : Directive.Spells .T ⟨20, 15, 30, 250000⟩ (ascii "201530.25") :=
    .inr ⟨20, 15, 30, some (ascii "25"), by decide, by decide, by decide, by decide, by decide,
      rfl, rfl⟩
  have spelled : Spelled [.t, .T] false (⟨ascii "GP", ascii "ZDA"⟩, ⟨20, 15, 30, 250000⟩, ())
      [ascii "$GPZDA", ascii "201530.25"] := ⟨⟨rfl, rfl, rfl⟩, time, trivial⟩
  have isField : ∀ f ∈ [ascii "$GPZDA", ascii "201530.25"], MinmeaField f := by
    simp only [List.forall_mem_cons]
    exact ⟨List.all_eq_true.mp (by decide), List.all_eq_true.mp (by decide), by simp⟩
  exact minmeaScan_writeSentence [.T] _ _ spelled isField [13]
    (List.all_eq_true.mp (by decide)) []

end Write

end Ok3506.Gnss
