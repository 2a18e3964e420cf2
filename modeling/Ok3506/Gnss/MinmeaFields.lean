import Ok3506.Gnss.MinmeaCheck
import Ok3506.Lib.Decimal

/-!
Sentences as lists of fields.

`scanFields` reads the comma-separated fields of a sentence one by one, each as a
text of its own. `minmea_scan`, which walks one pointer over the sentence and
another over the field, agrees with it on every sentence that passed the check.
-/

namespace Ok3506.Gnss

open CString Decimal

/-! ### Fields as texts -/

/-- The state that `'f'` reaches on a field: the same loop as in the source, on the field's
own bytes instead of a pointer. -/
def floatText : FloatState → List UInt8 → Scan FloatState
  | s, [] => return s
  | s, c :: field => do
      match ← s.step c with
      | none => return s
      | some s => floatText s field

/-- `'d'`: nothing, or one of the four directions. -/
def directionText (field : List UInt8) : Scan Int :=
  match field.head? with
  | none => return 0
  | some c =>
      if c = 78 ∨ c = 69 then return 1
      else if c = 83 ∨ c = 87 then return -1
      else throw .parseError

/-- The field without its sign, where it has one. -/
def signText (field : List UInt8) : List UInt8 :=
  if field.head? = some 43 ∨ field.head? = some 45 then field.drop 1 else field

/-- `'i'`: nothing, or a decimal integer that fills the field. -/
def integerText (field : List UInt8) : Scan Int :=
  let number := field.dropWhile isspace
  let digits := signText number
  if field = [] then return 0
  else if digits = [] ∨ digits.all isdigit = false then throw .parseError
  else
    let n : Int := digitsValue digits
    return max intMin (min intMax (if number.head? = some 45 then -n else n))

/-- `'t'`: a `$` and at least five characters. -/
def typeText (field : List UInt8) : Scan MinmeaType :=
  if field.head? = some 36 ∧ 6 ≤ field.length then
    return { talkerId := (field.drop 1).take 2, sentenceId := (field.drop 3).take 3 }
  else throw .parseError

/-- `'D'`: nothing, or at least six digits. -/
def dateText (field : List UInt8) : Scan MinmeaDate :=
  if field = [] then return ⟨-1, -1, -1⟩
  else if (field.take 6).all isdigit ∧ 6 ≤ field.length then
    return ⟨twoDigits field 0, twoDigits field 2, twoDigits field 4⟩
  else throw .parseError

/-- The fraction of a second in millionths; from the seventh digit on it is cut off. -/
def fractionText (digits : List UInt8) : Nat :=
  let kept := (digits.takeWhile isdigit).take 6
  digitsValue kept * 10 ^ (6 - kept.length)

/-- `'T'`: nothing, or at least six digits and perhaps a fraction. -/
def timeText (field : List UInt8) : Scan MinmeaTime :=
  if field = [] then return ⟨-1, -1, -1, -1⟩
  else if (field.take 6).all isdigit ∧ 6 ≤ field.length then
    return ⟨twoDigits field 0, twoDigits field 2, twoDigits field 4,
      if field[6]? = some fullStop then fractionText (field.drop 7) else 0⟩
  else throw .parseError

/-- A field as the value of a letter; a field that is not there counts as empty. -/
def Directive.read : (letter : Directive) → Option (List UInt8) → Scan letter.Value
  | .c, field => return (field.getD []).headD 0
  | .d, field => directionText (field.getD [])
  | .f, field => do (← floatText {} (field.getD [])).result
  | .i, field => integerText (field.getD [])
  | .s, field => return field.getD []
  | .t, field => typeText (field.getD [])
  | .D, field => dateText (field.getD [])
  | .T, field => timeText (field.getD [])
  | .ignored, _ => return ()
  | .optional, _ => return ()

/-- A format against the fields that are left. Behind `;` fields may be missing. -/
def scanFields : (format : List Directive) → (isOptional : Bool) → List (List UInt8) →
    Scan (Values format)
  | [], _, _ => return ()
  | .optional :: format, _, fields => do return ((), ← scanFields format true fields)
  | letter :: format, isOptional, fields =>
      if fields = [] ∧ isOptional = false then throw .parseError
      else do
        let value ← letter.read fields.head?
        return (value, ← scanFields format isOptional fields.tail)

/-! ### One field -/

/-- A text whose characters all pass `minmea_isfield`, as those of a field do. -/
def MinmeaField (field : List UInt8) : Prop := ∀ c ∈ field, minmeaIsfield c = true

/-- What stands behind a field in a sentence: the NUL, or a character that is not one of a
field. -/
structure FieldEnd (rest : List UInt8) : Prop where
  stop : ∃ c p, rest = c :: p ∧ minmeaIsfield c = false

/-- No number starts behind the field either, not even behind blanks. -/
structure NumberEnd (rest : List UInt8) : Prop extends FieldEnd rest where
  noNumber : ∃ c p, skipWhile isspace rest = .ok (c :: p) ∧ isdigit c = false ∧ c ≠ 43 ∧ c ≠ 45

variable {field rest : List UInt8}

theorem MinmeaField.cons {c : UInt8} (h : MinmeaField (c :: field)) :
    minmeaIsfield c = true ∧ MinmeaField field :=
  ⟨h c List.mem_cons_self, fun d mem => h d (List.mem_cons_of_mem c mem)⟩

theorem isfield_of_isdigit {c : UInt8} (h : isdigit c = true) : minmeaIsfield c = true := by
  simp only [isdigit, minmeaIsfield, isprint, comma, asterisk, Bool.and_eq_true, decide_eq_true_eq,
    UInt8.le_iff_toNat_le, UInt8.reduceToNat, ne_eq, ← UInt8.toNat_inj] at h ⊢
  omega

theorem isdigit_of_not_isfield {c : UInt8} (h : minmeaIsfield c = false) : isdigit c = false :=
  Bool.eq_false_iff.mpr fun digit => by simp [isfield_of_isdigit digit] at h

theorem deref_fieldEnd (h : FieldEnd rest) : ∃ c, deref rest = .ok c ∧ minmeaIsfield c = false := by
  obtain ⟨c, p, rfl, stop⟩ := h.stop
  exact ⟨c, rfl, stop⟩

/-- The byte that a pointer to a field reads is the field's first one, or one that ends it.
-/
theorem deref_field (isField : MinmeaField field) (h : FieldEnd rest) :
    ∃ c, deref (field ++ rest) = .ok c ∧
      (minmeaIsfield c = true → field.head? = some c) ∧
      (minmeaIsfield c = false → field = []) := by
  cases field with
  | nil =>
      obtain ⟨c, read, stop⟩ := deref_fieldEnd h
      exact ⟨c, read, fun inside => by simp [stop] at inside, fun _ => rfl⟩
  | cons c field =>
      have inside := isField.cons.1
      exact ⟨c, rfl, fun _ => rfl, fun outside => by simp [inside] at outside⟩

theorem skipWhile_field (isField : MinmeaField field) (h : FieldEnd rest) :
    skipWhile minmeaIsfield (field ++ rest) = .ok rest := by
  obtain ⟨c, p, rfl, stop⟩ := h.stop
  exact skipWhile_append isField stop p

theorem scanChar_eq (isField : MinmeaField field) (h : FieldEnd rest) :
    scanChar (some (field ++ rest)) = .ok (field.headD 0) := by
  obtain ⟨c, read, inside, outside⟩ := deref_field isField h
  rw [scanChar, read]
  cases is : minmeaIsfield c with
  | true => simp [is, List.headD_eq_head?_getD, inside is]
  | false => simp [is, outside is]

theorem scanDirection_eq (isField : MinmeaField field) (h : FieldEnd rest) :
    scanDirection (some (field ++ rest)) = directionText field := by
  obtain ⟨c, read, inside, outside⟩ := deref_field isField h
  rw [scanDirection, read, directionText]
  cases is : minmeaIsfield c with
  | true => simp [is, inside is]
  | false => simp [is, outside is]

theorem floatLoop_eq (s : FloatState) (isField : MinmeaField field) (h : FieldEnd rest) :
    floatLoop s (field ++ rest) = floatText s field := by
  induction field generalizing s with
  | nil =>
      obtain ⟨c, p, rfl, stop⟩ := h.stop
      simp [floatLoop, floatText, stop]
  | cons c field ih =>
      obtain ⟨inside, later⟩ := isField.cons
      rw [List.cons_append, floatLoop, if_pos inside, floatText]
      refine bind_congr fun next => ?_
      cases next with
      | none => rfl
      | some s => exact ih s later

theorem stringLoop_eq (isField : MinmeaField field) (h : FieldEnd rest) :
    stringLoop (field ++ rest) = .ok field := by
  induction field with
  | nil =>
      obtain ⟨c, p, rfl, stop⟩ := h.stop
      simp [stringLoop, stop]
  | cons c field ih =>
      obtain ⟨inside, later⟩ := isField.cons
      rw [List.cons_append, stringLoop, if_pos inside, ih later]
      rfl

/-- A conversion that asks for some bytes of one kind reads them inside the field, or fails.
-/
theorem scanExactly_eq {test : UInt8 → Bool} (solid : ∀ c, test c = true → minmeaIsfield c = true)
    (count : Nat) (isField : MinmeaField field) (h : FieldEnd rest) :
    scanExactly test count (field ++ rest) =
      if (field.take count).all test ∧ count ≤ field.length then .ok (field.take count)
      else .error .parseError := by
  induction count generalizing field with
  | zero => simp [scanExactly]
  | succ count ih =>
      cases field with
      | nil =>
          obtain ⟨c, p, rfl, stop⟩ := h.stop
          have fails : test c = false :=
            Bool.eq_false_iff.mpr fun ok => by simp [solid c ok] at stop
          simp [scanExactly, fails]
      | cons c field =>
          obtain ⟨inside, later⟩ := isField.cons
          rw [List.cons_append, scanExactly, deref_cons, ok_bind, List.drop_succ_cons,
            List.drop_zero, ih later]
          by_cases ok : test c = true
          · rw [if_pos ok]
            simp only [List.length_cons, Nat.add_le_add_iff_right, List.take_succ_cons,
              List.all_cons, ok, Bool.true_and]
            split <;> rfl
          · simp [ok]

theorem scanType_eq (isField : MinmeaField field) (h : FieldEnd rest) :
    scanType (some (field ++ rest)) = typeText field := by
  cases field with
  | nil =>
      obtain ⟨c, p, rfl, stop⟩ := h.stop
      have other : c ≠ 36 := by
        rintro rfl
        cases stop
      simp [scanType, typeText, other]
  | cons c field =>
      obtain ⟨inside, later⟩ := isField.cons
      have read := scanExactly_eq (fun _ h => h) 5 later h
      have all : (field.take 5).all minmeaIsfield = true :=
        List.all_eq_true.mpr fun c mem => later c (List.mem_of_mem_take mem)
      simp only [all, true_and] at read
      rw [List.cons_append, scanType, deref_cons, ok_bind, List.drop_succ_cons, List.drop_zero,
        read, typeText]
      by_cases start : c = 36
      · by_cases long : 5 ≤ field.length
        · have take : (field.take 5).drop 2 = (field.drop 2).take 3 := by
            rw [List.drop_take]
          simp [start, long, take, List.take_take]
        · simp [start, long]
      · simp [start]

theorem twoDigits_take {digits : List UInt8} {count i : Nat} (h : i + 1 < count) :
    twoDigits (digits.take count) i = twoDigits digits i := by
  have first : (digits.take count).getD i 48 = digits.getD i 48 := by
    rw [List.getD_eq_getElem?_getD, List.getElem?_take_of_lt (by omega),
      ← List.getD_eq_getElem?_getD]
  have second : (digits.take count).getD (i + 1) 48 = digits.getD (i + 1) 48 := by
    rw [List.getD_eq_getElem?_getD, List.getElem?_take_of_lt h, ← List.getD_eq_getElem?_getD]
  rw [twoDigits, twoDigits, first, second]

theorem scanDate_eq (isField : MinmeaField field) (h : FieldEnd rest) :
    scanDate (some (field ++ rest)) = dateText field := by
  obtain ⟨c, read, inside, outside⟩ := deref_field isField h
  rw [scanDate, dateText, read, ok_bind]
  cases is : minmeaIsfield c with
  | false => simp [outside is]
  | true =>
      have some : field ≠ [] := by
        rintro rfl
        cases inside is
      rw [if_pos rfl, if_neg some, scanExactly_eq (fun _ => isfield_of_isdigit) 6 isField h]
      split
      · simp [twoDigits_take]
      · rfl

theorem fractionLoop_eq (isField : MinmeaField field) (h : FieldEnd rest) (value places : Nat) :
    fractionLoop value places (field ++ rest) =
      .ok (digitsFrom value ((field.takeWhile isdigit).take places)
        * 10 ^ (places - ((field.takeWhile isdigit).take places).length)) := by
  induction field generalizing value places with
  | nil =>
      obtain ⟨c, p, rfl, stop⟩ := h.stop
      cases places <;> simp [fractionLoop, isdigit_of_not_isfield stop]
  | cons c field ih =>
      obtain ⟨inside, later⟩ := isField.cons
      cases is : isdigit c with
      | false => cases places <;> simp [fractionLoop, is]
      | true =>
          cases places with
          | zero => simp [fractionLoop, is]
          | succ places =>
              rw [List.cons_append, fractionLoop, if_pos is, ih later,
                List.takeWhile_cons_of_pos is, List.take_succ_cons, digitsFrom_cons,
                List.length_cons, Nat.add_sub_add_right]

theorem scanTime_eq (isField : MinmeaField field) (h : FieldEnd rest) :
    scanTime (some (field ++ rest)) = timeText field := by
  obtain ⟨c, read, inside, outside⟩ := deref_field isField h
  rw [scanTime, timeText, read, ok_bind]
  cases is : minmeaIsfield c with
  | false => simp [outside is]
  | true =>
      have some : field ≠ [] := by
        rintro rfl
        cases inside is
      rw [if_pos rfl, if_neg some, scanExactly_eq (fun _ => isfield_of_isdigit) 6 isField h]
      split
      · rename_i solid
        have later : MinmeaField (field.drop 6) := fun c mem => isField c (List.mem_of_mem_drop mem)
        have behind : (field ++ rest).drop 6 = field.drop 6 ++ rest :=
          List.drop_append_of_le_length solid.2
        have first : field[6]? = (field.drop 6).head? := by rw [List.head?_drop]
        simp only [ok_bind, behind, first, twoDigits_take, Nat.reduceAdd, Nat.reduceLT,
          pure_eq_ok]
        rw [show field.drop 7 = (field.drop 6).drop 1 by rw [List.drop_drop]]
        generalize field.drop 6 = fraction at later
        cases fraction with
        | nil =>
            obtain ⟨c, p, rfl, stop⟩ := h.stop
            have other : c ≠ fullStop := by
              rintro rfl
              cases stop
            simp [other]
        | cons c fraction =>
            by_cases point : c = fullStop
            · have value := fractionLoop_eq later.cons.2 h 0 6
              simp [point, value, fractionText, digitsValue]
            · simp [point]
      · rfl

/-! ### Integers -/

theorem digitLoop_append {digits : List UInt8} (all : ∀ c ∈ digits, isdigit c = true) {c : UInt8}
    (stop : isdigit c = false) (n : Nat) (p : List UInt8) :
    digitLoop n (digits ++ c :: p) =
      .ok (digitsFrom n digits, c :: p) := by
  induction digits generalizing n with
  | nil => simp [digitLoop, stop]
  | cons d digits ih =>
      rw [List.cons_append, digitLoop, if_pos (all d List.mem_cons_self),
        ih fun c mem => all c (List.mem_cons_of_mem d mem), digitsFrom_cons]

/-- A field starts with some blanks, and what follows does not start with one. -/
theorem exists_blanks (field : List UInt8) :
    ∃ blanks number, field = blanks ++ number ∧ (∀ c ∈ blanks, isspace c = true) ∧
      (∀ c ∈ number.head?, isspace c = false) ∧ field.dropWhile isspace = number := by
  refine ⟨field.takeWhile isspace, field.dropWhile isspace, by simp,
    fun c mem => List.mem_takeWhile_imp mem, fun c mem => ?_, rfl⟩
  simpa [Option.mem_def.mp mem] using List.head?_dropWhile_not isspace field

/-- A text is digits up to its first other character. -/
theorem exists_digits (p : List UInt8) :
    ∃ digits later, p = digits ++ later ∧ (∀ c ∈ digits, isdigit c = true) ∧
      (∀ c ∈ later.head?, isdigit c = false) := by
  refine ⟨p.takeWhile isdigit, p.dropWhile isdigit, by simp,
    fun c mem => List.mem_takeWhile_imp mem, fun c mem => ?_⟩
  simpa [Option.mem_def.mp mem] using List.head?_dropWhile_not isdigit p

/-- The digits of `strtol`, and whether they end where the field does. -/
theorem strtol_digits {p rest : List UInt8} (isField : MinmeaField p) (h : FieldEnd rest) :
    ∃ digits later, p = digits ++ later ∧
      (∀ n, digitLoop n (p ++ rest) =
        .ok (digitsFrom n digits, later ++ rest)) ∧
      (∃ c, deref (p ++ rest) = .ok c ∧ (isdigit c = true ↔ digits ≠ [])) ∧
      (∃ c, deref (later ++ rest) = .ok c ∧ (minmeaIsfield c = true ↔ later ≠ [])) ∧
      (digits ≠ [] ∧ later = [] ↔ p ≠ [] ∧ p.all isdigit = true) := by
  obtain ⟨c, q, rfl, stop⟩ := h.stop
  have noDigit := isdigit_of_not_isfield stop
  obtain ⟨digits, later, rfl, all, ends⟩ := exists_digits p
  refine ⟨digits, later, rfl, fun n => ?_, ?_, ?_, ?_⟩
  · cases later with
    | nil => rw [List.append_nil, digitLoop_append all noDigit, List.nil_append]
    | cons d later =>
        rw [List.append_assoc, List.cons_append, digitLoop_append all (ends d rfl)]
  · cases digits with
    | cons d digits => exact ⟨d, rfl, by simp [all d List.mem_cons_self]⟩
    | nil =>
        cases later with
        | nil => exact ⟨c, rfl, by simp [noDigit]⟩
        | cons d later => exact ⟨d, rfl, by simp [ends d rfl]⟩
  · cases later with
    | nil => exact ⟨c, rfl, by simp [stop]⟩
    | cons d later =>
        have inside := isField d (List.mem_append_right digits List.mem_cons_self)
        exact ⟨d, rfl, by simp [inside]⟩
  · cases later with
    | nil =>
        have every : digits.all isdigit = true := List.all_eq_true.mpr all
        simp [every]
    | cons d later => simp [ends d rfl]

theorem skipWhile_append_skip {more : UInt8 → Bool} {l : List UInt8}
    (all : ∀ c ∈ l, more c = true) (p : List UInt8) :
    skipWhile more (l ++ p) = skipWhile more p := by
  induction l with
  | nil => rfl
  | cons a l ih =>
      rw [List.cons_append, skipWhile, if_pos (all a List.mem_cons_self),
        ih fun c mem => all c (List.mem_cons_of_mem a mem)]

/-- A field of blanks has no digits. -/
theorem scanInteger_blanks {blanks : List UInt8} (isField : MinmeaField blanks)
    (spaces : ∀ c ∈ blanks, isspace c = true) (h : NumberEnd rest) :
    scanInteger (some (blanks ++ rest)) =
      if blanks = [] then .ok 0 else .error .parseError := by
  obtain ⟨c, p, skipped, noDigit, noPlus, noMinus⟩ := h.noNumber
  obtain ⟨d, read, inside, outside⟩ := deref_field isField h.toFieldEnd
  have run : strtol (blanks ++ rest) = .ok (0, blanks ++ rest) := by
    simp [strtol, skipWhile_append_skip spaces, skipped, noDigit, noPlus, noMinus]
  simp only [scanInteger, run, ok_bind, read]
  cases is : minmeaIsfield d with
  | true =>
      have some : blanks ≠ [] := by
        rintro rfl
        cases inside is
      simp [some]
  | false => simp [outside is]

theorem scanInteger_eq (isField : MinmeaField field) (h : NumberEnd rest) :
    scanInteger (some (field ++ rest)) = integerText field := by
  obtain ⟨blanks, number, rfl, spaces, solid, drop⟩ := exists_blanks field
  rw [integerText, drop]
  cases number with
  | nil =>
      rw [List.append_nil] at isField ⊢
      rw [scanInteger_blanks isField spaces h]
      simp [signText]
  | cons x number =>
      have unsigned : MinmeaField (signText (x :: number)) := by
        intro c mem
        refine isField c (List.mem_append_right blanks ?_)
        unfold signText at mem
        split at mem
        · exact List.mem_of_mem_drop mem
        · exact mem
      have skip : skipWhile isspace (blanks ++ x :: number ++ rest) =
          .ok (x :: (number ++ rest)) := by
        rw [List.append_assoc, List.cons_append, skipWhile_append_skip spaces, skipWhile,
          solid x rfl]
        rfl
      have start : (if x = 43 ∨ x = 45 then (x :: (number ++ rest)).drop 1
          else x :: (number ++ rest)) = signText (x :: number) ++ rest := by
        simp only [signText, List.head?_cons, Option.some.injEq]
        split <;> rfl
      obtain ⟨digits, later, split, loop, ⟨c, first, digit⟩, ⟨d, next, inside⟩, whole⟩ :=
        strtol_digits unsigned h.toFieldEnd
      have some : blanks ++ x :: number ≠ [] := by simp
      simp only [scanInteger, strtol, skip, ok_bind, deref_cons, start, first, List.head?_cons,
        Option.some.injEq, if_neg some]
      have fills : ¬ (signText (x :: number) = [] ∨ (signText (x :: number)).all isdigit = false) ↔
          digits ≠ [] ∧ later = [] := by
        rw [whole, not_or, Bool.not_eq_false]
      by_cases none : digits = []
      · have fails : ¬ (digits ≠ [] ∧ later = []) := fun h => h.1 none
        have noDigit : isdigit c = false :=
          Bool.eq_false_iff.mpr fun is => digit.mp is none
        obtain ⟨e, read, -, outside⟩ := deref_field isField h.toFieldEnd
        have stays : minmeaIsfield e = true := by
          by_contra other
          exact some (outside (Bool.eq_false_iff.mpr other))
        rw [List.append_assoc, List.cons_append] at read
        rw [if_pos (not_not.mp fun ok => fails (fills.mp ok))]
        simp [noDigit, read, stays]
      · rw [if_pos (digit.mpr none), loop]
        by_cases last : later = []
        · have ends : minmeaIsfield d = false :=
            Bool.eq_false_iff.mpr fun is => inside.mp is last
          rw [if_neg (fills.mpr ⟨none, last⟩), split, last, List.append_nil]
          rw [last, List.nil_append] at next
          simp [next, ends, digitsValue]
        · have stays : minmeaIsfield d = true := inside.mpr last
          rw [if_pos (not_not.mp fun ok => last (fills.mp ok).2)]
          simp [next, stays]

/-! ### The scanner -/

/-- At a field, the `switch` of `minmea_scan` computes the value from the field's text
alone; `'i'` needs more, because `strtol` may look past the field. -/
theorem convert_eq_of_ne {letter : Directive} (other : letter ≠ .i) (isField : MinmeaField field)
    (h : FieldEnd rest) : convert letter (some (field ++ rest)) = letter.read (some field) := by
  cases letter with
  | c => exact scanChar_eq isField h
  | d => exact scanDirection_eq isField h
  | f => exact congrArg (· >>= FloatState.result) (floatLoop_eq {} isField h)
  | i => exact absurd rfl other
  | s => exact stringLoop_eq isField h
  | t => exact scanType_eq isField h
  | D => exact scanDate_eq isField h
  | T => exact scanTime_eq isField h
  | ignored => rfl
  | optional => rfl

theorem convert_eq (letter : Directive) (isField : MinmeaField field) (h : NumberEnd rest) :
    convert letter (some (field ++ rest)) = letter.read (some field) := by
  by_cases integer : letter = .i
  · subst integer
    exact scanInteger_eq isField h
  · exact convert_eq_of_ne integer isField h.toFieldEnd

/-- NULL counts as an empty field. -/
theorem convert_none (letter : Directive) : convert letter none = letter.read none := by
  cases letter <;> rfl

theorem scanLoop_cons {letter : Directive} (h : letter ≠ .optional) (format : List Directive)
    (isOptional : Bool) (sentence : List UInt8) (field : Option (List UInt8)) :
    scanLoop (letter :: format) isOptional sentence field =
      if field.isNone ∧ isOptional = false then throw .parseError
      else do
        let value ← convert letter field
        let next ← nextField sentence
        return (value, ← scanLoop format isOptional next.1 next.2) := by
  cases letter <;> first | exact absurd rfl h | rfl

theorem scanFields_cons {letter : Directive} (h : letter ≠ .optional) (format : List Directive)
    (isOptional : Bool) (fields : List (List UInt8)) :
    scanFields (letter :: format) isOptional fields =
      if fields = [] ∧ isOptional = false then throw .parseError
      else do
        let value ← letter.read fields.head?
        return (value, ← scanFields format isOptional fields.tail) := by
  cases letter <;> first | exact absurd rfl h | rfl

/-- The fields behind the first, with their commas. -/
def joined (fields : List (List UInt8)) : List UInt8 := fields.flatMap (comma :: ·)

/-- The sentence has run out of fields. -/
structure SentenceEnd (tail : List UInt8) : Prop extends NumberEnd tail where
  last : ∃ c, deref tail = .ok c ∧ c ≠ comma

variable {fields : List (List UInt8)} {tail : List UInt8}

theorem numberEnd_joined (fields : List (List UInt8)) (h : NumberEnd tail) :
    NumberEnd (joined fields ++ tail) := by
  cases fields with
  | nil => exact h
  | cons field fields =>
      exact ⟨⟨⟨comma, _, rfl, rfl⟩⟩, ⟨comma, _, rfl, rfl, by decide, by decide⟩⟩

theorem nextField_last (isField : MinmeaField field) (h : SentenceEnd tail) :
    nextField (field ++ tail) = .ok (tail, none) := by
  obtain ⟨c, read, other⟩ := h.last
  simp [nextField, skipWhile_field isField h.toFieldEnd, read, other]

theorem nextField_cons {next : List UInt8} (isField : MinmeaField field) (h : NumberEnd tail) :
    nextField (field ++ (joined (next :: fields) ++ tail)) =
      .ok (next ++ (joined fields ++ tail), some (next ++ (joined fields ++ tail))) := by
  have skip := skipWhile_field isField (numberEnd_joined (next :: fields) h).toFieldEnd
  have start : joined (next :: fields) ++ tail = comma :: (next ++ (joined fields ++ tail)) := by
    simp [joined]
  rw [nextField, skip, ok_bind, start]
  rfl

/-- Where the sentence has run out of fields, the loop reads every further letter as a
missing field. -/
theorem scanLoop_none (format : List Directive) (isOptional : Bool) (h : SentenceEnd tail) :
    scanLoop format isOptional tail none = scanFields format isOptional [] := by
  induction format generalizing isOptional with
  | nil => rfl
  | cons letter format ih =>
      by_cases opt : letter = .optional
      · subst opt
        exact congrArg (· >>= fun rest => pure ((), rest)) (ih true)
      · have empty : MinmeaField [] := fun c mem => absurd mem List.not_mem_nil
        have next : nextField ([] ++ tail) = .ok (tail, none) := nextField_last empty h
        rw [List.nil_append] at next
        rw [scanLoop_cons opt, scanFields_cons opt, next, convert_none]
        simp only [Option.isNone_none, true_and, ok_bind, ih, List.head?_nil, List.tail_nil]

/-- At a field the loop reads this field, and goes on with those that follow. -/
theorem scanLoop_some (format : List Directive) (isOptional : Bool)
    (isField : ∀ f ∈ field :: fields, MinmeaField f) (h : SentenceEnd tail) :
    scanLoop format isOptional (field ++ (joined fields ++ tail))
        (some (field ++ (joined fields ++ tail))) =
      scanFields format isOptional (field :: fields) := by
  induction format generalizing isOptional field fields with
  | nil => rfl
  | cons letter format ih =>
      by_cases opt : letter = .optional
      · subst opt
        exact congrArg (· >>= fun rest => pure ((), rest)) (ih true isField)
      · have first := isField field List.mem_cons_self
        rw [scanLoop_cons opt, scanFields_cons opt,
          convert_eq letter first (numberEnd_joined fields h.toNumberEnd)]
        simp only [Option.isNone_some, Bool.false_eq_true, false_and, if_false, reduceCtorEq,
          List.head?_cons, List.tail_cons]
        refine bind_congr fun value => ?_
        cases fields with
        | nil =>
            have next := nextField_last first h
            rw [joined, List.flatMap_nil, List.nil_append, next, ok_bind, scanLoop_none _ _ h]
        | cons next fields =>
            rw [nextField_cons first h.toNumberEnd, ok_bind,
              ih isOptional fun f mem => isField f (List.mem_cons_of_mem field mem)]

/-! ### Checked sentences -/

/-- The pieces of a text put together give the text, and none has the separator. -/
theorem joined_splitOn (text : List UInt8) :
    ∃ first later, text.splitOn comma = first :: later ∧ first ++ joined later = text ∧
      ∀ f ∈ first :: later, ∀ c ∈ f, c ∈ text ∧ c ≠ comma := by
  induction text with
  | nil => exact ⟨[], [], rfl, rfl, by simp⟩
  | cons a text ih =>
      obtain ⟨first, later, split, eq, parts⟩ := ih
      have wider : ∀ f ∈ first :: later, ∀ c ∈ f, c ∈ a :: text ∧ c ≠ comma := fun f mem c inside =>
        ⟨List.mem_cons_of_mem a (parts f mem c inside).1, (parts f mem c inside).2⟩
      rw [List.splitOn_cons_eq_if_modifyHead, split]
      by_cases sep : a = comma
      · refine ⟨[], first :: later, by simp [sep], by simp [sep, ← eq, joined], ?_⟩
        rintro f (_ | ⟨_, mem⟩)
        · simp
        · exact wider f mem
      · refine ⟨a :: first, later, by simp [sep], by simp [eq], ?_⟩
        rintro f (_ | ⟨_, mem⟩)
        · rintro c (_ | ⟨_, inside⟩)
          · exact ⟨List.mem_cons_self, sep⟩
          · exact wider first List.mem_cons_self c inside
        · exact wider f (List.mem_cons_of_mem first mem)

/-- The fields of a sentence; the first starts with the `$`. -/
def SentenceText.fieldList (t : SentenceText) : List (List UInt8) := (36 :: t.body).splitOn comma

theorem isspace_of_newlineChar {c : UInt8} (h : newlineChar c = true) : isspace c = true := by
  simp only [newlineChar, Bool.or_eq_true, decide_eq_true_eq] at h
  rcases h with rfl | rfl <;> rfl

theorem minmeaIsfield_of_newlineChar {c : UInt8} (h : newlineChar c = true) :
    minmeaIsfield c = false ∧ c ≠ comma := by
  simp only [newlineChar, Bool.or_eq_true, decide_eq_true_eq] at h
  rcases h with rfl | rfl <;> decide

/-- Behind its body a sentence has no further field. -/
theorem SentenceText.Valid.sentenceEnd {strict : Bool} {t : SentenceText} (h : t.Valid strict)
    (junk : List UInt8) : SentenceEnd (t.checksum ++ t.ending ++ 0 :: junk) := by
  rcases t with ⟨body, - | d, ending⟩
  · have spaces : ∀ c ∈ ending, isspace c = true := fun c mem =>
      isspace_of_newlineChar (h.ending c mem)
    have skip : skipWhile isspace (ending ++ 0 :: junk) = .ok (0 :: junk) :=
      skipWhile_append spaces rfl junk
    have number : ∃ c p, skipWhile isspace (ending ++ 0 :: junk) = .ok (c :: p) ∧
        isdigit c = false ∧ c ≠ 43 ∧ c ≠ 45 := ⟨0, junk, skip, by decide, by decide, by decide⟩
    cases ending with
    | nil => exact ⟨⟨⟨⟨0, junk, rfl, rfl⟩⟩, number⟩, ⟨0, rfl, by decide⟩⟩
    | cons c ending =>
        have newline := minmeaIsfield_of_newlineChar (h.ending c List.mem_cons_self)
        exact ⟨⟨⟨⟨c, ending ++ 0 :: junk, rfl, newline.1⟩⟩, number⟩, ⟨c, rfl, newline.2⟩⟩
  · exact ⟨⟨⟨⟨asterisk, _, rfl, rfl⟩⟩, ⟨asterisk, _, rfl, by decide, by decide, by decide⟩⟩,
      ⟨asterisk, rfl, by decide⟩⟩

/-- The scanner reads the fields of a checked sentence. -/
theorem minmeaScan_eq {strict : Bool} {t : SentenceText} (h : t.Valid strict)
    (format : List Directive) (junk : List UInt8) :
    minmeaScan (t.text ++ 0 :: junk) format = scanFields format false t.fieldList := by
  obtain ⟨first, later, split, eq, parts⟩ := joined_splitOn (36 :: t.body)
  have isField : ∀ f ∈ first :: later, MinmeaField f := by
    intro f mem c inside
    obtain ⟨from_, other⟩ := parts f mem c inside
    have body : bodyChar c = true := by
      rcases List.mem_cons.mp from_ with rfl | from_
      · rfl
      · exact h.body c from_
    simp only [bodyChar, Bool.and_eq_true] at body
    rw [minmeaIsfield, body.1, body.2]
    simp [other]
  have regroup : t.text ++ 0 :: junk =
      first ++ (joined later ++ (t.checksum ++ t.ending ++ 0 :: junk)) := by
    rw [← List.append_assoc, eq]
    simp [SentenceText.text]
  rw [minmeaScan, regroup, scanLoop_some format false isField (h.sentenceEnd junk),
    SentenceText.fieldList, split]

/-- **The scanner reads fields.** On a string that passed the check, the two pointers of
`minmea_scan` compute for every format what its fields say. -/
theorem minmeaScan_fields (strict : Bool) (s : List UInt8) (terminated : 0 ∉ s)
    (junk : List UInt8) (accepted : minmeaCheck (s ++ 0 :: junk) strict = .ok true) :
    ∃ t : SentenceText, t.text = s ∧ t.Valid strict ∧
      ∀ format, minmeaScan (s ++ 0 :: junk) format = scanFields format false t.fieldList := by
  obtain ⟨b, run, language⟩ := minmeaCheck_eq strict terminated junk
  rw [accepted, Except.ok.injEq] at run
  obtain ⟨t, rfl, valid⟩ := language.mp run.symm
  exact ⟨t, rfl, valid, fun format => minmeaScan_eq valid format junk⟩

theorem minmeaScan_fields_gll :
    ∃ t : SentenceText, t.text = ascii "$GPGLL,,,,,,V,N*64" ∧ t.Valid true ∧
      ∀ format, minmeaScan (ascii "$GPGLL,,,,,,V,N*64" ++ 0 :: [49]) format =
        scanFields format false t.fieldList :=
  minmeaScan_fields true _ (by decide) [49] (by decide)

/-! ### Any buffer -/

section Terminated

theorem deref_terminated (s junk : List UInt8) : deref (s ++ 0 :: junk) = .ok (s.headD 0) := by
  cases s <;> rfl

theorem skipWhile_terminated {more : UInt8 → Bool} (stop : more 0 = false) (s junk : List UInt8) :
    skipWhile more (s ++ 0 :: junk) = .ok (s.dropWhile more ++ 0 :: junk) := by
  induction s with
  | nil => simp [skipWhile, stop]
  | cons c s ih => cases is : more c <;> simp [skipWhile, is, ih]

theorem digitLoop_terminated (n : Nat) (p junk : List UInt8) :
    digitLoop n (p ++ 0 :: junk) =
      .ok (digitsFrom n (p.takeWhile isdigit),
        p.dropWhile isdigit ++ 0 :: junk) := by
  have zero : isdigit 0 = false := rfl
  induction p generalizing n with
  | nil => simp [digitLoop, zero]
  | cons c p ih => cases is : isdigit c <;> simp [digitLoop, is, ih]

/-- `strtol` stops at the NUL at the latest. -/
theorem strtol_terminated (s : List UInt8) :
    ∃ value endptr, ∀ junk, strtol (s ++ 0 :: junk) = .ok (value, endptr ++ 0 :: junk) := by
  obtain ⟨p, hp⟩ : ∃ p, p = s.dropWhile isspace := ⟨_, rfl⟩
  obtain ⟨q, hq⟩ : ∃ q, q = if p.headD 0 = 43 ∨ p.headD 0 = 45 then p.drop 1 else p := ⟨_, rfl⟩
  have blanks (junk : List UInt8) : skipWhile isspace (s ++ 0 :: junk) = .ok (p ++ 0 :: junk) := by
    rw [skipWhile_terminated rfl, hp]
  have sign (junk : List UInt8) : (if p.headD 0 = 43 ∨ p.headD 0 = 45 then (p ++ 0 :: junk).drop 1
      else p ++ 0 :: junk) = q ++ 0 :: junk := by
    rw [hq]
    cases p with
    | nil => rfl
    | cons c p => split <;> rfl
  by_cases digit : isdigit (q.headD 0) = true
  · refine ⟨max intMin (min intMax (if p.headD 0 = 45 then -digitsValue (q.takeWhile isdigit)
      else digitsValue (q.takeWhile isdigit))), q.dropWhile isdigit, fun junk => ?_⟩
    simp only [strtol, blanks, ok_bind, deref_terminated, sign, digit, if_true,
      digitLoop_terminated, pure_eq_ok, digitsValue]
  · refine ⟨0, s, fun junk => ?_⟩
    simp only [strtol, blanks, ok_bind, deref_terminated, sign, digit, if_false, pure_eq_ok,
      Bool.false_eq_true]

theorem digit_ne_overread (s : FloatState) (digit : Int) : s.digit digit ≠ .error .overread := by
  unfold FloatState.digit
  dsimp only
  split <;> split <;> split <;> simp

theorem step_ne_overread (s : FloatState) (c : UInt8) : s.step c ≠ .error .overread := by
  unfold FloatState.step
  split_ifs <;> first | exact digit_ne_overread _ _ | simp

theorem floatText_ne_overread (s : FloatState) (text : List UInt8) :
    floatText s text ≠ .error .overread := by
  induction text generalizing s with
  | nil => simp [floatText]
  | cons c text ih =>
      rw [floatText]
      rcases stepped : s.step c with e | next
      · have ok := step_ne_overread s c
        rw [stepped] at ok
        simpa using ok
      · cases next with
        | none => simp
        | some next => exact ih next

theorem result_ne_overread (s : FloatState) : s.result ≠ .error .overread := by
  unfold FloatState.result
  split_ifs <;> simp

/-- Reading a field by its text never runs over an end: `overread` comes from pointers only.
-/
theorem read_ne_overread (letter : Directive) (field : Option (List UInt8)) :
    letter.read field ≠ .error .overread := by
  cases letter with
  | f =>
      have loop := floatText_ne_overread {} (field.getD [])
      rw [Directive.read]
      rcases run : floatText {} (field.getD []) with e | s
      · rw [run] at loop
        simpa using loop
      · exact result_ne_overread s
  | d =>
      rw [Directive.read, directionText]
      split <;> [skip; split_ifs] <;> simp
  | i =>
      rw [Directive.read, integerText]
      split_ifs <;> simp
  | t =>
      rw [Directive.read, typeText]
      split_ifs <;> simp
  | D =>
      rw [Directive.read, dateText]
      split_ifs <;> simp
  | T =>
      rw [Directive.read, timeText]
      split_ifs <;> simp
  | c | s | ignored | optional => simp [Directive.read]

/-- A conversion reads at most up to the NUL. -/
theorem convert_terminated (letter : Directive) (s : List UInt8) :
    ∃ r, r ≠ .error .overread ∧ ∀ junk, convert letter (some (s ++ 0 :: junk)) = r := by
  by_cases integer : letter = .i
  · subst integer
    obtain ⟨value, endptr, run⟩ := strtol_terminated s
    refine ⟨if minmeaIsfield (endptr.headD 0) then .error .parseError else .ok value, ?_,
      fun junk => ?_⟩
    · split <;> simp
    · simp only [convert, scanInteger, run, ok_bind, deref_terminated]
      rfl
  · refine ⟨letter.read (some (s.takeWhile minmeaIsfield)), read_ne_overread _ _, fun junk => ?_⟩
    have isField : MinmeaField (s.takeWhile minmeaIsfield) :=
      fun c mem => List.mem_takeWhile_imp mem
    have ends : FieldEnd (s.dropWhile minmeaIsfield ++ 0 :: junk) := by
      have first := List.head?_dropWhile_not minmeaIsfield s
      cases eq : s.dropWhile minmeaIsfield with
      | nil => exact ⟨0, junk, rfl, rfl⟩
      | cons c p =>
          rw [eq] at first
          exact ⟨c, p ++ 0 :: junk, rfl, by simpa using first⟩
    rw [← convert_eq_of_ne integer isField ends, ← List.append_assoc,
      List.takeWhile_append_dropWhile]

/-- `next_field` moves to a place at or before the NUL. -/
theorem nextField_terminated (s : List UInt8) :
    ∃ (p : List UInt8) (field : Option (List UInt8)), ∀ junk,
      nextField (s ++ 0 :: junk) = .ok (p ++ 0 :: junk, field.map (· ++ 0 :: junk)) := by
  obtain ⟨p, hp⟩ : ∃ p, p = s.dropWhile minmeaIsfield := ⟨_, rfl⟩
  have skip (junk : List UInt8) : skipWhile minmeaIsfield (s ++ 0 :: junk) =
      .ok (p ++ 0 :: junk) := by
    rw [skipWhile_terminated rfl, hp]
  rcases p with - | ⟨c, p⟩
  · exact ⟨[], none, fun junk => by simp [nextField, skip, comma]⟩
  · by_cases sep : c = comma
    · exact ⟨p, some p, fun junk => by simp [nextField, skip, sep]⟩
    · exact ⟨c :: p, none, fun junk => by simp [nextField, skip, sep]⟩

theorem scanLoop_terminated (format : List Directive) (isOptional : Bool) (s : List UInt8)
    (field : Option (List UInt8)) :
    ∃ r, r ≠ .error .overread ∧ ∀ junk,
      scanLoop format isOptional (s ++ 0 :: junk) (field.map (· ++ 0 :: junk)) = r := by
  induction format generalizing isOptional s field with
  | nil => exact ⟨.ok (), by simp, fun junk => rfl⟩
  | cons letter format ih =>
      by_cases opt : letter = .optional
      · subst opt
        obtain ⟨r, ok, run⟩ := ih true s field
        refine ⟨r >>= fun rest => .ok ((), rest), ?_, fun junk => ?_⟩
        · rcases r with e | rest
          · simpa using ok
          · simp
        · exact congrArg (· >>= fun rest => pure ((), rest)) (run junk)
      · have missing (junk : List UInt8) :
            (field.map (· ++ 0 :: junk)).isNone = field.isNone := Option.isNone_map
        by_cases stops : field.isNone = true ∧ isOptional = false
        · refine ⟨.error .parseError, by simp, fun junk => ?_⟩
          rw [scanLoop_cons opt, missing, if_pos stops]
          rfl
        · obtain ⟨value, ok, converted⟩ : ∃ r, r ≠ .error .overread ∧ ∀ junk,
              convert letter (field.map (· ++ 0 :: junk)) = r := by
            cases field with
            | none => exact ⟨letter.read none, read_ne_overread _ _, fun _ => convert_none letter⟩
            | some p => exact convert_terminated letter p
          obtain ⟨p, next, moved⟩ := nextField_terminated s
          obtain ⟨r, ok', run⟩ := ih isOptional p next
          refine ⟨value >>= fun value => r >>= fun rest => .ok (value, rest), ?_, fun junk => ?_⟩
          · rcases value with e | value
            · simpa using ok
            · rcases r with e | rest
              · simpa using ok'
              · simp
          · rw [scanLoop_cons opt, missing, if_neg stops, converted, moved]
            simp only [ok_bind, run, pure_eq_ok]

/-- **No read behind the NUL.** Whatever the string and the format, `minmea_scan` does not
run over the terminator, so what stands behind it makes no difference. -/
theorem minmeaScan_terminated (format : List Directive) (s : List UInt8) :
    ∃ r, r ≠ .error .overread ∧ ∀ junk, minmeaScan (s ++ 0 :: junk) format = r := by
  obtain ⟨r, ok, run⟩ := scanLoop_terminated format false s (some s)
  exact ⟨r, ok, run⟩

end Terminated

end Ok3506.Gnss
