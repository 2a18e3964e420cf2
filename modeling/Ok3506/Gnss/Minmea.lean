import Ok3506.Lib.CString
import Ok3506.Lib.Hex
import Mathlib.Algebra.Order.Ring.Int

/-!
The sentence reader of `minmea.c`.

A pointer into a sentence is the rest of the buffer from there on, with the NUL and
what stands behind it. A read behind the buffer is a stop of its own, and so is
arithmetic that leaves `int_least32_t`; what C does then is not defined. `long` is
as wide as `int`, as on the target.
-/

namespace Ok3506.Gnss

open CString

/-- Why a function ends early: `parse_error`, or a step that C leaves undefined. -/
inductive ScanStop where
  | parseError
  | overread
  | overflow
  deriving DecidableEq, Repr

/-- The result of a function of `minmea.c`. -/
abbrev Scan := Except ScanStop

section Bind

variable {α β : Type} {f : α → Scan β}

@[simp] theorem ok_bind (a : α) : (Except.ok a : Scan α) >>= f = f a := rfl

@[simp] theorem error_bind (e : ScanStop) : (Except.error e : Scan α) >>= f = .error e := rfl

@[simp] theorem pure_eq_ok (a : α) : (pure a : Scan α) = .ok a := rfl

@[simp] theorem throw_eq_error (e : ScanStop) : (throw e : Scan α) = .error e := rfl

end Bind

/-- `INT_LEAST32_MAX` and `LONG_MAX`. -/
def intMax : Int := 2 ^ 31 - 1

/-- `INT_LEAST32_MIN` and `LONG_MIN`. -/
def intMin : Int := -2 ^ 31

/-! ### Characters -/

def asterisk : UInt8 := 42
def comma : UInt8 := 44
def fullStop : UInt8 := 46

/-- `isprint` in the C locale. -/
def isprint (c : UInt8) : Bool := 32 ≤ c && c ≤ 126

/-- `minmea_isfield`. -/
def minmeaIsfield (c : UInt8) : Bool := isprint c && c ≠ comma && c ≠ asterisk

/-- `hex2int`, with `none` for -1. -/
def hex2int (c : UInt8) : Option Nat := Hex.value c

/-- `*p`, where `p` is what is left of the buffer; behind its end nothing may be read. -/
def deref : List UInt8 → Scan UInt8
  | [] => .error .overread
  | c :: _ => .ok c

@[simp] theorem deref_cons (c : UInt8) (p : List UInt8) : deref (c :: p) = .ok c := rfl

/-- `while (more(*p)) p++`. -/
def skipWhile (more : UInt8 → Bool) : List UInt8 → Scan (List UInt8)
  | [] => .error .overread
  | c :: p => if more c then skipWhile more p else .ok (c :: p)

theorem skipWhile_append {more : UInt8 → Bool} {l : List UInt8} (all : ∀ c ∈ l, more c = true)
    {c : UInt8} (stop : more c = false) (p : List UInt8) :
    skipWhile more (l ++ c :: p) = .ok (c :: p) := by
  induction l with
  | nil => simp [skipWhile, stop]
  | cons a l ih =>
      rw [List.cons_append, skipWhile, if_pos (all a List.mem_cons_self),
        ih fun c mem => all c (List.mem_cons_of_mem a mem)]

/-! ### `minmea_check` -/

/-- The loop over the bytes between the `$` and the `*`. -/
def checksumLoop : UInt8 → List UInt8 → Scan (UInt8 × List UInt8)
  | _, [] => .error .overread
  | checksum, c :: p =>
      if c ≠ 0 ∧ c ≠ asterisk ∧ isprint c then checksumLoop (checksum ^^^ c) p
      else .ok (checksum, c :: p)

/-- Only a newline is allowed at the end. -/
def checkEnd (sentence : List UInt8) : Scan Bool := do
  let sentence ← skipWhile (fun c => c = 13 || c = 10) sentence
  return (← deref sentence) = 0

/-- From the end of the checksummed bytes on. -/
def checkTail (strict : Bool) (checksum : UInt8) (sentence : List UInt8) : Scan Bool := do
  if (← deref sentence) = asterisk then
    let sentence := sentence.drop 1
    match hex2int (← deref sentence) with
    | none => return false
    | some upper =>
        let sentence := sentence.drop 1
        match hex2int (← deref sentence) with
        | none => return false
        | some lower =>
            if checksum.toNat ≠ (upper <<< 4 ||| lower) then return false
            else checkEnd (sentence.drop 1)
  else if strict then return false
  else checkEnd sentence

/-- `minmea_check`. -/
def minmeaCheck (sentence : List UInt8) (strict : Bool) : Scan Bool := do
  if (← deref sentence) ≠ 36 then return false
  else
    let (checksum, sentence) ← checksumLoop 0 (sentence.drop 1)
    checkTail strict checksum sentence

/-! ### Values -/

/-- `struct minmea_float`. -/
structure MinmeaFloat where
  value : Int
  scale : Int
  deriving DecidableEq, Repr

/-- `struct minmea_date`. -/
structure MinmeaDate where
  day : Int
  month : Int
  year : Int
  deriving DecidableEq, Repr

/-- `struct minmea_time`. -/
structure MinmeaTime where
  hours : Int
  minutes : Int
  seconds : Int
  microseconds : Int
  deriving DecidableEq, Repr

/-- `union minmea_type`. -/
structure MinmeaType where
  talkerId : List UInt8
  sentenceId : List UInt8
  deriving DecidableEq, Repr

/-- The letters of a format. -/
inductive Directive where
  | c | d | f | i | s | t | D | T
  /-- `_` -/
  | ignored
  /-- `;` -/
  | optional
  deriving DecidableEq, Repr

/-- What the argument of a letter points to. -/
abbrev Directive.Value : Directive → Type
  | .c => UInt8
  | .d => Int
  | .f => MinmeaFloat
  | .i => Int
  | .s => List UInt8
  | .t => MinmeaType
  | .D => MinmeaDate
  | .T => MinmeaTime
  | .ignored => Unit
  | .optional => Unit

/-- What the arguments of a format point to. -/
abbrev Values : List Directive → Type
  | [] => Unit
  | letter :: format => letter.Value × Values format

/-! ### Conversions of single fields

A field is a pointer to its first byte, or NULL.
-/

/-- `'c'`. -/
def scanChar : Option (List UInt8) → Scan UInt8
  | none => return 0
  | some field => do
      let c ← deref field
      return if minmeaIsfield c then c else 0

/-- `'d'`. -/
def scanDirection : Option (List UInt8) → Scan Int
  | none => return 0
  | some field => do
      let c ← deref field
      if ¬ minmeaIsfield c then return 0
      else if c = 78 ∨ c = 69 then return 1
      else if c = 83 ∨ c = 87 then return -1
      else throw .parseError

/-- `sign`, `value` and `scale` of `'f'`. -/
structure FloatState where
  sign : Int := 0
  value : Int := -1
  scale : Int := 0
  deriving DecidableEq, Repr

/-- A digit; `none` where the loop is left. -/
def FloatState.digit (s : FloatState) (digit : Int) : Scan (Option FloatState) :=
  let value := if s.value = -1 then 0 else s.value
  if value > (intMax - digit) / 10 then
    if s.scale ≠ 0 then return none else throw .parseError
  else if 10 * s.scale > intMax then throw .overflow
  else return some { s with value := 10 * value + digit, scale := 10 * s.scale }

/-- One byte of a number; `none` where the loop is left. -/
def FloatState.step (s : FloatState) (c : UInt8) : Scan (Option FloatState) :=
  if c = 43 ∧ s.sign = 0 ∧ s.value = -1 then return some { s with sign := 1 }
  else if c = 45 ∧ s.sign = 0 ∧ s.value = -1 then return some { s with sign := -1 }
  else if isdigit c then s.digit (c.toNat - 48 : Nat)
  else if c = fullStop ∧ s.scale = 0 then return some { s with scale := 1 }
  else if c = 32 then
    if s.sign ≠ 0 ∨ s.value ≠ -1 ∨ s.scale ≠ 0 then throw .parseError else return some s
  else throw .parseError

/-- The loop of `'f'` over the bytes of the string. -/
def floatLoop : FloatState → List UInt8 → Scan FloatState
  | _, [] => .error .overread
  | s, c :: field =>
      if minmeaIsfield c then do
        match ← s.step c with
        | none => return s
        | some s => floatLoop s field
      else return s

/-- What `'f'` stores when its loop is left: without digits the value is 0 with scale 0, or
an error behind a sign. -/
def FloatState.result (s : FloatState) : Scan MinmeaFloat :=
  if (s.sign ≠ 0 ∨ s.scale ≠ 0) ∧ s.value = -1 then throw .parseError
  else
    let value := if s.value = -1 then 0 else s.value
    let scale := if s.value = -1 then 0 else if s.scale = 0 then 1 else s.scale
    return { value := if s.sign ≠ 0 then value * s.sign else value, scale }

/-- `'f'`. -/
def scanFloat : Option (List UInt8) → Scan MinmeaFloat
  | none => FloatState.result {}
  | some field => do (← floatLoop {} field).result

/-- The digits of `strtol`: what they spell, and the rest. -/
def digitLoop : Nat → List UInt8 → Scan (Nat × List UInt8)
  | _, [] => .error .overread
  | n, c :: p => if isdigit c then digitLoop (10 * n + (c.toNat - 48)) p else .ok (n, c :: p)

/-- `strtol(nptr, endptr, 10)`: the value, clamped to `long`, and `*endptr`. -/
def strtol (nptr : List UInt8) : Scan (Int × List UInt8) := do
  let p ← skipWhile isspace nptr
  let sign ← deref p
  let p := if sign = 43 ∨ sign = 45 then p.drop 1 else p
  if isdigit (← deref p) then
    let (n, endptr) ← digitLoop 0 p
    return (max intMin (min intMax (if sign = 45 then -n else n)), endptr)
  else return (0, nptr)

/-- `'i'`. -/
def scanInteger : Option (List UInt8) → Scan Int
  | none => return 0
  | some field => do
      let (value, endptr) ← strtol field
      if minmeaIsfield (← deref endptr) then throw .parseError else return value

/-- The loop of `'s'`. -/
def stringLoop : List UInt8 → Scan (List UInt8)
  | [] => .error .overread
  | c :: field => if minmeaIsfield c then return c :: (← stringLoop field) else return []

/-- `'s'`, without the NUL. -/
def scanString : Option (List UInt8) → Scan (List UInt8)
  | none => return []
  | some field => stringLoop field

/-- `count` bytes that all pass a test. -/
def scanExactly (test : UInt8 → Bool) : Nat → List UInt8 → Scan (List UInt8)
  | 0, _ => return []
  | count + 1, field => do
      let c ← deref field
      if test c then return c :: (← scanExactly test count (field.drop 1))
      else throw .parseError

/-- `'t'`. -/
def scanType : Option (List UInt8) → Scan MinmeaType
  | none => throw .parseError
  | some field => do
      if (← deref field) ≠ 36 then throw .parseError
      else
        let buf ← scanExactly minmeaIsfield 5 (field.drop 1)
        return { talkerId := buf.take 2, sentenceId := buf.drop 2 }

/-- `strtol` of the two digits from `at` on. -/
def twoDigits (digits : List UInt8) (i : Nat) : Int :=
  10 * ((digits.getD i 48).toNat - 48 : Nat) + ((digits.getD (i + 1) 48).toNat - 48 : Nat)

/-- `'D'`. -/
def scanDate : Option (List UInt8) → Scan MinmeaDate
  | none => return ⟨-1, -1, -1⟩
  | some field => do
      if minmeaIsfield (← deref field) then
        let digits ← scanExactly isdigit 6 field
        return ⟨twoDigits digits 0, twoDigits digits 2, twoDigits digits 4⟩
      else return ⟨-1, -1, -1⟩

/-- The fraction of a second: `value`, with `scale` as `10 ^ places`. -/
def fractionLoop : Nat → Nat → List UInt8 → Scan Nat
  | _, _, [] => .error .overread
  | value, places, c :: field =>
      if isdigit c then
        match places with
        | 0 => return value
        | places + 1 => fractionLoop (10 * value + (c.toNat - 48)) places field
      else return value * 10 ^ places

/-- `'T'`. -/
def scanTime : Option (List UInt8) → Scan MinmeaTime
  | none => return ⟨-1, -1, -1, -1⟩
  | some field => do
      if minmeaIsfield (← deref field) then
        let digits ← scanExactly isdigit 6 field
        let field := field.drop 6
        let microseconds ←
          if (← deref field) = fullStop then fractionLoop 0 6 (field.drop 1) else pure 0
        return ⟨twoDigits digits 0, twoDigits digits 2, twoDigits digits 4, microseconds⟩
      else return ⟨-1, -1, -1, -1⟩

/-- The `switch` over the letter. -/
def convert : (letter : Directive) → Option (List UInt8) → Scan letter.Value
  | .c, field => scanChar field
  | .d, field => scanDirection field
  | .f, field => scanFloat field
  | .i, field => scanInteger field
  | .s, field => scanString field
  | .t, field => scanType field
  | .D, field => scanDate field
  | .T, field => scanTime field
  | .ignored, _ => return ()
  | .optional, _ => return ()

/-! ### `minmea_scan` -/

/-- `next_field`: `sentence`, and `field`. -/
def nextField (sentence : List UInt8) : Scan (List UInt8 × Option (List UInt8)) := do
  let sentence ← skipWhile minmeaIsfield sentence
  if (← deref sentence) = comma then return (sentence.drop 1, some (sentence.drop 1))
  else return (sentence, none)

/-- The loop over the format. -/
def scanLoop : (format : List Directive) → (isOptional : Bool) → (sentence : List UInt8) →
    (field : Option (List UInt8)) → Scan (Values format)
  | [], _, _, _ => return ()
  | .optional :: format, _, sentence, field => do
      return ((), ← scanLoop format true sentence field)
  | letter :: format, isOptional, sentence, field => do
      if field.isNone ∧ isOptional = false then throw .parseError
      else
        let value ← convert letter field
        let (sentence, field) ← nextField sentence
        return (value, ← scanLoop format isOptional sentence field)

/-- `minmea_scan`. -/
def minmeaScan (sentence : List UInt8) (format : List Directive) : Scan (Values format) :=
  scanLoop format false sentence (some sentence)

end Ok3506.Gnss
