import Mathlib.Algebra.Order.Ring.Nat
import Mathlib.Tactic.Common

/-!
Readers of byte sequences, and what they read back.

A reader takes its value from the front of a sequence and leaves the rest, or
fails. `Reads r l a` says that `r` takes exactly `l`, whatever stands behind it, so
the bytes of consecutive fields are appended. The fields here are big-endian words,
strings behind their length, little-endian numbers of a fixed size, and numbers in base
128 with the lowest digit first, each byte but the last one marked.
-/

namespace Ok3506

/-- The value at the front of a byte sequence, and the bytes behind it. -/
abbrev Reader (α : Type) := StateT (List UInt8) Option α

namespace Reader

variable {α β : Type}

def byte : Reader UInt8
  | [] => none
  | b :: l => some (b, l)

/-- The next `n` bytes. -/
def block (n : Nat) : Reader (List UInt8) := fun l =>
  if n ≤ l.length then some (l.take n, l.drop n) else none

/-- All bytes that are left. -/
def rest : Reader (List UInt8) := fun l => some (l, [])

def check (c : Prop) [Decidable c] : Reader Unit := if c then pure () else failure

/-- A reader that has to use up its input. -/
def whole (r : Reader α) (l : List UInt8) : Option α :=
  match r l with
  | some (a, []) => some a
  | _ => none

/-- A block of `n` bytes, all of which `r` reads. -/
def within (n : Nat) (r : Reader α) : Reader α := do
  let l ← block n
  match whole r l with
  | some a => return a
  | none => failure

/-- A 16-bit word, high byte first. -/
def word : Reader Nat := do
  let high ← byte
  let low ← byte
  return 256 * high.toNat + low.toNat

/-- A string behind its length. -/
def string : Reader (List UInt8) := do
  let n ← word
  block n

/-- A number of `n` bytes, low byte first. -/
def littleEndian : Nat → Reader Nat
  | 0 => pure 0
  | n + 1 => do
      let low ← byte
      let high ← littleEndian n
      return low.toNat + 256 * high

/-- A number of at most `room` digits in base 128. -/
def varint : Nat → Reader Nat
  | 0 => failure
  | room + 1 => do
      let b ← byte
      if b.toNat < 128 then return b.toNat
      else
        let high ← varint room
        return b.toNat - 128 + 128 * high

/-! ### The bytes of a field -/

def wordBytes (n : Nat) : List UInt8 := [UInt8.ofNat (n / 256), UInt8.ofNat n]

def stringBytes (s : List UInt8) : List UInt8 := wordBytes s.length ++ s

/-- The lowest `n` bytes. -/
def littleEndianBytes : Nat → Nat → List UInt8
  | 0, _ => []
  | n + 1, v => UInt8.ofNat v :: littleEndianBytes n (v / 256)

/-- The lowest `room` digits at most. -/
def varintBytes : Nat → Nat → List UInt8
  | 0, _ => []
  | room + 1, n =>
      if n < 128 then [UInt8.ofNat n]
      else UInt8.ofNat (n % 128 + 128) :: varintBytes room (n / 128)

/-! ### What is read back -/

/-- The reader takes the bytes `l` and returns `a`. -/
def Reads (r : Reader α) (l : List UInt8) (a : α) : Prop :=
  ∀ more, r (l ++ more) = some (a, more)

variable {r : Reader α} {f : α → Reader β} {l l' : List UInt8} {a : α} {b : β}

theorem map_apply (g : α → β) (h : r l = some (a, l')) : (g <$> r) l = some (g a, l') := by
  change (r l).bind (fun p => some (g p.1, p.2)) = some (g a, l')
  rw [h]
  rfl

/-- What is left to the rest of a reader. -/
theorem Reads.bind_apply (h : Reads r l a) (more : List UInt8) :
    (r >>= f) (l ++ more) = f a more := by
  change (r (l ++ more)).bind (fun p => f p.1 p.2) = f a more
  rw [h more]
  rfl

theorem Reads.bind (h : Reads r l a) (next : Reads (f a) l' b) :
    Reads (r >>= f) (l ++ l') b := by
  intro more
  rw [List.append_assoc, h.bind_apply, next more]

theorem reads_pure (a : α) : Reads (pure a) [] a := fun _ => rfl

theorem reads_check {c : Prop} [Decidable c] (h : c) : Reads (check c) [] () := by
  intro more
  rw [check, if_pos h]
  rfl

theorem reads_byte (b : UInt8) : Reads byte [b] b := fun _ => rfl

theorem reads_block (l : List UInt8) : Reads (block l.length) l l := by
  intro more
  rw [block, if_pos (by rw [List.length_append]; omega), List.take_left, List.drop_left]

theorem reads_within (h : r l = some (a, [])) : Reads (within l.length r) l a := by
  intro more
  have whole : whole r l = some a := by rw [Reader.whole, h]
  rw [within, (reads_block l).bind_apply, whole]
  rfl

theorem reads_word (n : Nat) : Reads word (wordBytes n) (n % 65536) := by
  have value : 256 * (UInt8.ofNat (n / 256)).toNat + (UInt8.ofNat n).toNat = n % 65536 := by
    rw [UInt8.toNat_ofNat', UInt8.toNat_ofNat']
    omega
  rw [← value]
  exact (reads_byte _).bind ((reads_byte _).bind (reads_pure _))

theorem reads_string {s : List UInt8} (short : s.length < 65536) :
    Reads string (stringBytes s) s := by
  have length := reads_word s.length
  rw [Nat.mod_eq_of_lt short] at length
  exact length.bind (reads_block s)

@[simp] theorem length_littleEndianBytes (n v : Nat) : (littleEndianBytes n v).length = n := by
  induction n generalizing v with
  | zero => rfl
  | succ n ih => rw [littleEndianBytes, List.length_cons, ih]

theorem reads_littleEndian {n v : Nat} (small : v < 256 ^ n) :
    Reads (littleEndian n) (littleEndianBytes n v) v := by
  induction n generalizing v with
  | zero =>
      rw [Nat.pow_zero, Nat.lt_one_iff] at small
      rw [small]
      exact reads_pure 0
  | succ n ih =>
      have high : v / 256 < 256 ^ n := by
        rw [Nat.div_lt_iff_lt_mul (by decide), ← Nat.pow_succ]
        exact small
      have value : (UInt8.ofNat v).toNat + 256 * (v / 256) = v := by
        rw [UInt8.toNat_ofNat']
        omega
      rw [littleEndianBytes, ← List.append_nil (littleEndianBytes n (v / 256))]
      refine (reads_byte _).bind ((ih high).bind ?_)
      rw [value]
      exact reads_pure v

theorem varint_apply (room : Nat) (b : UInt8) (l : List UInt8) :
    varint (room + 1) (b :: l) =
      if b.toNat < 128 then some (b.toNat, l)
      else (varint room l).map fun p => (b.toNat - 128 + 128 * p.1, p.2) := by
  change (if b.toNat < 128 then (pure b.toNat : Reader Nat) else do
    let high ← varint room
    return b.toNat - 128 + 128 * high) l = _
  split
  case isTrue => rfl
  case isFalse =>
    change (varint room l).bind (fun p => some (b.toNat - 128 + 128 * p.1, p.2)) = _
    cases varint room l <;> rfl

theorem varint_nil (room : Nat) : varint room [] = none := by
  cases room <;> rfl

/-- The last digit. -/
theorem varint_last {d : Nat} (digit : d < 128) (room : Nat) (l : List UInt8) :
    varint (room + 1) (UInt8.ofNat d :: l) = some (d, l) := by
  have value : (UInt8.ofNat d).toNat = d := by
    rw [UInt8.toNat_ofNat']
    omega
  rw [varint_apply, value, if_pos digit]

/-- A marked digit. -/
theorem varint_marked {d : Nat} (digit : d < 128) (room : Nat) (l : List UInt8) :
    varint (room + 1) (UInt8.ofNat (d + 128) :: l) =
      (varint room l).map fun p => (d + 128 * p.1, p.2) := by
  have value : (UInt8.ofNat (d + 128)).toNat = d + 128 := by
    rw [UInt8.toNat_ofNat']
    omega
  rw [varint_apply, value, if_neg (Nat.not_lt.mpr (Nat.le_add_left 128 d)),
    Nat.add_sub_cancel]

/-- One digit less for the higher part. -/
theorem div_lt_pow {k n : Nat} (small : n < 128 ^ (k + 2)) : n / 128 < 128 ^ (k + 1) := by
  rw [Nat.div_lt_iff_lt_mul (by decide), ← Nat.pow_succ]
  exact small

/-- A number with few enough digits is read back. -/
theorem reads_varint {room n : Nat} (small : n < 128 ^ (room + 1)) :
    Reads (varint (room + 1)) (varintBytes (room + 1) n) n := by
  induction room generalizing n with
  | zero =>
      have digit : n < 128 := by simpa using small
      intro more
      rw [varintBytes, if_pos digit]
      exact varint_last digit 0 more
  | succ room ih =>
      intro more
      rw [varintBytes]
      split
      case isTrue digit => exact varint_last digit _ more
      case isFalse =>
        have low : n % 128 < 128 := Nat.mod_lt _ (by decide)
        rw [List.cons_append, varint_marked low, ih (div_lt_pow small) more, Option.map_some,
          Nat.mod_add_div]

example : varintBytes 4 321 = [0xC1, 0x02] := by decide

/-- Any other bytes that are read as the same number are more. -/
theorem varintBytes_shortest {room n : Nat} {l : List UInt8}
    (read : varint room l = some (n, [])) :
    l = varintBytes room n ∨ (varintBytes room n).length < l.length := by
  induction room generalizing n l with
  | zero => cases read
  | succ room ih =>
      cases l with
      | nil => cases read
      | cons b l =>
          have byte : b.toNat < 256 := b.toNat_lt
          rw [varint_apply] at read
          split at read
          case isTrue last =>
            cases read
            rw [varintBytes, if_pos last, UInt8.ofNat_toNat]
            exact Or.inl rfl
          case isFalse marked =>
            obtain ⟨⟨high, more⟩, tail, eq⟩ := Option.map_eq_some_iff.mp read
            cases eq
            have nonempty : 0 < l.length := by
              apply List.length_pos_iff.mpr
              rintro rfl
              rw [varint_nil] at tail
              cases tail
            rw [varintBytes]
            split
            case isTrue => exact Or.inr (Nat.succ_lt_succ nonempty)
            case isFalse =>
              have digits : (b.toNat - 128 + 128 * high) / 128 = high ∧
                  (b.toNat - 128 + 128 * high) % 128 + 128 = b.toNat := by omega
              rw [digits.1, digits.2, UInt8.ofNat_toNat]
              rcases ih tail with same | longer
              · exact Or.inl (congrArg _ same)
              · exact Or.inr (Nat.succ_lt_succ longer)

/-- As few bytes as digits. -/
theorem length_varintBytes_le {room k n : Nat} (small : n < 128 ^ (k + 1)) :
    (varintBytes room n).length ≤ k + 1 := by
  induction room generalizing k n with
  | zero => exact Nat.zero_le _
  | succ room ih =>
      rw [varintBytes]
      split
      case isTrue => exact Nat.le_add_left 1 k
      case isFalse more_digits =>
        cases k with
        | zero => exact absurd (by simpa using small) more_digits
        | succ k => exact Nat.succ_le_succ (ih (div_lt_pow small))

/-! ### Reading a stream -/

/-- What is read does not depend on what stands behind it. -/
def Stable (r : Reader α) : Prop :=
  ∀ l a l', r l = some (a, l') → ∀ more, r (l ++ more) = some (a, l' ++ more)

/-- Reads as long as it can, at most `n` times. -/
def readMany (r : Reader α) : Nat → List UInt8 → List α × List UInt8
  | 0, l => ([], l)
  | n + 1, l =>
      match r l with
      | none => ([], l)
      | some (a, l') => (a :: (readMany r n l').1, (readMany r n l').2)

theorem stable_pure (a : α) : Stable (pure a) := by
  intro l b l' h more
  cases h
  rfl

theorem stable_failure : Stable (failure : Reader α) := nofun

theorem Stable.bind (h : Stable r) (next : ∀ a, Stable (f a)) : Stable (r >>= f) := by
  intro l b l' read more
  obtain ⟨⟨a, rest⟩, first, second⟩ := Option.bind_eq_some_iff.mp read
  change (r (l ++ more)).bind (fun p => f p.1 p.2) = _
  rw [h l a rest first more]
  exact next a rest b l' second more

theorem stable_byte : Stable byte := by
  intro l b l' h more
  cases l with
  | nil => cases h
  | cons c l =>
      cases h
      rfl

theorem stable_block (n : Nat) : Stable (block n) := by
  intro l b l' h more
  rw [block] at h
  split at h
  case isFalse => cases h
  case isTrue enough =>
    cases h
    rw [block, if_pos (by rw [List.length_append]; omega), List.take_append_of_le_length enough,
      List.drop_append_of_le_length enough]

theorem stable_within (n : Nat) (r : Reader α) : Stable (within n r) := by
  refine (stable_block n).bind fun l => ?_
  cases whole r l with
  | some a => exact stable_pure a
  | none => exact stable_failure

theorem stable_varint (room : Nat) : Stable (varint room) := by
  induction room with
  | zero => exact stable_failure
  | succ room ih =>
      refine stable_byte.bind fun b => ?_
      split
      · exact stable_pure _
      · exact ih.bind fun high => stable_pure _

/-- Out of the front of a sequence of items only items of the sequence are read, in order. -/
theorem readMany_front (stable : Stable r) (nothing : r [] = none)
    {items : List (List UInt8 × α)} (reads : ∀ x ∈ items, Reads r x.1 x.2) {l : List UInt8}
    (front : l <+: items.flatMap Prod.fst) (n : Nat) :
    (readMany r n l).1 <+: items.map Prod.snd := by
  induction n generalizing items l with
  | zero => exact List.nil_prefix
  | succ n ih =>
      rw [readMany]
      cases read : r l with
      | none => exact List.nil_prefix
      | some taken =>
          obtain ⟨a, left⟩ := taken
          cases items with
          | nil =>
              rw [List.prefix_nil.mp front, nothing] at read
              cases read
          | cons x items =>
              have first := reads x List.mem_cons_self
              have whole : x.1 <+: l := by
                refine (List.prefix_or_prefix_of_prefix (List.prefix_append _ _) front).elim id ?_
                rintro ⟨more, code⟩
                have again := first []
                rw [List.append_nil, ← code, stable l a left read more] at again
                have last : left ++ more = [] := (Prod.mk.inj (Option.some.inj again)).2
                have same : x.1 = l := by
                  rw [← code, (List.append_eq_nil_iff.mp last).2, List.append_nil]
                exact same ▸ List.prefix_rfl
              obtain ⟨rest, rfl⟩ := whole
              rw [first rest] at read
              cases read
              have behind : left <+: items.flatMap Prod.fst :=
                (List.prefix_append_right_inj x.1).mp front
              exact List.cons_prefix_cons.mpr
                ⟨rfl, ih (fun y mem => reads y (List.mem_cons_of_mem x mem)) behind⟩

/-- All of a sequence of items is read. -/
theorem readMany_whole {items : List (List UInt8 × α)} (reads : ∀ x ∈ items, Reads r x.1 x.2)
    (nothing : r [] = none) {n : Nat} (enough : items.length ≤ n) :
    readMany r n (items.flatMap Prod.fst) = (items.map Prod.snd, []) := by
  induction items generalizing n with
  | nil => cases n <;> simp [readMany, nothing]
  | cons x items ih =>
      obtain ⟨n, rfl⟩ : ∃ k, n = k + 1 := ⟨n - 1, by rw [List.length_cons] at enough; omega⟩
      have rest := ih (fun y mem => reads y (List.mem_cons_of_mem x mem))
        (Nat.le_of_succ_le_succ enough)
      rw [List.flatMap_cons, readMany, reads x List.mem_cons_self]
      simp only [rest, List.map_cons]

end Reader

end Ok3506
