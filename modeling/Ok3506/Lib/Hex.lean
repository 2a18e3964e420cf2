import Mathlib.Tactic.Common
import Ok3506.Lib.CString

/-!
Hexadecimal texts of byte sequences.

`Hex.decode` reads pairs of digits of either case; `Hex.encode` writes capital
digits. Decoding inverts encoding, encoding a decoded text gives it in upper case,
and a text decodes exactly when it has an even number of characters that are all
digits.
-/

namespace Ok3506

open CString

namespace Hex

/-- The character of a 4-bit value. -/
def digit (n : Nat) : UInt8 := (ascii "0123456789ABCDEF").getD n 0

/-- The 4-bit value of a character. -/
def value (c : UInt8) : Option Nat :=
  if 48 ≤ c ∧ c ≤ 57 then some (c.toNat - 48)
  else if 65 ≤ c ∧ c ≤ 70 then some (c.toNat - 65 + 10)
  else if 97 ≤ c ∧ c ≤ 102 then some (c.toNat - 97 + 10)
  else none

/-- The bytes of a text. -/
def decode : List UInt8 → Option (List UInt8)
  | [] => some []
  | [_] => none
  | hi :: lo :: rest =>
      (value hi).bind fun h => (value lo).bind fun l =>
        (decode rest).map (UInt8.ofNat (16 * h + l) :: ·)

/-- The text of a byte sequence. -/
def encode : List UInt8 → List UInt8
  | [] => []
  | b :: rest => digit (b.toNat / 16) :: digit (b.toNat % 16) :: encode rest

/-- The text stands for some bytes. -/
def isText (l : List UInt8) : Bool := l.length % 2 == 0 && l.all fun c => (value c).isSome

theorem value_digit {n : Nat} (h : n < 16) : value (digit n) = some n := by
  have all : ∀ n : Fin 16, value (digit n) = some n.val := by decide
  exact all ⟨n, h⟩

theorem value_lt {c : UInt8} {v : Nat} (h : value c = some v) : v < 16 := by
  unfold value at h
  simp only [UInt8.le_iff_toNat_le, UInt8.reduceToNat] at h
  split_ifs at h <;> simp only [Option.some.injEq] at h <;> omega

theorem decode_encode (l : List UInt8) : decode (encode l) = some l := by
  induction l with
  | nil => rfl
  | cons b rest ih =>
      have small : b.toNat < 256 := b.toNat_lt
      have whole : 16 * (b.toNat / 16) + b.toNat % 16 = b.toNat := Nat.div_add_mod ..
      simp only [encode, decode, value_digit (show b.toNat / 16 < 16 by omega),
        value_digit (Nat.mod_lt b.toNat (by decide : 16 > 0)), Option.bind_some, ih,
        Option.map_some, whole, UInt8.ofNat_toNat]

theorem length_encode (l : List UInt8) : (encode l).length = 2 * l.length := by
  induction l with
  | nil => rfl
  | cons b rest ih =>
      simp only [encode, List.length_cons, ih]
      omega

theorem isSome_decode (l : List UInt8) : (decode l).isSome = isText l := by
  induction l using decode.induct with
  | case1 => rfl
  | case2 c => rfl
  | case3 hi lo rest ih =>
      have parity : (rest.length + 1 + 1) % 2 = rest.length % 2 := Nat.add_mod_right _ 2
      cases h : value hi with
      | none => simp [decode, isText, h]
      | some v =>
          cases h' : value lo with
          | none => simp [decode, isText, h']
          | some w => simpa [decode, isText, h, h', parity] using ih

theorem length_of_decode {l bytes : List UInt8} (h : decode l = some bytes) :
    bytes.length = l.length / 2 := by
  induction l using decode.induct generalizing bytes with
  | case1 =>
      cases h
      rfl
  | case2 c => cases h
  | case3 hi lo rest ih =>
      simp only [decode, Option.bind_eq_some_iff, Option.map_eq_some_iff] at h
      obtain ⟨v, -, w, -, tail, decoded, rfl⟩ := h
      simp only [List.length_cons, ih decoded]
      omega

theorem encode_append (l l' : List UInt8) : encode (l ++ l') = encode l ++ encode l' := by
  induction l with
  | nil => rfl
  | cons b l ih => simp [encode, ih]

/-- The capital digit of a character's value is the character in upper case. -/
theorem digit_of_value {c : UInt8} {v : Nat} (h : value c = some v) :
    digit v = toupper c := by
  have all : ∀ n < 256, ∀ v < 16, value (UInt8.ofNat n) = some v →
      digit v = toupper (UInt8.ofNat n) := by decide +kernel
  have back : UInt8.ofNat c.toNat = c := UInt8.ofNat_toNat
  have this := all c.toNat c.toNat_lt v (value_lt h)
  rw [back] at this
  exact this h

/-- Decoding and encoding a text gives it back in upper case. -/
theorem encode_of_decode {s bytes : List UInt8} (h : decode s = some bytes) :
    encode bytes = s.map toupper := by
  induction s using decode.induct generalizing bytes with
  | case1 =>
      cases h
      rfl
  | case2 c => cases h
  | case3 hi lo rest ih =>
      simp only [decode, Option.bind_eq_some_iff, Option.map_eq_some_iff] at h
      obtain ⟨v, hv, w, hw, tail, decoded, rfl⟩ := h
      have v16 := value_lt hv
      have w16 := value_lt hw
      have byte : (UInt8.ofNat (16 * v + w)).toNat = 16 * v + w := by
        rw [UInt8.toNat_ofNat']
        omega
      have high : (16 * v + w) / 16 = v := by omega
      have low : (16 * v + w) % 16 = w := by omega
      rw [encode, byte, high, low, digit_of_value hv, digit_of_value hw, ih decoded]
      rfl

/-- An encoder's output is text. -/
theorem value_of_mem_encode {c : UInt8} {l : List UInt8} (mem : c ∈ encode l) :
    ∃ v, value c = some v := by
  have text : isText (encode l) = true := by
    rw [← isSome_decode, decode_encode]
    rfl
  rw [isText, Bool.and_eq_true] at text
  exact Option.isSome_iff_exists.mp (List.all_eq_true.mp text.2 c mem)

end Hex

end Ok3506
