import Mathlib.Tactic.Common
import Ok3506.Lib.CString

/-!
Base64 texts of byte sequences.

`Base64.decode` reads quanta of four characters up to the first padded one, and
`Base64.front` is what a decoder that stores each quantum as it reads it has
stored when it stops. Decoding inverts encoding. Whether a text decodes, and to
how many bytes, can be read off its characters: `isText` and `count`.
-/

namespace Ok3506

open CString

namespace Base64

/-- The character that pads the last quantum. -/
def pad : UInt8 := 61

/-- The character of a 6-bit value. -/
def digit (n : Nat) : UInt8 :=
  (ascii "ABCDEFGHIJKLMNOPQRSTUVWXYZabcdefghijklmnopqrstuvwxyz0123456789+/").getD n 0

/-- The 6-bit value of a character. -/
def value (c : UInt8) : Option Nat :=
  if 65 ≤ c ∧ c ≤ 90 then some (c.toNat - 65)
  else if 97 ≤ c ∧ c ≤ 122 then some (c.toNat - 97 + 26)
  else if 48 ≤ c ∧ c ≤ 57 then some (c.toNat - 48 + 52)
  else if c = 43 then some 62
  else if c = 47 then some 63
  else none

/-- The value of a character that may be the padding. -/
def sextet (c : UInt8) : Option Nat := if c = pad then some 0 else value c

/-- The number of padding characters of a quantum. -/
def pads (a b c d : UInt8) : Nat := [a, b, c, d].count pad

/-- The bytes of a 24-bit value; padding drops the last ones, but never the first. -/
def octets (triple pads : Nat) : List UInt8 :=
  [UInt8.ofNat (triple / 65536), UInt8.ofNat (triple / 256), UInt8.ofNat triple].take
    (max 1 (3 - pads))

/-- The bytes of a quantum. -/
def quantum (a b c d : UInt8) : Option (List UInt8) :=
  match sextet a, sextet b, sextet c, sextet d with
  | some w, some x, some y, some z =>
      some (octets (262144 * w + 4096 * x + 64 * y + z) (pads a b c d))
  | _, _, _, _ => none

/-- The bytes of a text. -/
def decode : List UInt8 → Option (List UInt8)
  | [] => some []
  | a :: b :: c :: d :: rest =>
      (quantum a b c d).bind fun bytes =>
        if pads a b c d = 0 then (decode rest).map (bytes ++ ·) else some bytes
  | _ => none

/-- The bytes of the leading quanta, up to the first that is padded or wrong. -/
def front : List UInt8 → List UInt8
  | a :: b :: c :: d :: rest =>
      match quantum a b c d with
      | some bytes => if pads a b c d = 0 then bytes ++ front rest else bytes
      | none => []
  | _ => []

/-- The text stands for some bytes. -/
def isText : List UInt8 → Bool
  | [] => true
  | a :: b :: c :: d :: rest =>
      ([a, b, c, d].all fun x => (sextet x).isSome) && (pads a b c d != 0 || isText rest)
  | _ => false

/-- The number of bytes that a text stands for. -/
def count : List UInt8 → Nat
  | a :: b :: c :: d :: rest =>
      if pads a b c d = 0 then 3 + count rest else max 1 (3 - pads a b c d)
  | _ => 0

/-- The four characters of a 24-bit value. -/
def quantumText (triple : Nat) : List UInt8 :=
  [digit (triple / 262144 % 64), digit (triple / 4096 % 64), digit (triple / 64 % 64),
    digit (triple % 64)]

/-- The text of a byte sequence. -/
def encode : List UInt8 → List UInt8
  | [] => []
  | [a] => (quantumText (65536 * a.toNat)).take 2 ++ [pad, pad]
  | [a, b] => (quantumText (65536 * a.toNat + 256 * b.toNat)).take 3 ++ [pad]
  | a :: b :: c :: rest =>
      quantumText (65536 * a.toNat + 256 * b.toNat + c.toNat) ++ encode rest

/-! ### Decoding -/

theorem length_octets (triple p : Nat) : (octets triple p).length = max 1 (3 - p) := by
  simp only [octets, List.length_take, List.length_cons, List.length_nil]
  omega

theorem isSome_quantum (a b c d : UInt8) :
    (quantum a b c d).isSome = [a, b, c, d].all fun x => (sextet x).isSome := by
  unfold quantum
  cases ha : sextet a <;> cases hb : sextet b <;> cases hc : sextet c <;>
    cases hd : sextet d <;> simp [ha, hb, hc, hd]

theorem length_of_quantum {a b c d : UInt8} {bytes : List UInt8}
    (h : quantum a b c d = some bytes) : bytes.length = max 1 (3 - pads a b c d) := by
  unfold quantum at h
  split at h
  · cases h
    exact length_octets ..
  · cases h

theorem isSome_decode (l : List UInt8) : (decode l).isSome = isText l := by
  induction l using decode.induct with
  | case1 => rfl
  | case2 a b c d rest ih =>
      rw [decode, isText, ← isSome_quantum]
      cases quantum a b c d with
      | none => rfl
      | some bytes =>
          by_cases h : pads a b c d = 0
          · simp [h, ih]
          · simp [h]
  | case3 l no_text no_quantum =>
      rw [decode, isText]
      · rfl
      · exact no_text
      · exact no_quantum
      · exact no_text
      · exact no_quantum

/-- A decoded text has stored all of its bytes, and `count` of them. -/
theorem front_of_decode {l bytes : List UInt8} (h : decode l = some bytes) :
    front l = bytes ∧ bytes.length = count l := by
  induction l using decode.induct generalizing bytes with
  | case1 =>
      cases h
      exact ⟨rfl, rfl⟩
  | case2 a b c d rest ih =>
      rw [decode, Option.bind_eq_some_iff] at h
      obtain ⟨head, read, h⟩ := h
      have size := length_of_quantum read
      rw [front, count, read]
      by_cases padded : pads a b c d = 0
      · rw [if_pos padded, Option.map_eq_some_iff] at h
        obtain ⟨tail, decoded, rfl⟩ := h
        obtain ⟨stored, long⟩ := ih decoded
        simp only [padded, if_true, stored, List.length_append, size, long]
        exact ⟨trivial, rfl⟩
      · rw [if_neg padded, Option.some.injEq] at h
        subst h
        simp only [padded, if_false, size]
        exact ⟨trivial, trivial⟩
  | case3 l no_text no_quantum =>
      rw [decode] at h
      · cases h
      · exact no_text
      · exact no_quantum

theorem length_front_le (l : List UInt8) : (front l).length ≤ l.length := by
  induction l using decode.induct with
  | case1 => exact le_refl _
  | case2 a b c d rest ih =>
      rw [front]
      cases read : quantum a b c d with
      | none => exact Nat.zero_le _
      | some bytes =>
          have size := length_of_quantum read
          by_cases padded : pads a b c d = 0
          · simp only [padded, if_true, List.length_append, List.length_cons]
            omega
          · simp only [padded, if_false, List.length_cons]
            omega
  | case3 l no_text no_quantum =>
      rw [front]
      · exact Nat.zero_le _
      · exact no_quantum

/-- A wrong character in the first quantum spoils the text before anything is stored. -/
theorem wrong_quantum {l : List UInt8} (wrong : ¬ ∀ c ∈ l.take 4, (sextet c).isSome = true) :
    isText l = false ∧ front l = [] := by
  match l with
  | [] => simp at wrong
  | [_] | [_, _] | [_, _, _] => exact ⟨rfl, rfl⟩
  | a :: b :: c :: d :: rest =>
      have spoiled : ([a, b, c, d].all fun x => (sextet x).isSome) = false := by
        rw [← Bool.not_eq_true, List.all_eq_true]
        exact wrong
      have no_quantum : quantum a b c d = none := by
        rw [← isSome_quantum] at spoiled
        exact Option.isSome_eq_false_iff.mp spoiled |> Option.isNone_iff_eq_none.mp
      rw [isText, front, spoiled, no_quantum]
      exact ⟨rfl, rfl⟩

/-! ### Encoding -/

theorem sextet_digit {n : Nat} (h : n < 64) : sextet (digit n) = some n ∧ digit n ≠ pad := by
  have all : ∀ n : Fin 64, sextet (digit n) = some n.val ∧ digit n ≠ pad := by decide +kernel
  exact all ⟨n, h⟩

theorem sextet_lt {c : UInt8} {v : Nat} (h : sextet c = some v) : v < 64 := by
  unfold sextet value at h
  simp only [UInt8.le_iff_toNat_le, UInt8.reduceToNat] at h
  split_ifs at h <;> simp only [Option.some.injEq] at h <;> omega

theorem sextet_pad : sextet pad = some 0 := rfl

/-- The digits of a 24-bit value add up to it. -/
theorem digits_sum {t : Nat} (h : t < 16777216) :
    262144 * (t / 262144 % 64) + 4096 * (t / 4096 % 64) + 64 * (t / 64 % 64) + t % 64 = t := by
  omega

theorem sextet_digit_mod (n : Nat) :
    sextet (digit (n % 64)) = some (n % 64) ∧ digit (n % 64) ≠ pad :=
  sextet_digit (Nat.mod_lt n (by decide))

theorem quantum_of_sextets {a b c d : UInt8} {w x y z t p : Nat} (hw : sextet a = some w)
    (hx : sextet b = some x) (hy : sextet c = some y) (hz : sextet d = some z)
    (sum : 262144 * w + 4096 * x + 64 * y + z = t) (padding : pads a b c d = p) :
    quantum a b c d = some (octets t p) := by
  rw [quantum, hw, hx, hy, hz, ← sum, padding]

theorem quantum_full (t : Nat) (h : t < 16777216) :
    quantum (digit (t / 262144 % 64)) (digit (t / 4096 % 64)) (digit (t / 64 % 64))
        (digit (t % 64)) = some (octets t 0) ∧
      pads (digit (t / 262144 % 64)) (digit (t / 4096 % 64)) (digit (t / 64 % 64))
        (digit (t % 64)) = 0 := by
  have valid (n : Nat) := (sextet_digit_mod n).1
  have padding : pads (digit (t / 262144 % 64)) (digit (t / 4096 % 64)) (digit (t / 64 % 64))
      (digit (t % 64)) = 0 := by
    simp [pads, (sextet_digit_mod _).2]
  exact ⟨quantum_of_sextets (valid _) (valid _) (valid _) (valid _) (digits_sum h) padding,
    padding⟩

theorem quantum_two (t : Nat) (h : t < 16777216) (low : t % 64 = 0) :
    quantum (digit (t / 262144 % 64)) (digit (t / 4096 % 64)) (digit (t / 64 % 64)) pad =
        some (octets t 1) ∧
      pads (digit (t / 262144 % 64)) (digit (t / 4096 % 64)) (digit (t / 64 % 64)) pad = 1 := by
  have valid (n : Nat) := (sextet_digit_mod n).1
  have padding : pads (digit (t / 262144 % 64)) (digit (t / 4096 % 64)) (digit (t / 64 % 64))
      pad = 1 := by
    simp [pads, (sextet_digit_mod _).2]
  have sum := digits_sum h
  rw [low] at sum
  exact ⟨quantum_of_sextets (valid _) (valid _) (valid _) sextet_pad sum padding, padding⟩

theorem quantum_one (t : Nat) (h : t < 16777216) (low : t % 4096 = 0) :
    quantum (digit (t / 262144 % 64)) (digit (t / 4096 % 64)) pad pad = some (octets t 2) ∧
      pads (digit (t / 262144 % 64)) (digit (t / 4096 % 64)) pad pad = 2 := by
  have valid (n : Nat) := (sextet_digit_mod n).1
  have padding : pads (digit (t / 262144 % 64)) (digit (t / 4096 % 64)) pad pad = 2 := by
    simp [pads, (sextet_digit_mod _).2]
  have third : t / 64 % 64 = 0 := by omega
  have fourth : t % 64 = 0 := by omega
  have sum := digits_sum h
  rw [third, fourth] at sum
  exact ⟨quantum_of_sextets (valid _) (valid _) sextet_pad sextet_pad sum padding, padding⟩

/-- The octets of three bytes are these bytes. -/
theorem octets_bytes (a b c : UInt8) (p : Nat) :
    octets (65536 * a.toNat + 256 * b.toNat + c.toNat) p = [a, b, c].take (max 1 (3 - p)) := by
  have ha := a.toNat_lt
  have hb := b.toNat_lt
  have hc := c.toNat_lt
  have first : (65536 * a.toNat + 256 * b.toNat + c.toNat) / 65536 = a.toNat := by omega
  have second : UInt8.ofNat ((65536 * a.toNat + 256 * b.toNat + c.toNat) / 256) = b := by
    apply UInt8.toNat_inj.mp
    rw [UInt8.toNat_ofNat']
    omega
  have third : UInt8.ofNat (65536 * a.toNat + 256 * b.toNat + c.toNat) = c := by
    apply UInt8.toNat_inj.mp
    rw [UInt8.toNat_ofNat']
    omega
  rw [octets, first, second, third, UInt8.ofNat_toNat]

/-- **Round trip.** Decoding gives back the encoded bytes. -/
theorem decode_encode (l : List UInt8) : decode (encode l) = some l := by
  induction l using encode.induct with
  | case1 => rfl
  | case2 a =>
      have ha := a.toNat_lt
      obtain ⟨read, padded⟩ := quantum_one (65536 * a.toNat) (by omega) (by omega)
      have bytes := octets_bytes a 0 0 2
      simp only [UInt8.toNat_zero, Nat.mul_zero, Nat.add_zero] at bytes
      simp [encode, quantumText, decode, read, padded, bytes]
  | case3 a b =>
      have ha := a.toNat_lt
      have hb := b.toNat_lt
      obtain ⟨read, padded⟩ :=
        quantum_two (65536 * a.toNat + 256 * b.toNat) (by omega) (by omega)
      have bytes := octets_bytes a b 0 1
      simp only [UInt8.toNat_zero, Nat.add_zero] at bytes
      simp [encode, quantumText, decode, read, padded, bytes]
  | case4 a b c rest ih =>
      have ha := a.toNat_lt
      have hb := b.toNat_lt
      have hc := c.toNat_lt
      obtain ⟨read, padded⟩ :=
        quantum_full (65536 * a.toNat + 256 * b.toNat + c.toNat) (by omega)
      simp [encode, quantumText, decode, read, padded, octets_bytes, ih]

theorem mem_quantumText {t : Nat} {c : UInt8} (h : c ∈ quantumText t) :
    ∃ n < 64, c = digit n := by
  have some_digit (n : Nat) : ∃ m < 64, digit (n % 64) = digit m :=
    ⟨n % 64, Nat.mod_lt n (by decide), rfl⟩
  simp only [quantumText, List.mem_cons, List.not_mem_nil, or_false] at h
  rcases h with rfl | rfl | rfl | rfl
  · exact some_digit _
  · exact some_digit _
  · exact some_digit _
  · exact some_digit _

/-- What `encode` writes: digits and padding. -/
theorem mem_encode {l : List UInt8} {c : UInt8} (h : c ∈ encode l) :
    c = pad ∨ ∃ n < 64, c = digit n := by
  induction l using encode.induct with
  | case1 => cases h
  | case2 a =>
      rcases List.mem_append.mp h with text | padding
      · exact .inr (mem_quantumText (List.mem_of_mem_take text))
      · exact .inl (by simpa using padding)
  | case3 a b =>
      rcases List.mem_append.mp h with text | padding
      · exact .inr (mem_quantumText (List.mem_of_mem_take text))
      · exact .inl (List.mem_singleton.mp padding)
  | case4 a b c rest ih =>
      rcases List.mem_append.mp h with text | later
      · exact .inr (mem_quantumText text)
      · exact ih later

theorem length_encode (l : List UInt8) : (encode l).length = (l.length + 2) / 3 * 4 := by
  induction l using encode.induct with
  | case1 => rfl
  | case2 a => simp [encode, quantumText]
  | case3 a b => simp [encode, quantumText]
  | case4 a b c rest ih =>
      simp only [encode, quantumText, List.length_append, List.length_cons, List.length_nil, ih]
      omega

end Base64

end Ok3506
