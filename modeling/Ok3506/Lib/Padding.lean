import Mathlib.Algebra.Order.Ring.Nat
import Mathlib.Tactic.Ring
import Ok3506.Lib.Base64

/-!
Base64 texts that are padded at their end only.

`Padded` are the texts that RFC 4648 calls base64. Their bytes re-encode to a text of
the same length, and every character of the alphabet is in the decoded bytes: as
numbers, the bytes are the sextets without fewer than six unused bits.
-/

namespace Ok3506.Base64

/-- A quartet of alphabet characters that ends with one or two padding characters. -/
def EndsPadded (a b c d : UInt8) : Prop :=
  (value a).isSome = true ∧ (value b).isSome = true ∧ ((value c).isSome = true ∨ c = pad) ∧ d = pad

/-- Complete quartets of alphabet characters, of which the last one may be padded. -/
def Padded : List UInt8 → Prop
  | [] => True
  | a :: b :: c :: d :: rest =>
      (∀ x ∈ [a, b, c, d], (value x).isSome = true) ∧ Padded rest ∨
        rest = [] ∧ EndsPadded a b c d
  | _ => False

/-- The number of digits to a base, the first one most significant. -/
def number (base : Nat) : List Nat → Nat
  | [] => 0
  | n :: ns => n * base ^ ns.length + number base ns

/-- The 6-bit values of the alphabet characters of a text. -/
def sextets (text : List UInt8) : List Nat := text.filterMap value

/-- The bytes are the sextets of the text without fewer than six unused bits. -/
def Exhausts (text bytes : List UInt8) : Prop :=
  ∃ unused < 6, 8 * bytes.length + unused = 6 * (sextets text).length ∧
    number 256 (bytes.map UInt8.toNat) = number 64 (sextets text) / 2 ^ unused

theorem value_pad : value pad = none := by decide

/-! ### Numbers -/

theorem number_append (base : Nat) (ns ms : List Nat) :
    number base (ns ++ ms) = number base ns * base ^ ms.length + number base ms := by
  induction ns with
  | nil => simp [number]
  | cons n ns ih =>
      rw [List.cons_append, number, ih, number, List.length_append, Nat.pow_add]
      ring

/-- The bytes of a quantum as a number. -/
theorem number_octets {t p : Nat} (small : t < 16777216) (few : p ≤ 2) :
    number 256 ((octets t p).map UInt8.toNat) = t / 256 ^ p := by
  have byte (n : Nat) : (UInt8.ofNat n).toNat = n % 256 := UInt8.toNat_ofNat'
  match p, few with
  | 0, _ | 1, _ | 2, _ =>
      simp only [octets, number, byte, List.map_cons, List.map_nil, List.take_succ_cons,
        List.take_zero, List.length_cons, List.length_nil, Nat.reduceAdd, Nat.reducePow,
        Nat.reduceSub, Nat.max_def, Nat.reduceLeDiff, if_true]
      omega

/-- The bytes of a quantum exhaust its sextets. -/
theorem exhausts_octets {text : List UInt8} {t p : Nat} (small : t < 16777216) (few : p ≤ 2)
    (size : (sextets text).length = 4 - p) (value : number 64 (sextets text) * 64 ^ p = t) :
    Exhausts text (octets t p) := by
  refine ⟨2 * p, by omega, ?_, ?_⟩
  · rw [length_octets, size]
    omega
  · have split : 256 ^ p = 2 ^ (2 * p) * 64 ^ p := by
      rw [Nat.pow_mul, ← Nat.mul_pow]
    rw [number_octets small few, ← value, split,
      Nat.mul_div_mul_right _ _ (Nat.pow_pos (by decide))]

/-- What is exhausted in front and behind is exhausted as a whole. -/
theorem Exhausts.append {text text' bytes bytes' : List UInt8} (first : Exhausts text bytes)
    (size : 8 * bytes.length = 6 * (sextets text).length) (h : Exhausts text' bytes') :
    Exhausts (text ++ text') (bytes ++ bytes') := by
  obtain ⟨none, -, length, same⟩ := first
  obtain rfl : none = 0 := by omega
  rw [Nat.pow_zero, Nat.div_one] at same
  obtain ⟨unused, few, length', value⟩ := h
  refine ⟨unused, few, ?_, ?_⟩
  · rw [sextets, List.filterMap_append, ← sextets, ← sextets, List.length_append,
      List.length_append]
    omega
  · have powers : 64 ^ (sextets text').length = 256 ^ bytes'.length * 2 ^ unused := by
      rw [show 64 = 2 ^ 6 from rfl, show 256 = 2 ^ 8 from rfl, ← Nat.pow_mul, ← Nat.pow_mul,
        ← Nat.pow_add, length']
    rw [sextets, List.filterMap_append, ← sextets, ← sextets, List.map_append, number_append,
      number_append, value, same, powers, List.length_map, ← Nat.mul_assoc, Nat.add_comm,
      Nat.add_comm (_ * 2 ^ unused), Nat.add_mul_div_right _ _ (Nat.two_pow_pos unused)]

/-! ### Quartets -/

section Quartet

variable {a b c d : UInt8}

theorem sextet_of_value {x : UInt8} (h : (value x).isSome = true) :
    ∃ v < 64, value x = some v ∧ sextet x = some v ∧ x ≠ pad := by
  obtain ⟨v, hv⟩ := Option.isSome_iff_exists.mp h
  have other : x ≠ pad := by
    rintro rfl
    cases hv
  have read : sextet x = some v := by rw [sextet, if_neg other, hv]
  exact ⟨v, sextet_lt read, hv, read, other⟩

/-- A quartet without padding. -/
theorem quartet_full (h : ∀ x ∈ [a, b, c, d], (value x).isSome = true) :
    pads a b c d = 0 ∧ ∃ bytes, quantum a b c d = some bytes ∧ bytes.length = 3 ∧
      (sextets [a, b, c, d]).length = 4 ∧ Exhausts [a, b, c, d] bytes := by
  obtain ⟨w, bw, hw, sw, na⟩ := sextet_of_value (h a (by simp))
  obtain ⟨x, bx, hx, sx, nb⟩ := sextet_of_value (h b (by simp))
  obtain ⟨y, byy, hy, sy, nc⟩ := sextet_of_value (h c (by simp))
  obtain ⟨z, bz, hz, sz, nd⟩ := sextet_of_value (h d (by simp))
  have none_pads : pads a b c d = 0 := by simp [pads, na, nb, nc, nd]
  have found : sextets [a, b, c, d] = [w, x, y, z] := by simp [sextets, hw, hx, hy, hz]
  refine ⟨none_pads, _, quantum_of_sextets sw sx sy sz rfl none_pads, length_octets _ 0, ?_, ?_⟩
  · rw [found]
    rfl
  · refine exhausts_octets (by omega) (by decide) (by rw [found]; rfl) ?_
    simp only [found, number, List.length_cons, List.length_nil]
    omega

/-- A quartet that ends with padding. -/
theorem quartet_padded (h : EndsPadded a b c d) :
    pads a b c d ≠ 0 ∧ ∃ bytes, quantum a b c d = some bytes ∧ 0 < bytes.length ∧ bytes.length < 3 ∧
      Exhausts [a, b, c, d] bytes := by
  obtain ⟨ha, hb, hc, rfl⟩ := h
  obtain ⟨w, bw, hw, sw, na⟩ := sextet_of_value ha
  obtain ⟨x, bx, hx, sx, nb⟩ := sextet_of_value hb
  rcases hc with hc | rfl
  · obtain ⟨y, byy, hy, sy, nc⟩ := sextet_of_value hc
    have one : pads a b c pad = 1 := by simp [pads, na, nb, nc]
    have found : sextets [a, b, c, pad] = [w, x, y] := by simp [sextets, hw, hx, hy, value_pad]
    refine ⟨by rw [one]; decide, _, quantum_of_sextets sw sx sy sextet_pad rfl one,
      by rw [length_octets]; decide, by rw [length_octets]; decide, ?_⟩
    refine exhausts_octets (by omega) (by decide) (by rw [found]; rfl) ?_
    simp only [found, number, List.length_cons, List.length_nil]
    omega
  · have two : pads a b pad pad = 2 := by simp [pads, na, nb]
    have found : sextets [a, b, pad, pad] = [w, x] := by simp [sextets, hw, hx, value_pad]
    refine ⟨by rw [two]; decide, _, quantum_of_sextets sw sx sextet_pad sextet_pad rfl two,
      by rw [length_octets]; decide, by rw [length_octets]; decide, ?_⟩
    refine exhausts_octets (by omega) (by decide) (by rw [found]; rfl) ?_
    simp only [found, number, List.length_cons, List.length_nil]
    omega

end Quartet

/-- **Padded texts**: their bytes encode to as many characters, and exhaust them. -/
theorem Padded.front {text : List UInt8} (h : Padded text) :
    (encode (front text)).length = text.length ∧ Exhausts text (front text) := by
  induction text using decode.induct with
  | case1 => exact ⟨rfl, 0, by decide, rfl, rfl⟩
  | case2 a b c d rest ih =>
      rw [Padded] at h
      rcases h with ⟨all, later⟩ | ⟨rfl, last⟩
      · obtain ⟨full, bytes, read, three, four, exhausts⟩ := quartet_full all
        obtain ⟨length, rest_exhausts⟩ := ih later
        have whole : Base64.front (a :: b :: c :: d :: rest) = bytes ++ Base64.front rest := by
          rw [Base64.front, read]
          exact if_pos full
        rw [whole]
        refine ⟨?_, exhausts.append (by omega) rest_exhausts⟩
        rw [length_encode] at length
        simp only [length_encode, List.length_append, List.length_cons]
        omega
      · obtain ⟨padded, bytes, read, pos, short, exhausts⟩ := quartet_padded last
        have whole : Base64.front [a, b, c, d] = bytes := by
          rw [Base64.front, read]
          exact if_neg padded
        rw [whole, length_encode]
        refine ⟨?_, exhausts⟩
        simp only [List.length_cons, List.length_nil]
        omega
  | case3 text no_text no_quantum =>
      rw [Padded] at h
      · cases h
      · exact no_text
      · exact no_quantum

end Ok3506.Base64
