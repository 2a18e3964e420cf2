import Mathlib.Tactic.Common

/-!
Sums of bytes by exclusive or.

A sum sees every substitution of a single byte: the summand it had is cancelled by
the sum of the others.
-/

namespace Ok3506

/-- The exclusive or of all bytes. -/
def xorSum (l : List UInt8) : UInt8 := l.foldl (· ^^^ ·) 0

variable {l r : List UInt8} {a b : UInt8}

theorem foldl_xor (l : List UInt8) (start : UInt8) :
    l.foldl (· ^^^ ·) start = start ^^^ xorSum l := by
  induction l generalizing start with
  | nil => exact UInt8.xor_zero.symm
  | cons a l ih => rw [xorSum, List.foldl_cons, ih, List.foldl_cons, ih, UInt8.zero_xor,
      UInt8.xor_assoc]

@[simp] theorem xorSum_nil : xorSum [] = 0 := rfl

@[simp] theorem xorSum_cons : xorSum (a :: l) = a ^^^ xorSum l := by
  rw [xorSum, List.foldl_cons, foldl_xor, UInt8.zero_xor]

@[simp] theorem xorSum_append : xorSum (l ++ r) = xorSum l ^^^ xorSum r := by
  rw [xorSum, List.foldl_append, foldl_xor, ← xorSum]

/-- Another byte in one place gives another sum. -/
theorem xorSum_substitute : xorSum (l ++ a :: r) = xorSum (l ++ b :: r) ↔ a = b := by
  rw [xorSum_append, xorSum_append, UInt8.xor_right_inj, xorSum_cons, xorSum_cons,
    UInt8.xor_left_inj]

end Ok3506
