import Mathlib.Data.Rat.Defs
import Mathlib.Algebra.Order.Field.Rat
import Mathlib.Analysis.Real.Pi.Irrational

/-!
Exact values of scaled angles.

`RatPi` is `rat + pi * π` with rational coefficients. It is what an expression
over a scaled integer and the constant π denotes before rounding; since π is
irrational, two values are the same real number only when they are equal.
-/

namespace Ok3506

/-- The number `rat + pi * π`. -/
@[ext]
structure RatPi where
  rat : ℚ
  pi : ℚ
  deriving DecidableEq, Repr

namespace RatPi

/-- A rational number. -/
def ofRat (q : ℚ) : RatPi := ⟨q, 0⟩

instance : Add RatPi where
  add x y := ⟨x.rat + y.rat, x.pi + y.pi⟩

/-- Scaling by a rational. -/
def scale (q : ℚ) (x : RatPi) : RatPi := ⟨q * x.rat, q * x.pi⟩

/-- The real number denoted. -/
noncomputable def toReal (x : RatPi) : ℝ := x.rat + x.pi * Real.pi

theorem toReal_scale (q : ℚ) (x : RatPi) : (scale q x).toReal = q * x.toReal := by
  simp only [toReal, scale, Rat.cast_mul]
  ring

/-- Scaling a nonzero unit is injective. -/
theorem scale_inj {p q : ℚ} {x : RatPi} (hx : x ≠ ofRat 0) : scale p x = scale q x ↔ p = q := by
  constructor
  · intro h
    simp only [scale, RatPi.mk.injEq] at h
    by_cases hr : x.rat = 0
    · have hp : x.pi ≠ 0 := fun hp => hx (by ext <;> simp [ofRat, hr, hp])
      exact mul_right_cancel₀ hp h.2
    · exact mul_right_cancel₀ hr h.1
  · rintro rfl
    rfl

/-- Values with different coefficients are different reals. -/
theorem toReal_injective : Function.Injective toReal := by
  intro x y h
  simp only [toReal] at h
  have hpi : x.pi = y.pi := by
    by_contra hne
    have hsub : ((x.pi - y.pi : ℚ) : ℝ) ≠ 0 := by
      exact_mod_cast sub_ne_zero.mpr hne
    apply irrational_pi
    refine ⟨(y.rat - x.rat) / (x.pi - y.pi), ?_⟩
    push_cast at hsub ⊢
    rw [div_eq_iff hsub]
    linarith
  rw [hpi] at h
  ext
  · exact_mod_cast add_right_cancel h
  · exact hpi

end RatPi

end Ok3506
