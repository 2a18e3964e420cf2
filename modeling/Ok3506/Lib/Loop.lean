import Mathlib.Tactic.Common

/-!
Loops whose body may move the loop variable anywhere.

`iter n` runs at most `n` iterations of `while (cond) body`. A loop halts when
some number of iterations falsifies the condition, and it diverges when an
invariant keeps the condition true. The measure rule gives the number of
iterations that suffices; the invariant rule is the only induction on runs.
-/

namespace Ok3506.Loop

universe u

variable {σ : Type u} (cond : σ → Prop) [DecidablePred cond] (body : σ → σ)

/-- At most `n` iterations of `while (cond) body`. -/
def iter : Nat → σ → σ
  | 0, s => s
  | n + 1, s => if cond s then iter n (body s) else s

/-- The loop started in `s` ends. -/
def Halts (s : σ) : Prop := ∃ n, ¬ cond (iter cond body n s)

variable {cond body}

theorem iter_of_not {n : Nat} {s : σ} (h : ¬ cond s) : iter cond body n s = s := by
  cases n with
  | zero => rfl
  | succ n => simp [iter, h]

theorem iter_succ_of {n : Nat} {s : σ} (h : cond s) :
    iter cond body (n + 1) s = iter cond body n (body s) := by
  simp [iter, h]

theorem iter_add (a b : Nat) (s : σ) :
    iter cond body (a + b) s = iter cond body b (iter cond body a s) := by
  induction a generalizing s with
  | zero => simp [iter]
  | succ a ih =>
      rw [Nat.succ_add]
      by_cases h : cond s
      · rw [iter_succ_of h, iter_succ_of h, ih]
      · rw [iter_of_not h, iter_of_not h, iter_of_not h]

/-- The last iteration, seen from the outside. -/
theorem iter_succ_outer (n : Nat) (s : σ) :
    iter cond body (n + 1) s =
      if cond (iter cond body n s) then body (iter cond body n s) else iter cond body n s := by
  rw [iter_add]
  simp [iter]

/-- A finished loop stays where it is, whatever fuel is left. -/
theorem iter_stable {n m : Nat} {s : σ} (h : ¬ cond (iter cond body n s)) (le : n ≤ m) :
    iter cond body m s = iter cond body n s := by
  obtain ⟨d, rfl⟩ := Nat.exists_eq_add_of_le le
  rw [iter_add, iter_of_not h]

/-- **Invariant rule.** What every iteration preserves holds of every state. -/
theorem iter_invariant {I : σ → Prop} (step : ∀ s, cond s → I s → I (body s))
    (n : Nat) {s : σ} (h : I s) : I (iter cond body n s) := by
  induction n generalizing s with
  | zero => exact h
  | succ n ih =>
      by_cases hc : cond s
      · rw [iter_succ_of hc]
        exact ih (step s hc h)
      · rw [iter_of_not hc]
        exact h

/-- A relation to the start that every iteration extends. -/
theorem iter_relation (R : σ → σ → Prop) (refl : ∀ s, R s s)
    (step : ∀ s t, R s t → cond t → R s (body t)) (n : Nat) (s : σ) :
    R s (iter cond body n s) :=
  iter_invariant (fun t hc h => step s t h hc) n (refl s)

/-- **Measure rule.** When every iteration decreases `μ`, `μ s` of them suffice. -/
theorem not_cond_of_measure {I : σ → Prop} (μ : σ → Nat)
    (step : ∀ s, cond s → I s → I (body s) ∧ μ (body s) < μ s) {s : σ} (h : I s) :
    ¬ cond (iter cond body (μ s) s) := by
  suffices bound : ∀ n s, I s → μ s ≤ n → ¬ cond (iter cond body n s) from
    bound (μ s) s h (Nat.le_refl _)
  intro n
  induction n with
  | zero =>
      intro s hs hμ hc
      have := (step s hc hs).2
      omega
  | succ n ih =>
      intro s hs hμ
      by_cases hc : cond s
      · rw [iter_succ_of hc]
        have dec := step s hc hs
        exact ih _ dec.1 (by omega)
      · rwa [iter_of_not hc]

/-- A loop that reaches an invariant inside its condition never ends. -/
theorem not_halts_of_trap {I : σ → Prop} (stay : ∀ s, I s → cond s)
    (step : ∀ s, I s → I (body s)) {n : Nat} {s : σ} (h : I (iter cond body n s)) :
    ¬ Halts cond body s := by
  rintro ⟨m, hm⟩
  have trapped : I (iter cond body (n + m) s) := by
    rw [iter_add]
    exact iter_invariant (fun s _ hs => step s hs) m h
  have := iter_stable (m := n + m) hm (Nat.le_add_left m n)
  rw [this] at trapped
  exact hm (stay _ trapped)

end Ok3506.Loop
