import Mathlib.Tactic.Common

/-!
Runs of a state machine with outputs.

`step s i` gives the next state and what the machine emits on the input `i`.
`final` and `outputs` run a sequence of inputs. Folds and simulations are proved
of one step and lifted to runs here.
-/

namespace Ok3506.Machine

universe u v w x y

variable {σ : Type u} {τ : Type x} {ι : Type v} {ο : Type w}

/-- The state after a sequence of inputs. -/
def final (step : σ → ι → σ × ο) (s : σ) (is : List ι) : σ :=
  is.foldl (fun s i => (step s i).1) s

/-- What the machine emits, one entry for each input. -/
def outputs (step : σ → ι → σ × ο) : σ → List ι → List ο
  | _, [] => []
  | s, i :: is => (step s i).2 :: outputs step (step s i).1 is

variable {step : σ → ι → σ × ο}

@[simp] theorem final_nil (s : σ) : final step s [] = s := rfl

@[simp] theorem final_cons (s : σ) (i : ι) (is : List ι) :
    final step s (i :: is) = final step (step s i).1 is := rfl

@[simp] theorem final_append (s : σ) (is js : List ι) :
    final step s (is ++ js) = final step (final step s is) js := List.foldl_append

@[simp] theorem outputs_nil (s : σ) : outputs step s [] = [] := rfl

@[simp] theorem outputs_cons (s : σ) (i : ι) (is : List ι) :
    outputs step s (i :: is) = (step s i).2 :: outputs step (step s i).1 is := rfl

theorem outputs_append (s : σ) (is js : List ι) :
    outputs step s (is ++ js) = outputs step s is ++ outputs step (final step s is) js := by
  induction is generalizing s with
  | nil => rfl
  | cons i is ih => simp [ih]

/-- A projection that every step maps by `f` is folded by a run. -/
theorem final_fold {α : Type x} {g : σ → α} {f : α → ι → α}
    (comm : ∀ s i, g (step s i).1 = f (g s) i) (s : σ) (is : List ι) :
    g (final step s is) = is.foldl f (g s) := by
  induction is generalizing s with
  | nil => rfl
  | cons i is ih => rw [final_cons, ih, comm, List.foldl_cons]

/-- A projection on which a step acts through its event, if it has one, is folded
over the events of a run. -/
theorem final_foldl_events {α : Type x} {ε : Type y} {g : σ → α} {event : ι → Option ε}
    {f : α → ε → α}
    (comm : ∀ s i, g (step s i).1 = (event i).elim (g s) (f (g s))) (s : σ) (is : List ι) :
    g (final step s is) = (is.filterMap event).foldl f (g s) := by
  induction is generalizing s with
  | nil => rfl
  | cons i is ih =>
      rw [final_cons, ih, comm, List.filterMap_cons]
      cases event i <;> rfl

/-! ### Every state of a run -/

/-- `P` holds in every state of a run, the first and the last included. -/
def Along (step : σ → ι → σ × ο) (P : σ → Prop) (s : σ) (is : List ι) : Prop :=
  ∀ pre, pre <+: is → P (final step s pre)

section Along

variable {P : σ → Prop} {s : σ}

@[simp] theorem along_nil : Along step P s [] ↔ P s := by
  simp [Along]

theorem along_cons {i : ι} {is : List ι} :
    Along step P s (i :: is) ↔ P s ∧ Along step P (step s i).1 is := by
  constructor
  · intro h
    refine ⟨h [] List.nil_prefix, ?_⟩
    intro pre begins
    exact h (i :: pre) ((List.prefix_cons_inj i).mpr begins)
  · rintro ⟨now, later⟩ pre begins
    rcases List.prefix_cons_iff.mp begins with rfl | ⟨tail, rfl, within⟩
    · exact now
    · exact later tail within

/-- What every step keeps holds along every run. -/
theorem along_of_keeps (keeps : ∀ s i, P s → P (step s i).1) (h : P s) (is : List ι) :
    Along step P s is := by
  induction is generalizing s with
  | nil => exact along_nil.mpr h
  | cons i is ih => exact along_cons.mpr ⟨h, ih (keeps s i h)⟩

end Along

/-- Every step of a run meets `C`, a condition on the state before it and its input. -/
def Steps (step : σ → ι → σ × ο) (C : σ → ι → Prop) (s : σ) (is : List ι) : Prop :=
  ∀ pre i, pre ++ [i] <+: is → C (final step s pre) i

section Steps

variable {P I : σ → Prop} {C : σ → ι → Prop} {s : σ}

@[simp] theorem steps_nil : Steps step C s [] := by
  intro pre i begins
  cases pre <;> cases List.prefix_nil.mp begins

theorem steps_cons {i : ι} {is : List ι} :
    Steps step C s (i :: is) ↔ C s i ∧ Steps step C (step s i).1 is := by
  constructor
  · intro h
    refine ⟨h [] i (List.prefix_append [i] is), ?_⟩
    intro pre j begins
    exact h (i :: pre) j ((List.prefix_cons_inj i).mpr begins)
  · rintro ⟨now, later⟩ pre j begins
    cases pre with
    | nil =>
        cases (List.cons_prefix_cons.mp begins).1
        exact now
    | cons k pre =>
        obtain ⟨rfl, within⟩ := List.cons_prefix_cons.mp begins
        exact later pre j within

instance decidableSteps [∀ s i, Decidable (C s i)] : ∀ s is, Decidable (Steps step C s is)
  | _, [] => isTrue steps_nil
  | s, i :: is =>
      have := decidableSteps (step s i).1 is
      decidable_of_iff _ steps_cons.symm

/-- An invariant that the steps that meet `C` keep holds before each of them. -/
theorem steps_of_keeps {Q : σ → ι → Prop} (keeps : ∀ s i, I s → C s i → I (step s i).1)
    (implies : ∀ s i, I s → C s i → Q s i) (h : I s) {is : List ι} (met : Steps step C s is) :
    Steps step Q s is := by
  induction is generalizing s with
  | nil => exact steps_nil
  | cons i is ih =>
      obtain ⟨now, later⟩ := steps_cons.mp met
      exact steps_cons.mpr ⟨implies s i h now, ih (keeps s i h now) later⟩

/-- **Exactness rule.** When an invariant that implies `P` is kept by the steps that
meet `C`, and every other step breaks `P`, the runs along which `P` holds are those
whose steps meet `C`. -/
theorem along_iff_steps (implies : ∀ s, I s → P s)
    (keeps : ∀ s i, I s → C s i → I (step s i).1)
    (breaks : ∀ s i, I s → ¬ C s i → ¬ P (step s i).1) (h : I s) (is : List ι) :
    Along step P s is ↔ Steps step C s is := by
  induction is generalizing s with
  | nil => exact iff_of_true (along_nil.mpr (implies s h)) steps_nil
  | cons i is ih =>
      rw [along_cons, steps_cons]
      by_cases met : C s i
      · rw [ih (keeps s i h met)]
        exact ⟨fun run => ⟨met, run.2⟩, fun run => ⟨implies s h, run.2⟩⟩
      · refine iff_of_false ?_ fun run => met run.1
        intro run
        exact breaks s i h met (run.2 [] List.nil_prefix)

end Steps

section Simulation

variable {step' : τ → ι → τ × ο} {R : σ → τ → Prop}

/-- **Simulation rule.** Related machines emit the same along every run, and
stay related. -/
theorem simulation
    (sim : ∀ s t i, R s t → R (step s i).1 (step' t i).1 ∧ (step s i).2 = (step' t i).2)
    {s : σ} {t : τ} (h : R s t) (is : List ι) :
    R (final step s is) (final step' t is) ∧ outputs step s is = outputs step' t is := by
  induction is generalizing s t with
  | nil => exact ⟨h, rfl⟩
  | cons i is ih =>
      obtain ⟨next, same⟩ := sim s t i h
      obtain ⟨last, rest⟩ := ih next
      exact ⟨last, by rw [outputs_cons, outputs_cons, same, rest]⟩

end Simulation

/-! ### Steps that may be disabled -/

section Partial

variable {μ : Type y}

/-- A run all of whose steps are enabled, with its outputs. -/
def exec (step : σ → ι → Option (σ × ο)) : σ → List ι → Option (σ × List ο)
  | s, [] => some (s, [])
  | s, i :: is =>
      (step s i).bind fun next => (exec step next.1 is).map fun rest => (rest.1, next.2 :: rest.2)

/-- A sequence of inputs that a monitor lets pass. -/
def allowed (monitor : μ → ι → Option μ) : μ → List ι → Bool
  | _, [] => true
  | m, i :: is =>
      match monitor m i with
      | some m' => allowed monitor m' is
      | none => false

/-- Every step of a run meets `C`, a condition on the state before it and its input. -/
def Meets (step : σ → ι → Option (σ × ο)) (C : σ → ι → Prop) : σ → List ι → Prop
  | _, [] => True
  | s, i :: is => C s i ∧ ∀ next ∈ step s i, Meets step C next.1 is

instance decidableMeets (step : σ → ι → Option (σ × ο)) (C : σ → ι → Prop)
    [∀ s i, Decidable (C s i)] : ∀ s is, Decidable (Meets step C s is)
  | _, [] => isTrue trivial
  | s, i :: is =>
      have (next : σ × ο) := decidableMeets step C next.1 is
      inferInstanceAs (Decidable (C s i ∧ ∀ next ∈ step s i, Meets step C next.1 is))

variable {step : σ → ι → Option (σ × ο)} {monitor : μ → ι → Option μ}

theorem exec_cons_eq_some {s s' : σ} {i : ι} {is : List ι} {outs : List ο}
    (h : exec step s (i :: is) = some (s', outs)) :
    ∃ next out rest, step s i = some (next, out) ∧ exec step next is = some (s', rest) ∧
      outs = out :: rest := by
  obtain ⟨⟨next, out⟩, stepped, h⟩ := Option.bind_eq_some_iff.mp h
  obtain ⟨⟨last, rest⟩, run, h⟩ := Option.map_eq_some_iff.mp h
  cases h
  exact ⟨next, out, rest, stepped, run, rfl⟩

theorem meets_of_forall {C : σ → ι → Prop} (all : ∀ s i, C s i) (s : σ) (is : List ι) :
    Meets step C s is := by
  induction is generalizing s with
  | nil => trivial
  | cons i is ih => exact ⟨all s i, fun next _ => ih next.1⟩

/-- **History rule.** A relation between the state and what the machine has emitted so far
that the steps that meet `C` keep holds at the end of a run that meets it. -/
theorem exec_history {I : σ → List ο → Prop} {C : σ → ι → Prop}
    (keeps : ∀ s log i s' o, I s log → C s i → step s i = some (s', o) → I s' (log ++ [o]))
    {s s' : σ} {is : List ι} {log outs : List ο} (inv : I s log)
    (run : exec step s is = some (s', outs)) (meets : Meets step C s is) : I s' (log ++ outs) := by
  induction is generalizing s log outs with
  | nil =>
      cases run
      rwa [List.append_nil]
  | cons i is ih =>
      obtain ⟨next, out, rest, stepped, tail, rfl⟩ := exec_cons_eq_some run
      have later := ih (keeps s log i next out inv meets.1 stepped) tail (meets.2 _ stepped)
      rwa [List.append_assoc, List.singleton_append] at later

theorem allowed_cons {m : μ} {i : ι} {is : List ι} (h : allowed monitor m (i :: is)) :
    ∃ m', monitor m i = some m' ∧ allowed monitor m' is := by
  rw [allowed] at h
  split at h
  · rename_i m' passed
    exact ⟨m', passed, h⟩
  · cases h

/-- **Monitor rule.** When every step that the monitor lets pass keeps a relation
between state and monitor and has a good output, an allowed run has good outputs
only. -/
theorem exec_monitored {I : σ → μ → Prop} {good : ο → Prop}
    (keeps : ∀ s m i s' o m', I s m → step s i = some (s', o) → monitor m i = some m' →
      I s' m' ∧ good o)
    {s s' : σ} {m : μ} {is : List ι} {outs : List ο} (inv : I s m)
    (run : exec step s is = some (s', outs)) (passes : allowed monitor m is) :
    ∀ o ∈ outs, good o := by
  induction is generalizing s m outs with
  | nil =>
      cases run
      intro o mem
      cases mem
  | cons i is ih =>
      obtain ⟨next, out, rest, stepped, tail, rfl⟩ := exec_cons_eq_some run
      obtain ⟨m', passed, tailPasses⟩ := allowed_cons passes
      obtain ⟨inv', now⟩ := keeps s m i next out m' inv stepped passed
      intro o mem
      rcases List.mem_cons.mp mem with rfl | later
      · exact now
      · exact ih inv' tail tailPasses o later

end Partial

section Lockstep

variable {step : σ → ι → Option σ} {step' : τ → ι → Option τ} {R S : σ → τ → Prop}

/-- **Lockstep rule.** Machines whose steps keep a relation, and are disabled together, stop
together on every run, and otherwise end in states with what the relation implies. -/
theorem rel_foldlM (keeps : ∀ s t i, R s t → Option.Rel R (step s i) (step' t i))
    (implies : ∀ s t, R s t → S s t) {s : σ} {t : τ} (h : R s t) (is : List ι) :
    Option.Rel S (is.foldlM step s) (is.foldlM step' t) := by
  induction is generalizing s t with
  | nil => exact .some (implies s t h)
  | cons i is ih =>
      have next := keeps s t i h
      rw [List.foldlM_cons, List.foldlM_cons]
      revert next
      generalize step s i = o
      generalize step' t i = o'
      rintro (next | _)
      · exact ih next
      · exact .none

end Lockstep

end Ok3506.Machine
