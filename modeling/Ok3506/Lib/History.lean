import Mathlib.Data.List.Forall2
import Mathlib.Tactic.Common

/-!
Programs over a state that holds a history.

`Appends` says that from some state a program only appends to the history, and what
kind of segment it appends. The rules follow the program text: a program that leaves
the history alone, and sequence, where the kinds say what two segments make together.
-/

namespace Ok3506.History

universe u

variable {σ ε α β : Type u} (history : σ → List ε)

/-- From this state, the program appends a segment of the kind `C`. -/
def Appends (m : StateM σ α) (s : σ) (C : List ε → Prop) : Prop :=
  ∃ segment, C segment ∧ history (m s).2 = history s ++ segment

variable {history} {C C' D : List ε → Prop} {m : StateM σ α} {f : α → StateM σ β} {s : σ}

/-- A program that leaves the history alone. -/
theorem Appends.of_same (nil : C []) (h : history (m s).2 = history s) :
    Appends history m s C :=
  ⟨[], nil, by rw [h, List.append_nil]⟩

theorem Appends.bind (h : Appends history m s C) (h' : Appends history (f (m s).1) (m s).2 C')
    (both : ∀ {a b}, C a → C' b → D (a ++ b)) : Appends history (m >>= f) s D := by
  obtain ⟨first, good, eq⟩ := h
  obtain ⟨second, good', eq'⟩ := h'
  refine ⟨first ++ second, both good good', eq'.trans ?_⟩
  rw [eq, List.append_assoc]

/-! ### What a history says -/

section Contents

variable {steps more : List (ε → Prop)} {marker : ε} {events later : List ε}

/-- Events that are the given steps, in their order, with others between them. -/
def InOrder (steps : List (ε → Prop)) (events : List ε) : Prop :=
  ∃ found, found.Sublist events ∧ List.Forall₂ (fun step e => step e) steps found

theorem inOrder_nil : InOrder [] events := ⟨[], List.nil_sublist _, .nil⟩

theorem inOrder_singleton {step : ε → Prop} {e : ε} (mem : e ∈ events) (done : step e) :
    InOrder [step] events :=
  ⟨[e], List.singleton_sublist.mpr mem, .cons done .nil⟩

theorem InOrder.append (h : InOrder steps events) (h' : InOrder more later) :
    InOrder (steps ++ more) (events ++ later) := by
  obtain ⟨found, sub, done⟩ := h
  obtain ⟨found', sub', done'⟩ := h'
  exact ⟨found ++ found', sub.append sub', List.rel_append done done'⟩

theorem InOrder.extend (h : InOrder steps events) (later : List ε) :
    InOrder steps (events ++ later) := by
  obtain ⟨found, sub, done⟩ := h
  exact ⟨found, sub.trans (List.sublist_append_left _ _), done⟩

/-- Every step has its event. -/
theorem InOrder.exists_mem (h : InOrder steps events) {step : ε → Prop} (mem : step ∈ steps) :
    ∃ e ∈ events, step e := by
  obtain ⟨found, sub, done⟩ := h
  obtain ⟨e, within, holds⟩ : ∃ e ∈ found, step e := by
    clear sub
    induction done with
    | nil => cases mem
    | cons here _ ih =>
        rcases List.mem_cons.mp mem with rfl | mem
        · exact ⟨_, List.mem_cons_self, here⟩
        · obtain ⟨e, within, holds⟩ := ih mem
          exact ⟨e, List.mem_cons_of_mem _ within, holds⟩
  exact ⟨e, sub.mem within, holds⟩

variable [DecidableEq ε]

/-- The events since the last `marker`, or all of them. -/
def sinceLast (marker : ε) (events : List ε) : List ε :=
  (events.reverse.takeWhile (· ≠ marker)).reverse

theorem sinceLast_append (others : marker ∉ later) :
    sinceLast marker (events ++ later) = sinceLast marker events ++ later := by
  have passed : ∀ e ∈ later.reverse, decide (e ≠ marker) = true := by
    intro e mem
    rw [decide_eq_true_eq]
    rintro rfl
    exact others (List.mem_reverse.mp mem)
  rw [sinceLast, List.reverse_append, List.takeWhile_append_of_pos passed, List.reverse_append,
    List.reverse_reverse]
  rfl

@[simp] theorem sinceLast_marker : sinceLast marker (events ++ [marker]) = [] := by
  simp [sinceLast]

end Contents

end Ok3506.History
