import Mathlib.Data.Int.ModEq
import Mathlib.Data.List.Range
import Mathlib.Logic.Function.Basic
import Ok3506.Lib.Machine

/-!
Ring buffers and bounded queues.

A ring keeps its frames in the `count` slots from `head` on, modulo the
capacity. `contents` reads them off as a list, oldest first. A machine with a
ring inside is a bounded FIFO when each of its steps does to the contents what
`FifoStep` allows; what was accepted and what was delivered along a run then
agree.
-/

namespace Ok3506

universe u v w x

/-- The slots, the two indices and the number of queued elements. -/
structure Ring (α : Type u) where
  slots : Nat → α
  head : Nat
  tail : Nat
  count : Nat

namespace Ring

variable {α : Type u} (capacity : Nat) (r : Ring α)

/-- The queued elements, oldest first. -/
def contents : List α := (List.range r.count).map fun k => r.slots ((r.head + k) % capacity)

/-- An element is stored at the tail. -/
def push (a : α) : Ring α :=
  { r with
    slots := Function.update r.slots r.tail a
    tail := (r.tail + 1) % capacity
    count := r.count + 1 }

/-- The element at the head is taken out, `cleared` stays in its slot. -/
def pop (cleared : α) : Ring α :=
  { r with
    slots := Function.update r.slots r.head cleared
    head := (r.head + 1) % capacity
    count := r.count - 1 }

/-- The indices agree with the number of elements. -/
structure WellFormed : Prop where
  count_le : r.count ≤ capacity
  head_lt : r.head < capacity
  tail_eq : r.tail = (r.head + r.count) % capacity

variable {capacity r}

@[simp] theorem length_contents : (r.contents capacity).length = r.count := by
  rw [contents, List.length_map, List.length_range]

theorem contents_eq_nil_iff : r.contents capacity = [] ↔ r.count = 0 := by
  rw [← List.length_eq_zero_iff, length_contents]

/-- Two places less than one revolution apart are different slots. -/
theorem slot_ne {head j k : Nat} (lt : j < k) (within : k < capacity) :
    (head + j) % capacity ≠ (head + k) % capacity := by
  intro same
  have divides : capacity ∣ (head + k) - (head + j) :=
    (Nat.modEq_iff_dvd' (Nat.add_le_add_left lt.le head)).mp same
  have far : capacity ≤ (head + k) - (head + j) := Nat.le_of_dvd (by omega) divides
  omega

theorem WellFormed.push (h : r.WellFormed capacity) (room : r.count ≠ capacity) (a : α) :
    (r.push capacity a).WellFormed capacity where
  count_le := Nat.lt_of_le_of_ne h.count_le room
  head_lt := h.head_lt
  tail_eq := by
    change (r.tail + 1) % capacity = (r.head + (r.count + 1)) % capacity
    rw [h.tail_eq, Nat.mod_add_mod, Nat.add_assoc]

theorem WellFormed.contents_push (h : r.WellFormed capacity) (room : r.count ≠ capacity) (a : α) :
    (r.push capacity a).contents capacity = r.contents capacity ++ [a] := by
  have within : r.count < capacity := Nat.lt_of_le_of_ne h.count_le room
  have kept : ∀ k ∈ List.range r.count,
      (r.push capacity a).slots ((r.head + k) % capacity) = r.slots ((r.head + k) % capacity) := by
    intro k mem
    have other : (r.head + k) % capacity ≠ r.tail := by
      rw [h.tail_eq]
      exact slot_ne (List.mem_range.mp mem) within
    exact Function.update_of_ne other _ _
  have stored : (r.push capacity a).slots ((r.head + r.count) % capacity) = a := by
    rw [← h.tail_eq]
    exact Function.update_self _ _ _
  change (List.range (r.count + 1)).map
    (fun k => (r.push capacity a).slots ((r.head + k) % capacity)) = _
  rw [List.range_succ, List.map_append, List.map_congr_left kept, List.map_singleton]
  exact congrArg (r.contents capacity ++ [·]) stored

theorem WellFormed.pop (h : r.WellFormed capacity) (some : r.count ≠ 0) (cleared : α) :
    (r.pop capacity cleared).WellFormed capacity where
  count_le := le_trans (Nat.sub_le _ _) h.count_le
  head_lt := Nat.mod_lt _ (Nat.lt_of_le_of_lt (Nat.zero_le _) h.head_lt)
  tail_eq := by
    change r.tail = ((r.head + 1) % capacity + (r.count - 1)) % capacity
    rw [h.tail_eq, Nat.mod_add_mod]
    congr 1
    omega

theorem WellFormed.contents_pop (h : r.WellFormed capacity) (some : r.count ≠ 0) (cleared : α) :
    r.contents capacity = r.slots r.head :: (r.pop capacity cleared).contents capacity := by
  obtain ⟨n, count⟩ := Nat.exists_eq_succ_of_ne_zero some
  have next (k : Nat) (mem : k ∈ List.range n) :
      r.slots ((r.head + (k + 1)) % capacity) =
        (r.pop capacity cleared).slots (((r.head + 1) % capacity + k) % capacity) := by
    have other : (r.head + (k + 1)) % capacity ≠ r.head := by
      have apart : (r.head + 0) % capacity ≠ (r.head + (k + 1)) % capacity :=
        slot_ne (by omega) (by have := List.mem_range.mp mem; have := h.count_le; omega)
      rw [Nat.add_zero, Nat.mod_eq_of_lt h.head_lt] at apart
      exact apart.symm
    rw [Nat.mod_add_mod, Nat.add_assoc, Nat.add_comm 1 k]
    exact (Function.update_of_ne other _ _).symm
  have size : (r.pop capacity cleared).count = n := by
    change r.count - 1 = n
    omega
  have first : r.slots ((r.head + 0) % capacity) = r.slots r.head := by
    rw [Nat.add_zero, Nat.mod_eq_of_lt h.head_lt]
  rw [contents, count, Nat.succ_eq_add_one, List.range_succ_eq_map, List.map_cons, List.map_map,
    first, contents, size]
  exact congrArg (r.slots r.head :: ·) (List.map_congr_left next)

end Ring

/-! ### The abstract queue -/

/-- What a step of a machine does to the queue inside it. -/
inductive QueueEvent (α : Type u) where
  | pushed (a : α)
  | refused (a : α)
  | popped (a : α)
  | empty

/-- The steps of a FIFO of bounded capacity. -/
inductive FifoStep {α : Type u} (capacity : Nat) :
    List α → Option (QueueEvent α) → List α → Prop where
  | idle {q : List α} : FifoStep capacity q none q
  | pushed {q : List α} {a : α} (room : q.length < capacity) :
      FifoStep capacity q (some (.pushed a)) (q ++ [a])
  | refused {q : List α} {a : α} (full : q.length = capacity) :
      FifoStep capacity q (some (.refused a)) q
  | popped {q : List α} {a : α} : FifoStep capacity (a :: q) (some (.popped a)) q
  | empty : FifoStep capacity [] (some .empty) []

/-- The element that an event accepts. -/
def QueueEvent.accepts {α : Type u} : QueueEvent α → Option α
  | .pushed a => some a
  | _ => none

/-- The element that an event delivers. -/
def QueueEvent.delivers {α : Type u} : QueueEvent α → Option α
  | .popped a => some a
  | _ => none

section Fifo

variable {α : Type u} {σ : Type v} {ι : Type w} {ο : Type x}

/-- The elements that a run accepts, in order. -/
def accepted (event : ο → Option (QueueEvent α)) (outs : List ο) : List α :=
  outs.filterMap fun out => (event out).bind QueueEvent.accepts

/-- The elements that a run delivers, in order. -/
def delivered (event : ο → Option (QueueEvent α)) (outs : List ο) : List α :=
  outs.filterMap fun out => (event out).bind QueueEvent.delivers

theorem accepted_cons (event : ο → Option (QueueEvent α)) (out : ο) (outs : List ο) :
    accepted event (out :: outs) =
      ((event out).bind QueueEvent.accepts).toList ++ accepted event outs := by
  rw [accepted, List.filterMap_cons]
  cases (event out).bind QueueEvent.accepts <;> rfl

theorem delivered_cons (event : ο → Option (QueueEvent α)) (out : ο) (outs : List ο) :
    delivered event (out :: outs) =
      ((event out).bind QueueEvent.delivers).toList ++ delivered event outs := by
  rw [delivered, List.filterMap_cons]
  cases (event out).bind QueueEvent.delivers <;> rfl

theorem delivered_append (event : ο → Option (QueueEvent α)) (outs outs' : List ο) :
    delivered event (outs ++ outs') = delivered event outs ++ delivered event outs' :=
  List.filterMap_append

open Machine

/-- A machine whose ring is a FIFO of bounded capacity. Every state of a run is
well formed, every step is one of the FIFO, and so what a run accepts is what it
has delivered and what is still queued; `pop` empties the queue. -/
structure BoundedFifo (capacity : Nat) (step : σ → ι → σ × ο) (ring : σ → Ring α)
    (event : ο → Option (QueueEvent α)) (pop : ι) (s₀ : σ) : Prop where
  wellFormed : ∀ is, (ring (final step s₀ is)).WellFormed capacity
  steps : ∀ is i, FifoStep capacity ((ring (final step s₀ is)).contents capacity)
    (event (step (final step s₀ is) i).2) ((ring (final step s₀ (is ++ [i]))).contents capacity)
  unchanged : ∀ is i a, event (step (final step s₀ is) i).2 = some (.refused a) →
    ring (final step s₀ (is ++ [i])) = ring (final step s₀ is)
  conservation : ∀ is, accepted event (outputs step s₀ is) =
    delivered event (outputs step s₀ is) ++ (ring (final step s₀ is)).contents capacity
  drained : ∀ is, delivered event
      (outputs step s₀ (is ++ List.replicate (ring (final step s₀ is)).count pop)) =
    accepted event (outputs step s₀ is)

variable {capacity : Nat} {step : σ → ι → σ × ο} {ring : σ → Ring α}
  {event : ο → Option (QueueEvent α)}

theorem FifoStep.conservation {q q' : List α} {e : Option (QueueEvent α)}
    (h : FifoStep capacity q e q') :
    q ++ (e.bind QueueEvent.accepts).toList = (e.bind QueueEvent.delivers).toList ++ q' := by
  cases h with
  | idle | refused | popped | empty => simp [QueueEvent.accepts, QueueEvent.delivers]
  | pushed => rfl

/-- What one step has to satisfy, in a state with a well-formed ring. -/
structure FifoLocal (capacity : Nat) (ring : σ → Ring α) (event : ο → Option (QueueEvent α))
    (s : σ) (out : σ × ο) : Prop where
  wellFormed : (ring out.1).WellFormed capacity
  step : FifoStep capacity ((ring s).contents capacity) (event out.2)
    ((ring out.1).contents capacity)
  unchanged : ∀ a, event out.2 = some (.refused a) → ring out.1 = ring s

namespace FifoLocal

variable {s : σ} {out : σ × ο} (wf : (ring s).WellFormed capacity)

include wf

theorem of_pushed {a : α} (room : (ring s).count ≠ capacity) (e : event out.2 = some (.pushed a))
    (h : ring out.1 = (ring s).push capacity a) : FifoLocal capacity ring event s out where
  wellFormed := h ▸ wf.push room a
  step := by
    have size : ((ring s).contents capacity).length < capacity := by
      rw [Ring.length_contents]
      exact Nat.lt_of_le_of_ne wf.count_le room
    rw [e, h, wf.contents_push room]
    exact .pushed size
  unchanged := by
    intro a' refused
    rw [e] at refused
    cases refused

theorem of_refused {a : α} (full : (ring s).count = capacity) (e : event out.2 = some (.refused a))
    (h : ring out.1 = ring s) : FifoLocal capacity ring event s out where
  wellFormed := h ▸ wf
  step := by
    rw [e, h]
    exact .refused (Ring.length_contents.trans full)
  unchanged := fun _ _ => h

theorem of_popped {cleared : α} (some : (ring s).count ≠ 0)
    (e : event out.2 = Option.some (.popped ((ring s).slots (ring s).head)))
    (h : ring out.1 = (ring s).pop capacity cleared) : FifoLocal capacity ring event s out where
  wellFormed := h ▸ wf.pop some cleared
  step := by
    rw [e, h, wf.contents_pop some cleared]
    exact .popped
  unchanged := by
    intro a refused
    rw [e] at refused
    cases refused

theorem of_empty (none : (ring s).count = 0) (e : event out.2 = some .empty)
    (h : ring out.1 = ring s) : FifoLocal capacity ring event s out where
  wellFormed := h ▸ wf
  step := by
    rw [e, h, Ring.contents_eq_nil_iff.mpr none]
    exact .empty
  unchanged := fun _ _ => h

theorem of_idle (e : event out.2 = none) (h : ring out.1 = ring s) :
    FifoLocal capacity ring event s out where
  wellFormed := h ▸ wf
  step := by
    rw [e, h]
    exact .idle
  unchanged := fun _ _ => h

end FifoLocal

section Rule

variable
  (loc : ∀ s i, (ring s).WellFormed capacity → FifoLocal capacity ring event s (step s i))

include loc

theorem fifo_wellFormed {s : σ} (wf : (ring s).WellFormed capacity) (is : List ι) :
    (ring (final step s is)).WellFormed capacity := by
  induction is generalizing s with
  | nil => exact wf
  | cons i is ih => exact ih (loc s i wf).wellFormed

theorem fifo_conservation {s : σ} (wf : (ring s).WellFormed capacity) (is : List ι) :
    (ring s).contents capacity ++ accepted event (outputs step s is) =
      delivered event (outputs step s is) ++ (ring (final step s is)).contents capacity := by
  induction is generalizing s with
  | nil => simp [accepted, delivered]
  | cons i is ih =>
      have now := (loc s i wf).step.conservation
      have later := ih (loc s i wf).wellFormed
      rw [outputs_cons, final_cons, accepted_cons, delivered_cons, ← List.append_assoc, now,
        List.append_assoc, List.append_assoc, later]

/-- Popping as often as there are elements delivers all of them. -/
theorem fifo_drained {pop : ι}
    (takes : ∀ s, (ring s).WellFormed capacity → (ring s).count ≠ 0 →
      ∃ a, event (step s pop).2 = some (.popped a))
    {s : σ} (wf : (ring s).WellFormed capacity) {n : Nat} (count : (ring s).count = n) :
    delivered event (outputs step s (List.replicate n pop)) = (ring s).contents capacity := by
  induction n generalizing s with
  | zero => exact (Ring.contents_eq_nil_iff.mpr count).symm
  | succ n ih =>
      obtain ⟨a, popped⟩ := takes s wf (by omega)
      have now := (loc s pop wf).step.conservation
      rw [popped] at now
      simp only [Option.bind_some, QueueEvent.accepts, QueueEvent.delivers, Option.toList_none,
        Option.toList_some, List.append_nil] at now
      have size : (ring (step s pop).1).count = n := by
        have lengths := congrArg List.length now
        rw [List.length_append, List.length_singleton, Ring.length_contents, count,
          Ring.length_contents] at lengths
        omega
      have rest := ih (loc s pop wf).wellFormed size
      rw [List.replicate_succ, outputs_cons, delivered_cons, popped, rest, now]
      rfl

/-- **Queue rule.** A machine whose steps are local FIFO steps, and whose `pop`
takes an element whenever there is one, is a bounded FIFO. -/
theorem boundedFifo {pop : ι}
    (takes : ∀ s, (ring s).WellFormed capacity → (ring s).count ≠ 0 →
      ∃ a, event (step s pop).2 = some (.popped a))
    {s : σ} (wf : (ring s).WellFormed capacity) (none : (ring s).count = 0) :
    BoundedFifo capacity step ring event pop s := by
  have empty : (ring s).contents capacity = [] := Ring.contents_eq_nil_iff.mpr none
  have reached (is : List ι) := fifo_wellFormed loc wf is
  have conserved (is : List ι) : accepted event (outputs step s is) =
      delivered event (outputs step s is) ++ (ring (final step s is)).contents capacity := by
    have total := fifo_conservation loc wf is
    rwa [empty, List.nil_append] at total
  refine ⟨reached, ?_, ?_, conserved, ?_⟩
  · intro is i
    rw [final_append]
    exact (loc _ i (reached is)).step
  · intro is i a refused
    rw [final_append]
    exact (loc _ i (reached is)).unchanged a refused
  · intro is
    rw [outputs_append, delivered_append, fifo_drained loc takes (reached is) rfl, conserved]

end Rule

end Fifo

end Ok3506
