import Mathlib.Tactic.Common

/-!
Text that is assembled line by line.

A text is cut into pieces at its separators. A collector folds a buffer over the
elements of a line and hands it out at each separator. What it hands out is
determined by the terminated lines alone.
-/

namespace Ok3506.Lines

universe u v w

variable {α : Type u}

/-! ### Pieces between separators -/

section Pieces

variable {p : α → Bool}

/-- Induction over the pieces of a text. -/
theorem piece_induction (p : α → Bool) {P : List α → Prop}
    (rest : ∀ text, (∀ c ∈ text, p c = false) → P text)
    (piece : ∀ piece sep text, (∀ c ∈ piece, p c = false) → p sep = true → P text →
      P (piece ++ sep :: text)) (text : List α) : P text := by
  cases found : text.find? p with
  | none => exact rest text fun c mem => Bool.eq_false_iff.mpr (List.find?_eq_none.mp found c mem)
  | some sep =>
      obtain ⟨hsep, first, later, rfl, solid⟩ := List.find?_eq_some_iff_append.mp found
      exact piece first sep later (fun c mem => by simpa using solid c mem) hsep
        (piece_induction p rest piece later)
termination_by text.length

/-- Separators, or the ends of the text, stand before and behind. -/
def Bounded (p : α → Bool) (before after : List α) : Prop :=
  (before = [] ∨ ∃ front sep, p sep = true ∧ before = front ++ [sep]) ∧
    (after = [] ∨ ∃ sep back, p sep = true ∧ after = sep :: back)

/-- **A piece of a split text** is a stretch without separators that separators, or
the ends of the text, bound. -/
theorem mem_splitOnP_iff {piece text : List α} :
    piece ∈ text.splitOnP p ↔ (∀ c ∈ piece, p c = false) ∧
      ∃ before after, text = before ++ piece ++ after ∧ Bounded p before after := by
  constructor
  · intro mem
    induction text using piece_induction p with
    | rest text solid =>
        rw [List.splitOnP_eq_singleton solid, List.mem_singleton] at mem
        subst mem
        exact ⟨solid, [], [], by simp, .inl rfl, .inl rfl⟩
    | piece first sep text solid hsep ih =>
        rw [List.splitOnP_append_cons_of_forall_mem solid sep hsep, List.mem_cons] at mem
        rcases mem with rfl | mem
        · exact ⟨solid, [], sep :: text, rfl, .inl rfl, .inr ⟨sep, text, hsep, rfl⟩⟩
        · obtain ⟨free, before, after, rfl, head, tail⟩ := ih mem
          refine ⟨free, first ++ sep :: before, after, by simp, .inr ?_, tail⟩
          rcases head with rfl | ⟨front, c, hc, rfl⟩
          · exact ⟨first, sep, hsep, rfl⟩
          · exact ⟨first ++ sep :: front, c, hc, by simp⟩
  · rintro ⟨solid, before, after, rfl, first, last⟩
    have alone := List.splitOnP_eq_singleton solid
    have head : piece ∈ (piece ++ after).splitOnP p := by
      rcases last with rfl | ⟨c, back, hc, rfl⟩
      · rw [List.append_nil, alone]
        exact List.mem_singleton_self piece
      · rw [List.splitOnP_append_cons piece back hc, alone]
        exact List.mem_append_left _ (List.mem_singleton_self piece)
    rcases first with rfl | ⟨front, c, hc, rfl⟩
    · exact head
    · have regroup : front ++ [c] ++ piece ++ after = front ++ c :: (piece ++ after) := by simp
      rw [regroup, List.splitOnP_append_cons front _ hc]
      exact List.mem_append_right _ head

end Pieces

/-! ### Lines -/

variable [DecidableEq α]

/-- The lines of a text that end with a separator, without it. -/
def terminated (sep : α) (text : List α) : List (List α) := (text.splitOn sep).dropLast

theorem terminated_of_not_mem {sep : α} {text : List α} (h : sep ∉ text) :
    terminated sep text = [] := by
  rw [terminated, List.splitOn_eq_singleton h]
  rfl

theorem terminated_cons {sep : α} {line : List α} (h : sep ∉ line) (text : List α) :
    terminated sep (line ++ sep :: text) = line :: terminated sep text := by
  rw [terminated, List.splitOn_append_cons_self_of_not_mem h,
    List.dropLast_cons_of_ne_nil (List.splitOn_ne_nil sep text), terminated]

/-- Lines with a separator behind each. -/
theorem terminated_flatMap {sep : α} {lines : List (List α)} (h : ∀ line ∈ lines, sep ∉ line) :
    terminated sep (lines.flatMap (· ++ [sep])) = lines := by
  induction lines with
  | nil => exact terminated_of_not_mem List.not_mem_nil
  | cons line lines ih =>
      rw [List.flatMap_cons, List.append_assoc, List.singleton_append,
        terminated_cons (h line List.mem_cons_self),
        ih fun later mem => h later (List.mem_cons_of_mem line mem)]

/-- Induction over the lines of a text. -/
theorem line_induction (sep : α) {P : List α → Prop} (rest : ∀ text, sep ∉ text → P text)
    (line : ∀ line text, sep ∉ line → P text → P (line ++ sep :: text)) (text : List α) :
    P text := by
  have free {text : List α} (h : ∀ c ∈ text, decide (c = sep) = false) : sep ∉ text :=
    fun mem => by simpa using h sep mem
  refine piece_induction (fun c => decide (c = sep))
    (fun text none => rest text (free none)) ?_ text
  intro first c text none same ih
  obtain rfl := of_decide_eq_true same
  exact line first text (free none) ih

/-! ### Collectors -/

variable {β : Type v} {γ : Type w}

/-- One element: a separator hands the buffer out and empties it. -/
def collect (sep : α) (step : β → α → β) (empty : β) (flush : β → List γ) (s : β × List γ)
    (a : α) : β × List γ :=
  if a = sep then (empty, s.2 ++ flush s.1) else (step s.1 a, s.2)

section Collect

variable {sep : α} {step : β → α → β} {empty : β} {flush : β → List γ}

theorem foldl_collect_of_not_mem {line : List α} (h : sep ∉ line) (b : β) (out : List γ) :
    line.foldl (collect sep step empty flush) (b, out) = (line.foldl step b, out) := by
  induction line generalizing b with
  | nil => rfl
  | cons a line ih =>
      have other : a ≠ sep := fun same => h (same ▸ List.mem_cons_self)
      rw [List.foldl_cons, collect, if_neg other,
        ih fun later => h (List.mem_cons_of_mem a later), List.foldl_cons]

/-- **Line by line**, what is handed out is what each line leaves in an empty buffer. -/
theorem foldl_collect (text : List α) (out : List γ) :
    (text.foldl (collect sep step empty flush) (empty, out)).2 =
      out ++ (terminated sep text).flatMap fun line => flush (line.foldl step empty) := by
  induction text using line_induction sep generalizing out with
  | rest text none =>
      rw [foldl_collect_of_not_mem none, terminated_of_not_mem none, List.flatMap_nil,
        List.append_nil]
  | line first text none ih =>
      rw [List.foldl_append, foldl_collect_of_not_mem none, List.foldl_cons, collect, if_pos rfl,
        ih, terminated_cons none, List.flatMap_cons, List.append_assoc]

end Collect

end Ok3506.Lines
