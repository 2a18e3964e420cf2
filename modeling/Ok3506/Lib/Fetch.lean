import Ok3506.Lib.Memory

/-!
Programs that read a memory and may fail.

A `Fetch` is what a program returns together with the addresses it has read, in
order. `Within n` says that all of them are below `n`; its rules follow the program
text, and the rule for a check hands the checked fact to the rest of the program.
`Yields n` adds the value that is returned, which the rest of a program may use.
-/

namespace Ok3506

open Mem

/-- The result, if the program does not fail, and the addresses that were read. -/
structure Fetch (α : Type) where
  value : Option α
  reads : List Nat

namespace Fetch

variable {α β : Type}

def fail : Fetch α := ⟨none, []⟩

instance : Monad Fetch where
  pure a := ⟨some a, []⟩
  bind x f :=
    match x.value with
    | none => ⟨none, x.reads⟩
    | some a => ⟨(f a).value, x.reads ++ (f a).reads⟩

/-- Fails where `c` does not hold. -/
def check (c : Prop) [Decidable c] : Fetch Unit := if c then pure () else fail

/-- The byte at an address. -/
def byte (m : Mem) (i : Nat) : Fetch UInt8 := ⟨some (m i), [i]⟩

/-- The `n` bytes from an address on. -/
def block (m : Mem) (off n : Nat) : Fetch (List UInt8) :=
  ⟨some (m.bytes off n), List.range' off n⟩

/-- `f` of the `n` bytes from an address on. -/
def view (m : Mem) (off n : Nat) (f : Mem → α) : Fetch α := do
  let l ← block m off n
  return f (zeroPadded l)

/-! ### Results -/

variable {x : Fetch α} {f : α → Fetch β}

@[simp] theorem value_pure (a : α) : (pure a : Fetch α).value = some a := rfl

theorem value_bind : (x >>= f).value = x.value.bind fun a => (f a).value := by
  change (match x.value with
    | none => (⟨none, x.reads⟩ : Fetch β)
    | some a => ⟨(f a).value, x.reads ++ (f a).reads⟩).value = _
  cases x.value <;> rfl

theorem value_check_bind {c : Prop} [Decidable c] {f : Unit → Fetch β} (h : c) :
    (check c >>= f).value = (f ()).value := by
  rw [value_bind, check, if_pos h]
  rfl

theorem value_byte_bind (m : Mem) (i : Nat) {f : UInt8 → Fetch β} :
    (byte m i >>= f).value = (f (m i)).value :=
  value_bind

theorem value_block_bind (m : Mem) (off n : Nat) {f : List UInt8 → Fetch β} :
    (block m off n >>= f).value = (f (m.bytes off n)).value :=
  value_bind

/-! ### Addresses -/

/-- Only addresses below `n` are read. -/
def Within (n : Nat) (x : Fetch α) : Prop := ∀ i ∈ x.reads, i < n

variable {n : Nat}

theorem within_pure (a : α) : Within n (pure a) := by
  intro i mem
  cases mem

theorem within_fail : Within n (fail : Fetch α) := by
  intro i mem
  cases mem

theorem within_byte {m : Mem} {i : Nat} (h : i < n) : Within n (byte m i) := by
  intro j mem
  rwa [List.mem_singleton.mp mem]

theorem within_block {m : Mem} {off size : Nat} (h : off + size ≤ n) :
    Within n (block m off size) := by
  intro j mem
  have range := List.mem_range'_1.mp mem
  omega

theorem Within.bind (h : Within n x) (rest : ∀ a, Within n (f a)) : Within n (x >>= f) := by
  intro i mem
  change i ∈ (match x.value with
    | none => (⟨none, x.reads⟩ : Fetch β)
    | some a => ⟨(f a).value, x.reads ++ (f a).reads⟩).reads at mem
  cases result : x.value with
  | none =>
      rw [result] at mem
      exact h i mem
  | some a =>
      rw [result] at mem
      rcases List.mem_append.mp mem with first | later
      · exact h i first
      · exact rest a i later

/-- What is checked holds in the rest of the program. -/
theorem within_check_bind {c : Prop} [Decidable c] {f : Unit → Fetch β}
    (rest : c → Within n (f ())) : Within n (check c >>= f) := by
  by_cases h : c
  · rw [check, if_pos h]
    exact (within_pure ()).bind fun _ => rest h
  · rw [check, if_neg h]
    intro i mem
    cases mem

/-! ### Programs that succeed -/

/-- The program returns `a` and reads only addresses below `n`. -/
structure Yields (n : Nat) (x : Fetch α) (a : α) : Prop where
  value : x.value = some a
  within : Within n x

theorem yields_pure (a : α) : Yields n (pure a) a := ⟨rfl, within_pure a⟩

theorem yields_byte {m : Mem} {i : Nat} (h : i < n) : Yields n (byte m i) (m i) :=
  ⟨rfl, within_byte h⟩

/-- What the first part returned is known in the rest of the program. -/
theorem Yields.bind {a : α} {b : β} (first : Yields n x a) (rest : Yields n (f a) b) :
    Yields n (x >>= f) b := by
  have run : x >>= f = ⟨(f a).value, x.reads ++ (f a).reads⟩ := by
    change (match x.value with
      | none => (⟨none, x.reads⟩ : Fetch β)
      | some a => ⟨(f a).value, x.reads ++ (f a).reads⟩) = _
    rw [first.value]
  rw [run]
  refine ⟨rest.value, fun i mem => ?_⟩
  rcases List.mem_append.mp mem with mem | mem
  · exact first.within i mem
  · exact rest.within i mem

/-- A view has the value of the memory itself when no other byte matters. -/
theorem yields_view {m : Mem} {off size : Nat} {f : Mem → α} (h : off + size ≤ n)
    (loc : ∀ m', (∀ k < size, m' k = m.shift off k) → f m' = f (m.shift off)) :
    Yields n (view m off size f) (f (m.shift off)) := by
  have same : f (zeroPadded (m.bytes off size)) = f (m.shift off) := by
    refine loc _ fun k hk => ?_
    have inside : k < (m.bytes off size).length := by simpa using hk
    exact (ofList_apply_lt _ inside).trans (getElem_bytes m off size k inside)
  have read : Yields n (block m off size) (m.bytes off size) := ⟨rfl, within_block h⟩
  refine read.bind ?_
  rw [← same]
  exact yields_pure _

end Fetch

end Ok3506
