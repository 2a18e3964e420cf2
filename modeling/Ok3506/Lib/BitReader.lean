import Ok3506.Lib.Bits

/-!
Readers that log the bits they look at.

A `BitReader` runs on a memory from a bit position and returns a value, the
position where it stopped, and the bit ranges it read. Its last field says that
the log is honest: a memory that agrees on the logged bits gives the same run.
Readers compose in `do` blocks, so a decoder written in them is local to what it
reads by construction.
-/

namespace Ok3506

open Mem Bits

universe u v

/-- The outcome of a reader: its value, the position it stopped at, and the
ranges (offset, width) of bits it read. -/
structure Reading (α : Type u) where
  value : α
  bit : Nat
  reads : List (Nat × Nat)

namespace Reading

variable {α : Type u}

/-- Two memories carry the same bits on every range that was read. -/
def SameBits (reads : List (Nat × Nat)) (m m' : Mem) : Prop :=
  ∀ r ∈ reads, ∀ k < r.2, bitAt m (r.1 + k) = bitAt m' (r.1 + k)

/-- Every bit that was read lies below `n`. -/
def Below (x : Reading α) (n : Nat) : Prop := ∀ r ∈ x.reads, r.1 + r.2 ≤ n

instance (x : Reading α) (n : Nat) : Decidable (x.Below n) :=
  inferInstanceAs (Decidable (∀ r ∈ x.reads, r.1 + r.2 ≤ n))

theorem SameBits.of_agree {reads : List (Nat × Nat)} {m m' : Mem} {n : Nat}
    (below : ∀ r ∈ reads, r.1 + r.2 ≤ 8 * n) (agree : ∀ k < n, m k = m' k) :
    SameBits reads m m' := by
  intro r hr k hk
  have := below r hr
  rw [bitAt, bitAt, agree _ (by omega)]

end Reading

/-- A reader whose result depends on the logged bits only. -/
structure BitReader (α : Type u) where
  run : Mem → Nat → Reading α
  sound : ∀ m m' b, Reading.SameBits (run m b).reads m m' → run m' b = run m b

namespace BitReader

variable {α β : Type u}

/-- Reads nothing. -/
def pure (a : α) : BitReader α where
  run _ b := ⟨a, b, []⟩
  sound _ _ _ _ := rfl

/-- Runs `d`, then what its value asks for, from where it stopped. -/
def bind (d : BitReader α) (f : α → BitReader β) : BitReader β where
  run m b :=
    let x := d.run m b
    let y := (f x.value).run m x.bit
    ⟨y.value, y.bit, x.reads ++ y.reads⟩
  sound m m' b h := by
    have first := d.sound m m' b fun r hr => h r (List.mem_append_left _ hr)
    have second := (f (d.run m b).value).sound m m' (d.run m b).bit fun r hr =>
      h r (List.mem_append_right _ hr)
    simp only [first, second]

instance : Monad BitReader where
  pure := pure
  bind := bind

/-- Looks at the next `w` bits without moving. -/
def peek (w : Nat) (f : Mem → Nat → α)
    (hf : ∀ m m' b, (∀ k < w, bitAt m (b + k) = bitAt m' (b + k)) → f m b = f m' b) :
    BitReader α where
  run m b := ⟨f m b, b, [(b, w)]⟩
  sound m m' b h := by
    rw [hf m m' b (h (b, w) (by simp))]

/-- Moves the position by `w` bits. -/
def skip (w : Nat) : BitReader PUnit.{u + 1} where
  run _ b := ⟨⟨⟩, b + w, []⟩
  sound _ _ _ _ := rfl

/-- Memories with the same bits have the same bytes. -/
theorem bytes_eq_of_bitAt {m m' : Mem} {n : Nat} (h : ∀ j < 8 * n, bitAt m j = bitAt m' j) :
    m'.bytes 0 n = m.bytes 0 n := by
  refine bytes_eq_bytes_iff.mpr ?_
  intro k hk
  rw [Nat.zero_add]
  exact byte_eq_of_bitAt fun j hj => (h _ (by omega)).symm

theorem bytes_eq_of_sameBits {m m' : Mem} {n : Nat}
    (h : Reading.SameBits [(0, 8 * n)] m m') : m'.bytes 0 n = m.bytes 0 n := by
  refine bytes_eq_of_bitAt ?_
  intro j hj
  have bit := h (0, 8 * n) (List.mem_singleton.mpr rfl) j hj
  rwa [Nat.zero_add] at bit

/-- The first `n` bytes of the memory, wherever the position is. -/
def headBytes (n : Nat) : BitReader (List UInt8) where
  run m b := ⟨m.bytes 0 n, b, [(0, 8 * n)]⟩
  sound _ _ _ h := by rw [bytes_eq_of_sameBits h]

/-- `n` runs of the same reader, one after the other. -/
def times : Nat → BitReader α → BitReader (List α)
  | 0, _ => return []
  | n + 1, d => do
      let x ← d
      let xs ← times n d
      return x :: xs

@[simp] theorem run_pure (a : α) (m : Mem) (b : Nat) :
    (Pure.pure a : BitReader α).run m b = ⟨a, b, []⟩ := rfl

theorem value_run_bind (d : BitReader α) (f : α → BitReader β) (m : Mem) (b : Nat) :
    ((d >>= f).run m b).value = ((f (d.run m b).value).run m (d.run m b).bit).value := rfl

theorem reads_run_bind (d : BitReader α) (f : α → BitReader β) (m : Mem) (b : Nat) :
    ((d >>= f).run m b).reads =
      (d.run m b).reads ++ ((f (d.run m b).value).run m (d.run m b).bit).reads := rfl

theorem bit_run_bind (d : BitReader α) (f : α → BitReader β) (m : Mem) (b : Nat) :
    ((d >>= f).run m b).bit = ((f (d.run m b).value).run m (d.run m b).bit).bit := rfl

/-- **Locality.** A run that stays within the first `n` bytes is determined by
them. -/
theorem run_eq_of_agree (d : BitReader α) {m m' : Mem} {b n : Nat}
    (below : (d.run m b).Below (8 * n)) (agree : ∀ k < n, m k = m' k) :
    d.run m' b = d.run m b :=
  d.sound m m' b (.of_agree below agree)

/-! ### Readers that only move forward -/

/-- The reader moves forward and reads nothing behind the position it stops at. -/
def Forward (d : BitReader α) : Prop :=
  ∀ m b, b ≤ (d.run m b).bit ∧ ∀ r ∈ (d.run m b).reads, r.1 + r.2 ≤ (d.run m b).bit

theorem forward_pure (a : α) : Forward (Pure.pure a : BitReader α) :=
  fun _ b => ⟨le_refl b, fun _ h => by cases h⟩

theorem Forward.bind {d : BitReader α} {f : α → BitReader β} (hd : Forward d)
    (hf : ∀ a, Forward (f a)) : Forward (d >>= f) := by
  intro m b
  obtain ⟨move, within⟩ := hd m b
  obtain ⟨move', within'⟩ := hf (d.run m b).value m (d.run m b).bit
  refine ⟨move.trans move', ?_⟩
  intro r hr
  rcases List.mem_append.mp hr with hr | hr
  · exact (within r hr).trans move'
  · exact within' r hr

theorem Forward.times {d : BitReader α} (hd : Forward d) (n : Nat) : Forward (times n d) := by
  induction n with
  | zero => exact forward_pure []
  | succ n ih => exact hd.bind fun x => ih.bind fun xs => forward_pure (x :: xs)

/-- A reader of fixed length, repeated. -/
theorem bit_run_times {d : BitReader α} {w : Nat} (fixed : ∀ m b, (d.run m b).bit = b + w)
    (n : Nat) (m : Mem) (b : Nat) : ((times n d).run m b).bit = b + w * n := by
  induction n generalizing b with
  | zero => rfl
  | succ n ih =>
      rw [times, bit_run_bind, bit_run_bind, ih, fixed, run_pure]
      ring

/-! ### Readers of lists -/

/-- `n` runs give `n` values. -/
theorem length_value_times (d : BitReader α) (n : Nat) (m : Mem) (b : Nat) :
    ((times n d).run m b).value.length = n := by
  induction n generalizing b with
  | zero => rfl
  | succ n ih => rw [times, value_run_bind, value_run_bind, run_pure, List.length_cons, ih]

/-- The `i`-th value is read where the first `i` runs stop. -/
theorem getElem?_value_times (d : BitReader α) (m : Mem) {n i : Nat} (h : i < n) (b : Nat) :
    ((times n d).run m b).value[i]? = some (d.run m ((times i d).run m b).bit).value := by
  induction n generalizing i b with
  | zero => omega
  | succ n ih =>
      rw [times, value_run_bind, value_run_bind, run_pure]
      cases i with
      | zero => rfl
      | succ i =>
          rw [List.getElem?_cons_succ, ih (Nat.lt_of_succ_lt_succ h), times, bit_run_bind,
            bit_run_bind, run_pure]

/-- Each value was read somewhere. -/
theorem exists_of_mem_value_times {d : BitReader α} {m : Mem} {n b : Nat} {x : α}
    (h : x ∈ ((times n d).run m b).value) : ∃ b', (d.run m b').value = x := by
  obtain ⟨i, get⟩ := List.mem_iff_getElem?.mp h
  have inside := (List.getElem?_eq_some_iff.mp get).1
  rw [length_value_times] at inside
  rw [getElem?_value_times d m inside, Option.some.injEq] at get
  exact ⟨_, get⟩

/-- Where the encoding of a value stands, the reader finds what `value` gives of
it and stops behind it. -/
def Inverts {γ : Type v} (d : BitReader α) (encode : γ → List Bool) (value : γ → α) : Prop :=
  ∀ m b x, Spells m b (encode x) →
    (d.run m b).value = value x ∧ (d.run m b).bit = b + (encode x).length

/-- The encodings of a list, one behind the other, are read one after the other. -/
theorem Inverts.times {γ : Type v} {d : BitReader α} {encode : γ → List Bool} {value : γ → α}
    (each : d.Inverts encode value) {m : Mem} {b : Nat} {xs : List γ}
    (h : Spells m b (xs.flatMap encode)) :
    ((times xs.length d).run m b).value = xs.map value ∧
      ((times xs.length d).run m b).bit = b + (xs.flatMap encode).length := by
  induction xs generalizing b with
  | nil => exact ⟨rfl, rfl⟩
  | cons x xs ih =>
      rw [List.flatMap_cons, spells_append] at h
      obtain ⟨first, stop⟩ := each m b x h.1
      obtain ⟨later, last⟩ := ih (stop ▸ h.2)
      rw [List.length_cons, BitReader.times, List.flatMap_cons, List.length_append]
      simp only [value_run_bind, bit_run_bind, run_pure, first, later, last]
      exact ⟨rfl, by rw [stop, Nat.add_assoc]⟩

end BitReader

end Ok3506
