import Mathlib.Data.List.Range
import Mathlib.Tactic.Common

/-!
Byte memory behind a C pointer.

A pointer is the memory seen from its own address, so pointer arithmetic is
`Mem.shift` and a read outside the object returns whatever lies there. Block
copies and little-endian words are functions on that memory; the lemmas read a
block of bytes back out of it. Nothing here refers to a particular program.
-/

namespace Ok3506

/-- The bytes seen from a pointer. -/
abbrev Mem := Nat → UInt8

namespace Mem

/-- Pointer arithmetic: the memory seen from `p` bytes further on. -/
def shift (m : Mem) (p : Nat) : Mem := fun k => m (p + k)

/-- The `n` bytes at `off`. -/
def bytes (m : Mem) (off n : Nat) : List UInt8 := (List.range n).map fun k => m (off + k)

/-- A memory that begins with the bytes of `l`; `rest` is what lies behind them. -/
def ofList (l : List UInt8) (rest : Mem) : Mem := fun k => l.getD k (rest k)

/-- A byte sequence with zeros behind it. -/
abbrev zeroPadded (l : List UInt8) : Mem := ofList l fun _ => 0

/-- `memcpy(dst + off, src, n)`; with `src` a shift of `dst` it is `memmove`. -/
def copy (dst : Mem) (off : Nat) (src : Mem) (n : Nat) : Mem := fun k =>
  if off ≤ k ∧ k < off + n then src (k - off) else dst k

/-- A byte store. -/
def store8 (m : Mem) (off : Nat) (v : UInt8) : Mem := fun k => if k = off then v else m k

/-- A little-endian 16-bit store. -/
def store16 (m : Mem) (off v : Nat) : Mem := fun k =>
  if k = off then UInt8.ofNat v else if k = off + 1 then UInt8.ofNat (v / 256) else m k

/-- A little-endian 16-bit load. -/
def load16 (m : Mem) (off : Nat) : Nat := (m off).toNat + 256 * (m (off + 1)).toNat

/-- A little-endian 32-bit load. -/
def load32 (m : Mem) (off : Nat) : Nat := load16 m off + 65536 * load16 m (off + 2)

/-- A little-endian 64-bit load. -/
def load64 (m : Mem) (off : Nat) : Nat := load32 m off + 4294967296 * load32 m (off + 4)

@[simp] theorem shift_apply (m : Mem) (p k : Nat) : shift m p k = m (p + k) := rfl

@[simp] theorem bytes_length (m : Mem) (off n : Nat) : (bytes m off n).length = n := by
  simp [bytes]

theorem bytes_one (m : Mem) (off : Nat) : bytes m off 1 = [m off] := rfl

theorem bytes_two (m : Mem) (off : Nat) : bytes m off 2 = [m off, m (off + 1)] := rfl

@[simp] theorem getElem_bytes (m : Mem) (off n k : Nat) (h : k < (bytes m off n).length) :
    (bytes m off n)[k] = m (off + k) := by
  simp [bytes]

@[simp] theorem bytes_shift (m : Mem) (p off n : Nat) :
    bytes (shift m p) off n = bytes m (p + off) n := by
  simp [bytes, Nat.add_assoc]

/-- A block is its first `a` bytes followed by the next `b`. -/
theorem bytes_append (m : Mem) (off a b : Nat) :
    bytes m off (a + b) = bytes m off a ++ bytes m (off + a) b := by
  simp [bytes, List.range_add, Nat.add_assoc, Function.comp_def]

/-- Blocks are equal exactly when the memories agree on them. -/
theorem bytes_eq_bytes_iff {m m' : Mem} {off off' n : Nat} :
    bytes m off n = bytes m' off' n ↔ ∀ k < n, m (off + k) = m' (off' + k) := by
  simp [bytes]

theorem bytes_eq_iff {m : Mem} {off : Nat} {l : List UInt8} :
    bytes m off l.length = l ↔ ∀ k (h : k < l.length), m (off + k) = l[k] := by
  constructor
  · intro h k hk
    have hget := getElem_bytes m off l.length k (by simpa using hk)
    simp only [h] at hget
    exact hget.symm
  · intro h
    apply List.ext_getElem (by simp)
    intro k hk hk'
    rw [getElem_bytes, h k hk']

theorem take_bytes (m : Mem) (off n k : Nat) (h : k ≤ n) :
    (bytes m off n).take k = bytes m off k := by
  obtain ⟨d, rfl⟩ := Nat.exists_eq_add_of_le h
  rw [bytes_append, List.take_left' (by simp)]

theorem ofList_apply_lt {l : List UInt8} {k : Nat} (rest : Mem) (h : k < l.length) :
    ofList l rest k = l[k] := by
  simp [ofList, h]

@[simp] theorem ofList_nil (m : Mem) : ofList [] m = m := rfl

@[simp] theorem bytes_ofList (l : List UInt8) (rest : Mem) :
    bytes (ofList l rest) 0 l.length = l :=
  bytes_eq_iff.mpr fun k hk => by simpa using ofList_apply_lt rest hk

/-- A block at the start: the new bytes, then what they leave of the old. -/
theorem bytes_ofList_zero (l : List UInt8) (m : Mem) (n : Nat) :
    bytes (ofList l m) 0 n = l.take n ++ (bytes m 0 n).drop (l.take n).length := by
  apply List.ext_getElem
  · simp only [bytes_length, List.length_append, List.length_drop, List.length_take]
    omega
  · intro k short _
    rw [bytes_length] at short
    rw [getElem_bytes, Nat.zero_add]
    by_cases new : k < l.length
    · rw [List.getElem_append_left (by rw [List.length_take]; omega), List.getElem_take,
        ofList_apply_lt m new]
    · have all : l.take n = l := List.take_of_length_le (by omega)
      have past : l.length ≤ k := by omega
      simp [ofList, List.getElem_append_right, all, past]

theorem ofList_apply_ge {l : List UInt8} {k : Nat} (rest : Mem) (h : l.length ≤ k) :
    ofList l rest k = rest k := by
  simp [ofList, h]

/-- Every memory begins with its first bytes. -/
theorem ofList_bytes (m : Mem) (n : Nat) : ofList (bytes m 0 n) m = m := by
  funext k
  by_cases first : k < n
  · rw [ofList_apply_lt m (by rwa [bytes_length]), getElem_bytes, Nat.zero_add]
  · exact ofList_apply_ge m (by rw [bytes_length]; omega)

/-- A copy behind a prefix lengthens it. -/
theorem copy_ofList (l l' : List UInt8) (m rest : Mem) :
    (ofList l m).copy l.length (ofList l' rest) l'.length = ofList (l ++ l') m := by
  funext k
  have total : (l ++ l').length = l.length + l'.length := List.length_append
  rw [copy]
  split
  case isTrue here =>
    rw [ofList_apply_lt rest (by omega), ofList_apply_lt m (by omega),
      List.getElem_append_right here.1]
  case isFalse elsewhere =>
    by_cases before : k < l.length
    · rw [ofList_apply_lt m before, ofList_apply_lt m (by omega), List.getElem_append_left before]
    · rw [ofList_apply_ge m (by omega), ofList_apply_ge m (by omega)]

theorem store8_eq_copy (m : Mem) (off : Nat) (v : UInt8) (rest : Mem) :
    m.store8 off v = m.copy off (ofList [v] rest) 1 := by
  funext k
  by_cases here : k = off
  · subst here
    simp [store8, copy, ofList]
  · have outside : ¬ (off ≤ k ∧ k < off + 1) := by omega
    rw [store8, copy, if_neg here, if_neg outside]

/-- A store behind a prefix lengthens it. -/
theorem store8_ofList (l : List UInt8) (m : Mem) (v : UInt8) :
    (ofList l m).store8 l.length v = ofList (l ++ [v]) m := by
  rw [store8_eq_copy _ _ _ m]
  exact copy_ofList l [v] m m

theorem store8_store8_ofList (l : List UInt8) (m : Mem) (v w : UInt8) :
    ((ofList l m).store8 l.length v).store8 (l.length + 1) w = ofList (l ++ [v, w]) m := by
  have second := store8_ofList (l ++ [v]) m w
  rw [List.length_append, List.length_singleton, List.append_assoc] at second
  rw [store8_ofList, second]
  rfl

/-- Writing over a block leaves it alone exactly when the bytes are the same. -/
theorem bytes_ofList_eq_iff {l : List UInt8} {m : Mem} {n : Nat} :
    bytes (ofList l m) 0 n = bytes m 0 n ↔ l.take n <+: bytes m 0 n := by
  rw [bytes_ofList_zero, List.prefix_iff_eq_append]

theorem copy_apply_lt {dst src : Mem} {off n k : Nat} (h : k < off) :
    copy dst off src n k = dst k := by
  rw [copy, if_neg (by omega)]

theorem copy_apply_mem {dst src : Mem} {off n k : Nat} (h : k < n) :
    copy dst off src n (off + k) = src k := by
  rw [copy, if_pos (by omega), Nat.add_sub_cancel_left]

/-- The copied block holds the bytes of the source. -/
theorem bytes_copy (dst src : Mem) (off n : Nat) :
    bytes (copy dst off src n) off n = bytes src 0 n :=
  bytes_eq_bytes_iff.mpr fun k hk => by simpa using copy_apply_mem hk

/-- A block before the destination of a copy is unchanged. -/
theorem bytes_copy_before {dst src : Mem} {off n o a : Nat} (h : o + a ≤ off) :
    bytes (copy dst off src n) o a = bytes dst o a :=
  bytes_eq_bytes_iff.mpr fun k hk => copy_apply_lt (by omega)

theorem load16_lt (m : Mem) (off : Nat) : load16 m off < 65536 := by
  have h0 := (m off).toNat_lt
  have h1 := (m (off + 1)).toNat_lt
  simp only [load16]
  omega

/-- Loads agree where the memories do. -/
theorem load16_congr {m m' : Mem} {off off' : Nat} (h : ∀ k < 2, m (off + k) = m' (off' + k)) :
    load16 m off = load16 m' off' := by
  have h0 := h 0 (by omega)
  have h1 := h 1 (by omega)
  simp only [Nat.add_zero] at h0
  rw [load16, load16, h0, h1]

theorem load32_congr {m m' : Mem} {off off' : Nat} (h : ∀ k < 4, m (off + k) = m' (off' + k)) :
    load32 m off = load32 m' off' := by
  have high : load16 m (off + 2) = load16 m' (off' + 2) :=
    load16_congr fun k hk => by simpa [Nat.add_assoc] using h (2 + k) (by omega)
  rw [load32, load32, load16_congr fun k hk => h k (by omega), high]

theorem load64_congr {m m' : Mem} {off off' : Nat} (h : ∀ k < 8, m (off + k) = m' (off' + k)) :
    load64 m off = load64 m' off' := by
  have high : load32 m (off + 4) = load32 m' (off' + 4) :=
    load32_congr fun k hk => by simpa [Nat.add_assoc] using h (4 + k) (by omega)
  rw [load64, load64, load32_congr fun k hk => h k (by omega), high]

/-- The bytes of a 16-bit word. -/
def le16 (v : Nat) : List UInt8 := [UInt8.ofNat v, UInt8.ofNat (v / 256)]

@[simp] theorem length_le16 (v : Nat) : (le16 v).length = 2 := rfl

theorem bytes_store16 (m : Mem) (off v : Nat) : bytes (store16 m off v) off 2 = le16 v := by
  simp [bytes_two, store16, le16]

theorem bytes_store8 (m : Mem) (off : Nat) (v : UInt8) : bytes (store8 m off v) off 1 = [v] := by
  simp [bytes_one, store8]

/-- A block that a 16-bit store does not touch. -/
theorem bytes_store16_of_disjoint {m : Mem} {off v o n : Nat} (h : o + n ≤ off ∨ off + 2 ≤ o) :
    bytes (store16 m off v) o n = bytes m o n :=
  bytes_eq_bytes_iff.mpr fun k hk => by rw [store16, if_neg (by omega), if_neg (by omega)]

/-- A block that a byte store does not touch. -/
theorem bytes_store8_of_disjoint {m : Mem} {off o n : Nat} {v : UInt8}
    (h : o + n ≤ off ∨ off + 1 ≤ o) : bytes (store8 m off v) o n = bytes m o n :=
  bytes_eq_bytes_iff.mpr fun k hk => by rw [store8, if_neg (by omega)]

/-- The bytes of a word spell what a load returns. -/
theorem bytes_eq_le16_iff {m : Mem} {off v : Nat} (hv : v < 65536) :
    bytes m off 2 = le16 v ↔ load16 m off = v := by
  have h0 := (m off).toNat_lt
  have h1 := (m (off + 1)).toNat_lt
  simp only [bytes_two, le16, load16, List.cons.injEq, and_true, ← UInt8.toNat_inj,
    UInt8.toNat_ofNat']
  omega

/-- A block is compared part by part. -/
theorem bytes_eq_append_iff {m : Mem} {off a b : Nat} {l l' : List UInt8} (h : l.length = a) :
    bytes m off (a + b) = l ++ l' ↔ bytes m off a = l ∧ bytes m (off + a) b = l' := by
  rw [bytes_append]
  exact ⟨fun eq => List.append_inj eq (by rw [bytes_length, h]), fun ⟨hl, hl'⟩ => by rw [hl, hl']⟩

end Mem

end Ok3506
