import Ok3506.Gnss.CrcBurst

/-!
The table-driven checksum is CRC-24Q.

`crc24qBitwise` is the defining shift register: it clocks the bits of the
message, most significant first, into a register that starts at zero. Register
and table carry the same residue after every byte, hence the same value, and
that value is the remainder of the message polynomial times `X ^ 24` modulo the
generator `0x1864CFB`.
-/

namespace Ok3506.Gnss

open Mem Bits CyclicCode

/-- The bit-serial CRC-24Q of the first `n` bits. -/
def crc24qSerial (buff : Mem) (n : Nat) : Nat :=
  (List.range n).foldl (fun crc k => crc24q.clock crc (bitAt buff k)) 0

/-- The bit-serial CRC-24Q of `len` bytes. -/
def crc24qBitwise (buff : Mem) (len : Nat) : Nat := crc24qSerial buff (8 * len)

/-- The three checksum bytes of a frame, most significant first. -/
def crcBytes (crc : Nat) : List UInt8 :=
  [UInt8.ofNat (crc / 2 ^ 16), UInt8.ofNat (crc / 2 ^ 8), UInt8.ofNat crc]

@[simp] theorem length_crcBytes (crc : Nat) : (crcBytes crc).length = 3 := rfl

theorem crc24q_short : crc24q.taps < 2 ^ (crc24q.width + 1) := by decide

theorem crc24qSerial_succ (buff : Mem) (n : Nat) :
    crc24qSerial buff (n + 1) = crc24q.clock (crc24qSerial buff n) (bitAt buff n) := by
  rw [crc24qSerial, List.range_succ, List.foldl_append, List.foldl_cons, List.foldl_nil,
    crc24qSerial]

theorem crc24qSerial_lt (buff : Mem) (n : Nat) : crc24qSerial buff n < 2 ^ 24 := by
  induction n with
  | zero => exact Nat.two_pow_pos 24
  | succ n ih =>
      rw [crc24qSerial_succ]
      exact crc24q.clock_lt crc24q_short ih _

/-- The register holds the residue of the bits clocked in, 24 places up. -/
theorem residue_crc24qSerial (buff : Mem) (n : Nat) :
    crc24q.residue (crc24qSerial buff n) =
      crc24q.x ^ 24 * crc24q.residue (bitsVal buff 0 n) := by
  induction n with
  | zero => simp [crc24qSerial, bitsVal]
  | succ n ih =>
      have bit : (bitAt buff n).toNat < 2 ^ 1 := Bool.toNat_lt _
      have append := crc24q.residue_append bit (bitsVal buff 0 n)
      rw [pow_one, pow_one] at append
      rw [crc24qSerial_succ, Generator.residue_clock, ih, bitsVal, Nat.zero_add, append]
      change _ + crc24q.x ^ 24 * _ = _
      ring

/-- **Table and register agree.** -/
theorem rtkCrc24q_eq_crc24qBitwise (buff : Mem) (len : Nat) :
    rtkCrc24q buff len = crc24qBitwise buff len := by
  apply crc24q.residue_inj (rtkCrc24q_lt buff len) (crc24qSerial_lt buff (8 * len))
  rw [residue_rtkCrc24q, residue_crc24qSerial]

/-- **The checksum is a polynomial remainder.** -/
theorem binPoly_rtkCrc24q (buff : Mem) (len : Nat) :
    binPoly (rtkCrc24q buff len) =
      (Polynomial.X ^ 24 * binPoly (bitsVal buff 0 (8 * len))) %ₘ binPoly 0x1864CFB := by
  apply crc24q.binPoly_eq_modByMonic crc24q_short (rtkCrc24q_lt buff len)
  rw [residue_rtkCrc24q, map_mul, map_pow, AdjoinRoot.mk_X]
  rfl

/-! ### The checksum of a checksummed message -/

/-- The three bytes spell the checksum they were taken from. -/
theorem crcReceived_crcBytes {m : Mem} {n crc : Nat} (lt : crc < 2 ^ 24)
    (carried : m.bytes n 3 = crcBytes crc) : crcReceived m (n + 3) = crc := by
  obtain ⟨b0, b1, b2⟩ : m n = UInt8.ofNat (crc / 2 ^ 16) ∧
      m (n + 1) = UInt8.ofNat (crc / 2 ^ 8) ∧ m (n + 2) = UInt8.ofNat crc := by
    simpa [Mem.bytes, List.range_succ, crcBytes] using carried
  rw [crcReceived_eq_sum, b0, b1, b2, UInt8.toNat_ofNat', UInt8.toNat_ofNat', UInt8.toNat_ofNat']
  omega

/-- A message followed by its checksum has the checksum zero. -/
theorem rtkCrc24q_eq_zero {m : Mem} {n : Nat} (carried : m.bytes n 3 = crcBytes (rtkCrc24q m n)) :
    rtkCrc24q m (n + 3) = 0 := by
  have matching := crcReceived_crcBytes (rtkCrc24q_lt m n) carried
  have word := (check_iff m n).mp matching.symm
  have residue := residue_rtkCrc24q m (n + 3)
  rw [word, mul_zero] at residue
  exact (crc24q.residue_eq_zero_iff (rtkCrc24q_lt m (n + 3))).mp residue

/-! ### The loop -/

/-- The running value of the loop after `k` bytes. -/
def crcAfter (buff : Mem) (len k : Nat) : Nat := ((buff.bytes 0 len).take k).foldl crcStep 0

theorem crcAfter_eq (buff : Mem) {len k : Nat} (h : k ≤ len) :
    crcAfter buff len k = rtkCrc24q buff k := by
  rw [crcAfter, take_bytes _ _ _ _ h, rtkCrc24q]

/-- **`rtk_crc24q` is CRC-24Q**: the value of the bit-serial register and the
remainder by the generator. The running value never leaves 24 bits, so the table
is never left, and behind its own checksum every message has the checksum zero. -/
theorem rtkCrc24q_is_crc24q (buff : Mem) (len : Nat) :
    rtkCrc24q buff len = crc24qBitwise buff len ∧
      binPoly (rtkCrc24q buff len) =
        (Polynomial.X ^ 24 * binPoly (bitsVal buff 0 (8 * len))) %ₘ binPoly 0x1864CFB ∧
      (∀ k ≤ len, crcAfter buff len k < 2 ^ 24) ∧
      (∀ k < len, crcIndex (crcAfter buff len k) (buff k) < tblCrc24q.length) ∧
      ∀ rest, rtkCrc24q (ofList (buff.bytes 0 len ++ crcBytes (rtkCrc24q buff len)) rest)
        (len + 3) = 0 := by
  have running : ∀ k ≤ len, crcAfter buff len k < 2 ^ 24 := by
    intro k hk
    rw [crcAfter_eq buff hk]
    exact rtkCrc24q_lt buff k
  refine ⟨rtkCrc24q_eq_crc24qBitwise buff len, binPoly_rtkCrc24q buff len, running, ?_, ?_⟩
  · intro k hk
    rw [tblCrc24q_length]
    exact crcIndex_lt (running k hk.le) (buff k)
  · intro rest
    have whole := bytes_ofList (buff.bytes 0 len ++ crcBytes (rtkCrc24q buff len)) rest
    rw [List.length_append, bytes_length] at whole
    obtain ⟨message, carried⟩ := (bytes_eq_append_iff (bytes_length buff 0 len)).mp whole
    have same := rtkCrc24q_congr fun k hk => by
      simpa using bytes_eq_bytes_iff.mp message k hk
    apply rtkCrc24q_eq_zero
    rw [same]
    simpa using carried

end Ok3506.Gnss
