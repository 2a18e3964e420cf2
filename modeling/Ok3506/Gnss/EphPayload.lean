import Ok3506.Lib.Double
import Ok3506.Lib.Reader
import Ok3506.Gnss.Ephemeris
import Mathlib.Analysis.Real.Pi.Bounds

/-!
The records as they are sent.

A decoded record is a packed structure: its members stand one behind the other, the integers
and the doubles low byte first, and `net_send_eph` gets the bytes behind the head, without the
reserved bits and the checksum. The other side reads the members back, the angles rounded, and
two frames have the same bytes exactly when the decoder read the same raw fields from them.
-/

namespace Ok3506.Gnss

open Mem Bits Reader

/-! ### Doubles -/

/-- `M_PI` -/
def mPi : ℚ := Double.round (314159265358979323846 / 10 ^ 20)

/-- `1.0e-10` -/
def tenthNsDouble : ℚ := Double.round (1 / 10 ^ 10)

/-- `scale_pow2` and its variants, as they are computed. -/
def scalePow2Double (raw exp : Int) : ℚ := Double.ldexp (Double.ofInt raw) exp

/-- `scale_pi_pow2` and its variants, as they are computed. -/
def scalePiPow2Double (raw exp : Int) : ℚ :=
  Double.mul (Double.ldexp (Double.ofInt raw) exp) mPi

/-- `scale_tenth_ns`, as it is computed. -/
def scaleTenthNsDouble (raw : Int) : ℚ := Double.mul (Double.ofInt raw) tenthNsDouble

/-! ### Packed members -/

/-- A member: an unsigned integer of some bytes, or a double from one of the scale functions. -/
inductive CMember where
  | uint (bytes : Nat)
  | pow2
  | piPow2
  | tenthNs
  deriving DecidableEq, Repr

namespace CMember

/-- The number that is rounded last, before it is stored. -/
def number : CMember → RatPi → ℚ
  | uint _, x | pow2, x => x.rat
  | piPow2, x => x.pi * mPi
  | tenthNs, x => x.rat * 10 ^ 10 * tenthNsDouble

def size : CMember → Nat
  | uint n => n
  | pow2 | piPow2 | tenthNs => 8

/-- The bytes of a member as the compiler lays it out: little-endian, at its size. -/
def bytes : CMember → RatPi → List UInt8
  | uint n, x => littleEndianBytes n x.rat.num.toNat
  | pow2, x => littleEndianBytes 8 (Double.word (number pow2 x))
  | piPow2, x => littleEndianBytes 8 (Double.word (number piPow2 x))
  | tenthNs, x => littleEndianBytes 8 (Double.word (number tenthNs x))

@[simp] theorem length_bytes (t : CMember) (x : RatPi) : (t.bytes x).length = t.size := by
  cases t <;> exact length_littleEndianBytes _ _

end CMember

/-- The members of the structures of `gnss_func.h` behind the head. -/
def members : EphKind → List CMember
  | .bd2 =>
      [.uint 2, .uint 4, .uint 1, .uint 1, .uint 1, .uint 2, .uint 4, .uint 4, .pow2, .pow2,
       .pow2, .uint 1, .uint 1, .piPow2, .pow2, .pow2, .pow2, .pow2, .pow2, .pow2, .piPow2,
       .piPow2, .pow2, .pow2, .piPow2, .piPow2, .piPow2, .piPow2, .tenthNs, .tenthNs, .uint 1,
       .uint 4]
  | .bd3 =>
      [.uint 2, .uint 4, .uint 1, .uint 1, .uint 2, .uint 4, .uint 4, .pow2, .pow2, .pow2,
       .uint 1, .uint 2, .piPow2, .pow2, .pow2, .pow2, .pow2, .pow2, .pow2, .piPow2, .piPow2,
       .piPow2, .pow2, .pow2, .pow2, .piPow2, .piPow2, .piPow2, .piPow2, .pow2, .pow2, .pow2,
       .uint 1, .uint 4]
  | .bd3cnav2 =>
      [.uint 2, .uint 4, .uint 1, .uint 1, .uint 2, .uint 4, .uint 4, .pow2, .pow2, .pow2,
       .uint 1, .uint 2, .piPow2, .pow2, .pow2, .pow2, .pow2, .pow2, .pow2, .piPow2, .pow2,
       .piPow2, .pow2, .pow2, .pow2, .piPow2, .piPow2, .piPow2, .piPow2, .pow2, .pow2, .pow2,
       .uint 1, .uint 4]
  | .bd3cnav3 =>
      [.uint 2, .uint 4, .uint 1, .uint 1, .uint 2, .uint 4, .uint 4, .pow2, .pow2, .pow2,
       .uint 1, .uint 2, .piPow2, .pow2, .pow2, .pow2, .pow2, .pow2, .pow2, .piPow2, .pow2,
       .piPow2, .pow2, .pow2, .pow2, .piPow2, .piPow2, .piPow2, .piPow2, .pow2, .uint 4,
       .uint 4]
  | .bdxw =>
      [.uint 2, .uint 4, .uint 1, .uint 1, .uint 2, .uint 4, .uint 4, .pow2, .pow2, .uint 1,
       .uint 1, .pow2, .pow2, .piPow2, .piPow2, .piPow2, .piPow2, .piPow2, .piPow2, .piPow2,
       .piPow2, .piPow2, .piPow2, .piPow2, .pow2, .pow2, .piPow2, .pow2, .piPow2, .piPow2,
       .piPow2, .piPow2, .uint 8, .uint 4]
  | .gps =>
      [.uint 2, .uint 4, .uint 1, .uint 1, .uint 1, .uint 2, .uint 2, .uint 2, .pow2, .pow2,
       .pow2, .uint 1, .uint 2, .pow2, .pow2, .pow2, .pow2, .pow2, .pow2, .pow2, .pow2, .pow2,
       .pow2, .pow2, .pow2, .pow2, .pow2, .pow2, .pow2, .uint 1, .uint 1, .uint 1, .uint 1,
       .uint 4]
  | .glo =>
      [.uint 2, .uint 4, .uint 1, .uint 1, .uint 1, .uint 1, .uint 2, .uint 2, .uint 1, .pow2,
       .pow2, .pow2, .pow2, .pow2, .pow2, .pow2, .pow2, .pow2, .pow2, .pow2, .uint 4]
  | .gal =>
      [.uint 2, .uint 4, .uint 1, .uint 1, .uint 1, .uint 1, .uint 1, .uint 1, .uint 2, .uint 4,
       .uint 4, .pow2, .pow2, .pow2, .uint 2, .piPow2, .pow2, .pow2, .pow2, .pow2, .pow2, .pow2,
       .piPow2, .piPow2, .pow2, .pow2, .piPow2, .piPow2, .piPow2, .piPow2, .pow2, .pow2,
       .uint 1, .uint 1, .uint 4]

/-- `sizeof(eph)`, with the head. -/
def sizeofEph (k : EphKind) : Nat := 8 + ((members k).map CMember.size).sum

/-- The number of bytes that each case subtracts from `sizeof(eph)`, which are the members
that are not sent. -/
def ephCut : EphKind → Nat
  | .bd2 => 13
  | .bd3 => 13
  | .bd3cnav2 => 13
  | .bd3cnav3 => 16
  | .bdxw => 20
  | .gps => 13
  | .glo => 12
  | .gal => 13

/-- The structure behind the head, at `(uint8_t *)&eph + 8`. -/
def ephBody (k : EphKind) (eph : EphRecord) : List UInt8 :=
  (List.zipWith CMember.bytes (members k) eph.fields).flatten

/-- The bytes that `handle_gnss_raw` passes to `net_send_eph`. -/
def ephPayload (k : EphKind) (eph : EphRecord) : List UInt8 :=
  (ephBody k eph).take (sizeofEph k - ephCut k)

/-- The members that are sent: all but the reserved bits and the checksum; GLONASS has no
reserved bits. -/
def sentMembers (k : EphKind) : List CMember :=
  (members k).take ((members k).length - if k = .glo then 1 else 2)

theorem sum_size_sentMembers (k : EphKind) :
    ((sentMembers k).map CMember.size).sum = sizeofEph k - ephCut k := by
  cases k <;> decide

/-! ### The other side -/

/-- Reads a member from the bytes that are sent, as the receiver of the struct does. -/
def CMember.read : CMember → Reader ℚ
  | uint n => do return (← littleEndian n : Nat)
  | pow2 | piPow2 | tenthNs => do return Double.value (← littleEndian 8)

/-- Reads members that lie one behind the other. -/
def readMembers : List CMember → Reader (List ℚ)
  | [] => return []
  | t :: ts => do
      let x ← t.read
      let xs ← readMembers ts
      return x :: xs

/-- What is read for a member: integers and powers of two exactly, the others rounded. -/
def Receives : CMember × ℚ → RatPi → Prop
  | (.uint _, v), x | (.pow2, v), x => x = .ofRat v
  | (.piPow2, v), x | (.tenthNs, v), x => |(v : ℝ) - x.toReal| ≤ |x.toReal| / 2 ^ 51

/-! ### The raw fields that are read -/

/-- The fields as they are read: of the GPS `m0`, 22 bits. -/
def readLayout : EphKind → List WireField
  | .gps => gpsLayout.set 21 (.signedPow2 22 (-31))
  | k => layout k

/-- The raw fields of a frame as the decoder reads them; of the `m0` of GPS it reads the
upper 22 bits. -/
def readRaws (k : EphKind) (m : Mem) : List Nat :=
  let raws := readFields m 64 (widths (layout k))
  if k = .gps then raws.modify 21 (· / 2 ^ 10) else raws

/-- The raw fields of the members that are sent. -/
def sentRaws (k : EphKind) (m : Mem) : List Nat := (readRaws k m).take (sentMembers k).length

/-! ### Members and raw fields -/

theorem abs_int_lt {f : WireField} {raw : Nat} (fits : raw < 2 ^ f.width) (short : f.width ≤ 51) :
    |f.int raw| < 2 ^ 52 := by
  have low : 2 ^ f.width ≤ 2 ^ 51 := Nat.pow_le_pow_right (by decide) short
  have cast : ((2 ^ f.width : Nat) : Int) = 2 ^ f.width := by push_cast; rfl
  rw [abs_lt, WireField.int, toSigned]
  split
  · split <;> omega
  · omega

theorem close_mPi : |mPi - 314159265358979323846 / 10 ^ 20| ≤
    314159265358979323846 / 10 ^ 20 / 2 ^ 53 := by
  refine Double.abs_round_sub_le_of_pos ?_
  calc
    (2 : ℚ) ^ (-1022 : ℤ) ≤ 1 := zpow_le_one_of_nonpos₀ one_le_two (by decide)
    _ ≤ 314159265358979323846 / 10 ^ 20 := by norm_num

theorem close_tenthNsDouble : |tenthNsDouble - 1 / 10 ^ 10| ≤ 1 / 10 ^ 10 / 2 ^ 53 := by
  refine Double.abs_round_sub_le_of_pos ?_
  calc
    (2 : ℚ) ^ (-1022 : ℤ) ≤ 2 ^ (-34 : ℤ) := zpow_le_zpow_right₀ one_le_two (by decide)
    _ ≤ 1 / 10 ^ 10 := by norm_num

theorem close_mPi_pi : |(mPi : ℝ) - Real.pi| ≤ Real.pi / 2 ^ 52 := by
  have close : |(mPi : ℝ) - 314159265358979323846 / 10 ^ 20| ≤
      314159265358979323846 / 10 ^ 20 / 2 ^ 53 := by
    have cast := (Rat.cast_le (K := ℝ)).mpr close_mPi
    push_cast at cast
    exact cast
  have near := abs_le.mp close
  have low := Real.pi_gt_d20
  have high := Real.pi_lt_d20
  rw [abs_le]
  constructor <;> linarith

theorem mPi_bounds : 3 ≤ mPi ∧ mPi ≤ 4 := by
  have := abs_le.mp close_mPi
  constructor <;> linarith

/-- A member that holds every value of a raw field. -/
inductive Stored : CMember → WireField → Prop where
  | uint {n w : Nat} (room : w ≤ 8 * n) : Stored (.uint n) (.uint w)
  | times {n w k : Nat} [NeZero k] (room : 2 ^ w * k ≤ 2 ^ (8 * n)) :
      Stored (.uint n) (.times w k)
  | signedPow2 {w : Nat} {e : Int} (short : w ≤ 51) (scale : -1000 ≤ e ∧ e ≤ 0) :
      Stored .pow2 (.signedPow2 w e)
  | unsignedPow2 {w : Nat} {e : Int} (short : w ≤ 51) (scale : -1000 ≤ e ∧ e ≤ 0) :
      Stored .pow2 (.unsignedPow2 w e)
  | signedPi {w : Nat} {e : Int} (short : w ≤ 51) (scale : -1000 ≤ e ∧ e ≤ 0) :
      Stored .piPow2 (.signedPi w e)
  | unsignedPi {w : Nat} {e : Int} (short : w ≤ 51) (scale : -1000 ≤ e ∧ e ≤ 0) :
      Stored .piPow2 (.unsignedPi w e)
  | tenthNs {w : Nat} (short : w ≤ 51) : Stored .tenthNs (.tenthNs w)

section Stored

variable {t : CMember} {f : WireField} {raw raw' : Nat}

/-- An integer member has room for every value of its raw field. -/
theorem Stored.uint_value {n : Nat} (h : Stored (.uint n) f) (fits : raw < 2 ^ f.width) :
    ∃ v : Nat, v < 256 ^ n ∧ f.value raw = .ofRat v := by
  have bytes : 2 ^ (8 * n) = 256 ^ n := by rw [Nat.pow_mul]
  cases h with
  | uint room =>
      refine ⟨raw, ?_, by simp [WireField.value, WireField.int, WireField.uint, RatPi.scale,
        RatPi.ofRat]⟩
      rw [← bytes]
      exact fits.trans_le (Nat.pow_le_pow_right (by decide) room)
  | @times _ w k _ room =>
      refine ⟨raw * k, ?_, by simp [WireField.value, WireField.int, WireField.times,
        RatPi.scale, RatPi.ofRat]⟩
      rw [← bytes]
      exact (Nat.mul_lt_mul_of_pos_right fits (NeZero.pos k)).trans_le room

theorem unit_bounds {e : Int} (scale : -1000 ≤ e ∧ e ≤ 0) :
    (2 : ℚ) ^ (-1022 : ℤ) ≤ 2 ^ e ∧ (2 : ℚ) ^ e ≤ 1 :=
  ⟨zpow_le_zpow_right₀ one_le_two (by omega), zpow_le_one_of_nonpos₀ one_le_two scale.2⟩

theorem angle_bounds {e : Int} (scale : -1000 ≤ e ∧ e ≤ 0) :
    (2 : ℚ) ^ (-1022 : ℤ) ≤ 2 ^ e * mPi ∧ 2 ^ e * mPi ≤ 4 := by
  have pos : (0 : ℚ) < 2 ^ e := Double.two_zpow_pos e
  obtain ⟨low, high⟩ := unit_bounds scale
  have := mPi_bounds
  constructor <;> nlinarith

theorem tenthNsDouble_bounds :
    (2 : ℚ) ^ (-1022 : ℤ) ≤ tenthNsDouble ∧ tenthNsDouble ≤ 4 := by
  have close := abs_le.mp close_tenthNsDouble
  refine ⟨?_, by linarith⟩
  calc
    (2 : ℚ) ^ (-1022 : ℤ) ≤ 2 ^ (-34 : ℤ) := zpow_le_zpow_right₀ one_le_two (by decide)
    _ ≤ tenthNsDouble := by norm_num; linarith

/-- A double holds a multiple of a unit, rounded. -/
theorem Stored.unit (h : Stored t f) (double : ∀ n, t ≠ .uint n) :
    f.width ≤ 51 ∧ ∃ c : ℚ, (2 : ℚ) ^ (-1022 : ℤ) ≤ c ∧ c ≤ 4 ∧
      ∀ raw, t.number (f.value raw) = f.int raw * c := by
  cases h with
  | uint => exact absurd rfl (double _)
  | times => exact absurd rfl (double _)
  | signedPow2 short scale | unsignedPow2 short scale =>
      obtain ⟨low, high⟩ := unit_bounds scale
      exact ⟨short, _, low, high.trans (by norm_num), fun raw => rfl⟩
  | signedPi short scale | unsignedPi short scale =>
      obtain ⟨low, high⟩ := angle_bounds scale
      exact ⟨short, _, low, high, fun raw => mul_assoc _ _ _⟩
  | tenthNs short =>
      obtain ⟨low, high⟩ := tenthNsDouble_bounds
      refine ⟨short, tenthNsDouble, low, high, fun raw => ?_⟩
      simp only [CMember.number, WireField.value, WireField.tenthNs, RatPi.scale]
      ring

/-- The number that a receiver of the payload reads for a member: the double nearest to it,
or the integer. -/
def CMember.received : CMember → RatPi → ℚ
  | uint _, x => x.rat
  | t, x => Double.round (t.number x)

/-! The doubles are those of the scale functions. -/

theorem ofInt_eq {n : Int} (places : |n| < 2 ^ 53) : Double.ofInt n = n := by
  have whole := Double.round_dyadic (e := 0) places (by decide)
  rwa [zpow_zero, mul_one] at whole

theorem received_scalePow2 {n e : Int} (places : |n| < 2 ^ 53) :
    CMember.pow2.received (scalePow2 n e) = scalePow2Double n e := by
  rw [scalePow2Double, ofInt_eq places]
  rfl

theorem received_scalePiPow2 {n e : Int} (places : |n| < 2 ^ 53) (ge : -1074 ≤ e) :
    CMember.piPow2.received (scalePiPow2 n e) = scalePiPow2Double n e := by
  rw [scalePiPow2Double, ofInt_eq places, Double.ldexp, Double.round_dyadic places ge]
  rfl

theorem received_scaleTenthNs {n : Int} (places : |n| < 2 ^ 53) :
    CMember.tenthNs.received (scaleTenthNs n) = scaleTenthNsDouble n := by
  have count : (n : ℚ) * (1 / 10 ^ 10) * 10 ^ 10 = n := by ring
  rw [scaleTenthNsDouble, ofInt_eq places, Double.mul, ← count]
  rfl

theorem Stored.reads (h : Stored t f) (fits : raw < 2 ^ f.width) :
    Reads t.read (t.bytes (f.value raw)) (t.received (f.value raw)) := by
  have double (bytes : t.bytes (f.value raw) =
        littleEndianBytes 8 (Double.word (t.number (f.value raw))))
      (read : t.read = do return Double.value (← littleEndian 8))
      (received : t.received (f.value raw) = Double.round (t.number (f.value raw)))
      (other : ∀ n, t ≠ .uint n) :
      Reads t.read (t.bytes (f.value raw)) (t.received (f.value raw)) := by
    obtain ⟨short, c, low, high, number⟩ := h.unit other
    have pos : 0 < c := (Double.two_zpow_pos _).trans_le low
    have small : |t.number (f.value raw)| < 2 ^ 1023 := by
      have count : |(f.int raw : ℚ)| < 2 ^ 52 := by exact_mod_cast abs_int_lt fits short
      rw [number, abs_mul, abs_of_pos pos]
      calc
        |(f.int raw : ℚ)| * c ≤ 2 ^ 52 * 2 ^ 2 := by
          refine mul_le_mul count.le (high.trans (by norm_num)) pos.le (by norm_num)
        _ = 2 ^ 54 := by norm_num
        _ < 2 ^ 1023 := pow_lt_pow_right₀ one_lt_two (by decide)
    rw [bytes, read, received, ← Double.value_word small, ← List.append_nil (littleEndianBytes 8 _)]
    refine (reads_littleEndian ?_).bind (reads_pure _)
    exact Double.word_lt small
  cases t with
  | uint n =>
      obtain ⟨v, room, value⟩ := h.uint_value fits
      have back : (RatPi.ofRat (v : ℚ)).rat.num.toNat = v := by
        rw [RatPi.ofRat, Rat.num_natCast, Int.toNat_natCast]
      rw [value, CMember.bytes, back, ← List.append_nil (littleEndianBytes n v)]
      exact (reads_littleEndian room).bind (reads_pure _)
  | pow2 | piPow2 | tenthNs => exact double rfl rfl rfl fun n eq => by cases eq

theorem Stored.receives (h : Stored t f) (fits : raw < 2 ^ f.width) :
    Receives (t, t.received (f.value raw)) (f.value raw) := by
  have angle {e n : Int} (scale : -1000 ≤ e ∧ e ≤ 0) :
      |(Double.round ((n : ℚ) * 2 ^ e * mPi) : ℝ) - ((n * 2 ^ e : ℚ) : ℝ) * Real.pi| ≤
        |((n * 2 ^ e : ℚ) : ℝ) * Real.pi| / 2 ^ 51 := by
    refine Double.abs_round_mul_sub_le Real.pi_pos close_mPi_pi ?_
    rw [mul_assoc]
    exact Double.zero_or_normal (angle_bounds scale).1 n
  have places (short : f.width ≤ 51) : |f.int raw| < 2 ^ 53 :=
    (abs_int_lt fits short).trans (by norm_num)
  cases h with
  | uint room =>
      obtain ⟨v, -, value⟩ := (Stored.uint room).uint_value fits
      rw [value]
      rfl
  | times room =>
      obtain ⟨v, -, value⟩ := (Stored.times room).uint_value fits
      rw [value]
      rfl
  | signedPow2 short scale | unsignedPow2 short scale =>
      simp only [Receives, CMember.received, CMember.number, WireField.value, RatPi.scale,
        WireField.signedPow2, WireField.unsignedPow2] at places ⊢
      rw [Double.round_dyadic (places short) (by omega), mul_zero]
      rfl
  | signedPi short scale | unsignedPi short scale =>
      simp only [Receives, CMember.received, CMember.number, WireField.value, RatPi.scale,
        WireField.signedPi, WireField.unsignedPi, RatPi.toReal, mul_zero, Rat.cast_zero, zero_add]
      exact angle scale
  | @tenthNs w short =>
      have close : |(tenthNsDouble : ℝ) - 1 / 10 ^ 10| ≤ 1 / 10 ^ 10 / 2 ^ 52 := by
        have cast := (Rat.cast_le (K := ℝ)).mpr close_tenthNsDouble
        push_cast at cast
        linarith
      have error := Double.abs_round_mul_sub_le (by norm_num) close
        (Double.zero_or_normal tenthNsDouble_bounds.1 ((WireField.tenthNs w).int raw))
      have count (n : Int) : (n : ℚ) * (1 / 10 ^ 10) * 10 ^ 10 * tenthNsDouble =
          n * tenthNsDouble := by
        ring
      have exact (n : Int) : (⟨(n : ℚ) * (1 / 10 ^ 10), n * 0⟩ : RatPi).toReal =
          ((n : ℚ) : ℝ) * (1 / 10 ^ 10) := by
        simp [RatPi.toReal]
      have value : (WireField.tenthNs w).value raw =
          ⟨((WireField.tenthNs w).int raw : ℚ) * (1 / 10 ^ 10),
            ((WireField.tenthNs w).int raw : ℚ) * 0⟩ := rfl
      rw [value]
      simp only [Receives, CMember.received, CMember.number]
      rw [exact, count]
      exact error

/-- Different raw fields are received as different numbers: the rounding to double merges
none of them. -/
theorem Stored.received_injective (h : Stored t f) (fits : raw < 2 ^ f.width)
    (fits' : raw' < 2 ^ f.width)
    (same : t.received (f.value raw) = t.received (f.value raw')) : raw = raw' := by
  have double (received : ∀ x, t.received x = Double.round (t.number x))
      (other : ∀ n, t ≠ .uint n) : raw = raw' := by
    obtain ⟨short, c, low, high, number⟩ := h.unit other
    rw [received, received, number, number] at same
    have int : f.int raw = f.int raw' :=
      Double.round_mul_injective low (abs_int_lt fits short) (abs_int_lt fits' short) same
    refine f.value_inj fits fits' ?_
    rw [WireField.value, int, ← WireField.value]
  cases t with
  | uint n =>
      obtain ⟨v, -, value⟩ := h.uint_value fits
      obtain ⟨v', -, value'⟩ := h.uint_value fits'
      refine f.value_inj fits fits' ?_
      rw [value, value'] at same ⊢
      exact congrArg RatPi.ofRat same
  | pow2 | piPow2 | tenthNs => exact double (fun x => rfl) fun n eq => by cases eq

end Stored

/-- What the tables say: every member holds its field. -/
theorem stored_members (k : EphKind) : List.Forall₂ Stored (members k) (readLayout k) := by
  cases k <;> repeat' first | exact .nil | refine .cons ?_ ?_ | constructor <;> decide

/-! ### Frames -/

section Lists

variable {ts : List CMember} {fs : List WireField} {raws raws' : List Nat}

theorem reads_members (h : List.Forall₂ Stored ts fs)
    (fits : List.Forall₂ (fun w r => r < 2 ^ w) (widths fs) raws) :
    Reads (readMembers ts) (List.zipWith CMember.bytes ts (wireValues fs raws)).flatten
      (List.zipWith CMember.received ts (wireValues fs raws)) := by
  induction h generalizing raws with
  | nil => exact reads_pure []
  | @cons t f ts fs first rest ih =>
      cases fits with
      | @cons _ raw _ raws fit fits =>
          have bytes : (List.zipWith CMember.bytes (t :: ts)
              (wireValues (f :: fs) (raw :: raws))).flatten =
              t.bytes (f.value raw) ++
                ((List.zipWith CMember.bytes ts (wireValues fs raws)).flatten ++ []) := by
            rw [List.append_nil]
            rfl
          rw [bytes, readMembers]
          exact (first.reads fit).bind ((ih fits).bind (reads_pure _))

theorem receives_members (h : List.Forall₂ Stored ts fs)
    (fits : List.Forall₂ (fun w r => r < 2 ^ w) (widths fs) raws) :
    List.Forall₂ Receives (ts.zip (List.zipWith CMember.received ts (wireValues fs raws)))
      (wireValues fs raws) := by
  induction h generalizing raws with
  | nil => exact .nil
  | cons first rest ih =>
      cases fits with
      | cons fit fits => exact .cons (first.receives fit) (ih fits)

theorem received_members_injective (h : List.Forall₂ Stored ts fs)
    (fits : List.Forall₂ (fun w r => r < 2 ^ w) (widths fs) raws)
    (fits' : List.Forall₂ (fun w r => r < 2 ^ w) (widths fs) raws')
    (same : List.zipWith CMember.received ts (wireValues fs raws) =
      List.zipWith CMember.received ts (wireValues fs raws')) : raws = raws' := by
  induction h generalizing raws raws' with
  | nil =>
      cases fits
      cases fits'
      rfl
  | cons first rest ih =>
      cases fits with
      | cons fit fits =>
          cases fits' with
          | cons fit' fits' =>
              obtain ⟨head, tail⟩ := List.cons.inj same
              rw [first.received_injective fit fit' head, ih fits fits' tail]

end Lists

/-- The record that the decoder makes of the frame at the start of the memory. -/
abbrev recordOf (k : EphKind) (m : Mem) : EphRecord := ((decodeEph k).run m 0).value

/-- The 22 bits of `m0` that the GPS decoder reads are the upper ones of the 32 in the
field. -/
theorem bitsVal_m0 (m : Mem) : bitsVal m 344 32 / 2 ^ 10 = bitsVal m 344 22 := by
  have low := bitsVal_lt m (344 + 22) 10
  rw [bitsVal_add m 344 22 10]
  omega

theorem fields_decodeGpsephb (m : Mem) :
    (decodeGpsephb.run m 0).value.fields = wireValues (readLayout .gps) (readRaws .gps m) := by
  simp only [decodeGpsephb, BitReader.value_run_bind, BitReader.run_pure, run_takeHead,
    run_takeBits, run_takeSignedBits, run_peekBits, run_peekSignedBits, run_skip, Nat.reduceAdd,
    Nat.reduceMul]
  simp (disch := omega) only [GpsephbDecoded.fields, value_uint, value_uint8, value_uint16,
    value_signedPow2, value_unsignedPow2]
  rw [← bitsVal_m0]
  rfl

/-- One element of each of two related lists is changed. -/
theorem forall₂_set_modify {α β : Type} {R : α → β → Prop} {l : List α} {l' : List β} {i : Nat}
    {a : α} {g : β → β} (h : List.Forall₂ R l l')
    (changed : ∀ x y, l[i]? = some x → R x y → R a (g y)) :
    List.Forall₂ R (l.set i a) (l'.modify i g) := by
  induction h generalizing i with
  | nil =>
      rw [List.set_nil, List.modify_nil]
      exact .nil
  | cons first rest ih =>
      cases i with
      | zero => exact .cons (changed _ _ rfl first) rest
      | succ i => exact .cons first (ih fun x y at_ => changed x y at_)

theorem readRaws_fits (k : EphKind) (m : Mem) :
    List.Forall₂ (fun w r => r < 2 ^ w) (widths (readLayout k)) (readRaws k m) := by
  have fits := readFields_fits m 64 (widths (layout k))
  cases k with
  | gps =>
      refine forall₂_set_modify (i := 21) (a := 22) (g := (· / 2 ^ 10)) fits
        fun w r at_ small => ?_
      obtain rfl : w = 32 := (Option.some.inj at_).symm
      exact Nat.div_lt_of_lt_mul small
  | bd2 | bd3 | bd3cnav2 | bd3cnav3 | bdxw | glo | gal => exact fits

theorem fields_recordOf (k : EphKind) (m : Mem) :
    (recordOf k m).fields = wireValues (readLayout k) (readRaws k m) := by
  cases k with
  | gps => exact fields_decodeGpsephb m
  | bd2 | bd3 | bd3cnav2 | bd3cnav3 | bdxw | glo | gal => exact fields_decodeEph m (by decide)

/-- A prefix of the members lies in a prefix of the bytes, so cutting bytes off the end of
the struct cuts off members. -/
theorem take_flatten_bytes (ts : List CMember) (xs : List RatPi) (n : Nat) :
    (List.zipWith CMember.bytes ts xs).flatten.take ((ts.take n).map CMember.size).sum =
      (List.zipWith CMember.bytes (ts.take n) (xs.take n)).flatten := by
  induction n generalizing ts xs with
  | zero => simp
  | succ n ih =>
      cases ts with
      | nil => simp
      | cons t ts =>
          cases xs with
          | nil => simp
          | cons x xs =>
              simp only [List.take_succ_cons, List.map_cons, List.sum_cons, List.zipWith_cons_cons,
                List.flatten_cons, ← ih]
              rw [← CMember.length_bytes t x, List.take_length_add_append]

theorem take_members (k : EphKind) :
    (members k).take (sentMembers k).length = sentMembers k := by
  rw [sentMembers, List.length_take, Nat.min_eq_left (Nat.sub_le _ _)]

/-- The bytes are those of the members that are sent. -/
theorem ephPayload_eq (k : EphKind) (eph : EphRecord) :
    ephPayload k eph = (List.zipWith CMember.bytes (sentMembers k)
      (eph.fields.take (sentMembers k).length)).flatten := by
  have first := take_flatten_bytes (members k) eph.fields (sentMembers k).length
  rwa [take_members, sum_size_sentMembers] at first

/-- The wire fields that are decoded into the members that are sent. -/
def sentLayout (k : EphKind) : List WireField := (readLayout k).take (sentMembers k).length

theorem stored_sentMembers (k : EphKind) :
    List.Forall₂ Stored (sentMembers k) (sentLayout k) := by
  have taken := List.forall₂_take (sentMembers k).length (stored_members k)
  rwa [take_members] at taken

theorem sentRaws_fits (k : EphKind) (m : Mem) :
    List.Forall₂ (fun w r => r < 2 ^ w) (widths (sentLayout k)) (sentRaws k m) := by
  have taken := List.forall₂_take (sentMembers k).length (readRaws_fits k m)
  rwa [widths, ← List.map_take] at taken

theorem take_fields_recordOf (k : EphKind) (m : Mem) :
    (recordOf k m).fields.take (sentMembers k).length =
      wireValues (sentLayout k) (sentRaws k m) := by
  rw [fields_recordOf, wireValues, List.take_zipWith]
  rfl

/-- **What the other side knows.** From the bytes that are sent for a frame, the members of its
record are read back, and two frames have the same bytes exactly when the decoder read the same
raw fields from them: all but the reserved bits, and of the GPS `m0` the first 22 bits. -/
theorem ephPayload_read (k : EphKind) (m : Mem) :
    (∃ xs, Reader.whole (readMembers (sentMembers k)) (ephPayload k (recordOf k m)) = some xs ∧
      List.Forall₂ Receives ((sentMembers k).zip xs)
        ((recordOf k m).fields.take (sentMembers k).length)) ∧
      ∀ m', ephPayload k (recordOf k m') = ephPayload k (recordOf k m) ↔
        sentRaws k m' = sentRaws k m := by
  have read (m : Mem) : readMembers (sentMembers k) (ephPayload k (recordOf k m)) =
      some (List.zipWith CMember.received (sentMembers k)
        (wireValues (sentLayout k) (sentRaws k m)), []) := by
    have reads := reads_members (stored_sentMembers k) (sentRaws_fits k m) []
    rwa [List.append_nil, ← take_fields_recordOf, ← ephPayload_eq, take_fields_recordOf] at reads
  refine ⟨⟨List.zipWith CMember.received (sentMembers k)
    (wireValues (sentLayout k) (sentRaws k m)), ?_, ?_⟩,
    fun m' => ⟨fun same => ?_, fun same => ?_⟩⟩
  · rw [Reader.whole, read]
  · rw [take_fields_recordOf]
    exact receives_members (stored_sentMembers k) (sentRaws_fits k m)
  · have both := (read m').symm.trans ((congrArg _ same).trans (read m))
    rw [Option.some.injEq, Prod.mk.injEq] at both
    exact received_members_injective (stored_sentMembers k) (sentRaws_fits k m')
      (sentRaws_fits k m) both.1
  · rw [ephPayload_eq, ephPayload_eq, take_fields_recordOf, take_fields_recordOf, same]

end Ok3506.Gnss
