import Ok3506.Gnss.Layout

/-!
The three BDS-3 records side by side.

CNAV1, CNAV2 and CNAV3 frames carry the same fields from the GPS week to
`omegadot`, and `bd3Common` says what each decoder makes of them. They agree on
all members but `delta_n0_dot`, which only `decode_bd3ephb` multiplies by π. All
three read the angles and the axis offset unsigned.
-/

namespace Ok3506.Gnss

open Mem Bits

/-! ### The shared members -/

/-- The members that the three records share, in the order of the frame. -/
@[ext]
structure Bd3Common where
  (gpsWeekCount gpsTowS satid sattype week toe toc : Nat)
  (af0 af1 af2 : RatPi)
  (iode iodc : Nat)
  (idot crs crc cus cuc cis cic deltaN0 deltaN0Dot m0 ecc deltaA adot : RatPi)
  (omega0 i0 omega omegadot : RatPi)

def Bd3ephbDecoded.common (r : Bd3ephbDecoded) : Bd3Common :=
  ⟨r.gpsWeekCount, r.gpsTowS, r.bd3Satid, r.bd3Sattype, r.bd3Week, r.bd3Toe, r.bd3Toc, r.bd3Af0,
   r.bd3Af1, r.bd3Af2, r.bd3Iode, r.bd3Iodc, r.bd3Idot, r.bd3Crs, r.bd3Crc, r.bd3Cus, r.bd3Cuc,
   r.bd3Cis, r.bd3Cic, r.bd3DeltaN0, r.bd3DeltaN0Dot, r.bd3M0, r.bd3Ecc, r.bd3DeltaA, r.bd3Adot,
   r.bd3Omega0, r.bd3I0, r.bd3Omega, r.bd3Omegadot⟩

def Bd3cnav2ephbDecoded.common (r : Bd3cnav2ephbDecoded) : Bd3Common :=
  ⟨r.gpsWeekCount, r.gpsTowS, r.bdsSatid, r.bdsSattype, r.bdsWeek, r.bdsToe, r.bdsToc, r.bdsAf0,
   r.bdsAf1, r.bdsAf2, r.bdsIode, r.bdsIodc, r.bdsIdot, r.bdsCrs, r.bdsCrc, r.bdsCus, r.bdsCuc,
   r.bdsCis, r.bdsCic, r.bdsDeltaN0, r.bdsDeltaN0Dot, r.bdsM0, r.bdsEcc, r.bdsAA, r.bdsAdot,
   r.bdsOmega0, r.bdsI0, r.bdsOmega, r.bdsOmegadot⟩

def Bd3cnav3ephbDecoded.common (r : Bd3cnav3ephbDecoded) : Bd3Common :=
  ⟨r.gpsWeekCount, r.gpsTowS, r.bdsSatid, r.bdsSattype, r.bdsWeek, r.bdsToe, r.bdsToc, r.bdsAf0,
   r.bdsAf1, r.bdsAf2, r.bdsIode, r.bdsIodc, r.bdsIdot, r.bdsCrs, r.bdsCrc, r.bdsCus, r.bdsCuc,
   r.bdsCis, r.bdsCic, r.bdsDeltaN0, r.bdsDeltaN0Dot, r.bdsM0, r.bdsEcc, r.bdsDeltaA, r.bdsAdot,
   r.bdsOmega0, r.bdsI0, r.bdsOmega, r.bdsOmegadot⟩

/-- What the three decoders make of one frame. -/
def bd3Readings (m : Mem) : List Bd3Common :=
  [(decodeBd3ephb.run m 0).value.common, (decodeBd3cnav2ephb.run m 0).value.common,
   (decodeBd3cnav3ephb.run m 0).value.common]

/-- The shared members of a frame, with `rate` for the unit of `delta_n0_dot`. -/
def bd3Common (rate : WireField) (m : Mem) : Bd3Common where
  gpsWeekCount := bitsVal m 64 12
  gpsTowS := bitsVal m 76 20
  satid := bitsVal m 96 6
  sattype := bitsVal m 102 3
  week := bitsVal m 105 13
  toe := bitsVal m 118 11 * 300
  toc := bitsVal m 129 11 * 300
  af0 := (WireField.signedPow2 25 (-34)).value (bitsVal m 140 25)
  af1 := (WireField.signedPow2 22 (-50)).value (bitsVal m 165 22)
  af2 := (WireField.signedPow2 11 (-66)).value (bitsVal m 187 11)
  iode := bitsVal m 198 8
  iodc := bitsVal m 206 16
  idot := (WireField.signedPi 15 (-44)).value (bitsVal m 222 15)
  crs := (WireField.signedPow2 24 (-8)).value (bitsVal m 237 24)
  crc := (WireField.signedPow2 24 (-8)).value (bitsVal m 261 24)
  cus := (WireField.signedPow2 21 (-30)).value (bitsVal m 285 21)
  cuc := (WireField.signedPow2 21 (-30)).value (bitsVal m 306 21)
  cis := (WireField.signedPow2 16 (-30)).value (bitsVal m 327 16)
  cic := (WireField.signedPow2 16 (-30)).value (bitsVal m 343 16)
  deltaN0 := (WireField.signedPi 17 (-44)).value (bitsVal m 359 17)
  deltaN0Dot := rate.value (bitsVal m 376 23)
  m0 := (WireField.unsignedPi 33 (-32)).value (bitsVal m 399 33)
  ecc := (WireField.unsignedPow2 33 (-34)).value (bitsVal m 432 33)
  deltaA := (WireField.unsignedPow2 26 (-9)).value (bitsVal m 465 26)
  adot := (WireField.signedPow2 25 (-21)).value (bitsVal m 491 25)
  omega0 := (WireField.unsignedPi 33 (-32)).value (bitsVal m 516 33)
  i0 := (WireField.unsignedPi 33 (-32)).value (bitsVal m 549 33)
  omega := (WireField.unsignedPi 33 (-32)).value (bitsVal m 582 33)
  omegadot := (WireField.signedPi 19 (-44)).value (bitsVal m 615 19)

section Readings

variable (m : Mem)

theorem common_decodeBd3ephb :
    (decodeBd3ephb.run m 0).value.common = bd3Common (.signedPi 23 (-57)) m := by
  simp only [decodeBd3ephb, BitReader.value_run_bind, BitReader.run_pure, run_takeHead,
    run_takeBits, run_takeBits64, run_takeSignedBits64, run_peekBits, Nat.reduceAdd,
    Nat.reduceMul]
  simp (disch := omega) only [Bd3ephbDecoded.common, readBitsBe_eq, uint8_bitsVal, uint16_bitsVal,
    uint32_bitsVal_mul, value_signedPow264, value_signedPi64, value_unsignedPow264,
    value_int64Pow2, value_int64Pi]
  rfl

theorem common_decodeBd3cnav2ephb :
    (decodeBd3cnav2ephb.run m 0).value.common = bd3Common (.signedPow2 23 (-57)) m := by
  simp only [decodeBd3cnav2ephb, BitReader.value_run_bind, BitReader.run_pure, run_takeHead,
    run_takeBits, run_takeBits64, run_takeSignedBits64, run_peekBits, Nat.reduceAdd,
    Nat.reduceMul]
  simp (disch := omega) only [Bd3cnav2ephbDecoded.common, readBitsBe_eq, uint8_bitsVal,
    uint16_bitsVal, uint32_bitsVal_mul, value_signedPow264, value_signedPi64,
    value_unsignedPow264, value_int64Pow2, value_int64Pi]
  rfl

theorem common_decodeBd3cnav3ephb :
    (decodeBd3cnav3ephb.run m 0).value.common = bd3Common (.signedPow2 23 (-57)) m := by
  simp only [decodeBd3cnav3ephb, BitReader.value_run_bind, BitReader.run_pure, run_takeHead,
    run_takeBits, run_takeBits64, run_takeSignedBits64, run_peekBits, Nat.reduceAdd,
    Nat.reduceMul]
  simp (disch := omega) only [Bd3cnav3ephbDecoded.common, readBitsBe_eq, uint8_bitsVal,
    uint16_bitsVal, uint32_bitsVal_mul, value_signedPow264, value_signedPi64,
    value_unsignedPow264, value_int64Pow2, value_int64Pi]
  rfl

theorem bd3Readings_eq :
    bd3Readings m = [bd3Common (.signedPi 23 (-57)) m, bd3Common (.signedPow2 23 (-57)) m,
      bd3Common (.signedPow2 23 (-57)) m] := by
  rw [bd3Readings, common_decodeBd3ephb, common_decodeBd3cnav2ephb, common_decodeBd3cnav3ephb]

/-! ### Agreement -/

/-- The three decoders agree on every shared member. -/
def ReadAlike (m : Mem) : Prop := ∀ c ∈ bd3Readings m, ∀ c' ∈ bd3Readings m, c = c'

variable {m}

theorem rate_eq_zero (alike : ReadAlike m) : bitsVal m 376 23 = 0 := by
  have lt := bitsVal_lt m 376 23
  rw [ReadAlike, bd3Readings_eq] at alike
  have same := alike (bd3Common (.signedPi 23 (-57)) m) (by simp)
    (bd3Common (.signedPow2 23 (-57)) m) (by simp)
  have rate := congrArg Bd3Common.deltaN0Dot same
  exact ((WireField.signedPi_eq_signedPow2 lt lt).mp rate).1

theorem bd3Common_of_rate_zero (zero : bitsVal m 376 23 = 0) :
    bd3Common (.signedPi 23 (-57)) m = bd3Common (.signedPow2 23 (-57)) m := by
  have lt := bitsVal_lt m 376 23
  have rate : (WireField.signedPi 23 (-57)).value (bitsVal m 376 23) =
      (WireField.signedPow2 23 (-57)).value (bitsVal m 376 23) :=
    (WireField.signedPi_eq_signedPow2 lt lt).mpr ⟨zero, zero⟩
  rw [bd3Common, rate, bd3Common]

/-- **The three decoders agree exactly on frames whose `delta_n0_dot` is zero.** -/
theorem readAlike_iff (m : Mem) : ReadAlike m ↔ bitsVal m 376 23 = 0 := by
  refine ⟨rate_eq_zero, fun zero => ?_⟩
  rw [ReadAlike, bd3Readings_eq, bd3Common_of_rate_zero zero]
  simp

/-- Only the last bit of `delta_n0_dot` is set. -/
theorem not_readAlike_rate : ¬ ReadAlike fun k => if k = 49 then 2 else 0 := by
  intro alike
  exact absurd (rate_eq_zero alike) (by decide)

end Readings

/-! ### Signed members -/

/-- The members read by `(int64_t)read_bits_be64`. -/
inductive CastMember where
  | m0
  | deltaA
  | omega0
  | i0
  | omega

namespace CastMember

def of (c : Bd3Common) : CastMember → RatPi
  | m0 => c.m0
  | deltaA => c.deltaA
  | omega0 => c.omega0
  | i0 => c.i0
  | omega => c.omega

def offset : CastMember → Nat
  | m0 => 399
  | deltaA => 465
  | omega0 => 516
  | i0 => 549
  | omega => 582

/-- The field as a two's-complement number. -/
def signed : CastMember → WireField
  | deltaA => .signedPow2 26 (-9)
  | _ => .signedPi 33 (-32)

/-- The field as a natural number. -/
def unsigned : CastMember → WireField
  | deltaA => .unsignedPow2 26 (-9)
  | _ => .unsignedPi 33 (-32)

/-- Half the period: 65536 m for the axis offset, π for an angle. -/
def bound : CastMember → RatPi
  | deltaA => .ofRat 65536
  | _ => ⟨0, 1⟩

/-- The two's-complement value of the field in `m`. -/
def value (m : Mem) (f : CastMember) : RatPi := f.signed.value (bitsVal m f.offset f.signed.width)

variable (m : Mem) (f : CastMember)

theorem of_bd3Common (rate : WireField) :
    f.of (bd3Common rate m) = f.unsigned.value (bitsVal m f.offset f.signed.width) := by
  cases f <;> rfl

/-- A cast keeps the sign only when there is none. -/
theorem of_bd3Common_eq_value (rate : WireField) :
    f.of (bd3Common rate m) = f.value m ↔ bitAt m f.offset = false := by
  have pos : 0 < f.signed.width := by cases f <;> decide
  have units : f.unsigned.unit = f.signed.unit := by cases f <;> rfl
  have plain (raw : Nat) : f.unsigned.int raw = raw := by cases f <;> rfl
  have signed (raw : Nat) : f.signed.int raw = toSigned f.signed.width raw := by cases f <;> rfl
  rw [bitAt_eq_false_iff m f.offset pos, ← toSigned_eq_self, of_bd3Common, CastMember.value,
    WireField.value, WireField.value, units, RatPi.scale_inj f.signed.unit_ne, plain, signed,
    eq_comm]
  norm_cast

theorem value_mem : (f.value m).toReal ∈ Set.Ico (-f.bound.toReal) f.bound.toReal := by
  have half : f.bound = .scale (2 ^ (f.signed.width - 1)) f.signed.unit := by
    cases f <;> norm_num [bound, signed, WireField.signedPi, WireField.signedPow2, RatPi.scale,
      RatPi.ofRat]
  have pos : 0 < f.signed.unit.toReal := by
    cases f <;> norm_num [signed, WireField.signedPi, WireField.signedPow2, RatPi.toReal,
      Real.pi_pos]
  have lt := bitsVal_lt m f.offset f.signed.width
  rw [half]
  exact WireField.toReal_value_mem (by cases f <;> rfl) (by cases f <;> rfl) pos lt

end CastMember

/-- The members read by a cast are two's complement in `c`, and within range. -/
def SignedIn (m : Mem) (c : Bd3Common) : Prop :=
  ∀ f : CastMember, f.of c = f.value m ∧
    (f.of c).toReal ∈ Set.Ico (-f.bound.toReal) f.bound.toReal

theorem signedIn_bd3Common (m : Mem) (rate : WireField) :
    SignedIn m (bd3Common rate m) ↔ ∀ f : CastMember, bitAt m f.offset = false := by
  constructor
  · intro signed f
    exact (f.of_bd3Common_eq_value m rate).mp (signed f).1
  · intro clear f
    have same := (f.of_bd3Common_eq_value m rate).mpr (clear f)
    refine ⟨same, ?_⟩
    rw [same]
    exact f.value_mem m

/-- **The angles and the axis offset decode as signed numbers exactly on frames
with their sign bits clear.** -/
theorem signedIn_iff (m : Mem) :
    (∀ c ∈ bd3Readings m, SignedIn m c) ↔ ∀ f : CastMember, bitAt m f.offset = false := by
  rw [bd3Readings_eq]
  simp only [List.forall_mem_cons, signedIn_bd3Common, List.not_mem_nil, false_implies,
    implies_true, and_true, and_self]

/-- Only the sign bit of `m0` is set. -/
theorem not_signedIn_m0 :
    ¬ ∀ c ∈ bd3Readings fun k => if k = 49 then 1 else 0,
      SignedIn (fun k => if k = 49 then 1 else 0) c := by
  rw [bd3Readings_eq]
  intro signed
  have clear := (signedIn_bd3Common _ _).mp (signed _ (List.mem_cons_self ..)) .m0
  exact absurd clear (by decide)

end Ok3506.Gnss
