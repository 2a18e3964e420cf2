import Ok3506.Gnss.Decode

/-!
The wire layouts of the ephemeris frames.

A `WireField` is a width, a signedness and a nonzero unit; its value is the raw
integer, read as two's complement where it is signed, times the unit. The tables
list the fields a decoder steps over behind the 64-bit head, ending with the
checksum; `fields` lists the members of a decoded record in the same order.
-/

namespace Ok3506.Gnss

open Mem Bits

/-! ### Fields -/

theorem two_zpow_ne (e : Int) : (2 : ℚ) ^ e ≠ 0 := zpow_ne_zero e two_ne_zero

/-- One big-endian field of a frame. -/
structure WireField where
  width : Nat
  signed : Bool
  unit : RatPi
  unit_ne : unit ≠ .ofRat 0

namespace WireField

/-- A plain unsigned field. -/
def uint (w : Nat) : WireField := ⟨w, false, .ofRat 1, by simp [RatPi.ofRat]⟩

/-- An unsigned field in units of `k`. -/
def times (w k : Nat) [NeZero k] : WireField :=
  ⟨w, false, .ofRat k, by simp [RatPi.ofRat, NeZero.ne k]⟩

/-- A signed field in units of `2 ^ e`. -/
def signedPow2 (w : Nat) (e : Int) : WireField :=
  ⟨w, true, ⟨2 ^ e, 0⟩, by simp [RatPi.ofRat, two_zpow_ne]⟩

/-- An unsigned field in units of `2 ^ e`. -/
def unsignedPow2 (w : Nat) (e : Int) : WireField :=
  ⟨w, false, ⟨2 ^ e, 0⟩, by simp [RatPi.ofRat, two_zpow_ne]⟩

/-- A signed field in units of `2 ^ e * π`. -/
def signedPi (w : Nat) (e : Int) : WireField :=
  ⟨w, true, ⟨0, 2 ^ e⟩, by simp [RatPi.ofRat, two_zpow_ne]⟩

/-- An unsigned field in units of `2 ^ e * π`. -/
def unsignedPi (w : Nat) (e : Int) : WireField :=
  ⟨w, false, ⟨0, 2 ^ e⟩, by simp [RatPi.ofRat, two_zpow_ne]⟩

/-- A signed field in units of `1e-10`. -/
def tenthNs (w : Nat) : WireField := ⟨w, true, ⟨1 / 10 ^ 10, 0⟩, by simp [RatPi.ofRat]⟩

/-- The integer that the raw bits of the field denote. -/
def int (f : WireField) (raw : Nat) : Int := if f.signed then toSigned f.width raw else raw

/-- The value of the whole raw field. -/
def value (f : WireField) (raw : Nat) : RatPi := .scale (f.int raw) f.unit

/-- A field loses nothing. -/
theorem value_inj (f : WireField) {raw raw' : Nat} (h : raw < 2 ^ f.width) (h' : raw' < 2 ^ f.width)
    (e : f.value raw = f.value raw') : raw = raw' := by
  have same : f.int raw = f.int raw' := by
    exact_mod_cast (RatPi.scale_inj f.unit_ne).mp e
  rw [int, int] at same
  split at same
  · exact toSigned_inj h h' same
  · exact_mod_cast same

/-- A signed field of `w + 1` bits lies within `2 ^ w` units of zero. -/
theorem toReal_value_mem {f : WireField} {w raw : Nat} (width : f.width = w + 1)
    (signed : f.signed = true) (pos : 0 < f.unit.toReal) (h : raw < 2 ^ f.width) :
    (f.value raw).toReal ∈
      Set.Ico (-(RatPi.scale (2 ^ w) f.unit).toReal) (RatPi.scale (2 ^ w) f.unit).toReal := by
  rw [width] at h
  obtain ⟨low, high⟩ := toSigned_bounds h
  rw [value, int, if_pos signed, width, RatPi.toReal_scale, RatPi.toReal_scale, ← neg_mul]
  constructor
  · refine mul_le_mul_of_nonneg_right ?_ pos.le
    exact_mod_cast low
  · refine mul_lt_mul_of_pos_right ?_ pos
    exact_mod_cast high

/-- An angle in units of π and a rational number are the same only at zero. -/
theorem signedPi_eq_signedPow2 {w w' raw raw' : Nat} {e e' : Int} (h : raw < 2 ^ w)
    (h' : raw' < 2 ^ w') :
    (signedPi w e).value raw = (signedPow2 w' e').value raw' ↔ raw = 0 ∧ raw' = 0 := by
  rw [← toSigned_eq_zero h, ← toSigned_eq_zero h']
  simp only [value, int, signedPi, signedPow2, RatPi.scale, RatPi.mk.injEq, if_true, mul_zero]
  constructor
  · rintro ⟨rat, pi⟩
    have angle := (mul_eq_zero.mp pi).resolve_right (two_zpow_ne e)
    have number := (mul_eq_zero.mp rat.symm).resolve_right (two_zpow_ne e')
    exact ⟨by exact_mod_cast angle, by exact_mod_cast number⟩
  · rintro ⟨angle, number⟩
    simp [angle, number]

end WireField

/-- The widths of a layout. -/
def widths (layout : List WireField) : List Nat := layout.map WireField.width

/-- The values of consecutive raw fields. -/
def wireValues (layout : List WireField) (raws : List Nat) : List RatPi :=
  List.zipWith WireField.value layout raws

/-- Frames with different raw fields have different values. -/
theorem wireValues_inj {layout : List WireField} {raws raws' : List Nat}
    (h : List.Forall₂ (fun w r => r < 2 ^ w) (widths layout) raws)
    (h' : List.Forall₂ (fun w r => r < 2 ^ w) (widths layout) raws')
    (e : wireValues layout raws = wireValues layout raws') : raws = raws' := by
  induction layout generalizing raws raws' with
  | nil =>
      cases h
      cases h'
      rfl
  | cons f layout ih =>
      cases h with
      | cons lt rest =>
          cases h' with
          | cons lt' rest' =>
              obtain ⟨first, later⟩ := List.cons.inj e
              rw [f.value_inj lt lt' first, ih rest rest' later]

/-! ### What the decoders put in a member -/

section Members

variable (m : Mem) (b : Nat) {w : Nat}

theorem value_uint : RatPi.ofRat (readBitsBe m b w) = (WireField.uint w).value (bitsVal m b w) := by
  simp [WireField.value, WireField.int, WireField.uint, RatPi.scale, RatPi.ofRat]

theorem value_uint64 :
    RatPi.ofRat (readBitsBe64 m b w) = (WireField.uint w).value (bitsVal m b w) :=
  value_uint m b

theorem value_uint8 (h : w ≤ 8) :
    RatPi.ofRat (uint8 (readBitsBe m b w)) = (WireField.uint w).value (bitsVal m b w) := by
  rw [← value_uint, readBitsBe_eq, uint8_bitsVal m b h]

theorem value_uint16 (h : w ≤ 16) :
    RatPi.ofRat (uint16 (readBitsBe m b w)) = (WireField.uint w).value (bitsVal m b w) := by
  rw [← value_uint, readBitsBe_eq, uint16_bitsVal m b h]

theorem value_uint32 (h : w ≤ 32) :
    RatPi.ofRat (uint32 (readBitsBe m b w)) = (WireField.uint w).value (bitsVal m b w) := by
  have lt := (bitsVal_lt m b w).trans_le (Nat.pow_le_pow_right (by omega) h)
  rw [← value_uint, readBitsBe_eq, uint32, Nat.mod_eq_of_lt lt]

theorem value_times {k : Nat} [NeZero k] (h : 2 ^ w * k ≤ 2 ^ 32) :
    RatPi.ofRat (uint32 (readBitsBe m b w * k)) = (WireField.times w k).value (bitsVal m b w) := by
  rw [readBitsBe_eq, uint32_bitsVal_mul m b h (NeZero.pos k)]
  simp [WireField.value, WireField.int, WireField.times, RatPi.scale, RatPi.ofRat]

theorem value_signedPow2 {e : Int} (pos : 0 < w) (le : w ≤ 32) :
    scalePow2 (int32 (readSignedBitsBe m b w)) e =
      (WireField.signedPow2 w e).value (bitsVal m b w) := by
  rw [int32_readSignedBitsBe m b pos le]
  simp [scalePow2, WireField.value, WireField.int, WireField.signedPow2, RatPi.scale]

theorem value_signedPi {e : Int} (pos : 0 < w) (le : w ≤ 32) :
    scalePiPow2 (int32 (readSignedBitsBe m b w)) e =
      (WireField.signedPi w e).value (bitsVal m b w) := by
  rw [int32_readSignedBitsBe m b pos le]
  simp [scalePiPow2, WireField.value, WireField.int, WireField.signedPi, RatPi.scale]

theorem value_tenthNs (pos : 0 < w) (le : w ≤ 32) :
    scaleTenthNs (int32 (readSignedBitsBe m b w)) =
      (WireField.tenthNs w).value (bitsVal m b w) := by
  rw [int32_readSignedBitsBe m b pos le]
  simp [scaleTenthNs, WireField.value, WireField.int, WireField.tenthNs, RatPi.scale]

theorem value_unsignedPow2 {e : Int} :
    scalePow2U (readBitsBe m b w) e = (WireField.unsignedPow2 w e).value (bitsVal m b w) := by
  simp [scalePow2U, WireField.value, WireField.int, WireField.unsignedPow2, RatPi.scale]

theorem value_signedPow264 {e : Int} (pos : 0 < w) (le : w ≤ 64) :
    scalePow264 (readSignedBitsBe64 m b w) e =
      (WireField.signedPow2 w e).value (bitsVal m b w) := by
  rw [readSignedBitsBe64_eq m b pos le]
  simp [scalePow264, WireField.value, WireField.int, WireField.signedPow2, RatPi.scale]

theorem value_signedPi64 {e : Int} (pos : 0 < w) (le : w ≤ 64) :
    scalePiPow264 (readSignedBitsBe64 m b w) e =
      (WireField.signedPi w e).value (bitsVal m b w) := by
  rw [readSignedBitsBe64_eq m b pos le]
  simp [scalePiPow264, WireField.value, WireField.int, WireField.signedPi, RatPi.scale]

theorem value_unsignedPow264 {e : Int} :
    scalePow2U64 (readBitsBe64 m b w) e = (WireField.unsignedPow2 w e).value (bitsVal m b w) := by
  simp [scalePow2U64, WireField.value, WireField.int, WireField.unsignedPow2, RatPi.scale]

theorem value_int64Pow2 {e : Int} (lt : w < 64) :
    scalePow264 (int64 (readBitsBe64 m b w)) e =
      (WireField.unsignedPow2 w e).value (bitsVal m b w) := by
  rw [readBitsBe64_eq, int64_bitsVal m b lt]
  simp [scalePow264, WireField.value, WireField.int, WireField.unsignedPow2, RatPi.scale]

theorem value_int64Pi {e : Int} (lt : w < 64) :
    scalePiPow264 (int64 (readBitsBe64 m b w)) e =
      (WireField.unsignedPi w e).value (bitsVal m b w) := by
  rw [readBitsBe64_eq, int64_bitsVal m b lt]
  simp [scalePiPow264, WireField.value, WireField.int, WireField.unsignedPi, RatPi.scale]

end Members

/-! ### The tables -/

/-- The members of `BD2EPHB_Decoded_t` behind the head. -/
def Bd2ephbDecoded.fields (r : Bd2ephbDecoded) : List RatPi :=
  [.ofRat r.gpsWeekCount, .ofRat r.gpsTowS, .ofRat r.bd2Satid, .ofRat r.bd2SvUrai,
   .ofRat r.bd2SvHealth, .ofRat r.bd2Week, .ofRat r.bd2Toe, .ofRat r.bd2Toc, r.bd2Af0, r.bd2Af1,
   r.bd2Af2, .ofRat r.bd2Aode, .ofRat r.bd2Aodc, r.bd2Idot, r.bd2Crs, r.bd2Crc, r.bd2Cus,
   r.bd2Cuc, r.bd2Cis, r.bd2Cic, r.bd2DeltaN, r.bd2M0, r.bd2Ecc, r.bd2AHalf, r.bd2Omega0, r.bd2I0,
   r.bd2Omega, r.bd2Omegadot, r.bd2Tgd1, r.bd2Tgd2, .ofRat r.bd2Reserved, .ofRat r.crc24]

/-- The fields that `decode_bd2ephb` steps over. -/
def bd2Layout : List WireField :=
  [.uint 12, .uint 20, .uint 6, .uint 4, .uint 1, .uint 13, .uint 17, .uint 17,
   .signedPow2 24 (-33), .signedPow2 22 (-50), .signedPow2 11 (-66), .uint 5, .uint 5,
   .signedPi 14 (-43), .signedPow2 18 (-6), .signedPow2 18 (-6), .signedPow2 18 (-31),
   .signedPow2 18 (-31), .signedPow2 18 (-31), .signedPow2 18 (-31), .signedPi 16 (-43),
   .signedPi 32 (-31), .unsignedPow2 32 (-33), .unsignedPow2 32 (-19), .signedPi 32 (-31),
   .signedPi 32 (-31), .signedPi 32 (-31), .signedPi 24 (-43), .tenthNs 10, .tenthNs 10, .uint 5,
   .uint 24]

/-- The members of `BD3EPHB_Decoded_t` behind the head. -/
def Bd3ephbDecoded.fields (r : Bd3ephbDecoded) : List RatPi :=
  [.ofRat r.gpsWeekCount, .ofRat r.gpsTowS, .ofRat r.bd3Satid, .ofRat r.bd3Sattype,
   .ofRat r.bd3Week, .ofRat r.bd3Toe, .ofRat r.bd3Toc, r.bd3Af0, r.bd3Af1, r.bd3Af2,
   .ofRat r.bd3Iode, .ofRat r.bd3Iodc, r.bd3Idot, r.bd3Crs, r.bd3Crc, r.bd3Cus, r.bd3Cuc,
   r.bd3Cis, r.bd3Cic, r.bd3DeltaN0, r.bd3DeltaN0Dot, r.bd3M0, r.bd3Ecc, r.bd3DeltaA, r.bd3Adot,
   r.bd3Omega0, r.bd3I0, r.bd3Omega, r.bd3Omegadot, r.bd3Tgdb1cp, r.bd3Tgdb2ap, r.bd3Iscb1cd,
   .ofRat r.bd3Reserved, .ofRat r.crc24]

/-- The fields that `decode_bd3ephb` steps over. -/
def bd3Layout : List WireField :=
  [.uint 12, .uint 20, .uint 6, .uint 3, .uint 13, .times 11 300, .times 11 300,
   .signedPow2 25 (-34), .signedPow2 22 (-50), .signedPow2 11 (-66), .uint 8, .uint 16,
   .signedPi 15 (-44), .signedPow2 24 (-8), .signedPow2 24 (-8), .signedPow2 21 (-30),
   .signedPow2 21 (-30), .signedPow2 16 (-30), .signedPow2 16 (-30), .signedPi 17 (-44),
   .signedPi 23 (-57), .unsignedPi 33 (-32), .unsignedPow2 33 (-34), .unsignedPow2 26 (-9),
   .signedPow2 25 (-21), .unsignedPi 33 (-32), .unsignedPi 33 (-32), .unsignedPi 33 (-32),
   .signedPi 19 (-44), .signedPow2 12 (-34), .signedPow2 12 (-34), .signedPow2 12 (-34), .uint 2,
   .uint 24]

/-- The members of `BD3CNAV2EPHB_Decoded_t` behind the head. -/
def Bd3cnav2ephbDecoded.fields (r : Bd3cnav2ephbDecoded) : List RatPi :=
  [.ofRat r.gpsWeekCount, .ofRat r.gpsTowS, .ofRat r.bdsSatid, .ofRat r.bdsSattype,
   .ofRat r.bdsWeek, .ofRat r.bdsToe, .ofRat r.bdsToc, r.bdsAf0, r.bdsAf1, r.bdsAf2,
   .ofRat r.bdsIode, .ofRat r.bdsIodc, r.bdsIdot, r.bdsCrs, r.bdsCrc, r.bdsCus, r.bdsCuc,
   r.bdsCis, r.bdsCic, r.bdsDeltaN0, r.bdsDeltaN0Dot, r.bdsM0, r.bdsEcc, r.bdsAA, r.bdsAdot,
   r.bdsOmega0, r.bdsI0, r.bdsOmega, r.bdsOmegadot, r.bdsTgdb1cp, r.bdsTgdb2ap, r.bdsIscb2ad,
   .ofRat r.bdsReserved, .ofRat r.crc24]

/-- The fields that `decode_bd3cnav2ephb` steps over. -/
def bd3cnav2Layout : List WireField :=
  [.uint 12, .uint 20, .uint 6, .uint 3, .uint 13, .times 11 300, .times 11 300,
   .signedPow2 25 (-34), .signedPow2 22 (-50), .signedPow2 11 (-66), .uint 8, .uint 16,
   .signedPi 15 (-44), .signedPow2 24 (-8), .signedPow2 24 (-8), .signedPow2 21 (-30),
   .signedPow2 21 (-30), .signedPow2 16 (-30), .signedPow2 16 (-30), .signedPi 17 (-44),
   .signedPow2 23 (-57), .unsignedPi 33 (-32), .unsignedPow2 33 (-34), .unsignedPow2 26 (-9),
   .signedPow2 25 (-21), .unsignedPi 33 (-32), .unsignedPi 33 (-32), .unsignedPi 33 (-32),
   .signedPi 19 (-44), .signedPow2 12 (-34), .signedPow2 12 (-34), .signedPow2 12 (-34), .uint 2,
   .uint 24]

/-- The members of `BD3CNAV3EPHB_Decoded_t` behind the head. -/
def Bd3cnav3ephbDecoded.fields (r : Bd3cnav3ephbDecoded) : List RatPi :=
  [.ofRat r.gpsWeekCount, .ofRat r.gpsTowS, .ofRat r.bdsSatid, .ofRat r.bdsSattype,
   .ofRat r.bdsWeek, .ofRat r.bdsToe, .ofRat r.bdsToc, r.bdsAf0, r.bdsAf1, r.bdsAf2,
   .ofRat r.bdsIode, .ofRat r.bdsIodc, r.bdsIdot, r.bdsCrs, r.bdsCrc, r.bdsCus, r.bdsCuc,
   r.bdsCis, r.bdsCic, r.bdsDeltaN0, r.bdsDeltaN0Dot, r.bdsM0, r.bdsEcc, r.bdsDeltaA, r.bdsAdot,
   r.bdsOmega0, r.bdsI0, r.bdsOmega, r.bdsOmegadot, r.bdsTgdb2bI, .ofRat r.bdsReserved,
   .ofRat r.crc24]

/-- The fields that `decode_bd3cnav3ephb` steps over. -/
def bd3cnav3Layout : List WireField :=
  [.uint 12, .uint 20, .uint 6, .uint 3, .uint 13, .times 11 300, .times 11 300,
   .signedPow2 25 (-34), .signedPow2 22 (-50), .signedPow2 11 (-66), .uint 8, .uint 16,
   .signedPi 15 (-44), .signedPow2 24 (-8), .signedPow2 24 (-8), .signedPow2 21 (-30),
   .signedPow2 21 (-30), .signedPow2 16 (-30), .signedPow2 16 (-30), .signedPi 17 (-44),
   .signedPow2 23 (-57), .unsignedPi 33 (-32), .unsignedPow2 33 (-34), .unsignedPow2 26 (-9),
   .signedPow2 25 (-21), .unsignedPi 33 (-32), .unsignedPi 33 (-32), .unsignedPi 33 (-32),
   .signedPi 19 (-44), .signedPow2 12 (-34), .uint 26, .uint 24]

/-- The members of `BDXWEPHB_Decoded_t` behind the head. -/
def BdxwephbDecoded.fields (r : BdxwephbDecoded) : List RatPi :=
  [.ofRat r.gpsWeekCount, .ofRat r.gpsTowS, .ofRat r.xwsSatid, .ofRat r.xwsSattype,
   .ofRat r.xwsWeek, .ofRat r.xwsToe, .ofRat r.xwsToc, r.xwsAf0, r.xwsAf1, .ofRat r.xwsIodc,
   .ofRat r.xwsIode, r.xwsCrs, r.xwsCrc, r.xwsCus, r.xwsCuc, r.xwsCis, r.xwsCic, r.xwsDeltacic,
   r.xwsDeltacis, r.xwsDeltacrs, r.xwsDeltacrc, r.xwsDeltaN0, r.xwsDeltaN0Dot, r.xwsM0, r.xwsEcc,
   r.xwsDeltaA0, r.xwsI0Dot, r.xwsADot, r.xwsDeltaI0, r.xwsOmega0, r.xwsOmegaDot, r.xwsOmega,
   .ofRat r.xwsReserved, .ofRat r.crc24]

/-- The fields that `decode_bdxwephb` steps over. -/
def bdxwLayout : List WireField :=
  [.uint 12, .uint 20, .uint 8, .uint 2, .uint 13, .times 16 12, .times 17 6,
   .signedPow2 27 (-36), .signedPow2 22 (-50), .uint 4, .uint 3, .signedPow2 26 (-11),
   .signedPow2 26 (-11), .signedPi 25 (-34), .signedPi 25 (-34), .signedPi 21 (-34),
   .signedPi 21 (-34), .signedPi 21 (-34), .signedPi 21 (-34), .signedPi 26 (-11),
   .signedPi 26 (-11), .signedPi 27 (-45), .signedPi 33 (-54), .signedPi 36 (-35),
   .unsignedPow2 30 (-35), .signedPow2 27 (-10), .signedPi 22 (-45), .signedPow2 22 (-19),
   .signedPi 31 (-35), .signedPi 36 (-35), .signedPi 26 (-45), .signedPi 36 (-35), .uint 36,
   .uint 24]

/-- The members of `GPSEPHB_Decoded_t` behind the head. -/
def GpsephbDecoded.fields (r : GpsephbDecoded) : List RatPi :=
  [.ofRat r.gpsWeekCount, .ofRat r.gpsTowS, .ofRat r.gpsSatid, .ofRat r.gpsSvAccuracy,
   .ofRat r.gpsSvHealth, .ofRat r.gpsWeek, .ofRat r.gpsToe, .ofRat r.gpsToc, r.gpsAf0, r.gpsAf1,
   r.gpsAf2, .ofRat r.gpsIode, .ofRat r.gpsIodc, r.gpsIdot, r.gpsCrs, r.gpsCrc, r.gpsCus,
   r.gpsCuc, r.gpsCis, r.gpsCic, r.gpsDeltaN, r.gpsM0, r.gpsEcc, r.gpsAHalf, r.gpsOmega0, r.gpsI0,
   r.gpsOmega, r.gpsOmegadot, r.gpsTgd, .ofRat r.gpsCodeOnL2, .ofRat r.gpsL2pDataFlag,
   .ofRat r.gpsFit, .ofRat r.reserved, .ofRat r.crc24]

/-- The fields that `decode_gpsephb` steps over. -/
def gpsLayout : List WireField :=
  [.uint 12, .uint 20, .uint 6, .uint 4, .uint 6, .uint 10, .uint 16, .uint 16,
   .signedPow2 22 (-31), .signedPow2 16 (-43), .signedPow2 8 (-55), .uint 8, .uint 10,
   .signedPow2 14 (-43), .signedPow2 16 (-5), .signedPow2 16 (-5), .signedPow2 16 (-29),
   .signedPow2 16 (-29), .signedPow2 16 (-29), .signedPow2 16 (-29), .signedPow2 16 (-43),
   .signedPow2 32 (-31), .unsignedPow2 32 (-33), .unsignedPow2 32 (-19), .signedPow2 32 (-31),
   .signedPow2 32 (-31), .signedPow2 32 (-31), .signedPow2 24 (-43), .signedPow2 8 (-31), .uint 2,
   .uint 1, .uint 1, .uint 4, .uint 24]

/-- The members of `GLOEPHB_Decoded_t` behind the head. -/
def GloephbDecoded.fields (r : GloephbDecoded) : List RatPi :=
  [.ofRat r.gpsWeekCount, .ofRat r.gpsTowS, .ofRat r.gloSatid, .ofRat r.gloFreq,
   .ofRat r.gloBnMsb, .ofRat r.gloN4, .ofRat r.gloNt, .ofRat r.gloTk, .ofRat r.gloTb, r.gloGamma,
   r.gloTau, r.gloX, r.gloXDot, r.gloXDdot, r.gloY, r.gloYDot, r.gloYDdot, r.gloZ, r.gloZDot,
   r.gloZDdot, .ofRat r.crc24]

/-- The fields that `decode_gloephb` steps over. -/
def gloLayout : List WireField :=
  [.uint 12, .uint 20, .uint 6, .uint 5, .uint 1, .uint 5, .uint 11, .uint 12, .uint 7,
   .signedPow2 11 (-40), .signedPow2 22 (-30), .signedPow2 27 (-11), .signedPow2 24 (-20),
   .signedPow2 5 (-30), .signedPow2 27 (-11), .signedPow2 24 (-20), .signedPow2 5 (-30),
   .signedPow2 27 (-11), .signedPow2 24 (-20), .signedPow2 5 (-30), .uint 24]

/-- The members of `GALEPHB_Decoded_t` behind the head. -/
def GalephbDecoded.fields (r : GalephbDecoded) : List RatPi :=
  [.ofRat r.gpsWeekCount, .ofRat r.gpsTowS, .ofRat r.galSatid, .ofRat r.galSisa,
   .ofRat r.galE5bSvHealth, .ofRat r.galE5bValid, .ofRat r.galE1bHealth, .ofRat r.galE1bValid,
   .ofRat r.galWeek, .ofRat r.galToe, .ofRat r.galToc, r.galAf0, r.galAf1, r.galAf2,
   .ofRat r.galIodnav, r.galIdot, r.galCrs, r.galCrc, r.galCus, r.galCuc, r.galCis, r.galCic,
   r.galDeltaN, r.galM0, r.galEcc, r.galAHalf, r.galOmega0, r.galI0, r.galOmega, r.galOmegadot,
   r.galBgdE5aE1, r.galBgdE5bE1, .ofRat r.galNavtype, .ofRat r.galReserved, .ofRat r.crc24]

/-- The fields that `decode_galephb` steps over. -/
def galLayout : List WireField :=
  [.uint 12, .uint 20, .uint 6, .uint 8, .uint 2, .uint 1, .uint 2, .uint 1, .uint 12,
   .times 14 60, .times 14 60, .signedPow2 31 (-34), .signedPow2 21 (-46), .signedPow2 6 (-59),
   .uint 10, .signedPi 14 (-43), .signedPow2 16 (-5), .signedPow2 16 (-5), .signedPow2 16 (-29),
   .signedPow2 16 (-29), .signedPow2 16 (-29), .signedPow2 16 (-29), .signedPi 16 (-43),
   .signedPi 32 (-31), .unsignedPow2 32 (-33), .unsignedPow2 32 (-19), .signedPi 32 (-31),
   .signedPi 32 (-31), .signedPi 32 (-31), .signedPi 24 (-43), .signedPow2 10 (-32),
   .signedPow2 10 (-32), .uint 2, .uint 4, .uint 24]

end Ok3506.Gnss
