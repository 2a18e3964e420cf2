import Ok3506.Gnss.Layout

/-!
The angles of the GPS, BDS-2 and Galileo records.

The three frames carry seven angles of the same widths and binary scales.
`decode_bd2ephb` and `decode_galephb` turn a raw value into the same multiple of
π; `decode_gpsephb` leaves the factor π out, and reads 22 of the 32 bits of `m0`.
-/

namespace Ok3506.Gnss

open Mem Bits

/-! ### The angles of a record -/

/-- The angles of a record, in the order of the frame. -/
structure Angles where
  (idot deltaN m0 omega0 i0 omega omegadot : RatPi)

def GpsephbDecoded.angles (r : GpsephbDecoded) : Angles :=
  ⟨r.gpsIdot, r.gpsDeltaN, r.gpsM0, r.gpsOmega0, r.gpsI0, r.gpsOmega, r.gpsOmegadot⟩

def Bd2ephbDecoded.angles (r : Bd2ephbDecoded) : Angles :=
  ⟨r.bd2Idot, r.bd2DeltaN, r.bd2M0, r.bd2Omega0, r.bd2I0, r.bd2Omega, r.bd2Omegadot⟩

def GalephbDecoded.angles (r : GalephbDecoded) : Angles :=
  ⟨r.galIdot, r.galDeltaN, r.galM0, r.galOmega0, r.galI0, r.galOmega, r.galOmegadot⟩

/-- The angle fields. -/
inductive Angle where
  | idot
  | deltaN
  | m0
  | omega0
  | i0
  | omega
  | omegadot

namespace Angle

def of (a : Angles) : Angle → RatPi
  | idot => a.idot
  | deltaN => a.deltaN
  | m0 => a.m0
  | omega0 => a.omega0
  | i0 => a.i0
  | omega => a.omega
  | omegadot => a.omegadot

def width : Angle → Nat
  | idot => 14
  | deltaN => 16
  | omegadot => 24
  | _ => 32

/-- The exponent of the binary scale. -/
def exp : Angle → Int
  | m0 | omega0 | i0 | omega => -31
  | _ => -43

def gpsOffset : Angle → Nat
  | idot => 218
  | deltaN => 328
  | m0 => 344
  | omega0 => 440
  | i0 => 472
  | omega => 504
  | omegadot => 536

def bd2Offset : Angle → Nat
  | idot => 221
  | deltaN => 343
  | m0 => 359
  | omega0 => 455
  | i0 => 487
  | omega => 519
  | omegadot => 551

def galOffset : Angle → Nat
  | idot => 224
  | deltaN => 334
  | m0 => 350
  | omega0 => 446
  | i0 => 478
  | omega => 510
  | omegadot => 542

/-- The bits of the field that `decode_gpsephb` leaves unread. -/
def gpsSkips : Angle → Nat
  | m0 => 10
  | _ => 0

variable (m : Mem) (f : Angle)

theorem of_decodeGpsephb :
    f.of (decodeGpsephb.run m 0).value.angles =
      (WireField.signedPow2 (f.width - f.gpsSkips) f.exp).value
        (bitsVal m f.gpsOffset (f.width - f.gpsSkips)) := by
  simp only [decodeGpsephb, BitReader.value_run_bind, BitReader.run_pure, run_takeHead,
    run_takeBits, run_takeSignedBits, run_peekBits, run_peekSignedBits, run_skip, Nat.reduceAdd,
    Nat.reduceMul]
  simp (disch := omega) only [GpsephbDecoded.angles, value_signedPow2]
  cases f <;> rfl

theorem of_decodeBd2ephb :
    f.of (decodeBd2ephb.run m 0).value.angles =
      (WireField.signedPi f.width f.exp).value (bitsVal m f.bd2Offset f.width) := by
  simp only [decodeBd2ephb, BitReader.value_run_bind, BitReader.run_pure, run_takeHead,
    run_takeBits, run_takeSignedBits, run_peekBits, Nat.reduceAdd, Nat.reduceMul]
  simp (disch := omega) only [Bd2ephbDecoded.angles, value_signedPi]
  cases f <;> rfl

theorem of_decodeGalephb :
    f.of (decodeGalephb.run m 0).value.angles =
      (WireField.signedPi f.width f.exp).value (bitsVal m f.galOffset f.width) := by
  simp only [decodeGalephb, BitReader.value_run_bind, BitReader.run_pure, run_takeHead,
    run_takeBits, run_takeSignedBits, run_peekBits, Nat.reduceAdd, Nat.reduceMul]
  simp (disch := omega) only [GalephbDecoded.angles, value_signedPi]
  cases f <;> rfl

end Angle

/-! ### Frames with one raw value -/

/-- A frame of each constellation, with the same raw value in the field. -/
structure SameRaw (f : Angle) where
  (gps bd2 gal : Mem)
  raw : Nat
  gps_raw : bitsVal gps f.gpsOffset f.width = raw
  bd2_raw : bitsVal bd2 f.bd2Offset f.width = raw
  gal_raw : bitsVal gal f.galOffset f.width = raw

namespace SameRaw

/-- The three decoders produce the same angle. -/
def Alike {f : Angle} (s : SameRaw f) : Prop :=
  f.of (decodeGpsephb.run s.gps 0).value.angles = f.of (decodeBd2ephb.run s.bd2 0).value.angles ∧
    f.of (decodeBd2ephb.run s.bd2 0).value.angles = f.of (decodeGalephb.run s.gal 0).value.angles

/-- Frames for any raw value of the field. -/
def ofRaw (f : Angle) (raw : Fin (2 ^ f.width)) : SameRaw f where
  gps := spelling f.gpsOffset f.width raw
  bd2 := spelling f.bd2Offset f.width raw
  gal := spelling f.galOffset f.width raw
  raw := raw
  gps_raw := bitsVal_spelling raw.isLt
  bd2_raw := bitsVal_spelling raw.isLt
  gal_raw := bitsVal_spelling raw.isLt

variable {f : Angle} (s : SameRaw f)

theorem bd2_eq_gal :
    f.of (decodeBd2ephb.run s.bd2 0).value.angles =
      f.of (decodeGalephb.run s.gal 0).value.angles := by
  rw [f.of_decodeBd2ephb, f.of_decodeGalephb, s.bd2_raw, s.gal_raw]

theorem gps_eq_bd2_iff :
    f.of (decodeGpsephb.run s.gps 0).value.angles =
      f.of (decodeBd2ephb.run s.bd2 0).value.angles ↔ s.raw = 0 := by
  have lt : s.raw < 2 ^ f.width := s.bd2_raw ▸ bitsVal_lt s.bd2 f.bd2Offset f.width
  have read := bitsVal_lt s.gps f.gpsOffset (f.width - f.gpsSkips)
  rw [f.of_decodeGpsephb, f.of_decodeBd2ephb, s.bd2_raw, eq_comm,
    WireField.signedPi_eq_signedPow2 lt read]
  refine ⟨And.left, fun zero => ⟨zero, ?_⟩⟩
  -- the bits that are read are the leading ones of the raw value
  have parts := bitsVal_add s.gps f.gpsOffset (f.width - f.gpsSkips) f.gpsSkips
  have le : f.gpsSkips ≤ f.width := by cases f <;> decide
  rw [Nat.sub_add_cancel le, s.gps_raw, zero] at parts
  exact (Nat.mul_eq_zero.mp (Nat.add_eq_zero_iff.mp parts.symm).1).resolve_right
    (Nat.two_pow_pos _).ne'

/-- **The three decoders produce the same angle exactly for the raw value zero.** -/
theorem alike_iff : s.Alike ↔ s.raw = 0 := by
  rw [Alike, gps_eq_bd2_iff]
  exact and_iff_left s.bd2_eq_gal

/-- The raw value 1 of `idot`. -/
theorem not_alike_idot : ¬ (ofRaw .idot 1).Alike := by
  rintro ⟨same, -⟩
  exact absurd ((gps_eq_bd2_iff _).mp same) (by decide)

end SameRaw

end Ok3506.Gnss
