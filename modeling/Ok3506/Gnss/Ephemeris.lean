import Ok3506.Gnss.Layout
import Ok3506.Gnss.Scan

/-!
Each ephemeris decoder against its layout.

For every kind but GPS the decoded members are the values of the whole raw
fields, so frames with different bits decode to different records. The GPS
decoder reads 22 of the 32 bits of `m0` and steps over the rest.
-/

namespace Ok3506.Gnss

open Mem Bits

/-! ### The decoders together -/

/-- The decoder of a kind. -/
def decodeEph : EphKind → BitReader EphRecord
  | .bd2 => return .bd2 (← decodeBd2ephb)
  | .bd3 => return .bd3 (← decodeBd3ephb)
  | .bd3cnav2 => return .bd3cnav2 (← decodeBd3cnav2ephb)
  | .bd3cnav3 => return .bd3cnav3 (← decodeBd3cnav3ephb)
  | .bdxw => return .bdxw (← decodeBdxwephb)
  | .gps => return .gps (← decodeGpsephb)
  | .glo => return .glo (← decodeGloephb)
  | .gal => return .gal (← decodeGalephb)

/-- The members of a record behind the head. -/
def EphRecord.fields : EphRecord → List RatPi
  | .bd2 eph => eph.fields
  | .bd3 eph => eph.fields
  | .bd3cnav2 eph => eph.fields
  | .bd3cnav3 eph => eph.fields
  | .bdxw eph => eph.fields
  | .gps eph => eph.fields
  | .glo eph => eph.fields
  | .gal eph => eph.fields

/-- The layout of a kind. -/
def layout : EphKind → List WireField
  | .bd2 => bd2Layout
  | .bd3 => bd3Layout
  | .bd3cnav2 => bd3cnav2Layout
  | .bd3cnav3 => bd3cnav3Layout
  | .bdxw => bdxwLayout
  | .gps => gpsLayout
  | .glo => gloLayout
  | .gal => galLayout

/-! ### Decoders and layouts -/

section Fields

variable (m : Mem)

theorem fields_decodeBd2ephb :
    (decodeBd2ephb.run m 0).value.fields =
      wireValues bd2Layout (readFields m 64 (widths bd2Layout)) := by
  simp only [decodeBd2ephb, BitReader.value_run_bind, BitReader.run_pure, run_takeHead,
    run_takeBits, run_takeSignedBits, run_peekBits, Nat.reduceAdd, Nat.reduceMul]
  simp (disch := omega) only [Bd2ephbDecoded.fields, value_uint, value_uint8, value_uint16,
    value_signedPow2, value_signedPi, value_tenthNs, value_unsignedPow2]
  rfl

theorem fields_decodeBd3ephb :
    (decodeBd3ephb.run m 0).value.fields =
      wireValues bd3Layout (readFields m 64 (widths bd3Layout)) := by
  simp only [decodeBd3ephb, BitReader.value_run_bind, BitReader.run_pure, run_takeHead,
    run_takeBits, run_takeBits64, run_takeSignedBits64, run_peekBits, Nat.reduceAdd,
    Nat.reduceMul]
  simp (disch := omega) only [Bd3ephbDecoded.fields, value_uint, value_uint8, value_uint16,
    value_times, value_signedPow264, value_signedPi64, value_unsignedPow264, value_int64Pow2,
    value_int64Pi]
  rfl

theorem fields_decodeBd3cnav2ephb :
    (decodeBd3cnav2ephb.run m 0).value.fields =
      wireValues bd3cnav2Layout (readFields m 64 (widths bd3cnav2Layout)) := by
  simp only [decodeBd3cnav2ephb, BitReader.value_run_bind, BitReader.run_pure, run_takeHead,
    run_takeBits, run_takeBits64, run_takeSignedBits64, run_peekBits, Nat.reduceAdd,
    Nat.reduceMul]
  simp (disch := omega) only [Bd3cnav2ephbDecoded.fields, value_uint, value_uint8, value_uint16,
    value_times, value_signedPow264, value_signedPi64, value_unsignedPow264, value_int64Pow2,
    value_int64Pi]
  rfl

theorem fields_decodeBd3cnav3ephb :
    (decodeBd3cnav3ephb.run m 0).value.fields =
      wireValues bd3cnav3Layout (readFields m 64 (widths bd3cnav3Layout)) := by
  simp only [decodeBd3cnav3ephb, BitReader.value_run_bind, BitReader.run_pure, run_takeHead,
    run_takeBits, run_takeBits64, run_takeSignedBits64, run_peekBits, Nat.reduceAdd,
    Nat.reduceMul]
  simp (disch := omega) only [Bd3cnav3ephbDecoded.fields, value_uint, value_uint8, value_uint16,
    value_uint32, value_times, value_signedPow264, value_signedPi64, value_unsignedPow264,
    value_int64Pow2, value_int64Pi]
  rfl

theorem fields_decodeBdxwephb :
    (decodeBdxwephb.run m 0).value.fields =
      wireValues bdxwLayout (readFields m 64 (widths bdxwLayout)) := by
  simp only [decodeBdxwephb, BitReader.value_run_bind, BitReader.run_pure, run_takeHead,
    run_takeBits, run_takeSignedBits, run_takeBits64, run_takeSignedBits64, run_peekBits,
    Nat.reduceAdd, Nat.reduceMul]
  simp (disch := omega) only [BdxwephbDecoded.fields, value_uint, value_uint64, value_uint8,
    value_uint16, value_times, value_signedPow2, value_signedPi, value_signedPi64,
    value_unsignedPow264]
  rfl

theorem fields_decodeGloephb :
    (decodeGloephb.run m 0).value.fields =
      wireValues gloLayout (readFields m 64 (widths gloLayout)) := by
  simp only [decodeGloephb, BitReader.value_run_bind, BitReader.run_pure, run_takeHead,
    run_takeBits, run_takeSignedBits, run_peekBits, Nat.reduceAdd, Nat.reduceMul]
  simp (disch := omega) only [GloephbDecoded.fields, value_uint, value_uint8, value_uint16,
    value_signedPow2]
  rfl

theorem fields_decodeGalephb :
    (decodeGalephb.run m 0).value.fields =
      wireValues galLayout (readFields m 64 (widths galLayout)) := by
  simp only [decodeGalephb, BitReader.value_run_bind, BitReader.run_pure, run_takeHead,
    run_takeBits, run_takeSignedBits, run_peekBits, Nat.reduceAdd, Nat.reduceMul]
  simp (disch := omega) only [GalephbDecoded.fields, value_uint, value_uint8, value_uint16,
    value_times, value_signedPow2, value_signedPi, value_unsignedPow2]
  rfl

/-- **Every decoder but the GPS one gives every field its whole value.** -/
theorem fields_decodeEph {k : EphKind} (h : k ≠ .gps) :
    ((decodeEph k).run m 0).value.fields =
      wireValues (layout k) (readFields m 64 (widths (layout k))) := by
  cases k with
  | bd2 => exact fields_decodeBd2ephb m
  | bd3 => exact fields_decodeBd3ephb m
  | bd3cnav2 => exact fields_decodeBd3cnav2ephb m
  | bd3cnav3 => exact fields_decodeBd3cnav3ephb m
  | bdxw => exact fields_decodeBdxwephb m
  | gps => exact (h rfl).elim
  | glo => exact fields_decodeGloephb m
  | gal => exact fields_decodeGalephb m

end Fields

/-! ### Packed frames -/

/-- The number of bits behind the head. -/
def bodyBits (k : EphKind) : Nat := (widths (layout k)).sum

theorem eight_dvd_bodyBits (k : EphKind) : 8 ∣ bodyBits k := by
  cases k <;> decide +kernel

/-- A frame of kind `k`: the 64-bit head and the packed raw fields, with `rest`
behind it in the buffer. -/
def wireFrame (k : EphKind) (head : Fin 8 → UInt8) (raws : Raws (widths (layout k))) (rest : Mem) :
    Mem :=
  ofList (List.ofFn head ++ byteList (packFields (widths (layout k)) raws.vals)) rest

variable {k : EphKind}

theorem readFields_wireFrame (head : Fin 8 → UInt8) (raws : Raws (widths (layout k))) (rest : Mem) :
    readFields (wireFrame k head raws rest) 64 (widths (layout k)) = raws.vals := by
  have read := readFields_pack raws (eight_dvd_bodyBits k) (List.ofFn head) rest
  rwa [List.length_ofFn] at read

theorem wireFrame_head (head : Fin 8 → UInt8) (raws : Raws (widths (layout k))) (rest : Mem)
    {j : Nat} (hj : j < 8) : wireFrame k head raws rest j = head ⟨j, hj⟩ := by
  have inHead : j < (List.ofFn head).length := by rwa [List.length_ofFn]
  rw [wireFrame, ofList_apply_lt _ (by rw [List.length_append]; omega),
    List.getElem_append_left inHead, List.getElem_ofFn]

/-- Some bit behind the head is different. -/
def BodyDiffers (k : EphKind) (m m' : Mem) : Prop :=
  ∃ j < bodyBits k, bitAt m (64 + j) ≠ bitAt m' (64 + j)

/-- What decoding a frame of kind `k` should give: every member the value of its
whole raw field, and for any frame with another body another record. -/
structure DecodesWire (k : EphKind) (head : Fin 8 → UInt8) (raws : Raws (widths (layout k)))
    (rest : Mem) : Prop where
  fields : ((decodeEph k).run (wireFrame k head raws rest) 0).value.fields =
    wireValues (layout k) raws.vals
  distinct : ∀ head' raws' rest',
    BodyDiffers k (wireFrame k head raws rest) (wireFrame k head' raws' rest') →
      ((decodeEph k).run (wireFrame k head' raws' rest') 0).value ≠
        ((decodeEph k).run (wireFrame k head raws rest) 0).value

theorem bodyDiffers_vals {head head' : Fin 8 → UInt8} {raws raws' : Raws (widths (layout k))}
    {rest rest' : Mem}
    (h : BodyDiffers k (wireFrame k head raws rest) (wireFrame k head' raws' rest')) :
    raws'.vals ≠ raws.vals := by
  rintro same
  obtain ⟨j, hj, differ⟩ := h
  refine differ (readFields_inj ?_ j hj)
  rw [readFields_wireFrame, readFields_wireFrame, same]

theorem decodesWire_of_ne (h : k ≠ .gps) (head : Fin 8 → UInt8) (raws : Raws (widths (layout k)))
    (rest : Mem) : DecodesWire k head raws rest := by
  refine ⟨by rw [fields_decodeEph _ h, readFields_wireFrame], ?_⟩
  intro head' raws' rest' differ same
  have fields := congrArg EphRecord.fields same
  rw [fields_decodeEph _ h, fields_decodeEph _ h, readFields_wireFrame, readFields_wireFrame]
    at fields
  exact bodyDiffers_vals differ (wireValues_inj raws'.fits raws.fits fields)

/-! ### The skipped bits of `m0` -/

/-- Bit 375 is the last bit of the GPS field `m0`; the decoder reads neither it
nor anything behind the frame. -/
theorem gps_reads (m : Mem) : ∀ r ∈ ((decodeEph .gps).run m 0).reads,
    r.1 + r.2 ≤ 600 ∧ (r.1 + r.2 ≤ 375 ∨ 375 < r.1) := by
  simp only [decodeEph, decodeGpsephb, BitReader.reads_run_bind, BitReader.run_pure, run_takeHead,
    run_takeBits, run_takeSignedBits, run_peekBits, run_peekSignedBits, run_skip, Nat.reduceAdd,
    Nat.reduceMul]
  decide

/-- The memory with bit 375 flipped. -/
def flip375 (m : Mem) : Mem := m.store8 46 (m 46 ^^^ 1)

theorem bitAt_flip375 (m : Mem) (p : Nat) :
    bitAt (flip375 m) p = if p = 375 then !bitAt m p else bitAt m p := by
  by_cases byte : p / 8 = 46
  · have one : (1 : UInt8).toNat = 2 ^ 0 := rfl
    rw [bitAt, bitAt, flip375, store8, if_pos byte, byte, UInt8.toNat_xor, Nat.testBit_xor, one,
      Nat.testBit_two_pow]
    by_cases last : p = 375
    · subst last
      simp
    · have other : ¬ 0 = 7 - p % 8 := by omega
      simp [last, other]
  · have other : p ≠ 375 := by omega
    rw [bitAt, bitAt, flip375, store8, if_neg byte, if_neg other]

/-- Two GPS frames with the same head and bodies that differ in bit 375 only. -/
theorem gps_not_decodesWire (head : Fin 8 → UInt8) (raws : Raws (widths (layout .gps)))
    (rest : Mem) : ¬ DecodesWire .gps head raws rest := by
  intro h
  let m := wireFrame .gps head raws rest
  let raws' : Raws (widths (layout .gps)) := ⟨_, readFields_fits (flip375 m) 64 _⟩
  let m' := wireFrame .gps head raws' rest
  have bodies : bodyBits .gps = 536 := by decide +kernel
  have body : ∀ j < 536, bitAt m' (64 + j) = bitAt (flip375 m) (64 + j) := by
    rw [← bodies]
    exact readFields_inj (readFields_wireFrame head raws' rest)
  refine h.distinct head raws' rest ⟨311, by omega, ?_⟩ ?_
  · have flipped := body 311 (by omega)
    rw [bitAt_flip375, if_pos rfl] at flipped
    change bitAt m (64 + 311) ≠ bitAt m' (64 + 311)
    rw [flipped]
    cases bitAt m (64 + 311) <;> simp
  · have agree : Reading.SameBits ((decodeEph .gps).run m 0).reads m m' := by
      intro r hr k hk
      obtain ⟨below, skipped⟩ := gps_reads m r hr
      rcases Nat.lt_or_ge (r.1 + k) 64 with inHead | inBody
      · have lt : (r.1 + k) / 8 < 8 := by omega
        have byte : m ((r.1 + k) / 8) = m' ((r.1 + k) / 8) :=
          (wireFrame_head head raws rest lt).trans (wireFrame_head head raws' rest lt).symm
        rw [bitAt, bitAt, byte]
      · obtain ⟨j, hj⟩ := Nat.exists_eq_add_of_le inBody
        rw [hj, body j (by omega), bitAt_flip375, if_neg (by omega)]
    exact congrArg Reading.value ((decodeEph .gps).sound m m' 0 agree)

/-- **Ephemeris decoding inverts the wire layout exactly for the kinds other
than GPS.** -/
theorem decodesWire_iff (k : EphKind) (head : Fin 8 → UInt8) (raws : Raws (widths (layout k)))
    (rest : Mem) : DecodesWire k head raws rest ↔ k ≠ .gps := by
  refine ⟨fun h same => ?_, fun h => decodesWire_of_ne h head raws rest⟩
  subst same
  exact gps_not_decodesWire head raws rest h

/-- A GPS ephemeris packet; its `m0` is 0x12345678. -/
def gpsPacket : List UInt8 :=
  [0x43, 0x53, 0x48, 0x47, 0x0B, 0x00, 0x40, 0x00, 0x8F, 0xC5, 0x46, 0x00, 0x14, 0x80, 0x3F,
   0x15, 0x18, 0x15, 0x18, 0x3F, 0xF8, 0xF1, 0xFF, 0xF4, 0x00, 0x34, 0x0D, 0x01, 0xF3, 0x0A,
   0x5C, 0x1B, 0x3E, 0x0F, 0x12, 0xFE, 0x71, 0x00, 0x31, 0xFF, 0xD4, 0x2F, 0x4A, 0x12, 0x34,
   0x56, 0x78, 0x01, 0xF3, 0xA2, 0xC4, 0xA1, 0x0D, 0x8B, 0x1C, 0x5B, 0x7C, 0x0D, 0x21, 0x27,
   0xC4, 0xA9, 0xF0, 0x90, 0xAB, 0x12, 0xCD, 0xFF, 0xA6, 0xC3, 0xF1, 0x40, 0xA8, 0x49, 0xD8]

/-- The head of the packet. -/
def gpsHead : Fin 8 → UInt8 := fun i => zeroPadded gpsPacket i

/-- The raw fields of the packet. -/
def gpsRaws : Raws (widths (layout .gps)) := ⟨_, readFields_fits (zeroPadded gpsPacket) 64 _⟩

/-- The scanner accepts the packet, and its decoder loses the low bits of `m0`. -/
theorem gps_not_decodesWire_packet :
    frameAt (wireFrame .gps gpsHead gpsRaws fun _ => 0) 75 0 = some ⟨.data1, 11, 64⟩ ∧
      ¬ DecodesWire .gps gpsHead gpsRaws fun _ => 0 := by
  refine ⟨by decide +kernel, fun h => ?_⟩
  have m0 : ((decodeEph .gps).run (wireFrame .gps gpsHead gpsRaws fun _ => 0) 0).value.fields[21]? ≠
      (wireValues (layout .gps) gpsRaws.vals)[21]? := by decide +kernel
  exact m0 (congrArg (fun fields : List RatPi => fields[21]?) h.fields)

end Ok3506.Gnss
