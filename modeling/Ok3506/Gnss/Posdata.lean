import Ok3506.Gnss.Decode
import Ok3506.Gnss.Scan

/-!
The signed fields of POSDATAB.

`read_signed_bits_be` returns `uint32_t`, and where its result is multiplied by a
`double` nothing converts it back. A field of 16 bits then decodes to its
two's-complement value exactly when its sign bit is clear. `leapSecond` is cast
to `int8_t`, and the position is read with the 64-bit reader, whose return type
is signed.
-/

namespace Ok3506.Gnss

open Mem Bits

/-- The documented value of a signed field: its two's-complement integer in units
of `1e-k`. -/
def signedDecimal (m : Mem) (off w k : Nat) : RatPi := scaleDecimal (toSigned w (bitsVal m off w)) k

/-- The signed fields of a POSDATAB frame, decoded as signed. -/
structure PosdataSigned (m : Mem) : Prop where
  leapSecond : (decodePosdatab.run m 0).value.leapSecond = toSigned 8 (bitsVal m 144 8)
  latitude : (decodePosdatab.run m 0).value.latitude = signedDecimal m 168 36 8
  longitude : (decodePosdatab.run m 0).value.longitude = signedDecimal m 204 36 8
  altitude : (decodePosdatab.run m 0).value.altitude = signedDecimal m 240 30 3
  eastVelocity : (decodePosdatab.run m 0).value.eastVelocity = signedDecimal m 270 16 2
  northVelocity : (decodePosdatab.run m 0).value.northVelocity = signedDecimal m 286 16 2
  upVelocity : (decodePosdatab.run m 0).value.upVelocity = signedDecimal m 302 16 2
  pitch : (decodePosdatab.run m 0).value.pitch = signedDecimal m 318 16 2
  roll : (decodePosdatab.run m 0).value.roll = signedDecimal m 334 16 2
  flWheelSpeed : (decodePosdatab.run m 0).value.flWheelSpeed = signedDecimal m 528 16 2
  frWheelSpeed : (decodePosdatab.run m 0).value.frWheelSpeed = signedDecimal m 544 16 2
  rlWheelSpeed : (decodePosdatab.run m 0).value.rlWheelSpeed = signedDecimal m 560 16 2
  rrWheelSpeed : (decodePosdatab.run m 0).value.rrWheelSpeed = signedDecimal m 576 16 2

/-- The first bits of the fields that reach a `double` as `uint32_t`. -/
def posdataSignBits : List Nat := [270, 286, 302, 318, 334, 528, 544, 560, 576]

theorem scaleDecimal_inj {a b : Int} {k : Nat} : scaleDecimal a k = scaleDecimal b k ↔ a = b := by
  constructor
  · intro h
    have rat := congrArg RatPi.rat h
    simp only [scaleDecimal] at rat
    have unit : (1 / 10 ^ k : ℚ) ≠ 0 := by positivity
    exact_mod_cast mul_right_cancel₀ unit rat
  · rintro rfl
    rfl

/-- A field read as `uint32_t` is right exactly when its sign bit is clear. -/
theorem unsigned_eq_signedDecimal_iff (m : Mem) (off : Nat) {w k : Nat} (lt : w + 1 < 32) :
    scaleDecimal (readSignedBitsBe m off (w + 1)) k = signedDecimal m off (w + 1) k ↔
      bitAt m off = false := by
  have pow : 2 ^ (w + 1) < 2 ^ 32 := Nat.pow_lt_pow_right (by omega) lt
  have value := bitsVal_lt m off (w + 1)
  have cast : ((2 ^ (w + 1) : Nat) : Int) = (2 : Int) ^ (w + 1) := by push_cast; rfl
  rw [signedDecimal, scaleDecimal_inj, bitAt_eq_decide_le m off w, decide_eq_false_iff_not,
    readSignedBitsBe_eq m off (by omega) lt]
  by_cases sign : 2 ^ w ≤ bitsVal m off (w + 1)
  · rw [if_neg (by rw [Nat.pow_succ]; omega), toSigned_of_ge (by rw [Nat.pow_succ]; omega), ← cast]
    omega
  · rw [if_pos (by rw [Nat.pow_succ]; omega), toSigned_of_lt (by rw [Nat.pow_succ]; omega)]
    simp [sign]

/-- The 64-bit reader gives the documented value. -/
theorem signed64_eq_signedDecimal (m : Mem) (off : Nat) {w k : Nat} (pos : 0 < w) (le : w ≤ 64) :
    scaleDecimal (readSignedBitsBe64 m off w) k = signedDecimal m off w k := by
  rw [signedDecimal, readSignedBitsBe64_eq m off pos le]

/-- **POSDATAB decodes its signed fields exactly when none of the nine 16-bit
fields is negative.** -/
theorem posdataSigned_iff (m : Mem) :
    PosdataSigned m ↔ ∀ off ∈ posdataSignBits, bitAt m off = false := by
  have fields (off : Nat) := unsigned_eq_signedDecimal_iff m off (w := 15) (k := 2) (by omega)
  simp only [posdataSignBits, List.forall_mem_cons, List.not_mem_nil, false_implies, implies_true,
    and_true, ← fields]
  have run : (decodePosdatab.run m 0).value = (decodePosdatab.run m 0).value := rfl
  conv_rhs at run =>
    simp only [decodePosdatab, BitReader.value_run_bind, BitReader.run_pure, run_takeHead,
      run_takeBits, run_takeSignedBits, run_takeSignedBits64, run_peekBits, Nat.reduceAdd,
      Nat.reduceMul]
  constructor
  · rintro ⟨-, -, -, -, e, n, u, p, r, fl, fr, rl, rr⟩
    rw [run] at e n u p r fl fr rl rr
    exact ⟨e, n, u, p, r, fl, fr, rl, rr⟩
  · rintro ⟨e, n, u, p, r, fl, fr, rl, rr⟩
    constructor <;> rw [run]
    · simp only
      exact int8_readSignedBitsBe m 144
    · exact signed64_eq_signedDecimal m 168 (by omega) (by omega)
    · exact signed64_eq_signedDecimal m 204 (by omega) (by omega)
    · exact signed64_eq_signedDecimal m 240 (by omega) (by omega)
    · exact e
    · exact n
    · exact u
    · exact p
    · exact r
    · exact fl
    · exact fr
    · exact rl
    · exact rr

/-- A POSDATAB packet of zeros but for an east velocity of -1. -/
def westwardPacket : List UInt8 :=
  [0x24, 0x48, 0x45, 0x58, 0x44, 0x41, 0x54, 0x41, 0x90, 0xF0, 0x46, 0x00] ++
    List.replicate 21 0 ++ [0x03, 0xFF, 0xFC] ++ List.replicate 46 0 ++ [0x4D, 0x3A, 0x5C]

/-- The packet with zeros behind it. -/
def westwardFrame : Mem := ofList westwardPacket fun _ => 0

/-- The scanner accepts the packet, and its east velocity of -0.01 m/s decodes as
42949672.95 m/s. -/
theorem not_posdataSigned_westwardFrame :
    frameAt westwardFrame 85 0 = some ⟨.data2, 0xF090, 70⟩ ∧
      (decodePosdatab.run westwardFrame 0).value.eastVelocity = scaleDecimal 4294967295 2 ∧
      signedDecimal westwardFrame 270 16 2 = scaleDecimal (-1) 2 ∧
      ¬ PosdataSigned westwardFrame := by
  have decoded : (decodePosdatab.run westwardFrame 0).value.eastVelocity =
      scaleDecimal (readSignedBitsBe westwardFrame 270 16) 2 := by
    simp only [decodePosdatab, BitReader.value_run_bind, BitReader.run_pure, run_takeHead,
      run_takeBits, run_takeSignedBits, run_takeSignedBits64, run_peekBits, Nat.reduceAdd,
      Nat.reduceMul]
  have raw : readSignedBitsBe westwardFrame 270 16 = 4294967295 := by decide +kernel
  have value : toSigned 16 (bitsVal westwardFrame 270 16) = -1 := by decide +kernel
  rw [raw] at decoded
  refine ⟨by decide +kernel, decoded, by rw [signedDecimal, value], ?_⟩
  intro signed
  have east := signed.eastVelocity
  rw [decoded, signedDecimal, value, scaleDecimal_inj] at east
  omega

end Ok3506.Gnss
