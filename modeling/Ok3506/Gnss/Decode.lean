import Ok3506.Gnss.BitFields
import Ok3506.Gnss.Records

/-!
The decoders of `gnss_ephb_decode.c`, one line for each field they fill.

A decoder runs from bit 0 of the packet header. `takeBits 12` stands for
`read_bits_be(payload, bit, 12)` followed by `bit += 12`; where a read and its
advance differ both are written out.
-/

namespace Ok3506.Gnss

open Bits

/-- `decode_bd2ephb`. -/
def decodeBd2ephb : BitReader Bd2ephbDecoded := do
  let head ← takeHead 8
  let gpsWeekCount := uint16 (← takeBits 12)
  let gpsTowS ← takeBits 20
  let bd2Satid := uint8 (← takeBits 6)
  let bd2SvUrai := uint8 (← takeBits 4)
  let bd2SvHealth := uint8 (← takeBits 1)
  let bd2Week := uint16 (← takeBits 13)
  let bd2Toe ← takeBits 17
  let bd2Toc ← takeBits 17
  let bd2Af0 := scalePow2 (int32 (← takeSignedBits 24)) (-33)
  let bd2Af1 := scalePow2 (int32 (← takeSignedBits 22)) (-50)
  let bd2Af2 := scalePow2 (int32 (← takeSignedBits 11)) (-66)
  let bd2Aode := uint8 (← takeBits 5)
  let bd2Aodc := uint8 (← takeBits 5)
  let bd2Idot := scalePiPow2 (int32 (← takeSignedBits 14)) (-43)
  let bd2Crs := scalePow2 (int32 (← takeSignedBits 18)) (-6)
  let bd2Crc := scalePow2 (int32 (← takeSignedBits 18)) (-6)
  let bd2Cus := scalePow2 (int32 (← takeSignedBits 18)) (-31)
  let bd2Cuc := scalePow2 (int32 (← takeSignedBits 18)) (-31)
  let bd2Cis := scalePow2 (int32 (← takeSignedBits 18)) (-31)
  let bd2Cic := scalePow2 (int32 (← takeSignedBits 18)) (-31)
  let bd2DeltaN := scalePiPow2 (int32 (← takeSignedBits 16)) (-43)
  let bd2M0 := scalePiPow2 (int32 (← takeSignedBits 32)) (-31)
  let bd2Ecc := scalePow2U (← takeBits 32) (-33)
  let bd2AHalf := scalePow2U (← takeBits 32) (-19)
  let bd2Omega0 := scalePiPow2 (int32 (← takeSignedBits 32)) (-31)
  let bd2I0 := scalePiPow2 (int32 (← takeSignedBits 32)) (-31)
  let bd2Omega := scalePiPow2 (int32 (← takeSignedBits 32)) (-31)
  let bd2Omegadot := scalePiPow2 (int32 (← takeSignedBits 24)) (-43)
  let bd2Tgd1 := scaleTenthNs (int32 (← takeSignedBits 10))
  let bd2Tgd2 := scaleTenthNs (int32 (← takeSignedBits 10))
  let bd2Reserved := uint8 (← takeBits 5)
  let crc24 ← peekBits 24
  return { head, gpsWeekCount, gpsTowS, bd2Satid, bd2SvUrai, bd2SvHealth, bd2Week, bd2Toe,
           bd2Toc, bd2Af0, bd2Af1, bd2Af2, bd2Aode, bd2Aodc, bd2Idot, bd2Crs, bd2Crc, bd2Cus,
           bd2Cuc, bd2Cis, bd2Cic, bd2DeltaN, bd2M0, bd2Ecc, bd2AHalf, bd2Omega0, bd2I0,
           bd2Omega, bd2Omegadot, bd2Tgd1, bd2Tgd2, bd2Reserved, crc24 }

/-- `decode_bd3ephb`. -/
def decodeBd3ephb : BitReader Bd3ephbDecoded := do
  let head ← takeHead 8
  let gpsWeekCount := uint16 (← takeBits 12)
  let gpsTowS ← takeBits 20
  let bd3Satid := uint8 (← takeBits 6)
  let bd3Sattype := uint8 (← takeBits 3)
  let bd3Week := uint16 (← takeBits 13)
  let bd3Toe := uint32 ((← takeBits 11) * 300)
  let bd3Toc := uint32 ((← takeBits 11) * 300)
  let bd3Af0 := scalePow264 (← takeSignedBits64 25) (-34)
  let bd3Af1 := scalePow264 (← takeSignedBits64 22) (-50)
  let bd3Af2 := scalePow264 (← takeSignedBits64 11) (-66)
  let bd3Iode := uint8 (← takeBits 8)
  let bd3Iodc := uint16 (← takeBits 16)
  let bd3Idot := scalePiPow264 (← takeSignedBits64 15) (-44)
  let bd3Crs := scalePow264 (← takeSignedBits64 24) (-8)
  let bd3Crc := scalePow264 (← takeSignedBits64 24) (-8)
  let bd3Cus := scalePow264 (← takeSignedBits64 21) (-30)
  let bd3Cuc := scalePow264 (← takeSignedBits64 21) (-30)
  let bd3Cis := scalePow264 (← takeSignedBits64 16) (-30)
  let bd3Cic := scalePow264 (← takeSignedBits64 16) (-30)
  let bd3DeltaN0 := scalePiPow264 (← takeSignedBits64 17) (-44)
  let bd3DeltaN0Dot := scalePiPow264 (← takeSignedBits64 23) (-57)
  let bd3M0 := scalePiPow264 (int64 (← takeBits64 33)) (-32)
  let bd3Ecc := scalePow2U64 (← takeBits64 33) (-34)
  let bd3DeltaA := scalePow264 (int64 (← takeBits64 26)) (-9)
  let bd3Adot := scalePow264 (← takeSignedBits64 25) (-21)
  let bd3Omega0 := scalePiPow264 (int64 (← takeBits64 33)) (-32)
  let bd3I0 := scalePiPow264 (int64 (← takeBits64 33)) (-32)
  let bd3Omega := scalePiPow264 (int64 (← takeBits64 33)) (-32)
  let bd3Omegadot := scalePiPow264 (← takeSignedBits64 19) (-44)
  let bd3Tgdb1cp := scalePow264 (← takeSignedBits64 12) (-34)
  let bd3Tgdb2ap := scalePow264 (← takeSignedBits64 12) (-34)
  let bd3Iscb1cd := scalePow264 (← takeSignedBits64 12) (-34)
  let bd3Reserved := uint8 (← takeBits 2)
  let crc24 ← peekBits 24
  return { head, gpsWeekCount, gpsTowS, bd3Satid, bd3Sattype, bd3Week, bd3Toe, bd3Toc, bd3Af0,
           bd3Af1, bd3Af2, bd3Iode, bd3Iodc, bd3Idot, bd3Crs, bd3Crc, bd3Cus, bd3Cuc, bd3Cis,
           bd3Cic, bd3DeltaN0, bd3DeltaN0Dot, bd3M0, bd3Ecc, bd3DeltaA, bd3Adot, bd3Omega0,
           bd3I0, bd3Omega, bd3Omegadot, bd3Tgdb1cp, bd3Tgdb2ap, bd3Iscb1cd, bd3Reserved,
           crc24 }

/-- `decode_bd3cnav2ephb`. -/
def decodeBd3cnav2ephb : BitReader Bd3cnav2ephbDecoded := do
  let head ← takeHead 8
  let gpsWeekCount := uint16 (← takeBits 12)
  let gpsTowS ← takeBits 20
  let bdsSatid := uint8 (← takeBits 6)
  let bdsSattype := uint8 (← takeBits 3)
  let bdsWeek := uint16 (← takeBits 13)
  let bdsToe := uint32 ((← takeBits 11) * 300)
  let bdsToc := uint32 ((← takeBits 11) * 300)
  let bdsAf0 := scalePow264 (← takeSignedBits64 25) (-34)
  let bdsAf1 := scalePow264 (← takeSignedBits64 22) (-50)
  let bdsAf2 := scalePow264 (← takeSignedBits64 11) (-66)
  let bdsIode := uint8 (← takeBits 8)
  let bdsIodc := uint16 (← takeBits 16)
  let bdsIdot := scalePiPow264 (← takeSignedBits64 15) (-44)
  let bdsCrs := scalePow264 (← takeSignedBits64 24) (-8)
  let bdsCrc := scalePow264 (← takeSignedBits64 24) (-8)
  let bdsCus := scalePow264 (← takeSignedBits64 21) (-30)
  let bdsCuc := scalePow264 (← takeSignedBits64 21) (-30)
  let bdsCis := scalePow264 (← takeSignedBits64 16) (-30)
  let bdsCic := scalePow264 (← takeSignedBits64 16) (-30)
  let bdsDeltaN0 := scalePiPow264 (← takeSignedBits64 17) (-44)
  let bdsDeltaN0Dot := scalePow264 (← takeSignedBits64 23) (-57)
  let bdsM0 := scalePiPow264 (int64 (← takeBits64 33)) (-32)
  let bdsEcc := scalePow2U64 (← takeBits64 33) (-34)
  let bdsAA := scalePow264 (int64 (← takeBits64 26)) (-9)
  let bdsAdot := scalePow264 (← takeSignedBits64 25) (-21)
  let bdsOmega0 := scalePiPow264 (int64 (← takeBits64 33)) (-32)
  let bdsI0 := scalePiPow264 (int64 (← takeBits64 33)) (-32)
  let bdsOmega := scalePiPow264 (int64 (← takeBits64 33)) (-32)
  let bdsOmegadot := scalePiPow264 (← takeSignedBits64 19) (-44)
  let bdsTgdb1cp := scalePow264 (← takeSignedBits64 12) (-34)
  let bdsTgdb2ap := scalePow264 (← takeSignedBits64 12) (-34)
  let bdsIscb2ad := scalePow264 (← takeSignedBits64 12) (-34)
  let bdsReserved := uint8 (← takeBits 2)
  let crc24 ← peekBits 24
  return { head, gpsWeekCount, gpsTowS, bdsSatid, bdsSattype, bdsWeek, bdsToe, bdsToc, bdsAf0,
           bdsAf1, bdsAf2, bdsIode, bdsIodc, bdsIdot, bdsCrs, bdsCrc, bdsCus, bdsCuc, bdsCis,
           bdsCic, bdsDeltaN0, bdsDeltaN0Dot, bdsM0, bdsEcc, bdsAA, bdsAdot, bdsOmega0, bdsI0,
           bdsOmega, bdsOmegadot, bdsTgdb1cp, bdsTgdb2ap, bdsIscb2ad, bdsReserved, crc24 }

/-- `decode_bd3cnav3ephb`. -/
def decodeBd3cnav3ephb : BitReader Bd3cnav3ephbDecoded := do
  let head ← takeHead 8
  let gpsWeekCount := uint16 (← takeBits 12)
  let gpsTowS ← takeBits 20
  let bdsSatid := uint8 (← takeBits 6)
  let bdsSattype := uint8 (← takeBits 3)
  let bdsWeek := uint16 (← takeBits 13)
  let bdsToe := uint32 ((← takeBits 11) * 300)
  let bdsToc := uint32 ((← takeBits 11) * 300)
  let bdsAf0 := scalePow264 (← takeSignedBits64 25) (-34)
  let bdsAf1 := scalePow264 (← takeSignedBits64 22) (-50)
  let bdsAf2 := scalePow264 (← takeSignedBits64 11) (-66)
  let bdsIode := uint8 (← takeBits 8)
  let bdsIodc := uint16 (← takeBits 16)
  let bdsIdot := scalePiPow264 (← takeSignedBits64 15) (-44)
  let bdsCrs := scalePow264 (← takeSignedBits64 24) (-8)
  let bdsCrc := scalePow264 (← takeSignedBits64 24) (-8)
  let bdsCus := scalePow264 (← takeSignedBits64 21) (-30)
  let bdsCuc := scalePow264 (← takeSignedBits64 21) (-30)
  let bdsCis := scalePow264 (← takeSignedBits64 16) (-30)
  let bdsCic := scalePow264 (← takeSignedBits64 16) (-30)
  let bdsDeltaN0 := scalePiPow264 (← takeSignedBits64 17) (-44)
  let bdsDeltaN0Dot := scalePow264 (← takeSignedBits64 23) (-57)
  let bdsM0 := scalePiPow264 (int64 (← takeBits64 33)) (-32)
  let bdsEcc := scalePow2U64 (← takeBits64 33) (-34)
  let bdsDeltaA := scalePow264 (int64 (← takeBits64 26)) (-9)
  let bdsAdot := scalePow264 (← takeSignedBits64 25) (-21)
  let bdsOmega0 := scalePiPow264 (int64 (← takeBits64 33)) (-32)
  let bdsI0 := scalePiPow264 (int64 (← takeBits64 33)) (-32)
  let bdsOmega := scalePiPow264 (int64 (← takeBits64 33)) (-32)
  let bdsOmegadot := scalePiPow264 (← takeSignedBits64 19) (-44)
  let bdsTgdb2bI := scalePow264 (← takeSignedBits64 12) (-34)
  let bdsReserved := uint32 (← takeBits 26)
  let crc24 ← peekBits 24
  return { head, gpsWeekCount, gpsTowS, bdsSatid, bdsSattype, bdsWeek, bdsToe, bdsToc, bdsAf0,
           bdsAf1, bdsAf2, bdsIode, bdsIodc, bdsIdot, bdsCrs, bdsCrc, bdsCus, bdsCuc, bdsCis,
           bdsCic, bdsDeltaN0, bdsDeltaN0Dot, bdsM0, bdsEcc, bdsDeltaA, bdsAdot, bdsOmega0,
           bdsI0, bdsOmega, bdsOmegadot, bdsTgdb2bI, bdsReserved, crc24 }

/-- `decode_bdxwephb`. -/
def decodeBdxwephb : BitReader BdxwephbDecoded := do
  let head ← takeHead 8
  let gpsWeekCount := uint16 (← takeBits 12)
  let gpsTowS ← takeBits 20
  let xwsSatid := uint8 (← takeBits 8)
  let xwsSattype := uint8 (← takeBits 2)
  let xwsWeek := uint16 (← takeBits 13)
  let xwsToe := uint32 ((← takeBits 16) * 12)
  let xwsToc := uint32 ((← takeBits 17) * 6)
  let xwsAf0 := scalePow2 (int32 (← takeSignedBits 27)) (-36)
  let xwsAf1 := scalePow2 (int32 (← takeSignedBits 22)) (-50)
  let xwsIodc := uint8 (← takeBits 4)
  let xwsIode := uint8 (← takeBits 3)
  let xwsCrs := scalePow2 (int32 (← takeSignedBits 26)) (-11)
  let xwsCrc := scalePow2 (int32 (← takeSignedBits 26)) (-11)
  let xwsCus := scalePiPow2 (int32 (← takeSignedBits 25)) (-34)
  let xwsCuc := scalePiPow2 (int32 (← takeSignedBits 25)) (-34)
  let xwsCis := scalePiPow2 (int32 (← takeSignedBits 21)) (-34)
  let xwsCic := scalePiPow2 (int32 (← takeSignedBits 21)) (-34)
  let xwsDeltacic := scalePiPow2 (int32 (← takeSignedBits 21)) (-34)
  let xwsDeltacis := scalePiPow2 (int32 (← takeSignedBits 21)) (-34)
  let xwsDeltacrs := scalePiPow2 (int32 (← takeSignedBits 26)) (-11)
  let xwsDeltacrc := scalePiPow2 (int32 (← takeSignedBits 26)) (-11)
  let xwsDeltaN0 := scalePiPow2 (int32 (← takeSignedBits 27)) (-45)
  let xwsDeltaN0Dot := scalePiPow264 (← takeSignedBits64 33) (-54)
  let xwsM0 := scalePiPow264 (← takeSignedBits64 36) (-35)
  let xwsEcc := scalePow2U64 (← takeBits64 30) (-35)
  let xwsDeltaA0 := scalePow2 (int32 (← takeSignedBits 27)) (-10)
  let xwsI0Dot := scalePiPow2 (int32 (← takeSignedBits 22)) (-45)
  let xwsADot := scalePow2 (int32 (← takeSignedBits 22)) (-19)
  let xwsDeltaI0 := scalePiPow264 (← takeSignedBits64 31) (-35)
  let xwsOmega0 := scalePiPow264 (← takeSignedBits64 36) (-35)
  let xwsOmegaDot := scalePiPow2 (int32 (← takeSignedBits 26)) (-45)
  let xwsOmega := scalePiPow264 (← takeSignedBits64 36) (-35)
  let xwsReserved ← takeBits64 36
  let crc24 ← peekBits 24
  return { head, gpsWeekCount, gpsTowS, xwsSatid, xwsSattype, xwsWeek, xwsToe, xwsToc, xwsAf0,
           xwsAf1, xwsIodc, xwsIode, xwsCrs, xwsCrc, xwsCus, xwsCuc, xwsCis, xwsCic,
           xwsDeltacic, xwsDeltacis, xwsDeltacrs, xwsDeltacrc, xwsDeltaN0, xwsDeltaN0Dot, xwsM0,
           xwsEcc, xwsDeltaA0, xwsI0Dot, xwsADot, xwsDeltaI0, xwsOmega0, xwsOmegaDot, xwsOmega,
           xwsReserved, crc24 }

/-- `decode_gpsephb`. -/
def decodeGpsephb : BitReader GpsephbDecoded := do
  let head ← takeHead 8
  let gpsWeekCount := uint16 (← takeBits 12)
  let gpsTowS ← takeBits 20
  let gpsSatid := uint8 (← takeBits 6)
  let gpsSvAccuracy := uint8 (← takeBits 4)
  let gpsSvHealth := uint8 (← takeBits 6)
  let gpsWeek := uint16 (← takeBits 10)
  let gpsToe := uint16 (← takeBits 16)
  let gpsToc := uint16 (← takeBits 16)
  let gpsAf0 := scalePow2 (int32 (← takeSignedBits 22)) (-31)
  let gpsAf1 := scalePow2 (int32 (← takeSignedBits 16)) (-43)
  let gpsAf2 := scalePow2 (int32 (← takeSignedBits 8)) (-55)
  let gpsIode := uint8 (← takeBits 8)
  let gpsIodc := uint16 (← takeBits 10)
  let gpsIdot := scalePow2 (int32 (← takeSignedBits 14)) (-43)
  let gpsCrs := scalePow2 (int32 (← takeSignedBits 16)) (-5)
  let gpsCrc := scalePow2 (int32 (← takeSignedBits 16)) (-5)
  let gpsCus := scalePow2 (int32 (← takeSignedBits 16)) (-29)
  let gpsCuc := scalePow2 (int32 (← takeSignedBits 16)) (-29)
  let gpsCis := scalePow2 (int32 (← takeSignedBits 16)) (-29)
  let gpsCic := scalePow2 (int32 (← takeSignedBits 16)) (-29)
  let gpsDeltaN := scalePow2 (int32 (← takeSignedBits 16)) (-43)
  let gpsM0 := scalePow2 (int32 (← peekSignedBits 22)) (-31)
  BitReader.skip 32 -- the read above takes 22 bits, the advance is 32
  let gpsEcc := scalePow2U (← takeBits 32) (-33)
  let gpsAHalf := scalePow2U (← takeBits 32) (-19)
  let gpsOmega0 := scalePow2 (int32 (← takeSignedBits 32)) (-31)
  let gpsI0 := scalePow2 (int32 (← takeSignedBits 32)) (-31)
  let gpsOmega := scalePow2 (int32 (← takeSignedBits 32)) (-31)
  let gpsOmegadot := scalePow2 (int32 (← takeSignedBits 24)) (-43)
  let gpsTgd := scalePow2 (int32 (← takeSignedBits 8)) (-31)
  let gpsCodeOnL2 := uint8 (← takeBits 2)
  let gpsL2pDataFlag := uint8 (← takeBits 1)
  let gpsFit := uint8 (← takeBits 1)
  let reserved := uint8 (← takeBits 4)
  let crc24 ← peekBits 24
  return { head, gpsWeekCount, gpsTowS, gpsSatid, gpsSvAccuracy, gpsSvHealth, gpsWeek, gpsToe,
           gpsToc, gpsAf0, gpsAf1, gpsAf2, gpsIode, gpsIodc, gpsIdot, gpsCrs, gpsCrc, gpsCus,
           gpsCuc, gpsCis, gpsCic, gpsDeltaN, gpsM0, gpsEcc, gpsAHalf, gpsOmega0, gpsI0,
           gpsOmega, gpsOmegadot, gpsTgd, gpsCodeOnL2, gpsL2pDataFlag, gpsFit, reserved, crc24 }

/-- `decode_gloephb`. -/
def decodeGloephb : BitReader GloephbDecoded := do
  let head ← takeHead 8
  let gpsWeekCount := uint16 (← takeBits 12)
  let gpsTowS ← takeBits 20
  let gloSatid := uint8 (← takeBits 6)
  let gloFreq := uint8 (← takeBits 5)
  let gloBnMsb := uint8 (← takeBits 1)
  let gloN4 := uint8 (← takeBits 5)
  let gloNt := uint16 (← takeBits 11)
  let gloTk := uint16 (← takeBits 12)
  let gloTb := uint8 (← takeBits 7)
  let gloGamma := scalePow2 (int32 (← takeSignedBits 11)) (-40)
  let gloTau := scalePow2 (int32 (← takeSignedBits 22)) (-30)
  let gloX := scalePow2 (int32 (← takeSignedBits 27)) (-11)
  let gloXDot := scalePow2 (int32 (← takeSignedBits 24)) (-20)
  let gloXDdot := scalePow2 (int32 (← takeSignedBits 5)) (-30)
  let gloY := scalePow2 (int32 (← takeSignedBits 27)) (-11)
  let gloYDot := scalePow2 (int32 (← takeSignedBits 24)) (-20)
  let gloYDdot := scalePow2 (int32 (← takeSignedBits 5)) (-30)
  let gloZ := scalePow2 (int32 (← takeSignedBits 27)) (-11)
  let gloZDot := scalePow2 (int32 (← takeSignedBits 24)) (-20)
  let gloZDdot := scalePow2 (int32 (← takeSignedBits 5)) (-30)
  let crc24 ← peekBits 24
  return { head, gpsWeekCount, gpsTowS, gloSatid, gloFreq, gloBnMsb, gloN4, gloNt, gloTk, gloTb,
           gloGamma, gloTau, gloX, gloXDot, gloXDdot, gloY, gloYDot, gloYDdot, gloZ, gloZDot,
           gloZDdot, crc24 }

/-- `decode_galephb`. -/
def decodeGalephb : BitReader GalephbDecoded := do
  let head ← takeHead 8
  let gpsWeekCount := uint16 (← takeBits 12)
  let gpsTowS ← takeBits 20
  let galSatid := uint8 (← takeBits 6)
  let galSisa := uint8 (← takeBits 8)
  let galE5bSvHealth := uint8 (← takeBits 2)
  let galE5bValid := uint8 (← takeBits 1)
  let galE1bHealth := uint8 (← takeBits 2)
  let galE1bValid := uint8 (← takeBits 1)
  let galWeek := uint16 (← takeBits 12)
  let galToe := uint32 ((← takeBits 14) * 60)
  let galToc := uint32 ((← takeBits 14) * 60)
  let galAf0 := scalePow2 (int32 (← takeSignedBits 31)) (-34)
  let galAf1 := scalePow2 (int32 (← takeSignedBits 21)) (-46)
  let galAf2 := scalePow2 (int32 (← takeSignedBits 6)) (-59)
  let galIodnav := uint16 (← takeBits 10)
  let galIdot := scalePiPow2 (int32 (← takeSignedBits 14)) (-43)
  let galCrs := scalePow2 (int32 (← takeSignedBits 16)) (-5)
  let galCrc := scalePow2 (int32 (← takeSignedBits 16)) (-5)
  let galCus := scalePow2 (int32 (← takeSignedBits 16)) (-29)
  let galCuc := scalePow2 (int32 (← takeSignedBits 16)) (-29)
  let galCis := scalePow2 (int32 (← takeSignedBits 16)) (-29)
  let galCic := scalePow2 (int32 (← takeSignedBits 16)) (-29)
  let galDeltaN := scalePiPow2 (int32 (← takeSignedBits 16)) (-43)
  let galM0 := scalePiPow2 (int32 (← takeSignedBits 32)) (-31)
  let galEcc := scalePow2U (← takeBits 32) (-33)
  let galAHalf := scalePow2U (← takeBits 32) (-19)
  let galOmega0 := scalePiPow2 (int32 (← takeSignedBits 32)) (-31)
  let galI0 := scalePiPow2 (int32 (← takeSignedBits 32)) (-31)
  let galOmega := scalePiPow2 (int32 (← takeSignedBits 32)) (-31)
  let galOmegadot := scalePiPow2 (int32 (← takeSignedBits 24)) (-43)
  let galBgdE5aE1 := scalePow2 (int32 (← takeSignedBits 10)) (-32)
  let galBgdE5bE1 := scalePow2 (int32 (← takeSignedBits 10)) (-32)
  let galNavtype := uint8 (← takeBits 2)
  let galReserved := uint8 (← takeBits 4)
  let crc24 ← peekBits 24
  return { head, gpsWeekCount, gpsTowS, galSatid, galSisa, galE5bSvHealth, galE5bValid,
           galE1bHealth, galE1bValid, galWeek, galToe, galToc, galAf0, galAf1, galAf2,
           galIodnav, galIdot, galCrs, galCrc, galCus, galCuc, galCis, galCic, galDeltaN, galM0,
           galEcc, galAHalf, galOmega0, galI0, galOmega, galOmegadot, galBgdE5aE1, galBgdE5bE1,
           galNavtype, galReserved, crc24 }

/-- The inner loop body of `decode_prangeb`: one signal, with its 4 reserved bits. -/
def decodePrangebSignal : BitReader PrangebSignal := do
  let signalId := uint8 (← takeBits 6)
  let phaseLockFlag := uint8 (← takeBits 4)
  let precisePr := scalePow2 (int16 (← takeSignedBits 15)) (-24)
  let precisePhase := scalePow2 (int32 (← takeSignedBits 22)) (-29)
  let precisePhaseRate := scalePow2 (int16 (← takeSignedBits 15)) (-4)
  let cn0 := scalePow2U (uint16 (← takeBits 13)) (-2)
  let halfCycle := uint8 (← takeBits 1)
  BitReader.skip 4
  return { signalId, phaseLockFlag, precisePr, precisePhase, precisePhaseRate, cn0, halfCycle }

/-- The outer loop body of `decode_prangeb`: one satellite and its signals. -/
def decodePrangebSat : BitReader PrangebSat := do
  let satId := uint8 (← takeBits 6)
  let signalCount := uint8 (← takeBits 4)
  let intMs := uint16 (← takeBits 8)
  let fracMs := uint16 (← takeBits 10)
  let apdMs := RatPi.ofRat intMs + scalePow2 fracMs (-10)
  let approxPhaseRate := int16 (← takeSignedBits 14)
  BitReader.skip 6
  let signalInfo ← BitReader.times signalCount decodePrangebSignal
  return { satId, signalCount, apdMs, approxPhaseRate, signalInfo }

/-- `decode_prangeb`. The source computes `available_bits` from `payload_len` and
never reads it, so only the check for fewer than three bytes bounds the loops. -/
def decodePrangeb (payloadLen : Nat) : BitReader PrangebDecoded :=
  if payloadLen < 3 then
    return ⟨List.replicate 8 0, 0, 0, 0, 0, 0, 0, [], 0⟩
  else do
    let head ← takeHead 8
    let gpsWeekCount := uint16 (← takeBits 12)
    let gpsTowS ← takeBits 20
    let msCount := uint8 (← takeBits 7)
    let syncFlag := uint8 (← takeBits 1)
    let systemId := uint8 (← takeBits 3)
    let satCount := uint8 (← takeBits 6)
    BitReader.skip 7
    let satInfo ← BitReader.times satCount decodePrangebSat
    let crc24 ← peekBits 24
    return { head, gpsWeekCount, gpsTowS, msCount, syncFlag, systemId, satCount, satInfo, crc24 }

/-- `(double)raw * 1.0e-k`. -/
def scaleDecimal (raw : Int) (k : Nat) : RatPi := ⟨raw * (1 / 10 ^ k), 0⟩

/-- `decode_posdatab`; the products convert whatever type the reader returns. -/
def decodePosdatab : BitReader PosdatabDecoded := do
  let head ← takeHead 12
  let timeSystem := uint8 (← takeBits 3)
  let weekNum := uint16 (← takeBits 13)
  let secInWeek := scaleDecimal (← takeBits 32) 3
  let leapSecond := int8 (← takeSignedBits 8)
  let sysStatus := uint8 (← takeBits 4)
  let posType := uint8 (← takeBits 6)
  let aziType := uint8 (← takeBits 6)
  let latitude := scaleDecimal (← takeSignedBits64 36) 8
  let longitude := scaleDecimal (← takeSignedBits64 36) 8
  let altitude := scaleDecimal (← takeSignedBits64 30) 3
  let eastVelocity := scaleDecimal (← takeSignedBits 16) 2
  let northVelocity := scaleDecimal (← takeSignedBits 16) 2
  let upVelocity := scaleDecimal (← takeSignedBits 16) 2
  let pitch := scaleDecimal (← takeSignedBits 16) 2
  let roll := scaleDecimal (← takeSignedBits 16) 2
  let azimuth := scaleDecimal (← takeSignedBits 16) 2
  let latSigma := scaleDecimal (← takeSignedBits 18) 3
  let lonSigma := scaleDecimal (← takeSignedBits 18) 3
  let altitudeSigma := scaleDecimal (← takeSignedBits 18) 3
  let eastVelSigma := scaleDecimal (← takeSignedBits 12) 2
  let northVelSigma := scaleDecimal (← takeSignedBits 12) 2
  let upVelSigma := scaleDecimal (← takeSignedBits 12) 2
  let pitchSigma := scaleDecimal (← takeSignedBits 12) 2
  let rollSigma := scaleDecimal (← takeSignedBits 12) 2
  let azimuthSigma := scaleDecimal (← takeSignedBits 12) 2
  let gnssSatM := uint8 (← takeBits 8)
  let gnssSatS := uint8 (← takeBits 8)
  let diffAge := scaleDecimal (← takeBits 16) 1
  let odoFlag := uint8 (← takeBits 1)
  let gear := uint8 (← takeBits 3)
  let flWheelSpeed := scaleDecimal (← takeSignedBits 16) 2
  let frWheelSpeed := scaleDecimal (← takeSignedBits 16) 2
  let rlWheelSpeed := scaleDecimal (← takeSignedBits 16) 2
  let rrWheelSpeed := scaleDecimal (← takeSignedBits 16) 2
  let reserved0 ← takeBits 32
  let reserved1 ← takeBits 32
  let crc24 ← peekBits 24
  return { head, timeSystem, weekNum, secInWeek, leapSecond, sysStatus, posType, aziType,
           latitude, longitude, altitude, eastVelocity, northVelocity, upVelocity, pitch, roll,
           azimuth, latSigma, lonSigma, altitudeSigma, eastVelSigma, northVelSigma, upVelSigma,
           pitchSigma, rollSigma, azimuthSigma, gnssSatM, gnssSatS, diffAge, odoFlag, gear,
           flWheelSpeed, frWheelSpeed, rlWheelSpeed, rrWheelSpeed, reserved0, reserved1, crc24 }

end Ok3506.Gnss
