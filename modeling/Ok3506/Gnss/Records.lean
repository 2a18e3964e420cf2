import Ok3506.Lib.RatPi

/-!
The decoded records of `gnss_func.h`.

Unsigned members are natural numbers, signed members integers and doubles their
exact values. The observation arrays of PRANGEB are lists of the decoded length;
`memset` leaves the rest of the C arrays zero.
-/

namespace Ok3506.Gnss

/-- `BD2EPHB_Decoded_t`: BDS-2 ephemeris. -/
structure Bd2ephbDecoded where
  head : List UInt8
  (gpsWeekCount gpsTowS bd2Satid bd2SvUrai bd2SvHealth bd2Week bd2Toe bd2Toc : Nat)
  (bd2Af0 bd2Af1 bd2Af2 : RatPi)
  (bd2Aode bd2Aodc : Nat)
  (bd2Idot bd2Crs bd2Crc bd2Cus bd2Cuc bd2Cis bd2Cic bd2DeltaN bd2M0 bd2Ecc bd2AHalf : RatPi)
  (bd2Omega0 bd2I0 bd2Omega bd2Omegadot bd2Tgd1 bd2Tgd2 : RatPi)
  (bd2Reserved crc24 : Nat)

/-- `BD3EPHB_Decoded_t`: BDS-3 CNAV1 ephemeris. -/
structure Bd3ephbDecoded where
  head : List UInt8
  (gpsWeekCount gpsTowS bd3Satid bd3Sattype bd3Week bd3Toe bd3Toc : Nat)
  (bd3Af0 bd3Af1 bd3Af2 : RatPi)
  (bd3Iode bd3Iodc : Nat)
  (bd3Idot bd3Crs bd3Crc bd3Cus bd3Cuc bd3Cis bd3Cic bd3DeltaN0 bd3DeltaN0Dot bd3M0 : RatPi)
  (bd3Ecc bd3DeltaA bd3Adot bd3Omega0 bd3I0 bd3Omega bd3Omegadot bd3Tgdb1cp bd3Tgdb2ap : RatPi)
  bd3Iscb1cd : RatPi
  (bd3Reserved crc24 : Nat)

/-- `BD3CNAV2EPHB_Decoded_t`. -/
structure Bd3cnav2ephbDecoded where
  head : List UInt8
  (gpsWeekCount gpsTowS bdsSatid bdsSattype bdsWeek bdsToe bdsToc : Nat)
  (bdsAf0 bdsAf1 bdsAf2 : RatPi)
  (bdsIode bdsIodc : Nat)
  (bdsIdot bdsCrs bdsCrc bdsCus bdsCuc bdsCis bdsCic bdsDeltaN0 bdsDeltaN0Dot bdsM0 : RatPi)
  (bdsEcc bdsAA bdsAdot bdsOmega0 bdsI0 bdsOmega bdsOmegadot bdsTgdb1cp bdsTgdb2ap : RatPi)
  bdsIscb2ad : RatPi
  (bdsReserved crc24 : Nat)

/-- `BD3CNAV3EPHB_Decoded_t`. -/
structure Bd3cnav3ephbDecoded where
  head : List UInt8
  (gpsWeekCount gpsTowS bdsSatid bdsSattype bdsWeek bdsToe bdsToc : Nat)
  (bdsAf0 bdsAf1 bdsAf2 : RatPi)
  (bdsIode bdsIodc : Nat)
  (bdsIdot bdsCrs bdsCrc bdsCus bdsCuc bdsCis bdsCic bdsDeltaN0 bdsDeltaN0Dot bdsM0 : RatPi)
  (bdsEcc bdsDeltaA bdsAdot bdsOmega0 bdsI0 bdsOmega bdsOmegadot bdsTgdb2bI : RatPi)
  (bdsReserved crc24 : Nat)

/-- `BDXWEPHB_Decoded_t`: extended BDXW ephemeris. -/
structure BdxwephbDecoded where
  head : List UInt8
  (gpsWeekCount gpsTowS xwsSatid xwsSattype xwsWeek xwsToe xwsToc : Nat)
  (xwsAf0 xwsAf1 : RatPi)
  (xwsIodc xwsIode : Nat)
  (xwsCrs xwsCrc xwsCus xwsCuc xwsCis xwsCic xwsDeltacic xwsDeltacis xwsDeltacrs : RatPi)
  (xwsDeltacrc xwsDeltaN0 xwsDeltaN0Dot xwsM0 xwsEcc xwsDeltaA0 xwsI0Dot xwsADot : RatPi)
  (xwsDeltaI0 xwsOmega0 xwsOmegaDot xwsOmega : RatPi)
  (xwsReserved crc24 : Nat)

/-- `GPSEPHB_Decoded_t`: GPS LNAV ephemeris. -/
structure GpsephbDecoded where
  head : List UInt8
  (gpsWeekCount gpsTowS gpsSatid gpsSvAccuracy gpsSvHealth gpsWeek gpsToe gpsToc : Nat)
  (gpsAf0 gpsAf1 gpsAf2 : RatPi)
  (gpsIode gpsIodc : Nat)
  (gpsIdot gpsCrs gpsCrc gpsCus gpsCuc gpsCis gpsCic gpsDeltaN gpsM0 gpsEcc gpsAHalf : RatPi)
  (gpsOmega0 gpsI0 gpsOmega gpsOmegadot gpsTgd : RatPi)
  (gpsCodeOnL2 gpsL2pDataFlag gpsFit reserved crc24 : Nat)

/-- `GLOEPHB_Decoded_t`. -/
structure GloephbDecoded where
  head : List UInt8
  (gpsWeekCount gpsTowS gloSatid gloFreq gloBnMsb gloN4 gloNt gloTk gloTb : Nat)
  (gloGamma gloTau gloX gloXDot gloXDdot gloY gloYDot gloYDdot gloZ gloZDot gloZDdot : RatPi)
  crc24 : Nat

/-- `GALEPHB_Decoded_t`. -/
structure GalephbDecoded where
  head : List UInt8
  (gpsWeekCount gpsTowS galSatid galSisa galE5bSvHealth galE5bValid galE1bHealth : Nat)
  (galE1bValid galWeek galToe galToc : Nat)
  (galAf0 galAf1 galAf2 : RatPi)
  galIodnav : Nat
  (galIdot galCrs galCrc galCus galCuc galCis galCic galDeltaN galM0 galEcc galAHalf : RatPi)
  (galOmega0 galI0 galOmega galOmegadot galBgdE5aE1 galBgdE5bE1 : RatPi)
  (galNavtype galReserved crc24 : Nat)

/-- `POSDATAB_Decoded_t`: the best position fix. -/
structure PosdatabDecoded where
  head : List UInt8
  (timeSystem weekNum : Nat)
  secInWeek : RatPi
  leapSecond : Int
  (sysStatus posType aziType : Nat)
  (latitude longitude altitude eastVelocity northVelocity upVelocity pitch roll azimuth : RatPi)
  (latSigma lonSigma altitudeSigma eastVelSigma northVelSigma upVelSigma pitchSigma : RatPi)
  (rollSigma azimuthSigma : RatPi)
  (gnssSatM gnssSatS : Nat)
  diffAge : RatPi
  (odoFlag gear : Nat)
  (flWheelSpeed frWheelSpeed rlWheelSpeed rrWheelSpeed : RatPi)
  (reserved0 reserved1 crc24 : Nat)

/-- One entry of `signal_info`. -/
structure PrangebSignal where
  (signalId phaseLockFlag : Nat)
  (precisePr precisePhase precisePhaseRate cn0 : RatPi)
  halfCycle : Nat

/-- One entry of `sat_info`. -/
structure PrangebSat where
  (satId signalCount : Nat)
  apdMs : RatPi
  approxPhaseRate : Int
  signalInfo : List PrangebSignal

/-- `PRANGEB_Decoded_t`: the observations of one epoch. -/
structure PrangebDecoded where
  head : List UInt8
  (gpsWeekCount gpsTowS msCount syncFlag systemId satCount : Nat)
  satInfo : List PrangebSat
  crc24 : Nat

/-- The kinds of ephemeris frame. -/
inductive EphKind where
  | bd2
  | bd3
  | bd3cnav2
  | bd3cnav3
  | bdxw
  | gps
  | glo
  | gal
  deriving DecidableEq, Repr

/-- A decoded record of some kind. -/
inductive EphRecord where
  | bd2 (eph : Bd2ephbDecoded)
  | bd3 (eph : Bd3ephbDecoded)
  | bd3cnav2 (eph : Bd3cnav2ephbDecoded)
  | bd3cnav3 (eph : Bd3cnav3ephbDecoded)
  | bdxw (eph : BdxwephbDecoded)
  | gps (eph : GpsephbDecoded)
  | glo (eph : GloephbDecoded)
  | gal (eph : GalephbDecoded)

end Ok3506.Gnss
