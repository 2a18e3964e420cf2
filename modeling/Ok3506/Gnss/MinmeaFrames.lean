import Ok3506.Gnss.Minmea

/-!
The frames of `minmea.c`.

One function for each type of sentence, each a format of `minmea_scan`, and the
identifier that selects among them.
-/

namespace Ok3506.Gnss

open CString

/-! ### Sentence identifiers -/

/-- `enum minmea_sentence_id`. -/
inductive MinmeaSentenceId where
  | invalid | unknown
  | gbs | gga | gll | gsa | gst | gsv | rmc | vtg | zda
  | hdt | ntr | ori | rot | tra | dtm
  deriving DecidableEq, Repr

/-- `sentence_id_map`; the first three characters of an entry are compared. -/
def sentenceIdMap : List (List UInt8 × MinmeaSentenceId) :=
  [(ascii "INVALID", .invalid), (ascii "GBS", .gbs), (ascii "GGA", .gga), (ascii "GLL", .gll),
    (ascii "GSA", .gsa), (ascii "GST", .gst), (ascii "GSV", .gsv), (ascii "RMC", .rmc),
    (ascii "VTG", .vtg), (ascii "ZDA", .zda), (ascii "HDT", .hdt), (ascii "NTR", .ntr),
    (ascii "ORI", .ori), (ascii "ROT", .rot), (ascii "TRA", .tra), (ascii "DTM", .dtm)]

/-- The search of `minmea_sentence_id`: the first entry of the map whose characters are
those of the sentence. -/
def lookupSentenceId (sentenceId : List UInt8) : MinmeaSentenceId :=
  match sentenceIdMap.find? fun entry => entry.1.take 3 = sentenceId with
  | some entry => entry.2
  | none => .unknown

/-- `minmea_sentence_id`. -/
def minmeaSentenceId (sentence : List UInt8) (strict : Bool) : Scan MinmeaSentenceId := do
  if (← minmeaCheck sentence strict) = false then return .invalid
  else
    match minmeaScan sentence [.t] with
    | .error .parseError => return .invalid
    | .error e => throw e
    | .ok (type, ()) => return lookupSentenceId type.sentenceId

/-! ### Frames -/

/-- `struct minmea_sentence_gbs`. -/
structure SentenceGbs where
  type : MinmeaType
  time : MinmeaTime
  errLatitude : MinmeaFloat
  errLongitude : MinmeaFloat
  errAltitude : MinmeaFloat
  svid : Int
  prob : MinmeaFloat
  bias : MinmeaFloat
  stddev : MinmeaFloat
  deriving DecidableEq, Repr

/-- `struct minmea_sentence_rmc`. -/
structure SentenceRmc where
  type : MinmeaType
  time : MinmeaTime
  valid : Bool
  latitude : MinmeaFloat
  longitude : MinmeaFloat
  speed : MinmeaFloat
  course : MinmeaFloat
  date : MinmeaDate
  variation : MinmeaFloat
  deriving DecidableEq, Repr

/-- `struct minmea_sentence_gga`. -/
structure SentenceGga where
  type : MinmeaType
  time : MinmeaTime
  latitude : MinmeaFloat
  longitude : MinmeaFloat
  fixQuality : Int
  satellitesTracked : Int
  hdop : MinmeaFloat
  altitude : MinmeaFloat
  altitudeUnits : UInt8
  height : MinmeaFloat
  heightUnits : UInt8
  dgpsAge : MinmeaFloat
  deriving DecidableEq, Repr

/-- `struct minmea_sentence_gsa`. -/
structure SentenceGsa where
  type : MinmeaType
  mode : UInt8
  fixType : Int
  sats : List Int
  pdop : MinmeaFloat
  hdop : MinmeaFloat
  vdop : MinmeaFloat
  deriving DecidableEq, Repr

/-- `struct minmea_sentence_gll`. -/
structure SentenceGll where
  type : MinmeaType
  latitude : MinmeaFloat
  longitude : MinmeaFloat
  time : MinmeaTime
  status : UInt8
  mode : UInt8
  deriving DecidableEq, Repr

/-- `struct minmea_sentence_gst`. -/
structure SentenceGst where
  type : MinmeaType
  time : MinmeaTime
  rmsDeviation : MinmeaFloat
  semiMajorDeviation : MinmeaFloat
  semiMinorDeviation : MinmeaFloat
  semiMajorOrientation : MinmeaFloat
  latitudeErrorDeviation : MinmeaFloat
  longitudeErrorDeviation : MinmeaFloat
  altitudeErrorDeviation : MinmeaFloat
  deriving DecidableEq, Repr

/-- `struct minmea_sat_info`. -/
structure MinmeaSatInfo where
  nr : Int
  elevation : Int
  azimuth : Int
  snr : MinmeaFloat
  deriving DecidableEq, Repr

/-- `struct minmea_sentence_gsv`; `signalId` is what is written to `signal_id`, without
the NUL. -/
structure SentenceGsv where
  type : MinmeaType
  totalMsgs : Int
  msgNr : Int
  totalSats : Int
  signalId : List UInt8
  sats : List MinmeaSatInfo
  deriving DecidableEq, Repr

/-- `struct minmea_sentence_vtg`. -/
structure SentenceVtg where
  type : MinmeaType
  trueTrackDegrees : MinmeaFloat
  magneticTrackDegrees : MinmeaFloat
  speedKnots : MinmeaFloat
  speedKph : MinmeaFloat
  faaMode : UInt8
  deriving DecidableEq, Repr

/-- `struct minmea_sentence_zda`. -/
structure SentenceZda where
  type : MinmeaType
  time : MinmeaTime
  date : MinmeaDate
  hourOffset : Int
  minuteOffset : Int
  deriving DecidableEq, Repr

/-- `frame->latitude.value *= latitude_direction`. -/
def MinmeaFloat.times (f : MinmeaFloat) (direction : Int) : MinmeaFloat :=
  { f with value := f.value * direction }

/-- A value of VTG counts only with its letter. -/
def MinmeaFloat.withUnit (f : MinmeaFloat) (c expected : UInt8) : MinmeaFloat :=
  if c ≠ expected then { f with scale := 0 } else f

/-- `memcmp(frame->type.sentence_id, id, 3)`. -/
def checkType (type : MinmeaType) (id : String) : Scan Unit :=
  if type.sentenceId ≠ ascii id then throw .parseError else return ()

/-! ### Parsers -/

def formatGbs : List Directive := [.t, .T, .f, .f, .f, .i, .f, .f, .f]

/-- `minmea_parse_gbs`. -/
def minmeaParseGbs (sentence : List UInt8) : Scan SentenceGbs := do
  let (type, time, errLatitude, errLongitude, errAltitude, svid, prob, bias, stddev, ()) ←
    minmeaScan sentence formatGbs
  checkType type "GBS"
  return { type, time, errLatitude, errLongitude, errAltitude, svid, prob, bias, stddev }

def formatRmc : List Directive := [.t, .T, .c, .f, .d, .f, .d, .f, .f, .D, .f, .d]

/-- `minmea_parse_rmc`. -/
def minmeaParseRmc (sentence : List UInt8) : Scan SentenceRmc := do
  let (type, time, validity, latitude, latitudeDirection, longitude, longitudeDirection, speed,
    course, date, variation, variationDirection, ()) ← minmeaScan sentence formatRmc
  checkType type "RMC"
  return {
    type, time, speed, course, date
    valid := validity = 65
    latitude := latitude.times latitudeDirection
    longitude := longitude.times longitudeDirection
    variation := variation.times variationDirection }

def formatGga : List Directive :=
  [.t, .T, .f, .d, .f, .d, .i, .i, .f, .f, .c, .f, .c, .f, .ignored]

/-- `minmea_parse_gga`. -/
def minmeaParseGga (sentence : List UInt8) : Scan SentenceGga := do
  let (type, time, latitude, latitudeDirection, longitude, longitudeDirection, fixQuality,
    satellitesTracked, hdop, altitude, altitudeUnits, height, heightUnits, dgpsAge, (), ()) ←
    minmeaScan sentence formatGga
  checkType type "GGA"
  return {
    type, time, fixQuality, satellitesTracked, hdop, altitude, altitudeUnits, height, heightUnits
    dgpsAge
    latitude := latitude.times latitudeDirection
    longitude := longitude.times longitudeDirection }

def formatGsa : List Directive :=
  [.t, .c, .i, .i, .i, .i, .i, .i, .i, .i, .i, .i, .i, .i, .i, .f, .f, .f]

/-- `minmea_parse_gsa`. -/
def minmeaParseGsa (sentence : List UInt8) : Scan SentenceGsa := do
  let (type, mode, fixType, s0, s1, s2, s3, s4, s5, s6, s7, s8, s9, s10, s11, pdop, hdop, vdop,
    ()) ← minmeaScan sentence formatGsa
  checkType type "GSA"
  return {
    type, mode, fixType, pdop, hdop, vdop
    sats := [s0, s1, s2, s3, s4, s5, s6, s7, s8, s9, s10, s11] }

def formatGll : List Directive := [.t, .f, .d, .f, .d, .T, .c, .optional, .c]

/-- `minmea_parse_gll`. -/
def minmeaParseGll (sentence : List UInt8) : Scan SentenceGll := do
  let (type, latitude, latitudeDirection, longitude, longitudeDirection, time, status, (), mode,
    ()) ← minmeaScan sentence formatGll
  checkType type "GLL"
  return {
    type, time, status, mode
    latitude := latitude.times latitudeDirection
    longitude := longitude.times longitudeDirection }

def formatGst : List Directive := [.t, .T, .f, .f, .f, .f, .f, .f, .f]

/-- `minmea_parse_gst`. -/
def minmeaParseGst (sentence : List UInt8) : Scan SentenceGst := do
  let (type, time, rmsDeviation, semiMajorDeviation, semiMinorDeviation, semiMajorOrientation,
    latitudeErrorDeviation, longitudeErrorDeviation, altitudeErrorDeviation, ()) ←
    minmeaScan sentence formatGst
  checkType type "GST"
  return {
    type, time, rmsDeviation, semiMajorDeviation, semiMinorDeviation, semiMajorOrientation
    latitudeErrorDeviation, longitudeErrorDeviation, altitudeErrorDeviation }

def formatGsv : List Directive :=
  [.t, .i, .i, .i, .optional, .i, .i, .i, .f, .i, .i, .i, .f, .i, .i, .i, .f, .i, .i, .i, .f,
    .optional, .s]

/-- `minmea_parse_gsv`. -/
def minmeaParseGsv (sentence : List UInt8) : Scan SentenceGsv := do
  let (type, totalMsgs, msgNr, totalSats, (), n0, e0, a0, s0, n1, e1, a1, s1, n2, e2, a2, s2, n3,
    e3, a3, s3, (), signalId, ()) ← minmeaScan sentence formatGsv
  checkType type "GSV"
  return {
    type, totalMsgs, msgNr, totalSats, signalId
    sats := [⟨n0, e0, a0, s0⟩, ⟨n1, e1, a1, s1⟩, ⟨n2, e2, a2, s2⟩, ⟨n3, e3, a3, s3⟩] }

def formatVtg : List Directive := [.t, .optional, .f, .c, .f, .c, .f, .c, .f, .c, .c]

/-- `minmea_parse_vtg`. -/
def minmeaParseVtg (sentence : List UInt8) : Scan SentenceVtg := do
  let (type, (), trueTrackDegrees, cTrue, magneticTrackDegrees, cMagnetic, speedKnots, cKnots,
    speedKph, cKph, cFaaMode, ()) ← minmeaScan sentence formatVtg
  checkType type "VTG"
  return {
    type
    trueTrackDegrees := trueTrackDegrees.withUnit cTrue 84
    magneticTrackDegrees := magneticTrackDegrees.withUnit cMagnetic 77
    speedKnots := speedKnots.withUnit cKnots 78
    speedKph := speedKph.withUnit cKph 75
    faaMode := cFaaMode }

def formatZda : List Directive := [.t, .T, .i, .i, .i, .i, .i]

/-- `minmea_parse_zda`; `abs` of the least `int` is not defined. -/
def minmeaParseZda (sentence : List UInt8) : Scan SentenceZda := do
  let (type, time, day, month, year, hourOffset, minuteOffset, ()) ←
    minmeaScan sentence formatZda
  checkType type "ZDA"
  if hourOffset = intMin then throw .overflow
  else if hourOffset.natAbs > 13 ∨ minuteOffset > 59 ∨ minuteOffset < 0 then throw .parseError
  else return { type, time, date := ⟨day, month, year⟩, hourOffset, minuteOffset }

end Ok3506.Gnss
