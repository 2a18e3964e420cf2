import Ok3506.Lib.Calendar
import Ok3506.Gnss.MinmeaFrames
import Ok3506.Gnss.MinmeaNumbers

/-!
The NMEA handler of `gnss_nmea.c`.

`handle_gnss_nmea` checks a sentence and records it under its type. An RMC sentence
also sets the clock of the device and sends a position to the network. The calls that
the handler makes are kept in order.
-/

namespace Ok3506.Gnss

open Calendar CString

/-! ### Time -/

/-- The greatest `time_t`, and the seconds by which local time is ahead of UTC. -/
structure TimeZone where
  timeMax : Int
  offset : Int

/-- `timegm`; a time that `time_t` does not hold gives -1. -/
def timegm (zone : TimeZone) (tm : Tm) : Int :=
  if zone.timeMax < tm.seconds then -1 else tm.seconds

/-- `mktime`, with the members of its argument in their ranges behind it. -/
def mktime (zone : TimeZone) (tm : Tm) : Int × Tm :=
  if zone.timeMax < tm.seconds - zone.offset then (-1, tm)
  else (tm.seconds - zone.offset, Tm.ofSeconds tm.seconds)

/-! ### Calls -/

/-- `pos_info_t`, with `none` for NaN. -/
structure PosInfo where
  longitude : Option ℚ
  latitude : Option ℚ
  timestamp : UInt64
  deriving DecidableEq

/-- What the handler calls: `GNSS_NMEA_LOG` with the file type, `settimeofday`, the
command `date`, `net_send`. -/
inductive NmeaCall where
  | log (type : MinmeaSentenceId) (sentence : List UInt8)
  | settimeofday (sec usec : Int)
  | date (tm : Tm)
  | netSend (pos : PosInfo)
  deriving DecidableEq

/-- The clock of the device: its seconds, and whether `settimeofday` succeeds. -/
structure DeviceClock where
  now : Int
  settable : Bool

/-- `tm_now`. -/
def SentenceRmc.tm (frame : SentenceRmc) : Tm :=
  { year := frame.date.year + 2000 - 1900
    mon := frame.date.month - 1
    mday := frame.date.day
    hour := frame.time.hours
    min := frame.time.minutes
    sec := frame.time.seconds }

/-- The clock is set when a valid frame differs from it by more than ten seconds. -/
def setClock (zone : TimeZone) (clock : DeviceClock) (frame : SentenceRmc) : List NmeaCall × Tm :=
  let tm := frame.tm
  if frame.valid then
    let (time, tm) := mktime zone tm
    if (clock.now - time).natAbs > 10 then
      let (time, tm) := mktime zone tm
      (.settimeofday time frame.time.microseconds ::
        if clock.settable = false then [.date tm] else [], tm)
    else ([], tm)
  else ([], tm)

/-- The calls that `handle_gnss_nmea` makes for an RMC frame: the sentence is logged, the
clock is set if need be, and the position is sent. -/
def rmcCalls (zone : TimeZone) (clock : DeviceClock) (type : MinmeaSentenceId)
    (sentence : List UInt8) (frame : SentenceRmc) : List NmeaCall :=
  let (calls, tm) := setClock zone clock frame
  let pos : PosInfo := {
    latitude := minmeaTocoord frame.latitude
    longitude := minmeaTocoord frame.longitude
    timestamp := UInt64.ofInt (timegm zone tm) * 1000 +
      UInt64.ofInt (frame.time.microseconds.tdiv 1000) }
  .log type (cstr sentence) :: (calls ++ [.netSend pos])

/-- A sentence that a parser refuses leads to nothing. -/
def whenParsed {α : Type} (frame : Scan α) (calls : α → List NmeaCall) : Scan (List NmeaCall) :=
  match frame with
  | .ok frame => .ok (calls frame)
  | .error .parseError => .ok []
  | .error e => .error e

/-- `handle_gnss_nmea`. -/
def handleGnssNmea (zone : TimeZone) (clock : DeviceClock) (sentence : List UInt8) :
    Scan (List NmeaCall) := do
  if (← minmeaCheck sentence false) = false then return []
  else
    let nmeaFileType ← minmeaSentenceId sentence false
    let log : List NmeaCall := [.log nmeaFileType (cstr sentence)]
    match ← minmeaSentenceId sentence false with
    | .rmc => whenParsed (minmeaParseRmc sentence) (rmcCalls zone clock nmeaFileType sentence)
    | .gga => whenParsed (minmeaParseGga sentence) fun _ => log
    | .gll => whenParsed (minmeaParseGll sentence) fun _ => log
    | .gsa => whenParsed (minmeaParseGsa sentence) fun _ => log
    | .gsv => whenParsed (minmeaParseGsv sentence) fun _ => log
    | .vtg => whenParsed (minmeaParseVtg sentence) fun _ => log
    | .zda => whenParsed (minmeaParseZda sentence) fun _ => log
    | .gbs => whenParsed (minmeaParseGbs sentence) fun _ => log
    | .gst => whenParsed (minmeaParseGst sentence) fun _ => log
    | _ => return []

/-! ### Accepted sentences -/

/-- The parser of a type accepts the sentence. The other types have none. -/
def parserAccepts (s : List UInt8) : MinmeaSentenceId → Bool
  | .rmc => (minmeaParseRmc s).isOk
  | .gga => (minmeaParseGga s).isOk
  | .gll => (minmeaParseGll s).isOk
  | .gsa => (minmeaParseGsa s).isOk
  | .gsv => (minmeaParseGsv s).isOk
  | .vtg => (minmeaParseVtg s).isOk
  | .zda => (minmeaParseZda s).isOk
  | .gbs => (minmeaParseGbs s).isOk
  | .gst => (minmeaParseGst s).isOk
  | _ => false

/-- The type of a sentence that passes the check and that the parser of its type accepts. -/
def acceptedType (s : List UInt8) : Option MinmeaSentenceId :=
  match minmeaCheck s false, minmeaSentenceId s false with
  | .ok true, .ok type => if parserAccepts s type = true then some type else none
  | _, _ => none

theorem acceptedType_eq_some_iff {s : List UInt8} {type : MinmeaSentenceId} :
    acceptedType s = some type ↔ minmeaCheck s false = .ok true ∧
      minmeaSentenceId s false = .ok type ∧ parserAccepts s type = true := by
  rw [acceptedType]
  split
  · rename_i id passed found
    rw [found]
    by_cases accepts : parserAccepts s id = true
    · rw [if_pos accepts, Option.some.injEq]
      constructor
      · rintro rfl
        exact ⟨passed, rfl, accepts⟩
      · rintro ⟨-, same, -⟩
        exact Except.ok.inj same
    · rw [if_neg accepts]
      constructor
      · rintro ⟨⟩
      · rintro ⟨-, same, accepts'⟩
        obtain rfl := Except.ok.inj same
        exact absurd accepts' accepts
  · rename_i refused
    constructor
    · rintro ⟨⟩
    · rintro ⟨passed, found, -⟩
      exact absurd found (refused _ passed)

/-- The handler on an RMC sentence that is accepted. -/
theorem handleGnssNmea_rmc {s : List UInt8} (accepted : acceptedType s = some .rmc)
    (zone : TimeZone) (clock : DeviceClock) {frame : SentenceRmc}
    (parsed : minmeaParseRmc s = .ok frame) :
    handleGnssNmea zone clock s = .ok (rmcCalls zone clock .rmc s frame) := by
  obtain ⟨passed, found, -⟩ := acceptedType_eq_some_iff.mp accepted
  rw [handleGnssNmea, passed]
  simp only [ok_bind, found, parsed, whenParsed]
  rfl

end Ok3506.Gnss
