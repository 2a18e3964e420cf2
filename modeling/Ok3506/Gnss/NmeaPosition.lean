import Ok3506.Gnss.NmeaHandler
import Ok3506.Gnss.MinmeaSpelling
import Ok3506.Gnss.NmeaBytes

/-!
Positions from the receiver to the network.

An `RmcReport` is what the receiver writes about a moment and a place, as far as it knows
them. The handler turns each RMC sentence that it accepts into one message, whatever stands
between the sentences and however the serial port cuts the stream.
-/

namespace Ok3506.Gnss

open Calendar CString Decimal Lines

/-! ### Reports -/

/-- A coordinate as a report writes it: the number `DDMM.mmm`, and whether the hemisphere is
south or west. -/
structure Coordinate where
  numeral : Numeral
  negative : Bool

namespace Coordinate

def direction (c : Coordinate) : Int := if c.negative then -1 else 1

/-- The angle in degrees. -/
def degrees (c : Coordinate) : ℚ := c.direction * c.numeral.angle

/-- The number of the coordinate is one that the scanner can hold. -/
structure Valid (c : Coordinate) : Prop extends c.numeral.Valid where
  whole_le : digitsValue c.numeral.whole ≤ Numeral.limit
  kept_le : c.numeral.kept.length ≤ 9

/-- The angle of a message: cut off behind the last decimal that the scanner kept, and
NaN from eight decimals on. -/
def Located (c : Coordinate) (angle : Option ℚ) : Prop :=
  (c.numeral.kept.length ≤ 7 → ∃ q, angle = some q ∧ |q| ≤ |c.numeral.angle| ∧
    |c.degrees - q| < 1 / (60 * 10 ^ c.numeral.kept.length) ∧
    (c.numeral.kept = c.numeral.decimals → q = c.degrees)) ∧
  (8 ≤ c.numeral.kept.length → angle = none)

end Coordinate

/-- A moment of a calendar day; `fraction` are the digits of a fraction of a second. -/
structure Moment where
  date : Date
  hours : Nat
  minutes : Nat
  seconds : Nat
  fraction : Option (List UInt8)

namespace Moment

structure Valid (m : Moment) : Prop where
  year : 2000 ≤ m.date.year ∧ m.date.year < 2100
  hours : m.hours < 24
  minutes : m.minutes < 60
  seconds : m.seconds < 60
  fraction : Digits (m.fraction.getD []) ∧ (m.fraction.getD []).length ≤ 6

def tm (m : Moment) : Tm :=
  { year := m.date.year - 1900, mon := m.date.month - 1, mday := m.date.day
    hour := m.hours, min := m.minutes, sec := m.seconds }

def microseconds (m : Moment) : Nat :=
  digitsValue (m.fraction.getD []) * 10 ^ (6 - (m.fraction.getD []).length)

end Moment

/-- What an RMC sentence says. Without a fix the coordinates are missing, and after a cold
start the moment, too. -/
structure RmcReport where
  talker : List UInt8
  moment : Option Moment
  status : UInt8
  latitude : Option Coordinate
  longitude : Option Coordinate
  speed : List UInt8
  course : List UInt8
  variation : List UInt8
  variationDirection : List UInt8
  more : List (List UInt8)

namespace RmcReport

/-- A coordinate as two fields, or two empty ones. -/
def coordinateFields (c : Option Coordinate) (positive negative : UInt8) : List (List UInt8) :=
  c.elim [[], []] fun c => [c.numeral.text, [if c.negative then negative else positive]]

/-- The time of day as a field. -/
def timeField (moment : Option Moment) : List UInt8 :=
  moment.elim [] fun m =>
    sixDigits m.hours m.minutes m.seconds ++ m.fraction.elim [] (fullStop :: ·)

/-- The date as a field of the report, empty where the receiver knows none. -/
def dateField (moment : Option Moment) : List UInt8 :=
  moment.elim [] fun m =>
    sixDigits m.date.day.toNat m.date.month.toNat (m.date.year - 2000).toNat

def fields (r : RmcReport) : List (List UInt8) :=
  (36 :: (r.talker ++ ascii "RMC")) :: timeField r.moment :: [r.status] ::
    (coordinateFields r.latitude 78 83 ++ (coordinateFields r.longitude 69 87 ++
      (r.speed :: r.course :: dateField r.moment :: r.variation :: r.variationDirection ::
        r.more)))

/-- The broken-down time that the handler sets up; a missing number is -1 in a frame. -/
def tm (r : RmcReport) : Tm := r.moment.elim ⟨99, -2, -1, -1, -1, -1⟩ Moment.tm

/-- The numbers of a report can be read. -/
structure Valid (r : RmcReport) : Prop where
  talker : r.talker.length = 2
  moment : ∀ m ∈ r.moment, m.Valid
  latitude : ∀ c ∈ r.latitude, c.Valid
  longitude : ∀ c ∈ r.longitude, c.Valid
  speed : ∃ v, Directive.read .f (some r.speed) = .ok v
  course : ∃ v, Directive.read .f (some r.course) = .ok v
  variation : ∃ v, Directive.read .f (some r.variation) = .ok v
  variationDirection : ∃ v, Directive.read .d (some r.variationDirection) = .ok v

end RmcReport

/-! ### Reading a report -/

section Read

/-- The `minmea_float` that the parser stores for the coordinate, signed by its hemisphere.
-/
def Coordinate.float (c : Coordinate) : MinmeaFloat :=
  ⟨c.numeral.factor * digitsValue (c.numeral.whole ++ c.numeral.kept), 10 ^ c.numeral.kept.length⟩

theorem Coordinate.Valid.read {c : Coordinate} (h : c.Valid) :
    Directive.read .f (some c.numeral.text) = .ok c.float := by
  have whole := h.whole_le
  have kept := h.kept_le
  rw [read_numeral h.toValid, Numeral.float, if_neg (by omega), if_neg (by omega)]
  rfl

/-- `minmea_tocoord` gives the angle of the stored coordinate. -/
theorem Coordinate.Valid.located {c : Coordinate} (h : c.Valid) :
    c.Located (minmeaTocoord (c.float.times c.direction)) := by
  have sign : c.direction = 1 ∨ c.direction = -1 := by
    unfold direction
    cases c.negative <;> simp
  exact minmeaTocoord_numeral c.numeral h.toValid c.direction sign

/-- The values that the scanner stores for the two fields; without a coordinate they are
zero. -/
def coordinateValues (c : Option Coordinate) : MinmeaFloat × Int :=
  c.elim (⟨0, 0⟩, 0) fun c => (c.float, c.direction)

theorem scanFields_coordinate {c : Option Coordinate} (valid : ∀ d ∈ c, d.Valid)
    {positive negative : UInt8} (plus : directionText [positive] = .ok 1)
    (minus : directionText [negative] = .ok (-1)) (format : List Directive)
    (rest : List (List UInt8)) :
    scanFields (.f :: .d :: format) false
        (RmcReport.coordinateFields c positive negative ++ rest) =
      scanFields format false rest >>= fun values =>
        .ok ((coordinateValues c).1, (coordinateValues c).2, values) := by
  obtain ⟨text, sign, eq, number, letter⟩ : ∃ text sign,
      RmcReport.coordinateFields c positive negative = [text, sign] ∧
        Directive.read .f (some text) = .ok (coordinateValues c).1 ∧
        Directive.read .d (some sign) = .ok (coordinateValues c).2 := by
    cases c with
    | none => exact ⟨[], [], rfl, rfl, rfl⟩
    | some c =>
        refine ⟨c.numeral.text, _, rfl, (valid c rfl).read, ?_⟩
        unfold coordinateValues Coordinate.direction
        rw [Option.elim_some]
        cases c.negative
        · exact plus
        · exact minus
  rw [eq, List.cons_append, scanFields_cons (by decide), if_neg (by simp), List.head?_cons, number,
    ok_bind, List.tail_cons, List.cons_append, scanFields_cons (by decide), if_neg (by simp),
    List.head?_cons, letter, ok_bind, List.tail_cons, List.nil_append]
  simp only [bind_assoc, pure_eq_ok, ok_bind]

variable {r : RmcReport}

theorem Moment.Valid.date_eq {m : Moment} (h : m.Valid) :
    (m.date.day.toNat : Int) = m.date.day ∧ (m.date.month.toNat : Int) = m.date.month ∧
      ((m.date.year - 2000).toNat : Int) = m.date.year - 2000 ∧ m.date.day.toNat < 100 ∧
      m.date.month.toNat < 100 ∧ (m.date.year - 2000).toNat < 100 := by
  have year := h.year
  have month := m.date.month_pos
  have month' := m.date.month_le
  have day := m.date.day_pos
  have day' := m.date.day_le
  have bound : daysInMonth m.date.year m.date.month ≤ 31 := by
    unfold daysInMonth
    split_ifs <;> omega
  omega

/-- What the scanner makes of the time of day. -/
def timeValue (moment : Option Moment) : MinmeaTime :=
  moment.elim ⟨-1, -1, -1, -1⟩ fun m => ⟨m.hours, m.minutes, m.seconds, m.microseconds⟩

/-- What the scanner makes of the date. -/
def dateValue (moment : Option Moment) : MinmeaDate :=
  moment.elim ⟨-1, -1, -1⟩ fun m => ⟨m.date.day, m.date.month, m.date.year - 2000⟩

theorem read_timeField {moment : Option Moment} (h : ∀ m ∈ moment, m.Valid) :
    Directive.read .T (some (RmcReport.timeField moment)) = .ok (timeValue moment) := by
  cases moment with
  | none => rfl
  | some m =>
      have valid := h m rfl
      have hours := valid.hours
      have minutes := valid.minutes
      have seconds := valid.seconds
      exact timeText_of_spells (.inr ⟨_, _, _, m.fraction, by omega, by omega, by omega,
        valid.fraction.1, valid.fraction.2, rfl, rfl⟩)

theorem read_dateField {moment : Option Moment} (h : ∀ m ∈ moment, m.Valid) :
    Directive.read .D (some (RmcReport.dateField moment)) = .ok (dateValue moment) := by
  cases moment with
  | none => rfl
  | some m =>
      obtain ⟨day, month, year, day', month', year'⟩ := (h m rfl).date_eq
      refine dateText_of_spells (.inr ⟨_, _, _, day', month', year', ?_, rfl⟩)
      rw [day, month, year]
      rfl

/-- The members of the RMC frame that a report is parsed into. -/
structure RmcReport.Frame (r : RmcReport) (frame : SentenceRmc) : Prop where
  time : frame.time = timeValue r.moment
  date : frame.date = dateValue r.moment
  status : frame.valid = decide (r.status = 65)
  latitude : frame.latitude = (coordinateValues r.latitude).1.times (coordinateValues r.latitude).2
  longitude :
    frame.longitude = (coordinateValues r.longitude).1.times (coordinateValues r.longitude).2

theorem RmcReport.Valid.scan (h : r.Valid) :
    Directive.read .t r.fields.head? = .ok ⟨r.talker, ascii "RMC"⟩ ∧
    ∃ speed course variation direction, scanFields formatRmc false r.fields = .ok
      (⟨r.talker, ascii "RMC"⟩, timeValue r.moment, r.status,
        (coordinateValues r.latitude).1, (coordinateValues r.latitude).2,
        (coordinateValues r.longitude).1, (coordinateValues r.longitude).2, speed, course,
        dateValue r.moment, variation, direction, ()) := by
  obtain ⟨speed, speed_eq⟩ := h.speed
  obtain ⟨course, course_eq⟩ := h.course
  obtain ⟨variation, variation_eq⟩ := h.variation
  obtain ⟨direction, direction_eq⟩ := h.variationDirection
  have type : Directive.read .t (some (36 :: (r.talker ++ ascii "RMC"))) =
      .ok ⟨r.talker, ascii "RMC"⟩ := typeText_of_spells ⟨h.talker, rfl, rfl⟩
  have time := read_timeField h.moment
  have date := read_dateField h.moment
  refine ⟨type, speed, course, variation, direction, ?_⟩
  simp only [formatRmc, RmcReport.fields]
  rw [scanFields_cons (by decide), if_neg (by simp), List.head?_cons, type, ok_bind,
    List.tail_cons, scanFields_cons (by decide), if_neg (by simp), List.head?_cons, time, ok_bind,
    List.tail_cons, scanFields_cons (by decide), if_neg (by simp), List.head?_cons,
    List.tail_cons, scanFields_coordinate h.latitude rfl rfl,
    scanFields_coordinate h.longitude rfl rfl]
  simp only [scanFields, reduceCtorEq, false_and, if_false, List.head?_cons, List.tail_cons,
    speed_eq, course_eq, date, variation_eq, direction_eq, ok_bind, pure_eq_ok]
  rfl

/-- A report is accepted, and its frame holds what it says. -/
theorem RmcReport.Valid.accepted (h : r.Valid) {t : SentenceText} (valid : t.Valid false)
    (written : t.fieldList = r.fields) (junk : List UInt8) :
    acceptedType (t.text ++ 0 :: junk) = some .rmc ∧
      ∃ frame, r.Frame frame ∧ minmeaParseRmc (t.text ++ 0 :: junk) = .ok frame := by
  obtain ⟨type, speed, course, variation, direction, scan⟩ := h.scan
  have passed : minmeaCheck (t.text ++ 0 :: junk) false = .ok true := by
    obtain ⟨b, run, language⟩ := minmeaCheck_eq false valid.terminated junk
    rw [run, language.mpr ⟨t, rfl, valid⟩]
  have some : t.fieldList ≠ [] := by
    rw [written]
    exact List.cons_ne_nil _ _
  have identified : minmeaSentenceId (t.text ++ 0 :: junk) false = .ok .rmc := by
    have first : minmeaScan (t.text ++ 0 :: junk) [.t] = .ok (⟨r.talker, ascii "RMC"⟩, ()) := by
      rw [minmeaScan_eq valid, scanFields_cons (by decide), if_neg fun h => some h.1, written,
        type]
      rfl
    rw [minmeaSentenceId, passed, first]
    rfl
  rw [← written, ← minmeaScan_eq valid _ junk] at scan
  obtain ⟨frame, held, parsed⟩ : ∃ frame, r.Frame frame ∧
      minmeaParseRmc (t.text ++ 0 :: junk) = .ok frame := by
    rw [minmeaParseRmc, scan]
    exact ⟨_, ⟨rfl, rfl, rfl, rfl, rfl⟩, rfl⟩
  have accepts : parserAccepts (t.text ++ 0 :: junk) .rmc = true := by
    rw [parserAccepts, parsed]
    rfl
  exact ⟨acceptedType_eq_some_iff.mpr ⟨passed, identified, accepts⟩, frame, held, parsed⟩

end Read

/-! ### The message -/

section Message

variable {r : RmcReport} {zone : TimeZone}

/-- The position message that a call hands to the network, if it is one that does. -/
def NmeaCall.position : NmeaCall → Option PosInfo
  | .netSend pos => some pos
  | _ => none

/-- The position message that `handle_gnss_nmea` builds from an RMC frame. -/
def SentenceRmc.position (zone : TimeZone) (frame : SentenceRmc) : PosInfo where
  latitude := minmeaTocoord frame.latitude
  longitude := minmeaTocoord frame.longitude
  timestamp := UInt64.ofInt (timegm zone frame.tm) * 1000 +
    UInt64.ofInt (frame.time.microseconds.tdiv 1000)

/-- What a position message says about a report: its coordinates up to what the scanner cuts
off, or NaN, and its time. -/
structure RmcReport.Message (zone : TimeZone) (r : RmcReport) (pos : PosInfo) : Prop where
  latitude : r.latitude.elim (pos.latitude = none) (·.Located pos.latitude)
  longitude : r.longitude.elim (pos.longitude = none) (·.Located pos.longitude)
  /-- The milliseconds since 1970 say what the report says. -/
  time : ∀ m ∈ r.moment, m.tm.seconds ≤ zone.timeMax →
    Tm.ofSeconds (pos.timestamp.toNat / 1000 : Nat) = m.tm ∧
      pos.timestamp.toNat % 1000 = m.microseconds / 1000
  /-- Behind the end of `time_t` they are those of -1, modulo `2 ^ 64`. -/
  late : ∀ m ∈ r.moment, zone.timeMax < m.tm.seconds →
    pos.timestamp.toNat = 2 ^ 64 - 1000 + m.microseconds / 1000
  /-- Without a moment they are those of 1998-10-29, 22:58:59, where all members of the
  broken-down time are one too small. -/
  untimed : r.moment = none → 909701939 ≤ zone.timeMax → pos.timestamp.toNat = 909701939000

theorem Moment.Valid.onDay {m : Moment} (h : m.Valid) : m.tm.OnDay m.date := by
  have hours := h.hours
  have minutes := h.minutes
  have seconds := h.seconds
  refine ⟨rfl, rfl, rfl, ?_, ?_, ?_⟩ <;> dsimp only [Moment.tm] <;> omega

/-- The instants that two digits of a year can name lie within a hundred years. -/
theorem Moment.Valid.seconds_range {m : Moment} (h : m.Valid) :
    0 ≤ m.tm.seconds ∧ m.tm.seconds < 4102444800 := by
  have year := h.year
  have hours := h.hours
  have minutes := h.minutes
  have seconds := h.seconds
  have month := m.date.month_pos
  have month' := m.date.month_le
  have day := m.date.day_pos
  have day' : m.date.day ≤ 31 := by
    have := m.date.day_le
    unfold daysInMonth at this
    split_ifs at this <;> omega
  have number : 10957 ≤ dayNumber m.date.year m.date.month m.date.day ∧
      dayNumber m.date.year m.date.month m.date.day < 47482 := by
    unfold dayNumber yearStart monthStart
    split_ifs <;> omega
  rw [h.onDay.seconds_eq]
  dsimp only [Moment.tm]
  omega

theorem Moment.Valid.microseconds_lt {m : Moment} (h : m.Valid) : m.microseconds < 1000000 := by
  obtain ⟨digits, short⟩ := h.fraction
  have small := digitsValue_lt digits
  calc m.microseconds
      < 10 ^ (m.fraction.getD []).length * 10 ^ (6 - (m.fraction.getD []).length) :=
        Nat.mul_lt_mul_of_pos_right small (by positivity)
    _ = 10 ^ 6 := by rw [← pow_add, Nat.add_sub_cancel' short]

theorem RmcReport.Frame.tm_eq {frame : SentenceRmc} (h : r.Frame frame) : frame.tm = r.tm := by
  rw [SentenceRmc.tm, h.date, h.time, RmcReport.tm, timeValue, dateValue]
  cases r.moment with
  | none => rfl
  | some m =>
      ext <;> dsimp only [Option.elim_some, Moment.tm]
      omega

/-- `mktime` leaves the seconds of its argument as they are. -/
theorem seconds_mktime (tm : Tm) : (mktime zone tm).2.seconds = tm.seconds := by
  unfold mktime
  split
  · rfl
  · exact Tm.seconds_ofSeconds tm.seconds

theorem seconds_setClock (clock : DeviceClock) (frame : SentenceRmc) :
    (setClock zone clock frame).2.seconds = frame.tm.seconds := by
  simp only [setClock]
  split
  · split
    · dsimp only
      rw [seconds_mktime, seconds_mktime]
    · exact seconds_mktime frame.tm
  · rfl

/-- The time stamp in milliseconds does not wrap in its 64 bits. -/
theorem toNat_stamp (time milliseconds : Int) :
    (UInt64.ofInt time * 1000 + UInt64.ofInt milliseconds).toNat =
      ((1000 * time + milliseconds) % 2 ^ 64).toNat := by
  have thousand : (1000 : UInt64) = UInt64.ofInt 1000 := rfl
  rw [thousand, ← UInt64.ofInt_mul, ← UInt64.ofInt_add, UInt64.ofInt, UInt64.toNat_ofNat',
    mul_comm time]
  omega

theorem Moment.Valid.timestamp {m : Moment} (h : m.Valid) (zone : TimeZone) :
    (UInt64.ofInt (timegm zone m.tm) * 1000 +
        UInt64.ofInt ((m.microseconds : Int).tdiv 1000)).toNat =
      if zone.timeMax < m.tm.seconds then 2 ^ 64 - 1000 + m.microseconds / 1000
      else 1000 * m.tm.seconds.toNat + m.microseconds / 1000 := by
  obtain ⟨nonneg, small⟩ := h.seconds_range
  have micros := h.microseconds_lt
  have rest : (m.microseconds : Int).tdiv 1000 = ((m.microseconds / 1000 : Nat) : Int) := rfl
  rw [rest, toNat_stamp, timegm]
  split <;> omega

theorem RmcReport.Frame.message {frame : SentenceRmc} (h : r.Frame frame) (valid : r.Valid) :
    r.Message zone (frame.position zone) := by
  have angle {c : Option Coordinate} (ok : ∀ d ∈ c, d.Valid) :
      c.elim (minmeaTocoord ((coordinateValues c).1.times (coordinateValues c).2) = none)
        (·.Located (minmeaTocoord ((coordinateValues c).1.times (coordinateValues c).2))) := by
    cases c with
    | none => rfl
    | some c => exact (ok c rfl).located
  have stamp : (frame.position zone).timestamp = UInt64.ofInt (timegm zone r.tm) * 1000 +
      UInt64.ofInt ((timeValue r.moment).microseconds.tdiv 1000) := by
    rw [SentenceRmc.position, h.tm_eq, h.time]
  have timed {m : Moment} (known : r.moment = some m) :
      (frame.position zone).timestamp.toNat =
        if zone.timeMax < m.tm.seconds then 2 ^ 64 - 1000 + m.microseconds / 1000
        else 1000 * m.tm.seconds.toNat + m.microseconds / 1000 := by
    rw [stamp, RmcReport.tm, known]
    exact (valid.moment m known).timestamp zone
  constructor
  case latitude =>
    rw [SentenceRmc.position, h.latitude]
    exact angle valid.latitude
  case longitude =>
    rw [SentenceRmc.position, h.longitude]
    exact angle valid.longitude
  case time =>
    intro m known held
    have moment := valid.moment m known
    have nonneg := moment.seconds_range.1
    have micros := moment.microseconds_lt
    rw [timed known, if_neg (Int.not_lt.mpr held)]
    constructor
    · have seconds : (((1000 * m.tm.seconds.toNat + m.microseconds / 1000) / 1000 : Nat) : Int) =
          m.tm.seconds := by omega
      rw [seconds, moment.onDay.ofSeconds_seconds]
    · omega
  case late =>
    intro m known late
    rw [timed known, if_pos late]
  case untimed =>
    intro unknown held
    have seconds : (⟨99, -2, -1, -1, -1, -1⟩ : Tm).seconds = 909701939 := by decide
    rw [stamp, RmcReport.tm, unknown, Option.elim_none, timegm, seconds,
      if_neg (Int.not_lt.mpr held)]
    rfl

theorem position_setClock (frame : SentenceRmc) (clock : DeviceClock) :
    (setClock zone clock frame).1.filterMap NmeaCall.position = [] := by
  simp only [setClock]
  split
  · split
    · cases clock.settable <;> rfl
    · rfl
  · rfl

/-- A frame becomes one message, whether the clock is set or not. -/
theorem position_rmcCalls (clock : DeviceClock) (type : MinmeaSentenceId) (s : List UInt8)
    (frame : SentenceRmc) :
    (rmcCalls zone clock type s frame).filterMap NmeaCall.position = [frame.position zone] := by
  have time : timegm zone (setClock zone clock frame).2 = timegm zone frame.tm := by
    rw [timegm, timegm, seconds_setClock]
  rw [rmcCalls, List.filterMap_cons_none rfl, List.filterMap_append, position_setClock, time]
  rfl

end Message

/-! ### Other sentences -/

section Other

variable {zone : TimeZone} {clock : DeviceClock} {calls : List NmeaCall}

theorem position_whenParsed {α : Type} {frame : Scan α} {type : MinmeaSentenceId}
    {s : List UInt8} (run : whenParsed frame (fun _ => [.log type s]) = .ok calls) :
    calls.filterMap NmeaCall.position = [] := by
  unfold whenParsed at run
  split at run <;> cases run <;> rfl

/-- A sentence that is not an accepted RMC sentence sends no position. -/
theorem position_of_other {s : List UInt8} (other : acceptedType s ≠ some .rmc)
    (run : handleGnssNmea zone clock s = .ok calls) :
    calls.filterMap NmeaCall.position = [] := by
  rw [handleGnssNmea] at run
  cases passed : minmeaCheck s false with
  | error e =>
      rw [passed] at run
      cases run
  | ok b =>
      rw [passed, ok_bind] at run
      split at run
      · cases run
        rfl
      · rename_i checked
        obtain rfl : b = true := by simpa using checked
        cases found : minmeaSentenceId s false with
        | error e =>
            rw [found] at run
            cases run
        | ok id =>
            rw [found] at run
            cases id <;> first
              | exact position_whenParsed run
              | (cases run; rfl)
              | skip
            -- An RMC sentence that the parser refuses.
            cases parsed : minmeaParseRmc s with
            | ok frame =>
                refine absurd (acceptedType_eq_some_iff.mpr ⟨passed, found, ?_⟩) other
                rw [parserAccepts, parsed]
                rfl
            | error e =>
                change whenParsed (minmeaParseRmc s) _ = _ at run
                rw [parsed] at run
                cases e <;> cases run
                rfl

end Other

/-! ### From the serial port -/

section Stream

/-- The handler on one sentence after the other, each at its reading of the clock. -/
def handleAll (zone : TimeZone) (clock : Nat → DeviceClock) :
    Nat → List (List UInt8) → Scan (List NmeaCall)
  | _, [] => return []
  | n, s :: rest => do
      return (← handleGnssNmea zone (clock n) s) ++ (← handleAll zone clock (n + 1) rest)

/-- The sentences of a stream, one at most from each line. -/
def sentences (stream : List UInt8) : List (List UInt8) := (nmeaLines stream).filterMap sentence

/-- The sentence is an RMC sentence that the check and the parser accept. -/
def acceptedRmc (s : List UInt8) : Bool := acceptedType (s ++ [0]) = some .rmc

/-- No number of the sentence is too great for the arithmetic of the handler. -/
def Defined (zone : TimeZone) (s : List UInt8) : Prop :=
  ∀ clock, ∃ calls, handleGnssNmea zone clock (s ++ [0]) = .ok calls

/-- What the network is told about an RMC sentence: place and time of its frame. For a report
they are what it says. -/
structure Told (zone : TimeZone) (s : List UInt8) (pos : PosInfo) : Prop where
  frame : ∃ frame, minmeaParseRmc (s ++ [0]) = .ok frame ∧ pos = frame.position zone
  report : ∀ (r : RmcReport) (t : SentenceText), r.Valid → t.Valid false →
    t.fieldList = r.fields → s = t.text → r.Message zone pos

/-- A report at the end of its line, behind any bytes, in a sentence that fits the buffer. -/
structure Line (noise : List UInt8) (r : RmcReport) (t : SentenceText) : Prop where
  noise : lineFeed ∉ noise
  report : r.Valid
  text : t.Valid false
  written : t.fieldList = r.fields
  ending : t.ending = []
  single : dollar ∉ t.body
  length_le : t.text.length ≤ 95

variable {zone : TimeZone}

/-- A sentence without its ending has no line feed and no carriage return in it, so that it
arrives as one line. -/
theorem SentenceText.Valid.control {t : SentenceText} (h : t.Valid false) (bare : t.ending = [])
    {c : UInt8} (mem : c ∈ t.text) : c ≠ lineFeed ∧ c ≠ carriageReturn := by
  have hex {c : UInt8} {v : Nat} (h : hex2int c = some v) : c ≠ lineFeed ∧ c ≠ carriageReturn := by
    constructor <;> rintro rfl <;> cases h
  rcases List.mem_cons.mp mem with rfl | mem
  · decide
  · rcases List.mem_append.mp mem with mem | mem
    · have solid := h.body c mem
      constructor <;> rintro rfl <;> cases solid
    · rw [bare, List.append_nil] at mem
      rcases t with ⟨body, - | d, ending⟩
      · cases mem
      · obtain ⟨upper, lower, hu, hl, -⟩ := h.digits d rfl
        rcases List.mem_cons.mp mem with rfl | mem
        · decide
        · rcases List.mem_cons.mp mem with rfl | mem
          · exact hex hu
          · rw [List.mem_singleton.mp mem]
            exact hex hl

theorem SentenceText.Valid.dollar_not_mem {t : SentenceText} (h : t.Valid false)
    (bare : t.ending = []) (single : dollar ∉ t.body) :
    dollar ∉ t.body ++ (t.checksum ++ t.ending) := by
  have hex {c : UInt8} {v : Nat} (h : hex2int c = some v) : c ≠ dollar := by
    rintro rfl
    cases h
  intro mem
  rcases List.mem_append.mp mem with mem | mem
  · exact single mem
  · rw [bare, List.append_nil] at mem
    rcases t with ⟨body, - | d, ending⟩
    · cases mem
    · obtain ⟨upper, lower, hu, hl, -⟩ := h.digits d rfl
      rcases List.mem_cons.mp mem with mark | mem
      · cases mark
      · rcases List.mem_cons.mp mem with first | mem
        · exact hex hu first.symm
        · exact hex hl (List.mem_singleton.mp mem).symm

/-- A report is handed over whatever stands before it. -/
theorem sentence_report {noise : List UInt8} {t : SentenceText} (h : t.Valid false)
    (bare : t.ending = []) (single : dollar ∉ t.body) (short : t.text.length ≤ 95) :
    sentence ((noise ++ t.text).filter (· ≠ carriageReturn)) = some t.text := by
  have kept : t.text.filter (· ≠ carriageReturn) = t.text :=
    List.filter_eq_self.mpr fun c mem => by simpa using (h.control bare mem).2
  have start : t.text = [dollar] ++ (t.body ++ (t.checksum ++ t.ending)) := rfl
  have body : History.sinceLast dollar (noise.filter (· ≠ carriageReturn) ++ t.text) =
      t.body ++ (t.checksum ++ t.ending) := by
    rw [start, ← List.append_assoc,
      History.sinceLast_append (h.dollar_not_mem bare single), History.sinceLast_marker,
      List.nil_append]
  have mem : dollar ∈ noise.filter (· ≠ carriageReturn) ++ t.text :=
    List.mem_append_right _ (start ▸ List.mem_cons_self)
  have again : dollar :: (t.body ++ (t.checksum ++ t.ending)) = t.text := rfl
  rw [List.filter_append, kept, sentence, body, again, if_pos ⟨mem, short⟩]

theorem nmeaLines_cons {line : List UInt8} (h : lineFeed ∉ line) (stream : List UInt8) :
    nmeaLines (line ++ [carriageReturn, lineFeed] ++ stream) =
      line.filter (· ≠ carriageReturn) :: nmeaLines stream := by
  have free : lineFeed ∉ line.filter (· ≠ carriageReturn) := fun mem =>
    h (List.mem_filter.mp mem).1
  have split : (line ++ [carriageReturn, lineFeed] ++ stream).filter (· ≠ carriageReturn) =
      line.filter (· ≠ carriageReturn) ++ lineFeed :: stream.filter (· ≠ carriageReturn) := by
    rw [List.filter_append, List.filter_append, List.append_assoc]
    rfl
  rw [nmeaLines, split, terminated_cons free, ← nmeaLines]

/-- A report on its line is the sentence of the line, and it is accepted. -/
theorem Line.sentences {noise : List UInt8} {r : RmcReport} {t : SentenceText}
    (h : Line noise r t) (stream : List UInt8) :
    sentences (noise ++ t.text ++ [carriageReturn, lineFeed] ++ stream) =
      t.text :: sentences stream ∧ acceptedRmc t.text = true := by
  have free : lineFeed ∉ noise ++ t.text := by
    intro mem
    rcases List.mem_append.mp mem with mem | mem
    · exact h.noise mem
    · exact (h.text.control h.ending mem).1 rfl
  refine ⟨?_, decide_eq_true (h.report.accepted h.text h.written []).1⟩
  rw [Gnss.sentences, nmeaLines_cons free, List.filterMap_cons_some
    (sentence_report h.text h.ending h.single h.length_le), Gnss.sentences]

/-- **Step lemma.** An RMC sentence that is accepted leads to one message, any other to none. -/
theorem Defined.handled {s : List UInt8} (defined : Defined zone s) (clock : DeviceClock) :
    ∃ calls, handleGnssNmea zone clock (s ++ [0]) = .ok calls ∧
      List.Forall₂ (Told zone) ([s].filter acceptedRmc)
        (calls.filterMap NmeaCall.position) := by
  obtain ⟨calls, run⟩ := defined clock
  refine ⟨calls, run, ?_⟩
  by_cases accepted : acceptedRmc s = true
  · have type : acceptedType (s ++ [0]) = some .rmc := of_decide_eq_true accepted
    obtain ⟨frame, parsed⟩ : ∃ frame, minmeaParseRmc (s ++ [0]) = .ok frame := by
      have accepts := (acceptedType_eq_some_iff.mp type).2.2
      rw [parserAccepts] at accepts
      cases parsed : minmeaParseRmc (s ++ [0]) with
      | ok frame => exact ⟨frame, rfl⟩
      | error e =>
          rw [parsed] at accepts
          cases accepts
    rw [handleGnssNmea_rmc type zone clock parsed] at run
    obtain rfl := Except.ok.inj run
    rw [position_rmcCalls, List.filter_cons_of_pos accepted, List.filter_nil]
    refine .cons ⟨⟨frame, parsed, rfl⟩, ?_⟩ .nil
    rintro r t valid text written rfl
    obtain ⟨frame', held, parsed'⟩ := (valid.accepted text written []).2
    obtain rfl : frame = frame' := Except.ok.inj (parsed.symm.trans parsed')
    exact held.message valid
  · have type : acceptedType (s ++ [0]) ≠ some .rmc := fun h => accepted (decide_eq_true h)
    rw [position_of_other type run, List.filter_cons_of_neg accepted, List.filter_nil]
    exact .nil

theorem handleAll_sentences (clock : Nat → DeviceClock) (n : Nat) {ss : List (List UInt8)}
    (defined : ∀ s ∈ ss, Defined zone s) :
    ∃ calls, handleAll zone clock n (ss.map (· ++ [0])) = .ok calls ∧
      List.Forall₂ (Told zone) (ss.filter acceptedRmc)
        (calls.filterMap NmeaCall.position) := by
  induction ss generalizing n with
  | nil => exact ⟨[], rfl, .nil⟩
  | cons s ss ih =>
      obtain ⟨first, later⟩ := List.forall_mem_cons.mp defined
      obtain ⟨calls, run, told⟩ := first.handled (clock n)
      obtain ⟨more, run', told'⟩ := ih (n + 1) later
      refine ⟨calls ++ more, ?_, ?_⟩
      · rw [List.map_cons, handleAll, run, run']
        rfl
      · rw [List.filterMap_append, ← List.singleton_append, List.filter_append]
        exact List.rel_append told told'

/-- 39°54.20000' N, 116°23.50000' E, on 2026-09-13 at 08:18:36.75. -/
def fixReport : RmcReport where
  talker := ascii "GN"
  moment := some ⟨⟨2026, 9, 13, by decide, by decide, by decide, by decide⟩, 8, 18, 36,
    some (ascii "75")⟩
  status := 65
  latitude := some ⟨⟨0, none, ascii "3954", some (ascii "20000")⟩, false⟩
  longitude := some ⟨⟨0, none, ascii "11623", some (ascii "50000")⟩, false⟩
  speed := []
  course := ascii "0.5"
  variation := []
  variationDirection := []
  more := [ascii "A"]

theorem fixReport_valid : fixReport.Valid where
  talker := rfl
  moment := by
    rintro m ⟨⟩
    exact ⟨by decide, by decide, by decide, by decide, by decide⟩
  latitude := by
    rintro c ⟨⟩
    exact ⟨⟨by decide, by decide, by decide⟩, by decide, by decide⟩
  longitude := by
    rintro c ⟨⟩
    exact ⟨⟨by decide, by decide, by decide⟩, by decide, by decide⟩
  speed := ⟨_, rfl⟩
  course := ⟨_, rfl⟩
  variation := ⟨_, rfl⟩
  variationDirection := ⟨_, rfl⟩

/-- What a receiver writes after a cold start. -/
def coldReport : RmcReport where
  talker := ascii "GN"
  moment := none
  status := 86
  latitude := none
  longitude := none
  speed := []
  course := []
  variation := []
  variationDirection := []
  more := [ascii "N"]

theorem coldReport_valid : coldReport.Valid where
  talker := rfl
  moment := nofun
  latitude := nofun
  longitude := nofun
  speed := ⟨_, rfl⟩
  course := ⟨_, rfl⟩
  variation := ⟨_, rfl⟩
  variationDirection := ⟨_, rfl⟩

def RmcReport.text (r : RmcReport) : SentenceText := writeSentence r.fields []

theorem RmcReport.text_valid {r : RmcReport}
    (printable : r.fields.all (·.all minmeaIsfield) = true) :
    r.text.Valid false ∧ r.text.fieldList = r.fields := by
  have isField : ∀ f ∈ r.fields, MinmeaField f := fun f mem c inside =>
    List.all_eq_true.mp (List.all_eq_true.mp printable f mem) c inside
  have strict : r.text.Valid true := writeSentence_valid isField (by simp)
  exact ⟨⟨strict.body, strict.ending, strict.digits, fun h => by cases h⟩,
    fieldList_writeSentence isField⟩

theorem fixReport_text : fixReport.text.Valid false ∧ fixReport.text.fieldList = fixReport.fields :=
  RmcReport.text_valid (by decide)

theorem coldReport_text :
    coldReport.text.Valid false ∧ coldReport.text.fieldList = coldReport.fields :=
  RmcReport.text_valid (by decide)

/-- The sentences of reports are handled without an overflow. -/
theorem RmcReport.Valid.defined {r : RmcReport} (h : r.Valid) {t : SentenceText}
    (valid : t.Valid false) (written : t.fieldList = r.fields) (zone : TimeZone) :
    Defined zone t.text := by
  intro clock
  obtain ⟨accepted, frame, -, parsed⟩ := h.accepted valid written []
  exact ⟨_, handleGnssNmea_rmc accepted zone clock parsed⟩

end Stream

end Ok3506.Gnss
