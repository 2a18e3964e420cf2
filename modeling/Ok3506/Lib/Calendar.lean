import Mathlib.Algebra.Order.Ring.Int
import Mathlib.Tactic.IntervalCases
import Mathlib.Tactic.Ring

/-!
The Gregorian calendar, extended to all years.

A `Date` carries the proof that its month and its day exist. `dayNumber` counts the
days from 1970-01-01 on and is also defined for days outside the month, which are days
of the months before or after; `dateOf` is its inverse. The years start in March here,
so that the leap day is the last day of its year.
-/

namespace Ok3506.Calendar

/-- The year has a leap day. -/
def Leap (year : Int) : Prop := year % 4 = 0 ∧ (year % 100 ≠ 0 ∨ year % 400 = 0)

instance (year : Int) : Decidable (Leap year) := inferInstanceAs (Decidable (_ ∧ (_ ∨ _)))

/-- The number of days of a month. -/
def daysInMonth (year month : Int) : Int :=
  if month = 2 then if Leap year then 29 else 28
  else if month = 4 ∨ month = 6 ∨ month = 9 ∨ month = 11 then 30
  else 31

/-- A day of the calendar. -/
@[ext] structure Date where
  year : Int
  month : Int
  day : Int
  month_pos : 1 ≤ month
  month_le : month ≤ 12
  day_pos : 1 ≤ day
  day_le : day ≤ daysInMonth year month
  deriving DecidableEq

/-- The days from 0000-03-01 to the first of March of a year. -/
def yearStart (year : Int) : Int := 365 * year + year / 4 - year / 100 + year / 400

/-- The days from the first of March to the first of a month, where March is 0. -/
def monthStart (month : Int) : Int := (153 * month + 2) / 5

/-- The days from 1970-01-01 on; `month` is from 1 to 12. -/
def dayNumber (year month day : Int) : Int :=
  if month ≤ 2 then yearStart (year - 1) + monthStart (month + 9) + day - 719469
  else yearStart year + monthStart (month - 3) + day - 719469

/-! ### The inverse -/

/-- The year from March on in which a day falls, and the day of that year from 0 on. -/
def marchYear (n : Int) : Int × Int :=
  let era := n / 146097
  let r := n % 146097
  let century := min (r / 36524) 3
  let r := r - 36524 * century
  let cycle := r / 1461
  let r := r % 1461
  let year := min (r / 365) 3
  (400 * era + 100 * century + 4 * cycle + year, r - 365 * year)

/-- The month of a day of the year, where March is 0, and the day of the month from 0 on. -/
def marchMonth (day : Int) : Int × Int :=
  ((5 * day + 2) / 153, day - monthStart ((5 * day + 2) / 153))

theorem marchYear_spec (n : Int) :
    yearStart (marchYear n).1 + (marchYear n).2 = n ∧ 0 ≤ (marchYear n).2 ∧
      ((marchYear n).2 ≤ 364 ∨ (marchYear n).2 = 365 ∧ Leap ((marchYear n).1 + 1)) := by
  obtain ⟨era, he⟩ : ∃ e, e = n / 146097 := ⟨_, rfl⟩
  obtain ⟨r, hr⟩ : ∃ r, r = n % 146097 := ⟨_, rfl⟩
  obtain ⟨century, hc⟩ : ∃ c, c = min (r / 36524) 3 := ⟨_, rfl⟩
  obtain ⟨r', hr'⟩ : ∃ r', r' = r - 36524 * century := ⟨_, rfl⟩
  obtain ⟨cycle, hy⟩ : ∃ c, c = r' / 1461 := ⟨_, rfl⟩
  obtain ⟨r'', hr''⟩ : ∃ r'', r'' = r' % 1461 := ⟨_, rfl⟩
  obtain ⟨year, hyear⟩ : ∃ y, y = min (r'' / 365) 3 := ⟨_, rfl⟩
  have value : marchYear n = (400 * era + 100 * century + 4 * cycle + year, r'' - 365 * year) := by
    rw [marchYear, hyear, hr'', hy, hr', hc, hr, he]
  have century_range : 0 ≤ century ∧ century ≤ 3 := by omega
  have r'_range : 0 ≤ r' ∧ r' ≤ 36524 ∧ (r' = 36524 → century = 3) := by omega
  have cycle_range : 0 ≤ cycle ∧ cycle ≤ 24 := by omega
  have r''_range : 0 ≤ r'' ∧ r'' ≤ 1460 := by omega
  have year_range : 0 ≤ year ∧ year ≤ 3 := by omega
  have start : yearStart (400 * era + 100 * century + 4 * cycle + year) =
      146097 * era + 36524 * century + 1461 * cycle + 365 * year := by
    have four : (400 * era + 100 * century + 4 * cycle + year) / 4 =
        100 * era + 25 * century + cycle := by omega
    have hundred : (400 * era + 100 * century + 4 * cycle + year) / 100 = 4 * era + century := by
      omega
    have fourHundred : (400 * era + 100 * century + 4 * cycle + year) / 400 = era := by omega
    rw [yearStart, four, hundred, fourHundred]
    ring
  rw [value]
  dsimp only
  rw [start]
  refine ⟨by omega, by omega, ?_⟩
  by_cases last : r'' - 365 * year = 365
  · right
    refine ⟨last, ?_⟩
    unfold Leap
    omega
  · left
    omega

theorem marchMonth_spec {day : Int} (low : 0 ≤ day) (high : day ≤ 365) :
    0 ≤ (marchMonth day).1 ∧ (marchMonth day).1 ≤ 11 ∧ 0 ≤ (marchMonth day).2 ∧
      monthStart (marchMonth day).1 + (marchMonth day).2 = day ∧
      (day < monthStart ((marchMonth day).1 + 1)) := by
  unfold marchMonth monthStart
  dsimp only
  omega

/-- The year and the month from January on. -/
def civil (year month : Int) : Int × Int :=
  if 10 ≤ month then (year + 1, month - 9) else (year, month + 3)

theorem civil_spec {year day : Int} (low : 0 ≤ day)
    (high : day ≤ 364 ∨ day = 365 ∧ Leap (year + 1)) :
    1 ≤ (civil year (marchMonth day).1).2 ∧ (civil year (marchMonth day).1).2 ≤ 12 ∧
      1 ≤ (marchMonth day).2 + 1 ∧
      (marchMonth day).2 + 1 ≤ daysInMonth (civil year (marchMonth day).1).1
        (civil year (marchMonth day).1).2 := by
  obtain ⟨month_low, month_high, day_low, split, next⟩ :=
    marchMonth_spec low (show day ≤ 365 by omega)
  generalize (marchMonth day).1 = month at *
  generalize (marchMonth day).2 = d at *
  unfold monthStart at split next
  unfold civil daysInMonth
  by_cases february : month = 11
  · -- Only here does the length of the year matter.
    subst february
    norm_num
    split_ifs with leap
    · omega
    · have : day ≤ 364 := high.elim id fun last => absurd last.2 leap
      omega
  · have : month ≤ 10 := by omega
    interval_cases month <;> norm_num <;> omega

/-- The calendar day with a number. -/
def dateOf (n : Int) : Date :=
  have spec := marchYear_spec (n + 719468)
  have valid := civil_spec spec.2.1 spec.2.2
  { year := (civil (marchYear (n + 719468)).1 (marchMonth (marchYear (n + 719468)).2).1).1
    month := (civil (marchYear (n + 719468)).1 (marchMonth (marchYear (n + 719468)).2).1).2
    day := (marchMonth (marchYear (n + 719468)).2).2 + 1
    month_pos := valid.1
    month_le := valid.2.1
    day_pos := valid.2.2.1
    day_le := valid.2.2.2 }

theorem dayNumber_civil {year month : Int} (low : 0 ≤ month) (high : month ≤ 11) (day : Int) :
    dayNumber (civil year month).1 (civil year month).2 day =
      yearStart year + monthStart month + day - 719469 := by
  unfold civil dayNumber
  split
  · rw [if_pos (by omega)]
    congr 3
    · congr 1
      omega
    · congr 1
      omega
  · rw [if_neg (by omega)]
    congr 4
    omega

/-- **Every day has one number**: the day with a number has this number. -/
theorem dayNumber_dateOf (n : Int) :
    dayNumber (dateOf n).year (dateOf n).month (dateOf n).day = n := by
  obtain ⟨value, low, high⟩ := marchYear_spec (n + 719468)
  obtain ⟨month_low, month_high, -, split, -⟩ :=
    marchMonth_spec low (show (marchYear (n + 719468)).2 ≤ 365 by omega)
  have day_eq : (dateOf n).day = (marchMonth (marchYear (n + 719468)).2).2 + 1 := rfl
  rw [day_eq, dateOf, dayNumber_civil month_low month_high]
  omega

/-! ### Different days have different numbers -/

theorem yearStart_succ (year : Int) :
    yearStart (year + 1) = yearStart year + (if Leap (year + 1) then 366 else 365) := by
  unfold yearStart Leap
  split_ifs <;> omega

theorem yearStart_le {a b : Int} (h : a ≤ b) : yearStart a ≤ yearStart b := by
  unfold yearStart
  omega

theorem marchYear_yearStart {year day : Int} (low : 0 ≤ day)
    (high : day ≤ 364 ∨ day = 365 ∧ Leap (year + 1)) :
    marchYear (yearStart year + day) = (year, day) := by
  obtain ⟨value, low', high'⟩ := marchYear_spec (yearStart year + day)
  generalize marchYear (yearStart year + day) = found at *
  obtain ⟨year', day'⟩ := found
  dsimp only at value low' high'
  -- A day lies before the start of the next year.
  have before : ∀ {y d : Int}, (d ≤ 364 ∨ d = 365 ∧ Leap (y + 1)) →
      yearStart y + d < yearStart (y + 1) := by
    intro y d h
    rw [yearStart_succ]
    split_ifs with leap
    · omega
    · have : d ≤ 364 := h.elim id fun last => absurd last.2 leap
      omega
  have bound := before high
  have bound' := before high'
  have same : year' = year := by
    rcases Int.lt_trichotomy year' year with less | same | greater
    · have := yearStart_le (show year' + 1 ≤ year by omega)
      omega
    · exact same
    · have := yearStart_le (show year + 1 ≤ year' by omega)
      omega
  subst same
  rw [Prod.mk.injEq]
  exact ⟨rfl, by omega⟩

theorem marchMonth_monthStart {month d : Int} (low : 0 ≤ d)
    (high : monthStart month + d < monthStart (month + 1)) :
    marchMonth (monthStart month + d) = (month, d) := by
  have same : (5 * (monthStart month + d) + 2) / 153 = month := by
    unfold monthStart at *
    omega
  rw [marchMonth, same, add_sub_cancel_left]

/-- The year and the month from March on of a day. -/
theorem Date.exists_march (date : Date) :
    ∃ year month, civil year month = (date.year, date.month) ∧ 0 ≤ month ∧ month ≤ 11 ∧
      (monthStart month + (date.day - 1) < monthStart (month + 1)) ∧
      (monthStart month + (date.day - 1) ≤ 364 ∨
        monthStart month + (date.day - 1) = 365 ∧ Leap (year + 1)) := by
  obtain ⟨year, month, day, month_pos, month_le, day_pos, day_le⟩ := date
  dsimp only
  unfold daysInMonth at day_le
  unfold civil monthStart
  by_cases early : month ≤ 2
  · refine ⟨year - 1, month + 9, ?_⟩
    rw [if_pos (by omega)]
    by_cases february : month = 2
    · subst february
      rw [if_pos rfl] at day_le
      simp only [sub_add_cancel]
      split_ifs at day_le with leap
      · refine ⟨?_, by omega, by omega, by omega, ?_⟩
        · norm_num
        · by_cases last : day = 29
          · exact .inr ⟨by omega, leap⟩
          · exact .inl (by omega)
      · exact ⟨by norm_num, by omega, by omega, by omega, .inl (by omega)⟩
    · obtain rfl : month = 1 := by omega
      norm_num at day_le ⊢
      omega
  · refine ⟨year, month - 3, ?_⟩
    rw [if_neg (by omega)]
    interval_cases month <;> norm_num at day_le early ⊢ <;> omega

/-- The day with the number of a day is this day. -/
theorem dateOf_dayNumber (date : Date) :
    dateOf (dayNumber date.year date.month date.day) = date := by
  obtain ⟨year, month, civil_eq, month_low, month_high, day_high, high⟩ := date.exists_march
  have low : 0 ≤ monthStart month + (date.day - 1) := by
    have := date.day_pos
    unfold monthStart
    omega
  have number := @dayNumber_civil year month month_low month_high date.day
  rw [civil_eq] at number
  have found : marchYear (dayNumber date.year date.month date.day + 719468) =
      (year, monthStart month + (date.day - 1)) := by
    rw [← marchYear_yearStart low high, number]
    congr 1
    ring
  have foundMonth := marchMonth_monthStart (by have := date.day_pos; omega) day_high
  ext <;> dsimp only [dateOf] <;> rw [found, foundMonth]
  · rw [civil_eq]
  · rw [civil_eq]
  · omega

/-! ### Broken-down time -/

/-- `struct tm` in UTC: the year counts from 1900 on and the month from 0 on. -/
@[ext] structure Tm where
  year : Int
  mon : Int
  mday : Int
  hour : Int
  min : Int
  sec : Int
  deriving DecidableEq, Repr

namespace Tm

/-- The seconds from 1970-01-01 on. Members outside their ranges count on. -/
def seconds (tm : Tm) : Int :=
  86400 * dayNumber (1900 + tm.year + tm.mon / 12) (tm.mon % 12 + 1) tm.mday +
    3600 * tm.hour + 60 * tm.min + tm.sec

/-- The broken-down time of some seconds. -/
def ofSeconds (t : Int) : Tm :=
  let date := dateOf (t / 86400)
  { year := date.year - 1900, mon := date.month - 1, mday := date.day
    hour := t % 86400 / 3600, min := t % 3600 / 60, sec := t % 60 }

/-- A moment of a calendar day. -/
structure OnDay (tm : Tm) (date : Date) : Prop where
  year : tm.year = date.year - 1900
  mon : tm.mon = date.month - 1
  mday : tm.mday = date.day
  hour : 0 ≤ tm.hour ∧ tm.hour < 24
  min : 0 ≤ tm.min ∧ tm.min < 60
  sec : 0 ≤ tm.sec ∧ tm.sec < 60

theorem OnDay.seconds_eq {tm : Tm} {date : Date} (h : tm.OnDay date) :
    tm.seconds = 86400 * dayNumber date.year date.month date.day +
      3600 * tm.hour + 60 * tm.min + tm.sec := by
  have low := date.month_pos
  have high := date.month_le
  have year : 1900 + tm.year + tm.mon / 12 = date.year := by
    rw [h.year, h.mon]
    omega
  have month : tm.mon % 12 + 1 = date.month := by
    rw [h.mon]
    omega
  rw [seconds, year, month, h.mday]

theorem onDay_ofSeconds (t : Int) : (ofSeconds t).OnDay (dateOf (t / 86400)) := by
  refine ⟨rfl, rfl, rfl, ?_, ?_, ?_⟩ <;> dsimp only [ofSeconds] <;> omega

theorem seconds_ofSeconds (t : Int) : (ofSeconds t).seconds = t := by
  rw [(onDay_ofSeconds t).seconds_eq, dayNumber_dateOf]
  dsimp only [ofSeconds]
  omega

/-- A moment of a day is the broken-down time of its seconds. -/
theorem OnDay.ofSeconds_seconds {tm : Tm} {date : Date} (h : tm.OnDay date) :
    ofSeconds tm.seconds = tm := by
  obtain ⟨year, mon, mday, hour, min, sec⟩ := h
  have day : tm.seconds / 86400 = dayNumber date.year date.month date.day := by
    rw [OnDay.seconds_eq ⟨year, mon, mday, hour, min, sec⟩]
    omega
  have rest : tm.seconds % 86400 = 3600 * tm.hour + 60 * tm.min + tm.sec := by
    rw [OnDay.seconds_eq ⟨year, mon, mday, hour, min, sec⟩]
    omega
  ext <;> dsimp only [ofSeconds]
  · rw [day, dateOf_dayNumber, year]
  · rw [day, dateOf_dayNumber, mon]
  · rw [day, dateOf_dayNumber, mday]
  · omega
  · omega
  · omega

end Tm

end Ok3506.Calendar
