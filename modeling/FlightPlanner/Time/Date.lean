/-!
# Dates

Dates of the Gregorian calendar, also for the years before it was introduced: the lengths of months, the
neighbouring days, and the count of days from the first of January 1970.
-/

namespace FlightPlanner.Time

/-- Whether a year has a leap day. -/
def isLeapYear (year : Int) : Bool := year % 4 = 0 && (year % 100 ≠ 0 || year % 400 = 0)

/-- The number of days of a month. -/
def daysIn (year : Int) (month : Nat) : Nat :=
  if month = 2 then (if isLeapYear year then 29 else 28)
  else if month = 4 || month = 6 || month = 9 || month = 11 then 30
  else 31

/-- Every month has at least twenty-eight days. -/
theorem daysIn_ge (year : Int) (month : Nat) : 28 ≤ daysIn year month := by
  unfold daysIn
  repeat' split
  all_goals omega

/-- A day of the calendar. -/
structure Date where
  /-- The year; the one before the first is zero. -/
  year : Int
  /-- The month, from one to twelve. -/
  month : Nat
  /-- The day of the month, from one on. -/
  day : Nat
  /-- The year has such a month. -/
  month_mem : 1 ≤ month ∧ month ≤ 12
  /-- The month has such a day. -/
  day_mem : 1 ≤ day ∧ day ≤ daysIn year month
deriving DecidableEq

namespace Date

/-- The day with the given numbers, if there is one. -/
def ofNumbers? (year : Int) (month day : Nat) : Option Date :=
  if h : (1 ≤ month ∧ month ≤ 12) ∧ 1 ≤ day ∧ day ≤ daysIn year month then
    some ⟨year, month, day, h.1, h.2⟩
  else none

/-- The first of January 1970, from which days and seconds are counted. -/
def epoch : Date := ⟨1970, 1, 1, by decide, by decide⟩

/-- The day before. -/
def previous (d : Date) : Date :=
  if h : 1 < d.day then
    ⟨d.year, d.month, d.day - 1, d.month_mem, by have := d.day_mem; omega⟩
  else if h : 1 < d.month then
    ⟨d.year, d.month - 1, daysIn d.year (d.month - 1), by have := d.month_mem; omega,
      by have := daysIn_ge d.year (d.month - 1); omega⟩
  else
    ⟨d.year - 1, 12, daysIn (d.year - 1) 12, by decide, by have := daysIn_ge (d.year - 1) 12; omega⟩

/-- The day after. -/
def next (d : Date) : Date :=
  if h : d.day < daysIn d.year d.month then
    ⟨d.year, d.month, d.day + 1, d.month_mem, by omega⟩
  else if h : d.month < 12 then
    ⟨d.year, d.month + 1, 1, by omega, by have := daysIn_ge d.year (d.month + 1); omega⟩
  else
    ⟨d.year + 1, 1, 1, by decide, by have := daysIn_ge (d.year + 1) 1; omega⟩

/-- The number of days from the epoch. Years are taken to begin in March, so that the leap day is the last
day of one; a hundred and fifty-three days make five months. -/
def dayNumber (d : Date) : Int :=
  let year := if d.month ≤ 2 then d.year - 1 else d.year
  let era := year / 400
  let yearOfEra := year % 400
  let monthFromMarch : Int := (d.month + 9) % 12
  let dayOfYear := (153 * monthFromMarch + 2) / 5 + d.day - 1
  era * 146097 + yearOfEra * 365 + yearOfEra / 4 - yearOfEra / 100 + dayOfYear - 719468

/-- The day a number of days from the epoch. -/
def ofDayNumber (number : Int) : Date :=
  let shifted := number + 719468
  let era := shifted / 146097
  let dayOfEra := shifted % 146097
  let yearOfEra := (dayOfEra - dayOfEra / 1460 + dayOfEra / 36524 - dayOfEra / 146096) / 365
  let dayOfYear := dayOfEra - (365 * yearOfEra + yearOfEra / 4 - yearOfEra / 100)
  let monthFromMarch := (5 * dayOfYear + 2) / 153
  let day := dayOfYear - (153 * monthFromMarch + 2) / 5 + 1
  let month := (monthFromMarch + 2) % 12 + 1
  let year := yearOfEra + era * 400 + (if month ≤ 2 then 1 else 0)
  (ofNumbers? year month.toNat day.toNat).getD epoch

end Date

end FlightPlanner.Time
