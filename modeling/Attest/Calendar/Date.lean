/-! Dates of the Gregorian calendar, extended backwards to the year 1 and limited to years of at most
four digits, and their numbers when days are counted one by one. -/

namespace Attest

def isLeapYear (year : Nat) : Bool := year % 4 == 0 && (year % 100 != 0 || year % 400 == 0)

def monthLengths (leap : Bool) : List Nat :=
  [31, if leap then 29 else 28, 31, 30, 31, 30, 31, 31, 30, 31, 30, 31]

/-- The number of days in a month; months count from one. -/
def daysInMonth (year month : Nat) : Nat := (monthLengths (isLeapYear year)).getD (month - 1) 0

/-- The number of days from the first day of the year 1 to the first day of a year. -/
def daysBeforeYear (year : Nat) : Nat :=
  let past := year - 1
  365 * past + past / 4 - past / 100 + past / 400

def daysBeforeMonth (year month : Nat) : Nat :=
  ((monthLengths (isLeapYear year)).take (month - 1)).foldl (· + ·) 0

def isYear (year : Nat) : Bool := 1 ≤ year && year ≤ 9999

def isDate (year month day : Nat) : Bool :=
  isYear year && 1 ≤ month && month ≤ 12 && 1 ≤ day && day ≤ daysInMonth year month

/-- A day of the calendar. -/
structure Date where
  year : Nat
  month : Nat
  day : Nat
  inCalendar : isDate year month day = true
  deriving DecidableEq, Repr

namespace Date

instance : Inhabited Date := ⟨⟨1, 1, 1, rfl⟩⟩

def of? (year month day : Nat) : Option Date :=
  if h : isDate year month day then some ⟨year, month, day, h⟩ else none

/-- The number of days since the first day of the year 1. -/
def number (d : Date) : Nat :=
  daysBeforeYear d.year + daysBeforeMonth d.year d.month + (d.day - 1)

/-- The year in a cycle of 400 years, and the day in that year, of a day of the cycle; all three
count from zero. -/
def yearInCycle (n : Nat) : Nat × Nat :=
  let centuries := min (n / 36524) 3
  let inCentury := n - 36524 * centuries
  let fours := inCentury / 1461
  let inFour := inCentury % 1461
  let years := min (inFour / 365) 3
  (100 * centuries + 4 * fours + years, inFour - 365 * years)

/-- The year of a day numbered from the first day of the year 1, and the day in that year, which
counts from zero. -/
def yearOfNumber (n : Int) : Int × Nat :=
  let (year, day) := yearInCycle (n % 146097).toNat
  (400 * (n / 146097) + year + 1, day)

/-- The month, counted from `month`, and the day of the month, counted from one, of the day `n` of
consecutive months; days of the year count from zero. -/
def monthAndDay (month n : Nat) : List Nat → Nat × Nat
  | [] => (month, n + 1)
  | length :: rest => if n < length then (month, n + 1) else monthAndDay (month + 1) (n - length) rest

/-- The day with a number counted from the first day of the year 1, if its year has four digits at
most. -/
def ofNumber? (n : Int) : Option Date :=
  let (year, dayOfYear) := yearOfNumber n
  let (month, day) := monthAndDay 1 dayOfYear (monthLengths (isLeapYear year.toNat))
  of? year.toNat month day

/-- The day of the week on which a year begins, Monday being zero. -/
def firstWeekday (year : Nat) : Nat := daysBeforeYear year % 7

/-- The number of weeks in a year; a week belongs to the year in which its Thursday lies. -/
def weeksInYear (year : Nat) : Nat :=
  if firstWeekday year = 3 || firstWeekday year = 2 && isLeapYear year then 53 else 52

/-- The day of a year given by its week and its day in the week, both counted from one. -/
def ofWeek? (year week weekday : Nat) : Option Date :=
  if isYear year && 1 ≤ week && week ≤ weeksInYear year && 1 ≤ weekday && weekday ≤ 7 then
    let monday : Int := daysBeforeYear year - firstWeekday year
    -- The first week is the one with the first Thursday.
    let first := if 3 < firstWeekday year then monday + 7 else monday
    ofNumber? (first + 7 * (week - 1) + (weekday - 1))
  else none

end Date

end Attest
