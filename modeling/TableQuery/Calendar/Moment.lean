/-! # Dates and times of day

Dates of the Gregorian calendar, extended to years before the first one, and times of day to the
second. A minute may have a sixtieth second. -/

namespace TableQuery

/-- A date. -/
structure Date where
  /-- The year; the year before 1 is 0. -/
  year : Int
  /-- The month, from 1. -/
  month : Nat
  /-- The day of the month, from 1. -/
  day : Nat
deriving DecidableEq, Repr, Inhabited

/-- Years with a 29th of February. -/
def isLeapYear (year : Int) : Bool := year % 4 == 0 && (year % 100 != 0 || year % 400 == 0)

/-- The number of days of a month, zero when there is no such month. -/
def daysInMonth (year : Int) (month : Nat) : Nat :=
  match month with
  | 1 | 3 | 5 | 7 | 8 | 10 | 12 => 31
  | 4 | 6 | 9 | 11 => 30
  | 2 => if isLeapYear year then 29 else 28
  | _ => 0

/-- Dates of the calendar within the years that are kept. -/
def Date.isValid (d : Date) : Bool :=
  -262143 ≤ d.year && d.year ≤ 262142 && 1 ≤ d.day && d.day ≤ daysInMonth d.year d.month

/-- A date and a time of day. -/
structure Moment where
  date : Date
  /-- The hour, from 0. -/
  hour : Nat
  /-- The minute, from 0. -/
  minute : Nat
  /-- The second, from 0. -/
  second : Nat
deriving DecidableEq, Repr, Inhabited

/-- Moments of the calendar. -/
def Moment.isValid (m : Moment) : Bool :=
  m.date.isValid && m.hour < 24 && m.minute < 60 && m.second ≤ 60

/-- The last full second of a date. -/
def Date.lastSecond (d : Date) : Moment := ⟨d, 23, 59, 59⟩

end TableQuery
