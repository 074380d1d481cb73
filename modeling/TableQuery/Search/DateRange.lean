import TableQuery.Failure
import TableQuery.Calendar.Pattern
import TableQuery.Text.Basic

/-! # Date ranges

A date range is two dates with ` - ` between them. Each side is written in one of six patterns,
three of them with a time of day. The range ends with the last second of its second date. -/

namespace TableQuery

namespace DateRange

/-- The patterns in the order in which they are tried. -/
def patterns : List DatePattern :=
  [.standard, .joined, .withoutSeconds, .isoDate, .slashDate, .dottedDate]

/-- The moment that one side of a range gives. -/
def readSide (s : String) : Except ParseFailure Moment :=
  match patterns.findSome? fun p => p.read s with
  | some m => .ok m
  | none => .error (.notADate s)

/-- The text between the two sides. -/
def separator : String := " - "

/-- The two sides of a range; what follows a second separator is left out. -/
def sides? (s : String) : Option (String × String) :=
  (Text.cutText separator s).map fun (low, rest) =>
    match Text.cutText separator rest with
    | some (high, _) => (low, high)
    | none => (low, rest)

/-- The first and the last moment of a range. -/
def read (s : String) : Except ParseFailure (Moment × Moment) :=
  match sides? s with
  | none => .error (.notARange s)
  | some (low, high) => do
    let start ← readSide (Text.trim low)
    let stop ← readSide (Text.trim high)
    pure (start, stop.date.lastSecond)

end DateRange

end TableQuery
