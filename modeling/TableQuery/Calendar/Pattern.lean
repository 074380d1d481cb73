import TableQuery.Calendar.Moment
import TableQuery.Decimal.Literal
import TableQuery.Text.Basic

/-! # Written dates

A pattern is a list of parts. Reading is generous with numbers: blanks before them are skipped,
leading zeros may be left out, and a blank of the pattern stands for any run of blanks. Writing pads
months, days and times to two digits and years to four; a year outside 0 to 9999 has a sign. -/

namespace TableQuery

/-- A part of a pattern. -/
inductive DatePart where
  | year
  | month
  | day
  | hour
  | minute
  | second
  | mark (c : Char)
  | blank
deriving DecidableEq, Repr

/-- A form of written dates. -/
abbrev DatePattern := List DatePart

namespace DatePattern

/-- `2024-01-31`. -/
def isoDate : DatePattern := [.year, .mark '-', .month, .mark '-', .day]

/-- `01/31/2024`. -/
def slashDate : DatePattern := [.month, .mark '/', .day, .mark '/', .year]

/-- `31.01.2024`. -/
def dottedDate : DatePattern := [.day, .mark '.', .month, .mark '.', .year]

/-- `10:30`. -/
def toMinute : DatePattern := [.hour, .mark ':', .minute]

/-- `10:30:15`. -/
def toSecond : DatePattern := toMinute ++ [.mark ':', .second]

/-- `2024-01-31 10:30:15`. -/
def standard : DatePattern := isoDate ++ .blank :: toSecond

/-- `2024-01-31T10:30:15`. -/
def joined : DatePattern := isoDate ++ .mark 'T' :: toSecond

/-- `2024-01-31 10:30`. -/
def withoutSeconds : DatePattern := isoDate ++ .blank :: toMinute

end DatePattern

/-! ### Reading -/

/-- A number of one digit or more, at most `width` of them, and the rest. -/
def takeNumber (width : Nat) (cs : List Char) : Option (Nat × List Char) :=
  let digits := (cs.takeWhile Char.isDigit).take width
  if digits.isEmpty then none else some (Decimal.digitsValue digits, cs.drop digits.length)

/-- A year: up to four digits, or a sign and any number of digits. -/
def takeYear (cs : List Char) : Option (Int × List Char) :=
  match cs with
  | '-' :: rest => (takeNumber rest.length rest).map fun r => (-(r.1 : Int), r.2)
  | '+' :: rest => (takeNumber rest.length rest).map fun r => ((r.1 : Int), r.2)
  | rest => (takeNumber 4 rest).map fun r => ((r.1 : Int), r.2)

/-- Reads one part into the moment read so far. -/
def DatePart.read (part : DatePart) (m : Moment) (cs : List Char) :
    Option (Moment × List Char) :=
  let number (set : Nat → Moment) :=
    (takeNumber 2 (Text.trimLeft cs)).map fun r => (set r.1, r.2)
  match part with
  | .year =>
    (takeYear (Text.trimLeft cs)).map fun r => ({ m with date := { m.date with year := r.1 } }, r.2)
  | .month => number fun n => { m with date := { m.date with month := n } }
  | .day => number fun n => { m with date := { m.date with day := n } }
  | .hour => number fun n => { m with hour := n }
  | .minute => number fun n => { m with minute := n }
  | .second => number fun n => { m with second := n }
  | .mark c =>
    match cs with
    | d :: rest => if d = c then some (m, rest) else none
    | [] => none
  | .blank => some (m, Text.trimLeft cs)

/-- Reads the parts of a pattern up to the end of the text. -/
def DatePattern.readFrom : DatePattern → Moment → List Char → Option Moment
  | [], m, cs => if cs.isEmpty then some m else none
  | part :: parts, m, cs =>
    match part.read m cs with
    | some (m', rest) => DatePattern.readFrom parts m' rest
    | none => none

/-- The moment that a text gives in a pattern; what the pattern leaves out is zero. -/
def DatePattern.read (p : DatePattern) (s : String) : Option Moment :=
  (p.readFrom ⟨⟨0, 0, 0⟩, 0, 0, 0⟩ s.toList).filter Moment.isValid

/-! ### Writing -/

/-- The digits of a number, filled up with zeros to `width`. -/
def padded (width n : Nat) : List Char :=
  let digits := Nat.toDigits 10 n
  List.replicate (width - digits.length) '0' ++ digits

/-- A year of four digits or more, with a sign outside 0 to 9999. -/
def writeYear (year : Int) : List Char :=
  if 0 ≤ year ∧ year ≤ 9999 then padded 4 year.toNat
  else (if year < 0 then '-' else '+') :: padded 4 year.natAbs

/-- One part of a moment. -/
def DatePart.write (m : Moment) : DatePart → List Char
  | .year => writeYear m.date.year
  | .month => padded 2 m.date.month
  | .day => padded 2 m.date.day
  | .hour => padded 2 m.hour
  | .minute => padded 2 m.minute
  | .second => padded 2 m.second
  | .mark c => [c]
  | .blank => [' ']

/-- A moment in a pattern. -/
def DatePattern.write (p : DatePattern) (m : Moment) : String :=
  String.ofList (p.flatMap fun part => part.write m)

end TableQuery
