import TableQuery.Calendar.Pattern
import TableQuery.Decimal.Layout
import TableQuery.Text.Basic

/-! # Bound values

No text that a client sends becomes part of an SQL text. It travels as the value of a named
parameter, and the SQL text has a question mark in its place. -/

namespace TableQuery

/-- A value bound to a parameter. -/
inductive Value where
  | null
  | bool (value : Bool)
  | int (value : Int)
  | float (value : Binary64)
  | text (value : String)
  | moment (value : Moment)
deriving DecidableEq, Repr

/-- The coarse sorts of values. -/
inductive ValueKind where
  | none
  | bool
  | number
  | text
  | moment
deriving DecidableEq, Repr

/-- The name of a sort. -/
def ValueKind.name : ValueKind → String
  | .none => "none"
  | .bool => "bool"
  | .number => "number"
  | .text => "string"
  | .moment => "datetime"

namespace Value

/-- The sort of a value. -/
def kind : Value → ValueKind
  | .null => .none
  | .bool _ => .bool
  | .int _ => .number
  | .float _ => .number
  | .text _ => .text
  | .moment _ => .moment

/-- The SQL null. -/
def isNull : Value → Bool
  | .null => true
  | _ => false

/-- The text of a text. -/
def asText? : Value → Option String
  | .text s => some s
  | _ => none

/-- The integer of an integer, one for true and zero for false. -/
def asInt? : Value → Option Int
  | .int i => some i
  | .bool b => some (if b then 1 else 0)
  | _ => none

/-- A text as an SQL literal: between quotes, with every quote written twice. -/
def quoteLiteral (s : String) : String :=
  String.ofList ('\x27' :: Text.replaceChar '\x27' ['\x27', '\x27'] s.toList ++ ['\x27'])

/-- The value as it stands in diagnostics and cache keys. -/
def display : Value → String
  | .null => "NULL"
  | .bool true => "true"
  | .bool false => "false"
  | .int i => toString i
  | .float x => Decimal.Layout.plain.text x
  | .text s => quoteLiteral s
  | .moment m => "'" ++ DatePattern.standard.write m ++ "'"

end Value

/-- A named parameter. -/
structure Param where
  /-- The name, unique in its query. -/
  name : String
  value : Value
deriving DecidableEq, Repr

end TableQuery
