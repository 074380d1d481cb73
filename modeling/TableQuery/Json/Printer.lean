import TableQuery.Json.Basic
import TableQuery.Decimal.Layout

/-! # Compact JSON texts

A value has one compact text: no blanks, members in key order, quotes and backslashes escaped,
control characters escaped by letter or by code, and every other character raw. -/

namespace TableQuery.Json

/-- A hexadecimal digit below sixteen, in lower case. -/
def hexDigit (n : Nat) : Char := Nat.digitChar n

/-- How one character stands in a JSON text. -/
def escapeChar (c : Char) : List Char :=
  if c = '"' then ['\\', '"']
  else if c = '\\' then ['\\', '\\']
  else if c = '\n' then ['\\', 'n']
  else if c = '\r' then ['\\', 'r']
  else if c = '\t' then ['\\', 't']
  else if c = '\x08' then ['\\', 'b']
  else if c = '\x0c' then ['\\', 'f']
  else if c.toNat < 0x20 then
    ['\\', 'u', '0', '0', hexDigit (c.toNat / 16), hexDigit (c.toNat % 16)]
  else [c]

/-- A text between quotes. -/
def quoteText (s : String) : List Char := '"' :: s.toList.flatMap escapeChar ++ ['"']

/-- The text of a number. -/
def numberText : Number → List Char
  | .int i => (toString i).toList
  | .float x => (Decimal.Layout.json.text x).toList

mutual

/-- The compact text of a value. -/
def render : Json → List Char
  | .null => ['n', 'u', 'l', 'l']
  | .bool true => ['t', 'r', 'u', 'e']
  | .bool false => ['f', 'a', 'l', 's', 'e']
  | .num n => numberText n
  | .str s => quoteText s
  | .arr [] => ['[', ']']
  | .arr (item :: items) => '[' :: (render item ++ renderItems items)
  | .obj [] => ['\x7b', '\x7d']
  | .obj ((key, value) :: members) =>
    '\x7b' :: (quoteText key ++ ':' :: (render value ++ renderMembers members))

/-- The items after the first one, to the end of the list. -/
def renderItems : List Json → List Char
  | [] => [']']
  | item :: items => ',' :: (render item ++ renderItems items)

/-- The members after the first one, to the end of the object. -/
def renderMembers : List (String × Json) → List Char
  | [] => ['\x7d']
  | (key, value) :: members =>
    ',' :: (quoteText key ++ ':' :: (render value ++ renderMembers members))

end

/-- The compact text of a value. -/
def text (j : Json) : String := String.ofList (render j)

end TableQuery.Json
