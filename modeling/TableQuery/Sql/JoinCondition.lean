import TableQuery.Sql.Value
import TableQuery.Sql.Identifier
import TableQuery.Text.Basic
import TableQuery.Text.Unicode

/-! # Join conditions

A condition of a join compares a column path with another path, with a literal or with null. It is
given by its three parts or as one text, in which the first operator separates the two sides. -/

namespace TableQuery

/-- Operators of join conditions. -/
inductive JoinOperator where
  | eq
  | neq
  /-- Unequal, in the other spelling. -/
  | differs
  | lt
  | lte
  | gt
  | gte
  | is
  | isNot
deriving DecidableEq, Repr

namespace JoinOperator

/-- The operator in an SQL text. -/
def sql : JoinOperator → String
  | .eq => "="
  | .neq => "!="
  | .differs => "<>"
  | .lt => "<"
  | .lte => "<="
  | .gt => ">"
  | .gte => ">="
  | .is => "IS"
  | .isNot => "IS NOT"

/-- All operators. -/
def all : List JoinOperator := [.eq, .neq, .differs, .lt, .lte, .gt, .gte, .is, .isNot]

/-- The text in upper case, with single blanks between its words. -/
def normalForm (text : String) : String :=
  " ".intercalate ((Text.blankPieces (text.toList.map Char.toUpper)).map String.ofList)

/-- The operator that a text spells in any case and spacing. -/
def ofText (text : String) : Except SqlFailure JoinOperator :=
  match all.find? fun op => op.sql == normalForm text with
  | some op => .ok op
  | none => .error (.unsupportedOperator text)

/-- The null tests. -/
def isNullTest : JoinOperator → Bool
  | .is => true
  | .isNot => true
  | _ => false

end JoinOperator

/-- The right side of a join condition. -/
inductive Operand where
  | path (path : String)
  | null
  /-- A number, as it is written. -/
  | number (text : String)
  | text (content : String)
deriving DecidableEq, Repr

namespace Operand

/-- The inner part of a text that one kind of quote encloses. -/
def unquote? (cs : List Char) : Option (List Char) :=
  match cs with
  | q :: rest =>
    if (q = '\x27' ∨ q = '"') ∧ rest.getLast? = some q then some rest.dropLast else none
  | [] => none

/-- Characters of numbers. -/
def isNumberChar (c : Char) : Bool :=
  c.isDigit || c == '+' || c == '-' || c == '.' || c == 'e' || c == 'E'

/-- Texts of the characters of numbers that begin with a digit or a sign. -/
def looksNumeric (cs : List Char) : Bool :=
  match cs with
  | c :: _ => (c.isDigit || c == '+' || c == '-') && cs.all isNumberChar
  | [] => false

/-- Reads null, a quoted text, a number or a path. -/
def ofText (text : String) : Except SqlFailure Operand :=
  if Text.eqIgnoringCase text "null" then .ok .null
  else
    match unquote? text.toList with
    | some inner => .ok (.text (String.ofList inner))
    | none =>
      if looksNumeric text.toList then .ok (.number text)
      else (checkPath text).map fun _ => .path text

end Operand

/-- A condition of a join. -/
structure JoinCondition where
  left : String
  op : JoinOperator
  right : Operand
deriving DecidableEq, Repr

namespace JoinCondition

/-- The condition of its three parts. Null is compared by the null tests only. -/
def ofParts (left operator right : String) : Except SqlFailure JoinCondition := do
  let op ← JoinOperator.ofText operator
  let operand ← Operand.ofText right
  checkPath left
  if operand = .null ∧ op.isNullTest = false then throw .nullNeedsIs
  pure ⟨left, op, operand⟩

/-- The equality of two columns. -/
def columns (leftAlias leftColumn rightAlias rightColumn : String) :
    Except SqlFailure JoinCondition :=
  ofParts (leftAlias ++ "." ++ leftColumn) "=" (rightAlias ++ "." ++ rightColumn)

/-- The condition in an SQL text. -/
def sql (c : JoinCondition) : Except SqlFailure String := do
  let left ← quotePath c.left
  match c.right with
  | .null =>
    if c.op.isNullTest then pure (left ++ " " ++ c.op.sql ++ " NULL")
    else throw (.nullOperator c.op.sql)
  | .path path =>
    let right ← quotePath path
    pure (left ++ " " ++ c.op.sql ++ " " ++ right)
  | .number text => pure (left ++ " " ++ c.op.sql ++ " " ++ text)
  | .text content => pure (left ++ " " ++ c.op.sql ++ " " ++ Value.quoteLiteral content)

/-! ### Reading -/

/-- Letters that match a letter of a keyword, in either case; the long s is an s. -/
def keywordChar (letter c : Char) : Bool :=
  c.toLower == letter || (letter == 's' && c == 'ſ')

/-- The rest after a keyword. -/
def afterKeyword? : List Char → List Char → Option (List Char)
  | [], cs => some cs
  | _ :: _, [] => none
  | k :: ks, c :: cs => if keywordChar k c then afterKeyword? ks cs else none

/-- The rest after a keyword that ends at a word boundary. -/
def afterWord? (keyword cs : List Char) : Option (List Char) :=
  (afterKeyword? keyword cs).filter fun rest => Text.isWordBoundary keyword.getLast? rest.head?

/-- The rest after a null test that begins at a word boundary. -/
def afterNullTest? (before : Option Char) (cs : List Char) : Option (List Char) :=
  if Text.isWordBoundary before cs.head? then
    let negated := (afterKeyword? ['i', 's'] cs).bind fun rest =>
      if rest.head?.any Text.isBlank then
        afterWord? ['n', 'o', 't'] (Text.trimLeft rest)
      else none
    negated.or (afterWord? ['i', 's'] cs)
  else none

/-- The rest after a comparison sign; the longer signs come first. -/
def afterSign? : List Char → Option (List Char)
  | '<' :: '=' :: rest => some rest
  | '>' :: '=' :: rest => some rest
  | '<' :: '>' :: rest => some rest
  | '!' :: '=' :: rest => some rest
  | '=' :: rest => some rest
  | '<' :: rest => some rest
  | '>' :: rest => some rest
  | _ => none

/-- The first operator of a text: what is before it in reverse, the operator and what follows. -/
def findOperator? (before : List Char) (cs : List Char) :
    Option (List Char × List Char × List Char) :=
  match cs with
  | [] => none
  | c :: rest =>
    match (afterNullTest? before.head? cs).or (afterSign? cs) with
    | some after => some (before, cs.take (cs.length - after.length), after)
    | none => findOperator? (c :: before) rest

/-- Reads the two sides of the first operator. The operator is reported with the blanks around
it. -/
def ofText (text : String) : Except SqlFailure JoinCondition :=
  match findOperator? [] (Text.trimChars text.toList) with
  | none => .error (.badCondition text)
  | some (before, op, after) =>
    let left := String.ofList (Text.trimChars before.reverse)
    let right := String.ofList (Text.trimChars after)
    if left.isEmpty || right.isEmpty then .error (.badCondition text)
    else
      let spaced := (before.takeWhile Text.isBlank).reverse ++ op ++ after.takeWhile Text.isBlank
      ofParts left (String.ofList spaced) right

end JoinCondition

end TableQuery
