import TableQuery.Sql.Identifier
import TableQuery.Text.Basic

/-! # What a condition or an order points at

A column of a joined table, the label of a selected expression, or an expression that is used as it
is written. -/

namespace TableQuery

/-- What a condition or an order points at. -/
inductive Target where
  /-- A column of the table with an alias. -/
  | column (aliasName column : String)
  | label (name : String)
  /-- An expression of the table's author, used as it is written. -/
  | raw (sql : String)
deriving DecidableEq, Repr

namespace Target

/-- Two identifiers with a dot between them are a column, one is a label, and any other text is an
expression. Blanks around the text are left out. -/
def ofText (text : String) : Target :=
  let s := Text.trim text
  if isIdentifierPath s then
    match Text.piecesOf '.' s with
    | [name] => .label name
    | [aliasName, name] => .column aliasName name
    | _ => .raw s
  else .raw s

/-- Columns. -/
def isColumn : Target → Bool
  | .column _ _ => true
  | _ => false

/-- The target as a person writes it. -/
def display : Target → String
  | .column aliasName name => aliasName ++ "." ++ name
  | .label name => name
  | .raw sql => sql

/-- The target in an SQL text. -/
def sql : Target → Except SqlFailure String
  | .column aliasName name => do
    let a ← quoteIdentifier aliasName
    let n ← quoteIdentifier name
    pure (a ++ "." ++ n)
  | .label name => quotePath name
  | .raw sql => if Text.isBlankText sql then .error .emptyExpression else .ok sql

end Target

end TableQuery
