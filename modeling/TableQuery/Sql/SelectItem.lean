import TableQuery.Sql.Identifier
import TableQuery.Text.Basic
import TableQuery.Text.Quoted

/-! # The select list

An item of a select list is a column, a wildcard, an expression with a label or the number of
distinct values of a column. A column is written `source.column:alias`, where the source and the
alias may be left out. -/

namespace TableQuery

/-- An item of a select list. -/
inductive SelectItem where
  /-- A column, or all columns when its name is a star. -/
  | column (source : Option String) (name : String) (aliasName : Option String)
  /-- An expression of the table's author under a label. -/
  | expression (sql aliasName : String)
  /-- The number of distinct values of a column. -/
  | countDistinct (source column : String)
deriving DecidableEq, Repr

namespace SelectItem

/-- A column with another source; other items have none. -/
def withSource (source : String) : SelectItem → SelectItem
  | .column _ name aliasName => .column (some source) name aliasName
  | item => item

/-- An item with another alias; a count has none. -/
def withAlias (aliasName : String) : SelectItem → SelectItem
  | .column source name _ => .column source name (some aliasName)
  | .expression sql _ => .expression sql aliasName
  | item => item

/-- The table that the item comes from. -/
def source? : SelectItem → Option String
  | .column source _ _ => source
  | .countDistinct source _ => some source
  | .expression _ _ => none

/-- The name that the result has for the item. -/
def alias? : SelectItem → Option String
  | .column _ _ aliasName => aliasName
  | .expression _ aliasName => some aliasName
  | .countDistinct _ _ => none

/-- A column of a source. -/
def quoteColumn (source : Option String) (name : String) : Except SqlFailure String :=
  match source with
  | some source => do
    let s ← quoteIdentifier source
    let n ← quoteIdentifier name
    pure (s ++ "." ++ n)
  | none => quoteIdentifier name

/-- A text under an alias. -/
def underAlias (text : String) (aliasName : String) : Except SqlFailure String := do
  let a ← quoteIdentifier aliasName
  pure (text ++ " AS " ++ a)

/-- The item in an SQL text. -/
def sql : SelectItem → Except SqlFailure String
  | .column source name aliasName =>
    if name = "*" then
      if aliasName.isSome then .error .aliasedWildcard
      else match source with
        | some source => do
          let s ← quoteIdentifier source
          pure (s ++ ".*")
        | none => .ok "*"
    else do
      let text ← quoteColumn source name
      match aliasName with
      | some aliasName => underAlias text aliasName
      | none => pure text
  | .expression sql aliasName =>
    if Text.isBlankText sql then .error (.emptySelectExpression aliasName)
    else underAlias sql aliasName
  | .countDistinct source name => do
    let c ← quoteColumn (some source) name
    pure ("COUNT(DISTINCT " ++ c ++ ")")

/-! ### Reading -/

/-- The part before the last colon and the alias after it. -/
def splitAlias (input : String) : Except SqlFailure (String × Option String) :=
  match Text.cutAtLast ':' input.toList with
  | none => .ok (input, none)
  | some (before, after) => do
    let aliasName := Text.trim (String.ofList after)
    if aliasName.isEmpty then throw .emptyAlias
    checkPath aliasName
    pure (Text.trim (String.ofList before), some aliasName)

/-- A column or a wildcard of its written parts. -/
def ofParts (aliasName : Option String) : List String → Except SqlFailure SelectItem
  | [name] => do
    if aliasName.isSome then throw .aliasWithoutSource
    checkPath name
    pure (.column none name none)
  | [source, name] => do
    checkPath source
    if name = "*" then
      if aliasName.isSome then throw .aliasedWildcard
    else checkPath name
    pure (.column (some source) name aliasName)
  | _ => .error .tooManyDots

/-- Reads `*`, `source.*`, `column`, `source.column` or `source.column:alias`, with blanks allowed
around each part. -/
def ofText (text : String) : Except SqlFailure SelectItem := do
  let input := Text.trim text
  if input.isEmpty then throw .emptySelector
  let (columns, aliasName) ← splitAlias input
  if columns = "*" then
    if aliasName.isSome then throw .aliasedWildcard
    pure (.column none "*" none)
  else ofParts aliasName ((Text.piecesOf '.' columns).map Text.trim)

/-! ### Diagnostics -/

/-- An optional text in diagnostics. -/
def describeOption : Option String → String
  | some s => "Some(" ++ Text.quoted s ++ ")"
  | none => "None"

/-- The item with its parts named. -/
def describe : SelectItem → String
  | .column source name aliasName =>
    "Column \x7b source: " ++ describeOption source ++ ", column: " ++ Text.quoted name ++
      ", alias: " ++ describeOption aliasName ++ " \x7d"
  | .expression sql aliasName =>
    "Expression \x7b sql: " ++ Text.quoted sql ++ ", alias: " ++ Text.quoted aliasName ++ " \x7d"
  | .countDistinct source name =>
    "CountDistinct \x7b source: " ++ Text.quoted source ++ ", column: " ++ Text.quoted name ++
      " \x7d"

end SelectItem

end TableQuery
