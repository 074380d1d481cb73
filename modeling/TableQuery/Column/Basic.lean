import TableQuery.Column.Kind
import TableQuery.DataPath
import TableQuery.Schema.Entity
import TableQuery.Search.Filter
import TableQuery.Sql.Query

/-! # Columns

A column of a table: where its values come from, how they are typed, searched and ordered, and what
the renderer is told about it. -/

namespace TableQuery

/-- Where the values of a column come from. -/
inductive ColumnSource where
  | none
  /-- From a field, reached over relationships. -/
  | field (path : DataPath)
  | expression (sql : String)
deriving DecidableEq, Repr

/-- A column. -/
structure Column where
  index : Nat
  kind : ColumnKind
  name : Option String
  /-- The place of its values in a record. -/
  data : Option DataPath
  source : ColumnSource
  type : Option FieldType
  fieldType : Option FieldType
  /-- The cardinality of each relationship on the way to the field. -/
  chain : List Cardinality
  title : Option String
  searchable : Bool
  orderable : Bool
  visible : Bool
  joinKind : JoinKind
  className : Option String
  width : Option String
  defaultContent : Option String
  orderColumn : Option (List String)
  searchColumn : Option (List String)
  filter : Option Filter
  render : Record

namespace Column

/-- The key of the cell in a record: the data path, or the position of a column without one. -/
def dataKey (c : Column) : String :=
  match c.data with
  | some path => path.text
  | none => toString c.index

/-- The field path or the expression behind the column. -/
def sourceText? (c : Column) : Option String :=
  match c.source with
  | .none => none
  | .field path => some path.fieldPath
  | .expression sql => some sql

/-- Columns with an expression. -/
def isExpression (c : Column) : Bool :=
  match c.source with
  | .expression _ => true
  | _ => false

/-- Columns whose field is reached over a relationship. -/
def isAssociation (c : Column) : Bool :=
  match c.source with
  | .field path => path.isAssociation
  | _ => false

/-- Columns without a field or expression of their own. -/
def isVirtual (c : Column) : Bool := !c.isExpression && !c.kind.isSelectable

/-- Columns with many values in a record. -/
def isToMany (c : Column) : Bool := c.chain.any Cardinality.isToMany

/-- Whether the column takes part in searches. Hidden columns do only if the table says so. -/
def isSearchedIn (c : Column) (hiddenToo : Bool) : Bool :=
  c.sourceText?.isSome && c.searchable && (hiddenToo || c.visible)

/-- The filter of the column, or the one of columns that have none. -/
def effectiveFilter (c : Column) : Filter := c.filter.getD .fallback

end Column

end TableQuery
