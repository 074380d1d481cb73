import TableQuery.Schema.Entity
import TableQuery.Sql.Query

/-! # Planned joins

Columns that follow the same relationship from the same table share one join. A join is found by the
alias it starts from and the relationship it follows, and its own alias is no reserved word. -/

namespace TableQuery

/-! ### Aliases

An alias that the database reserves would need quotes everywhere, so the planner picks another. -/

/-- The reserved words in lower case. -/
def reservedWords : List String :=
  ["add", "all", "alter", "and", "as", "asc", "between", "by", "case", "check", "column",
   "condition", "constraint", "create", "cross", "current_date", "current_user", "database",
   "default", "delete", "desc", "describe", "distinct", "drop", "else", "exists", "explain",
   "false", "for", "foreign", "from", "function", "grant", "group", "having", "if", "in",
   "index", "inner", "insert", "interval", "into", "is", "join", "key", "keys", "kill",
   "left", "like", "limit", "lines", "load", "lock", "match", "natural", "not", "null", "on",
   "option", "or", "order", "outer", "primary", "procedure", "range", "read", "references",
   "rename", "replace", "require", "restrict", "return", "revoke", "right", "schema",
   "select", "set", "show", "table", "then", "to", "trigger", "true", "union", "unique",
   "update", "usage", "use", "using", "values", "when", "where", "while", "with", "write"]

/-- Reserved words in any case. -/
def isReserved (word : String) : Bool := reservedWords.contains (Text.asciiLower word)

/-- An alias that is no reserved word: a reserved word gets an underscore in front. -/
def safeAlias (name : String) : String := if isReserved name then "_" ++ name else name

/-! ### Planned joins -/

/-- A planned join. -/
structure PlannedJoin where
  parent : String
  relationship : String
  aliasName : String
  kind : JoinKind
  entity : String
  table : String
  identifier : String
  association : Association
deriving DecidableEq, Repr

namespace PlannedJoin

/-- Joins that can give several rows for one. -/
def isToMany (j : PlannedJoin) : Bool := j.association.kind.isToMany

/-- The alias of the link table of a many-to-many association. -/
def linkAlias (j : PlannedJoin) : String := j.aliasName ++ "_link"

/-- Whether the join follows a relationship from an alias. -/
def follows (j : PlannedJoin) (parent relationship : String) : Bool :=
  j.parent == parent && j.relationship == relationship

end PlannedJoin

/-- The planned joins in order. -/
abbrev JoinPlan := List PlannedJoin

namespace JoinPlan

/-- The join that follows a relationship from an alias. -/
def find? (plan : JoinPlan) (parent relationship : String) : Option PlannedJoin :=
  List.find? (fun j => j.follows parent relationship) plan

/-- The first join with an alias. -/
def byAlias? (plan : JoinPlan) (aliasName : String) : Option PlannedJoin :=
  List.find? (fun j => j.aliasName == aliasName) plan

/-- Plans a join unless its relationship is planned already, and gives the planned one. -/
def add (plan : JoinPlan) (join : PlannedJoin) : JoinPlan × PlannedJoin :=
  match plan.find? join.parent join.relationship with
  | some planned => (plan, planned)
  | none => (plan ++ [join], join)

end JoinPlan

/-! ### Joins in a query -/

/-- The query with a table joined on the equality of two columns. -/
def Query.joinOn (q : Query) (kind : JoinKind) (table aliasName : String)
    (leftAlias leftColumn rightAlias rightColumn : String) : Except SqlFailure Query := do
  let on ← JoinCondition.columns leftAlias leftColumn rightAlias rightColumn
  q.join ⟨kind, table, aliasName, [on]⟩

/-- The query with a planned join; a many-to-many association goes through its link table. -/
def Query.addPlanned (q : Query) (j : PlannedJoin) : Except SqlFailure Query :=
  let a := j.association
  match a.link with
  | some link => do
    let q' ← q.joinOn j.kind link.table j.linkAlias j.parent a.localColumn j.linkAlias
      link.sourceColumn
    q'.joinOn j.kind j.table j.aliasName j.linkAlias link.targetColumn j.aliasName a.foreignColumn
  | none => q.joinOn j.kind j.table j.aliasName j.parent a.localColumn j.aliasName a.foreignColumn

/-- The query with all planned joins in order. -/
def Query.addJoins (q : Query) (plan : JoinPlan) : Except SqlFailure Query :=
  plan.foldlM Query.addPlanned q

end TableQuery
