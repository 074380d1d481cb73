import TableQuery.Failure

/-! # Ways to search

A search mode says how a search value is compared with a field, and an input kind which control a
renderer offers for the value. -/

namespace TableQuery

/-- How a search value is compared with a field. -/
inductive SearchMode where
  | like
  | notLike
  | eq
  | neq
  | lt
  | lte
  | gt
  | gte
  | among
  | notAmong
  /-- Null, whatever the value. -/
  | isNull
  /-- Not null, whatever the value. -/
  | isNotNull
deriving DecidableEq, Repr

namespace SearchMode

/-- All modes. -/
def all : List SearchMode :=
  [.like, .notLike, .eq, .neq, .lt, .lte, .gt, .gte, .among, .notAmong, .isNull, .isNotNull]

/-- The name of a mode. -/
def name : SearchMode → String
  | .like => "like"
  | .notLike => "notLike"
  | .eq => "eq"
  | .neq => "neq"
  | .lt => "lt"
  | .lte => "lte"
  | .gt => "gt"
  | .gte => "gte"
  | .among => "in"
  | .notAmong => "notIn"
  | .isNull => "isNull"
  | .isNotNull => "isNotNull"

/-- The mode of a name. -/
def ofName? (name : String) : Option SearchMode := all.find? fun mode => mode.name == name

/-- The mode of a name, or the failure to find one. -/
def ofName (name : String) : Except FilterFailure SearchMode :=
  match ofName? name with
  | some mode => .ok mode
  | none => .error (.unknownSearch name)

end SearchMode

/-- The control that a renderer offers for a search value. -/
inductive InputKind where
  | text
  | number
  | dateRange
  | boolean
  | select
deriving DecidableEq, Repr

/-- The name of a control. -/
def InputKind.name : InputKind → String
  | .text => "text"
  | .number => "number"
  | .dateRange => "date_range"
  | .boolean => "boolean"
  | .select => "select"

end TableQuery
