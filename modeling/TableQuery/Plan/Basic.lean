import TableQuery.Plan.Joins
import TableQuery.Plan.Selection

/-! # Plans

A plan is what the columns of a table come to in a query: the joins, the selection, and for each
column what it is searched and ordered by. -/

namespace TableQuery

/-- What a column is searched or ordered by; empty if it is not. -/
abbrev Slot := List Target

/-- The plan of a table. -/
structure Plan where
  rootAlias : String
  rootEntity : String
  rootTable : String
  rootIdentifier : String
  joins : JoinPlan
  selection : Selection
  search : List Slot
  order : List Slot
deriving Repr

namespace Plan

/-- The entity behind an alias. -/
def entityOf? (p : Plan) (aliasName : String) : Option String :=
  if aliasName = p.rootAlias then some p.rootEntity
  else (p.joins.byAlias? aliasName).map PlannedJoin.entity

/-- The mapped entity behind an alias. -/
def mappedEntity? (p : Plan) (schema : Schema) (aliasName : String) : Option Entity :=
  (p.entityOf? aliasName).bind fun name => Keyed.get? schema name

/-- The column of a field behind an alias; a field of an unknown alias stands for itself. -/
def columnFor (p : Plan) (schema : Schema) (aliasName field : String) : String :=
  (p.mappedEntity? schema aliasName).elim field fun e => e.columnFor field

end Plan

end TableQuery
