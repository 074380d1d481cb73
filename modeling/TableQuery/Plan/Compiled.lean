import TableQuery.Plan.Build
import TableQuery.Request

/-! # Queries of a request

A planned request compiles to three queries: the page with its searches, order and window, the
number of all records, and the number of the records that the searches keep. All three start from
one base query. -/

namespace TableQuery

/-- How the results of a compiled query are kept. -/
structure CacheOptions where
  query : Bool
  result : ResultCache
deriving DecidableEq, Repr

/-- The options as an object. -/
def CacheOptions.toJson (c : CacheOptions) : Json :=
  Json.object [("use_query_cache", .bool c.query), ("result_cache", c.result.toJson)]

/-- A query that is ready to run. -/
structure Compiled where
  sql : String
  /-- The parameters in the order of their marks. -/
  binds : List Param
  cache : CacheOptions
deriving DecidableEq, Repr

namespace Compiled

/-- The distinct names of the parameters in ascending order, each with its last value. -/
def parameters (c : Compiled) : Keyed Value :=
  Keyed.ofPairs (c.binds.map fun p => (p.name, p.value))

/-- The key under which results are kept: the one that is given, or the SQL text and the values. -/
def cacheKey (c : Compiled) : String :=
  match c.cache.result.id with
  | some id => id
  | none => c.sql ++ "|" ++ ",".intercalate (c.binds.map fun p => p.value.display)

end Compiled

/-- How a count is read. -/
inductive CountStrategy where
  | scalar
  | materializedRows
deriving DecidableEq, Repr

/-- The name of a strategy. -/
def CountStrategy.name : CountStrategy → String
  | .scalar => "scalar"
  | .materializedRows => "materialized_rows"

/-- A count that is ready to run. -/
structure CompiledCount where
  query : Compiled
  strategy : CountStrategy
deriving DecidableEq, Repr

/-- A request before the columns are planned. -/
structure Planner where
  table : Table
  request : Request
  base : Query
  rootAlias : String

/-- The base query of a table: its root table with its own conditions and grouping. -/
def Planner.create (t : Table) (request : Request) : Except Failure Planner := do
  let root ← t.registry.root.mapError .schema
  let rootAlias := safeAlias root.shortName
  let start : Query := { table := root.table, aliasName := rootAlias }
  let restricted := t.predicates.foldl Query.filterRaw start
  pure ⟨t, request, t.groupBy.foldl Query.addGroupBy restricted, rootAlias⟩

/-- A planned request. -/
structure Planned where
  table : Table
  request : Request
  base : Query
  cache : CacheSettings
  plan : Plan

/-- Plans the columns of the table. -/
def Planner.plan (p : Planner) : Except Failure Planned := do
  let plan ← p.table.plan p.rootAlias
  pure ⟨p.table, p.request, p.base, p.table.settings.cache, plan⟩

/-- A failure to build SQL is a fault of the set-up. -/
def Failure.ofSql (e : SqlFailure) : Failure := .config (.sql e)

namespace Planned

/-- The schema of the table. -/
def schema (p : Planned) : Schema := p.table.registry.schema

/-- The items of a selected entry, each field under its label. -/
def entryItems (p : Planned) : SelectionEntry → List SelectItem
  | .fields aliasName names =>
    names.map fun field =>
      .column (some aliasName) (p.plan.columnFor p.schema aliasName field)
        (some (fieldLabel aliasName field))
  | .raw sql aliasName => [.expression sql aliasName]

/-- The items that the page query adds to its base. -/
def selectItems (p : Planned) : List SelectItem := p.plan.selection.flatMap p.entryItems

/-! ### Searches -/

/-- What a column is searched by. -/
def searchSlot (p : Planned) (c : Column) : Slot := p.plan.search[c.index]?.getD []

/-- The columns that take part in searches. -/
def searchedColumns (p : Planned) : List Column :=
  p.table.registry.columns.filter fun c => c.isSearchedIn p.table.settings.search.hiddenToo

/-- Adds a column to the global search. -/
def widenBy (p : Planned) (value : String) (acc : Group) (c : Column) : Group :=
  (p.searchSlot c).foldl
    (fun acc target => c.effectiveFilter.widen acc ⟨target, value, c.type⟩
      p.table.settings.search.globalMode c.index) acc

/-- The global search: one of the columns has to match. -/
def globalSearch (p : Planned) : Group :=
  match p.request.globalSearch with
  | some value => p.searchedColumns.foldl (p.widenBy value) ⟨.or, []⟩
  | none => ⟨.or, []⟩

/-- Adds the search of a column, with names from the counter. -/
def narrowBy (p : Planned) (acc : Group × Nat) (c : Column) : Group × Nat :=
  match p.request.columnSearch c.index with
  | some value =>
    (p.searchSlot c).foldl
      (fun acc target => c.effectiveFilter.narrow acc.1 ⟨target, value, c.type⟩ acc.2) acc
  | none => acc

/-- The searches of the columns: all of them have to match. -/
def individualSearch (p : Planned) : Group :=
  if p.table.settings.search.individual then
    (p.searchedColumns.foldl p.narrowBy (⟨.and, []⟩, firstCounter)).1
  else ⟨.and, []⟩

/-- The query with both searches. -/
def addSearch (p : Planned) (q : Query) : Query :=
  (q.filter p.globalSearch).filter p.individualSearch

/-! ### Order and window -/

/-- Adds a term of the requested order. It is left out if the client does not let the column be
ordered, or if there is no such column. -/
def addOrderTerm (p : Planned) (q : Query) (term : OrderRequest) : Query :=
  if p.request.columns[term.column]?.any RequestColumn.orderable then
    (p.plan.order[term.column]?.getD []).foldl
      (fun q target => q.addOrderBy target term.direction) q
  else q

/-- The query with the requested order. -/
def addOrder (p : Planned) (q : Query) : Query := p.request.order.foldl p.addOrderTerm q

/-- The query with the requested window, for tables with pages. -/
def addWindow (p : Planned) (q : Query) : Query :=
  if p.table.settings.hasPaging then
    match p.request.window with
    | some (offset, limit) => (q.withOffset offset).withLimit limit
    | none => q
  else q

/-! ### The three queries -/

/-- A query as SQL. -/
def compile (q : Query) (cache : CacheOptions) : Except Failure Compiled := do
  let f ← q.sql.mapError .ofSql
  pure ⟨f.text, f.binds, cache⟩

/-- The base query with all joins. -/
def joined (p : Planned) : Except Failure Query := (p.base.addJoins p.plan.joins).mapError .ofSql

/-- The query of the page. Pages cannot be fetched ahead for a table without pages. -/
def page (p : Planned) : Except Failure Compiled := do
  let pipeline := p.table.settings.ajax.pipeline
  if !p.table.settings.hasPaging && 0 < pipeline then
    throw (.config (.pipelineWithoutPaging p.table.name pipeline))
  let q ← p.joined
  let selected := p.selectItems.foldl Query.addSelect q
  compile (p.addWindow (p.addOrder (p.addSearch selected))) ⟨p.cache.query, p.cache.result⟩

/-- The count of records from a query with all joins. -/
def countQuery (p : Planned) (root : Entity) (q : Query) : Query :=
  let identifier := root.columnFor p.plan.rootIdentifier
  (q.withSelect [.countDistinct p.plan.rootAlias identifier]).resetOrderBy

/-- Grouped queries are counted by their rows. -/
def strategyOf (q : Query) : CountStrategy := if q.isGrouped then .materializedRows else .scalar

/-- The count of all records, or of those that the searches keep. A given key names the count of all
records only. -/
def count (p : Planned) (filtered : Bool) : Except Failure CompiledCount := do
  let root ← p.table.registry.root.mapError .schema
  let q ← p.joined
  let counted := p.countQuery root q
  let query := if filtered then p.addSearch counted else counted
  let result := if filtered then { p.cache.countResult with id := none } else p.cache.countResult
  let compiled ← compile query ⟨p.cache.countQuery, result⟩
  pure ⟨compiled, strategyOf query⟩

end Planned

end TableQuery
