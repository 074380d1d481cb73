import TableQuery.Execution.Executor
import TableQuery.Hydration

/-! # Pages

A page is the answer to a request: the nested records of its window and the two counts. All three
queries are compiled before the first one runs. The tree of the records is built once the query for
the page has run, also for no rows, and if the tree has no end, the program ends there. -/

namespace TableQuery

/-- The answer to a request. -/
structure Page where
  draw : Int
  total : Nat
  /-- The number of records that the searches keep. -/
  filtered : Nat
  data : List Record

/-- What a request comes to that no failure ends. -/
inductive Reply where
  | page (page : Page)
  /-- The tree of the records has no end, so building it overflows the stack. The program is gone,
  and no one is answered any more. -/
  | overflow

/-- The page of a reply. -/
def Reply.page? : Reply → Option Page
  | .page p => some p
  | .overflow => none

/-- The page as an object. -/
def Page.toJson (p : Page) : Json :=
  Json.object [("draw", Json.int p.draw), ("recordsTotal", Json.nat p.total),
    ("recordsFiltered", Json.nat p.filtered), ("data", .arr (p.data.map .obj))]

/-- The three queries of a page. -/
structure PageQueries where
  page : Compiled
  total : CompiledCount
  /-- The count of the records that the searches keep. -/
  filtered : CompiledCount

/-- Compiles the three queries of a page. -/
def Planned.queries (p : Planned) : Except Failure PageQueries := do
  let page ← p.page
  let total ← p.count false
  let filtered ← p.count true
  pure ⟨page, total, filtered⟩

/-- Runs the page, the count of all records and the count of those that the searches keep. The rows
of the page are nested before the counts run. -/
def Executor.fetchPage {σ : Type} (e : Executor σ) (p : Planned) : Run σ Reply := do
  let queries ← liftExcept p.queries
  let rows ← e.rows queries.page
  if p.plan.hasTree then
    let total ← e.count queries.total
    let filtered ← e.count queries.filtered
    pure (.page ⟨p.request.draw.getD 0, total, filtered, p.plan.hydrate rows⟩)
  else pure .overflow
where
  /-- A result that does not touch the state. -/
  liftExcept {α : Type} (r : Except Failure α) : Run σ α := fun s => (r, s)

/-! ### Named tables -/

/-- Tables by name, and the settings that new tables start from. -/
structure Catalog where
  defaults : TableSettings
  tables : Keyed Table := []

namespace Catalog

/-- Adds a table, in place of one with its name. -/
def insert (c : Catalog) (t : Table) : Catalog :=
  { c with tables := Keyed.insert t.name t c.tables }

/-- Adds a table of a registry that starts from the default settings. -/
def define (c : Catalog) (name : String) (registry : Registry) : Catalog :=
  c.insert { name := name, registry := registry, settings := c.defaults }

/-- The table of a name. -/
def table? (c : Catalog) (name : String) : Option Table := Keyed.get? c.tables name

/-- Plans a request for the table of a name. -/
def plan (c : Catalog) (name : String) (request : Request) : Except Failure Planned :=
  match c.table? name with
  | none => .error (.config (.unknownTable name))
  | some t => do
    let planner ← Planner.create t request
    planner.plan

/-- Answers a request. -/
def handle {σ : Type} (c : Catalog) (e : Executor σ) (name : String) (request : Request) :
    Run σ Reply :=
  match c.plan name request with
  | .ok planned => e.fetchPage planned
  | .error failure => fun s => (.error failure, s)

/-- Answers a request given as a JSON text, which is read before the table is looked up. -/
def handleText {σ : Type} (c : Catalog) (e : Executor σ) (name body : String) : Run σ Reply :=
  match Request.ofText body with
  | .ok request => c.handle e name request
  | .error fault => fun s => (.error (.decoding fault), s)

end Catalog

end TableQuery
