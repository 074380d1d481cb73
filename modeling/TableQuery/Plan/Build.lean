import TableQuery.Plan.Basic
import TableQuery.Sql.Template
import TableQuery.Table

/-! # Planning the columns

The columns are walked once in order. A column with a field follows its relationships, planning a
join for each hop that is not planned yet; a column with an expression selects it. Columns without
either may name what they are searched and ordered by, which is looked up when all joins are
known. -/

namespace TableQuery

/-- A slot for a column that has the ability, and an empty one otherwise. -/
def slotIf (able : Bool) (target : Target) : Slot := if able then [target] else []

/-! ### Hops -/

/-- The state of a walk along relationships. -/
structure Walk where
  joins : JoinPlan
  selection : Selection
  /-- The alias of the table that was reached. -/
  aliasName : String
  behind : List String
  entity : Entity

/-- One hop: follows a relationship, plans its join and selects the identifier. -/
def Walk.hop (schema : Schema) (kind : JoinKind) (w : Walk) (relation : String) :
    Except SchemaFailure Walk := do
  let a ← w.entity.association relation
  let behind := w.behind ++ [relation]
  let target ← schema.entity a.target
  let identifier ← target.identifier
  let (joins, planned) := w.joins.add
    { parent := w.aliasName
      relationship := relation
      aliasName := safeAlias ("_".intercalate behind)
      kind := kind
      entity := target.name
      table := target.table
      identifier := identifier
      association := a }
  let selection := w.selection.addField planned.aliasName planned.identifier
  pure ⟨joins, selection, planned.aliasName, behind, target⟩

/-! ### Columns -/

/-- The plan while the columns are walked. -/
structure Draft where
  joins : JoinPlan
  selection : Selection
  /-- What the columns so far are searched by. -/
  search : List Slot
  /-- What the columns so far are ordered by. -/
  order : List Slot

/-- The draft with the slots of one more column. -/
def Draft.withSlots (d : Draft) (search order : Slot) : Draft :=
  { d with search := d.search ++ [search], order := d.order ++ [order] }

/-- What the columns of a table start from. -/
structure PlanRoot where
  schema : Schema
  entity : Entity
  aliasName : String

/-- Plans a column with an expression. -/
def Draft.addExpression (d : Draft) (c : Column) (data : DataPath) (sql : String) : Draft :=
  { d with selection := d.selection.addRaw (Template.selected sql) data.aliasName }.withSlots
    (slotIf c.searchable (.raw (Template.searched sql)))
    (slotIf c.orderable (.label data.aliasName))

/-- Plans a column with a field. -/
def Draft.addField (root : PlanRoot) (d : Draft) (c : Column) (path : DataPath) :
    Except SchemaFailure Draft := do
  let start : Walk := ⟨d.joins, d.selection, root.aliasName, [], root.entity⟩
  let w ← path.relations.foldlM (Walk.hop root.schema c.joinKind) start
  let identifier ← w.entity.identifier
  let selection := (w.selection.addField w.aliasName identifier).addField w.aliasName path.field
  let target := Target.column w.aliasName (w.entity.columnFor path.field)
  pure ({ d with joins := w.joins, selection := selection }.withSlots
    (slotIf c.searchable target) (slotIf c.orderable target))

/-- Plans a column. -/
def Draft.add (root : PlanRoot) (d : Draft) (c : Column) : Except Failure Draft :=
  match c.source with
  | .expression sql =>
    match c.data with
    | some data => .ok (d.addExpression c data sql)
    | none => .error (.config (.column (.expressionWithoutData c.index)))
  | .field path =>
    if c.kind.isSelectable then (d.addField root c path).mapError .schema
    else .ok (d.withSlots [] [])
  | .none => .ok (d.withSlots [] [])

/-! ### Virtual columns -/

/-- A field of a table as a target. -/
def Plan.qualify (p : Plan) (schema : Schema) (aliasName field : String) : Target :=
  .column aliasName (p.columnFor schema aliasName field)

/-- The label of the expression that is registered under a name. -/
def expressionLabel? (registry : Registry) (name : String) : Option Target :=
  match (registry.lookup name).bind fun i => registry.columns[i]? with
  | some c => if c.isExpression then c.data.map fun data => .label data.aliasName else none
  | none => none

/-- What an entry of an override stands for. A name without a dot is a field of the root, or for an
order the expression registered under it; a name with a dot is a field of a joined table. -/
def Plan.override (p : Plan) (registry : Registry) (ordering : Bool) (entry : String) : Target :=
  let name := Text.trim entry
  if name.toList.contains '.' then
    match Target.ofText name with
    | .column aliasName field => p.qualify registry.schema aliasName field
    | other => other
  else
    let custom := if ordering then expressionLabel? registry name else none
    custom.getD (p.qualify registry.schema p.rootAlias name)

/-- The slot of a column: for a virtual column what its override says, if it has the ability. -/
def Plan.overrideSlot (p : Plan) (registry : Registry) (ordering : Bool) (c : Column)
    (slot : Slot) : Slot :=
  let able := if ordering then c.orderable else c.searchable
  let entries := if ordering then c.orderColumn else c.searchColumn
  if c.isVirtual && able then
    entries.elim slot fun list => list.map (p.override registry ordering)
  else slot

/-! ### The plan -/

/-- The plan of a table whose root table has an alias. -/
def Table.plan (t : Table) (rootAlias : String) : Except Failure Plan := do
  let registry := t.registry
  let root ← registry.root.mapError .schema
  let identifier ← root.identifier.mapError .schema
  let start : Draft := ⟨[], Selection.addField [] rootAlias identifier, [], []⟩
  let d ← registry.columns.foldlM (Draft.add ⟨registry.schema, root, rootAlias⟩) start
  let p : Plan :=
    { rootAlias := rootAlias
      rootEntity := root.name
      rootTable := root.table
      rootIdentifier := identifier
      joins := d.joins
      selection := d.selection
      search := d.search
      order := d.order }
  pure { p with
    search := List.zipWith (p.overrideSlot registry false) registry.columns p.search
    order := List.zipWith (p.overrideSlot registry true) registry.columns p.order }

end TableQuery
