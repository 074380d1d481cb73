import TableQuery.Column.Basic

/-! # The columns of a table

A registry holds the columns of one entity in order. A column is built from its name, its kind and
its options; the options are checked first, then the paths, the types and the filter. Positions and
the index of names follow every change, and a registration that fails leaves the registry as it
was. -/

namespace TableQuery

/-- The columns of one entity. -/
structure Registry where
  schema : Schema
  entity : String
  columns : List Column
  /-- The position of the last column of each name. -/
  names : Keyed Nat

namespace Registry

/-- A registry without columns, for an entity of the schema. -/
def create (schema : Schema) (entity : String) : Except SchemaFailure Registry :=
  (schema.entity entity).map fun _ => ⟨schema, entity, [], []⟩

/-- The entity. -/
def root (r : Registry) : Except SchemaFailure Entity := r.schema.entity r.entity

/-- The position of the last column that is registered under a name. -/
def lookup (r : Registry) (name : String) : Option Nat := Keyed.get? r.names name

/-- The column of a kind that a table has at most once. -/
def uniqueColumn (r : Registry) (kind : ColumnKind) : Option Column :=
  if kind.isUnique then r.columns.find? fun c => c.kind == kind else none

/-! ### Building a column -/

/-- The given options. -/
def givenOptions : Json → Except ColumnFailure Record
  | .null => .ok []
  | .obj options => .ok options
  | other => .error (.notAnObject other)

/-- The place of the values in a record: the `data` option or the name. -/
def dataOf (options : Record) (namePath : Option DataPath) :
    Except PathFailure (Option DataPath) :=
  match Record.text? options "data" with
  | some text => (DataPath.ofText text).map some
  | none => .ok namePath

/-- The source of the values: the `dql` option, which needs a place for its values, or the name. -/
def sourceOf (options : Record) (namePath data : Option DataPath) :
    Except ColumnFailure ColumnSource :=
  match Record.text? options "dql" with
  | some sql => if data.isSome then .ok (.expression sql) else .error .expressionWithoutName
  | none => .ok (namePath.elim .none .field)

/-- The types of a column. -/
structure ColumnTypes where
  type : Option FieldType
  fieldType : Option FieldType
  chain : List Cardinality

/-- The types of a column: from the schema for the kinds that show a field, where the given type
wins over the field's. -/
def typesOf (r : Registry) (kind : ColumnKind) (source : ColumnSource) (given : Option FieldType) :
    Except Failure ColumnTypes :=
  match source with
  | .expression _ => .ok ⟨given, none, []⟩
  | .none =>
    if kind.isSelectable then .error (.config (.column (.needsPath kind.name)))
    else .ok ⟨given, none, []⟩
  | .field path =>
    if kind.isSelectable then do
      let root ← r.root.mapError .schema
      let (last, chain) ← (r.schema.follow root path.relations).mapError .schema
      let type ← (last.fieldType path.field).mapError .schema
      pure ⟨given.or (some type), some type, chain⟩
    else .ok ⟨given, none, []⟩

/-- The filter of a column: the given one, or the one of the `filter` option. -/
def filterOf (options : Record) (given : Option Filter) : Except ConfigFailure (Option Filter) :=
  match given with
  | some f => .ok (some f)
  | none =>
    match Record.value? options "filter" with
    | some value => (Filter.ofJson value).map some
    | none => .ok none

/-- How the relationships of a column are joined. -/
def joinKindOf (options : Record) : JoinKind :=
  if Record.text? options "join_type" = some "inner" then .inner else .left

/-- The column of a name, a kind and options, to stand at a position. -/
def build (r : Registry) (index : Nat) (name : Option String) (kind : ColumnKind) (given : Json)
    (filter : Option Filter) : Except Failure Column := do
  let given ← (givenOptions given).mapError fun e => .config (.column e)
  let options ← (kind.options.resolve given).mapError fun e => .config (.options e)
  let namePath ← (name.mapM DataPath.ofText).mapError fun e => .config (.path e)
  let data ← (dataOf options namePath).mapError fun e => .config (.path e)
  let source ← (sourceOf options namePath data).mapError fun e => .config (.column e)
  let types ← r.typesOf kind source ((Record.text? options "type_of_field").map FieldType.ofText)
  let filter ← (filterOf options filter).mapError .config
  pure
    { index := index
      kind := kind
      name := name
      data := data
      source := source
      type := types.type
      fieldType := types.fieldType
      chain := types.chain
      title := Record.text? options "title"
      searchable := Record.flag options "searchable"
      orderable := Record.flag options "orderable"
      visible := Record.flag options "visible"
      joinKind := joinKindOf options
      className := Record.text? options "class_name"
      width := Record.text? options "width"
      defaultContent := Record.text? options "default_content"
      orderColumn := Record.texts? options "order_column"
      searchColumn := Record.texts? options "search_column"
      filter := filter
      render := ColumnKind.renderOptions options }

/-! ### Registering and removing -/

/-- Refuses a second column of a kind that a table has at most once; `seen` holds the kinds before,
with their positions. -/
def checkUniqueFrom (seen : List (ColumnKind × Nat)) : List Column → Except ColumnFailure Unit
  | [] => .ok ()
  | c :: rest =>
    if c.kind.isUnique then
      match seen.lookup c.kind with
      | some first => .error (.registeredTwice c.kind.name first c.index)
      | none => checkUniqueFrom ((c.kind, c.index) :: seen) rest
    else checkUniqueFrom seen rest

/-- Refuses a registry with two columns of a kind that a table has at most once. -/
def checkUnique (r : Registry) : Except ColumnFailure Unit := checkUniqueFrom [] r.columns

/-- The position of the last column of each name. -/
def indexNames (columns : List Column) : Keyed Nat :=
  Keyed.ofPairs (columns.filterMap fun c => c.name.map fun name => (name, c.index))

/-- The registry with a column at the end. -/
def push (r : Registry) (c : Column) : Registry :=
  { r with
    columns := r.columns ++ [c]
    names := c.name.elim r.names fun name => Keyed.insert name c.index r.names }

/-- The registry with other columns and their names. -/
def withColumns (r : Registry) (columns : List Column) : Registry :=
  { r with columns := columns, names := indexNames columns }

/-- Registers a column, with the given filter in place of the `filter` option if there is one. The
column is added first and taken back if it is one too many of its kind. -/
def register (r : Registry) (name : Option String) (kind : ColumnKind) (options : Json)
    (filter : Option Filter) : Registry × Except Failure Column :=
  match r.build r.columns.length name kind options filter with
  | .error e => (r, .error e)
  | .ok c =>
    let r' := r.push c
    match r'.checkUnique with
    | .ok () => (r', .ok c)
    | .error e => (r'.withColumns r'.columns.dropLast, .error (.config (.column e)))

/-- The columns at their positions. -/
def reindex (columns : List Column) : List Column :=
  columns.mapIdx fun i c => { c with index := i }

/-- Removes the first column of a name and gives it back with its old position. -/
def unregister (r : Registry) (name : String) : Registry × Option Column :=
  match r.columns.findIdx? fun c => c.name == some name with
  | none => (r, none)
  | some i => (r.withColumns (reindex (r.columns.eraseIdx i)), r.columns[i]?)

end Registry

end TableQuery
