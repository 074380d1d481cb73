import TableQuery.Schema.FieldType
import TableQuery.Keyed
import TableQuery.Failure
import TableQuery.Text.Unicode

/-! # Entities and how they are mapped

An entity is stored in a table. It has identifiers, fields that are columns of the table, and
associations with other entities. A schema is a set of entities by name. -/

namespace TableQuery

/-- How many entities are on each side of an association. -/
inductive Cardinality where
  | oneToOne
  | manyToOne
  | oneToMany
  /-- Many and many, over a link table. -/
  | manyToMany
deriving DecidableEq, Repr

namespace Cardinality

/-- Associations with a collection. -/
def isToMany : Cardinality → Bool
  | .oneToMany | .manyToMany => true
  | _ => false

/-- The name of a cardinality. -/
def name : Cardinality → String
  | .oneToOne => "one_to_one"
  | .manyToOne => "many_to_one"
  | .oneToMany => "one_to_many"
  | .manyToMany => "many_to_many"

/-- The cardinality of a name. -/
def ofName? : String → Option Cardinality
  | "one_to_one" => some .oneToOne
  | "many_to_one" => some .manyToOne
  | "one_to_many" => some .oneToMany
  | "many_to_many" => some .manyToMany
  | _ => none

end Cardinality

/-- How a field is stored. -/
structure FieldMapping where
  /-- The column; a field without one is stored under its own name. -/
  column : Option String
  type : FieldType
  nullable : Bool
deriving DecidableEq, Repr

/-- The table between the two sides of a many-to-many association. -/
structure LinkTable where
  table : String
  /-- The column that refers to the owning side. -/
  sourceColumn : String
  targetColumn : String
deriving DecidableEq, Repr

/-- An association with another entity. -/
structure Association where
  target : String
  kind : Cardinality
  localColumn : String
  foreignColumn : String
  link : Option LinkTable
  owning : Bool
deriving DecidableEq, Repr

namespace Association

/-- Many that share one: `column` refers to the identifier of the target. -/
def manyToOne (target column : String) : Association :=
  ⟨target, .manyToOne, column, "id", none, true⟩

/-- One and one: `column` refers to the identifier of the target. -/
def oneToOne (target column : String) : Association :=
  ⟨target, .oneToOne, column, "id", none, true⟩

/-- One that has many: `column` of the target refers to the identifier of this side. -/
def oneToMany (target column : String) : Association :=
  ⟨target, .oneToMany, "id", column, none, false⟩

/-- Many and many over a link table. -/
def manyToMany (target : String) (link : LinkTable) : Association :=
  ⟨target, .manyToMany, "id", "id", some link, true⟩

end Association

/-- An entity. -/
structure Entity where
  /-- The name, possibly with a namespace in front. -/
  name : String
  table : String
  identifiers : List String := []
  fields : Keyed FieldMapping := []
  associations : Keyed Association := []
deriving Repr

namespace Entity

/-! ### Building -/

/-- The entity with one more identifier, which is an integer field unless it is a field already. -/
def withIdentifier (e : Entity) (name : String) : Entity :=
  { e with
    identifiers := e.identifiers ++ [name]
    fields := Keyed.insertNew name ⟨none, .integer, false⟩ e.fields }

/-- The entity with a field that is stored under its own name. -/
def withField (e : Entity) (name : String) (type : FieldType) : Entity :=
  { e with fields := Keyed.insert name ⟨none, type, false⟩ e.fields }

/-- The entity with a field that is stored in a column. -/
def withColumn (e : Entity) (name column : String) (type : FieldType) : Entity :=
  { e with fields := Keyed.insert name ⟨some column, type, false⟩ e.fields }

/-- The entity with an association. -/
def withAssociation (e : Entity) (name : String) (association : Association) : Entity :=
  { e with associations := Keyed.insert name association e.associations }

/-! ### Looking up -/

/-- Characters between a namespace and a name. -/
def isNamespaceMark (c : Char) : Bool := c == ':' || c == '\\' || c == '.'

/-- The name without its namespace, in lower case. -/
def shortName (e : Entity) : String :=
  Text.lowercase (String.ofList (e.name.toList.reverse.takeWhile (!isNamespaceMark ·)).reverse)

/-- The first identifier. -/
def identifier (e : Entity) : Except SchemaFailure String :=
  match e.identifiers with
  | name :: _ => .ok name
  | [] => .error (.noIdentifier e.name)

/-- Whether the entity has a field. -/
def hasField (e : Entity) (name : String) : Bool := (Keyed.get? e.fields name).isSome

/-- The type of a field. -/
def fieldType (e : Entity) (name : String) : Except SchemaFailure FieldType :=
  match Keyed.get? e.fields name with
  | some mapping => .ok mapping.type
  | none => .error (.unknownField name e.name)

/-- The column of a field; a name that is no field stands for a column. -/
def columnFor (e : Entity) (field : String) : String :=
  ((Keyed.get? e.fields field).bind FieldMapping.column).getD field

/-- Whether the entity has an association. -/
def hasAssociation (e : Entity) (name : String) : Bool := (Keyed.get? e.associations name).isSome

/-- An association. -/
def association (e : Entity) (name : String) : Except SchemaFailure Association :=
  match Keyed.get? e.associations name with
  | some a => .ok a
  | none => .error (.unknownAssociation name e.name)

end Entity

/-- The entities by name. -/
abbrev Schema := Keyed Entity

namespace Schema

/-- The schema of some entities, where a later one replaces an earlier one with its name. -/
def ofEntities (entities : List Entity) : Schema :=
  Keyed.ofPairs (entities.map fun e => (e.name, e))

/-- The entity with a name. -/
def entity (s : Schema) (name : String) : Except SchemaFailure Entity :=
  match Keyed.get? s name with
  | some e => .ok e
  | none => .error (.unmapped name)

/-- Follows relationships from an entity: the entity at the end and the cardinality of each hop. -/
def follow (s : Schema) (e : Entity) :
    List String → Except SchemaFailure (Entity × List Cardinality)
  | [] => .ok (e, [])
  | relation :: relations => do
    let a ← e.association relation
    let next ← s.entity a.target
    let (last, chain) ← follow s next relations
    pure (last, a.kind :: chain)

end Schema

end TableQuery
