import TableQuery.Plan.Basic
import TableQuery.Json.Printer

/-! # Nested records

A page query gives flat rows, one value under each label. Rows with the same root identifier come to
one record: its fields, an object for each relationship to one, and a list for each relationship to
many, with one entry for each identifier. Records and entries stand in the order in which their
first row came. -/

namespace TableQuery

/-- How the objects of a node stand in the object above them. -/
structure Link where
  relationship : String
  toMany : Bool
deriving DecidableEq, Repr

/-- A table of the query, with the tables joined to it. -/
inductive RecordTree where
  /-- The alias, the identifier, the selected fields and the joined tables. -/
  | node (aliasName identifier : String) (fields : List String)
      (children : List (Link × RecordTree))
deriving Repr

namespace RecordTree

/-- The field that identifies the objects of a node. -/
def identifier : RecordTree → String
  | .node _ identifier _ _ => identifier

/-- The value under a label, null if the row has none. -/
def cell (row : Record) (label : String) : Json := (Keyed.get? row label).getD .null

/-- The identifier that a row has for a node. -/
def id (row : Record) : RecordTree → Json
  | .node aliasName identifier _ _ => cell row (fieldLabel aliasName identifier)

/-- The fields that a row has for a node. -/
def object (row : Record) : RecordTree → Record
  | .node aliasName _ fields _ =>
    fields.foldl (fun r field => Keyed.insert field (cell row (fieldLabel aliasName field)) r) []

/-- The tree below an alias, as far down as there is fuel. If the joins below the alias come to an
end, their number is enough to reach it. -/
def build (joins : JoinPlan) (selection : Selection) : Nat → String → String → RecordTree
  | 0, aliasName, identifier =>
    .node aliasName identifier ((selection.fieldsOf? aliasName).getD []) []
  | fuel + 1, aliasName, identifier =>
    .node aliasName identifier ((selection.fieldsOf? aliasName).getD [])
      ((joins.filter fun j => j.parent == aliasName).map fun j =>
        (⟨j.relationship, j.isToMany⟩, build joins selection fuel j.aliasName j.identifier))

/-- The tree of a plan whose tree has an end (`Plan.hasTree`). -/
def ofPlan (p : Plan) : RecordTree :=
  build p.joins p.selection p.joins.length p.rootAlias p.rootIdentifier

/-- Whether an entry of a list is the object with an identifier. -/
def hasId (identifier : String) (id : Json) : Json → Bool
  | .obj members => (Keyed.get? members identifier).any fun value => value.same id
  | _ => false

/-- Changes the first entry with an identifier, or adds one at the end. -/
def upsert (identifier : String) (id : Json) (change : Record → Record) (fresh : Record) :
    List Json → List Json
  | [] => [.obj fresh]
  | .obj members :: rest =>
    if hasId identifier id (.obj members) then .obj (change members) :: rest
    else .obj members :: upsert identifier id change fresh rest
  | item :: rest => item :: upsert identifier id change fresh rest

/-- What a relationship holds before any row. -/
def emptySlot (link : Link) : Json := if link.toMany then .arr [] else .null

/-- Adds what a row says of one joined table to what the relationship holds; `merge` adds what it
says of the tables below. A row without an identifier says nothing. -/
def mergeSlot (row : Record) (child : RecordTree) (merge : Record → Record) (slot : Json) : Json :=
  if (child.id row).isNull then slot
  else
    match slot with
    | .arr items =>
      .arr (upsert child.identifier (child.id row) merge (merge (child.object row)) items)
    | .obj members => .obj (merge members)
    | _ => .obj (merge (child.object row))

mutual

/-- Adds what a row says of the tables below a node to an object of the node. -/
def mergeRow (row : Record) : RecordTree → Record → Record
  | .node _ _ _ children, target => mergeChildren row children target

/-- Adds what a row says of some joined tables to an object. -/
def mergeChildren (row : Record) : List (Link × RecordTree) → Record → Record
  | [], target => target
  | (link, child) :: rest, target =>
    let slot := (Keyed.get? target link.relationship).getD (emptySlot link)
    mergeChildren row rest
      (Keyed.insert link.relationship (mergeSlot row child (mergeRow row child) slot) target)

end

end RecordTree

/-- The records so far, each with the text of its identifier. -/
abbrev Records := List (String × Record)

namespace Records

/-- Changes the first record with a key, or adds one at the end. -/
def upsert (key : String) (change : Record → Record) (fresh : Record) : Records → Records
  | [] => [(key, change fresh)]
  | (k, r) :: rest =>
    if k = key then (k, change r) :: rest else (k, r) :: upsert key change fresh rest

end Records

/-- The record that a row starts: the root's fields and the expressions with some labels. -/
def RecordTree.fresh (tree : RecordTree) (labels : List String) (row : Record) : Record :=
  labels.foldl (fun r label => Keyed.insert label (RecordTree.cell row label) r) (tree.object row)

/-- Adds a row to the records. -/
def RecordTree.addRow (tree : RecordTree) (labels : List String) (records : Records)
    (row : Record) : Records :=
  records.upsert (tree.id row).text (RecordTree.mergeRow row tree) (tree.fresh labels row)

/-- Whether the joins below an alias come to an end within some levels. -/
def JoinPlan.endsWithin (joins : JoinPlan) : Nat → String → Bool
  | 0, _ => false
  | levels + 1, aliasName =>
    (joins.filter fun j => j.parent == aliasName).all fun j => endsWithin joins levels j.aliasName

/-- Whether the tree of a plan has an end. If a join has the alias of a table above it, that table
stands below itself, and building the tree goes on until the stack overflows. -/
def Plan.hasTree (p : Plan) : Bool := p.joins.endsWithin (p.joins.length + 1) p.rootAlias

/-- The nested records of flat rows, for a plan whose tree has an end. -/
def Plan.hydrate (p : Plan) (rows : List Record) : List Record :=
  let tree := RecordTree.ofPlan p
  (rows.foldl (tree.addRow p.selection.rawAliases) []).map Prod.snd

end TableQuery
