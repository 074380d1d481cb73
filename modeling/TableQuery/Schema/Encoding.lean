import TableQuery.Schema.Entity

/-! # Schemas as JSON

Entities are read from a JSON list and written back as objects. -/

namespace TableQuery

open Json

namespace FieldMapping

/-- Reads the mapping of a field. -/
def decode : Decoder FieldMapping :=
  Decoder.record
    [Decoder.field "column" (Decoder.optional Decoder.text) fun m v => { m with column := v },
     Decoder.needed "type" Decoder.text fun m v => { m with type := FieldType.ofText v },
     Decoder.field "nullable" Decoder.bool fun m v => { m with nullable := v }]
    ⟨none, .string, false⟩

/-- The mapping as an object. -/
def toJson (m : FieldMapping) : Json :=
  Json.object [("column", Json.text? m.column), ("type", .str m.type.name),
    ("nullable", .bool m.nullable)]

end FieldMapping

namespace LinkTable

/-- Reads a link table. -/
def decode : Decoder LinkTable :=
  Decoder.record
    [Decoder.needed "table" Decoder.text fun l v => { l with table := v },
     Decoder.needed "source_column" Decoder.text fun l v => { l with sourceColumn := v },
     Decoder.needed "target_column" Decoder.text fun l v => { l with targetColumn := v }]
    ⟨"", "", ""⟩

/-- The link table as an object. -/
def toJson (l : LinkTable) : Json :=
  Json.object [("table", .str l.table), ("source_column", .str l.sourceColumn),
    ("target_column", .str l.targetColumn)]

end LinkTable

namespace Association

/-- Reads an association. -/
def decode : Decoder Association :=
  Decoder.record
    [Decoder.needed "target" Decoder.text fun a v => { a with target := v },
     Decoder.needed "kind" (Decoder.word Cardinality.ofName?) fun a v => { a with kind := v },
     Decoder.needed "local_column" Decoder.text fun a v => { a with localColumn := v },
     Decoder.needed "foreign_column" Decoder.text fun a v => { a with foreignColumn := v },
     Decoder.field "join_table" (Decoder.optional LinkTable.decode) fun a v => { a with link := v },
     Decoder.field "owning" Decoder.bool fun a v => { a with owning := v }]
    ⟨"", .oneToOne, "", "", none, true⟩

/-- The association as an object. -/
def toJson (a : Association) : Json :=
  Json.object [("target", .str a.target), ("kind", .str a.kind.name),
    ("local_column", .str a.localColumn), ("foreign_column", .str a.foreignColumn),
    ("join_table", a.link.elim .null LinkTable.toJson), ("owning", .bool a.owning)]

end Association

namespace Entity

/-- Reads an entity. -/
def decode : Decoder Entity :=
  Decoder.record
    [Decoder.needed "name" Decoder.text fun e v => { e with name := v },
     Decoder.needed "table" Decoder.text fun e v => { e with table := v },
     Decoder.needed "identifiers" (Decoder.list Decoder.text) fun e v =>
       { e with identifiers := v },
     Decoder.field "fields" (Decoder.keyed FieldMapping.decode) fun e v => { e with fields := v },
     Decoder.field "associations" (Decoder.keyed Association.decode) fun e v =>
       { e with associations := v }]
    { name := "", table := "" }

/-- The entity as an object. -/
def toJson (e : Entity) : Json :=
  Json.object [("name", .str e.name), ("table", .str e.table),
    ("identifiers", .arr (e.identifiers.map .str)),
    ("fields", .obj (Keyed.mapValues FieldMapping.toJson e.fields)),
    ("associations", .obj (Keyed.mapValues Association.toJson e.associations))]

end Entity

/-- Reads a schema from a JSON list of entities. -/
def Schema.ofText (text : String) : Except Fault Schema :=
  (Decoder.runText (Decoder.list Entity.decode) text).map Schema.ofEntities

end TableQuery
