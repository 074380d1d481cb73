import TableQuery.Json.Decoder
import TableQuery.Sql.Query
import TableQuery.Text.Basic

/-! # Requests

A client asks for a window of a table, with search texts and an order. Clients write numbers and
truth values in several ways, so the scalars of a request are read generously: a number may be a
text, a truth value may be a number or a word. -/

namespace TableQuery

open Json

/-- A search text. -/
structure SearchBox where
  value : String := ""
  regex : Bool := false
deriving DecidableEq, Repr

/-- What a client says about a column. -/
structure RequestColumn where
  /-- The data source that the client has for the column. -/
  data : Option Json := none
  /-- The name that the client has for the column. -/
  name : Option String := none
  /-- Whether the client lets the column be searched. -/
  searchable : Bool := false
  /-- Whether the client lets the column be ordered. -/
  orderable : Bool := false
  search : SearchBox := { }
deriving Repr

/-- A term of the order. -/
structure OrderRequest where
  column : Nat
  direction : Direction
deriving DecidableEq, Repr

/-- A request. -/
structure Request where
  draw : Option Int := none
  start : Option Int := none
  /-- The length of the window; minus one for all records. -/
  length : Option Int := none
  search : Option SearchBox := none
  columns : List RequestColumn := []
  order : List OrderRequest := []
deriving Repr

namespace Request

/-- A search text that is not empty. -/
def searchText (box : SearchBox) : Option String :=
  if box.value.isEmpty then none else some box.value

/-- The global search text. -/
def globalSearch (r : Request) : Option String := r.search.bind searchText

/-- The search text of a column. -/
def columnSearch (r : Request) (index : Nat) : Option String :=
  r.columns[index]?.bind fun c => searchText c.search

/-- The offset and the length of the window, unless all records are asked for. -/
def window (r : Request) : Option (Nat × Nat) :=
  match r.start, r.length with
  | some start, some length => if length = -1 then none else some (start.toNat, length.toNat)
  | _, _ => none

end Request

/-! ### Reading -/

/-- A scalar as a client writes it. -/
inductive Scalar where
  | bool (value : Bool)
  | int (value : Int)
  | float (value : Binary64)
  | text (value : String)
  | null

namespace Scalar

/-- Reads a scalar; a list or an object is none. -/
def decode : Decoder Scalar
  | .null => .ok .null
  | .bool b => .ok (.bool b)
  | .num (some (.int i)) =>
    .ok (if Decimal.isInt64 i then .int i else .float (Binary64.ofInt i))
  | .num (some (.float x)) => .ok (.float x)
  | .str (some s) => .ok (.text s)
  | _ => .error .malformed

/-- A scalar as a truth value: a word or a number for true, anything else for false. -/
def asBool : Scalar → Bool
  | .bool b => b
  | .int i => i ≠ 0
  | .text s => s == "true" || s == "1"
  | .float _ => false
  | .null => false

/-- A scalar as a text. -/
def asText : Scalar → String
  | .text s => s
  | .int i => toString i
  | .float x => Decimal.Layout.plain.text x
  | .bool true => "true"
  | .bool false => "false"
  | .null => ""

/-- A scalar as an integer. A fraction is cut off, and a text that is no integer is none. -/
def asInt? : Scalar → Option Int
  | .int i => some i
  | .float x => some (Decimal.clampInt64 x.truncate)
  | .text s => Decimal.readInt64? (Text.trim s)
  | .bool _ => none
  | .null => none

/-- A scalar as the position of a column. -/
def asColumn (s : Scalar) : Except Fault Nat :=
  match s.asInt? with
  | some i => if 0 ≤ i then .ok i.toNat else .error .notAColumn
  | none => .error .notAColumn

/-- A scalar as a direction: a word in any case, upwards for nothing. -/
def asDirection : Scalar → Except Fault Direction
  | .null => .ok .asc
  | .text s =>
    if Text.eqIgnoringCase (Text.trim s) "asc" then .ok .asc
    else if Text.eqIgnoringCase (Text.trim s) "desc" then .ok .desc
    else .error .notADirection
  | _ => .error .notADirection

/-- Reads a truth value. -/
def decodeBool : Decoder Bool := fun w => (decode w).map asBool

/-- Reads a text. -/
def decodeText : Decoder String := fun w => (decode w).map asText

/-- Reads an integer. -/
def decodeInt : Decoder (Option Int) := fun w => (decode w).map asInt?

/-- Reads the position of a column. -/
def decodeColumn : Decoder Nat := fun w => (decode w).bind asColumn

/-- Reads a direction. -/
def decodeDirection : Decoder Direction := fun w => (decode w).bind asDirection

end Scalar

namespace SearchBox

/-- Reads a search text. -/
def decode : Decoder SearchBox :=
  Decoder.record
    [Decoder.field "value" Scalar.decodeText fun b v => { b with value := v },
     Decoder.field "regex" Scalar.decodeBool fun b v => { b with regex := v }]
    { }

/-- The search text as an object. -/
def toJson (b : SearchBox) : Json :=
  Json.object [("value", .str b.value), ("regex", .bool b.regex)]

end SearchBox

namespace RequestColumn

/-- How many lists and objects stand around the data source: the column, the list of columns and the
request. -/
def outerDepth : Nat := 3

/-- Reads what a client says about a column. -/
def decode (limit : Option Nat) : Decoder RequestColumn :=
  Decoder.record
    [Decoder.field "data" (Decoder.optional (Decoder.jsonInside limit outerDepth)) fun c v =>
       { c with data := v },
     Decoder.field "name" (Decoder.optional Decoder.text) fun c v => { c with name := v },
     Decoder.field "searchable" Scalar.decodeBool fun c v => { c with searchable := v },
     Decoder.field "orderable" Scalar.decodeBool fun c v => { c with orderable := v },
     Decoder.field "search" SearchBox.decode fun c v => { c with search := v }]
    { }

/-- The column as an object. -/
def toJson (c : RequestColumn) : Json :=
  Json.object [("data", c.data.getD .null), ("name", Json.text? c.name),
    ("searchable", .bool c.searchable), ("orderable", .bool c.orderable),
    ("search", c.search.toJson)]

end RequestColumn

/-- The name of a direction. -/
def Direction.name : Direction → String
  | .asc => "asc"
  | .desc => "desc"

namespace OrderRequest

/-- Reads a term of the order. -/
def decode : Decoder OrderRequest :=
  Decoder.record
    [Decoder.needed "column" Scalar.decodeColumn fun o v => { o with column := v },
     Decoder.field "dir" Scalar.decodeDirection fun o v => { o with direction := v }]
    ⟨0, .asc⟩

/-- The term as an object. -/
def toJson (o : OrderRequest) : Json :=
  Json.object [("column", Json.nat o.column), ("dir", .str o.direction.name)]

end OrderRequest

namespace Request

/-- Reads a request, whose data sources may be as deep as a limit allows. -/
def decode (limit : Option Nat) : Decoder Request :=
  Decoder.record
    [Decoder.field "draw" Scalar.decodeInt fun r v => { r with draw := v },
     Decoder.field "start" Scalar.decodeInt fun r v => { r with start := v },
     Decoder.field "length" Scalar.decodeInt fun r v => { r with length := v },
     Decoder.field "search" (Decoder.optional SearchBox.decode) fun r v => { r with search := v },
     Decoder.field "columns" (Decoder.list (RequestColumn.decode limit)) fun r v =>
       { r with columns := v },
     Decoder.field "order" (Decoder.list OrderRequest.decode) fun r v => { r with order := v }]
    { }

/-- Reads a request from a text. -/
def ofText (text : String) : Except Fault Request :=
  Decoder.runText (decode (some Decoder.textLimit)) text

/-- Reads a request from a value, which may be nested as deep as it likes. -/
def ofJson (value : Json) : Except Fault Request := Decoder.runJson (decode none) value

/-- The request as an object. -/
def toJson (r : Request) : Json :=
  Json.object [("draw", r.draw.elim .null Json.int), ("start", r.start.elim .null Json.int),
    ("length", r.length.elim .null Json.int), ("search", r.search.elim .null SearchBox.toJson),
    ("columns", .arr (r.columns.map RequestColumn.toJson)),
    ("order", .arr (r.order.map OrderRequest.toJson))]

end Request

end TableQuery
