import TableQuery.Search.Mode
import TableQuery.Schema.FieldType
import TableQuery.Sql.Predicate

/-! # Search expressions

One search value aimed at one target becomes a predicate, or nothing if the type of the field cannot
hold the value. Parameters are named by a naming: a function from the position of a parameter in its
expression to its name. An expression reports how many names it used up. -/

namespace TableQuery

/-- One search value aimed at one target. -/
structure SearchTerm where
  target : Target
  value : String
  type : Option FieldType
deriving DecidableEq, Repr

/-- Names for the parameters of one expression, by position. -/
abbrev Naming := Nat → String

/-- Whether a text is an integer of 64 bits in its canonical form. -/
def isIntegerLiteral (s : String) : Bool :=
  match Decimal.readInt64? s with
  | some i => toString i == s
  | none => false

/-- The finite number that a text denotes, with blanks allowed around it. -/
def readFinite? (s : String) : Option Binary64 :=
  (Decimal.read? (Text.trim s)).filter Binary64.isFinite

/-- A search value as a field of a type takes it. -/
def typedValue? (type : Option FieldType) (s : String) : Option Value :=
  match type with
  | some t =>
    if t.isFloating then (readFinite? s).map .float
    else if t.isIntegral then
      if isIntegerLiteral s then (Decimal.readInt64? s).map .int else none
    else some (.text s)
  | none => some (.text s)

/-- The items of a list: the pieces between commas without the blanks around them, except those
that are blank. -/
def listItems (s : String) : List String :=
  ((Text.piecesOf ',' s).map Text.trim).filter fun item => !item.isEmpty

/-- The values of the items before the first one that the type rejects. -/
def acceptedItems (type : Option FieldType) : List String → List Value
  | [] => []
  | item :: items =>
    match typedValue? type item with
    | some value => value :: acceptedItems type items
    | none => []

/-- Values as parameters with the first names of a naming. -/
def named (names : Naming) (values : List Value) : List Param :=
  values.mapIdx fun i value => ⟨names i, value⟩

/-- The outcome of a search expression: the predicate, and how many names were used up. -/
structure Searched where
  /-- The predicate, unless the value was rejected. -/
  predicate : Option Predicate
  used : Nat

/-- No predicate and no names. -/
def Searched.nothing : Searched := ⟨none, 0⟩

/-- A comparison with the typed value. -/
def searchCompare (term : SearchTerm) (op : Comparison) (names : Naming) : Searched :=
  match typedValue? term.type term.value with
  | some value => ⟨some (.compare term.target op ⟨names 0, value⟩), 1⟩
  | none => .nothing

/-- A text pattern, for values that the type accepts. -/
def searchLike (term : SearchTerm) (negated : Bool) (names : Naming) : Searched :=
  match typedValue? term.type term.value with
  | some _ =>
    ⟨some (.like term.target negated ⟨names 0, .text ("%" ++ term.value ++ "%")⟩), 1⟩
  | none => .nothing

/-- Membership of the list. If an item is rejected there is no predicate, and the names of the items
before it are used up all the same. -/
def searchAmong (term : SearchTerm) (negated : Bool) (names : Naming) : Searched :=
  let items := listItems term.value
  let values := acceptedItems term.type items
  if values.length < items.length then ⟨none, values.length⟩
  else if values.isEmpty then .nothing
  else ⟨some (.among term.target negated (named names values)), values.length⟩

/-- The predicate of a search value under a mode. -/
def searchExpression (term : SearchTerm) (mode : SearchMode) (names : Naming) : Searched :=
  match mode with
  | .isNull => ⟨some (.isNull term.target false), 0⟩
  | .isNotNull => ⟨some (.isNull term.target true), 0⟩
  | .like => searchLike term false names
  | .notLike => searchLike term true names
  | .among => searchAmong term false names
  | .notAmong => searchAmong term true names
  | .eq => searchCompare term .eq names
  | .neq => searchCompare term .neq names
  | .lt => searchCompare term .lt names
  | .lte => searchCompare term .lte names
  | .gt => searchCompare term .gt names
  | .gte => searchCompare term .gte names

/-- The group with the predicate of an outcome, if there is one, at the end. -/
def Group.pushSearched (g : Group) (s : Searched) : Group :=
  match s.predicate with
  | some p => g.push p
  | none => g

/-- The names of one column's expressions: `p` and a number that counts on from `counter`. -/
def counterNames (counter : Nat) : Naming := fun i => "p" ++ toString (counter + i)

/-- The names of one expression of the global search: `g`, the column and the position of the
expression in its group, and a number after the first name. -/
def globalNames (column slot : Nat) : Naming := fun i =>
  let stem := "g" ++ toString column ++ "_" ++ toString slot
  if i = 0 then stem else stem ++ "_" ++ toString i

/-- The number of the first parameter of the column searches. -/
def firstCounter : Nat := 100

end TableQuery
