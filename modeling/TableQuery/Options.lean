import TableQuery.Failure

/-! # Options and their schemas

Columns and filters are set up by options. A schema lists the options that are understood, each with
a default, the kinds of value it takes, and possibly a closed choice of values. Options are resolved
against a schema: nothing unknown is accepted, nothing required may be left out, and every option of
the schema gets a value. -/

namespace TableQuery

/-- Kinds of JSON values. -/
inductive OptionKind where
  | null
  | bool
  | integer
  | number
  | string
  | array
  | object
deriving DecidableEq, Repr

namespace OptionKind

/-- The name of a kind. -/
def name : OptionKind → String
  | .null => "null"
  | .bool => "bool"
  | .integer => "int"
  | .number => "number"
  | .string => "string"
  | .array => "array"
  | .object => "object"

/-- All kinds. -/
def all : List OptionKind := [.null, .bool, .integer, .number, .string, .array, .object]

/-- Whether a value is of a kind. -/
def accepts : OptionKind → Json → Bool
  | .null, .null => true
  | .bool, .bool _ => true
  | .integer, .num (.int _) => true
  | .number, .num _ => true
  | .string, .str _ => true
  | .array, .arr _ => true
  | .object, .obj _ => true
  | _, _ => false

end OptionKind

/-- What is known of one option. -/
structure OptionSpec where
  /-- The value of the option when it is left out. -/
  default : Json
  /-- The kinds that are accepted; all kinds if the list is empty. -/
  kinds : List OptionKind
  /-- Whether the option may not be left out. -/
  required : Bool
  /-- The only values that are accepted apart from null. -/
  choices : Option (List Json)
deriving Repr

/-- The options that are understood, by name. -/
abbrev OptionSchema := Keyed OptionSpec

namespace OptionSchema

/-- The schema with one option changed, if it is there. -/
def update (s : OptionSchema) (name : String) (f : OptionSpec → OptionSpec) : OptionSchema :=
  match Keyed.get? s name with
  | some spec => Keyed.insert name (f spec) s
  | none => s

/-- Adds an option with a default, or replaces it. -/
def define (s : OptionSchema) (name : String) (default : Json) (kinds : List OptionKind) :
    OptionSchema :=
  Keyed.insert name ⟨default, kinds, false, none⟩ s

/-- Adds an option that may not be left out, or replaces it. -/
def require (s : OptionSchema) (name : String) (kinds : List OptionKind) : OptionSchema :=
  Keyed.insert name ⟨.null, kinds, true, none⟩ s

/-- Restricts an option to some values. -/
def choices (s : OptionSchema) (name : String) (values : List Json) : OptionSchema :=
  s.update name fun spec => { spec with choices := some values }

/-- Takes an option out. -/
def remove (s : OptionSchema) (name : String) : OptionSchema := Keyed.erase s name

/-- Changes the default of an option. -/
def setDefault (s : OptionSchema) (name : String) (default : Json) : OptionSchema :=
  s.update name fun spec => { spec with default := default }

/-- Adds options that take a text or null and are null by default. -/
def defineTexts (s : OptionSchema) (names : List String) : OptionSchema :=
  names.foldl (fun s name => s.define name .null [.null, .string]) s

/-- Whether a value is of an accepted kind. -/
def hasKind (spec : OptionSpec) (value : Json) : Bool :=
  spec.kinds.isEmpty || spec.kinds.any fun kind => kind.accepts value

/-- Whether a value is among the choices. -/
def isChoice (spec : OptionSpec) (value : Json) : Bool :=
  value.isNull || spec.choices.all fun values => values.any fun choice => choice.same value

/-- The value of an option: the one that is given, or the default. -/
def valueOf (given : Record) (name : String) (spec : OptionSpec) : Except OptionFailure Json :=
  match Keyed.get? given name with
  | some value => .ok value
  | none => if spec.required then .error (.missing name) else .ok spec.default

/-- The entry of an option after all its checks. -/
def resolveEntry (given : Record) (entry : String × OptionSpec) :
    Except OptionFailure (String × Json) := do
  let (name, spec) := entry
  let value ← valueOf given name spec
  if !hasKind spec value then throw (.wrongKind name (spec.kinds.map OptionKind.name) value)
  if !isChoice spec value then throw (.notAChoice name value)
  pure (name, value)

/-- A value for each option of the schema. The first unknown option in key order is reported. -/
def resolve (s : OptionSchema) (given : Record) : Except OptionFailure Record :=
  match given.find? fun entry => (Keyed.get? s entry.1).isNone with
  | some entry => .error (.unknown entry.1 (Keyed.keys s))
  | none => s.mapM (resolveEntry given)

end OptionSchema

/-! ### Reading resolved options -/

namespace Record

/-- The value of an option unless it is null. -/
def value? (options : Record) (name : String) : Option Json :=
  (Keyed.get? options name).filter fun value => !value.isNull

/-- The truth value of an option, false for any other value. -/
def flag (options : Record) (name : String) : Bool :=
  ((value? options name).bind Json.asBool?).getD false

/-- The text of an option. -/
def text? (options : Record) (name : String) : Option String :=
  (value? options name).bind Json.asText?

/-- The texts of an option that is a text or a list; items of the list that are no texts are left
out. -/
def texts? (options : Record) (name : String) : Option (List String) :=
  match value? options name with
  | some (.str s) => some [s]
  | some (.arr items) => some (items.filterMap Json.asText?)
  | _ => none

end Record

end TableQuery
