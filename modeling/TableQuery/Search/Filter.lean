import TableQuery.Search.Expression
import TableQuery.Search.DateRange
import TableQuery.Options

/-! # Filters

A filter turns a search value into predicates at the end of a group. The global search asks for one
of several columns, with one mode for the whole table; the search of a column narrows the rows in
the filter's own way, with names from a counter that all columns share.

The counter is a number of 64 bits in a program. It has no bound here, and needs none: a search of a
filter that is not supplied moves it by the length of its value and two at most
(`Filter.narrow_le`), so the searches of one request would have to be nearly `2 ^ 64` characters
long (`Planned.narrowed_le`). -/

namespace TableQuery

/-- A filter supplied by the table's author. -/
structure Strategy where
  input : InputKind
  /-- The search of a column: the group with its predicates, and the counter after it. -/
  narrow : Group → SearchTerm → Nat → Group × Nat
  /-- The part of the column in the global search. -/
  widen : Group → SearchTerm → SearchMode → Nat → Group := fun acc term mode column =>
    acc.pushSearched (searchExpression term mode (globalNames column acc.items.length))

/-- A filter. -/
inductive Filter where
  | text (mode : SearchMode) (initial : Option String)
  /-- A number box with bounds for the renderer. -/
  | number (mode : SearchMode) (min max step : Option Binary64)
  | dateRange (initial : Option String)
  | boolean (mode : SearchMode)
  /-- A list to choose from, possibly several items at once. -/
  | select (mode : SearchMode) (options : Record) (multiple : Bool)
  | custom (strategy : Strategy)

namespace Filter

/-- The filter of a column that has none. -/
def fallback : Filter := .text .like none

/-- The control that the renderer offers. -/
def input : Filter → InputKind
  | .text _ _ => .text
  | .number _ _ _ _ => .number
  | .dateRange _ => .dateRange
  | .boolean _ => .boolean
  | .select _ _ _ => .select
  | .custom strategy => strategy.input

/-! ### Searching -/

/-- A search expression with names from the counter. -/
def narrowBy (acc : Group) (term : SearchTerm) (mode : SearchMode) (counter : Nat) : Group × Nat :=
  let s := searchExpression term mode (counterNames counter)
  (acc.pushSearched s, counter + s.used)

/-- A closed range with names from the counter. -/
def narrowBetween (acc : Group) (target : Target) (low high : Value) (counter : Nat) :
    Group × Nat :=
  (acc.push (.between target ⟨counterNames counter 0, low⟩ ⟨counterNames counter 1, high⟩),
    counter + 2)

/-- Two numbers with ` - ` between them are a range; a value without a type is compared as a
number. Any other value is a search expression. -/
def narrowNumber (acc : Group) (term : SearchTerm) (mode : SearchMode) (counter : Nat) :
    Group × Nat :=
  match Text.cutText DateRange.separator term.value with
  | none => narrowBy acc term mode counter
  | some (low, high) =>
    let type := some (term.type.getD .float)
    match typedValue? type (Text.trim low), typedValue? type (Text.trim high) with
    | some low, some high => narrowBetween acc term.target low high counter
    | _, _ => (acc, counter)

/-- A range of dates; any other value is left out. -/
def narrowDates (acc : Group) (term : SearchTerm) (counter : Nat) : Group × Nat :=
  if term.value.toList.contains '-' then
    match DateRange.read term.value with
    | .ok (start, stop) => narrowBetween acc term.target (.moment start) (.moment stop) counter
    | .error _ => (acc, counter)
  else (acc, counter)

/-- The digit for a word that switches on or off. -/
def switchDigit? (s : String) : Option String :=
  match Text.asciiLower (Text.trim s) with
  | "1" | "true" | "yes" | "on" => some "1"
  | "0" | "false" | "no" | "off" => some "0"
  | _ => none

/-- A switch, compared as a truth value; any other value is left out. -/
def narrowSwitch (acc : Group) (term : SearchTerm) (mode : SearchMode) (counter : Nat) :
    Group × Nat :=
  match switchDigit? term.value with
  | some digit => narrowBy acc ⟨term.target, digit, some .boolean⟩ mode counter
  | none => (acc, counter)

/-- The search of a column: the group with its predicates, and the counter after it. -/
def narrow (f : Filter) (acc : Group) (term : SearchTerm) (counter : Nat) : Group × Nat :=
  match f with
  | .text mode _ => narrowBy acc term mode counter
  | .number mode _ _ _ => narrowNumber acc term mode counter
  | .dateRange _ => narrowDates acc term counter
  | .boolean mode => narrowSwitch acc term mode counter
  | .select mode _ _ => narrowBy acc term mode counter
  | .custom strategy => strategy.narrow acc term counter

/-- The part of a column in the global search. -/
def widen (f : Filter) (acc : Group) (term : SearchTerm) (mode : SearchMode) (column : Nat) :
    Group :=
  match f with
  | .custom strategy => strategy.widen acc term mode column
  | _ => acc.pushSearched (searchExpression term mode (globalNames column acc.items.length))

/-! ### Building from options -/

/-- The options of every built-in filter, with a default mode. -/
def baseOptions (mode : SearchMode) : OptionSchema :=
  (((((OptionSchema.define [] "search_type" (.str mode.name) [.string]).choices "search_type"
    (SearchMode.all.map fun m => .str m.name)).defineTexts
    ["initial_search", "placeholder_text", "classes"]).define "placeholder" (.bool true)
    [.bool]).define "cancel_button" (.bool false) [.bool])

/-- Resolves the options of a filter. -/
def resolve (schema : OptionSchema) (given : Record) : Except ConfigFailure Record :=
  (schema.resolve given).mapError .options

/-- The mode that resolved options give. -/
def modeOf (options : Record) : Except ConfigFailure SearchMode :=
  (SearchMode.ofName ((Record.text? options "search_type").getD "like")).mapError .filter

/-- A text box. -/
def ofTextOptions (given : Record) : Except ConfigFailure Filter := do
  let options ← resolve (baseOptions .like) given
  let mode ← modeOf options
  pure (.text mode (Record.text? options "initial_search"))

/-- A number box. -/
def ofNumberOptions (given : Record) : Except ConfigFailure Filter := do
  let schema := ["min", "max", "step"].foldl
    (fun s name => s.define name .null [.null, .number]) (baseOptions .eq)
  let options ← resolve schema given
  let mode ← modeOf options
  let bound (name : String) := (Record.value? options name).bind Json.asBinary64?
  pure (.number mode (bound "min") (bound "max") (bound "step"))

/-- A pair of dates, which has no mode. -/
def ofDateRangeOptions (given : Record) : Except ConfigFailure Filter := do
  let options ← resolve ((baseOptions .like).remove "search_type") given
  pure (.dateRange (Record.text? options "initial_search"))

/-- A switch. -/
def ofBooleanOptions (given : Record) : Except ConfigFailure Filter := do
  let options ← resolve (baseOptions .eq) given
  let mode ← modeOf options
  pure (.boolean mode)

/-- Several items are searched as a list, negated if the mode is a negation. -/
def selectMode (multiple : Bool) (mode : SearchMode) : SearchMode :=
  if multiple then
    if mode = .neq ∨ mode = .notAmong then .notAmong else .among
  else mode

/-- A list to choose from. -/
def ofSelectOptions (given : Record) : Except ConfigFailure Filter := do
  let schema := ((baseOptions .eq).define "select_options" (.obj []) [.object]).define
    "multiple" (.bool false) [.bool]
  let options ← resolve schema given
  let mode ← modeOf options
  let multiple := Record.flag options "multiple"
  let items := ((Record.value? options "select_options").bind Json.asRecord?).getD []
  pure (.select (selectMode multiple mode) items multiple)

/-- The filter of a name. -/
def ofOptions (name : String) (given : Record) : Except ConfigFailure Filter :=
  match name with
  | "text" => ofTextOptions given
  | "number" => ofNumberOptions given
  | "daterange" | "date_range" => ofDateRangeOptions given
  | "boolean" => ofBooleanOptions given
  | "select" => ofSelectOptions given
  | name => .error (.filter (.unknownFilter name))

/-- The filter of an option: a name, a list of a name and its options, or an object of the options
with the name under `type`. -/
def ofJson (value : Json) : Except ConfigFailure Filter :=
  match value with
  | .str name => ofOptions name []
  | .arr [.str name] => ofOptions name []
  | .arr [.str name, .obj given] => ofOptions name given
  | .arr [.str name, .arr []] => ofOptions name []
  | .arr _ => .error (.filter (.notNameAndOptions value))
  | .obj given =>
    match (Keyed.get? given "type").bind Json.asText? with
    | some name => ofOptions name (Keyed.erase given "type")
    | none => .error (.filter .withoutType)
  | _ => .error (.filter (.notAFilter value))

end Filter

end TableQuery
