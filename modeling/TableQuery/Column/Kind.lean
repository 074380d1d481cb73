import TableQuery.Options
import TableQuery.Text.Basic

/-! # Kinds of columns

The kind of a column decides which options it takes and how a renderer shows its cells. -/

namespace TableQuery

/-- The kind of a column. -/
inductive ColumnKind where
  | column
  | boolean
  | datetime
  | number
  | array
  | attribute
  | link
  | image
  | virtual
  | action
  | multiselect
deriving DecidableEq, Repr

namespace ColumnKind

/-- All kinds. -/
def all : List ColumnKind :=
  [.column, .boolean, .datetime, .number, .array, .attribute, .link, .image, .virtual, .action,
   .multiselect]

/-- The name of a kind. -/
def name : ColumnKind → String
  | .column => "column"
  | .boolean => "boolean"
  | .datetime => "datetime"
  | .number => "number"
  | .array => "array"
  | .attribute => "attribute"
  | .link => "link"
  | .image => "image"
  | .virtual => "virtual"
  | .action => "action"
  | .multiselect => "multiselect"

/-- The kind of a name in any case. -/
def ofName (name : String) : Except ColumnFailure ColumnKind :=
  let lower := Text.asciiLower name
  match all.find? fun kind => kind.name == lower with
  | some kind => .ok kind
  | none => .error (.unknownKind lower)

/-- Kinds whose cells show a field. -/
def isSelectable : ColumnKind → Bool
  | .virtual | .action | .multiselect => false
  | _ => true

/-- Kinds that a table has at most once. -/
def isUnique : ColumnKind → Bool
  | .action | .multiselect => true
  | _ => false

/-! ### Options -/

/-- Options that every kind understands. The other options are for the renderer. -/
def coreOptions : List String :=
  ["dql", "data", "title", "searchable", "orderable", "visible", "join_type", "type_of_field",
   "class_name", "width", "default_content", "order_column", "search_column", "filter"]

/-- The schema that the kinds start from. -/
def baseOptions : OptionSchema :=
  let texts := OptionSchema.defineTexts []
    ["dql", "data", "title", "type_of_field", "class_name", "width", "default_content"]
  let flags := ["searchable", "orderable", "visible"].foldl
    (fun s name => s.define name (.bool true) [.bool]) texts
  let joins := (flags.define "join_type" (.str "left") [.string]).choices "join_type"
    [.str "left", .str "inner"]
  let overrides := ["order_column", "search_column"].foldl
    (fun s name => s.define name .null [.null, .string, .array]) joins
  overrides.define "filter" (.str "text") [.null, .string, .array, .object]

/-- Columns that are neither searched nor ordered unless they ask for it. -/
def withoutSearch (s : OptionSchema) : OptionSchema :=
  (s.setDefault "searchable" (.bool false)).setDefault "orderable" (.bool false)

/-- Columns whose cells can be edited. -/
def withEditor (s : OptionSchema) : OptionSchema := s.define "editable" .null [.null, .object]

/-- The schema of columns with buttons. -/
def actionOptions : OptionSchema :=
  let less := ["dql", "join_type", "type_of_field", "order_column", "search_column",
    "filter"].foldl OptionSchema.remove baseOptions
  ((withoutSearch less).define "actions" (.arr []) [.array]).defineTexts
    ["start_html", "end_html"]

/-- The options that a kind understands. -/
def options : ColumnKind → OptionSchema
  | .column => withEditor baseOptions
  | .array => withEditor baseOptions
  | .boolean =>
    withEditor ((baseOptions.setDefault "filter" (.str "boolean")).defineTexts
      ["true_label", "false_label", "true_icon", "false_icon"])
  | .datetime =>
    withEditor ((baseOptions.define "date_format" (.str "lll") [.string]).define
      "timeago" (.bool false) [.bool])
  | .number =>
    withEditor (((baseOptions.setDefault "filter" (.str "number")).define
      "formatter" .null [.null, .object]).define "use_format_currency" (.bool false) [.bool])
  | .attribute => baseOptions.define "attributes" .null [.null, .object, .array]
  | .link =>
    ((baseOptions.defineTexts ["route", "text"]).define "route_params" (.obj []) [.object]).define
      "empty_value" (.str "") [.string]
  | .image =>
    withoutSearch (((baseOptions.require "relative_path" [.string]).define
      "imagine_filter" (.str "") [.string]).defineTexts ["holder_url"])
  | .virtual => withoutSearch ((baseOptions.remove "dql").remove "join_type")
  | .action => actionOptions
  | .multiselect =>
    ((actionOptions.define "value" (.str "id") [.string]).define
      "value_prefix" (.bool false) [.bool]).defineTexts ["render_actions_to_id"]

/-- The filter option of a column that is given none. -/
def defaultFilter (kind : ColumnKind) : Json :=
  ((Keyed.get? kind.options "filter").map OptionSpec.default).getD .null

/-- The options that are for the renderer. -/
def renderOptions (options : Record) : Record :=
  options.filter fun entry => !coreOptions.contains entry.1

end ColumnKind

end TableQuery
