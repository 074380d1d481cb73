import TableQuery.Json.Printer
import TableQuery.Json.Decoder

/-! # Failures and their wording

A failure is a cause. The causes are grouped by the part of the library that meets them, and each
group has one function that words them; `Failure.message` puts the group's name in front. -/

namespace TableQuery

/-- Why a piece of SQL cannot be built. -/
inductive SqlFailure where
  | emptyIdentifier
  | emptySegment (path : String)
  | badSegment (segment path : String)
  /-- A dotted path stands where one identifier is due. -/
  | notSingle (path : String)
  | emptyExpression
  /-- An `IN` list has no values. -/
  | emptyIn (field : String)
  /-- A comparison with null uses another operator than the null tests. -/
  | nullOperator (operator : String)
  /-- A join condition has no operator or lacks a side. -/
  | badCondition (text : String)
  /-- An operator is none of the supported ones. -/
  | unsupportedOperator (operator : String)
  | nullNeedsIs
  | joinWithoutCondition (table aliasName : String)
  | aliasedWildcard
  | emptySelectExpression (aliasName : String)
  | emptySelector
  | emptyAlias
  /-- A selector has an alias but no source. -/
  | aliasWithoutSource
  | tooManyDots
deriving DecidableEq, Repr

/-- The wording of a failure to build SQL. -/
def SqlFailure.message : SqlFailure → String
  | .emptyIdentifier => "invalid identifier: empty"
  | .emptySegment path => "invalid identifier: empty segment in `" ++ path ++ "`"
  | .badSegment segment path => "invalid identifier segment `" ++ segment ++ "` in `" ++ path ++ "`"
  | .notSingle path => "expected a single identifier, got `" ++ path ++ "`"
  | .emptyExpression => "empty expression"
  | .emptyIn field => "IN predicate on `" ++ field ++ "` without values"
  | .nullOperator operator => "operator `" ++ operator ++ "` not valid with NULL"
  | .badCondition text => "invalid ON clause: `" ++ text ++ "`"
  | .unsupportedOperator operator => "unsupported operator `" ++ operator ++ "`"
  | .nullNeedsIs => "only IS / IS NOT allowed with NULL in ON clause"
  | .joinWithoutCondition table aliasName =>
    "join `" ++ table ++ "` AS `" ++ aliasName ++ "` needs at least one ON condition"
  | .aliasedWildcard => "cannot alias a wildcard selector (`*` or `src.*`)"
  | .emptySelectExpression aliasName => "empty select expression for `" ++ aliasName ++ "`"
  | .emptySelector => "empty selector"
  | .emptyAlias => "empty alias after ':'"
  | .aliasWithoutSource => "alias requires a source: use `source.column:alias`"
  | .tooManyDots => "selector supports at most one dot: `source.column` or `source.*`"

/-- Why a text is no data path. The text is kept without the blanks around it. -/
inductive PathFailure where
  | empty
  | unclosed (path : String)
  | secondMarker (path : String)
  /-- A bracket is followed by neither a dot nor the end. -/
  | noDotAfterMarker (path : String)
  | badSegment (path : String) (cause : SqlFailure)
  | trailingDot (path : String)
deriving DecidableEq, Repr

/-- The wording of a failure to read a data path. -/
def PathFailure.message : PathFailure → String
  | .empty => "empty data path"
  | .unclosed path => "unclosed `[` in data path `" ++ path ++ "`"
  | .secondMarker path => "data path `" ++ path ++ "` has more than one collection marker"
  | .noDotAfterMarker path => "expected `.` after `]` in data path `" ++ path ++ "`"
  | .badSegment path cause => "data path `" ++ path ++ "`: " ++ cause.message
  | .trailingDot path => "trailing `.` in data path `" ++ path ++ "`"

/-- Why the schema has no answer. -/
inductive SchemaFailure where
  | noIdentifier (entity : String)
  | unknownField (field entity : String)
  | unknownAssociation (association entity : String)
  | unmapped (entity : String)
  /-- A cause in the words of the schema's owner. -/
  | told (text : String)
deriving DecidableEq, Repr

/-- The wording of a failure of the schema. -/
def SchemaFailure.message : SchemaFailure → String
  | .noIdentifier entity => "entity `" ++ entity ++ "` has no identifier"
  | .unknownField field entity => "unknown field `" ++ field ++ "` in entity `" ++ entity ++ "`"
  | .unknownAssociation association entity =>
    "unknown association `" ++ association ++ "` in entity `" ++ entity ++ "`"
  | .unmapped entity => "`" ++ entity ++ "` is not a mapped entity"
  | .told text => text

/-- Why options do not fit their schema. -/
inductive OptionFailure where
  /-- An option is not in the schema, whose names are listed. -/
  | unknown (name : String) (known : List String)
  | missing (name : String)
  /-- A value is of none of the kinds that are listed. -/
  | wrongKind (name : String) (kinds : List String) (value : Json)
  | notAChoice (name : String) (value : Json)
deriving Repr

/-- The wording of a failure of options. -/
def OptionFailure.message : OptionFailure → String
  | .unknown name known =>
    "unknown option `" ++ name ++ "`, expected one of: " ++ ", ".intercalate known
  | .missing name => "missing required option `" ++ name ++ "`"
  | .wrongKind name kinds value =>
    "option `" ++ name ++ "` expects " ++ " | ".intercalate kinds ++ ", got `" ++ value.text ++ "`"
  | .notAChoice name value => "option `" ++ name ++ "` does not accept `" ++ value.text ++ "`"

/-- Why a filter cannot be built from its option. -/
inductive FilterFailure where
  | unknownSearch (name : String)
  /-- A list is not a name followed by options. -/
  | notNameAndOptions (value : Json)
  /-- An object has no text under `type`. -/
  | withoutType
  /-- The option is neither a text, a list nor an object. -/
  | notAFilter (value : Json)
  | unknownFilter (name : String)
deriving Repr

/-- The wording of a failure to build a filter. -/
def FilterFailure.message : FilterFailure → String
  | .unknownSearch name => "unknown search type `" ++ name ++ "`"
  | .notNameAndOptions value =>
    "filter must be `[name, \x7boptions\x7d]`, got `" ++ value.text ++ "`"
  | .withoutType => "filter object needs a string `type`"
  | .notAFilter value => "invalid filter option `" ++ value.text ++ "`"
  | .unknownFilter name => "unknown filter `" ++ name ++ "`"

/-- Why a column cannot be registered or planned. -/
inductive ColumnFailure where
  | unknownKind (name : String)
  | notAnObject (options : Json)
  /-- A custom expression belongs to a column without a name. -/
  | expressionWithoutName
  /-- The kind reads a field but the column has no path. -/
  | needsPath (kind : String)
  /-- Two columns are of a kind that a table may have once. -/
  | registeredTwice (kind : String) (first second : Nat)
  /-- A custom expression belongs to a column without data. -/
  | expressionWithoutData (index : Nat)
deriving Repr

/-- The wording of a failure of a column. -/
def ColumnFailure.message : ColumnFailure → String
  | .unknownKind name => "unknown column kind `" ++ name ++ "`"
  | .notAnObject options => "column options must be an object, got `" ++ options.text ++ "`"
  | .expressionWithoutName => "a column with a custom `dql` expression needs a name"
  | .needsPath kind => "`" ++ kind ++ "` column needs a field path"
  | .registeredTwice kind first second =>
    "unique column kind `" ++ kind ++ "` is registered twice (indexes " ++ toString first ++
      " and " ++ toString second ++ ")"
  | .expressionWithoutData index =>
    "column " ++ toString index ++ " has a custom expression but no data"

/-- Why a table is set up in a way that cannot be served. -/
inductive ConfigFailure where
  | path (cause : PathFailure)
  | sql (cause : SqlFailure)
  | options (cause : OptionFailure)
  | filter (cause : FilterFailure)
  | column (cause : ColumnFailure)
  /-- Pages are fetched ahead although paging is switched off. -/
  | pipelineWithoutPaging (table : String) (pages : Nat)
  | unknownTable (name : String)
  /-- A cause in the words of the table's owner. -/
  | told (text : String)
deriving Repr

/-- The wording of a failure of the set-up. -/
def ConfigFailure.message : ConfigFailure → String
  | .path cause => cause.message
  | .sql cause => cause.message
  | .options cause => cause.message
  | .filter cause => cause.message
  | .column cause => cause.message
  | .pipelineWithoutPaging table pages =>
    "table `" ++ table ++ "` pipelines " ++ toString pages ++ " pages but paging is disabled"
  | .unknownTable name => "unknown table `" ++ name ++ "`"
  | .told text => text

/-- Why a search value cannot be read. -/
inductive ParseFailure where
  | notARange (text : String)
  | notADate (text : String)
  /-- A cause in the words of the reader. -/
  | told (text : String)
deriving DecidableEq, Repr

/-- The wording of a failure to read a search value. -/
def ParseFailure.message : ParseFailure → String
  | .notARange text => "`" ++ text ++ "` is not a date range"
  | .notADate text => "`" ++ text ++ "` is not a date"
  | .told text => text

/-- Why a call fails. -/
inductive Failure where
  | schema (cause : SchemaFailure)
  | config (cause : ConfigFailure)
  | parse (cause : ParseFailure)
  | execution (text : String)
  | decoding (cause : Json.Fault)
  | internal (text : String)
deriving Repr

/-- The wording of a decoding fault, as far as the library has words for it. -/
def faultMessage? : Json.Fault → Option String
  | .malformed => none
  | .notAColumn => some "expected a column index"
  | .notADirection => some "expected `asc` or `desc`"

namespace Failure

/-- The wording of a failure; a malformed text has none. -/
def message? : Failure → Option String
  | .schema cause => some ("Schema error: " ++ cause.message)
  | .config cause => some ("Configuration error: " ++ cause.message)
  | .parse cause => some ("Parse error: " ++ cause.message)
  | .execution text => some ("Execution error: " ++ text)
  | .decoding cause => faultMessage? cause
  | .internal text => some ("Internal error: " ++ text)

/-- Search values that cannot be read are skipped; any other failure ends the request. -/
def isRecoverable : Failure → Bool
  | .parse _ => true
  | _ => false

end Failure

end TableQuery
