import TableQuery.Text.Basic

/-! # Types of fields

The type of a field decides how a search value is read and which filter a column has by default. -/

namespace TableQuery

/-- The type of a field. -/
inductive FieldType where
  | string
  | text
  | integer
  | smallint
  | bigint
  | decimal
  | float
  | boolean
  | date
  | datetime
  | time
  | json
  /-- Any other type, by its name in lower case. -/
  | other (name : String)
deriving DecidableEq, Repr

namespace FieldType

/-- Types whose search values are decimal numbers. -/
def isFloating : FieldType → Bool
  | .decimal | .float => true
  | _ => false

/-- Types whose search values are integers. -/
def isIntegral : FieldType → Bool
  | .integer | .smallint | .bigint | .boolean => true
  | _ => false

/-- Types of dates and times. -/
def isTemporal : FieldType → Bool
  | .date | .datetime | .time => true
  | _ => false

/-- Types that have no constructor of their own. -/
def isOther : FieldType → Bool
  | .other _ => true
  | _ => false

/-- The name of a type. -/
def name : FieldType → String
  | .string => "string"
  | .text => "text"
  | .integer => "integer"
  | .smallint => "smallint"
  | .bigint => "bigint"
  | .decimal => "decimal"
  | .float => "float"
  | .boolean => "boolean"
  | .date => "date"
  | .datetime => "datetime"
  | .time => "time"
  | .json => "json"
  | .other name => name

/-- The type of a name in lower case. -/
def ofLower : String → FieldType
  | "string" | "varchar" => .string
  | "text" => .text
  | "integer" | "int" => .integer
  | "smallint" => .smallint
  | "bigint" => .bigint
  | "decimal" => .decimal
  | "float" | "double" => .float
  | "boolean" | "bool" => .boolean
  | "date" | "date_immutable" => .date
  | "datetime" | "datetime_immutable" | "datetimetz" => .datetime
  | "time" | "time_immutable" => .time
  | "json" => .json
  | name => .other name

/-- The type of a name in any case, with blanks allowed around it. -/
def ofText (text : String) : FieldType := ofLower (Text.asciiLower (Text.trim text))

end FieldType

end TableQuery
