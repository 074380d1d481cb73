/-! # What a page query selects

Of every table in the query some fields are selected, in the order in which they were first asked
for, and beside them the expressions of the table's author. A selected field comes back under a
label made of its alias and its name. -/

namespace TableQuery

/-- An entry of the selection. -/
inductive SelectionEntry where
  | fields (aliasName : String) (names : List String)
  /-- An expression under a label of its own. -/
  | raw (sql aliasName : String)
deriving DecidableEq, Repr

/-- The entries of the selection in order. -/
abbrev Selection := List SelectionEntry

namespace Selection

/-- A name at the end of a list that does not have it. -/
def addName (names : List String) (name : String) : List String :=
  if names.contains name then names else names ++ [name]

/-- Selects a field, beside the other fields of its table. -/
def addField (s : Selection) (aliasName field : String) : Selection :=
  match s with
  | [] => [.fields aliasName [field]]
  | .fields a names :: rest =>
    if a = aliasName then .fields a (addName names field) :: rest
    else .fields a names :: addField rest aliasName field
  | entry :: rest => entry :: addField rest aliasName field

/-- Selects an expression unless it is selected already. -/
def addRaw (s : Selection) (sql aliasName : String) : Selection :=
  if s.contains (.raw sql aliasName) then s else s ++ [.raw sql aliasName]

/-- The fields of the table with an alias. -/
def fieldsOf? (s : Selection) (aliasName : String) : Option (List String) :=
  s.findSome? fun
    | .fields a names => if a = aliasName then some names else none
    | .raw _ _ => none

/-- The labels of the expressions. -/
def rawAliases (s : Selection) : List String :=
  s.filterMap fun
    | .raw _ aliasName => some aliasName
    | .fields _ _ => none

end Selection

/-- The label under which a field of a table comes back. -/
def fieldLabel (aliasName field : String) : String := aliasName ++ "__" ++ field

end TableQuery
