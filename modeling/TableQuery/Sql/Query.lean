import TableQuery.Sql.Predicate
import TableQuery.Sql.SelectItem
import TableQuery.Sql.JoinCondition

/-! # Queries

A query is a value. Every operation gives a changed query and leaves the one it started from as it
was, so that a page query and its counts are made from one base. -/

namespace TableQuery

/-- How a table is joined. -/
inductive JoinKind where
  | left
  | inner
deriving DecidableEq, Repr

/-- The join in an SQL text. -/
def JoinKind.sql : JoinKind → String
  | .left => "LEFT JOIN"
  | .inner => "INNER JOIN"

/-- The direction of an order. -/
inductive Direction where
  | asc
  | desc
deriving DecidableEq, Repr

/-- The direction in an SQL text. -/
def Direction.sql : Direction → String
  | .asc => "ASC"
  | .desc => "DESC"

/-- A joined table. -/
structure Join where
  kind : JoinKind
  table : String
  aliasName : String
  /-- The conditions, which all have to hold. -/
  on : List JoinCondition
deriving DecidableEq, Repr

/-- A term of an order. -/
structure OrderTerm where
  target : Target
  direction : Direction
deriving DecidableEq, Repr

/-- A query on a table. -/
structure Query where
  table : String
  aliasName : String
  /-- The select list; empty for all columns of the table. -/
  select : List SelectItem := []
  joins : List Join := []
  /-- The groups of conditions, which all have to hold. -/
  filters : List Group := []
  groupBy : List Target := []
  orderBy : List OrderTerm := []
  limit : Option Nat := none
  offset : Option Nat := none
deriving Repr

namespace Query

/-! ### Building -/

/-- The query with another select list. -/
def withSelect (q : Query) (items : List SelectItem) : Query := { q with select := items }

/-- The query with one more item at the end of the select list. -/
def addSelect (q : Query) (item : SelectItem) : Query := { q with select := q.select ++ [item] }

/-- The query with one more joined table, which needs a condition. -/
def join (q : Query) (j : Join) : Except SqlFailure Query :=
  if j.on.isEmpty then .error (.joinWithoutCondition j.table j.aliasName)
  else .ok { q with joins := q.joins ++ [j] }

/-- The query with one more group of conditions; an empty group is left out. -/
def filter (q : Query) (g : Group) : Query :=
  if g.items.isEmpty then q else { q with filters := q.filters ++ [g] }

/-- The query with one more condition of the table's author. -/
def filterRaw (q : Query) (sql : String) : Query := q.filter (Group.all [.raw sql])

/-- The query with one more term of its grouping. -/
def addGroupBy (q : Query) (target : Target) : Query := { q with groupBy := q.groupBy ++ [target] }

/-- The query with one more term of its order. -/
def addOrderBy (q : Query) (target : Target) (direction : Direction) : Query :=
  { q with orderBy := q.orderBy ++ [⟨target, direction⟩] }

/-- The query without an order. -/
def resetOrderBy (q : Query) : Query := { q with orderBy := [] }

/-- The query with at most `count` rows. -/
def withLimit (q : Query) (count : Nat) : Query := { q with limit := some count }

/-- The query without its first `count` rows. -/
def withOffset (q : Query) (count : Nat) : Query := { q with offset := some count }

/-- Grouped queries. -/
def isGrouped (q : Query) : Bool := !q.groupBy.isEmpty

/-! ### The SQL text -/

/-- The select list. -/
def selectSql (q : Query) : Except SqlFailure String :=
  if q.select.isEmpty then (SelectItem.column (some q.aliasName) "*" none).sql
  else do
    let items ← q.select.mapM SelectItem.sql
    pure (", ".intercalate items)

/-- A joined table. -/
def joinSql (j : Join) : Except SqlFailure String := do
  let table ← quoteIdentifier j.table
  let name ← quoteIdentifier j.aliasName
  let on ← j.on.mapM JoinCondition.sql
  pure (" " ++ j.kind.sql ++ " " ++ table ++ " AS " ++ name ++ " ON " ++ " AND ".intercalate on)

/-- The part up to the conditions. -/
def headSql (q : Query) : Except SqlFailure String := do
  checkPath q.table
  let select ← q.selectSql
  let table ← quoteIdentifier q.table
  let name ← quoteIdentifier q.aliasName
  let joins ← q.joins.mapM joinSql
  pure ("SELECT " ++ select ++ " FROM " ++ table ++ " AS " ++ name ++ String.join joins)

/-- One of several groups: in parentheses if it has more than one predicate. -/
def groupSql (several : Bool) (g : Group) : Except SqlFailure Fragment := do
  let f ← g.sql
  pure (if several && 1 < g.items.length then f.inParens else f)

/-- The conditions. -/
def whereSql (q : Query) : Except SqlFailure Fragment :=
  if q.filters.isEmpty then .ok []
  else do
    let parts ← q.filters.mapM (groupSql (1 < q.filters.length))
    pure (.plain " WHERE " :: Fragment.joined " AND " parts)

/-- A term of the order. -/
def orderSql (t : OrderTerm) : Except SqlFailure String := do
  let target ← t.target.sql
  pure (target ++ " " ++ t.direction.sql)

/-- A list of terms after a keyword, and nothing for no terms. -/
def clauseSql {α : Type} (keyword : String) (sql : α → Except SqlFailure String) (terms : List α) :
    Except SqlFailure String :=
  if terms.isEmpty then .ok ""
  else do
    let texts ← terms.mapM sql
    pure (keyword ++ ", ".intercalate texts)

/-- The window. The database knows no offset without a limit, so the greatest one is given. -/
def windowSql (q : Query) : String :=
  let limit := match q.limit, q.offset with
    | some count, _ => " LIMIT " ++ toString count
    | none, some _ => " LIMIT " ++ toString Decimal.maxNat64
    | none, none => ""
  let offset := match q.offset with
    | some count => " OFFSET " ++ toString count
    | none => ""
  limit ++ offset

/-- The query as SQL. -/
def sql (q : Query) : Except SqlFailure Fragment := do
  let head ← q.headSql
  let conditions ← q.whereSql
  let grouping ← clauseSql " GROUP BY " Target.sql q.groupBy
  let order ← clauseSql " ORDER BY " orderSql q.orderBy
  pure (.plain head :: conditions ++ [.plain (grouping ++ order ++ q.windowSql)])

/-- The query in diagnostics. -/
def display (q : Query) : String :=
  match q.sql with
  | .ok f => "Query: " ++ f.text
  | .error e => "Query: <error: " ++ e.message ++ ">"

end Query

end TableQuery
