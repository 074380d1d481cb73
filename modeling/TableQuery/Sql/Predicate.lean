import TableQuery.Sql.Fragment
import TableQuery.Sql.Target

/-! # Conditions of a query

Predicates compare a target with parameters. A group joins predicates by AND or by OR, and a
predicate may be a group itself, which then stands in parentheses. -/

namespace TableQuery

/-- Comparison operators. -/
inductive Comparison where
  | eq
  | neq
  | lt
  | lte
  | gt
  | gte
deriving DecidableEq, Repr

/-- The operator in an SQL text. -/
def Comparison.sql : Comparison → String
  | .eq => "="
  | .neq => "<>"
  | .lt => "<"
  | .lte => "<="
  | .gt => ">"
  | .gte => ">="

/-- How the predicates of a group are joined. -/
inductive Conjunction where
  | and
  | or
deriving DecidableEq, Repr

/-- The word between two predicates of a group. -/
def Conjunction.sql : Conjunction → String
  | .and => " AND "
  | .or => " OR "

/-- A condition on the rows of a query. -/
inductive Predicate where
  | compare (target : Target) (op : Comparison) (param : Param)
  | like (target : Target) (negated : Bool) (param : Param)
  | among (target : Target) (negated : Bool) (params : List Param)
  | between (target : Target) (low high : Param)
  | isNull (target : Target) (negated : Bool)
  /-- A condition of the table's author, used as it is written. -/
  | raw (sql : String)
  | group (conjunction : Conjunction) (items : List Predicate)
deriving Repr

/-- Predicates joined by AND or by OR. -/
structure Group where
  conjunction : Conjunction
  items : List Predicate
deriving Repr

namespace Predicate

mutual

/-- The parameters in the order of their appearance. -/
def params : Predicate → List Param
  | .compare _ _ param => [param]
  | .like _ _ param => [param]
  | .among _ _ params => params
  | .between _ low high => [low, high]
  | .isNull _ _ => []
  | .raw _ => []
  | .group _ items => itemParams items

/-- The parameters of predicates in order. -/
def itemParams : List Predicate → List Param
  | [] => []
  | p :: ps => params p ++ itemParams ps

end

/-- The text of a target and of an operator, with a blank after each. -/
def opening (target : Target) (operator : String) : Except SqlFailure Fragment := do
  let t ← target.sql
  pure (Fragment.ofText (t ++ " " ++ operator))

/-- An operator or its negation. -/
def orNot (negated : Bool) (operator negation : String) : String :=
  if negated then negation else operator

mutual

/-- The predicate in an SQL text. -/
def sql : Predicate → Except SqlFailure Fragment
  | .compare target op param => do
    let start ← opening target (op.sql ++ " ")
    pure (start ++ Fragment.ofParam param)
  | .like target negated param => do
    let start ← opening target (orNot negated "LIKE " "NOT LIKE ")
    pure (start ++ Fragment.ofParam param)
  | .among target negated params => do
    if params.isEmpty then throw (.emptyIn target.display)
    let start ← opening target (orNot negated "IN " "NOT IN ")
    pure (start ++ Fragment.inParens (Fragment.joined ", " (params.map Fragment.ofParam)))
  | .between target low high => do
    let start ← opening target "BETWEEN "
    pure (start ++ Fragment.ofParam low ++ Fragment.ofText " AND " ++ Fragment.ofParam high)
  | .isNull target negated => opening target (orNot negated "IS NULL" "IS NOT NULL")
  | .raw sql => .ok (Fragment.inParens (Fragment.ofAuthor sql))
  | .group conjunction items => do
    let parts ← itemsSql items
    pure (Fragment.inParens (Fragment.joined conjunction.sql parts))

/-- The predicates of a group in SQL texts. -/
def itemsSql : List Predicate → Except SqlFailure (List Fragment)
  | [] => .ok []
  | p :: ps => do
    let f ← sql p
    let fs ← itemsSql ps
    pure (f :: fs)

end

end Predicate

namespace Group

/-- A group of the predicates that all have to hold. -/
def all (items : List Predicate) : Group := ⟨.and, items⟩

/-- The group with one more predicate at the end. -/
def push (g : Group) (p : Predicate) : Group := { g with items := g.items ++ [p] }

/-- The parameters in the order of their appearance. -/
def params (g : Group) : List Param := Predicate.itemParams g.items

/-- The group in an SQL text, without parentheses. -/
def sql (g : Group) : Except SqlFailure Fragment := do
  let parts ← Predicate.itemsSql g.items
  pure (Fragment.joined g.conjunction.sql parts)

end Group

end TableQuery
