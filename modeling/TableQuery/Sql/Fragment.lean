import TableQuery.Sql.Value

/-! # SQL texts with parameters

A fragment of SQL is a list of plain texts, of conditions that the table's author wrote and of
parameters. Its text has a question mark in the place of each parameter, and its parameters are read
off in the same order, so that the database finds the k-th value at the k-th mark. -/

namespace TableQuery

/-- A piece of an SQL text. -/
inductive SqlPiece where
  | plain (text : String)
  /-- A condition of the table's author, used as it is written. -/
  | author (text : String)
  | mark (param : Param)
deriving DecidableEq, Repr

/-- The text of a piece. -/
def SqlPiece.text : SqlPiece → String
  | .plain text => text
  | .author text => text
  | .mark _ => "?"

/-- The parameter of a piece. -/
def SqlPiece.param? : SqlPiece → Option Param
  | .plain _ => none
  | .author _ => none
  | .mark param => some param

/-- A fragment of SQL. -/
abbrev Fragment := List SqlPiece

namespace Fragment

/-- Plain text as a fragment. -/
def ofText (s : String) : Fragment := [.plain s]

/-- A condition of the table's author as a fragment. -/
def ofAuthor (s : String) : Fragment := [.author s]

/-- A parameter as a fragment. -/
def ofParam (p : Param) : Fragment := [.mark p]

/-- The text that the database reads. -/
def text (f : Fragment) : String := String.join (f.map SqlPiece.text)

/-- The parameters in the order of their marks. -/
def binds (f : Fragment) : List Param := f.filterMap SqlPiece.param?

/-- Fragments one after the other, with a text between each two. -/
def joined (sep : String) : List Fragment → Fragment
  | [] => []
  | [f] => f
  | f :: g :: rest => f ++ .plain sep :: joined sep (g :: rest)

/-- A fragment in parentheses. -/
def inParens (f : Fragment) : Fragment := .plain "(" :: f ++ [.plain ")"]

theorem binds_append (f g : Fragment) : binds (f ++ g) = binds f ++ binds g := by
  simp [binds]

end Fragment

end TableQuery
