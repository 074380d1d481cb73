import TableQuery.Failure
import TableQuery.Text.Basic

/-! # Identifiers

An identifier is an ASCII letter or underscore followed by ASCII letters, digits and underscores. A
path is one identifier or more, joined by dots. Identifiers enter an SQL text between backticks. -/

namespace TableQuery

/-- Characters that begin an identifier. -/
def isIdentifierStart (c : Char) : Bool := c.isAlpha || c == '_'

/-- Characters that continue an identifier. -/
def isIdentifierChar (c : Char) : Bool := c.isAlphanum || c == '_'

/-- Identifiers, as characters. -/
def isIdentifierChars : List Char → Bool
  | [] => false
  | c :: cs => isIdentifierStart c && cs.all isIdentifierChar

/-- Identifiers. -/
def isIdentifier (s : String) : Bool := isIdentifierChars s.toList

/-- Paths of identifiers. -/
def isIdentifierPath (path : String) : Bool := (Text.piecesOf '.' path).all isIdentifier

/-- Refuses a segment of a path that is no identifier. -/
def checkSegment (path segment : String) : Except SqlFailure Unit :=
  if segment.isEmpty then .error (.emptySegment path)
  else if isIdentifier segment then .ok ()
  else .error (.badSegment segment path)

/-- Refuses all but paths of identifiers. -/
def checkPath (path : String) : Except SqlFailure Unit :=
  if path.isEmpty then .error .emptyIdentifier
  else (Text.piecesOf '.' path).forM (checkSegment path)

/-- A name between backticks. -/
def backticked (name : String) : String := "`" ++ name ++ "`"

/-- One identifier between backticks. -/
def quoteIdentifier (name : String) : Except SqlFailure String := do
  checkPath name
  if name.toList.contains '.' then throw (.notSingle name)
  pure (backticked name)

/-- Each identifier of a path between backticks. -/
def quotePath (path : String) : Except SqlFailure String := do
  checkPath path
  pure (".".intercalate ((Text.piecesOf '.' path).map backticked))

end TableQuery
