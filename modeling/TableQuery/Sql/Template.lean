import TableQuery.Text.Unicode

/-! # Expressions with placeholders

A table's author writes an expression with placeholders, words in braces that stand for aliases. The
selected form of the expression has the bare words; the searched form has the words with a suffix,
so that a sub-select that is searched never shadows the one that is selected. Placeholders are found
from left to right and do not overlap. -/

namespace TableQuery

/-- A part of an expression. -/
inductive TemplatePart where
  | char (c : Char)
  | hole (word : List Char)
deriving DecidableEq, Repr

namespace Template

/-- The word of a placeholder whose opening brace is before the text, and what follows it. -/
def hole? (cs : List Char) : Option (List Char × List Char) :=
  let word := cs.takeWhile Text.isWord
  match cs.dropWhile Text.isWord with
  | '\x7d' :: rest => if word.isEmpty then none else some (word, rest)
  | _ => none

theorem hole?_length {cs word rest : List Char} (h : hole? cs = some (word, rest)) :
    rest.length < cs.length := by
  have hd := (List.dropWhile_sublist Text.isWord (l := cs)).length_le
  simp only [hole?] at h
  split at h
  · next r hr =>
    split at h
    · cases h
    · cases h
      rw [hr] at hd
      simp only [List.length_cons] at hd
      omega
  · cases h

/-- The parts of an expression. -/
def parts : List Char → List TemplatePart
  | [] => []
  | c :: cs =>
    if c = '\x7b' then
      match _h : hole? cs with
      | some (word, rest) => .hole word :: parts rest
      | none => .char c :: parts cs
    else .char c :: parts cs
termination_by cs => cs.length
decreasing_by
  · have := hole?_length ‹_›
    simp only [List.length_cons]
    omega
  · simp
  · simp

/-- A part in an SQL text, where the word of a placeholder is followed by a suffix. -/
def expandPart (suffix : List Char) : TemplatePart → List Char
  | .char c => [c]
  | .hole word => word ++ suffix

/-- An expression with its placeholders filled in. -/
def expand (suffix : String) (sql : String) : String :=
  String.ofList ((parts sql.toList).flatMap (expandPart suffix.toList))

/-- The selected form of an expression. -/
def selected (sql : String) : String := expand "" sql

/-- The searched form of an expression. -/
def searched (sql : String) : String := expand "_search" sql

end Template

end TableQuery
