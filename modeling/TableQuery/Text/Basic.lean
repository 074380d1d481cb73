/-! # Reading texts

Texts that people type are read without the blanks around them and cut at separators. Keywords,
operators and type names are compared without regard to the case of the ASCII letters; all other
characters stand for themselves. -/

namespace TableQuery.Text

/-! ### ASCII letters -/

/-- Lower case of the ASCII letters. -/
def asciiLower (s : String) : String := String.ofList (s.toList.map Char.toLower)

/-- Equality up to the case of ASCII letters. -/
def eqIgnoringCase (s t : String) : Bool := asciiLower s == asciiLower t

/-! ### Blanks -/

/-- The 25 characters with the property `White_Space`. -/
def isBlank (c : Char) : Bool :=
  let n := c.toNat
  (0x09 ≤ n && n ≤ 0x0d) || n == 0x20 || n == 0x85 || n == 0xa0 || n == 0x1680 ||
    (0x2000 ≤ n && n ≤ 0x200a) || n == 0x2028 || n == 0x2029 || n == 0x202f || n == 0x205f ||
    n == 0x3000

/-- The characters without the leading blanks. -/
def trimLeft (cs : List Char) : List Char := cs.dropWhile isBlank

/-- The characters without the trailing blanks. -/
def trimRight (cs : List Char) : List Char := (cs.reverse.dropWhile isBlank).reverse

/-- The characters without the blanks at both ends. -/
def trimChars (cs : List Char) : List Char := trimRight (trimLeft cs)

/-- The text without the blanks at both ends. -/
def trim (s : String) : String := String.ofList (trimChars s.toList)

/-- A text of blanks only. -/
def isBlankText (s : String) : Bool := s.toList.all isBlank

/-- The maximal runs of characters that are no blanks. -/
def blankPieces (cs : List Char) : List (List Char) :=
  (cs.splitOnP isBlank).filter fun piece => !piece.isEmpty

theorem toList_trim (s : String) : (trim s).toList = trimChars s.toList := by
  simp [trim]

/-! ### Cutting

A separator is cut at its first occurrence (`cutAt`), at its last (`cutAtLast`) or at every one
(`piecesOf`, and `List.splitOn` for one character). The separator itself belongs to neither side. -/

/-- The two sides of the first occurrence of `sep`. -/
def cutAt (sep : List Char) : List Char → Option (List Char × List Char)
  | [] => if sep.isEmpty then some ([], []) else none
  | c :: cs =>
    match sep.isPrefixOf? (c :: cs) with
    | some rest => some ([], rest)
    | none => (cutAt sep cs).map fun sides => (c :: sides.1, sides.2)

/-- The two sides of the last occurrence of `sep`, a single character. -/
def cutAtLast (sep : Char) (cs : List Char) : Option (List Char × List Char) :=
  (cutAt [sep] cs.reverse).map fun sides => (sides.2.reverse, sides.1.reverse)

/-- The two sides of the first occurrence of `sep` in a text. -/
def cutText (sep s : String) : Option (String × String) :=
  (cutAt sep.toList s.toList).map fun sides => (String.ofList sides.1, String.ofList sides.2)

/-- The pieces of a text between the occurrences of one character. -/
def piecesOf (sep : Char) (s : String) : List String :=
  (s.toList.splitOn sep).map String.ofList

/-- Every occurrence of one character replaced by a text. -/
def replaceChar (c : Char) (by_ : List Char) (cs : List Char) : List Char :=
  cs.flatMap fun d => if d = c then by_ else [d]

end TableQuery.Text
