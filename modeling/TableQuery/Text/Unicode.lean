import TableQuery.Text.CaseTable
import TableQuery.Text.WordTable

/-! # Properties of characters

The properties that the Unicode standard assigns to characters are kept as lists of closed ranges
of code points, lowest first. From them come the characters of words and the lower case of a
text. -/

namespace TableQuery.Text

/-- Membership of a character in a list of closed ranges of code points. -/
def inRanges (ranges : List (Nat × Nat)) (c : Char) : Bool :=
  ranges.any fun r => r.1 ≤ c.toNat && c.toNat ≤ r.2

/-! ### Words

A word character is a letter, mark, decimal digit, connector punctuation or join control.
Placeholders of expressions are runs of word characters, and a word boundary is a place where a word
character meets another character or the end of the text. -/

/-- Word characters: ASCII letters, digits and the underscore, and the listed ranges. -/
def isWord (c : Char) : Bool := c.isAlphanum || c == '_' || inRanges wordRanges c

/-- A word boundary lies between `before` and `after` iff exactly one of them is a word character;
`none` stands for an end of the text. -/
def isWordBoundary (before after : Option Char) : Bool :=
  before.any isWord != after.any isWord

/-! ### Lower case

The full lower-case mapping. Two characters do not map one to one: the capital I with a dot becomes
two characters, and a capital sigma at the end of a word takes its final form. -/

/-- The lower-case letter that a run assigns to a code point, if the point belongs to the run. -/
def CaseRun.lower? (r : CaseRun) (n : Nat) : Option Char :=
  if r.first ≤ n ∧ n ≤ r.last ∧ (n - r.first) % r.step = 0 then
    some (Char.ofNat (n + r.shift).toNat)
  else none

/-- The lower-case form of one character by itself. -/
def lowerChar (c : Char) : List Char :=
  if c.toNat < 0x80 then [c.toLower]
  else if c.toNat = 0x130 then ['i', '\u0307']
  else [(lowerRuns.findSome? fun r => r.lower? c.toNat).getD c]

/-- Letters that have case. -/
def isCased (c : Char) : Bool := c.isAlpha || inRanges casedRanges c

/-- Characters that do not interrupt a word when the form of a sigma is decided. -/
def isCaseIgnorable (c : Char) : Bool :=
  c == '\x27' || c == '.' || c == ':' || c == '^' || c == '\x60' ||
    inRanges caseIgnorableRanges c

/-- Whether the first character that counts is a cased letter. -/
def meetsCased (cs : List Char) : Bool :=
  match cs.dropWhile isCaseIgnorable with
  | c :: _ => isCased c
  | [] => false

/-- Lower case of the characters after `before`, which is given in reverse. -/
def lowerFrom (before : List Char) : List Char → List Char
  | [] => []
  | c :: cs =>
    let here :=
      if c = 'Σ' then
        if meetsCased before && !meetsCased cs then ['ς'] else ['σ']
      else lowerChar c
    here ++ lowerFrom (c :: before) cs

/-- Lower case of a text. -/
def lowercase (s : String) : String := String.ofList (lowerFrom [] s.toList)

end TableQuery.Text
