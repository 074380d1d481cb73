import TableQuery.Decimal.Binary64
import TableQuery.Keyed

/-! # JSON values

Numbers are integers of 64 bits, signed or unsigned, or floating-point numbers, and the two kinds
are never equal. Objects are maps in key order. -/

namespace TableQuery

/-- A JSON number. -/
inductive Number where
  | int (value : Int)
  | float (value : Binary64)
deriving DecidableEq, Repr

/-- Equality of numbers of one kind. -/
def Number.same : Number → Number → Bool
  | .int i, .int j => i == j
  | .float x, .float y => x.sameNumber y
  | _, _ => false

/-- The nearest floating-point number. -/
def Number.toBinary64 : Number → Binary64
  | .int i => Binary64.ofInt i
  | .float x => x

/-- A JSON value. -/
inductive Json where
  | null
  | bool (value : Bool)
  | num (value : Number)
  | str (value : String)
  | arr (items : List Json)
  /-- An object, its members in key order. -/
  | obj (members : List (String × Json))
deriving Repr, Inhabited

/-- The members of an object. -/
abbrev Record := Keyed Json

namespace Json

/-- An integer as a value. -/
def int (i : Int) : Json := .num (.int i)

/-- A natural number as a value. -/
def nat (n : Nat) : Json := .num (.int n)

/-- A text or nothing. -/
def text? (s : Option String) : Json := s.elim .null .str

/-- The object of the pairs, where a later pair replaces an earlier one with its key. -/
def object (pairs : List (String × Json)) : Json := .obj (Keyed.ofPairs pairs)

mutual

/-- Equality of values. -/
def same : Json → Json → Bool
  | .null, .null => true
  | .bool a, .bool b => a == b
  | .num a, .num b => a.same b
  | .str a, .str b => a == b
  | .arr a, .arr b => sameItems a b
  | .obj a, .obj b => sameMembers a b
  | _, _ => false

/-- Equality of lists of values. -/
def sameItems : List Json → List Json → Bool
  | [], [] => true
  | a :: as, b :: bs => same a b && sameItems as bs
  | _, _ => false

/-- Equality of members in key order. -/
def sameMembers : List (String × Json) → List (String × Json) → Bool
  | [], [] => true
  | (k, a) :: as, (l, b) :: bs => k == l && same a b && sameMembers as bs
  | _, _ => false

end

/-- The value without content. -/
def isNull : Json → Bool
  | .null => true
  | _ => false

/-- The truth value. -/
def asBool? : Json → Option Bool
  | .bool b => some b
  | _ => none

/-- The text. -/
def asText? : Json → Option String
  | .str s => some s
  | _ => none

/-- The integer. -/
def asInt? : Json → Option Int
  | .num (.int i) => some i
  | _ => none

/-- The number, as a floating-point number. -/
def asBinary64? : Json → Option Binary64
  | .num n => some n.toBinary64
  | _ => none

/-- The members of an object. -/
def asRecord? : Json → Option Record
  | .obj members => some members
  | _ => none

/-- The member of an object under a key. -/
def get? (j : Json) (key : String) : Option Json := j.asRecord?.bind fun r => Keyed.get? r key

end Json

end TableQuery
