import TableQuery.Decimal.Binary64
import TableQuery.Text.Basic

/-! # Reading numbers

The grammar of decimal literals: an optional sign; digits with an optional point, at least one digit
on either side; and an optional power of ten. The words for infinity and for undefined results are
read in any case. Integers are an optional sign and digits. -/

namespace TableQuery.Decimal

/-- The natural number that digits stand for. -/
def digitsValue (cs : List Char) : Nat := cs.foldl (fun n c => 10 * n + (c.toNat - '0'.toNat)) 0

/-- An optional sign, true for minus, and the rest. -/
def takeSign : List Char → Bool × List Char
  | '-' :: cs => (true, cs)
  | '+' :: cs => (false, cs)
  | cs => (false, cs)

/-- The integer that a sign and digits stand for. -/
def signed (negative : Bool) (n : Nat) : Int := if negative then -(n : Int) else n

/-- The number nearest to `n * 10 ^ e`. Far outside the range of the format the answer is zero or
infinity at once. -/
def nearestScaled (negative : Bool) (n : Nat) (digits : Nat) (e : Int) : Binary64 :=
  if n = 0 ∨ (digits : Int) + e < -400 then ⟨negative, 0⟩
  else if 400 < e then ⟨negative, Binary64.infinityCode⟩
  else
    let p := Binary64.powerFraction 10 e
    Binary64.nearest negative (n * p.1) p.2

/-- The power of ten after the digits: nothing, or a mark, an optional sign and digits. -/
def readPower? : List Char → Option Int
  | [] => some 0
  | c :: cs =>
    if c = 'e' ∨ c = 'E' then
      let (negative, digits) := takeSign cs
      if digits.isEmpty || !digits.all Char.isDigit then none
      else some (signed negative (digitsValue digits))
    else none

/-- A literal without its sign. -/
def readMagnitude? (negative : Bool) (cs : List Char) : Option Binary64 :=
  let word := Text.asciiLower (String.ofList cs)
  if word = "inf" ∨ word = "infinity" then some ⟨negative, Binary64.infinityCode⟩
  else if word = "nan" then some ⟨negative, Binary64.infinityCode + Binary64.leadingBit / 2⟩
  else
    let whole := cs.takeWhile Char.isDigit
    let afterWhole := cs.dropWhile Char.isDigit
    let (part, rest) := match afterWhole with
      | '.' :: r => (r.takeWhile Char.isDigit, r.dropWhile Char.isDigit)
      | r => ([], r)
    let digits := whole ++ part
    if digits.isEmpty then none
    else (readPower? rest).map fun e =>
      nearestScaled negative (digitsValue digits) digits.length (e - part.length)

/-- The number that a decimal literal denotes. -/
def read? (s : String) : Option Binary64 :=
  let (negative, cs) := takeSign s.toList
  readMagnitude? negative cs

/-- The least integer of 64 bits. -/
def minInt64 : Int := -9223372036854775808

/-- The greatest integer of 64 bits. -/
def maxInt64 : Int := 9223372036854775807

/-- The greatest natural number of 64 bits. -/
def maxNat64 : Nat := 18446744073709551615

/-- Integers of 64 bits. -/
def isInt64 (i : Int) : Bool := minInt64 ≤ i && i ≤ maxInt64

/-- An integer literal of any size. -/
def readInt? (s : String) : Option Int :=
  let (negative, cs) := takeSign s.toList
  if cs.isEmpty || !cs.all Char.isDigit then none
  else some (signed negative (digitsValue cs))

/-- An integer literal in the range of 64 bits. -/
def readInt64? (s : String) : Option Int := (readInt? s).filter isInt64

/-- The nearest integer of 64 bits to an integer. -/
def clampInt64 (i : Int) : Int := max minInt64 (min maxInt64 i)

end TableQuery.Decimal
