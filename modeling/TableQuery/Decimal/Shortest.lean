import TableQuery.Decimal.Binary64

/-! # The fewest digits that read back

A finite number is written with the fewest decimal digits that identify it. The reals that round to
the number form an interval, its ends included iff the significand is even. For one digit, two
digits and so on, the two neighbours of the number on that decimal grid are tested against the
interval; the first grid with a hit decides, and of two hits the nearer one. -/

namespace TableQuery.Decimal

/-- The decimal number `value * 10 ^ exponent`. -/
structure Digits where
  value : Nat
  exponent : Int
deriving DecidableEq, Repr

/-- Which of two equally near candidates is written. -/
inductive Tie where
  | up
  | toEven
deriving DecidableEq, Repr

/-- The number of decimal digits. -/
def digitCount (n : Nat) : Nat := (Nat.toDigits 10 n).length

/-- How many digits stand before the decimal point of a positive fraction, negative when zeros
follow the point. The fraction is scaled so that its integer part is not lost. -/
def pointPosition (num den : Nat) : Int := (digitCount (num * Nat.pow 10 400 / den) : Int) - 400

/-- The reals that round to a number, measured in quarters of the last binary place. -/
structure Rounding where
  centre : Nat
  low : Nat
  high : Nat
  closed : Bool

/-- The interval of reals that round to `x`. The gap below a power of two is half as wide. -/
def Rounding.of (x : Binary64) : Rounding :=
  let m := x.significand
  { centre := 4 * m
    low := if m = Binary64.leadingBit ∧ -1074 < x.power then 4 * m - 1 else 4 * m - 2
    high := 4 * m + 2
    closed := m % 2 = 0 }

/-- Whether the fraction `num / den`, in the interval's measure, belongs to the interval. -/
def Rounding.contains (r : Rounding) (num den : Nat) : Bool :=
  if r.closed then r.low * den ≤ num && num ≤ r.high * den
  else r.low * den < num && num < r.high * den

/-- Of the two neighbours on the grid of `10 ^ exponent`, the one to write, if any reads back. -/
def neighbour? (tie : Tie) (x : Binary64) (exponent : Int) : Option Digits :=
  let r := Rounding.of x
  let ten := Binary64.powerFraction 10 exponent
  let two := Binary64.powerFraction 2 (x.power - 2)
  -- one grid step is `num / den` quarters
  let num := ten.1 * two.2
  let den := ten.2 * two.1
  let below := r.centre * den / num
  let above := below + 1
  let distBelow := r.centre * den - below * num
  let distAbove := above * num - r.centre * den
  let takeAbove :=
    if r.contains (below * num) den then
      r.contains (above * num) den &&
        (distAbove < distBelow ||
          (distAbove == distBelow && (tie == .up || below % 2 == 1)))
    else r.contains (above * num) den
  if takeAbove then some ⟨above, exponent⟩
  else if r.contains (below * num) den then some ⟨below, exponent⟩
  else none

/-- The digits without trailing zeros, at most `fuel` of them removed. -/
def stripZeros : Nat → Digits → Digits
  | 0, d => d
  | fuel + 1, d =>
    if d.value ≠ 0 ∧ d.value % 10 = 0 then stripZeros fuel ⟨d.value / 10, d.exponent + 1⟩ else d

/-- The fewest digits that read back as the finite number `x`, whose sign is left out. Seventeen
digits always do. -/
def shortest (tie : Tie) (x : Binary64) : Digits :=
  if x.code = 0 then ⟨0, 0⟩
  else
    let position := pointPosition x.fraction.1 x.fraction.2
    match (List.range 17).findSome? fun i => neighbour? tie x (position - (i + 1 : Nat)) with
    | some d => stripZeros 20 d
    | none => ⟨x.significand, 0⟩

end TableQuery.Decimal
