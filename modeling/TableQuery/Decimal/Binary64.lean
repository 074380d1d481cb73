/-! # Binary floating-point numbers of 64 bits

A number is its sign and its magnitude code: the exponent field and the fraction read as one natural
number. Codes grow with the magnitude, so the code of zero is 0, infinity is the first code that is
not finite, and the codes beyond it are no numbers. All arithmetic is done on exact fractions of
natural numbers and rounded once, to nearest with ties to the even code. -/

namespace TableQuery

/-- A 64-bit floating-point number. -/
structure Binary64 where
  negative : Bool
  /-- The other 63 bits: exponent field and fraction. -/
  code : Nat
deriving DecidableEq, Repr, Inhabited

namespace Binary64

/-- Two to the power 52, the leading bit of a significand in full. -/
def leadingBit : Nat := 4503599627370496

/-- The code of infinity. -/
def infinityCode : Nat := 2047 * leadingBit

/-- Neither infinite nor undefined. -/
def isFinite (x : Binary64) : Bool := x.code < infinityCode

/-- Not a number. -/
def isUndefined (x : Binary64) : Bool := infinityCode < x.code

/-- The integer that is scaled by a power of two. -/
def significand (x : Binary64) : Nat :=
  if x.code < leadingBit then x.code else leadingBit + x.code % leadingBit

/-- The power of two that scales the significand. -/
def power (x : Binary64) : Int :=
  if x.code < leadingBit then -1074 else (x.code / leadingBit : Nat) - 1075

/-- A power of a base as a fraction. -/
def powerFraction (base : Nat) (e : Int) : Nat × Nat :=
  if 0 ≤ e then (Nat.pow base e.toNat, 1) else (1, Nat.pow base (-e).toNat)

/-- The magnitude as a fraction. -/
def fraction (x : Binary64) : Nat × Nat :=
  let p := powerFraction 2 x.power
  (x.significand * p.1, p.2)

/-- The quotient rounded to the nearest integer, a tie to the even one. -/
def divHalfEven (num den : Nat) : Nat :=
  let q := num / den
  let r := num % den
  if 2 * r < den then q
  else if den < 2 * r then q + 1
  else q + q % 2

/-- The integer part of the binary logarithm of a positive fraction. -/
def logTwo (num den : Nat) : Int :=
  let guess : Int := (num.log2 : Int) - den.log2
  let p := powerFraction 2 guess
  if num * p.2 < den * p.1 then guess - 1 else guess

/-- The code of the number nearest to a fraction. -/
def nearestCode (num den : Nat) : Nat :=
  if num = 0 then 0
  else
    let step : Int := max (logTwo num den - 52) (-1074)
    let p := powerFraction 2 step
    let m := divHalfEven (num * p.2) (den * p.1)
    min infinityCode ((step + 1074).toNat * leadingBit + m)

/-- The number nearest to a fraction with a sign. -/
def nearest (negative : Bool) (num den : Nat) : Binary64 := ⟨negative, nearestCode num den⟩

/-- The number nearest to an integer. -/
def ofInt (i : Int) : Binary64 := nearest (decide (i < 0)) i.natAbs 1

/-- The rounded product of two magnitudes, with the sign of the first. -/
def mul (x y : Binary64) : Binary64 :=
  nearest x.negative (x.fraction.1 * y.fraction.1) (x.fraction.2 * y.fraction.2)

/-- The rounded quotient of two magnitudes, with the sign of the first. -/
def div (x y : Binary64) : Binary64 :=
  nearest x.negative (x.fraction.1 * y.fraction.2) (x.fraction.2 * y.fraction.1)

/-- Equality as numbers: the two zeros are equal, and an undefined result equals nothing. -/
def sameNumber (x y : Binary64) : Bool :=
  !x.isUndefined && (x == y || (x.code == 0 && y.code == 0))

/-- The integer part of a finite number. -/
def truncate (x : Binary64) : Int :=
  let whole : Int := (x.fraction.1 / x.fraction.2 : Nat)
  if x.negative then -whole else whole

end Binary64

end TableQuery
