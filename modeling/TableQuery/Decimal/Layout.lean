import TableQuery.Decimal.Shortest

/-! # Where the point stands

The digits of a number are laid out positionally, or with one digit before the point and a power of
ten. A `Layout` says which, and how a whole number ends. -/

namespace TableQuery.Decimal

/-- The choices of a number format. -/
structure Layout where
  /-- Which of two equally near digit strings is written. -/
  tie : Tie
  /-- Whether a whole number ends in `.0`. -/
  pointZero : Bool
  /-- The least and greatest position of the point that is written positionally; without bounds
  every number is. -/
  window : Option (Int × Int)

/-- Search values stand in texts without a power of ten and without a fraction of zero. -/
def Layout.plain : Layout := ⟨.up, false, none⟩

/-- JSON texts show at least one decimal, and a power of ten from `1e16` on and below `1e-5`. -/
def Layout.json : Layout := ⟨.toEven, true, some (-4, 16)⟩

/-- The digits around a point that stands after `position` of them. -/
def positional (pointZero : Bool) (digits : List Char) (position : Int) : List Char :=
  if position ≤ 0 then
    ['0', '.'] ++ List.replicate (-position).toNat '0' ++ digits
  else if (digits.length : Int) ≤ position then
    digits ++ List.replicate (position.toNat - digits.length) '0' ++
      (if pointZero then ['.', '0'] else [])
  else digits.take position.toNat ++ '.' :: digits.drop position.toNat

/-- One digit, the point, the other digits and the power of ten. -/
def scientific (digits : List Char) (position : Int) : List Char :=
  let rest := digits.drop 1
  digits.take 1 ++ (if rest.isEmpty then [] else '.' :: rest) ++
    'e' :: (toString (position - 1)).toList

/-- The text of a finite magnitude. -/
def Layout.magnitude (l : Layout) (x : Binary64) : List Char :=
  if x.code = 0 then if l.pointZero then ['0', '.', '0'] else ['0']
  else
    let d := shortest l.tie x
    let digits := Nat.toDigits 10 d.value
    let position := (digits.length : Int) + d.exponent
    match l.window with
    | none => positional l.pointZero digits position
    | some (least, greatest) =>
      if least ≤ position ∧ position ≤ greatest then positional l.pointZero digits position
      else scientific digits position

/-- The text of a number; an undefined result has no sign. -/
def Layout.text (l : Layout) (x : Binary64) : String :=
  if x.isUndefined then "NaN"
  else
    let body := if x.isFinite then l.magnitude x else ['i', 'n', 'f']
    String.ofList (if x.negative then '-' :: body else body)

end TableQuery.Decimal
