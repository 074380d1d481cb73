import TableQuery.Json.Basic
import TableQuery.Decimal.Literal

/-! # JSON texts as written

A text is read into the values it writes down, in the order of the text and as far as its grammar is
kept. Lists and objects that the text leaves unfinished are kept with what they hold, so that a
decoder meets the faults of a text in the order in which they stand. Members may repeat a key. -/

namespace TableQuery.Json

/-- A value as a text writes it down. -/
inductive Written where
  | null
  | bool (value : Bool)
  /-- A number, if it is in range. -/
  | num (value : Option Number)
  /-- A text, if its escapes stand for characters. -/
  | str (value : Option String)
  | arr (items : List Written) (finished : Bool)
  | obj (members : List (Option String × Written)) (finished : Bool)
  /-- A value that the text does not write down as it should. -/
  | broken
deriving Inhabited

/-! ### Numbers -/

/-- The digits absorbed by a significand of 64 bits, and the digits that did not fit. -/
def absorb (n : Nat) : List Char → Nat × List Char
  | [] => (n, [])
  | d :: ds =>
    let m := 10 * n + (d.toNat - '0'.toNat)
    if m ≤ Decimal.maxNat64 then absorb m ds else (n, d :: ds)

/-- The greatest power of ten that a floating-point number holds. -/
def powerTenLimit : Nat := 308

/-- A significand scaled by a power of ten, one rounding at a time; `none` beyond the greatest
number. Three steps bring any significand of 64 bits down to zero. -/
def scaleTen : Nat → Binary64 → Int → Option Binary64
  | 0, x, _ => some x
  | fuel + 1, x, e =>
    if e.natAbs ≤ powerTenLimit then
      let ten := Binary64.nearest false (Nat.pow 10 e.natAbs) 1
      if 0 ≤ e then (some (x.mul ten)).filter Binary64.isFinite else some (x.div ten)
    else if x.code = 0 then some x
    else if 0 ≤ e then none
    else
      let greatest := Binary64.nearest false (Nat.pow 10 powerTenLimit) 1
      scaleTen fuel (x.div greatest) (e + powerTenLimit)

/-- The value of a numeral. A whole number that fits 64 bits stays an integer; any other numeral is
the floating-point number of its leading digits that fit 64 bits, scaled by a power of ten. -/
def numeralValue (negative : Bool) (whole : List Char) (part : Option (List Char))
    (power : Option Int) : Option Number :=
  let (n, dropped) := absorb 0 whole
  let value := Decimal.signed negative n
  if part.isNone && power.isNone && dropped.isEmpty &&
      (!negative || (0 < n && Decimal.minInt64 ≤ value)) then
    some (.int value)
  else
    let digits := part.getD []
    let (m, unused) := absorb n digits
    let e : Int := dropped.length - (digits.length - unused.length : Nat) + power.getD 0
    (scaleTen 4 (Binary64.nearest negative m 1) e).map .float

/-- The digits at the front and the rest. -/
def takeDigits (cs : List Char) : List Char × List Char :=
  (cs.takeWhile Char.isDigit, cs.dropWhile Char.isDigit)

/-- The part after the point: one digit or more. -/
def readPart : List Char → Option (Option (List Char) × List Char)
  | '.' :: cs =>
    let (digits, rest) := takeDigits cs
    if digits.isEmpty then none else some (some digits, rest)
  | cs => some (none, cs)

/-- The power of ten: a mark, an optional sign and one digit or more. -/
def readPower : List Char → Option (Option Int × List Char)
  | c :: cs =>
    if c = 'e' ∨ c = 'E' then
      let (negative, afterSign) := Decimal.takeSign cs
      let (digits, rest) := takeDigits afterSign
      if digits.isEmpty then none
      else some (some (Decimal.signed negative (Decimal.digitsValue digits)), rest)
    else some (none, c :: cs)
  | [] => some (none, [])

/-- A numeral without its sign. The whole part has no leading zero. -/
def readMagnitude (negative : Bool) (cs : List Char) : Option (Written × List Char) :=
  let (whole, afterWhole) := takeDigits cs
  if whole.isEmpty || (whole.head? == some '0' && 1 < whole.length) then none
  else
    match readPart afterWhole with
    | none => none
    | some (part, afterPart) =>
      match readPower afterPart with
      | none => none
      | some (power, rest) => some (.num (numeralValue negative whole part power), rest)

/-- A numeral. -/
def readNumeral : List Char → Option (Written × List Char)
  | '-' :: cs => readMagnitude true cs
  | cs => readMagnitude false cs

/-! ### Texts -/

/-- The value of a hexadecimal digit. -/
def hexValue? (c : Char) : Option Nat :=
  if '0' ≤ c ∧ c ≤ '9' then some (c.toNat - '0'.toNat)
  else if 'a' ≤ c ∧ c ≤ 'f' then some (c.toNat - 'a'.toNat + 10)
  else if 'A' ≤ c ∧ c ≤ 'F' then some (c.toNat - 'A'.toNat + 10)
  else none

/-- The character that a one-letter escape stands for. -/
def escaped? : Char → Option Char
  | '"' => some '"'
  | '\\' => some '\\'
  | '/' => some '/'
  | 'b' => some '\x08'
  | 'f' => some '\x0c'
  | 'n' => some '\n'
  | 'r' => some '\r'
  | 't' => some '\t'
  | _ => none

/-- The code points and UTF-16 units up to the closing quote, and what follows it. -/
def readUnits : List Char → Option (List Nat × List Char)
  | '"' :: cs => some ([], cs)
  | '\\' :: 'u' :: a :: b :: c :: d :: cs =>
    match hexValue? a, hexValue? b, hexValue? c, hexValue? d with
    | some a, some b, some c, some d =>
      (readUnits cs).map fun r => ((((a * 16 + b) * 16 + c) * 16 + d) :: r.1, r.2)
    | _, _, _, _ => none
  | '\\' :: c :: cs =>
    match escaped? c with
    | some e => (readUnits cs).map fun r => (e.toNat :: r.1, r.2)
    | none => none
  | c :: cs =>
    if c.toNat < 0x20 ∨ c = '\\' then none
    else (readUnits cs).map fun r => (c.toNat :: r.1, r.2)
  | [] => none

/-- The first unit of a surrogate pair. -/
def isHighSurrogate (n : Nat) : Bool := 0xd800 ≤ n && n < 0xdc00

/-- The second unit of a surrogate pair. -/
def isLowSurrogate (n : Nat) : Bool := 0xdc00 ≤ n && n < 0xe000

/-- The characters of code points and surrogate pairs; a surrogate on its own is none. -/
def joinUnits : List Nat → Option (List Char)
  | [] => some []
  | n :: ns =>
    if isHighSurrogate n then
      match ns with
      | m :: rest =>
        if isLowSurrogate m then
          (joinUnits rest).map fun cs =>
            Char.ofNat (0x10000 + (n - 0xd800) * 0x400 + (m - 0xdc00)) :: cs
        else none
      | [] => none
    else if isLowSurrogate n then none
    else (joinUnits ns).map fun cs => Char.ofNat n :: cs

/-- The text up to the closing quote, if its escapes stand for characters, and the rest. -/
def readText (cs : List Char) : Option (Option String × List Char) :=
  (readUnits cs).map fun r => ((joinUnits r.1).map String.ofList, r.2)

/-! ### Values -/

/-- The four blanks of JSON texts. -/
def isSpace (c : Char) : Bool := c == ' ' || c == '\n' || c == '\t' || c == '\r'

/-- The text without leading blanks. -/
def skipSpaces (cs : List Char) : List Char := cs.dropWhile isSpace

/-- What a reader found: the value and what follows it, or nothing once the grammar is broken. -/
abbrev Reading := Written × Option (List Char)

/-- The reading of a value that may have failed as a whole. -/
def Reading.of : Option (Written × List Char) → Reading
  | some (w, rest) => (w, some rest)
  | none => (.broken, none)

mutual

/-- The value at the front, without leading blanks. Each call consumes a character, so the length
of the text is fuel enough. -/
def readValue : Nat → List Char → Reading
  | 0, _ => (.broken, none)
  | fuel + 1, cs =>
    match cs with
    | 'n' :: 'u' :: 'l' :: 'l' :: rest => (.null, some rest)
    | 't' :: 'r' :: 'u' :: 'e' :: rest => (.bool true, some rest)
    | 'f' :: 'a' :: 'l' :: 's' :: 'e' :: rest => (.bool false, some rest)
    | '"' :: rest => Reading.of ((readText rest).map fun r => (.str r.1, r.2))
    | '[' :: rest =>
      match skipSpaces rest with
      | ']' :: after => (.arr [] true, some after)
      | inner =>
        let (items, after) := readItems fuel inner
        (.arr items after.isSome, after)
    | '\x7b' :: rest =>
      match skipSpaces rest with
      | '\x7d' :: after => (.obj [] true, some after)
      | inner =>
        let (members, after) := readMembers fuel inner
        (.obj members after.isSome, after)
    | _ => Reading.of (readNumeral cs)

/-- The items up to the closing bracket. -/
def readItems : Nat → List Char → List Written × Option (List Char)
  | 0, _ => ([], none)
  | fuel + 1, cs =>
    match readValue fuel cs with
    | (item, none) => ([item], none)
    | (item, some rest) =>
      match skipSpaces rest with
      | ']' :: after => ([item], some after)
      | ',' :: more =>
        let (items, after) := readItems fuel (skipSpaces more)
        (item :: items, after)
      | _ => ([item], none)

/-- The members up to the closing brace. -/
def readMembers : Nat → List Char → List (Option String × Written) × Option (List Char)
  | 0, _ => ([], none)
  | fuel + 1, cs =>
    match cs with
    | '"' :: quoted =>
      match readText quoted with
      | none => ([], none)
      | some (key, afterKey) =>
        match skipSpaces afterKey with
        | ':' :: afterColon =>
          match readValue fuel (skipSpaces afterColon) with
          | (value, none) => ([(key, value)], none)
          | (value, some rest) =>
            match skipSpaces rest with
            | '\x7d' :: after => ([(key, value)], some after)
            | ',' :: more =>
              let (members, after) := readMembers fuel (skipSpaces more)
              ((key, value) :: members, after)
            | _ => ([(key, value)], none)
        | _ => ([(key, .broken)], none)
    | _ => ([], none)

end

/-- The value that a text writes down, and whether nothing but blanks follows it. -/
def Written.read (s : String) : Written × Bool :=
  let cs := s.toList
  match readValue (2 * cs.length + 2) (skipSpaces cs) with
  | (w, some rest) => (w, (skipSpaces rest).isEmpty)
  | (w, none) => (w, false)

mutual

/-- A value written down in key order. -/
def Written.ofJson : Json → Written
  | .null => .null
  | .bool b => .bool b
  | .num n => .num (some n)
  | .str s => .str (some s)
  | .arr items => .arr (ofItems items) true
  | .obj members => .obj (ofMembers members) true

/-- Items written down in order. -/
def Written.ofItems : List Json → List Written
  | [] => []
  | item :: items => Written.ofJson item :: Written.ofItems items

/-- Members written down in key order. -/
def Written.ofMembers : List (String × Json) → List (Option String × Written)
  | [] => []
  | (key, value) :: members => (some key, Written.ofJson value) :: Written.ofMembers members

end

end TableQuery.Json
