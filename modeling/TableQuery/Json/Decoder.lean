import TableQuery.Json.Written

/-! # Decoding written JSON

A decoder takes a value as a text writes it down and gives a value of the domain or the first fault
that stands in the text. Records are decoded member by member: members without a field are
skipped, a repeated field is a fault, and a field that is left out keeps its default unless it is
required. A record may also be written as the list of its fields. -/

namespace TableQuery.Json

/-- Why a text does not decode. -/
inductive Fault where
  /-- The text breaks the grammar or a value is of the wrong kind. -/
  | malformed
  | notAColumn
  | notADirection
deriving DecidableEq, Repr

/-- A way to decode values. -/
abbrev Decoder (α : Type) := Written → Except Fault α

namespace Decoder

variable {α β : Type}

/-- A truth value. -/
def bool : Decoder Bool
  | .bool b => .ok b
  | _ => .error .malformed

/-- A text. -/
def text : Decoder String
  | .str (some s) => .ok s
  | _ => .error .malformed

/-- An integer in a range. -/
def intIn (least greatest : Int) : Decoder Int
  | .num (some (.int i)) => if least ≤ i ∧ i ≤ greatest then .ok i else .error .malformed
  | _ => .error .malformed

/-- A natural number of 64 bits. -/
def nat : Decoder Nat := fun w => (intIn 0 Decimal.maxNat64 w).map Int.toNat

/-- A value or null. -/
def optional (d : Decoder α) : Decoder (Option α)
  | .null => .ok none
  | w => (d w).map some

/-- The items of a list in order. -/
def list (d : Decoder α) : Decoder (List α)
  | .arr items finished => do
    let values ← items.mapM d
    if finished then pure values else throw .malformed
  | _ => .error .malformed

/-- The key of a member. -/
def key : Option String → Except Fault String
  | some k => .ok k
  | none => .error .malformed

/-- One member of a map. -/
def keyedStep (d : Decoder α) (m : Keyed α) (entry : Option String × Written) :
    Except Fault (Keyed α) := do
  let k ← key entry.1
  let v ← d entry.2
  pure (Keyed.insert k v m)

/-- A map, where a later member replaces an earlier one with its key. -/
def keyed (d : Decoder α) : Decoder (Keyed α)
  | .obj members finished => do
    let m ← members.foldlM (keyedStep d) []
    if finished then pure m else throw .malformed
  | _ => .error .malformed

/-- One of some words, written as the word or as an object with the word as its only key and null
as its value. -/
def word (meaning : String → Option α) : Decoder α
  | .str (some s) => (meaning s).elim (.error .malformed) .ok
  | .obj [(some s, .null)] true => (meaning s).elim (.error .malformed) .ok
  | _ => .error .malformed

mutual

/-- Any value. -/
def json : Written → Except Fault Json
  | .null => .ok .null
  | .bool b => .ok (.bool b)
  | .num (some n) => .ok (.num n)
  | .str (some s) => .ok (.str s)
  | .arr items finished => do
    let values ← jsonItems items
    if finished then pure (.arr values) else throw .malformed
  | .obj members finished => do
    let m ← jsonMembers [] members
    if finished then pure (.obj m) else throw .malformed
  | _ => .error .malformed

/-- The items of a list of any values. -/
def jsonItems : List Written → Except Fault (List Json)
  | [] => .ok []
  | w :: ws => do
    let v ← json w
    let vs ← jsonItems ws
    pure (v :: vs)

/-- The members of an object, added to those before them. -/
def jsonMembers (m : Record) : List (Option String × Written) → Except Fault Record
  | [] => .ok m
  | (k, w) :: rest => do
    let k ← key k
    let v ← json w
    jsonMembers (Keyed.insert k v m) rest

end

mutual

/-- Whether a value is written down completely, whatever it holds. -/
def isComplete : Written → Bool
  | .broken => false
  | .arr items finished => finished && areComplete items
  | .obj members finished => finished && membersComplete members
  | _ => true

/-- Whether all items are written down completely. -/
def areComplete : List Written → Bool
  | [] => true
  | w :: ws => isComplete w && areComplete ws

/-- Whether all members are written down completely. -/
def membersComplete : List (Option String × Written) → Bool
  | [] => true
  | (_, w) :: rest => isComplete w && membersComplete rest

end

mutual

/-- How many lists and objects of a value stand one inside the other. -/
def depth : Written → Nat
  | .arr items _ => itemsDepth items + 1
  | .obj members _ => membersDepth members + 1
  | _ => 0

/-- The greatest depth of some items. -/
def itemsDepth : List Written → Nat
  | [] => 0
  | w :: ws => max (depth w) (itemsDepth ws)

/-- The greatest depth of the values of some members. -/
def membersDepth : List (Option String × Written) → Nat
  | [] => 0
  | (_, w) :: rest => max (depth w) (membersDepth rest)

end

/-- How deep the values of a text may be nested, apart from those that are skipped. -/
def textLimit : Nat := 127

/-- Any value inside `outer` lists and objects, as deep as a limit allows. -/
def jsonInside (limit : Option Nat) (outer : Nat) : Decoder Json := fun w =>
  if limit.all (depth w + outer ≤ ·) then json w else .error .malformed

/-! ### Records -/

/-- A field of a record. -/
structure Field (α : Type) where
  name : String
  /-- Whether the field may not be left out. -/
  required : Bool
  read : α → Decoder α

/-- A field that keeps its default when it is left out. -/
def field (name : String) (d : Decoder β) (set : α → β → α) : Field α :=
  ⟨name, false, fun r w => (d w).map (set r)⟩

/-- A field that may not be left out. -/
def needed (name : String) (d : Decoder β) (set : α → β → α) : Field α :=
  ⟨name, true, fun r w => (d w).map (set r)⟩

/-- One member of a record; `seen` holds the fields before it. -/
def memberStep (fields : List (Field α)) (state : α × List String)
    (entry : Option String × Written) : Except Fault (α × List String) := do
  let k ← key entry.1
  match fields.find? fun f => f.name == k with
  | none => if isComplete entry.2 then pure state else throw .malformed
  | some f =>
    if state.2.contains k then throw .malformed
    let r ← f.read state.1 entry.2
    pure (r, k :: state.2)

/-- One item of a record written as a list. -/
def itemStep (r : α) (item : Field α × Written) : Except Fault α := item.1.read r item.2

/-- A record with its defaults in `start`. -/
def record (fields : List (Field α)) (start : α) : Decoder α
  | .obj members finished => do
    let (r, seen) ← members.foldlM (memberStep fields) (start, [])
    if !finished || fields.any (fun f => f.required && !seen.contains f.name) then
      throw .malformed
    pure r
  | .arr items finished => do
    let r ← (fields.zip items).foldlM itemStep start
    if !finished || fields.length < items.length ||
        (fields.drop items.length).any (fun f => f.required) then
      throw .malformed
    pure r
  | _ => .error .malformed

/-! ### Texts and values -/

/-- Decodes a whole text. -/
def runText (d : Decoder α) (s : String) : Except Fault α := do
  let (w, alone) := Written.read s
  let v ← d w
  if alone then pure v else throw .malformed

/-- Decodes a value. -/
def runJson (d : Decoder α) (j : Json) : Except Fault α := d (Written.ofJson j)

end Decoder

/-- The value that a text writes down. -/
def parse? (s : String) : Option Json := (Decoder.runText Decoder.json s).toOption

end TableQuery.Json
