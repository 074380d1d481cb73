import TableQuery.Sql.Identifier
import TableQuery.Text.Basic

/-! # Data paths

A data path names a value of a record: relationships to follow and a field at the end, separated by
dots, as in `author.name`. One segment may carry a marker in brackets, as in
`comments[, ].author.name`: it stands for a collection, and the text between the brackets is the
separator that a renderer puts between the entries of the collection. -/

namespace TableQuery

/-- The marker of a collection. -/
structure Marker where
  /-- The position of the segment that carries the marker. -/
  index : Nat
  separator : String
deriving DecidableEq, Repr

/-- A data path. -/
structure DataPath where
  relations : List String
  field : String
  /-- The marker of the collection, if a segment carries one. -/
  marker : Option Marker
deriving DecidableEq, Repr

namespace DataPath

/-- All segments in order. -/
def segments (p : DataPath) : List String := p.relations ++ [p.field]

/-- Paths that follow a relationship. -/
def isAssociation (p : DataPath) : Bool := !p.relations.isEmpty

/-- The separator of the collection. -/
def separator? (p : DataPath) : Option String := p.marker.map Marker.separator

/-- A segment with its marker, if it carries one. -/
def markedSegment (marker : Option Marker) (segment : String) (index : Nat) : String :=
  match marker with
  | some m => if m.index = index then segment ++ "[" ++ m.separator ++ "]" else segment
  | none => segment

/-- The path as it is written. -/
def text (p : DataPath) : String :=
  ".".intercalate (p.segments.mapIdx fun index segment => markedSegment p.marker segment index)

/-- The segments joined by dots, without markers. -/
def fieldPath (p : DataPath) : String := ".".intercalate p.segments

/-- The segments joined by underscores. -/
def aliasName (p : DataPath) : String := "_".intercalate p.segments

/-- Each segment in brackets. -/
def bracketed (segments : List String) : String :=
  String.join (segments.map fun segment => "[" ++ segment ++ "]")

/-- The path in brackets, split after the collection; nothing follows a path without a collection
or a collection at the end. -/
def propertyPath (p : DataPath) : String × Option String :=
  match p.marker with
  | some m =>
    let tail := p.segments.drop (m.index + 1)
    (bracketed (p.segments.take (m.index + 1)),
      if tail.isEmpty then none else some (bracketed tail))
  | none => (bracketed p.segments, none)

/-- The path with another separator in its marker. -/
def withSeparator (p : DataPath) (separator : String) : DataPath :=
  { p with marker := p.marker.map fun m => ⟨m.index, separator⟩ }

/-- The path of one entry of the collection, which has the entry's key for a separator. -/
def elementPath (p : DataPath) (key : Nat) : String := (p.withSeparator (toString key)).text

/-! ### Reading -/

/-- A segment as it is read: its name, the separator of its marker, and what follows the dot after
it. -/
structure Piece where
  name : List Char
  separator : Option (List Char)
  /-- The text after the dot; nothing at the end of the path. -/
  rest : Option (List Char)

/-- Characters of a segment's name. -/
def isNameChar (c : Char) : Bool := c != '.' && c != '['

/-- What follows a marker: a dot and the rest of the path, or the end. -/
def afterMarker (path : String) : List Char → Except PathFailure (Option (List Char))
  | [] => .ok none
  | '.' :: rest => .ok (some rest)
  | _ => .error (.noDotAfterMarker path)

/-- Cuts the first segment off. A second marker is refused if `marked` says that there was one. -/
def cutPiece (path : String) (marked : Bool) (cs : List Char) : Except PathFailure Piece :=
  let name := cs.takeWhile isNameChar
  match cs.dropWhile isNameChar with
  | [] => .ok ⟨name, none, none⟩
  | '.' :: rest => .ok ⟨name, none, some rest⟩
  | _ :: inner =>
    match inner.dropWhile (· != ']') with
    | [] => .error (.unclosed path)
    | _ :: after =>
      if marked then .error (.secondMarker path)
      else (afterMarker path after).map fun rest => ⟨name, some (inner.takeWhile (· != ']')), rest⟩

theorem afterMarker_length {path : String} {cs rest : List Char}
    (h : afterMarker path cs = .ok (some rest)) : rest.length < cs.length := by
  unfold afterMarker at h
  split at h <;> simp_all

theorem length_dropWhile_le {α : Type} (p : α → Bool) (l : List α) :
    (l.dropWhile p).length ≤ l.length :=
  (List.dropWhile_sublist p).length_le

theorem cutPiece_rest_length {path : String} {marked : Bool} {cs rest : List Char} {piece : Piece}
    (h : cutPiece path marked cs = .ok piece) (hr : piece.rest = some rest) :
    rest.length < cs.length := by
  have hd := length_dropWhile_le isNameChar cs
  unfold cutPiece at h
  split at h
  · cases h; cases hr
  · next hc =>
    cases h
    cases hr
    rw [hc] at hd
    simp only [List.length_cons] at hd
    omega
  · next c inner _ hc =>
    rw [hc] at hd
    have hi := length_dropWhile_le (· != ']') inner
    split at h
    · cases h
    · next d after ha =>
      rw [ha] at hi
      split at h
      · cases h
      · cases hm : afterMarker path after with
        | error e => rw [hm] at h; cases h
        | ok r =>
          rw [hm] at h
          cases h
          simp only at hr
          subst hr
          have hl := afterMarker_length hm
          simp only [List.length_cons] at hd hi
          omega

/-- The pieces of a path. Each name has to be an identifier, and a dot may not end the path. -/
def pieces (path : String) (marked : Bool) (cs : List Char) : Except PathFailure (List Piece) :=
  match _h : cutPiece path marked cs with
  | .error e => .error e
  | .ok piece =>
    match checkPath (String.ofList piece.name) with
    | .error e => .error (.badSegment path e)
    | .ok () =>
      match _hr : piece.rest with
      | none => .ok [piece]
      | some [] => .error (.trailingDot path)
      | some (c :: cs') =>
        (pieces path (marked || piece.separator.isSome) (c :: cs')).map (piece :: ·)
termination_by cs.length
decreasing_by exact cutPiece_rest_length ‹_› ‹_›

/-- The marker of the first piece that carries one, counted from `index`. -/
def markerOf (index : Nat) : List Piece → Option Marker
  | [] => none
  | piece :: rest =>
    match piece.separator with
    | some separator => some ⟨index, String.ofList separator⟩
    | none => markerOf (index + 1) rest

/-- The path of some pieces. -/
def ofPieces (ps : List Piece) : DataPath :=
  let names := ps.map fun piece => String.ofList piece.name
  ⟨names.dropLast, names.getLast?.getD "", markerOf 0 ps⟩

/-- Reads a path; blanks around it are left out. -/
def ofText (text : String) : Except PathFailure DataPath :=
  let path := Text.trim text
  if path.isEmpty then .error .empty
  else (pieces path false path.toList).map ofPieces

end DataPath

end TableQuery
