import TableQuery.DataPath
import TableQuery.Proofs.Sql.Names
import TableQuery.Proofs.Text.Blank

/-! # Reading and writing paths

A path is read piece by piece: a name up to the next dot or bracket, and the text between brackets
behind it. One piece is cut off exactly if the rest of the path begins with it
(`DataPath.cutPiece_eq_ok`). The induction over the pieces goes along the segments of a path from a
position on (`DataPath.textFrom`); what it carries is the marker of the whole path, which has been
passed already if a piece before had it.

Written segments are read as their pieces (`DataPath.pieces_textFrom`), and pieces that were read
are what their segments are written as (`DataPath.textFrom_of_pieces`). So a text is read as a path
exactly if the path is well formed, which is to say that its segments are identifiers, one of which
may have a separator without a closing bracket, and is written as the text without the blanks around
it (`DataPath.ofText_eq_ok_iff`). -/

namespace TableQuery

open Outcome

namespace DataPath

namespace Piece

/-- The segment as it is written, with its marker. -/
def chars (piece : Piece) : List Char :=
  match piece.separator with
  | some separator => piece.name ++ '[' :: (separator ++ [']'])
  | none => piece.name

/-- What stands behind a segment: a dot and the rest of the path, or nothing. -/
def behind : Option (List Char) → List Char
  | some rest => '.' :: rest
  | none => []

/-- A segment that a path can begin with, behind a marker or in front of all. -/
structure IsCut (marked : Bool) (piece : Piece) : Prop where
  name : ∀ c ∈ piece.name, isNameChar c = true
  once : marked = true → piece.separator = none
  separator : ∀ separator ∈ piece.separator, ']' ∉ separator

end Piece

theorem afterMarker_eq_ok {path : String} {cs : List Char} {rest : Option (List Char)} :
    afterMarker path cs = .ok rest ↔ cs = Piece.behind rest := by
  unfold afterMarker
  split
  · cases rest <;> simp [Piece.behind]
  · cases rest <;> simp [Piece.behind, eq_comm]
  · next h =>
    constructor
    · intro h
      cases h
    · rintro rfl
      cases rest with
      | none => exact absurd rfl ‹_›
      | some rest => exact absurd rfl (h rest)

theorem span_append {α : Type} {p : α → Bool} {xs : List α} (hxs : ∀ x ∈ xs, p x = true)
    (rest : List α) (hrest : ∀ x ∈ rest.head?, p x = false) :
    (xs ++ rest).takeWhile p = xs ∧ (xs ++ rest).dropWhile p = rest := by
  rw [List.takeWhile_append_of_pos hxs, List.dropWhile_append_of_pos hxs]
  cases rest with
  | nil => simp
  | cons x rest => simp [hrest x rfl]

section Cut
variable {path : String} {marked : Bool} {cs : List Char} {piece : Piece}

theorem isCut_of_cutPiece (h : cutPiece path marked cs = .ok piece) :
    piece.IsCut marked ∧ cs = piece.chars ++ Piece.behind piece.rest := by
  have hsplit : cs.takeWhile isNameChar ++ cs.dropWhile isNameChar = cs :=
    List.takeWhile_append_dropWhile
  have hname : ∀ c ∈ cs.takeWhile isNameChar, isNameChar c = true :=
    List.all_eq_true.mp List.all_takeWhile
  unfold cutPiece at h
  split at h
  · next hrest =>
    cases h
    rw [hrest] at hsplit
    exact ⟨⟨hname, fun _ => rfl, by simp⟩, hsplit.symm⟩
  · next rest hrest =>
    cases h
    rw [hrest] at hsplit
    exact ⟨⟨hname, fun _ => rfl, by simp⟩, hsplit.symm⟩
  · next c inner hdot hrest =>
    obtain rfl : c = '[' := by
      have hstop := List.head?_dropWhile_not isNameChar cs
      simp only [hrest, List.head?_cons, isNameChar, Bool.and_eq_false_iff, bne_eq_false_iff_eq]
        at hstop
      exact hstop.resolve_left hdot
    have hinner : inner.takeWhile (· != ']') ++ inner.dropWhile (· != ']') = inner :=
      List.takeWhile_append_dropWhile
    have hseparator : ']' ∉ inner.takeWhile (· != ']') := fun hmem =>
      absurd (List.all_eq_true.mp List.all_takeWhile _ hmem) (by decide)
    split at h
    · cases h
    · next d after hafter =>
      obtain rfl : d = ']' := by
        have hstop := List.head?_dropWhile_not (· != ']') inner
        simpa [hafter] using hstop
      split_ifs at h with hmarked
      obtain ⟨rest, hrest', rfl⟩ := map_eq_ok.mp h
      rw [afterMarker_eq_ok] at hrest'
      refine ⟨⟨hname, fun h => absurd h hmarked, by simpa using hseparator⟩, ?_⟩
      have hchars : cs = cs.takeWhile isNameChar ++ '[' ::
          (inner.takeWhile (· != ']') ++ ']' :: Piece.behind rest) := by
        rw [← hrest', ← hafter, hinner, ← hrest, hsplit]
      conv_lhs => rw [hchars]
      simp [Piece.chars, Piece.behind]

theorem cutPiece_of_isCut (h : piece.IsCut marked) :
    cutPiece path marked (piece.chars ++ Piece.behind piece.rest) = .ok piece := by
  obtain ⟨hname, honce, hseparator⟩ := h
  obtain ⟨name, separator, rest⟩ := piece
  dsimp only at hname honce hseparator
  cases separator with
  | none =>
    obtain ⟨htake, hdrop⟩ := span_append hname (Piece.behind rest)
      (by cases rest <;> simp [Piece.behind, isNameChar])
    simp only [cutPiece, Piece.chars, htake, hdrop]
    cases rest <;> rfl
  | some separator =>
    have hclosed : ∀ c ∈ separator, (c != ']') = true := fun c hc =>
      bne_iff_ne.mpr fun h => hseparator separator rfl (h ▸ hc)
    obtain ⟨htake, hdrop⟩ := span_append hname
      ('[' :: (separator ++ ']' :: Piece.behind rest)) (by simp [isNameChar])
    obtain ⟨htake', hdrop'⟩ := span_append hclosed (']' :: Piece.behind rest) (by simp)
    have hmarked : marked = false := by
      cases marked
      · rfl
      · cases honce rfl
    have hafter : afterMarker path (Piece.behind rest) = .ok rest :=
      afterMarker_eq_ok.mpr rfl
    simp [cutPiece, Piece.chars, htake, hdrop, htake', hdrop', hmarked, hafter, Except.map]

/-- **A segment is cut off the front of a path exactly if the path begins with it.** -/
theorem cutPiece_eq_ok : cutPiece path marked cs = .ok piece ↔
    piece.IsCut marked ∧ cs = piece.chars ++ Piece.behind piece.rest := by
  constructor
  · exact isCut_of_cutPiece
  · rintro ⟨h, rfl⟩
    exact cutPiece_of_isCut h

end Cut

/-! ### Written segments -/

/-- The segments from a position on, as they are written. -/
def textFrom (marker : Option Marker) (index : Nat) (segments : List String) : String :=
  ".".intercalate (segments.mapIdx fun i segment => markedSegment marker segment (index + i))

/-- The separator that a segment is written with. -/
def separatorAt (marker : Option Marker) (index : Nat) : Option (List Char) :=
  (marker.filter fun m => m.index = index).map fun m => m.separator.toList

/-- The pieces that written segments are cut into. -/
def piecesFrom (marker : Option Marker) : Nat → List String → List Piece
  | _, [] => []
  | index, segment :: rest =>
    ⟨segment.toList, separatorAt marker index,
      if rest.isEmpty then none else some (textFrom marker (index + 1) rest).toList⟩ ::
      piecesFrom marker (index + 1) rest

variable {marker : Option Marker} {index : Nat}

theorem text_eq_textFrom (p : DataPath) : p.text = textFrom p.marker 0 p.segments := by
  simp only [text, textFrom, Nat.zero_add]

theorem textFrom_singleton (segment : String) :
    textFrom marker index [segment] = markedSegment marker segment index := by
  simp [textFrom]

theorem textFrom_cons_cons (segment next : String) (rest : List String) :
    textFrom marker index (segment :: next :: rest) =
      markedSegment marker segment index ++ "." ++ textFrom marker (index + 1) (next :: rest) := by
  simp only [textFrom, List.mapIdx_cons, String.intercalate_cons_cons, Nat.add_zero,
    Nat.add_assoc, Nat.add_comm 1]

theorem toList_markedSegment (segment : String) (rest : Option (List Char)) :
    (markedSegment marker segment index).toList =
      Piece.chars ⟨segment.toList, separatorAt marker index, rest⟩ := by
  cases marker with
  | none => rfl
  | some m =>
    by_cases hindex : m.index = index
    · simp [markedSegment, Piece.chars, separatorAt, Option.filter, hindex]
    · simp [markedSegment, Piece.chars, separatorAt, Option.filter, hindex]

theorem toList_textFrom_cons (segment : String) (rest : List String) :
    (textFrom marker index (segment :: rest)).toList =
      (markedSegment marker segment index).toList ++ Piece.behind
        (if rest.isEmpty then none else some (textFrom marker (index + 1) rest).toList) := by
  cases rest with
  | nil => simp [textFrom_singleton, Piece.behind]
  | cons next rest => simp [textFrom_cons_cons, Piece.behind]

theorem exists_toList_textFrom (marker : Option Marker) (index : Nat) {segments : List String}
    (hne : segments ≠ []) (h : ∀ s ∈ segments, isIdentifier s = true) :
    ∃ c cs, (textFrom marker index segments).toList = c :: cs ∧ isIdentifierStart c = true := by
  obtain ⟨s, rest, rfl⟩ := List.exists_cons_of_ne_nil hne
  obtain ⟨c, cs, hs, hstart, -⟩ := isIdentifier_iff.mp (h s List.mem_cons_self)
  rw [toList_textFrom_cons, toList_markedSegment s none]
  cases hseparator : separatorAt marker index with
  | none => exact ⟨c, _, by rw [hs]; rfl, hstart⟩
  | some separator => exact ⟨c, _, by rw [hs]; rfl, hstart⟩

theorem exists_concat_textFrom (marker : Option Marker) (index : Nat) {segments : List String}
    (hne : segments ≠ []) (h : ∀ s ∈ segments, isIdentifier s = true) :
    ∃ cs c, (textFrom marker index segments).toList = cs ++ [c] ∧ Text.isBlank c = false := by
  induction segments generalizing index with
  | nil => exact absurd rfl hne
  | cons s rest ih =>
    rw [toList_textFrom_cons]
    cases rest with
    | nil =>
      have hs := h s List.mem_cons_self
      obtain ⟨d, ds, hchars, -⟩ := isIdentifier_iff.mp hs
      rw [toList_markedSegment s none]
      cases hseparator : separatorAt marker index with
      | none =>
        have hchars' : s.toList ≠ [] := by simp [hchars]
        refine ⟨s.toList.dropLast, s.toList.getLast hchars', ?_, ?_⟩
        · simp [Piece.chars, Piece.behind, List.dropLast_append_getLast]
        · exact Text.isBlank_of_isIdentifierChar (isIdentifier_over hs _ (List.getLast_mem hchars'))
      | some separator =>
        exact ⟨s.toList ++ '[' :: separator, ']', by simp [Piece.chars, Piece.behind], by decide⟩
    | cons next rest =>
      obtain ⟨cs, c, hcs, hc⟩ := ih (index + 1) (List.cons_ne_nil _ _)
        fun t ht => h t (List.mem_cons_of_mem s ht)
      refine ⟨(markedSegment marker s index).toList ++ '.' :: cs, c, ?_, hc⟩
      simp [Piece.behind, hcs]

/-! ### Written segments are read -/

theorem separatorAt_eq_some {separator : List Char} : separatorAt marker index = some separator ↔
    ∃ m ∈ marker, m.index = index ∧ m.separator.toList = separator := by
  simp [separatorAt, Option.filter_eq_some_iff, and_assoc]

theorem separatorAt_eq_none (h : ∀ m ∈ marker, m.index ≠ index) :
    separatorAt marker index = none := by
  refine Option.eq_none_iff_forall_ne_some.mpr fun separator hseparator => ?_
  obtain ⟨m, hm, hindex, -⟩ := separatorAt_eq_some.mp hseparator
  exact h m hm hindex

theorem isNameChar_of_isIdentifier {s : String} (h : isIdentifier s = true) :
    ∀ c ∈ s.toList, isNameChar c = true := by
  intro c hc
  have hchar := isIdentifier_over h c hc
  have hdot : c ≠ '.' := by
    rintro rfl
    exact absurd hchar (by decide)
  have hbracket : c ≠ '[' := by
    rintro rfl
    exact absurd hchar (by decide)
  simp [isNameChar, hdot, hbracket]

section Steps
variable {path : String} {marked : Bool} {cs : List Char} {piece : Piece}

theorem pieces_of_last (hcut : cutPiece path marked cs = .ok piece)
    (hname : isIdentifier (String.ofList piece.name) = true) (hrest : piece.rest = none) :
    pieces path marked cs = .ok [piece] := by
  have hcheck : checkPath (String.ofList piece.name) = .ok () :=
    checkPath_eq_ok.mpr (isIdentifierPath_of_isIdentifier hname)
  rw [pieces]
  split
  · next h => rw [hcut] at h; cases h
  · next h =>
    obtain rfl := Except.ok.inj (hcut.symm.trans h)
    simp only [hcheck]
    split
    · rfl
    · next h => rw [hrest] at h; cases h
    · next h => rw [hrest] at h; cases h

theorem pieces_of_dot (hcut : cutPiece path marked cs = .ok piece)
    (hname : isIdentifier (String.ofList piece.name) = true) {c : Char} {cs' : List Char}
    (hrest : piece.rest = some (c :: cs')) : pieces path marked cs =
      (pieces path (marked || piece.separator.isSome) (c :: cs')).map (piece :: ·) := by
  have hcheck : checkPath (String.ofList piece.name) = .ok () :=
    checkPath_eq_ok.mpr (isIdentifierPath_of_isIdentifier hname)
  rw [pieces]
  split
  · next h => rw [hcut] at h; cases h
  · next h =>
    obtain rfl := Except.ok.inj (hcut.symm.trans h)
    simp only [hcheck]
    split
    · next h => rw [hrest] at h; cases h
    · next h => rw [hrest] at h; cases h
    · next h =>
      rw [hrest] at h
      cases h
      rfl

end Steps

theorem pieces_textFrom (path : String) (hmarker : ∀ m ∈ marker, ']' ∉ m.separator.toList)
    {marked : Bool} {segments : List String} (hne : segments ≠ [])
    (hsegments : ∀ s ∈ segments, isIdentifier s = true)
    (hmarked : marked = true → ∀ m ∈ marker, m.index < index) :
    pieces path marked (textFrom marker index segments).toList =
      .ok (piecesFrom marker index segments) := by
  induction segments generalizing index marked with
  | nil => exact absurd rfl hne
  | cons s rest ih =>
    have hs := hsegments s List.mem_cons_self
    have hrest : ∀ t ∈ rest, isIdentifier t = true := fun t ht =>
      hsegments t (List.mem_cons_of_mem s ht)
    have hcut : cutPiece path marked (textFrom marker index (s :: rest)).toList =
        .ok ⟨s.toList, separatorAt marker index,
          if rest.isEmpty then none else some (textFrom marker (index + 1) rest).toList⟩ := by
      refine cutPiece_eq_ok.mpr ⟨⟨isNameChar_of_isIdentifier hs, fun h => ?_, ?_⟩, ?_⟩
      · exact separatorAt_eq_none fun m hm => (hmarked h m hm).ne
      · intro separator hseparator
        obtain ⟨m, hm, -, rfl⟩ := separatorAt_eq_some.mp hseparator
        exact hmarker m hm
      · rw [toList_textFrom_cons, toList_markedSegment]
    have hname : isIdentifier (String.ofList s.toList) = true := by rwa [String.ofList_toList]
    cases rest with
    | nil => exact pieces_of_last hcut hname rfl
    | cons next rest =>
      obtain ⟨c, cs, hcs, -⟩ := exists_toList_textFrom marker (index + 1)
        (List.cons_ne_nil next rest) hrest
      -- behind the marker, its position has been passed
      have hpassed : (marked || (separatorAt marker index).isSome) = true →
          ∀ m ∈ marker, m.index < index + 1 := by
        intro h m hm
        rcases Bool.or_eq_true_iff.mp h with h | h
        · exact Nat.lt_succ_of_lt (hmarked h m hm)
        · obtain ⟨separator, hseparator⟩ := Option.isSome_iff_exists.mp h
          obtain ⟨m', hm', rfl, -⟩ := separatorAt_eq_some.mp hseparator
          obtain rfl : m = m' := Option.some.inj (hm.symm.trans hm')
          exact Nat.lt_succ_self _
      rw [pieces_of_dot hcut hname (congrArg some hcs), ← hcs,
        ih (List.cons_ne_nil next rest) hrest hpassed]
      rfl

theorem markerOf_cons (piece : Piece) (ps : List Piece) : markerOf index (piece :: ps) =
    (piece.separator.map fun separator => ⟨index, String.ofList separator⟩).or
      (markerOf (index + 1) ps) := by
  rw [markerOf]
  cases piece.separator <;> rfl

theorem markerOf_piecesFrom_none (segments : List String) :
    markerOf index (piecesFrom none index segments) = none := by
  induction segments generalizing index with
  | nil => rfl
  | cons s rest ih => exact ih

theorem markerOf_piecesFrom_some {m : Marker} {segments : List String} (hle : index ≤ m.index)
    (hlt : m.index < index + segments.length) :
    markerOf index (piecesFrom (some m) index segments) = some m := by
  induction segments generalizing index with
  | nil =>
    rw [List.length_nil] at hlt
    omega
  | cons s rest ih =>
    rw [List.length_cons] at hlt
    by_cases hindex : m.index = index
    · have hseparator := separatorAt_eq_some.mpr ⟨m, rfl, hindex, rfl⟩
      subst hindex
      simp [piecesFrom, markerOf_cons, hseparator]
    · have hseparator : separatorAt (some m) index = none :=
        separatorAt_eq_none (by rintro _ ⟨⟩; exact hindex)
      have hrest := @ih (index + 1) (by omega) (by omega)
      simp [piecesFrom, markerOf_cons, hseparator, hrest]

/-- Paths that are made of identifiers, and whose marker is at one of them. -/
structure IsWellFormed (p : DataPath) : Prop where
  segments : ∀ s ∈ p.segments, isIdentifier s = true
  position : ∀ m ∈ p.marker, m.index < p.segments.length
  separator : ∀ m ∈ p.marker, ']' ∉ m.separator.toList

theorem segments_ofPieces {ps : List Piece} (hne : ps ≠ []) :
    (ofPieces ps).segments = ps.map fun piece => String.ofList piece.name := by
  rw [segments, ofPieces, List.getLast?_eq_some_getLast (by simpa using hne), Option.getD_some,
    List.dropLast_append_getLast]

theorem segments_ne_nil (p : DataPath) : p.segments ≠ [] := by simp [segments]

theorem ext_segments {p q : DataPath} (hsegments : p.segments = q.segments)
    (hmarker : p.marker = q.marker) : p = q := by
  obtain ⟨relations, field, marker⟩ := p
  obtain ⟨relations', field', marker'⟩ := q
  obtain ⟨rfl, hfield⟩ := List.append_inj' hsegments rfl
  cases hfield
  cases hmarker
  rfl

theorem IsWellFormed.ofPieces {p : DataPath} (h : p.IsWellFormed) :
    DataPath.ofPieces (piecesFrom p.marker 0 p.segments) = p := by
  have hnames : ∀ (index : Nat) (segments : List String),
      (piecesFrom p.marker index segments).map (fun piece => String.ofList piece.name) =
        segments := by
    intro index segments
    induction segments generalizing index with
    | nil => rfl
    | cons s rest ih => simp [piecesFrom, ih]
  have hne : piecesFrom p.marker 0 p.segments ≠ [] := fun hnil => by
    have hsegments := hnames 0 p.segments
    rw [hnil] at hsegments
    exact p.segments_ne_nil hsegments.symm
  refine ext_segments ((segments_ofPieces hne).trans (hnames 0 _)) ?_
  show markerOf 0 (piecesFrom p.marker 0 p.segments) = p.marker
  cases hmarker : p.marker with
  | none => exact markerOf_piecesFrom_none _
  | some m =>
    have hposition := h.position m hmarker
    exact markerOf_piecesFrom_some (Nat.zero_le _) (by omega)

theorem IsWellFormed.exists_ends {p : DataPath} (h : p.IsWellFormed) :
    (∃ c cs, p.text.toList = c :: cs ∧ isIdentifierStart c = true) ∧
      ∃ cs c, p.text.toList = cs ++ [c] ∧ Text.isBlank c = false := by
  rw [text_eq_textFrom]
  exact ⟨exists_toList_textFrom _ _ p.segments_ne_nil h.segments,
    exists_concat_textFrom _ _ p.segments_ne_nil h.segments⟩

/-- **A well-formed path is read from what is written.** -/
theorem IsWellFormed.ofText_eq {p : DataPath} (h : p.IsWellFormed) {text : String}
    (htext : p.text = Text.trim text) : ofText text = .ok p := by
  have hpieces : pieces (Text.trim text) false (textFrom p.marker 0 p.segments).toList =
      .ok (piecesFrom p.marker 0 p.segments) :=
    pieces_textFrom _ h.separator p.segments_ne_nil h.segments (by simp)
  obtain ⟨⟨c, cs, hcs, -⟩, -⟩ := h.exists_ends
  have hne : (Text.trim text).isEmpty = false := by
    rw [← htext, Bool.eq_false_iff, Ne, String.isEmpty_iff]
    intro hempty
    rw [hempty] at hcs
    cases hcs
  rw [← text_eq_textFrom, htext] at hpieces
  simp [ofText, hne, hpieces, Except.map, h.ofPieces]

/-! ### What is read was written -/

theorem exists_of_markerOf {ps : List Piece} {m : Marker} (h : markerOf index ps = some m) :
    (index ≤ m.index ∧ m.index < index + ps.length) ∧
      ∃ piece ∈ ps, piece.separator = some m.separator.toList := by
  induction ps generalizing index with
  | nil => cases h
  | cons piece ps ih =>
    rw [markerOf_cons] at h
    rw [List.length_cons]
    cases hseparator : piece.separator with
    | some separator =>
      rw [hseparator] at h
      cases h
      exact ⟨⟨Nat.le_refl _, Nat.lt_add_of_pos_right (Nat.succ_pos _)⟩, piece,
        List.mem_cons_self, by simp [hseparator]⟩
    | none =>
      rw [hseparator] at h
      obtain ⟨⟨hle, hlt⟩, found, hmem, hfound⟩ := ih h
      exact ⟨⟨by omega, by omega⟩, found, List.mem_cons_of_mem _ hmem, hfound⟩

theorem separatorAt_eq_of_isCut {earlier : Option Marker} {piece : Piece} {ps : List Piece}
    (hcut : piece.IsCut earlier.isSome) (hearlier : ∀ m ∈ earlier, m.index < index) :
    separatorAt (earlier.or (markerOf index (piece :: ps))) index = piece.separator := by
  rw [markerOf_cons]
  cases earlier with
  | some m =>
    have hindex := hearlier m rfl
    rw [hcut.once rfl]
    exact separatorAt_eq_none (by rintro _ ⟨⟩; omega)
  | none =>
    cases hseparator : piece.separator with
    | some separator =>
      exact separatorAt_eq_some.mpr ⟨⟨index, String.ofList separator⟩, rfl, rfl,
        String.toList_ofList⟩
    | none =>
      refine separatorAt_eq_none fun m hm => ?_
      obtain ⟨⟨hle, -⟩, -⟩ := exists_of_markerOf (show markerOf (index + 1) ps = some m from hm)
      omega

theorem textFrom_of_pieces {path : String} {marked : Bool} {cs : List Char} {ps : List Piece}
    (h : pieces path marked cs = .ok ps) {earlier : Option Marker}
    (hmarked : marked = earlier.isSome) (hearlier : ∀ m ∈ earlier, m.index < index) :
    (textFrom (earlier.or (markerOf index ps)) index
      (ps.map fun piece => String.ofList piece.name)).toList = cs := by
  fun_induction pieces path marked cs generalizing ps earlier index with
  | case1 => cases h
  | case2 => cases h
  | case3 marked cs piece hcut hcheck hrest =>
    cases h
    obtain ⟨hpiece, rfl⟩ := cutPiece_eq_ok.mp hcut
    subst hmarked
    rw [List.map_singleton, textFrom_singleton, toList_markedSegment _ none,
      separatorAt_eq_of_isCut hpiece hearlier, hrest]
    simp [Piece.chars, Piece.behind]
  | case4 => cases h
  | case5 marked cs piece hcut hcheck c cs' hrest ih =>
    obtain ⟨ps', hps, rfl⟩ := map_eq_ok.mp h
    obtain ⟨hpiece, rfl⟩ := cutPiece_eq_ok.mp hcut
    subst hmarked
    -- for the pieces behind this one, its marker has stood earlier, too
    obtain ⟨passed, hpassed⟩ : ∃ passed, passed =
      earlier.or (piece.separator.map fun s => ⟨index, String.ofList s⟩) := ⟨_, rfl⟩
    have hlt : ∀ m ∈ passed, m.index < index + 1 := by
      intro m hm
      rw [hpassed] at hm
      rcases Option.or_eq_some_iff.mp hm with hm | ⟨-, hm⟩
      · exact Nat.lt_succ_of_lt (hearlier m hm)
      · obtain ⟨s, -, rfl⟩ := Option.map_eq_some_iff.mp hm
        exact Nat.lt_succ_self _
    have hnext := ih hps (by simp [hpassed]) hlt
    rw [hpassed] at hnext
    rw [Option.or_assoc, ← markerOf_cons] at hnext
    have hne : (ps'.map fun piece => String.ofList piece.name) ≠ [] := by
      intro hnil
      rw [hnil] at hnext
      cases hnext
    rw [List.map_cons, toList_textFrom_cons, toList_markedSegment _ none,
      separatorAt_eq_of_isCut hpiece hearlier, hnext, hrest, if_neg (by simpa using hne)]
    simp [Piece.chars]

theorem pieces_eq_ok {path : String} {marked : Bool} {cs : List Char} {ps : List Piece}
    (h : pieces path marked cs = .ok ps) :
    ps ≠ [] ∧ ∀ piece ∈ ps, isIdentifier (String.ofList piece.name) = true ∧
      ∀ separator ∈ piece.separator, ']' ∉ separator := by
  have hproper : ∀ {marked : Bool} {cs : List Char} {piece : Piece},
      cutPiece path marked cs = .ok piece → checkPath (String.ofList piece.name) = .ok () →
      isIdentifier (String.ofList piece.name) = true ∧
        ∀ separator ∈ piece.separator, ']' ∉ separator := by
    intro marked cs piece hcut hcheck
    obtain ⟨hpiece, -⟩ := cutPiece_eq_ok.mp hcut
    have hdot : '.' ∉ (String.ofList piece.name).toList := by
      rw [String.toList_ofList]
      exact fun hmem => absurd (hpiece.name _ hmem) (by decide)
    have hpath := checkPath_eq_ok.mp hcheck
    rw [isIdentifierPath, Text.piecesOf_eq_singleton hdot] at hpath
    exact ⟨by simpa using hpath, hpiece.separator⟩
  fun_induction pieces path marked cs generalizing ps with
  | case1 => cases h
  | case2 => cases h
  | case3 marked cs piece hcut hcheck hrest =>
    cases h
    exact ⟨List.cons_ne_nil _ _, by simpa using hproper hcut hcheck⟩
  | case4 => cases h
  | case5 marked cs piece hcut hcheck c cs' hrest ih =>
    obtain ⟨ps', hps, rfl⟩ := map_eq_ok.mp h
    refine ⟨List.cons_ne_nil _ _, fun p hp => ?_⟩
    rcases List.mem_cons.mp hp with rfl | hp
    · exact hproper hcut hcheck
    · exact (ih hps).2 p hp

/-- **A path that was read is well formed, and its text was there but for the blanks around it.** -/
theorem of_ofText {text : String} {p : DataPath} (h : ofText text = .ok p) :
    p.IsWellFormed ∧ p.text = Text.trim text := by
  simp only [ofText] at h
  split_ifs at h
  obtain ⟨ps, hps, rfl⟩ := map_eq_ok.mp h
  obtain ⟨hne, hproper⟩ := pieces_eq_ok hps
  have hsegments := segments_ofPieces hne
  have hmarker : (ofPieces ps).marker = markerOf 0 ps := rfl
  refine ⟨⟨fun s hs => ?_, fun m hm => ?_, fun m hm => ?_⟩, ?_⟩
  · rw [hsegments] at hs
    obtain ⟨piece, hpiece, rfl⟩ := List.mem_map.mp hs
    exact (hproper piece hpiece).1
  · obtain ⟨⟨-, hlt⟩, -⟩ := exists_of_markerOf hm
    rwa [hsegments, List.length_map, ← Nat.zero_add ps.length]
  · obtain ⟨-, piece, hpiece, hseparator⟩ := exists_of_markerOf hm
    exact (hproper piece hpiece).2 _ hseparator
  · have htext := @textFrom_of_pieces 0 _ _ _ _ hps none rfl (by simp)
    rw [Option.none_or, ← hmarker, ← hsegments, ← text_eq_textFrom] at htext
    exact String.toList_inj.mp htext

/-- **Reading accepts exactly what is written.** -/
theorem ofText_eq_ok_iff {text : String} {p : DataPath} :
    ofText text = .ok p ↔ p.IsWellFormed ∧ p.text = Text.trim text :=
  ⟨of_ofText, fun ⟨hp, htext⟩ => hp.ofText_eq htext⟩

theorem IsWellFormed.ofText_text {p : DataPath} (h : p.IsWellFormed) : ofText p.text = .ok p := by
  obtain ⟨⟨c, cs, hfirst, hc⟩, cs', c', hlast, hc'⟩ := h.exists_ends
  refine h.ofText_eq (Text.trim_of_ends ?_ ?_).symm
  · rw [hfirst]
    rintro _ ⟨⟩
    exact Text.isBlank_of_isIdentifierStart hc
  · rw [hlast, List.getLast?_concat]
    rintro _ ⟨⟩
    exact hc'

/-- **The segments of a path that was read are identifiers.** -/
theorem isIdentifier_of_mem_segments {text : String} {p : DataPath} (h : ofText text = .ok p) :
    ∀ s ∈ p.segments, isIdentifier s = true := (of_ofText h).1.segments

theorem exists_toList_text {text : String} {p : DataPath} (h : ofText text = .ok p) :
    ∃ c cs, p.text.toList = c :: cs ∧ isIdentifierStart c = true := (of_ofText h).1.exists_ends.1

end DataPath

end TableQuery
