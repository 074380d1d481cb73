import TableQuery.Proofs.DataPath
import TableQuery.Proofs.Decimal.Literal

/-! # Paths for a renderer

A renderer writes a path in three ways: with the key of an entry as its separator, without a marker,
and in brackets. The first two are written paths with another marker or with none, and a well-formed
path stays so with another marker (`DataPath.IsWellFormed.withMarker`), so both are read again. The
brackets are split behind the marker, and the two parts are all segments
(`DataPath.IsWellFormed.propertyPath_split`). -/

namespace TableQuery.DataPath

/-! ### Another marker -/

theorem IsWellFormed.withMarker {p : DataPath} (h : p.IsWellFormed) {marker : Option Marker}
    (hposition : ∀ m ∈ marker, m.index < p.segments.length)
    (hseparator : ∀ m ∈ marker, ']' ∉ m.separator.toList) :
    ({ p with marker := marker } : DataPath).IsWellFormed :=
  ⟨h.segments, hposition, hseparator⟩

theorem bracket_not_mem_toString (key : Nat) : ']' ∉ (toString key).toList := by
  intro h
  have hdigit := isDigit_of_mem_toString h
  exact absurd hdigit (by decide)

theorem IsWellFormed.withKey {p : DataPath} (h : p.IsWellFormed) (key : Nat) :
    (p.withSeparator (toString key)).IsWellFormed := by
  refine h.withMarker (fun m hm => ?_) fun m hm => ?_
  · obtain ⟨m', hm', rfl⟩ := Option.map_eq_some_iff.mp hm
    exact h.position m' hm'
  · obtain ⟨m', -, rfl⟩ := Option.map_eq_some_iff.mp hm
    exact bracket_not_mem_toString key

theorem fieldPath_eq_text (p : DataPath) :
    p.fieldPath = ({ p with marker := none } : DataPath).text := by
  have hsegments : p.segments.mapIdx (fun index segment => markedSegment none segment index) =
      p.segments := List.mapIdx_eq_iff.mpr fun i => by simp [markedSegment]
  rw [fieldPath, text]
  exact congrArg (".".intercalate ·) hsegments.symm

/-! ### Brackets -/

theorem bracketed_append (head tail : List String) :
    bracketed (head ++ tail) = bracketed head ++ bracketed tail := by
  simp only [bracketed, List.map_append, String.join_append]

theorem propertyPath_of_marker {p : DataPath} {m : Marker} (h : p.marker = some m) :
    p.propertyPath = (bracketed (p.segments.take (m.index + 1)),
      if p.segments.drop (m.index + 1) = [] then none
      else some (bracketed (p.segments.drop (m.index + 1)))) := by
  simp only [propertyPath, h, List.isEmpty_iff]

theorem IsWellFormed.propertyPath_split {p : DataPath} (h : p.IsWellFormed) :
    p.propertyPath.1 ++ p.propertyPath.2.getD "" = bracketed p.segments ∧
      (p.marker = none → p.propertyPath.2 = none) ∧
      ∀ m ∈ p.marker, ∃ head tail, p.segments = head ++ tail ∧ head.length = m.index + 1 ∧
        p.propertyPath = (bracketed head, if tail = [] then none else some (bracketed tail)) := by
  cases hmarker : p.marker with
  | none =>
    have hpath : p.propertyPath = (bracketed p.segments, none) := by rw [propertyPath, hmarker]
    rw [hpath]
    exact ⟨String.append_empty, fun _ => rfl, by simp⟩
  | some m =>
    have hlt := h.position m hmarker
    obtain ⟨head, hhead⟩ : ∃ head, head = p.segments.take (m.index + 1) := ⟨_, rfl⟩
    obtain ⟨tail, htail⟩ : ∃ tail, tail = p.segments.drop (m.index + 1) := ⟨_, rfl⟩
    have hsplit : p.segments = head ++ tail := by rw [hhead, htail, List.take_append_drop]
    have hlength : head.length = m.index + 1 := by
      rw [hhead, List.length_take]
      omega
    have hpath := propertyPath_of_marker hmarker
    rw [← hhead, ← htail] at hpath
    refine ⟨?_, by simp, ?_⟩
    · rw [hpath, hsplit, bracketed_append]
      cases tail with
      | nil => rfl
      | cons s rest => rfl
    · rintro _ ⟨⟩
      exact ⟨head, tail, hsplit, hlength, hpath⟩

/-! ### All three -/

/-- **What a renderer writes of a path that was read is read again**: the path of an entry with the
same segments, and with the key of the entry at the place of the separator if there is one; the path
without its marker with the same segments. The path in brackets is all segments in brackets, split
right behind the segment that has the marker. -/
theorem rereads {text : String} {p : DataPath} (h : ofText text = .ok p) (key : Nat) :
    (∃ q, ofText (p.elementPath key) = .ok q ∧ q.segments = p.segments ∧
      q.marker = p.marker.map fun m => ⟨m.index, toString key⟩) ∧
    (∃ q, ofText p.fieldPath = .ok q ∧ q.segments = p.segments ∧ q.marker = none) ∧
    p.propertyPath.1 ++ p.propertyPath.2.getD "" = bracketed p.segments ∧
    (p.marker = none → p.propertyPath.2 = none) ∧
    ∀ m ∈ p.marker, ∃ head tail, p.segments = head ++ tail ∧ head.length = m.index + 1 ∧
      p.propertyPath = (bracketed head, if tail = [] then none else some (bracketed tail)) := by
  obtain ⟨hp, -⟩ := of_ofText h
  have helement : ofText (p.elementPath key) = .ok (p.withSeparator (toString key)) :=
    (hp.withKey key).ofText_text
  have hplain : ({ p with marker := none } : DataPath).IsWellFormed :=
    hp.withMarker (by simp) (by simp)
  have hfield : ofText p.fieldPath = .ok { p with marker := none } := by
    rw [fieldPath_eq_text]
    exact hplain.ofText_text
  exact ⟨⟨_, helement, rfl, rfl⟩, ⟨_, hfield, rfl, rfl⟩, hp.propertyPath_split⟩

/-- The names of the authors of comments, with a dot and a bracket in the separator. -/
theorem rereads_comments : ∃ p, ofText " comments[.[ ].author.name" = .ok p ∧
    p.elementPath 12 = "comments[12].author.name" ∧
    (∃ q, ofText (p.elementPath 12) = .ok q ∧ q.segments = p.segments ∧
      q.marker = some ⟨0, "12"⟩) ∧
    (∃ q, ofText p.fieldPath = .ok q ∧ q.segments = p.segments ∧ q.marker = none) ∧
    p.propertyPath.1 ++ p.propertyPath.2.getD "" = "[comments][author][name]" := by
  have hread : ofText " comments[.[ ].author.name" =
      .ok ⟨["comments", "author"], "name", some ⟨0, ".[ "⟩⟩ := by decide +kernel
  obtain ⟨helement, hfield, hproperty, -⟩ := rereads hread 12
  exact ⟨_, hread, by decide +kernel, helement, hfield, hproperty.trans (by decide +kernel)⟩

end TableQuery.DataPath
