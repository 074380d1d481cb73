import TableQuery.Proofs.Decimal.Literal
import TableQuery.Proofs.Search.Added
import TableQuery.Proofs.Sql.Names
import TableQuery.Proofs.Text.Blank

/-! # Values that the type of a field refuses

A search value is read as the type of its field takes it: an integral type takes integers of 64 bits
in their canonical form, and a floating one finite numbers. A value that the type refuses gives no
predicate, whatever the mode compares (`SearchTerm.predicate_of_refuses`). A search without a type
takes every text, so that it always gives a predicate, but for an empty list
(`SearchTerm.predicate_of_untyped`). -/

namespace TableQuery

/-! ### Types and texts -/

/-- The text, without the blanks around it, is no value of the type: no canonical integer of 64 bits
for an integral type, and no finite number for a floating one. -/
def FieldType.Refuses (type : FieldType) (s : String) : Prop :=
  (type.isIntegral = true ∧ isIntegerLiteral (Text.trim s) = false) ∨
    (type.isFloating = true ∧ readFinite? (Text.trim s) = none)

instance (type : FieldType) (s : String) : Decidable (type.Refuses s) :=
  inferInstanceAs (Decidable (_ ∨ _))

theorem FieldType.isFloating_of_isIntegral {type : FieldType} (h : type.isIntegral = true) :
    type.isFloating = false := by
  cases type <;> first | rfl | cases h

theorem trim_of_isIntegerLiteral {s : String} (h : isIntegerLiteral s = true) :
    Text.trim s = s := by
  unfold isIntegerLiteral at h
  split at h
  · next i hi =>
    exact Decimal.trim_of_readInt? (Option.filter_eq_some_iff.mp hi).1
  · cases h

theorem readFinite?_trim (s : String) : readFinite? (Text.trim s) = readFinite? s := by
  rw [readFinite?, Text.trim_trim, readFinite?]

theorem typedValue?_of_refuses {type : FieldType} {s : String} (h : type.Refuses s) :
    typedValue? (some type) s = none ∧ typedValue? (some type) (Text.trim s) = none := by
  rcases h with ⟨hintegral, hliteral⟩ | ⟨hfloating, hnumber⟩
  · have hraw : isIntegerLiteral s = false := by
      refine Bool.eq_false_iff.mpr fun hs => ?_
      rw [trim_of_isIntegerLiteral hs, hs] at hliteral
      cases hliteral
    simp [typedValue?, FieldType.isFloating_of_isIntegral hintegral, hintegral, hraw, hliteral]
  · rw [readFinite?_trim] at hnumber
    simp [typedValue?, hfloating, readFinite?_trim, hnumber]

/-! ### Lists of one item -/

/-- **A text without commas is a list of one item**, or of none if it is blank. -/
theorem listItems_of_no_comma {s : String} (h : ',' ∉ s.toList) :
    listItems s = if Text.isBlankText s then [] else [Text.trim s] := by
  rw [listItems, Text.piecesOf_eq_singleton h, List.map_singleton, ← Text.isEmpty_trim,
    List.filter_singleton]
  cases (Text.trim s).isEmpty <;> rfl

/-! ### Search expressions -/

/-- Modes that compare a value; the others look for null. -/
def SearchMode.NeedsValue (mode : SearchMode) : Prop := mode ≠ .isNull ∧ mode ≠ .isNotNull

instance (mode : SearchMode) : Decidable mode.NeedsValue := inferInstanceAs (Decidable (_ ∧ _))

/-- Modes that take the value as a list. -/
def SearchMode.TakesList (mode : SearchMode) : Prop := mode = .among ∨ mode = .notAmong

namespace SearchTerm

variable {target : Target} {s : String} {type : FieldType} {mode : SearchMode} {names : Naming}

/-- **A value that the type refuses gives no predicate.** -/
theorem predicate_of_refuses (h : type.Refuses s) (hcomma : ',' ∉ s.toList)
    (hmode : mode.NeedsValue) :
    (searchExpression ⟨target, s, some type⟩ mode names).predicate = none := by
  obtain ⟨hraw, htrimmed⟩ := typedValue?_of_refuses h
  rcases searchExpression_cases ⟨target, s, some type⟩ mode with
    ⟨hnull, -⟩ | ⟨-, negated, heq⟩ | ⟨-, ⟨op, heq⟩ | ⟨negated, heq⟩⟩
  · exact absurd hnull (not_or.mpr hmode)
  · rw [heq, searchAmong, listItems_of_no_comma hcomma]
    by_cases hblank : Text.isBlankText s = true
    · rw [if_pos hblank]
      rfl
    · rw [if_neg hblank]
      simp [acceptedItems, htrimmed]
  · rw [heq, searchCompare, hraw]
    rfl
  · rw [heq, searchLike, hraw]
    rfl

/-- **Without a type there is a predicate for every value**, but for an empty list. -/
theorem predicate_of_untyped (hcomma : ',' ∉ s.toList) (hmode : mode.NeedsValue) :
    (searchExpression ⟨target, s, none⟩ mode names).predicate = none ↔
      mode.TakesList ∧ Text.isBlankText s = true := by
  rcases searchExpression_cases ⟨target, s, none⟩ mode with
    ⟨hnull, -⟩ | ⟨hlist, negated, heq⟩ | ⟨hlist, ⟨op, heq⟩ | ⟨negated, heq⟩⟩
  · exact absurd hnull (not_or.mpr hmode)
  · have hblank_iff : (searchAmong ⟨target, s, none⟩ negated names).predicate = none ↔
        Text.isBlankText s = true := by
      rw [searchAmong, listItems_of_no_comma hcomma]
      by_cases hblank : Text.isBlankText s = true
      · rw [if_pos hblank]
        exact ⟨fun _ => hblank, fun _ => rfl⟩
      · rw [if_neg hblank]
        simp [acceptedItems, typedValue?, hblank]
    rw [heq, hblank_iff]
    exact ⟨fun hblank => ⟨hlist, hblank⟩, fun h => h.2⟩
  · rw [heq]
    exact iff_of_false (Option.some_ne_none _) fun h => hlist h.1
  · rw [heq]
    exact iff_of_false (Option.some_ne_none _) fun h => hlist h.1

end SearchTerm

theorem Group.pushSearched_eq_self {g : Group} {s : Searched} :
    g.pushSearched s = g ↔ s.predicate = none := by
  unfold pushSearched
  cases s.predicate with
  | none => simp
  | some p =>
    exact ⟨fun heq => absurd heq (g.push_ne_self p), fun h => nomatch h⟩

end TableQuery
