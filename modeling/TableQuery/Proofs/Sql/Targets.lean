import TableQuery.Proofs.Sql.Printable

/-! # Targets as texts

A text without the blanks around it is a reference if it is one identifier, or two with a dot
between them (`Target.IsReference`). References are read as labels and columns, and their
identifiers are printed between backticks. Any other text is an expression that is used as it is
written (`Target.ofText_eq_raw`), so no reference gets into an SQL text without quotes. A target is
read again from what it displays (`Target.ofText_display`). -/

namespace TableQuery

namespace Target

/-- The text is one identifier, or two with a dot between them. -/
inductive IsReference : List String → String → Prop
  | label {name : String} (hname : isIdentifier name = true) : IsReference [name] name
  | column {aliasName name : String} (halias : isIdentifier aliasName = true)
    (hname : isIdentifier name = true) :
    IsReference [aliasName, name] (aliasName ++ "." ++ name)

variable {text : String}

/-! ### What is read -/

theorem ofText_eq_label {name : String} :
    ofText text = .label name ↔ isIdentifier name = true ∧ Text.trim text = name := by
  constructor
  · intro h
    simp only [ofText] at h
    split_ifs at h with hpath
    split at h
    · next name' hpieces =>
      cases h
      obtain ⟨htext, hdot⟩ := Text.piecesOf_eq_one.mp hpieces
      rw [htext, isIdentifierPath_of_not_mem hdot] at hpath
      exact ⟨hpath, htext⟩
    · cases h
    · cases h
  · rintro ⟨hname, rfl⟩
    have hpieces := Text.piecesOf_eq_singleton (dot_not_mem_of_isIdentifier hname)
    simp only [ofText, isIdentifierPath_of_isIdentifier hname, if_true, hpieces]

theorem ofText_eq_column {aliasName name : String} : ofText text = .column aliasName name ↔
    isIdentifier aliasName = true ∧ isIdentifier name = true ∧
      Text.trim text = aliasName ++ "." ++ name := by
  have hsep : ".".toList = ['.'] := rfl
  constructor
  · intro h
    simp only [ofText] at h
    split_ifs at h with hpath
    split at h
    · cases h
    · next a n hpieces =>
      cases h
      obtain ⟨htext, halias, hname⟩ := (Text.piecesOf_eq_two hsep).mp hpieces
      rw [htext, isIdentifierPath_append, isIdentifierPath_of_not_mem halias,
        isIdentifierPath_of_not_mem hname, Bool.and_eq_true] at hpath
      exact ⟨hpath.1, hpath.2, htext⟩
    · cases h
  · rintro ⟨halias, hname, htext⟩
    have hpieces := (Text.piecesOf_eq_two hsep).mpr ⟨rfl, dot_not_mem_of_isIdentifier halias,
      dot_not_mem_of_isIdentifier hname⟩
    simp only [ofText, htext, isIdentifierPath_dotted halias hname, if_true, hpieces]

theorem display_ofText (text : String) : (ofText text).display = Text.trim text := by
  cases h : ofText text with
  | column aliasName name => exact (ofText_eq_column.mp h).2.2.symm
  | label name => exact (ofText_eq_label.mp h).2.symm
  | raw sql =>
    simp only [ofText] at h
    split_ifs at h
    · split at h <;> cases h
      rfl
    · cases h
      rfl

theorem ofText_display (text : String) : ofText (ofText text).display = ofText text := by
  rw [display_ofText, ofText, Text.trim_trim, ofText]

theorem exists_isReference : (∃ names, IsReference names (Text.trim text)) ↔
    (∃ aliasName name, ofText text = .column aliasName name) ∨
      ∃ name, ofText text = .label name := by
  constructor
  · rintro ⟨names, h⟩
    generalize htext : Text.trim text = s at h
    cases h with
    | label hname => exact .inr ⟨_, ofText_eq_label.mpr ⟨hname, htext⟩⟩
    | column halias hname => exact .inl ⟨_, _, ofText_eq_column.mpr ⟨halias, hname, htext⟩⟩
  · rintro (⟨aliasName, name, h⟩ | ⟨name, h⟩)
    · obtain ⟨halias, hname, htext⟩ := ofText_eq_column.mp h
      rw [htext]
      exact ⟨_, .column halias hname⟩
    · obtain ⟨hname, htext⟩ := ofText_eq_label.mp h
      rw [htext]
      exact ⟨_, .label hname⟩

/-- **Exactly the texts that are no references are expressions.** -/
theorem ofText_eq_raw {sql : String} : ofText text = .raw sql ↔
    sql = Text.trim text ∧ ¬ ∃ names, IsReference names (Text.trim text) := by
  rw [exists_isReference]
  constructor
  · intro h
    have hdisplay := display_ofText text
    rw [h] at hdisplay
    exact ⟨hdisplay, by simp [h]⟩
  · rintro ⟨rfl, hnone⟩
    have hdisplay := display_ofText text
    cases h : ofText text with
    | column aliasName name => exact absurd (.inl ⟨_, _, h⟩) hnone
    | label name => exact absurd (.inr ⟨_, h⟩) hnone
    | raw sql => rw [h] at hdisplay; rw [← hdisplay, display]

/-! ### What is printed -/

theorem IsReference.sql_ofText {names : List String} (h : IsReference names (Text.trim text)) :
    (ofText text).sql = .ok (".".intercalate (names.map backticked)) := by
  generalize htext : Text.trim text = s at h
  cases h with
  | label hname =>
    rw [ofText_eq_label.mpr ⟨hname, htext⟩, sql, quotePath_eq_ok,
      Text.piecesOf_eq_singleton (dot_not_mem_of_isIdentifier hname)]
    exact ⟨isIdentifierPath_of_isIdentifier hname, rfl⟩
  | column halias hname =>
    rw [ofText_eq_column.mpr ⟨halias, hname, htext⟩, sql, quoteIdentifier_eq_ok.mpr ⟨halias, rfl⟩,
      quoteIdentifier_eq_ok.mpr ⟨hname, rfl⟩]
    simp only [List.map_cons, List.map_nil, String.intercalate_cons_cons,
      String.intercalate_singleton]
    rfl

theorem exists_sql_eq_error : (∃ failure, (ofText text).sql = .error failure) ↔
    Text.trim text = "" := by
  constructor
  · rintro ⟨failure, h⟩
    rw [← String.isEmpty_iff, Text.isEmpty_trim]
    by_contra hblank
    obtain ⟨s, hs⟩ := prints_ofText (Bool.eq_false_iff.mpr hblank)
    rw [h] at hs
    cases hs
  · intro htext
    have hraw : ofText text = .raw "" := by rw [ofText, htext]; rfl
    exact ⟨.emptyExpression, by rw [hraw]; rfl⟩

/-- **Targets and their texts**: a target is read again from what it displays, it does not print
exactly if its text is blank, and it is a column or a label exactly if its text is a reference,
whose identifiers are then printed between backticks. Only texts that are no references are used as
they are written. -/
theorem ofText_isReference (text : String) :
    ofText (ofText text).display = ofText text ∧
    ((∃ failure, (ofText text).sql = .error failure) ↔ Text.trim text = "") ∧
    ((∃ aliasName name, ofText text = .column aliasName name) ∨
      (∃ name, ofText text = .label name) ↔ ∃ names, IsReference names (Text.trim text)) ∧
    (∀ names, IsReference names (Text.trim text) →
      (ofText text).sql = .ok (".".intercalate (names.map backticked))) ∧
    ∀ sql, ofText text = .raw sql ↔
      sql = Text.trim text ∧ ¬ ∃ names, IsReference names (Text.trim text) :=
  ⟨ofText_display text, exists_sql_eq_error, exists_isReference.symm, fun _ h => h.sql_ofText,
    fun _ => ofText_eq_raw⟩

/-- A column with blanks around it. -/
theorem ofText_isReference_title :
    IsReference ["post", "title"] (Text.trim " post.title\n") ∧
      (ofText " post.title\n").sql = .ok "`post`.`title`" := by
  have hreference : IsReference ["post", "title"] (Text.trim " post.title\n") := by
    have htext : Text.trim " post.title\n" = "post" ++ "." ++ "title" := by decide
    rw [htext]
    exact .column (by decide) (by decide)
  exact ⟨hreference, (ofText_isReference " post.title\n").2.2.2.1 _ hreference⟩

/-- Three identifiers with dots between them are used as they are written. -/
example : ofText "a.b.c" = .raw "a.b.c" := by decide

end Target

end TableQuery
