import TableQuery.Proofs.Sql.OperatorSearch

/-! # Join conditions as texts

A join condition is given by its three parts or as one text. The text that joins the parts with
blanks is read as the condition of the parts, unless a name reads as a part of the operator
(`JoinCondition.IsLegible`): then it is not read at all (`JoinCondition.ofText_parts_iff`). A name
`is` of the left path is taken for the operator, and behind the operator `is` the first name of the
right path for its second word, if it is `not`. The right side has no blanks at its ends
(`JoinCondition.isBlank_ends_of_ofText`), so that nothing else of the text is lost. -/

namespace TableQuery

open Outcome Text

namespace JoinCondition

/-! ### The right side -/

theorem exists_headAlias {path : String} (h : isIdentifierPath path = true) : ∃ rest,
    path.toList = (headAlias path).toList ++ rest ∧ isIdentifier (headAlias path) = true ∧
      rest.head?.any isWord = false ∧ (rest = [] ∨ ∃ cs, rest = '.' :: cs) := by
  have hsep : ".".toList = ['.'] := rfl
  by_cases hdot : '.' ∈ path.toList
  · obtain ⟨name, others, rfl, hname⟩ := exists_cut hsep hdot
    have hhead : headAlias (name ++ "." ++ others) = name := by
      rw [headAlias, piecesOf_append hsep, piecesOf_eq_singleton hname]
      rfl
    rw [isIdentifierPath_append, isIdentifierPath_of_not_mem hname, Bool.and_eq_true] at h
    rw [hhead]
    exact ⟨'.' :: others.toList, by simp [String.toList_append], h.1, any_isWord_dot _,
      .inr ⟨_, rfl⟩⟩
  · have hhead : headAlias path = path := by
      rw [headAlias, piecesOf_eq_singleton hdot]
      rfl
    rw [isIdentifierPath_of_not_mem hdot] at h
    rw [hhead]
    exact ⟨[], by simp, h, rfl, .inl rfl⟩

/-- **What is read as a right side has no blanks around it.** -/
theorem isBlank_ends_of_ofText {right : String} {operand : Operand}
    (h : Operand.ofText right = .ok operand) : (∀ c ∈ right.toList.head?, isBlank c = false) ∧
      ∀ c ∈ right.toList.getLast?, isBlank c = false := by
  have hall (hchars : ∀ c ∈ right.toList, isBlank c = false) :
      (∀ c ∈ right.toList.head?, isBlank c = false) ∧
        ∀ c ∈ right.toList.getLast?, isBlank c = false :=
    ⟨fun c hc => hchars c (List.mem_of_mem_head? hc),
      fun c hc => hchars c (List.mem_of_getLast? hc)⟩
  rcases Operand.ofText_cases h with ⟨-, hnull⟩ | ⟨inner, -, hquoted⟩ | ⟨-, hnumeric⟩ | ⟨-, hpath⟩
  · refine hall fun c hc => isBlank_of_isIdentifierChar ?_
    exact isIdentifierChar_of_map_toLower (by decide) (eqIgnoringCase_iff.mp hnull) c hc
  · obtain ⟨q, hq, htext⟩ := Operand.unquote?_eq_some hquoted
    have hblank : isBlank q = false := by rcases hq with rfl | rfl <;> decide
    rw [htext]
    constructor
    · intro c hc
      cases hc
      exact hblank
    · intro c hc
      rw [← List.cons_append, List.getLast?_concat] at hc
      cases hc
      exact hblank
  · refine hall fun c hc => Bool.eq_false_iff.mpr fun hblank => ?_
    have hother := forall_blank (p := fun c => !Operand.isNumberChar c) (by decide) hblank
    rw [(Operand.looksNumeric_iff.mp hnumeric).2 c hc] at hother
    cases hother
  · exact hall fun c hc => isBlank_of_mem_path hpath hc

theorem afterWord?_not_eq_none {right : String} {operand : Operand}
    (h : Operand.ofText right = .ok operand)
    (hnot : ∀ path, operand = .path path → eqIgnoringCase (headAlias path) "not" = false) :
    afterWord? ['n', 'o', 't'] right.toList = none := by
  have hfirst {c : Char} {cs : List Char} (htext : right.toList = c :: cs)
      (hc : keywordChar 'n' c = false) : afterWord? ['n', 'o', 't'] right.toList = none := by
    rw [htext, afterWord?, afterKeyword?, if_neg (by simp [hc])]
    rfl
  rcases Operand.ofText_cases h with ⟨-, hnull⟩ | ⟨inner, -, hquoted⟩ | ⟨-, hnumeric⟩ | ⟨hop, hpath⟩
  · have hlower := eqIgnoringCase_iff.mp hnull
    have hword : afterWord? ['n', 'o', 't'] (right.toList ++ []) = _ :=
      afterWord?_append (by decide) (by decide)
        (isIdentifierChar_of_map_toLower (by decide) hlower) rfl
    rwa [List.append_nil, hlower, if_neg (by decide)] at hword
  · obtain ⟨q, hq, htext⟩ := Operand.unquote?_eq_some hquoted
    exact hfirst htext (by rcases hq with rfl | rfl <;> decide)
  · obtain ⟨⟨c, cs, htext, hc⟩, -⟩ := Operand.looksNumeric_iff.mp hnumeric
    refine hfirst htext (Bool.eq_false_iff.mpr fun hletter => ?_)
    have hlower : c.toLower = 'n' := by simpa [keywordChar] using hletter
    have hstart := forall_ascii (p := fun c => c.toLower != 'n' || isIdentifierStart c)
      (by decide +kernel) (lt_of_toLower_eq hlower (by decide))
    rw [hlower, bne_self_eq_false, Bool.false_or] at hstart
    rcases hc with hdigit | rfl | rfl
    · rw [isDigit_of_isIdentifierStart hstart] at hdigit
      cases hdigit
    · exact absurd hstart (by decide)
    · exact absurd hstart (by decide)
  · obtain ⟨rest, htext, hname, hend, -⟩ := exists_headAlias hpath
    rw [htext, afterWord?_append (by decide) (by decide) (isIdentifier_over hname) hend, if_neg]
    exact fun heq => Bool.eq_false_iff.mp (hnot right hop) (eqIgnoringCase_iff.mpr heq)

/-! ### Conditions that are read as they are written -/

/-- No name of a condition reads as a part of its operator: no name of the left path as `is`, and
behind `is` not the first name of the right path as `not`. -/
structure IsLegible (c : JoinCondition) : Prop where
  left : ∀ name ∈ piecesOf '.' c.left, eqIgnoringCase name "is" = false
  right : c.op = .is → ∀ path, c.right = .path path → eqIgnoringCase (headAlias path) "not" = false

variable {left operator right : String} {c d : JoinCondition}

theorem trimChars_parts (hleft : isIdentifierPath left = true) {operand : Operand}
    (hright : Operand.ofText right = .ok operand) :
    trimChars (left ++ " " ++ operator ++ " " ++ right).toList =
      left.toList ++ (' ' :: operator.toList ++ ' ' :: right.toList) := by
  have htext : (left ++ " " ++ operator ++ " " ++ right).toList =
      left.toList ++ (' ' :: operator.toList ++ ' ' :: right.toList) := by
    simp [String.toList_append]
  have hlast : (left.toList ++ (' ' :: operator.toList ++ ' ' :: right.toList)).getLast? =
      right.toList.getLast? := by
    have hne : right.toList ≠ [] := by
      intro hnil
      rw [String.toList_eq_nil_iff.mp hnil, Operand.ofText_empty] at hright
      cases hright
    rw [← List.append_assoc, List.append_cons, List.getLast?_append_of_ne_nil _ hne]
  have hfirst : (left.toList ++ (' ' :: operator.toList ++ ' ' :: right.toList)).head? =
      left.toList.head? := by
    have hne : left.toList ≠ [] := by
      intro hnil
      rw [String.toList_eq_nil_iff.mp hnil] at hleft
      exact absurd hleft (by decide)
    exact List.head?_append_of_ne_nil _ hne
  rw [htext]
  refine trimChars_of_ends ?_ (hlast ▸ (isBlank_ends_of_ofText hright).2)
  rw [hfirst]
  exact fun c hc => isBlank_of_mem_path hleft (List.mem_of_mem_head? hc)

/-- **The search comes to the operator** of the text of three parts, if no name of the left path is
`is`. -/
theorem findOperator?_parts (h : ofParts left operator right = .ok c)
    (hnames : ∀ name ∈ piecesOf '.' left, eqIgnoringCase name "is" = false) :
    ∃ before core after, operator.toList = before ++ core ++ after ∧ before.all isBlank = true ∧
      after.all isBlank = true ∧ JoinOperator.Spelled c.op core ∧
      findOperator? [] (trimChars (left ++ " " ++ operator ++ " " ++ right).toList) =
        findOperator? (left.toList ++ ' ' :: before).reverse
          (core ++ (after ++ ' ' :: right.toList)) := by
  obtain ⟨hop, hright, hleft, -⟩ := ofParts_eq_ok.mp h
  obtain ⟨before, core, after, hoperator, hbefore, hafter, hspelled⟩ :=
    JoinOperator.exists_spelled hop
  refine ⟨before, core, after, hoperator, hbefore, hafter, hspelled, ?_⟩
  have htext : ' ' :: operator.toList ++ ' ' :: right.toList =
      ' ' :: before ++ (core ++ (after ++ ' ' :: right.toList)) := by
    simp [hoperator]
  have hgap : (' ' :: before).all isBlank = true := by rw [List.all_cons, hbefore]; rfl
  have hjoin : ".".intercalate (piecesOf '.' left) = left := intercalate_piecesOf rfl left
  have hpath (rest : List Char) : findOperator? [] (left.toList ++ (' ' :: before ++ rest)) =
      findOperator? left.toList.reverse (' ' :: before ++ rest) := by
    have hend : (' ' :: before ++ rest).head?.any isWord = false := any_isWord_of_isBlank rfl
    have hpassed := findOperator?_path_append hend [] (by simp [piecesOf])
      (List.all_eq_true.mp hleft) hnames
    rwa [hjoin, List.append_nil] at hpassed
  rw [trimChars_parts hleft hright, htext, hpath, findOperator?_blank_append hgap,
    List.reverse_append]

theorem ofText_of_find {text : String} {before op after : List Char}
    (h : findOperator? [] (trimChars text.toList) = some (before, op, after)) :
    ofText text = .ok c ↔ ofParts (String.ofList (trimChars before.reverse))
      (String.ofList ((before.takeWhile isBlank).reverse ++ op ++ after.takeWhile isBlank))
      (String.ofList (trimChars after)) = .ok c := by
  rw [ofText, h]
  dsimp only
  split
  · next hempty =>
    refine ⟨fun hc => (nomatch hc), fun hparts => ?_⟩
    obtain ⟨-, hright, hleft, -⟩ := ofParts_eq_ok.mp hparts
    rcases Bool.or_eq_true_iff.mp hempty with he | he
    · rw [String.isEmpty_iff.mp he] at hleft
      exact absurd hleft (by decide)
    · rw [String.isEmpty_iff.mp he, Operand.ofText_empty] at hright
      cases hright
  · rfl

theorem any_isWord_head?_reverse (cs : List Char) {gap : List Char} (h : gap.all isBlank = true) :
    (cs ++ ' ' :: gap).reverse.head?.any isWord = false := by
  refine any_isWord_of_isBlank ?_
  have hlast : (' ' :: gap).reverse ≠ [] := by simp
  obtain ⟨c, rest, hc⟩ := List.exists_cons_of_ne_nil hlast
  have hmem : c ∈ ' ' :: gap := List.mem_reverse.mp (hc ▸ List.mem_cons_self)
  rw [List.reverse_append, hc, List.cons_append, List.head?_cons, Option.any_some]
  rcases List.mem_cons.mp hmem with rfl | hmem
  · rfl
  · exact List.all_eq_true.mp h c hmem

theorem any_isBlank_head? (cs : List Char) {gap : List Char} (h : gap.all isBlank = true) :
    (gap ++ ' ' :: cs).head?.any isBlank = true := by
  cases gap with
  | nil => rfl
  | cons c gap => exact List.all_eq_true.mp h c List.mem_cons_self

theorem trimLeft_gap {operand : Operand} (hright : Operand.ofText right = .ok operand)
    {gap : List Char} (h : gap.all isBlank = true) :
    trimLeft (gap ++ ' ' :: right.toList) = right.toList := by
  rw [trimLeft_blank_append h, trimLeft, List.dropWhile_cons_of_pos rfl]
  exact trimLeft_of_head (isBlank_ends_of_ofText hright).1

/-- **A legible condition is read** from the text of its parts. -/
theorem ofText_parts (h : ofParts left operator right = .ok c) (hlegible : c.IsLegible) :
    ofText (left ++ " " ++ operator ++ " " ++ right) = .ok c := by
  obtain ⟨hop, hright, hleft, hnull, heq⟩ := ofParts_eq_ok.mp h
  obtain ⟨before, core, after, hoperator, hbefore, hafter, hspelled, hsearch⟩ :=
    findOperator?_parts h (heq ▸ hlegible.left)
  have hnot (his : c.op = .is) :
      afterWord? ['n', 'o', 't'] (trimLeft (after ++ ' ' :: right.toList)) = none := by
    rw [trimLeft_gap hright hafter]
    exact afterWord?_not_eq_none hright (hlegible.right his)
  rw [findOperator?_spelled hspelled (any_isWord_head?_reverse _ hbefore)
    (any_isBlank_head? _ hafter) hnot] at hsearch
  have hstart :
      String.ofList (trimChars (left.toList ++ ' ' :: before).reverse.reverse) = left := by
    have hgap : (' ' :: before).all isBlank = true := by rw [List.all_cons, hbefore]; rfl
    have htrim : trimChars ([] ++ left.toList ++ ' ' :: before) = trimChars left.toList :=
      trimChars_around rfl hgap left.toList
    rw [List.nil_append] at htrim
    rw [List.reverse_reverse, htrim]
    exact trim_of_isIdentifierPath hleft
  have hend : String.ofList (trimChars (after ++ ' ' :: right.toList)) = right := by
    rw [trimChars, trimLeft_gap hright hafter,
      trimRight_of_last (isBlank_ends_of_ofText hright).2, String.ofList_toList]
  rw [ofText_of_find hsearch, hstart, hend]
  refine ofParts_eq_ok.mpr ⟨?_, hright, hleft, hnull, heq⟩
  exact JoinOperator.ofText_around hop hoperator hbefore hafter (by simp) List.all_takeWhile

theorem isIdentifierPath_of_dot {before : List Char}
    (h : before = [] ∨ before.head? = some '.') :
    isIdentifierPath (String.ofList (trimChars before.reverse)) = false := by
  rcases h with rfl | h
  · decide
  · obtain ⟨rest, rfl⟩ := List.head?_eq_some_iff.mp h
    have hcut : String.ofList (trimChars ('.' :: rest).reverse) =
        String.ofList (trimLeft rest.reverse) ++ "." ++ "" := by
      rw [List.reverse_cons, trimChars, trimLeft_append_cons (by decide),
        trimRight_append_cons (by decide)]
      exact String.toList_inj.mp (by simp [String.toList_append, trimRight])
    rw [hcut, isIdentifierPath_append, Bool.and_eq_false_iff]
    exact .inr (by decide)

theorem left_of_ofText (h : ofParts left operator right = .ok c)
    (hread : ofText (left ++ " " ++ operator ++ " " ++ right) = .ok d) :
    ∀ name ∈ piecesOf '.' left, eqIgnoringCase name "is" = false := by
  obtain ⟨-, hright, hleft, -⟩ := ofParts_eq_ok.mp h
  intro name hmem
  refine Bool.eq_false_iff.mpr fun his => ?_
  have hend : (' ' :: operator.toList ++ ' ' :: right.toList).head?.any isWord = false :=
    any_isWord_of_isBlank rfl
  have hstart : ([] : List Char).head?.any isWord = false := rfl
  obtain ⟨before, op, after, hfind, hbefore⟩ :=
    exists_findOperator?_path hend hstart (List.all_eq_true.mp hleft) ⟨name, hmem, his⟩
  have hjoin : ".".intercalate (piecesOf '.' left) = left := intercalate_piecesOf rfl left
  rw [hjoin, ← trimChars_parts hleft hright] at hfind
  obtain ⟨-, -, hpath, -⟩ := ofParts_eq_ok.mp ((ofText_of_find hfind).mp hread)
  rw [isIdentifierPath_of_dot hbefore] at hpath
  cases hpath

/-- What is left of a path behind its first name is no right side. -/
theorem ofText_behind_headAlias {rest : List Char} {operand : Operand}
    (hrest : rest = [] ∨ ∃ cs, rest = '.' :: cs) :
    Operand.ofText (String.ofList (trimChars rest)) ≠ .ok operand := by
  intro hread
  rcases hrest with rfl | ⟨cs, rfl⟩
  · cases Operand.ofText_empty.symm.trans hread
  · have htrim : trimChars ('.' :: cs) = '.' :: trimRight cs := by
      rw [trimChars, ← List.nil_append ('.' :: cs), trimLeft_append_cons (by decide),
        trimRight_append_cons (by decide)]
      rfl
    rw [htrim] at hread
    exact Operand.ofText_dot_ne_ok (by simp) hread

/-- **A condition that is read is legible.** -/
theorem isLegible_of_ofText (h : ofParts left operator right = .ok c)
    (hread : ofText (left ++ " " ++ operator ++ " " ++ right) = .ok d) : c.IsLegible := by
  obtain ⟨-, hright, -, -, heq⟩ := ofParts_eq_ok.mp h
  have hnames := left_of_ofText h hread
  refine ⟨heq.symm ▸ hnames, fun his path hpath => Bool.eq_false_iff.mpr fun hnot => ?_⟩
  -- the first name of the right path is read as the second word of the operator
  obtain ⟨before, core, after, -, hbefore, hafter, hspelled, hsearch⟩ :=
    findOperator?_parts h hnames
  rw [his] at hspelled
  cases hspelled with
  | sign hop => cases hop
  | is hword =>
    rw [hpath] at hright
    obtain ⟨rest, htext, hname, hend, hrest⟩ :=
      exists_headAlias (Operand.isIdentifierPath_of_ofText hright)
    have hsecond : afterWord? ['n', 'o', 't'] right.toList = some rest := by
      rw [← Operand.eq_of_ofText hright, htext, afterWord?_append (by decide) (by decide)
        (isIdentifier_over hname) hend]
      exact if_pos (eqIgnoringCase_iff.mp hnot)
    have hblank := any_isBlank_head? right.toList hafter
    have hnull := afterNullTest?_of_eq (any_isWord_head?_reverse left.toList hbefore) hword
      (any_isWord_of_isBlank hblank)
    rw [if_pos hblank, trimLeft_gap hright hafter, hsecond, Option.getD_some] at hnull
    have hfind := hsearch.trans (findOperator?_of_some (by simp) (by rw [hnull]; rfl))
    obtain ⟨-, hread, -⟩ := ofParts_eq_ok.mp ((ofText_of_find hfind).mp hread)
    exact ofText_behind_headAlias hrest hread

/-- **The text of a condition of three parts** is read as the condition if no name reads as a part
of its operator, and not at all otherwise. The condition prints. -/
theorem ofText_parts_iff (h : ofParts left operator right = .ok c) :
    (∀ d, ofText (left ++ " " ++ operator ++ " " ++ right) = .ok d ↔ c.IsLegible ∧ d = c) ∧
      ∃ s, c.sql = .ok s := by
  refine ⟨fun d => ⟨fun hread => ?_, ?_⟩, _, sql_of_ofParts h⟩
  · have hlegible := isLegible_of_ofText h hread
    rw [ofText_parts h hlegible] at hread
    cases hread
    exact ⟨hlegible, rfl⟩
  · rintro ⟨hlegible, rfl⟩
    exact ofText_parts h hlegible

/-- A null test in mixed case, over two lines. -/
theorem ofText_parts_iff_isNot :
    ofParts "c.deleted_at" " iS \n nOt " "null" = .ok ⟨"c.deleted_at", .isNot, .null⟩ ∧
      ofText "c.deleted_at  iS \n nOt  null" = .ok ⟨"c.deleted_at", .isNot, .null⟩ := by
  have hparts : ofParts "c.deleted_at" " iS \n nOt " "null" =
      .ok ⟨"c.deleted_at", .isNot, .null⟩ := by decide +kernel
  have hlegible : IsLegible ⟨"c.deleted_at", .isNot, .null⟩ := ⟨by decide, fun h => nomatch h⟩
  exact ⟨hparts, ((ofText_parts_iff hparts).1 _).mpr ⟨hlegible, rfl⟩⟩

/-- A column whose name is `is`: the condition is made of its parts and prints, and its text is
refused. -/
theorem ofText_column_is :
    ofParts "a.is" "=" "1" = .ok ⟨"a.is", .eq, .number "1"⟩ ∧
      JoinCondition.sql ⟨"a.is", .eq, .number "1"⟩ = .ok "`a`.`is` = 1" ∧
      ofText "a.is = 1" = .error (.badSegment "= 1" "= 1") := by
  decide +kernel

end JoinCondition

end TableQuery
