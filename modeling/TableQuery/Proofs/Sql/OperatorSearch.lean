import TableQuery.Proofs.Sql.JoinConditions

/-! # The first operator of a join condition

A condition that is one text is cut at its first operator. A text that spells an operator holds it
between blanks (`JoinOperator.exists_spelled`), and in a condition it is found where it is written
(`JoinCondition.findOperator?_spelled`), if nothing in front of it is taken for an operator.

The names of a path are not, but for one: a dot ends a word as a blank does, so a name `is` is taken
for the operator (`JoinCondition.exists_findOperator?_path`). Behind all other names the search goes
on (`JoinCondition.findOperator?_path_append`). -/

namespace TableQuery

open Outcome Text

/-! ### Operators in any case and spacing -/

namespace JoinOperator

variable {op : JoinOperator}

theorem ofText_eq_ok {text : String} : ofText text = .ok op ↔ normalForm text = op.sql := by
  constructor
  · intro h
    unfold ofText at h
    split at h
    · next op' hfind =>
      cases h
      have hform := List.find?_some hfind
      exact (beq_iff_eq.mp hform).symm
    · cases h
  · intro h
    rw [ofText, h]
    cases op <;> rfl

/-- The words of an operator. -/
def words : JoinOperator → List (List Char)
  | .is => [['I', 'S']]
  | .isNot => [['I', 'S'], ['N', 'O', 'T']]
  | op => [op.sql.toList]

theorem splitOn_sql (op : JoinOperator) : op.sql.toList.splitOn ' ' = op.words := by
  cases op <;> decide

theorem words_of_ofText {text : String} (h : ofText text = .ok op) :
    (blankPieces text.toList).map (List.map Char.toUpper) = op.words := by
  set words := (blankPieces text.toList).map (List.map Char.toUpper) with hwords
  have hform : [' '].intercalate words = op.sql.toList := by
    rw [← ofText_eq_ok.mp h, normalForm, blankPieces_map_toUpper, String.toList_intercalate,
      List.map_map]
    simp [Function.comp_def, hwords]
  have hne : words ≠ [] := by
    intro hnil
    rw [hnil] at hform
    cases op <;> exact absurd hform (by decide)
  have hblank : ∀ word ∈ words, ' ' ∉ word := by
    intro word hword hmem
    obtain ⟨written, hwritten, rfl⟩ := List.mem_map.mp hword
    obtain ⟨c, hc, hupper⟩ := List.mem_map.mp hmem
    have hblank := isBlank_of_mem_blankPieces written hwritten c hc
    rw [← isBlank_toUpper, hupper] at hblank
    exact absurd hblank (by decide)
  rw [← splitOn_sql, ← hform, List.splitOn_intercalate ' ' hblank hne]

/-- How an operator is written: a sign as it is, a word in any case, and two words with blanks
between them. -/
inductive Spelled : JoinOperator → List Char → Prop
  | sign {op : JoinOperator} (h : op.isNullTest = false) : Spelled op op.sql.toList
  | is {word : List Char} (h : word.map Char.toLower = ['i', 's']) : Spelled .is word
  | isNot {word gap negation : List Char} (h : word.map Char.toLower = ['i', 's'])
      (hne : gap ≠ []) (hgap : gap.all isBlank = true)
      (hnot : negation.map Char.toLower = ['n', 'o', 't']) :
      Spelled .isNot (word ++ gap ++ negation)

theorem eq_of_map_toUpper (hop : op.isNullTest = false) {word : List Char}
    (h : word.map Char.toUpper = op.sql.toList) : word = op.sql.toList := by
  have hlower : op.sql.toList.all (!·.isUpper) = true := by
    cases op <;> first | decide | cases hop
  rw [← h, List.all_map, List.all_eq_true] at hlower
  rw [← h]
  refine (List.map_id word).symm.trans (List.map_congr_left fun c hc => ?_)
  exact (toUpper_eq_of_not_isUpper (by simpa using hlower c hc)).symm

/-- **An operator stands between blanks** in a text that spells it. -/
theorem exists_spelled {text : String} (h : ofText text = .ok op) : ∃ before core after,
    text.toList = before ++ core ++ after ∧ before.all isBlank = true ∧
      after.all isBlank = true ∧ Spelled op core := by
  have hwords := words_of_ofText h
  cases hop : op.isNullTest with
  | false =>
    have hone : op.words = [op.sql.toList] := by
      cases op <;> first | rfl | cases hop
    rw [hone] at hwords
    obtain ⟨word, hword, hupper⟩ := List.map_eq_singleton_iff.mp hwords
    obtain ⟨before, after, htext, hbefore, hafter, -⟩ := blankPieces_eq_singleton hword
    exact ⟨before, word, after, htext, hbefore, hafter, eq_of_map_toUpper hop hupper ▸ .sign hop⟩
  | true =>
    cases op with
    | is =>
      obtain ⟨word, hword, hupper⟩ := List.map_eq_singleton_iff.mp hwords
      obtain ⟨before, after, htext, hbefore, hafter, -⟩ := blankPieces_eq_singleton hword
      exact ⟨before, word, after, htext, hbefore, hafter, .is (map_toLower_of_map_toUpper hupper)⟩
    | isNot =>
      obtain ⟨word, rest, hword, hupper, hrest⟩ := List.map_eq_cons_iff.mp hwords
      obtain ⟨negation, rfl, hnot⟩ := List.map_eq_singleton_iff.mp hrest
      obtain ⟨before, rest, htext, hbefore, -, hhead, hrest⟩ := blankPieces_eq_cons hword
      obtain ⟨gap, after, rfl, hgap, hafter, hblank⟩ := blankPieces_eq_singleton hrest
      have hne : gap ≠ [] := by
        rintro rfl
        -- the second word would begin with a blank
        cases negation with
        | nil => cases hnot
        | cons c negation =>
          have hc := hblank c List.mem_cons_self
          rw [hhead c rfl] at hc
          cases hc
      refine ⟨before, word ++ gap ++ negation, after, ?_, hbefore, hafter,
        .isNot (map_toLower_of_map_toUpper hupper) hne hgap (map_toLower_of_map_toUpper hnot)⟩
      simp [htext]
    | _ => cases hop

theorem ofText_around {text : String} (h : ofText text = .ok op)
    {before core after before' after' : List Char} (htext : text.toList = before ++ core ++ after)
    (hbefore : before.all isBlank = true) (hafter : after.all isBlank = true)
    (hbefore' : before'.all isBlank = true) (hafter' : after'.all isBlank = true) :
    ofText (String.ofList (before' ++ core ++ after')) = .ok op := by
  rw [ofText_eq_ok, normalForm, blankPieces_map_toUpper] at h ⊢
  rw [String.toList_ofList, blankPieces_around hbefore' hafter']
  rwa [htext, blankPieces_around hbefore hafter] at h

end JoinOperator

namespace JoinCondition

/-! ### Keywords -/

/-- The letters of the keywords. -/
def keywordLetters : List Char := ['i', 's', 'n', 'o', 't']

theorem isWord_of_isIdentifierChar {c : Char} (h : isIdentifierChar c = true) :
    isWord c = true := by
  rw [isIdentifierChar] at h
  rw [isWord, h, Bool.true_or]

theorem isIdentifierChar_of_map_toLower {word lower : List Char}
    (hlower : lower.all isIdentifierChar = true) (h : word.map Char.toLower = lower) :
    ∀ c ∈ word, isIdentifierChar c = true := fun c hc => by
  rw [← isIdentifierChar_toLower]
  exact List.all_eq_true.mp hlower _ (h ▸ List.mem_map_of_mem hc)

theorem isWord_of_keywordChar {k c : Char} (hk : k ∈ keywordLetters)
    (h : keywordChar k c = true) : isWord c = true := by
  rw [keywordChar, Bool.or_eq_true, beq_iff_eq, Bool.and_eq_true, beq_iff_eq, beq_iff_eq] at h
  rcases h with rfl | ⟨-, rfl⟩
  · have hletters : keywordLetters.all isIdentifierChar = true := by decide
    exact isWord_of_isIdentifierChar
      (isIdentifierChar_toLower c ▸ List.all_eq_true.mp hletters _ hk)
  · decide +kernel

theorem keywordChar_eq {c : Char} (hc : isIdentifierChar c = true) (k : Char) :
    keywordChar k c = (c.toLower == k) := by
  have hlong : c ≠ 'ſ' := by
    rintro rfl
    exact absurd hc (by decide)
  rw [keywordChar, beq_eq_false_iff_ne.mpr hlong, Bool.and_false, Bool.or_false]

theorem afterKeyword?_append {keyword word : List Char} (h : word.map Char.toLower = keyword)
    (rest : List Char) : afterKeyword? keyword (word ++ rest) = some rest := by
  subst h
  induction word with
  | nil => rfl
  | cons c word ih =>
    rw [List.map_cons, List.cons_append, afterKeyword?, if_pos (by simp [keywordChar]), ih]

theorem map_toLower_of_afterKeyword? {rest r : List Char} (hrest : rest.head?.any isWord = false)
    (hr : r.head?.any isWord = false) : ∀ {keyword word : List Char},
    keyword ⊆ keywordLetters → (∀ c ∈ word, isIdentifierChar c = true) →
    afterKeyword? keyword (word ++ rest) = some r → word.map Char.toLower = keyword
  | [], [], _, _, _ => rfl
  | [], c :: word, _, hword, h => by
    cases h
    rw [List.cons_append, List.head?_cons, Option.any_some,
      isWord_of_isIdentifierChar (hword c List.mem_cons_self)] at hr
    cases hr
  | k :: keyword, [], hkeyword, _, h => by
    cases rest with
    | nil => cases h
    | cons c rest =>
      rw [List.nil_append, afterKeyword?] at h
      split at h
      · next hc =>
        rw [List.head?_cons, Option.any_some,
          isWord_of_keywordChar (hkeyword List.mem_cons_self) hc] at hrest
        cases hrest
      · cases h
  | k :: keyword, c :: word, hkeyword, hword, h => by
    have hc := hword c List.mem_cons_self
    rw [List.cons_append, afterKeyword?, keywordChar_eq hc] at h
    split at h
    · next hletter =>
      rw [List.map_cons, beq_iff_eq.mp hletter, map_toLower_of_afterKeyword? hrest hr
        (List.subset_of_cons_subset hkeyword)
        (fun d hd => hword d (List.mem_cons_of_mem _ hd)) h]
    · cases h

/-- **A name is read as a keyword** exactly if it is the keyword in some case. -/
theorem afterWord?_append {keyword : List Char} (hkeyword : keyword ⊆ keywordLetters)
    (hne : keyword ≠ []) {word rest : List Char}
    (hword : ∀ c ∈ word, isIdentifierChar c = true) (hrest : rest.head?.any isWord = false) :
    afterWord? keyword (word ++ rest) =
      if word.map Char.toLower = keyword then some rest else none := by
  have hlast : keyword.getLast?.any isWord = true := by
    have hletters : keywordLetters.all isIdentifierChar = true := by decide
    rw [List.getLast?_eq_some_getLast hne]
    exact isWord_of_isIdentifierChar
      (List.all_eq_true.mp hletters _ (hkeyword (List.getLast_mem hne)))
  have hboundary (r : List Char) :
      isWordBoundary keyword.getLast? r.head? = !r.head?.any isWord := by
    rw [isWordBoundary, hlast]
    cases r.head?.any isWord <;> rfl
  rw [afterWord?]
  split
  · next heq =>
    rw [afterKeyword?_append heq, Option.filter_some, hboundary, hrest]
    rfl
  · next hdiffers =>
    refine Option.eq_none_iff_forall_ne_some.mpr fun r hr => hdiffers ?_
    obtain ⟨hr, hend⟩ := Option.filter_eq_some_iff.mp hr
    rw [hboundary, Bool.not_eq_true'] at hend
    exact map_toLower_of_afterKeyword? hrest hend hkeyword hword hr

/-! ### Null tests and signs -/

theorem any_isWord_of_isBlank {o : Option Char} (h : o.any isBlank = true) :
    o.any isWord = false := by
  cases o with
  | none => rfl
  | some c =>
    rw [Option.any_some] at h ⊢
    refine Bool.eq_false_iff.mpr fun hword => ?_
    rw [isBlank_of_isWord hword] at h
    cases h

theorem afterNullTest?_of_ne {before : Option Char} {word rest : List Char}
    (hword : ∀ c ∈ word, isIdentifierChar c = true) (hrest : rest.head?.any isWord = false)
    (hdiffers : word.map Char.toLower ≠ ['i', 's']) :
    afterNullTest? before (word ++ rest) = none := by
  have hnegated : ((afterKeyword? ['i', 's'] (word ++ rest)).bind fun r =>
      if r.head?.any isBlank then afterWord? ['n', 'o', 't'] (trimLeft r) else none) = none := by
    refine Option.bind_eq_none_iff.mpr fun r hr => if_neg fun hblank => hdiffers ?_
    exact map_toLower_of_afterKeyword? hrest (any_isWord_of_isBlank hblank) (by decide) hword hr
  rw [afterNullTest?]
  split
  · rw [hnegated, afterWord?_append (by decide) (by decide) hword hrest, if_neg hdiffers]
    rfl
  · rfl

/-- **A null test**: the word `is` alone, or the two words if `not` follows behind blanks. -/
theorem afterNullTest?_of_eq {before : Option Char} {word rest : List Char}
    (hbefore : before.any isWord = false) (hword : word.map Char.toLower = ['i', 's'])
    (hrest : rest.head?.any isWord = false) :
    afterNullTest? before (word ++ rest) =
      some ((if rest.head?.any isBlank then afterWord? ['n', 'o', 't'] (trimLeft rest)
        else none).getD rest) := by
  have hchars := isIdentifierChar_of_map_toLower (by decide) hword
  have hboundary : isWordBoundary before (word ++ rest).head? = true := by
    obtain ⟨c, cs, rfl⟩ := List.exists_cons_of_ne_nil (l := word) (by rintro rfl; cases hword)
    rw [isWordBoundary, hbefore, List.cons_append, List.head?_cons, Option.any_some,
      isWord_of_isIdentifierChar (hchars c List.mem_cons_self)]
    rfl
  rw [afterNullTest?, if_pos hboundary, afterKeyword?_append hword, Option.bind_some,
    afterWord?_append (by decide) (by decide) hchars hrest, if_pos hword]
  exact Option.or_some

theorem afterNullTest?_isNot {before : Option Char} {word gap negation rest : List Char}
    (hbefore : before.any isWord = false) (hword : word.map Char.toLower = ['i', 's'])
    (hne : gap ≠ []) (hgap : gap.all isBlank = true)
    (hnegation : negation.map Char.toLower = ['n', 'o', 't'])
    (hrest : rest.head?.any isWord = false) :
    afterNullTest? before (word ++ (gap ++ (negation ++ rest))) = some rest := by
  have hchars := isIdentifierChar_of_map_toLower (by decide) hnegation
  have htrim : trimLeft (gap ++ (negation ++ rest)) = negation ++ rest := by
    obtain ⟨c, cs, rfl⟩ := List.exists_cons_of_ne_nil (l := negation) (by
      rintro rfl
      cases hnegation)
    have hc := isBlank_of_isIdentifierChar (hchars c List.mem_cons_self)
    rw [trimLeft_blank_append hgap, trimLeft, List.cons_append,
      List.dropWhile_cons_of_neg (by simp [hc])]
  have hblank : (gap ++ (negation ++ rest)).head?.any isBlank = true := by
    obtain ⟨c, gap, rfl⟩ := List.exists_cons_of_ne_nil hne
    exact List.all_eq_true.mp hgap c List.mem_cons_self
  rw [afterNullTest?_of_eq hbefore hword (any_isWord_of_isBlank hblank), if_pos hblank, htrim,
    afterWord?_append (by decide) (by decide) hchars hrest, if_pos hnegation]
  rfl

theorem afterNullTest?_of_isWord {before : Option Char} {c : Char} {rest : List Char}
    (hbefore : before.any isWord = true) (hc : isWord c = true) :
    afterNullTest? before (c :: rest) = none := by
  rw [afterNullTest?, if_neg]
  simp [isWordBoundary, hbefore, hc]

theorem afterNullTest?_of_keywordChar {before : Option Char} {c : Char} {rest : List Char}
    (hc : keywordChar 'i' c = false) : afterNullTest? before (c :: rest) = none := by
  have hkeyword : afterKeyword? ['i', 's'] (c :: rest) = none := by
    rw [afterKeyword?, if_neg (by simp [hc])]
  rw [afterNullTest?, afterWord?, hkeyword]
  split <;> rfl

/-- Characters of comparison signs. -/
def signChars : List Char := ['<', '>', '!', '=']

theorem afterSign?_of_not_mem {c : Char} (hc : c ∉ signChars) (rest : List Char) :
    afterSign? (c :: rest) = none := by
  unfold afterSign?
  split <;> first | rfl | simp_all [signChars]

theorem afterSign?_append {op : JoinOperator} (hop : op.isNullTest = false) {after : List Char}
    (hafter : after.head?.any isBlank = true) :
    afterSign? (op.sql.toList ++ after) = some after := by
  cases after with
  | nil => cases hafter
  | cons c after =>
    rw [List.head?_cons, Option.any_some] at hafter
    have hne : c ≠ '=' ∧ c ≠ '>' := by
      constructor <;> rintro rfl <;> exact absurd hafter (by decide)
    cases op <;> simp_all [JoinOperator.sql, afterSign?, JoinOperator.isNullTest]

/-! ### The first operator -/

theorem findOperator?_cons {before : List Char} {c : Char} {rest : List Char}
    (hnull : afterNullTest? before.head? (c :: rest) = none) (hc : c ∉ signChars) :
    findOperator? before (c :: rest) = findOperator? (c :: before) rest := by
  rw [findOperator?, hnull, afterSign?_of_not_mem hc]
  rfl

theorem findOperator?_of_some {before cs after : List Char} (hne : cs ≠ [])
    (h : (afterNullTest? before.head? cs).or (afterSign? cs) = some after) :
    findOperator? before cs = some (before, cs.take (cs.length - after.length), after) := by
  obtain ⟨c, cs, rfl⟩ := List.exists_cons_of_ne_nil hne
  rw [findOperator?, h]

theorem not_mem_signChars_of_isIdentifierChar {c : Char} (h : isIdentifierChar c = true) :
    c ∉ signChars := by
  have hsigns : signChars.all (!isIdentifierChar ·) = true := by decide
  intro hmem
  have hother := List.all_eq_true.mp hsigns c hmem
  rw [h] at hother
  cases hother

/-- The search goes on behind blanks. -/
theorem findOperator?_blank_append {blanks : List Char} (h : blanks.all isBlank = true)
    (before rest : List Char) :
    findOperator? before (blanks ++ rest) = findOperator? (blanks.reverse ++ before) rest := by
  induction blanks generalizing before with
  | nil => rfl
  | cons c blanks ih =>
    rw [List.all_cons, Bool.and_eq_true] at h
    have hletter := forall_blank (p := fun c => !keywordChar 'i' c) (by decide) h.1
    have hsign := forall_blank (p := fun c => !signChars.contains c) (by decide) h.1
    rw [List.cons_append, findOperator?_cons
      (afterNullTest?_of_keywordChar (by simpa using hletter)) (by simpa using hsign), ih h.2]
    simp

/-- The search goes on behind a word that it is inside of. -/
theorem findOperator?_word_append {word : List Char}
    (hword : ∀ c ∈ word, isIdentifierChar c = true) {before : List Char}
    (hbefore : before.head?.any isWord = true) (rest : List Char) :
    findOperator? before (word ++ rest) = findOperator? (word.reverse ++ before) rest := by
  induction word generalizing before with
  | nil => rfl
  | cons c word ih =>
    obtain ⟨hc, hword⟩ := List.forall_mem_cons.mp hword
    have hisWord := isWord_of_isIdentifierChar hc
    rw [List.cons_append, findOperator?_cons (afterNullTest?_of_isWord hbefore hisWord)
      (not_mem_signChars_of_isIdentifierChar hc), ih hword (by rwa [List.head?_cons])]
    simp

theorem findOperator?_name_append {name : String} (hname : isIdentifier name = true)
    (hdiffers : eqIgnoringCase name "is" = false) (before : List Char) {rest : List Char}
    (hrest : rest.head?.any isWord = false) : findOperator? before (name.toList ++ rest) =
      findOperator? (name.toList.reverse ++ before) rest := by
  have hchars := isIdentifier_over hname
  have hnull : afterNullTest? before.head? (name.toList ++ rest) = none :=
    afterNullTest?_of_ne hchars hrest fun heq =>
      Bool.eq_false_iff.mp hdiffers (eqIgnoringCase_iff.mpr heq)
  obtain ⟨c, cs, hcs, -, -⟩ := isIdentifier_iff.mp hname
  rw [Over, hcs] at hchars
  rw [hcs, List.cons_append] at hnull ⊢
  obtain ⟨hc, hcs⟩ := List.forall_mem_cons.mp hchars
  rw [findOperator?_cons hnull (not_mem_signChars_of_isIdentifierChar hc),
    findOperator?_word_append hcs (by rw [List.head?_cons]; exact isWord_of_isIdentifierChar hc)]
  simp

theorem any_isWord_dot (cs : List Char) : ('.' :: cs).head?.any isWord = false := by
  rw [List.head?_cons, Option.any_some]
  decide +kernel

theorem findOperator?_dot (before rest : List Char) :
    findOperator? before ('.' :: rest) = findOperator? ('.' :: before) rest :=
  findOperator?_cons (afterNullTest?_of_keywordChar (by decide)) (by decide)

theorem toList_intercalate_cons (name next : String) (names : List String) :
    (".".intercalate (name :: next :: names)).toList =
      name.toList ++ '.' :: (".".intercalate (next :: names)).toList := by
  rw [String.intercalate_cons_cons, String.toList_append, String.toList_append]
  simp

theorem exists_findOperator?_name {name : String} (hname : isIdentifier name = true)
    (his : eqIgnoringCase name "is" = true) {before rest : List Char}
    (hbefore : before.head?.any isWord = false) (hrest : rest.head?.any isWord = false) :
    ∃ op after, findOperator? before (name.toList ++ rest) = some (before, op, after) := by
  obtain ⟨c, cs, hcs, -, -⟩ := isIdentifier_iff.mp hname
  have hnull := afterNullTest?_of_eq hbefore (eqIgnoringCase_iff.mp his) hrest
  exact ⟨_, _, findOperator?_of_some (by simp [hcs]) (by rw [hnull]; rfl)⟩

/-- **The search goes on behind a path** if none of its names is `is`. -/
theorem findOperator?_path_append {rest : List Char} (hrest : rest.head?.any isWord = false) :
    ∀ {names : List String} (before : List Char), names ≠ [] →
      (∀ name ∈ names, isIdentifier name = true) →
      (∀ name ∈ names, eqIgnoringCase name "is" = false) →
      findOperator? before ((".".intercalate names).toList ++ rest) =
        findOperator? ((".".intercalate names).toList.reverse ++ before) rest
  | [], _, hne, _, _ => absurd rfl hne
  | [name], before, _, hnames, hdiffers => by
    rw [String.intercalate_singleton]
    exact findOperator?_name_append (hnames name List.mem_cons_self)
      (hdiffers name List.mem_cons_self) before hrest
  | name :: next :: names, before, _, hnames, hdiffers => by
    obtain ⟨hname, hnames⟩ := List.forall_mem_cons.mp hnames
    obtain ⟨hfirst, hdiffers⟩ := List.forall_mem_cons.mp hdiffers
    rw [toList_intercalate_cons, List.append_assoc, List.cons_append,
      findOperator?_name_append hname hfirst before (any_isWord_dot _), findOperator?_dot,
      findOperator?_path_append hrest _ (List.cons_ne_nil _ _) hnames hdiffers]
    simp

/-- **A name `is` of a path is taken for an operator**, so that nothing or a dot stands before
it. -/
theorem exists_findOperator?_path {rest : List Char} (hrest : rest.head?.any isWord = false) :
    ∀ {names : List String} {before : List Char}, before.head?.any isWord = false →
      (∀ name ∈ names, isIdentifier name = true) →
      (∃ name ∈ names, eqIgnoringCase name "is" = true) → ∃ before' op after,
        findOperator? before ((".".intercalate names).toList ++ rest) = some (before', op, after) ∧
          (before' = before ∨ before'.head? = some '.')
  | [], _, _, _, his => nomatch his
  | [name], before, hbefore, hnames, his => by
    obtain ⟨_, hmem, his⟩ := his
    obtain rfl := List.mem_singleton.mp hmem
    rw [String.intercalate_singleton]
    obtain ⟨op, after, hfind⟩ := exists_findOperator?_name (hnames _ hmem) his hbefore hrest
    exact ⟨before, op, after, hfind, .inl rfl⟩
  | name :: next :: names, before, hbefore, hnames, his => by
    obtain ⟨hname, hnames⟩ := List.forall_mem_cons.mp hnames
    rw [toList_intercalate_cons, List.append_assoc, List.cons_append]
    cases hfirst : eqIgnoringCase name "is" with
    | true =>
      obtain ⟨op, after, hfind⟩ :=
        exists_findOperator?_name hname hfirst hbefore (any_isWord_dot _)
      exact ⟨before, op, after, hfind, .inl rfl⟩
    | false =>
      have hrest' : ∃ name ∈ next :: names, eqIgnoringCase name "is" = true := by
        obtain ⟨name', hmem, his⟩ := his
        rcases List.mem_cons.mp hmem with rfl | hmem
        · rw [hfirst] at his
          cases his
        · exact ⟨name', hmem, his⟩
      obtain ⟨before', op, after, hfind, hdot⟩ := exists_findOperator?_path hrest
        (any_isWord_dot _) hnames hrest'
      rw [findOperator?_name_append hname hfirst before (any_isWord_dot _), findOperator?_dot]
      exact ⟨before', op, after, hfind, .inr (hdot.elim (fun heq => heq ▸ rfl) id)⟩

/-- **An operator between blanks is found where it is written.** -/
theorem findOperator?_spelled {op : JoinOperator} {core : List Char}
    (h : JoinOperator.Spelled op core) {before after : List Char}
    (hbefore : before.head?.any isWord = false) (hafter : after.head?.any isBlank = true)
    (hnot : op = .is → afterWord? ['n', 'o', 't'] (trimLeft after) = none) :
    findOperator? before (core ++ after) = some (before, core, after) := by
  have hend := any_isWord_of_isBlank hafter
  suffices hread : core ≠ [] ∧ (afterNullTest? before.head? (core ++ after)).or
      (afterSign? (core ++ after)) = some after by
    rw [findOperator?_of_some (by simp [hread.1]) hread.2]
    simp
  cases h with
  | sign hop =>
    refine ⟨by cases op <;> decide, ?_⟩
    have hnull : afterNullTest? before.head? (op.sql.toList ++ after) = none := by
      cases op <;> first | exact afterNullTest?_of_keywordChar (by decide) | cases hop
    rw [hnull, afterSign?_append hop hafter]
    rfl
  | is hword =>
    have hne : core ≠ [] := by
      rintro rfl
      cases hword
    refine ⟨hne, ?_⟩
    rw [afterNullTest?_of_eq hbefore hword hend, if_pos hafter, hnot rfl]
    rfl
  | @isNot word gap negation hword hne hgap hnegation =>
    refine ⟨by simp [hne], ?_⟩
    rw [List.append_assoc, List.append_assoc,
      afterNullTest?_isNot hbefore hword hne hgap hnegation hend]
    rfl

end JoinCondition

end TableQuery
