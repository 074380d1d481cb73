import Mathlib.Data.List.DropRight
import Mathlib.Tactic.SplitIfs
import TableQuery.Sql.Identifier
import TableQuery.Sql.Template
import TableQuery.Text.Basic

/-! # Blanks around and inside of texts

A blank is one of 25 characters, so it is no word character and no character of an identifier.
Leaving out the blanks around a text keeps all characters that are no blanks
(`Text.mem_trimChars`), and what is left is the part that blanks stand around (`Text.isPadded_iff`).
A text that is cut at a separator loses no more than blanks at its ends (`Text.exists_trim_cut`). A
text that is not blank stays so, and so does an expression whose placeholders are filled in
(`Template.isBlankText_expand`). -/

namespace TableQuery

namespace Text

/-- The code points of the blanks. -/
def blankCodes : List Nat :=
  [0x09, 0x0a, 0x0b, 0x0c, 0x0d, 0x20, 0x85, 0xa0, 0x1680, 0x2000, 0x2001, 0x2002, 0x2003, 0x2004,
   0x2005, 0x2006, 0x2007, 0x2008, 0x2009, 0x200a, 0x2028, 0x2029, 0x202f, 0x205f, 0x3000]

/-- What holds of 25 characters holds of all blanks. -/
theorem forall_blank {p : Char → Bool} (h : ∀ n ∈ blankCodes, p (Char.ofNat n) = true) {c : Char}
    (hc : isBlank c = true) : p c = true := by
  have hmem : c.toNat ∈ blankCodes := by
    simp only [isBlank, Bool.or_eq_true, Bool.and_eq_true, decide_eq_true_eq, beq_iff_eq] at hc
    simp only [blankCodes, List.mem_cons, List.not_mem_nil]
    omega
  rw [← Char.ofNat_toNat c]
  exact h _ hmem

theorem isBlank_of_isWord {c : Char} (h : isWord c = true) : isBlank c = false := by
  refine Bool.eq_false_iff.mpr fun hblank => ?_
  have hword := forall_blank (p := fun c => !isWord c) (by decide +kernel) hblank
  simp [h] at hword

theorem isBlank_of_isIdentifierChar {c : Char} (h : isIdentifierChar c = true) :
    isBlank c = false := by
  refine Bool.eq_false_iff.mpr fun hblank => ?_
  have hchar := forall_blank (p := fun c => !isIdentifierChar c) (by decide +kernel) hblank
  simp [h] at hchar

theorem isBlank_of_isIdentifierStart {c : Char} (h : isIdentifierStart c = true) :
    isBlank c = false := by
  refine isBlank_of_isIdentifierChar ?_
  rw [isIdentifierStart, Bool.or_eq_true] at h
  rw [isIdentifierChar, Char.isAlphanum, Bool.or_eq_true, Bool.or_eq_true]
  exact h.imp_left .inl

/-! ### Blanks around a text -/

theorem mem_dropWhile_isBlank {c : Char} (hc : isBlank c = false) {cs : List Char} :
    c ∈ cs.dropWhile isBlank ↔ c ∈ cs := by
  refine ⟨fun h => (List.dropWhile_sublist _).subset h, fun h => ?_⟩
  rw [← List.takeWhile_append_dropWhile (p := isBlank) (l := cs), List.mem_append] at h
  refine h.resolve_left fun htake => ?_
  rw [List.all_eq_true.mp List.all_takeWhile c htake] at hc
  cases hc

theorem mem_trimChars {c : Char} (hc : isBlank c = false) {cs : List Char} :
    c ∈ trimChars cs ↔ c ∈ cs := by
  rw [trimChars, trimRight, List.mem_reverse, mem_dropWhile_isBlank hc, List.mem_reverse, trimLeft,
    mem_dropWhile_isBlank hc]

theorem isBlankText_eq_false {s : String} :
    isBlankText s = false ↔ ∃ c ∈ s.toList, isBlank c = false := by
  simp [isBlankText]

theorem isBlankText_trim {s : String} (h : isBlankText s = false) :
    isBlankText (trim s) = false := by
  obtain ⟨c, hc, hblank⟩ := isBlankText_eq_false.mp h
  exact isBlankText_eq_false.mpr ⟨c, by rwa [toList_trim, mem_trimChars hblank], hblank⟩

theorem isEmpty_trim (s : String) : (trim s).isEmpty = isBlankText s := by
  cases hblank : isBlankText s with
  | true =>
    have hdrop : s.toList.dropWhile isBlank = [] :=
      List.dropWhile_eq_nil_iff.mpr (List.all_eq_true.mp hblank)
    rw [trim, trimChars, trimLeft, hdrop]
    rfl
  | false =>
    obtain ⟨c, hc, -⟩ := isBlankText_eq_false.mp (isBlankText_trim hblank)
    rw [Bool.eq_false_iff, Ne, String.isEmpty_iff]
    intro hempty
    rw [hempty] at hc
    exact absurd hc List.not_mem_nil

theorem trimLeft_of_head {cs : List Char} (h : ∀ c ∈ cs.head?, isBlank c = false) :
    trimLeft cs = cs := by
  cases cs with
  | nil => rfl
  | cons c cs => rw [trimLeft, List.dropWhile_cons_of_neg (by simp [h c rfl])]

theorem trimRight_of_last {cs : List Char} (h : ∀ c ∈ cs.getLast?, isBlank c = false) :
    trimRight cs = cs := by
  have hreverse : trimLeft cs.reverse = cs.reverse := trimLeft_of_head (by rwa [List.head?_reverse])
  rw [trimLeft] at hreverse
  rw [trimRight, hreverse, List.reverse_reverse]

theorem trimChars_of_ends {cs : List Char} (hfirst : ∀ c ∈ cs.head?, isBlank c = false)
    (hlast : ∀ c ∈ cs.getLast?, isBlank c = false) : trimChars cs = cs := by
  rw [trimChars, trimLeft_of_head hfirst, trimRight_of_last hlast]

theorem trim_of_ends {s : String} (hfirst : ∀ c ∈ s.toList.head?, isBlank c = false)
    (hlast : ∀ c ∈ s.toList.getLast?, isBlank c = false) : trim s = s := by
  rw [trim, trimChars_of_ends hfirst hlast, String.ofList_toList]

theorem trim_eq_self {s : String} (h : ∀ c ∈ s.toList, isBlank c = false) : trim s = s :=
  trim_of_ends (fun c hc => h c (List.mem_of_mem_head? hc)) fun c hc =>
    h c (List.mem_of_getLast? hc)

theorem trimLeft_blank_append {before : List Char} (h : before.all isBlank = true)
    (cs : List Char) : trimLeft (before ++ cs) = trimLeft cs :=
  List.dropWhile_append_of_pos (List.all_eq_true.mp h)

theorem trimRight_append_blank {after : List Char} (h : after.all isBlank = true)
    (cs : List Char) : trimRight (cs ++ after) = trimRight cs := by
  have hreverse : ∀ c ∈ after.reverse, isBlank c = true := fun c hc =>
    List.all_eq_true.mp h c (List.mem_reverse.mp hc)
  rw [trimRight, List.reverse_append, List.dropWhile_append_of_pos hreverse]
  rfl

theorem trimChars_around {before after : List Char} (hbefore : before.all isBlank = true)
    (hafter : after.all isBlank = true) (cs : List Char) :
    trimChars (before ++ cs ++ after) = trimChars cs := by
  rw [List.append_assoc, trimChars, trimLeft_blank_append hbefore, trimChars, trimLeft,
    List.dropWhile_append]
  split
  · next hempty =>
    -- nothing is left of the text itself, and nothing of the blanks behind it
    have hrest : after.dropWhile isBlank = [] :=
      List.dropWhile_eq_nil_iff.mpr (List.all_eq_true.mp hafter)
    rw [trimLeft, List.isEmpty_iff.mp hempty, hrest]
  · exact trimRight_append_blank hafter _

/-- **More blanks around a text make no difference.** -/
theorem trim_around {before after : String} (hbefore : isBlankText before = true)
    (hafter : isBlankText after = true) (s : String) :
    trim (before ++ s ++ after) = trim s := by
  rw [trim, String.toList_append, String.toList_append, trimChars_around hbefore hafter, trim]

/-- The text is the part with blanks around it. -/
def IsPadded (part text : String) : Prop :=
  ∃ before after, isBlankText before = true ∧ isBlankText after = true ∧
    text = before ++ part ++ after

theorem eq_trimRight_append (cs : List Char) :
    ∃ after : String, isBlankText after = true ∧ cs = trimRight cs ++ after.toList := by
  refine ⟨String.ofList (cs.rtakeWhile isBlank), ?_, ?_⟩
  · rw [isBlankText, String.toList_ofList, List.all_eq_true]
    exact fun c hc => List.mem_rtakeWhile_imp hc
  · rw [String.toList_ofList]
    exact List.rdropWhile_append_rtakeWhile.symm

theorem isPadded_trim (s : String) : IsPadded (trim s) s := by
  obtain ⟨after, hafter, hright⟩ := eq_trimRight_append (trimLeft s.toList)
  have hleft : s.toList = s.toList.takeWhile isBlank ++ trimLeft s.toList :=
    List.takeWhile_append_dropWhile.symm
  refine ⟨String.ofList (s.toList.takeWhile isBlank), after, by simp [isBlankText], hafter,
    String.toList_inj.mp ?_⟩
  rw [String.toList_append, String.toList_append, String.toList_ofList, toList_trim, trimChars,
    List.append_assoc, ← hright, ← hleft]

theorem isPadded_iff {part text : String} (h : trim part = part) :
    IsPadded part text ↔ trim text = part := by
  constructor
  · rintro ⟨before, after, hbefore, hafter, rfl⟩
    rw [trim_around hbefore hafter, h]
  · rintro rfl
    exact isPadded_trim text

/-! ### Blanks around the sides of a separator -/

theorem trimLeft_append_cons {c : Char} (hc : isBlank c = false) (before after : List Char) :
    trimLeft (before ++ c :: after) = trimLeft before ++ c :: after := by
  rw [trimLeft, List.dropWhile_append]
  split
  · next hempty =>
    rw [List.dropWhile_cons_of_neg (by simp [hc]), trimLeft, List.isEmpty_iff.mp hempty,
      List.nil_append]
  · rfl

theorem trimRight_append_cons {c : Char} (hc : isBlank c = false) (before after : List Char) :
    trimRight (before ++ c :: after) = before ++ c :: trimRight after := by
  have hreverse : (before ++ c :: after).reverse = after.reverse ++ c :: before.reverse := by simp
  have hleft := trimLeft_append_cons hc after.reverse before.reverse
  rw [trimLeft, trimLeft] at hleft
  rw [trimRight, hreverse, hleft, trimRight]
  simp

/-- **A text that is cut at a separator loses the blanks in front of the left side and those behind
the right side**: both sides trim to the same texts as before. -/
theorem exists_trim_cut {sep : String} {c : Char} (hsep : sep.toList = [c])
    (hc : isBlank c = false) (x y : String) : ∃ x' y', trim (x ++ sep ++ y) = x' ++ sep ++ y' ∧
      trim x' = trim x ∧ trim y' = trim y := by
  refine ⟨String.ofList (trimLeft x.toList), String.ofList (trimRight y.toList),
    String.toList_inj.mp ?_, ?_, ?_⟩
  · have htext : (x ++ sep ++ y).toList = x.toList ++ c :: y.toList := by
      simp [String.toList_append, hsep]
    rw [toList_trim, htext, trimChars, trimLeft_append_cons hc, trimRight_append_cons hc]
    simp [String.toList_append, hsep]
  · rw [trim, String.toList_ofList, trimChars, trimLeft, trimLeft, List.dropWhile_idempotent]
    rfl
  · obtain ⟨after, hafter, hy⟩ := eq_trimRight_append y.toList
    have hy' : "" ++ String.ofList (trimRight y.toList) ++ after = y :=
      String.toList_inj.mp (by simp [String.toList_append, ← hy])
    rw [← hy', trim_around rfl hafter]
    simp [← hy]

/-- Leaving out the trailing blanks brings no blank to the front. -/
theorem trimLeft_trimRight {cs : List Char} (h : trimLeft cs = cs) :
    trimLeft (trimRight cs) = trimRight cs := by
  have hkept : trimRight cs <+: cs := List.rdropWhile_prefix isBlank cs
  refine List.dropWhile_eq_self_iff.mpr fun hl => ?_
  rw [hkept.getElem hl]
  exact List.dropWhile_eq_self_iff.mp h (hl.trans_le hkept.length_le)

/-- **Blanks around a text are left out once and for all.** -/
theorem trim_trim (s : String) : trim (trim s) = trim s := by
  have hleft : trimLeft (trimLeft s.toList) = trimLeft s.toList :=
    List.dropWhile_idempotent isBlank s.toList
  have hright : trimRight (trimRight (trimLeft s.toList)) = trimRight (trimLeft s.toList) :=
    List.rdropWhile_idempotent isBlank (trimLeft s.toList)
  rw [trim, toList_trim, trimChars, trimChars, trimLeft_trimRight hleft, hright, trim, trimChars]

end Text

/-! ### Expressions -/

namespace Template

theorem hole?_word {cs word rest : List Char} (h : hole? cs = some (word, rest)) :
    ∃ c ∈ word, Text.isWord c = true := by
  simp only [hole?] at h
  split at h
  · split_ifs at h with hempty
    cases h
    have hne : cs.takeWhile Text.isWord ≠ [] := fun h => hempty (List.isEmpty_iff.mpr h)
    obtain ⟨c, word', hword⟩ := List.exists_cons_of_ne_nil hne
    have hmem : c ∈ cs.takeWhile Text.isWord := by simp [hword]
    exact ⟨c, hmem, List.all_eq_true.mp List.all_takeWhile c hmem⟩
  · cases h

theorem exists_expanded (suffix : List Char) (cs : List Char)
    (h : ∃ c ∈ cs, Text.isBlank c = false) :
    ∃ c ∈ (parts cs).flatMap (expandPart suffix), Text.isBlank c = false := by
  fun_induction parts cs with
  | case1 => exact h
  | case2 cs word rest hhole ih =>
    obtain ⟨c, hc, hword⟩ := hole?_word hhole
    exact ⟨c, by simp [expandPart, hc], Text.isBlank_of_isWord hword⟩
  | case3 cs hhole ih => exact ⟨'\x7b', by simp [expandPart], by decide⟩
  | case4 c cs hc ih =>
    obtain ⟨d, hd, hblank⟩ := h
    rcases List.mem_cons.mp hd with rfl | hd
    · exact ⟨d, by simp [expandPart], hblank⟩
    · obtain ⟨e, he, hblank'⟩ := ih ⟨d, hd, hblank⟩
      exact ⟨e, by simp only [List.flatMap_cons, List.mem_append]; exact .inr he, hblank'⟩

/-- **An expression that is not blank stays so** when its placeholders are filled in. -/
theorem isBlankText_expand (suffix : String) {sql : String} (h : Text.isBlankText sql = false) :
    Text.isBlankText (expand suffix sql) = false := by
  rw [Text.isBlankText_eq_false, expand, String.toList_ofList]
  exact exists_expanded _ _ (Text.isBlankText_eq_false.mp h)

end Template

end TableQuery
