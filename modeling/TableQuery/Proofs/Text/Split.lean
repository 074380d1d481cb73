import Mathlib.Data.List.Infix
import Mathlib.Tactic.SplitIfs
import TableQuery.Text.Basic

/-! # Cutting texts at separators

A text is cut at the first occurrence of a separator exactly if no occurrence begins earlier
(`Text.cutAt_eq_some`), and not at all exactly if the separator does not occur
(`Text.cutAt_eq_none`). Cutting again and again gives the parts of the text (`Text.IsSplit`); every
text has such parts, and no others. The pieces between the occurrences of one character are what was
joined with it (`Text.piecesOf_intercalate`), and those of both sides of any of its occurrences
(`Text.piecesOf_append`). -/

namespace TableQuery.Text

variable {sep cs : List Char}

/-! ### The first occurrence -/

/-- The text has the separator between the two sides, and no occurrence of it begins earlier. -/
structure IsFirstCut (sep low high cs : List Char) : Prop where
  text : cs = low ++ sep ++ high
  first : ∀ l h, cs = l ++ sep ++ h → low.length ≤ l.length

theorem IsFirstCut.unique {low high low' high' : List Char} (h : IsFirstCut sep low high cs)
    (h' : IsFirstCut sep low' high' cs) : low = low' ∧ high = high' := by
  have hlength : low.length = low'.length :=
    Nat.le_antisymm (h.first low' high' h'.text) (h'.first low high h.text)
  have htext : low ++ (sep ++ high) = low' ++ (sep ++ high') := by
    rw [← List.append_assoc, ← h.text, h'.text, List.append_assoc]
  obtain ⟨hlow, hrest⟩ := List.append_inj htext hlength
  exact ⟨hlow, List.append_cancel_left hrest⟩

theorem IsFirstCut.isInfix {low high : List Char} (h : IsFirstCut sep low high cs) :
    sep <:+: cs := ⟨low, high, h.text.symm⟩

/-- Both sides of a cut are shorter, unless the separator is empty. -/
theorem IsFirstCut.length_lt {low high : List Char} (h : IsFirstCut sep low high cs)
    (hsep : sep ≠ []) : high.length < cs.length := by
  have hpos : 0 < sep.length := List.length_pos_iff.mpr hsep
  rw [h.text, List.length_append, List.length_append]
  omega

theorem isFirstCut_of_cutAt {low high : List Char} (h : cutAt sep cs = some (low, high)) :
    IsFirstCut sep low high cs := by
  induction cs generalizing low with
  | nil =>
    unfold cutAt at h
    split_ifs at h with hsep
    cases h
    rw [List.isEmpty_iff.mp hsep]
    exact ⟨rfl, fun l h _ => Nat.zero_le _⟩
  | cons c cs ih =>
    unfold cutAt at h
    split at h
    · next rest hrest =>
      cases h
      rw [List.isPrefixOf?_eq_some_iff_append_eq] at hrest
      exact ⟨hrest.symm, fun l h _ => Nat.zero_le _⟩
    · next hnone =>
      obtain ⟨⟨low', high'⟩, hsides, heq⟩ := Option.map_eq_some_iff.mp h
      obtain ⟨rfl, rfl⟩ := Prod.mk.inj heq
      have hcut := ih hsides
      refine ⟨by rw [hcut.text]; rfl, fun l rest htext => ?_⟩
      cases l with
      | nil =>
        have hprefix : sep.isPrefixOf? (c :: cs) = some rest :=
          List.isPrefixOf?_eq_some_iff_append_eq.mpr htext.symm
        rw [hnone] at hprefix
        cases hprefix
      | cons d l =>
        have hlow : low'.length ≤ l.length := hcut.first l rest (List.cons.inj htext).2
        simpa using hlow

theorem exists_cutAt (h : sep <:+: cs) : ∃ sides, cutAt sep cs = some sides := by
  induction cs with
  | nil =>
    obtain rfl := List.infix_nil.mp h
    exact ⟨([], []), rfl⟩
  | cons c cs ih =>
    unfold cutAt
    split
    · next rest hrest => exact ⟨([], rest), rfl⟩
    · next hnone =>
      rcases List.infix_cons_iff.mp h with hprefix | hoccurs
      · obtain ⟨rest, hrest⟩ := hprefix
        rw [List.isPrefixOf?_eq_some_iff_append_eq.mpr hrest] at hnone
        cases hnone
      · obtain ⟨sides, hsides⟩ := ih hoccurs
        exact ⟨(c :: sides.1, sides.2), by rw [hsides]; rfl⟩

/-- **A text is cut at the first occurrence of the separator.** -/
theorem cutAt_eq_some {low high : List Char} :
    cutAt sep cs = some (low, high) ↔ IsFirstCut sep low high cs := by
  refine ⟨isFirstCut_of_cutAt, fun h => ?_⟩
  obtain ⟨⟨low', high'⟩, hsides⟩ := exists_cutAt h.isInfix
  obtain ⟨rfl, rfl⟩ := h.unique (isFirstCut_of_cutAt hsides)
  exact hsides

/-- **A text is not cut exactly if the separator does not occur.** -/
theorem cutAt_eq_none : cutAt sep cs = none ↔ ¬ sep <:+: cs := by
  constructor
  · intro hnone h
    obtain ⟨sides, hsides⟩ := exists_cutAt h
    rw [hnone] at hsides
    cases hsides
  · intro h
    refine Option.eq_none_iff_forall_ne_some.mpr fun sides hsides => h ?_
    exact (isFirstCut_of_cutAt hsides).isInfix

theorem isFirstCut_singleton {c : Char} {low : List Char} (h : c ∉ low) (high : List Char) :
    IsFirstCut [c] low high (low ++ [c] ++ high) := by
  refine ⟨rfl, fun l rest htext => ?_⟩
  by_contra hlt
  -- the character would stand inside of the left side
  have hmem : (low ++ ([c] ++ high))[l.length]? = some c := by
    rw [← List.append_assoc, htext]
    simp
  rw [List.getElem?_append_left (by omega)] at hmem
  exact h (List.mem_of_getElem? hmem)

/-! ### The last occurrence of a character -/

theorem cutAtLast_append {c : Char} (before : List Char) {after : List Char} (h : c ∉ after) :
    cutAtLast c (before ++ c :: after) = some (before, after) := by
  have hreverse : (before ++ c :: after).reverse = after.reverse ++ [c] ++ before.reverse := by simp
  have hcut := isFirstCut_singleton (List.mem_reverse.not.mpr h) before.reverse
  rw [cutAtLast, hreverse, cutAt_eq_some.mpr hcut]
  simp

theorem cutAtLast_eq_none {c : Char} (h : c ∉ cs) : cutAtLast c cs = none := by
  have hoccurs : ¬ [c] <:+: cs.reverse := fun hoccurs =>
    h (List.mem_reverse.mp (hoccurs.subset List.mem_cons_self))
  rw [cutAtLast, cutAt_eq_none.mpr hoccurs]
  rfl

/-! ### All occurrences -/

/-- The parts of a text between the occurrences of a separator, cut off from the left. -/
inductive IsSplit (sep : List Char) : List Char → List (List Char) → Prop
  | last {cs : List Char} (h : ¬ sep <:+: cs) : IsSplit sep cs [cs]
  | cut {cs low rest : List Char} {parts : List (List Char)} (h : IsFirstCut sep low rest cs)
    (hrest : IsSplit sep rest parts) : IsSplit sep cs (low :: parts)

theorem exists_isSplit (hsep : sep ≠ []) (cs : List Char) : ∃ parts, IsSplit sep cs parts := by
  induction hn : cs.length using Nat.strong_induction_on generalizing cs with
  | _ n ih =>
    by_cases h : sep <:+: cs
    · obtain ⟨⟨low, rest⟩, hsides⟩ := exists_cutAt h
      have hcut := isFirstCut_of_cutAt hsides
      obtain ⟨parts, hparts⟩ := ih rest.length (hn ▸ hcut.length_lt hsep) rest rfl
      exact ⟨low :: parts, .cut hcut hparts⟩
    · exact ⟨[cs], .last h⟩

theorem IsSplit.unique {parts parts' : List (List Char)} (h : IsSplit sep cs parts)
    (h' : IsSplit sep cs parts') : parts = parts' := by
  induction h generalizing parts' with
  | last hnone =>
    cases h' with
    | last => rfl
    | cut hcut => exact absurd hcut.isInfix hnone
  | cut hcut _ ih =>
    cases h' with
    | last hnone => exact absurd hcut.isInfix hnone
    | cut hcut' hrest' =>
      obtain ⟨rfl, rfl⟩ := hcut.unique hcut'
      rw [ih hrest']

/-- **Every text has parts, and no others.** -/
theorem existsUnique_isSplit (hsep : sep ≠ []) (cs : List Char) :
    ∃! parts, IsSplit sep cs parts := by
  obtain ⟨parts, hparts⟩ := exists_isSplit hsep cs
  exact ⟨parts, hparts, fun parts' hparts' => hparts'.unique hparts⟩

/-! ### Occurrences of one character -/

theorem exists_cut {sep : String} {c : Char} (hsep : sep.toList = [c]) {s : String}
    (h : c ∈ s.toList) : ∃ x y, s = x ++ sep ++ y ∧ c ∉ x.toList := by
  obtain ⟨before, after, hs, hbefore⟩ := List.eq_append_cons_of_mem h
  refine ⟨String.ofList before, String.ofList after, String.toList_inj.mp ?_,
    by simpa using hbefore⟩
  simp [String.toList_append, hsep, hs]

theorem exists_lastCut {sep : String} {c : Char} (hsep : sep.toList = [c]) {s : String}
    (h : c ∈ s.toList) : ∃ x y, s = x ++ sep ++ y ∧ c ∉ y.toList := by
  obtain ⟨before, after, hs, hafter⟩ := List.eq_append_cons_of_mem (List.mem_reverse.mpr h)
  refine ⟨String.ofList after.reverse, String.ofList before.reverse, String.toList_inj.mp ?_,
    by simpa using hafter⟩
  rw [← List.reverse_reverse s.toList, hs]
  simp [String.toList_append, hsep]

theorem piecesOf_append {sep : String} {c : Char} (hsep : sep.toList = [c]) (x y : String) :
    piecesOf c (x ++ sep ++ y) = piecesOf c x ++ piecesOf c y := by
  have htext : (x ++ sep ++ y).toList = x.toList ++ c :: y.toList := by
    simp [String.toList_append, hsep]
  rw [piecesOf, htext, List.splitOn_append_cons_self, List.map_append]
  rfl

theorem piecesOf_eq_singleton {c : Char} {s : String} (h : c ∉ s.toList) : piecesOf c s = [s] := by
  simp [piecesOf, List.splitOn_eq_singleton h]

theorem piecesOf_eq_one {c : Char} {s x : String} :
    piecesOf c s = [x] ↔ s = x ∧ c ∉ x.toList := by
  constructor
  · intro h
    by_cases hmem : c ∈ s.toList
    · have hsep : (String.singleton c).toList = [c] := by simp
      obtain ⟨y, z, rfl, hy⟩ := exists_cut hsep hmem
      rw [piecesOf_append hsep, piecesOf_eq_singleton hy] at h
      have hlength := congrArg List.length h
      simp [piecesOf, List.splitOn_ne_nil] at hlength
    · obtain rfl := List.singleton_inj.mp ((piecesOf_eq_singleton hmem).symm.trans h)
      exact ⟨rfl, hmem⟩
  · rintro ⟨rfl, hmem⟩
    exact piecesOf_eq_singleton hmem

theorem piecesOf_eq_two {sep : String} {c : Char} (hsep : sep.toList = [c]) {s x y : String} :
    piecesOf c s = [x, y] ↔ s = x ++ sep ++ y ∧ c ∉ x.toList ∧ c ∉ y.toList := by
  constructor
  · intro h
    by_cases hmem : c ∈ s.toList
    · obtain ⟨x', y', rfl, hx⟩ := exists_cut hsep hmem
      rw [piecesOf_append hsep, piecesOf_eq_singleton hx] at h
      obtain ⟨rfl, hrest⟩ := List.cons.inj h
      obtain ⟨rfl, hy⟩ := piecesOf_eq_one.mp hrest
      exact ⟨rfl, hx, hy⟩
    · rw [piecesOf_eq_singleton hmem] at h
      cases h
  · rintro ⟨rfl, hx, hy⟩
    rw [piecesOf_append hsep, piecesOf_eq_singleton hx, piecesOf_eq_singleton hy,
      List.singleton_append]

theorem intercalate_piecesOf {sep : String} {c : Char} (hsep : sep.toList = [c]) (s : String) :
    sep.intercalate (piecesOf c s) = s := by
  refine String.toList_inj.mp ?_
  rw [String.toList_intercalate, hsep, piecesOf, List.map_map]
  simp [Function.comp_def, List.intercalate_splitOn]

/-- **The pieces of a joined text** are the texts that were joined, if the character is in none of
them. -/
theorem piecesOf_intercalate {sep : String} {c : Char} (hsep : sep.toList = [c])
    {pieces : List String} (hne : pieces ≠ []) (hpieces : ∀ piece ∈ pieces, c ∉ piece.toList) :
    piecesOf c (sep.intercalate pieces) = pieces := by
  have hsplit : (sep.intercalate pieces).toList.splitOn c = pieces.map String.toList := by
    rw [String.toList_intercalate, hsep]
    exact List.splitOn_intercalate c (by simpa using hpieces) (by simpa using hne)
  rw [piecesOf, hsplit, List.map_map]
  simp [Function.comp_def]

end TableQuery.Text
