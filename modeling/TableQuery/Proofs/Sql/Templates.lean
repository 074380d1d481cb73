import Mathlib.Data.List.Infix
import Mathlib.Tactic.SplitIfs
import TableQuery.Sql.Template

/-! # Expressions and their placeholders

An expression is cut into texts without placeholders and the placeholders between them
(`Template.Cut`). A placeholder begins with a brace and holds no other one that opens, so none
begins in a text without placeholders (`Template.IsPlain.length_le`). That is why there is one such
cut and no other, and why it is found by a scan that takes the leftmost placeholder and goes on
behind it (`Template.isScan_iff`). Both forms of the expression have the texts of the cut, with the
words of its placeholders between them (`Template.existsUnique_cut`). -/

namespace TableQuery.Template

/-! ### Placeholders and cuts -/

/-- The words of placeholders. -/
def IsHoleWord (word : List Char) : Prop := word ≠ [] ∧ ∀ c ∈ word, Text.isWord c = true

/-- A word in braces. -/
def braced (word : List Char) : List Char := '\x7b' :: (word ++ ['\x7d'])

/-- No placeholder occurs in the text. -/
def IsPlain (cs : List Char) : Prop := ∀ word, IsHoleWord word → ¬ braced word <:+: cs

/-- An expression that is cut at placeholders. -/
structure Cut where
  /-- The text in front of the first placeholder. -/
  front : List Char
  /-- The word of each placeholder, with the text up to the next one. -/
  holes : List (List Char × List Char)

namespace Cut

/-- The text with each placeholder written as `hole` says. -/
def write (hole : List Char → List Char) (c : Cut) : List Char :=
  c.front ++ c.holes.flatMap fun h => hole h.1 ++ h.2

/-- The cut is one of the expression: words in braces stand between its texts, and no placeholder
occurs in them. -/
structure IsOf (c : Cut) (cs : List Char) : Prop where
  text : cs = c.write braced
  words : ∀ h ∈ c.holes, IsHoleWord h.1
  front : IsPlain c.front
  between : ∀ h ∈ c.holes, IsPlain h.2

/-- The parts of a cut. -/
def parts (c : Cut) : List TemplatePart :=
  c.front.map .char ++ c.holes.flatMap fun h => .hole h.1 :: h.2.map .char

end Cut

/-- The placeholder of the word stands in the expression, and no placeholder begins earlier. -/
structure IsFirstHole (front word rest cs : List Char) : Prop where
  isWord : IsHoleWord word
  text : cs = front ++ (braced word ++ rest)
  first : ∀ low word' high, IsHoleWord word' → cs = low ++ (braced word' ++ high) →
    front.length ≤ low.length

/-- The cut that a scan from left to right finds: it takes the leftmost placeholder and goes on
behind it. -/
inductive IsScan : List Char → Cut → Prop
  | last {cs : List Char} (h : IsPlain cs) : IsScan cs ⟨cs, []⟩
  | hole {cs front word rest : List Char} {c : Cut} (h : IsFirstHole front word rest cs)
    (hrest : IsScan rest c) : IsScan cs ⟨front, (word, c.front) :: c.holes⟩

variable {cs front word rest : List Char} {c : Cut}

/-! ### Where placeholders stand -/

theorem hole?_eq_some : hole? cs = some (word, rest) ↔
    IsHoleWord word ∧ cs = word ++ '\x7d' :: rest := by
  have hclose : ¬ Text.isWord '\x7d' = true := by decide +kernel
  constructor
  · intro h
    have hcs : cs.takeWhile Text.isWord ++ cs.dropWhile Text.isWord = cs :=
      List.takeWhile_append_dropWhile
    simp only [hole?] at h
    split at h
    · next r hr =>
      split_ifs at h with hempty
      cases h
      rw [hr] at hcs
      refine ⟨⟨fun hnil => hempty (List.isEmpty_iff.mpr hnil), ?_⟩, hcs.symm⟩
      exact List.all_eq_true.mp List.all_takeWhile
    · cases h
  · rintro ⟨⟨hne, hword⟩, rfl⟩
    have htake : (word ++ '\x7d' :: rest).takeWhile Text.isWord = word := by
      rw [List.takeWhile_append_of_pos hword, List.takeWhile_cons_of_neg hclose, List.append_nil]
    have hdrop : (word ++ '\x7d' :: rest).dropWhile Text.isWord = '\x7d' :: rest := by
      rw [List.dropWhile_append_of_pos hword, List.dropWhile_cons_of_neg hclose]
    simp [hole?, htake, hdrop, hne]

/-- A text begins with one placeholder at most. -/
theorem braced_append_inj {word' rest' : List Char} (hword : IsHoleWord word)
    (hword' : IsHoleWord word') (h : braced word ++ rest = braced word' ++ rest') :
    word = word' ∧ rest = rest' := by
  have htail : word ++ '\x7d' :: rest = word' ++ '\x7d' :: rest' := by
    simpa [braced] using h
  have hhole : hole? (word ++ '\x7d' :: rest) = some (word, rest) :=
    hole?_eq_some.mpr ⟨hword, rfl⟩
  rw [htail, hole?_eq_some.mpr ⟨hword', rfl⟩] at hhole
  cases hhole
  exact ⟨rfl, rfl⟩

theorem openBrace_not_mem (h : IsHoleWord word) : '\x7b' ∉ word ++ ['\x7d'] := by
  intro hmem
  rcases List.mem_append.mp hmem with hword | hclose
  · exact absurd (h.2 _ hword) (by decide +kernel)
  · exact absurd (List.mem_singleton.mp hclose) (by decide)

/-- **No placeholder begins in a plain text** if a brace opens behind it or nothing stands there. -/
theorem IsPlain.length_le (hfront : IsPlain front) (hrest : ∀ c ∈ rest.head?, c = '\x7b')
    (hword : IsHoleWord word) {low high : List Char}
    (h : front ++ rest = low ++ (braced word ++ high)) : front.length ≤ low.length := by
  by_contra hlt
  obtain ⟨outside, rfl, -⟩ | ⟨inside, rfl, hinside⟩ := List.append_eq_append_iff.mp h
  · simp at hlt
  · obtain ⟨after, rfl, -⟩ | ⟨tail, htail, htailRest⟩ := List.append_eq_append_iff.mp hinside
    · exact hfront word hword ⟨low, after, by simp⟩
    · -- the placeholder goes on behind the plain text, where its own brace cannot open again
      cases inside with
      | nil => simp at hlt
      | cons d inside =>
        cases tail with
        | nil => exact hfront word hword ⟨low, [], by simp [htail]⟩
        | cons e tail =>
          obtain rfl := hrest e (by rw [htailRest]; rfl)
          refine openBrace_not_mem hword ?_
          rw [(List.cons.inj htail).2]
          exact List.mem_append_right _ List.mem_cons_self

theorem head?_braced_append (word rest : List Char) :
    ∀ c ∈ (braced word ++ rest).head?, c = '\x7b' := by
  intro c hc
  cases hc
  rfl

theorem isPlain_nil : IsPlain [] := fun _ _ h => nomatch List.infix_nil.mp h

theorem IsFirstHole.isPlain (h : IsFirstHole front word rest cs) : IsPlain front := by
  rintro word' hword' ⟨low, high, rfl⟩
  have hle := h.first low word' (high ++ (braced word ++ rest)) hword' (by simp [h.text])
  simp only [braced, List.length_append, List.length_cons] at hle
  omega

theorem IsPlain.isFirstHole (hfront : IsPlain front) (hword : IsHoleWord word)
    (rest : List Char) : IsFirstHole front word rest (front ++ (braced word ++ rest)) :=
  ⟨hword, rfl, fun _ _ _ hword' => hfront.length_le (head?_braced_append word rest) hword'⟩

theorem IsFirstHole.unique {front' word' rest' : List Char} (h : IsFirstHole front word rest cs)
    (h' : IsFirstHole front' word' rest' cs) : front = front' ∧ word = word' ∧ rest = rest' := by
  have hlength : front.length = front'.length := Nat.le_antisymm
    (h.first front' word' rest' h'.isWord h'.text) (h'.first front word rest h.isWord h.text)
  obtain ⟨hfront, htail⟩ := List.append_inj (h.text.symm.trans h'.text) hlength
  exact ⟨hfront, braced_append_inj h.isWord h'.isWord htail⟩

/-! ### One cut -/

theorem Cut.isOf_cons {next : List Char} {holes : List (List Char × List Char)} :
    (Cut.mk front ((word, next) :: holes)).IsOf cs ↔ IsPlain front ∧ IsHoleWord word ∧
      ∃ rest, cs = front ++ (braced word ++ rest) ∧ (Cut.mk next holes).IsOf rest := by
  constructor
  · rintro ⟨rfl, hwords, hfront, hbetween⟩
    rw [List.forall_mem_cons] at hwords hbetween
    refine ⟨hfront, hwords.1, _, ?_, rfl, hwords.2, hbetween.1, hbetween.2⟩
    simp [write]
  · rintro ⟨hfront, hword, rest, rfl, rfl, hwords, hnext, hbetween⟩
    refine ⟨by simp [write], ?_, hfront, ?_⟩
    · exact List.forall_mem_cons.mpr ⟨hword, hwords⟩
    · exact List.forall_mem_cons.mpr ⟨hnext, hbetween⟩

theorem IsScan.isOf (h : IsScan cs c) : c.IsOf cs := by
  induction h with
  | last h => exact ⟨by simp [Cut.write], by simp, h, by simp⟩
  | hole h _ ih => exact Cut.isOf_cons.mpr ⟨h.isPlain, h.isWord, _, h.text, ih⟩

theorem Cut.IsOf.isScan (h : c.IsOf cs) : IsScan cs c := by
  obtain ⟨front, holes⟩ := c
  induction holes generalizing front cs with
  | nil =>
    have htext : cs = front := by rw [h.text]; simp [write]
    subst htext
    exact .last h.front
  | cons hole holes ih =>
    obtain ⟨hfront, hword, rest, rfl, hrest⟩ := isOf_cons.mp h
    exact .hole (hfront.isFirstHole hword rest) (ih _ hrest)

/-- **The cuts of an expression are those that a scan finds.** -/
theorem isScan_iff : IsScan cs c ↔ c.IsOf cs := ⟨IsScan.isOf, Cut.IsOf.isScan⟩

theorem IsFirstHole.not_isPlain (h : IsFirstHole front word rest cs) : ¬ IsPlain cs :=
  fun hplain => hplain word h.isWord ⟨front, rest, by rw [h.text, List.append_assoc]⟩

theorem IsScan.unique {c' : Cut} (h : IsScan cs c) (h' : IsScan cs c') : c = c' := by
  induction h generalizing c' with
  | last hplain =>
    cases h' with
    | last => rfl
    | hole hfirst => exact absurd hplain hfirst.not_isPlain
  | hole hfirst _ ih =>
    cases h' with
    | last hplain => exact absurd hplain hfirst.not_isPlain
    | hole hfirst' hrest' =>
      obtain ⟨rfl, rfl, rfl⟩ := hfirst.unique hfirst'
      rw [ih hrest']

/-! ### The parts of an expression -/

theorem parts_braced_append (hword : IsHoleWord word) (rest : List Char) :
    parts (braced word ++ rest) = .hole word :: parts rest := by
  have hhole : hole? (word ++ ['\x7d'] ++ rest) = some (word, rest) :=
    hole?_eq_some.mpr ⟨hword, by simp⟩
  rw [braced, List.cons_append, parts, if_pos rfl]
  split
  · next hsome => rw [hhole] at hsome; cases hsome; rfl
  · next hnone => rw [hhole] at hnone; cases hnone

theorem IsPlain.of_cons {d : Char} (h : IsPlain (d :: cs)) : IsPlain cs :=
  fun word hword hinfix => h word hword (List.infix_cons hinfix)

theorem IsPlain.parts_append (hfront : IsPlain front) (hrest : ∀ c ∈ rest.head?, c = '\x7b') :
    parts (front ++ rest) = front.map .char ++ parts rest := by
  induction front with
  | nil => rfl
  | cons d front ih =>
    have htail := ih hfront.of_cons
    rw [List.cons_append, parts]
    split_ifs with hd
    · split
      · next word' rest' hsome =>
        -- a placeholder would begin at the brace
        obtain ⟨hword', htext⟩ := hole?_eq_some.mp hsome
        have hbegin : d :: front ++ rest = [] ++ (braced word' ++ rest') := by
          simp [hd, htext, braced]
        have hle := hfront.length_le hrest hword' hbegin
        simp at hle
      · rw [htail, hd]; rfl
    · rw [htail]; rfl

theorem IsScan.parts_eq (h : IsScan cs c) : parts cs = c.parts := by
  induction h with
  | @last cs h =>
    have hnone : ∀ d ∈ [].head?, d = '\x7b' := by simp
    have hparts := h.parts_append hnone
    rw [List.append_nil] at hparts
    rw [hparts, parts]
    simp [Cut.parts]
  | hole h _ ih =>
    rw [h.text, h.isPlain.parts_append (head?_braced_append _ _), parts_braced_append h.isWord, ih]
    simp [Cut.parts]

theorem Cut.IsOf.cons {d : Char} (h : c.IsOf cs)
    (hd : ∀ word, IsHoleWord word → ¬ braced word <+: d :: cs) :
    (Cut.mk (d :: c.front) c.holes).IsOf (d :: cs) := by
  refine ⟨congrArg (d :: ·) h.text, h.words, fun word hword hinfix => ?_, h.between⟩
  rcases List.infix_cons_iff.mp hinfix with hbegin | hinfix
  · refine hd word hword (hbegin.trans ?_)
    rw [h.text]
    exact ⟨_, rfl⟩
  · exact h.front word hword hinfix

theorem exists_isOf (cs : List Char) : ∃ c : Cut, c.IsOf cs := by
  fun_induction parts cs with
  | case1 => exact ⟨⟨[], []⟩, (IsScan.last isPlain_nil).isOf⟩
  | case2 cs word rest hhole ih =>
    obtain ⟨c, hc⟩ := ih
    obtain ⟨hword, rfl⟩ := hole?_eq_some.mp hhole
    exact ⟨_, Cut.isOf_cons.mpr ⟨isPlain_nil, hword, rest, by simp [braced], hc⟩⟩
  | case3 cs hhole ih =>
    obtain ⟨c, hc⟩ := ih
    refine ⟨_, hc.cons fun word hword hbegin => ?_⟩
    obtain ⟨rest, hrest⟩ := hbegin
    have hsome : hole? cs = some (word, rest) :=
      hole?_eq_some.mpr ⟨hword, by simpa [braced] using (List.cons.inj hrest).2.symm⟩
    rw [hhole] at hsome
    cases hsome
  | case4 d cs hd ih =>
    obtain ⟨c, hc⟩ := ih
    refine ⟨_, hc.cons fun word hword hbegin => ?_⟩
    obtain ⟨rest, hrest⟩ := hbegin
    exact hd (List.cons.inj hrest).1.symm

theorem Cut.flatMap_parts (suffix : List Char) (c : Cut) :
    c.parts.flatMap (expandPart suffix) = c.write (· ++ suffix) := by
  simp [parts, write, expandPart, List.flatMap_map, List.flatMap_assoc]

theorem IsScan.expand_eq {sql : String} (h : IsScan sql.toList c) (suffix : String) :
    expand suffix sql = String.ofList (c.write (· ++ suffix.toList)) := by
  rw [expand, h.parts_eq, Cut.flatMap_parts]

/-- **An expression is cut in one way**, the one that a scan from left to right finds: texts without
placeholders, and words in braces between them. The selected form has the words themselves, and the
searched form has the words with a suffix, so that different words have different searched names. -/
theorem existsUnique_cut (sql : String) : ∃ c : Cut,
    (∀ c' : Cut, c'.IsOf sql.toList ↔ c' = c) ∧
    (∀ c' : Cut, IsScan sql.toList c' ↔ c' = c) ∧
    selected sql = String.ofList (c.write id) ∧
    searched sql = String.ofList (c.write (· ++ "_search".toList)) ∧
    ∀ h ∈ c.holes, ∀ h' ∈ c.holes,
      h.1 ++ "_search".toList = h'.1 ++ "_search".toList → h.1 = h'.1 := by
  obtain ⟨c, hc⟩ := exists_isOf sql.toList
  have hscan := hc.isScan
  have hunique : ∀ c' : Cut, IsScan sql.toList c' ↔ c' = c :=
    fun c' => ⟨fun h => h.unique hscan, fun h => h ▸ hscan⟩
  refine ⟨c, fun c' => by rw [← isScan_iff, hunique], hunique, ?_, hscan.expand_eq _,
    fun _ _ _ _ => List.append_cancel_right⟩
  rw [selected, hscan.expand_eq]
  simp [Cut.write]

/-- A placeholder may stand in braces itself; braces without a word are none. -/
example : searched "(\x7b\x7bc\x7d\x7d \x7b\x7d)" = "(\x7bc_search\x7d \x7b\x7d)" := by
  decide +kernel

end TableQuery.Template
