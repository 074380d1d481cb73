import Mathlib.Algebra.Ring.Parity
import TableQuery.Plan.Compiled
import TableQuery.Proofs.Decimal.Literal
import TableQuery.Proofs.Search.ParamNames
import TableQuery.Proofs.Sql.Literals

/-! # Keys of results

The key of a result is the SQL text, a bar, and the printed values with commas between them. Neither
bars nor commas are escaped, and a searched text may hold both, and quotes as well. All the same, no
two queries have the same key unless they have the same SQL text and values that print alike
(`Compiled.eq_of_cacheKey_eq`).

A printed value has an even number of quotes, and a comma or a bar in it stands behind an odd number
of them (`Value.sealed_display`). So the bar in front of the values is the one with an even number
of quotes behind it and no bar outside of quotes (`Text.Sealed.bar_inj`), and the commas between the
values are those behind an even number of quotes (`Text.Sealed.eq_of_intercalate_eq`). -/

namespace TableQuery

/-! ### Separators between quotes -/

namespace Text

/-- The number of quotes in a text. -/
def quoteCount (cs : List Char) : Nat := cs.count '\x27'

/-- A character stands between quotes only: behind an odd number of them. -/
def Shielded (c : Char) (cs : List Char) : Prop :=
  ∀ before after, cs = before ++ c :: after → Odd (quoteCount before)

/-- Every quote is closed, and commas and bars stand between quotes only. -/
structure Sealed (cs : List Char) : Prop where
  closed : Even (quoteCount cs)
  comma : Shielded ',' cs
  bar : Shielded '|' cs

theorem quoteCount_append (cs ds : List Char) :
    quoteCount (cs ++ ds) = quoteCount cs + quoteCount ds := List.count_append

theorem shielded_of_not_mem {c : Char} {cs : List Char} (h : c ∉ cs) : Shielded c cs := by
  rintro before after rfl
  exact absurd (List.mem_append_right before List.mem_cons_self) h

theorem Shielded.append {c : Char} {cs ds : List Char} (hclosed : Even (quoteCount cs))
    (hcs : Shielded c cs) (hds : Shielded c ds) : Shielded c (cs ++ ds) := by
  intro before after h
  rcases List.append_eq_append_iff.mp h with ⟨rest, rfl, hrest⟩ | ⟨rest, hrest, h'⟩
  · rw [quoteCount_append]
    exact hclosed.add_odd (hds rest after hrest)
  · rcases List.cons_eq_append_iff.mp h' with ⟨rfl, hds'⟩ | ⟨rest', rfl, -⟩
    · rw [List.append_nil] at hrest
      rw [← hrest]
      exact absurd (hds [] after hds') (by decide)
    · exact hcs before rest' hrest

theorem intercalate_comma_cons (cs : List Char) (l : List (List Char)) :
    [','].intercalate (cs :: l) = cs ++ l.flatMap (',' :: ·) := by
  induction l generalizing cs with
  | nil => simp
  | cons ds l ih => rw [List.intercalate_cons_cons, ih, List.flatMap_cons]; simp

namespace Sealed

variable {cs ds s t x y : List Char}

theorem of_not_mem (hquote : '\x27' ∉ cs) (hcomma : ',' ∉ cs) (hbar : '|' ∉ cs) : Sealed cs :=
  ⟨by rw [quoteCount, List.count_eq_zero_of_not_mem hquote]; decide,
    shielded_of_not_mem hcomma, shielded_of_not_mem hbar⟩

/-- **Commas between sealed texts are found again.** -/
theorem comma_inj (hx : Sealed x) (hy : Sealed y) (hs : ∀ c ∈ s.head?, c = ',')
    (ht : ∀ c ∈ t.head?, c = ',') (h : x ++ s = y ++ t) : x = y ∧ s = t := by
  -- what one text has beyond the other would begin with a comma outside of quotes
  have hbeyond : ∀ {u v w r : List Char}, Sealed u → Sealed (u ++ r) → v = r ++ w →
      (∀ c ∈ v.head?, c = ',') → r = [] := by
    intro u v w r hu hur hv hhead
    cases r with
    | nil => rfl
    | cons c r =>
      obtain rfl : c = ',' := hhead c (by rw [hv]; rfl)
      exact absurd hu.closed (Nat.not_even_iff_odd.mpr (hur.comma u r rfl))
  rcases List.append_eq_append_iff.mp h with ⟨r, rfl, hr⟩ | ⟨r, rfl, hr⟩
  · obtain rfl := hbeyond hx hy hr hs
    exact ⟨(List.append_nil x).symm, hr⟩
  · obtain rfl := hbeyond hy hx hr ht
    exact ⟨List.append_nil y, hr.symm⟩

/-- **The bar in front of a text with no bare bar is found again.** -/
theorem bar_inj (hxclosed : Even (quoteCount x)) (hx : Shielded '|' x)
    (hyclosed : Even (quoteCount y)) (hy : Shielded '|' y) (h : s ++ '|' :: x = t ++ '|' :: y) :
    s = t ∧ x = y := by
  -- a bar within the longer of the two texts would be behind an even number of quotes
  have hbeyond : ∀ {u v r : List Char}, Even (quoteCount u) → Shielded '|' u →
      Even (quoteCount v) → '|' :: u = r ++ '|' :: v → r = [] := by
    intro u v r hu hshielded hv heq
    rcases List.cons_eq_append_iff.mp heq with ⟨rfl, -⟩ | ⟨r', rfl, rfl⟩
    · rfl
    · have hodd := hshielded r' v rfl
      have hbar : quoteCount ('|' :: v) = quoteCount v := List.count_cons_of_ne (by decide)
      rw [quoteCount_append, hbar] at hu
      exact absurd ((Nat.even_add.mp hu).mpr hv) (Nat.not_even_iff_odd.mpr hodd)
  rcases List.append_eq_append_iff.mp h with ⟨r, rfl, hr⟩ | ⟨r, rfl, hr⟩
  · obtain rfl := hbeyond hxclosed hx hyclosed hr
    exact ⟨(List.append_nil s).symm, (List.cons.inj hr).2⟩
  · obtain rfl := hbeyond hyclosed hy hxclosed hr
    exact ⟨List.append_nil t, (List.cons.inj hr).2.symm⟩

theorem flatMap_comma : ∀ {l : List (List Char)}, (∀ cs ∈ l, Sealed cs) →
    Even (quoteCount (l.flatMap (',' :: ·))) ∧ Shielded '|' (l.flatMap (',' :: ·))
  | [], _ => ⟨by decide, shielded_of_not_mem (by simp)⟩
  | cs :: l, h => by
    have hcs := h cs List.mem_cons_self
    obtain ⟨hclosed, hbar⟩ := flatMap_comma fun ds hds => h ds (List.mem_cons_of_mem cs hds)
    have hcomma : Even (quoteCount (',' :: cs)) := by
      rw [quoteCount, List.count_cons_of_ne (by decide)]
      exact hcs.closed
    have hshielded : Shielded '|' ([','] ++ cs) :=
      Shielded.append (by decide) (shielded_of_not_mem (by decide)) hcs.bar
    rw [List.flatMap_cons, quoteCount_append]
    exact ⟨hcomma.add hclosed, hshielded.append hcomma hbar⟩

theorem eq_of_flatMap_comma_eq : ∀ {l m : List (List Char)}, (∀ cs ∈ l ++ m, Sealed cs) →
    l.flatMap (',' :: ·) = m.flatMap (',' :: ·) → l = m
  | [], [], _, _ => rfl
  | [], ds :: m, _, h => by simp at h
  | cs :: l, [], _, h => by simp at h
  | cs :: l, ds :: m, hall, h => by
    have hhead : ∀ (n : List (List Char)), ∀ c ∈ (n.flatMap (',' :: ·)).head?, c = ',' := by
      intro n
      cases n <;> simp
    rw [List.flatMap_cons, List.flatMap_cons, List.cons_append, List.cons_append] at h
    obtain ⟨rfl, hrest⟩ := comma_inj (hall cs (by simp)) (hall ds (by simp)) (hhead l) (hhead m)
      (List.cons.inj h).2
    rw [eq_of_flatMap_comma_eq (fun es hes => hall es ?_) hrest]
    rcases List.mem_append.mp hes with hes | hes <;> simp [hes]

theorem intercalate {l : List (List Char)} (h : ∀ cs ∈ l, Sealed cs) :
    Even (quoteCount ([','].intercalate l)) ∧ Shielded '|' ([','].intercalate l) := by
  cases l with
  | nil => exact ⟨by decide, shielded_of_not_mem (by simp)⟩
  | cons cs l =>
    obtain ⟨hclosed, hbar⟩ := flatMap_comma fun ds hds => h ds (List.mem_cons_of_mem cs hds)
    have hcs := h cs List.mem_cons_self
    rw [intercalate_comma_cons, quoteCount_append]
    exact ⟨hcs.closed.add hclosed, hcs.bar.append hcs.closed hbar⟩

/-- **Sealed texts with commas between them are found again**, if none of them is empty. -/
theorem eq_of_intercalate_eq {l m : List (List Char)} (h : ∀ cs ∈ l ++ m, Sealed cs ∧ cs ≠ [])
    (heq : [','].intercalate l = [','].intercalate m) : l = m := by
  have hne : ∀ cs (n : List (List Char)), cs ≠ [] → [','].intercalate (cs :: n) ≠ [] := by
    intro cs n hcs hnil
    rw [intercalate_comma_cons] at hnil
    exact hcs (List.append_eq_nil_iff.mp hnil).1
  cases l with
  | nil =>
    cases m with
    | nil => rfl
    | cons ds m => exact absurd heq.symm (hne ds m (h ds (by simp)).2)
  | cons cs l =>
    cases m with
    | nil => exact absurd heq (hne cs l (h cs (by simp)).2)
    | cons ds m =>
      rw [intercalate_comma_cons, intercalate_comma_cons] at heq
      refine eq_of_flatMap_comma_eq (fun es hes => (h es hes).1) ?_
      rw [List.flatMap_cons, List.flatMap_cons, List.cons_append, List.cons_append, heq]

end Sealed

end Text

/-! ### Texts as literals -/

theorem quoteCount_cons_of_ne {c : Char} (hc : c ≠ '\x27') (cs : List Char) :
    Text.quoteCount (c :: cs) = Text.quoteCount cs :=
  List.count_cons_of_ne hc

theorem even_quoteCount_doubled (cs : List Char) : Even (Text.quoteCount (doubled cs)) := by
  induction cs with
  | nil => decide
  | cons c cs ih =>
    rw [doubled_cons, Text.quoteCount_append]
    refine Even.add ?_ ih
    split_ifs with hc
    · decide
    · rw [quoteCount_cons_of_ne hc]
      decide

theorem exists_of_cons_eq_append {c d : Char} {cs before after : List Char} (hc : c ≠ d)
    (h : d :: cs = before ++ c :: after) :
    ∃ rest, before = d :: rest ∧ cs = rest ++ c :: after := by
  rcases List.cons_eq_append_iff.mp h with ⟨-, h'⟩ | h'
  · exact absurd (List.cons.inj h').1 hc
  · exact h'

theorem even_quoteCount_before {c : Char} (hc : c ≠ '\x27') :
    ∀ {cs before after : List Char}, doubled cs ++ ['\x27'] = before ++ c :: after →
      Even (Text.quoteCount before)
  | [], before, after, h => by
    obtain ⟨rest, -, hrest⟩ := exists_of_cons_eq_append hc h
    simp at hrest
  | d :: cs, before, after, h => by
    rw [doubled_cons] at h
    split_ifs at h with hd
    · obtain ⟨rest, rfl, h₁⟩ := exists_of_cons_eq_append hc h
      obtain ⟨rest, rfl, h₂⟩ := exists_of_cons_eq_append hc h₁
      have hpair := Text.quoteCount_append ['\x27', '\x27'] rest
      rw [List.cons_append, List.singleton_append] at hpair
      rw [hpair]
      exact Even.add (by decide) (even_quoteCount_before hc h₂)
    · rcases List.cons_eq_append_iff.mp h with ⟨rfl, -⟩ | ⟨rest, rfl, h'⟩
      · decide
      · rw [quoteCount_cons_of_ne hd]
        exact even_quoteCount_before hc h'

/-! ### Printed values -/

namespace Value

/-- **A text as a literal is sealed**, whatever it holds. -/
theorem sealed_quoteLiteral (s : String) : Text.Sealed (quoteLiteral s).toList := by
  have hshielded : ∀ {c : Char}, c ≠ '\x27' → Text.Shielded c (quoteLiteral s).toList := by
    intro c hc before after h
    rw [toList_quoteLiteral] at h
    obtain ⟨rest, rfl, h'⟩ := exists_of_cons_eq_append hc h
    rw [Text.quoteCount, List.count_cons_self]
    exact (even_quoteCount_before hc h').add_one
  refine ⟨?_, hshielded (by decide), hshielded (by decide)⟩
  rw [toList_quoteLiteral, ← List.singleton_append, Text.quoteCount_append, Text.quoteCount_append,
    Nat.add_left_comm]
  exact (even_quoteCount_doubled _).add (by decide)

/-- Characters of printed numbers and words. -/
def isBare (c : Char) : Bool := c.isAlphanum || c == '-' || c == '.'

theorem sealed_of_bare {s : String} (h : Text.Over isBare s) : Text.Sealed s.toList :=
  .of_not_mem (fun hc => absurd (h _ hc) (by decide)) (fun hc => absurd (h _ hc) (by decide))
    (fun hc => absurd (h _ hc) (by decide))

theorem isBare_of_mem_toDigits {n : Nat} {c : Char} (h : c ∈ Nat.toDigits 10 n) :
    isBare c = true := by
  simp [isBare, Char.isAlphanum, isDigit_of_mem_toDigits h]

/-- Characters of printed integers. -/
def isIntChar (c : Char) : Bool := c.isDigit || c == '-'

theorem over_int (i : Int) : Text.Over isIntChar (toString i) := by
  have hdigits : ∀ n : Nat, ∀ c ∈ Nat.toDigits 10 n, isIntChar c = true := by
    intro n c hc
    rw [isIntChar, isDigit_of_mem_toDigits hc, Bool.true_or]
  intro c hc
  rw [Decimal.toList_int] at hc
  split_ifs at hc
  · exact hdigits _ c hc
  · exact List.forall_mem_cons.mpr ⟨by decide, hdigits _⟩ c hc

theorem isBare_of_isIntChar {c : Char} (h : isIntChar c = true) : isBare c = true := by
  simp only [isIntChar, Bool.or_eq_true] at h
  rcases h with h | h <;> simp [isBare, Char.isAlphanum, h]

theorem int_ne_empty (i : Int) : (toString i).toList ≠ [] := by
  rw [Decimal.toList_int]
  split_ifs
  · exact Nat.toDigits_ne_nil
  · exact List.cons_ne_nil _ _

theorem isBare_of_mem_positional {digits : List Char} (hdigits : ∀ c ∈ digits, isBare c = true)
    {position : Int} {c : Char} (h : c ∈ Decimal.positional false digits position) :
    isBare c = true := by
  simp only [Decimal.positional, Bool.false_eq_true, if_false, List.append_nil] at h
  split_ifs at h
  · rw [List.append_assoc, List.mem_append, List.mem_append] at h
    rcases h with h | h | h
    · exact List.all_eq_true.mp (by decide) c h
    · rw [List.eq_of_mem_replicate h]
      decide
    · exact hdigits c h
  · rw [List.mem_append] at h
    rcases h with h | h
    · exact hdigits c h
    · rw [List.eq_of_mem_replicate h]
      decide
  · rw [List.mem_append, List.mem_cons] at h
    rcases h with h | rfl | h
    · exact hdigits c (List.mem_of_mem_take h)
    · decide
    · exact hdigits c (List.mem_of_mem_drop h)

theorem positional_ne_nil {digits : List Char} (h : digits ≠ []) (position : Int) :
    Decimal.positional false digits position ≠ [] := by
  unfold Decimal.positional
  split_ifs <;> simp [h]

theorem bare_magnitude (x : Binary64) :
    (∀ c ∈ Decimal.Layout.plain.magnitude x, isBare c = true) ∧
      Decimal.Layout.plain.magnitude x ≠ [] := by
  simp only [Decimal.Layout.magnitude, Decimal.Layout.plain, Bool.false_eq_true, if_false]
  split_ifs
  · exact ⟨List.all_eq_true.mp (by decide), by decide⟩
  · exact ⟨fun c hc => isBare_of_mem_positional (fun c => isBare_of_mem_toDigits) hc,
      positional_ne_nil Nat.toDigits_ne_nil _⟩

theorem bare_float (x : Binary64) :
    Text.Over isBare (Decimal.Layout.plain.text x) ∧ Decimal.Layout.plain.text x ≠ "" := by
  have htext : ∀ {cs : List Char}, (∀ c ∈ cs, isBare c = true) → cs ≠ [] →
      Text.Over isBare (String.ofList cs) ∧ String.ofList cs ≠ "" := by
    intro cs hcs hnil
    refine ⟨fun c hc => hcs c (by rwa [String.toList_ofList] at hc), fun h => hnil ?_⟩
    rw [← String.toList_ofList (l := cs), h]
    rfl
  simp only [Decimal.Layout.text]
  generalize hbody : (if x.isFinite = true then Decimal.Layout.plain.magnitude x
    else ['i', 'n', 'f']) = body
  have hbare : (∀ c ∈ body, isBare c = true) ∧ body ≠ [] := by
    rw [← hbody]
    split_ifs
    · exact bare_magnitude x
    · exact ⟨List.all_eq_true.mp (by decide), by decide⟩
  split_ifs
  · exact ⟨.of_all (by decide), by decide⟩
  · exact htext (List.forall_mem_cons.mpr ⟨by decide, hbare.1⟩) (List.cons_ne_nil _ _)
  · exact htext hbare.1 hbare.2

theorem quote_not_mem_write (m : Moment) :
    '\x27' ∉ (DatePattern.standard.write m).toList := by
  have hpadded : ∀ width n, '\x27' ∉ padded width n := by
    intro width n h
    rcases List.mem_append.mp h with h | h
    · exact absurd (List.eq_of_mem_replicate h) (by decide)
    · exact absurd (isBare_of_mem_toDigits h) (by decide)
  have hyear : ∀ year, '\x27' ∉ writeYear year := by
    intro year
    unfold writeYear
    split_ifs <;> simp [hpadded]
  rw [DatePattern.write, String.toList_ofList, List.mem_flatMap]
  rintro ⟨part, hpart, h⟩
  cases part with
  | mark c =>
    obtain rfl := List.mem_singleton.mp h
    exact absurd hpart (by decide)
  | year => exact hyear _ h
  | blank => simp [DatePart.write] at h
  | month => exact hpadded _ _ h
  | day => exact hpadded _ _ h
  | hour => exact hpadded _ _ h
  | minute => exact hpadded _ _ h
  | second => exact hpadded _ _ h

theorem display_moment (m : Moment) :
    (moment m).display = quoteLiteral (DatePattern.standard.write m) := by
  refine String.toList_inj.mp ?_
  rw [toList_quoteLiteral, doubled_of_not_mem (quote_not_mem_write m)]
  simp [display]

/-- **A printed value is sealed**, and not empty. -/
theorem sealed_display (v : Value) : Text.Sealed v.display.toList ∧ v.display.toList ≠ [] := by
  have hliteral : ∀ s, Text.Sealed (quoteLiteral s).toList ∧ (quoteLiteral s).toList ≠ [] :=
    fun s => ⟨sealed_quoteLiteral s, by rw [toList_quoteLiteral]; exact List.cons_ne_nil _ _⟩
  cases v with
  | null => exact ⟨sealed_of_bare (.of_all (by decide)), by decide⟩
  | bool b => cases b <;> exact ⟨sealed_of_bare (.of_all (by decide)), by decide⟩
  | int i => exact ⟨sealed_of_bare ((over_int i).mono fun _ => isBare_of_isIntChar), int_ne_empty i⟩
  | float x =>
    obtain ⟨hbare, hne⟩ := bare_float x
    exact ⟨sealed_of_bare hbare, String.toList_eq_nil_iff.not.mpr hne⟩
  | text s => exact hliteral s
  | moment m => exact display_moment m ▸ hliteral _

/-- Values that are told by how they print. A number may print as a whole number does, and a moment
as a text. -/
def isTold : Value → Bool
  | .float _ | .moment _ => false
  | _ => true

/-- The sort of a value from how it prints. -/
def shownKind (cs : List Char) : ValueKind :=
  if '\x27' ∈ cs then .text
  else if cs.all isIntChar then .number
  else if cs = "NULL".toList then .none
  else .bool

theorem shownKind_display {v : Value} (hv : v.isTold = true) :
    shownKind v.display.toList = v.kind := by
  cases v with
  | null => decide
  | bool b => cases b <;> decide
  | int i =>
    have hquote : '\x27' ∉ (int i).display.toList := fun h => absurd (over_int i _ h) (by decide)
    have hall : (int i).display.toList.all isIntChar = true := List.all_eq_true.mpr (over_int i)
    rw [shownKind, if_neg hquote, if_pos hall]
    rfl
  | text s =>
    rw [shownKind, if_pos (by rw [display, toList_quoteLiteral]; exact List.mem_cons_self)]
    rfl
  | float x => cases hv
  | moment m => cases hv

/-- **Values that print alike are equal**, if they are told by how they print. -/
theorem display_inj {v w : Value} (hv : v.isTold = true) (hw : w.isTold = true)
    (h : v.display = w.display) : v = w := by
  have hkind : v.kind = w.kind := by rw [← shownKind_display hv, h, shownKind_display hw]
  cases v with
  | null =>
    cases w with
    | null => rfl
    | _ => cases hkind
  | bool b =>
    cases w with
    | bool c =>
      revert h
      cases b <;> cases c <;> decide
    | _ => cases hkind
  | int i =>
    cases w with
    | int j => rw [Decimal.int_inj h]
    | float x => cases hw
    | _ => cases hkind
  | text s =>
    cases w with
    | text t => rw [quoteLiteral_inj h]
    | _ => cases hkind
  | float x => cases hv
  | moment m => cases hv

theorem map_display_inj : ∀ {vs ws : List Value}, (∀ v ∈ vs ++ ws, v.isTold = true) →
    vs.map display = ws.map display → vs = ws
  | [], [], _, _ => rfl
  | [], w :: ws, _, h => by cases h
  | v :: vs, [], _, h => by cases h
  | v :: vs, w :: ws, htold, h => by
    obtain ⟨hvw, hrest⟩ := List.cons.inj h
    have hu : ∀ u ∈ vs ++ ws, u.isTold = true := by
      intro u hu
      rcases List.mem_append.mp hu with hu | hu
      · exact htold u (by simp [hu])
      · exact htold u (by simp [hu])
    rw [display_inj (htold v (by simp)) (htold w (by simp)) hvw, map_display_inj hu hrest]

end Value

/-! ### Keys -/

namespace Compiled

/-- The values of a query as they print. -/
def shown (c : Compiled) : List String := c.binds.map fun p => p.value.display

/-- **A key without an id tells the SQL text and how the values print.** -/
theorem shown_eq_of_cacheKey_eq {a b : Compiled} (ha : a.cache.result.id = none)
    (hb : b.cache.result.id = none) (h : a.cacheKey = b.cacheKey) :
    a.sql = b.sql ∧ a.shown = b.shown := by
  have hkey : ∀ {c : Compiled}, c.cache.result.id = none → c.cacheKey.toList =
      c.sql.toList ++ '|' :: [','].intercalate (c.shown.map String.toList) := by
    intro c hc
    rw [cacheKey, hc]
    simp [String.toList_intercalate, shown]
  have hsealed : ∀ (c : Compiled), ∀ cs ∈ c.shown.map String.toList, Text.Sealed cs ∧ cs ≠ [] := by
    intro c cs hcs
    simp only [shown, List.map_map, List.mem_map, Function.comp_apply] at hcs
    obtain ⟨p, -, rfl⟩ := hcs
    exact p.value.sealed_display
  obtain ⟨haclosed, habar⟩ := Text.Sealed.intercalate fun cs hcs => (hsealed a cs hcs).1
  obtain ⟨hbclosed, hbbar⟩ := Text.Sealed.intercalate fun cs hcs => (hsealed b cs hcs).1
  have hchars := congrArg String.toList h
  rw [hkey ha, hkey hb] at hchars
  obtain ⟨hsql, hvalues⟩ := Text.Sealed.bar_inj haclosed habar hbclosed hbbar hchars
  have hlists := Text.Sealed.eq_of_intercalate_eq (fun cs hcs => ?_) hvalues
  · exact ⟨String.toList_inj.mp hsql,
      List.map_injective_iff.mpr (fun _ _ => String.toList_inj.mp) hlists⟩
  · exact (List.mem_append.mp hcs).elim (hsealed a cs) (hsealed b cs)

/-- **Queries with the same key are the same query.** Without ids, equal keys mean equal SQL texts
and as many values, which print alike one by one, whatever the SQL texts and the searched texts
hold. Values other than numbers with a fraction and moments are then equal. -/
theorem eq_of_cacheKey_eq {a b : Compiled} (ha : a.cache.result.id = none)
    (hb : b.cache.result.id = none) (h : a.cacheKey = b.cacheKey) :
    a.sql = b.sql ∧ a.binds.length = b.binds.length ∧
      a.binds.map (fun p => p.value.display) = b.binds.map (fun p => p.value.display) ∧
      ((∀ p ∈ a.binds ++ b.binds, p.value.isTold = true) →
        a.binds.map Param.value = b.binds.map Param.value) := by
  obtain ⟨hsql, hshown⟩ := shown_eq_of_cacheKey_eq ha hb h
  refine ⟨hsql, by simpa [shown] using congrArg List.length hshown, hshown, fun htold => ?_⟩
  refine Value.map_display_inj (fun v hv => ?_) (by rw [List.map_map, List.map_map]; exact hshown)
  rw [← List.map_append] at hv
  obtain ⟨p, hp, rfl⟩ := List.mem_map.mp hv
  exact htold p hp

/-- A query with a text that looks like the end of its own key. -/
def lookalike (name : String) : Compiled :=
  ⟨"SELECT '|' = ?, ?", [⟨name, .text "x','|'"⟩, ⟨name ++ "2", .int (-7)⟩], ⟨false, .off⟩⟩

/-- The names of the parameters are no part of the key. -/
theorem eq_of_cacheKey_eq_lookalike :
    (lookalike "a").cacheKey = "SELECT '|' = ?, ?|'x'',''|''',-7" ∧
    (lookalike "a").cacheKey = (lookalike "b").cacheKey ∧ lookalike "a" ≠ lookalike "b" ∧
    (lookalike "a").sql = (lookalike "b").sql ∧
    (lookalike "a").binds.map Param.value = (lookalike "b").binds.map Param.value := by
  have hkey : (lookalike "a").cacheKey = (lookalike "b").cacheKey := by decide +kernel
  obtain ⟨hsql, -, -, hvalues⟩ :=
    eq_of_cacheKey_eq (a := lookalike "a") (b := lookalike "b") rfl rfl hkey
  exact ⟨by decide +kernel, hkey, by decide, hsql, hvalues (by decide)⟩

end Compiled

end TableQuery
