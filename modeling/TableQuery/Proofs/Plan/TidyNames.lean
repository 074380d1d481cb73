import Mathlib.Tactic.MkIffOfInductiveProp
import TableQuery.Proofs.Plan.Aliases

/-! # Names with single underscores

The alias of a join is made of the relationships on the way to it (`Table.madeOf_plan`), and the
label of a field of its alias and the field, with two underscores in between. Where the names have
single underscores, inside only, so do the aliases (`isTidyName_intercalate`), and a label gives its
alias back (`alias_eq_of_fieldLabel_eq`). -/

namespace TableQuery

open Outcome

/-- No two underscores in a row, and none at the end. -/
def SingleUnderscores : List Char → Prop
  | [] => True
  | [c] => c ≠ '_'
  | c :: d :: rest => ¬ (c = '_' ∧ d = '_') ∧ SingleUnderscores (d :: rest)

instance : ∀ l, Decidable (SingleUnderscores l)
  | [] => isTrue trivial
  | [c] => inferInstanceAs (Decidable (c ≠ '_'))
  | c :: d :: rest =>
    have : Decidable (SingleUnderscores (d :: rest)) := instDecidableSingleUnderscores (d :: rest)
    inferInstanceAs (Decidable (¬ (c = '_' ∧ d = '_') ∧ SingleUnderscores (d :: rest)))

namespace SingleUnderscores

theorem tail {c : Char} : ∀ {l : List Char}, SingleUnderscores (c :: l) → SingleUnderscores l
  | [], _ => trivial
  | _ :: _, h => h.2

/-- Two underscores that follow are not part of the text. -/
theorem append_inj : ∀ {l m x y : List Char}, SingleUnderscores l → SingleUnderscores m →
    l ++ '_' :: '_' :: x = m ++ '_' :: '_' :: y → l = m
  | [], [], _, _, _, _, _ => rfl
  | [], [c], x, y, _, hm, h => by
    exact absurd (List.cons.inj h).1.symm hm
  | [], c :: d :: m, x, y, _, hm, h => by
    obtain ⟨hc, htail⟩ := List.cons.inj h
    exact absurd ⟨hc.symm, (List.cons.inj htail).1.symm⟩ hm.1
  | [c], [], x, y, hl, _, h => absurd (List.cons.inj h).1 hl
  | c :: d :: l, [], x, y, hl, _, h => by
    obtain ⟨hc, htail⟩ := List.cons.inj h
    exact absurd ⟨hc, (List.cons.inj htail).1⟩ hl.1
  | c :: l, d :: m, x, y, hl, hm, h => by
    obtain ⟨rfl, htail⟩ := List.cons.inj h
    rw [append_inj hl.tail hm.tail htail]

theorem ne_append : ∀ {l x y : List Char}, SingleUnderscores l → l ≠ x ++ '_' :: '_' :: y
  | _, [], y, h, rfl => h.1 ⟨rfl, rfl⟩
  | _, c :: x, y, h, rfl => ne_append h.tail rfl

theorem append_cons {c : Char} {m : List Char} (hc : c ≠ '_') (hm : SingleUnderscores (c :: m)) :
    ∀ {l : List Char}, SingleUnderscores l → SingleUnderscores (l ++ '_' :: c :: m)
  | [], _ => ⟨fun h => hc h.2, hm⟩
  | [_], hl => ⟨fun h => hl h.1, fun h => hc h.2, hm⟩
  | _ :: _ :: _, hl => ⟨hl.1, append_cons hc hm hl.2⟩

end SingleUnderscores

/-- The name has no two underscores in a row, and none at the end. -/
@[mk_iff]
structure HasSingleUnderscores (name : String) : Prop where
  chars : SingleUnderscores name.toList

/-- The name has single underscores, and does not begin with one. -/
@[mk_iff]
structure IsTidyName (name : String) : Prop extends HasSingleUnderscores name where
  head : ∃ c ∈ name.toList.head?, c ≠ '_'

instance (name : String) : Decidable (HasSingleUnderscores name) :=
  decidable_of_iff' _ (hasSingleUnderscores_iff name)

instance (name : String) : Decidable (IsTidyName name) :=
  have : Decidable (∃ c ∈ name.toList.head?, c ≠ '_') :=
    decidable_of_iff (name.toList.head?.any (· != '_') = true) (by simp [Option.any_eq_true])
  decidable_of_iff' _ (isTidyName_iff name)

theorem IsTidyName.exists_toList {name : String} (h : IsTidyName name) :
    ∃ c rest, name.toList = c :: rest ∧ c ≠ '_' := by
  obtain ⟨c, hc, hne⟩ := h.head
  obtain ⟨rest, hrest⟩ := List.head?_eq_some_iff.mp hc
  exact ⟨c, rest, hrest, hne⟩

theorem isTidyName_intercalate : ∀ {names : List String}, names ≠ [] →
    (∀ name ∈ names, IsTidyName name) → IsTidyName ("_".intercalate names)
  | [a], _, h => by simpa using h a List.mem_cons_self
  | a :: b :: names, _, h => by
    obtain ⟨ha, hrest⟩ := List.forall_mem_cons.mp h
    have hnames := isTidyName_intercalate (List.cons_ne_nil b names) hrest
    obtain ⟨c, rest, hc, hne⟩ := hnames.exists_toList
    obtain ⟨d, rest', hd, hne'⟩ := ha.exists_toList
    have htext : ("_".intercalate (a :: b :: names)).toList = a.toList ++ '_' :: c :: rest := by
      rw [String.intercalate_cons_cons, String.toList_append, String.toList_append, hc]
      simp
    refine ⟨⟨?_⟩, d, ?_, hne'⟩
    · rw [htext]
      exact .append_cons hne (hc ▸ hnames.chars) ha.chars
    · rw [htext, hd]
      rfl

theorem IsTidyName.safeAlias {name : String} (h : IsTidyName name) :
    HasSingleUnderscores (safeAlias name) := by
  rcases safeAlias_eq name with heq | heq <;> rw [heq]
  · exact h.toHasSingleUnderscores
  · obtain ⟨c, rest, hc, hne⟩ := h.exists_toList
    refine ⟨?_⟩
    rw [String.toList_append, hc]
    exact ⟨fun hmark => hne hmark.2, hc ▸ h.chars⟩

/-- **A label gives its alias back** if the alias has single underscores. -/
theorem alias_eq_of_fieldLabel_eq {a b field field' : String} (ha : HasSingleUnderscores a)
    (hb : HasSingleUnderscores b) (h : fieldLabel a field = fieldLabel b field') : a = b := by
  have hchars := congrArg String.toList h
  simp only [fieldLabel, String.toList_append, List.append_assoc] at hchars
  exact String.toList_inj.mp (ha.chars.append_inj hb.chars hchars)

theorem fieldLabel_ne {label a field : String} (h : HasSingleUnderscores label) :
    fieldLabel a field ≠ label := by
  rintro rfl
  refine h.chars.ne_append (x := a.toList) (y := field.toList) ?_
  simp [fieldLabel]

/-! ### Aliases of relationships -/

/-- The alias of a join is made of relationships. -/
def PlannedJoin.MadeOf (relations : String → Prop) (j : PlannedJoin) : Prop :=
  ∃ names, names ≠ [] ∧ (∀ name ∈ names, relations name) ∧
    j.aliasName = safeAlias ("_".intercalate names)

/-- The relationships that the columns of a table follow. -/
def Table.Follows (t : Table) (relation : String) : Prop :=
  ∃ c ∈ t.registry.columns, ∃ path, c.source = .field path ∧ relation ∈ path.relations

/-- **The aliases of the joins are made of the relationships that the columns follow.** -/
theorem Table.madeOf_plan {t : Table} {rootAlias : String} {p : Plan}
    (h : t.plan rootAlias = .ok p) : ∀ j ∈ p.joins, j.MadeOf t.Follows := by
  obtain ⟨root, d, -, -, hd, -, hjoins, -, -⟩ := exists_draft h
  rw [hjoins]
  refine foldlM_invariant (fun d : Draft => ∀ j ∈ d.joins, j.MadeOf t.Follows) _
    (fun c hc d d' hd hadd => ?_) (fun j hj => absurd hj List.not_mem_nil) hd
  obtain ⟨sql, data, -, -, rfl⟩ | ⟨path, w, identifier, hsource, -, hw, -, rfl⟩ | rfl :=
    Draft.add_cases hadd
  · exact hd
  · refine (foldlM_invariant (fun w : Walk => (∀ j ∈ w.joins, j.MadeOf t.Follows) ∧
      ∀ name ∈ w.behind, t.Follows name) _ (fun relation hrelation w w' hw hhop => ?_)
      ⟨hd, fun name hname => absurd hname List.not_mem_nil⟩ hw).1
    obtain ⟨join, hhop⟩ := Walk.exists_hopped hhop
    have hbehind : ∀ name ∈ w'.behind, t.Follows name := by
      rw [hhop.behind]
      simpa [or_imp, forall_and] using ⟨hw.2, ⟨c, hc, path, hsource, hrelation⟩⟩
    refine ⟨fun j hj => ?_, hbehind⟩
    rw [hhop.joins] at hj
    rcases w.joins.add_cases join with ⟨planned, -, -, heq⟩ | ⟨-, heq⟩ <;> rw [heq] at hj
    · exact hw.1 j hj
    · rcases List.mem_append.mp hj with hj | hj
      · exact hw.1 j hj
      · rw [List.mem_singleton.mp hj]
        exact ⟨w'.behind, by simp [hhop.behind], hbehind, by rw [hhop.path, hhop.behind]⟩
  · exact hd

end TableQuery
