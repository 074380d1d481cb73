import Mathlib.Data.List.Nodup
import Mathlib.Data.List.Perm.Subperm
import TableQuery.Proofs.Decimal.Literal
import TableQuery.Proofs.Search.Added
import TableQuery.Proofs.Sql.Printing

/-! # Names of search parameters

Two namings are used. The global search names a parameter by its column, the position of its
predicate in the group and its own position in the predicate; the searches of the columns number
their parameters with one counter. Both print injectively and never the same name.

* `Group.NamedByPosition`: the parameters of a group have different names, each with the position of
  a predicate that the group has already. Adding an expression of the global search keeps this.
* `Group.NamedBelow`: the parameters of a group have different names, each with a number below the
  counter. A filter that draws its names from the counter (`Filter.Draws`) keeps this, although it
  may use up names for predicates that it drops. -/

namespace TableQuery

/-! ### Printed names -/

/-- The name with a number. -/
def counterName (n : Nat) : String := "p" ++ toString n

theorem toList_counterName (n : Nat) : (counterName n).toList = 'p' :: Nat.toDigits 10 n := by
  simp [counterName, Nat.toString_eq_repr, Nat.toList_repr]

theorem counterName_inj {m n : Nat} (h : counterName m = counterName n) : m = n := by
  have hl := congrArg String.toList h
  rw [toList_counterName, toList_counterName] at hl
  exact toDigits_inj (List.cons.inj hl).2

/-- The part of a global name after its position: nothing for the first parameter. -/
def indexSuffix (i : Nat) : List Char := if i = 0 then [] else '_' :: Nat.toDigits 10 i

theorem toList_globalNames (column slot i : Nat) : (globalNames column slot i).toList =
    'g' :: (Nat.toDigits 10 column ++ '_' :: (Nat.toDigits 10 slot ++ indexSuffix i)) := by
  unfold globalNames indexSuffix
  split_ifs <;> simp [Nat.toString_eq_repr, Nat.toList_repr]

theorem underscore_not_mem_toDigits (n : Nat) : '_' ∉ Nat.toDigits 10 n :=
  fun h => absurd (isDigit_of_mem_toDigits h) (by decide)

theorem toDigits_append_inj {m n : Nat} {s t : List Char} (hs : s.head?.all (· == '_') = true)
    (ht : t.head?.all (· == '_') = true) (h : Nat.toDigits 10 m ++ s = Nat.toDigits 10 n ++ t) :
    m = n ∧ s = t := by
  have take : ∀ (k : Nat) (u : List Char), u.head?.all (· == '_') = true →
      (Nat.toDigits 10 k ++ u).takeWhile (· != '_') = Nat.toDigits 10 k := by
    intro k u hu
    rw [List.takeWhile_append_of_pos fun c hc => by
      rw [bne_iff_ne]; rintro rfl; exact underscore_not_mem_toDigits k hc]
    cases u with
    | nil => simp
    | cons c u =>
      have : c = '_' := by simpa using hu
      simp [this]
  have hd : Nat.toDigits 10 m = Nat.toDigits 10 n := by rw [← take m s hs, h, take n t ht]
  rw [hd] at h
  exact ⟨toDigits_inj hd, List.append_cancel_left h⟩

theorem globalNames_inj {column slot i column' slot' i' : Nat}
    (h : globalNames column slot i = globalNames column' slot' i') :
    column = column' ∧ slot = slot' ∧ i = i' := by
  have hl := congrArg String.toList h
  rw [toList_globalNames, toList_globalNames, List.cons.injEq] at hl
  have hsuffix : ∀ j, (indexSuffix j).head?.all (· == '_') = true := by
    intro j; unfold indexSuffix; split_ifs <;> simp
  obtain ⟨hcolumn, hl⟩ := toDigits_append_inj (by simp) (by simp) hl.2
  obtain ⟨hslot, hl⟩ := toDigits_append_inj (hsuffix i) (hsuffix i') (List.cons.inj hl).2
  refine ⟨hcolumn, hslot, ?_⟩
  unfold indexSuffix at hl
  split_ifs at hl with h1 h2 h2
  · rw [h1, h2]
  · exact toDigits_inj (List.cons.inj hl).2

theorem globalNames_ne_counterName (column slot i n : Nat) :
    globalNames column slot i ≠ counterName n := by
  intro h
  have hl := congrArg String.toList h
  rw [toList_globalNames, toList_counterName, List.cons.injEq] at hl
  exact absurd hl.1 (by decide)

/-! ### The names of one expression -/

theorem names_named (names : Naming) (values : List Value) :
    (named names values).map Param.name = (List.range values.length).map names := by
  refine List.ext_getElem (by simp [named]) fun i h1 h2 => ?_
  simp [named]

/-- **The parameters of an expression have the first names of its naming, in order.** -/
theorem names_searchExpression {term : SearchTerm} {mode : SearchMode} {names : Naming}
    {p : Predicate} (h : (searchExpression term mode names).predicate = some p) :
    p.params.map Param.name =
      (List.range (searchExpression term mode names).used).map names := by
  have hgives := SearchTerm.gives_searchExpression h
  generalize (searchExpression term mode names).used = used at hgives
  cases hgives with
  | isNull negated => rfl
  | compare op value => rfl
  | like negated value => rfl
  | among negated h => exact names_named names _

/-! ### The names of a group -/

/-- The names of the parameters of a group. -/
def Group.names (g : Group) : List String := g.params.map Param.name

namespace Group

theorem params_push (g : Group) (p : Predicate) : (g.push p).params = g.params ++ p.params := by
  simp [Group.params, Group.push, Predicate.itemParams_eq_flatMap]

theorem names_push (g : Group) (p : Predicate) :
    (g.push p).names = g.names ++ p.params.map Param.name := by
  rw [names, params_push, List.map_append]
  rfl

/-- The parameters have different names, each with the position of a predicate of the group. -/
structure NamedByPosition (g : Group) : Prop where
  nodup : g.names.Nodup
  position : ∀ n ∈ g.names, ∃ column slot i, slot < g.items.length ∧ n = globalNames column slot i

/-- The parameters have different names, each with a number below the counter. -/
structure NamedBelow (counter : Nat) (g : Group) : Prop where
  nodup : g.names.Nodup
  below : ∀ n ∈ g.names, ∃ k < counter, n = counterName k

theorem namedByPosition_empty (conjunction : Conjunction) : NamedByPosition ⟨conjunction, []⟩ :=
  ⟨List.nodup_nil, fun n hn => by simp [names, params, Predicate.itemParams] at hn⟩

theorem namedBelow_empty (counter : Nat) (conjunction : Conjunction) :
    NamedBelow counter ⟨conjunction, []⟩ :=
  ⟨List.nodup_nil, fun n hn => by simp [names, params, Predicate.itemParams] at hn⟩

theorem NamedByPosition.pushSearched {g : Group} (hg : g.NamedByPosition) (term : SearchTerm)
    (mode : SearchMode) (column : Nat) :
    (g.pushSearched
      (searchExpression term mode (globalNames column g.items.length))).NamedByPosition := by
  unfold Group.pushSearched
  split
  · next p hp =>
    have hnames := names_searchExpression hp
    generalize (searchExpression term mode (globalNames column g.items.length)).used = used
      at hnames
    have hlength : (g.push p).items.length = g.items.length + 1 := by simp [push]
    refine ⟨?_, fun n hn => ?_⟩
    · rw [names_push, hnames, List.nodup_append]
      refine ⟨hg.nodup, List.nodup_range.map fun i j h => (globalNames_inj h).2.2, ?_⟩
      intro n hn m hm
      obtain ⟨i, -, rfl⟩ := List.mem_map.mp hm
      obtain ⟨column', slot, j, hslot, rfl⟩ := hg.position n hn
      intro h
      have := (globalNames_inj h).2.1
      omega
    · rw [names_push, hnames, List.mem_append] at hn
      rcases hn with hn | hn
      · obtain ⟨column', slot, j, hslot, rfl⟩ := hg.position n hn
        exact ⟨column', slot, j, by omega, rfl⟩
      · obtain ⟨i, -, rfl⟩ := List.mem_map.mp hn
        exact ⟨column, g.items.length, i, by omega, rfl⟩
  · exact hg

/-- From `acc` at `counter` to `acc'` at `counter'`: any new name has a number that the counter gave
away in between, and no number is used twice. Old parameters may be dropped. -/
def Draws (acc : Group) (counter : Nat) (acc' : Group) (counter' : Nat) : Prop :=
  counter ≤ counter' ∧ ∃ minted : List Nat, minted.Nodup ∧
    (∀ k ∈ minted, counter ≤ k ∧ k < counter') ∧
    acc'.names.Subperm (acc.names ++ minted.map counterName)

/-- No predicate, although numbers may be used up. -/
theorem Draws.of_le (acc : Group) {counter counter' : Nat} (h : counter ≤ counter') :
    Draws acc counter acc counter' :=
  ⟨h, [], List.nodup_nil, by simp, by simpa using List.Subperm.refl acc.names⟩

theorem Draws.refl (acc : Group) (counter : Nat) : Draws acc counter acc counter :=
  Draws.of_le acc (Nat.le_refl counter)

theorem NamedBelow.of_draws {acc acc' : Group} {counter counter' : Nat}
    (hacc : acc.NamedBelow counter) (h : Draws acc counter acc' counter') :
    acc'.NamedBelow counter' := by
  obtain ⟨hle, minted, hnodup, hrange, hsub⟩ := h
  have hall : (acc.names ++ minted.map counterName).Nodup := by
    rw [List.nodup_append]
    refine ⟨hacc.nodup, hnodup.map fun i j h => counterName_inj h, ?_⟩
    intro n hn m hm
    obtain ⟨k, hk, rfl⟩ := List.mem_map.mp hm
    obtain ⟨l, hl, rfl⟩ := hacc.below n hn
    intro h
    have := counterName_inj h
    have := (hrange k hk).1
    omega
  refine ⟨?_, fun n hn => ?_⟩
  · obtain ⟨l, hperm, hsublist⟩ := hsub
    exact hperm.nodup (hsublist.nodup hall)
  · rcases List.mem_append.mp (hsub.subset hn) with hn | hn
    · obtain ⟨k, hk, rfl⟩ := hacc.below n hn
      exact ⟨k, by omega, rfl⟩
    · obtain ⟨k, hk, rfl⟩ := List.mem_map.mp hn
      exact ⟨k, (hrange k hk).2, rfl⟩

end Group

/-! ### Filters that draw their names from the counter -/

/-- A strategy keeps the default part in the global search and names the parameters of its own
predicates with numbers from the counter. -/
structure Strategy.DrawsNames (s : Strategy) : Prop where
  widen : ∀ acc term mode column, s.widen acc term mode column =
    acc.pushSearched (searchExpression term mode (globalNames column acc.items.length))
  narrow : ∀ acc term counter,
    Group.Draws acc counter (s.narrow acc term counter).1 (s.narrow acc term counter).2

/-- The strategy of a filter, if it has one, draws its names from the counter. -/
def Filter.DrawsNames (f : Filter) : Prop := ∀ s, f = .custom s → s.DrawsNames

namespace Filter

theorem draws_narrowBy (acc : Group) (term : SearchTerm) (mode : SearchMode) (counter : Nat) :
    Group.Draws acc counter (narrowBy acc term mode counter).1
      (narrowBy acc term mode counter).2 := by
  simp only [narrowBy, Group.pushSearched]
  split
  · next p hp =>
    have hnames := names_searchExpression hp
    generalize (searchExpression term mode (counterNames counter)).used = used at hnames ⊢
    refine ⟨by omega, (List.range used).map (counter + ·),
      List.nodup_range.map fun i j h => by simpa using h, ?_, ?_⟩
    · intro k hk
      obtain ⟨i, hi, rfl⟩ := List.mem_map.mp hk
      have := List.mem_range.mp hi
      omega
    · rw [Group.names_push, hnames, List.map_map]
      exact List.Subperm.refl _
  · exact Group.Draws.of_le acc (Nat.le_add_right counter _)

theorem draws_narrowBetween (acc : Group) (target : Target) (low high : Value) (counter : Nat) :
    Group.Draws acc counter (narrowBetween acc target low high counter).1
      (narrowBetween acc target low high counter).2 := by
  refine ⟨by simp [narrowBetween], [counter, counter + 1], by simp, ?_, ?_⟩
  · intro k hk
    simp only [narrowBetween]
    have : k = counter ∨ k = counter + 1 := by simpa using hk
    omega
  · simp only [narrowBetween, Group.names_push]
    exact List.Subperm.refl _

/-- **Every built-in filter draws its names from the counter**, and so does a strategy that says
so. -/
theorem draws_narrow {f : Filter} (hf : f.DrawsNames) (acc : Group) (term : SearchTerm)
    (counter : Nat) :
    Group.Draws acc counter (f.narrow acc term counter).1 (f.narrow acc term counter).2 := by
  obtain ⟨strategy, rfl⟩ | h | ⟨term', mode, -, h⟩ | ⟨low, high, h⟩ :=
    f.narrow_cases acc term counter
  · exact (hf strategy rfl).narrow acc term counter
  · rw [h]
    exact Group.Draws.refl acc counter
  · rw [h]
    exact draws_narrowBy acc term' mode counter
  · rw [h]
    exact draws_narrowBetween acc term.target low high counter

theorem widen_eq {f : Filter} (hf : f.DrawsNames) (acc : Group) (term : SearchTerm)
    (mode : SearchMode) (column : Nat) : f.widen acc term mode column =
      acc.pushSearched (searchExpression term mode (globalNames column acc.items.length)) := by
  cases f with
  | custom strategy => exact (hf strategy rfl).widen acc term mode column
  | _ => rfl

end Filter

end TableQuery
