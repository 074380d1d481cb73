import Mathlib.Algebra.GroupWithZero.Nat
import TableQuery.Proofs.Plan.Queries
import TableQuery.Proofs.Search.Counters

/-! # Names of the parameters of a request

The global search goes through the columns with one group, the column searches with one group and
one counter. Both keep their names apart at every step (`Group.NamedByPosition.pushSearched`,
`Group.NamedBelow.of_draws`), and a name of one is never a name of the other. So the page and the
filtered count name their parameters differently, and the map of the parameters has all of them
(`Planned.names_nodup`). The counter moves no further than the search texts are long
(`Planned.narrowed_le`). -/

namespace TableQuery.Planned

variable {p : Planned}

theorem namedByPosition_globalSearch
    (hf : ∀ c ∈ p.table.registry.columns, c.effectiveFilter.DrawsNames) :
    p.globalSearch.NamedByPosition :=
  p.globalSearch_induction (Group.namedByPosition_empty .or) fun c hc _ _ _ _ _ _ hacc => by
    rw [Filter.widen_eq (hf c (mem_columns_of_mem_searchedColumns hc))]
    exact hacc.pushSearched _ _ _

theorem namedBelow_individualSearch
    (hf : ∀ c ∈ p.table.registry.columns, c.effectiveFilter.DrawsNames) :
    ∃ counter, p.individualSearch.NamedBelow counter :=
  p.individualSearch_invariant (P := fun g counter => g.NamedBelow counter)
    (Group.namedBelow_empty firstCounter .and) fun c hc _ _ _ _ _ hacc =>
      hacc.of_draws (Filter.draws_narrow (hf c (mem_columns_of_mem_searchedColumns hc)) _ _ _)

theorem nodup_searches (hf : ∀ c ∈ p.table.registry.columns, c.effectiveFilter.DrawsNames) :
    ((p.globalSearch.params ++ p.individualSearch.params).map Param.name).Nodup := by
  have hglobal := namedByPosition_globalSearch hf
  obtain ⟨counter, hindividual⟩ := namedBelow_individualSearch hf
  rw [List.map_append, List.nodup_append]
  refine ⟨hglobal.nodup, hindividual.nodup, ?_⟩
  intro n hn m hm
  obtain ⟨column, slot, i, -, rfl⟩ := hglobal.position n hn
  obtain ⟨k, -, rfl⟩ := hindividual.below m hm
  exact globalNames_ne_counterName column slot i k

theorem length_parameters {c : Compiled} (h : (c.binds.map Param.name).Nodup) :
    c.parameters.length = c.binds.length := by
  rw [Compiled.parameters, Keyed.length_ofPairs, List.length_map]
  rwa [List.map_map]

/-- **The parameters of a page and of a filtered count have different names**, if the base query has
no parameters and the author's own filters draw their names from the counter. So the map of the
parameters has as many entries as there are parameters. -/
theorem names_nodup (p : Planned)
    (hf : ∀ c ∈ p.table.registry.columns, c.effectiveFilter.DrawsNames)
    (hb : ∀ g ∈ p.base.filters, g.params = []) :
    (∀ c, p.page = .ok c →
      (c.binds.map Param.name).Nodup ∧ c.parameters.length = c.binds.length) ∧
    ∀ c, p.count true = .ok c →
      (c.query.binds.map Param.name).Nodup ∧ c.query.parameters.length = c.query.binds.length := by
  have hbase : p.base.filters.flatMap Group.params = [] := List.flatMap_eq_nil_iff.mpr hb
  have hs := nodup_searches hf
  refine ⟨fun c hc => ?_, fun c hc => ?_⟩
  · have hn : (c.binds.map Param.name).Nodup := by
      rw [binds_page hc, hbase, List.nil_append]
      exact hs
    exact ⟨hn, length_parameters hn⟩
  · have hn : (c.query.binds.map Param.name).Nodup := by
      rw [binds_count hc, hbase, List.nil_append]
      exact hs
    exact ⟨hn, length_parameters hn⟩

/-! ### The counter -/

/-- How far the counter may move in a step: by the length of the column's search text and two. -/
def stepBound (p : Planned) (step : Column × Target) : Nat :=
  (p.request.columnSearch step.1.index).elim 0 fun value => value.toList.length + 2

theorem narrowAt_le {step : Column × Target} (hf : step.1.effectiveFilter.IsBuiltIn)
    (acc : Group × Nat) : (p.narrowAt acc step).2 ≤ acc.2 + p.stepBound step := by
  unfold narrowAt stepBound
  cases p.request.columnSearch step.1.index with
  | none => exact Nat.le_refl _
  | some value => exact Filter.narrow_le hf _ _ _

theorem foldl_narrowAt_le {steps : List (Column × Target)}
    (hf : ∀ step ∈ steps, step.1.effectiveFilter.IsBuiltIn) (acc : Group × Nat) :
    (steps.foldl p.narrowAt acc).2 ≤ acc.2 + (steps.map p.stepBound).sum := by
  induction steps generalizing acc with
  | nil => exact Nat.le_refl _
  | cons step steps ih =>
    obtain ⟨hstep, hsteps⟩ := List.forall_mem_cons.mp hf
    have hfirst : (p.narrowAt acc step).2 ≤ acc.2 + p.stepBound step := narrowAt_le hstep acc
    have hrest := ih hsteps (p.narrowAt acc step)
    rw [List.foldl_cons, List.map_cons, List.sum_cons]
    omega

/-- **How far the searches of a request move the counter**, if no filter is the author's own. -/
theorem narrowed_le (hf : ∀ c ∈ p.table.registry.columns, c.effectiveFilter.IsBuiltIn) :
    (p.narrowed p.searchSteps).2 ≤ firstCounter + (p.searchSteps.map p.stepBound).sum :=
  foldl_narrowAt_le (fun step hstep => hf step.1
    (mem_columns_of_mem_searchedColumns (mem_searchSteps.mp hstep).1)) _

/-- A filter of the author's: equality, with one name from the counter. -/
def exactly : Strategy :=
  { input := .text
    narrow := fun acc term counter =>
      (acc.push (.compare term.target .eq ⟨counterNames counter 0, .text term.value⟩),
        counter + 1) }

theorem drawsNames_exactly : exactly.DrawsNames where
  widen := fun _ _ _ _ => rfl
  narrow := fun acc term counter => by
    refine ⟨by simp [exactly], [counter], by simp, by simp [exactly], ?_⟩
    simp only [exactly, Group.names_push]
    exact List.Subperm.refl _

/-- A column of an expression that can be searched. -/
def searchedColumn (index : Nat) (sql : String) (filter : Filter) : Column :=
  { index, kind := .column, name := some sql, data := none, source := .expression sql,
    type := none, fieldType := none, chain := [], title := none, searchable := true,
    orderable := true, visible := true, joinKind := .left, className := none, width := none,
    defaultContent := none, orderColumn := none, searchColumn := none, filter := some filter,
    render := [] }

/-- A request with a list in the global search and a search text for each of two columns. -/
def listed : Planned :=
  { table :=
      { name := "posts"
        registry :=
          { schema := [("Post", { name := "Post", table := "posts", identifiers := ["id"] })]
            entity := "Post"
            columns := [searchedColumn 0 "LOWER(post.title)" (.custom exactly),
              searchedColumn 1 "post.status" (.select .among [] true)]
            names := [] }
        settings := { search := ⟨true, .among, false⟩ } }
    request :=
      { search := some { value := "a,b" }
        columns := [{ search := { value := "x" } }, { search := { value := "p,q" } }] }
    base := { table := "posts", aliasName := "post" }
    cache := ⟨false, false, .off, .off⟩
    plan :=
      { rootAlias := "post", rootEntity := "Post", rootTable := "posts", rootIdentifier := "id"
        joins := []
        selection := [.fields "post" ["id"]]
        search := [[.raw "LOWER(post.title)"], [.raw "post.status"]]
        order := [] } }

theorem names_nodup_listed :
    (∃ c, listed.page = .ok c ∧ (c.binds.map Param.name).Nodup ∧
      c.parameters.length = c.binds.length ∧
      c.binds.map Param.name = ["g0_0", "g0_0_1", "g1_1", "g1_1_1", "p100", "p101", "p102"]) ∧
    ∃ c, listed.count true = .ok c ∧ (c.query.binds.map Param.name).Nodup ∧
      c.query.parameters.length = 7 := by
  have hf : ∀ c ∈ listed.table.registry.columns, c.effectiveFilter.DrawsNames := by
    intro c hc s hs
    have hc : c = searchedColumn 0 "LOWER(post.title)" (.custom exactly) ∨
        c = searchedColumn 1 "post.status" (.select .among [] true) := by simpa [listed] using hc
    rcases hc with rfl | rfl
    · cases hs
      exact drawsNames_exactly
    · cases hs
  have hb : ∀ g ∈ listed.base.filters, g.params = [] := by simp [listed]
  obtain ⟨hpage, hcount⟩ := names_nodup listed hf hb
  obtain ⟨c, hc, hnames⟩ := Outcome.exists_ok (x := listed.page) (p := fun c =>
    c.binds.map Param.name == ["g0_0", "g0_0_1", "g1_1", "g1_1_1", "p100", "p101", "p102"])
    (by decide +kernel)
  obtain ⟨k, hk, hseven⟩ := Outcome.exists_ok (x := listed.count true)
    (p := fun k => k.query.binds.length == 7) (by decide +kernel)
  obtain ⟨hnodup, hlength⟩ := hpage c hc
  obtain ⟨hnodup', hlength'⟩ := hcount k hk
  exact ⟨⟨c, hc, hnodup, hlength, by simpa using hnames⟩,
    ⟨k, hk, hnodup', by rw [hlength']; simpa using hseven⟩⟩

end TableQuery.Planned
