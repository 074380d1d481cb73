import TableQuery.Proofs.Plan.Calls
import TableQuery.Proofs.Plan.Narrowing
import TableQuery.Proofs.Plan.SearchTexts
import TableQuery.Proofs.Sql.Admission

/-! # What a global search finds

The global search asks for one of the fields that the searchable columns are searched by. A field
whose column has a type that does not take the text gives no predicate; any other field gives the
predicate that it gives alone (`Planned.predicateOn`), but for the names of the parameters, which no
database reads. So the group of the search has a predicate for each field that takes the text, and
nothing else (`Planned.AsksFor.exists_item_iff`).

If a field takes the text, a row is admitted only if the predicate of some field holds for it
(`Planned.AsksFor.finds`). If none does, the group is empty, and an empty group is left out: the
conditions are those without a global search (`Planned.AsksFor.conditions_of_not_accepts`). -/

namespace TableQuery

open Outcome

/-! ### Predicates but for names -/

namespace Predicate

/-- The predicates print alike, but for the names of their parameters. -/
def PrintsLike (p p' : Predicate) : Prop :=
  Fragment.unnamed <$> p.sql = Fragment.unnamed <$> p'.sql

theorem PrintsLike.isMet {p p' : Predicate} (h : p.PrintsLike p') {v : List Token → Prop}
    (hmet : p.IsMet v) : p'.IsMet v := by
  obtain ⟨f, hf, hmet⟩ := hmet
  unfold PrintsLike at h
  rw [hf] at h
  obtain ⟨f', hf', hunnamed⟩ := map_eq_ok.mp h.symm
  refine ⟨f', hf', ?_⟩
  rw [Fragment.IsMet, ← Fragment.reading_eq_of_unnamed hunnamed]
  exact hmet

variable {target : Target} {negated : Bool} {names names' : Naming}

theorem printsLike_compare (op : Comparison) (value : Value) :
    (compare target op ⟨names 0, value⟩).PrintsLike (compare target op ⟨names' 0, value⟩) := by
  simp only [PrintsLike, sql, opening]
  cases target.sql <;> rfl

theorem printsLike_like (value : Value) :
    (like target negated ⟨names 0, value⟩).PrintsLike (like target negated ⟨names' 0, value⟩) := by
  simp only [PrintsLike, sql, opening]
  cases target.sql <;> rfl

theorem printsLike_among (values : List Value) :
    (among target negated (named names values)).PrintsLike
      (among target negated (named names' values)) := by
  have hempty : ∀ names, (named names values).isEmpty = values.isEmpty := fun names => by
    cases values <;> simp [named, List.mapIdx_cons]
  have hmarks : ∀ names, ((named names values).map Fragment.ofParam).map Fragment.unnamed =
      values.map fun value => Fragment.ofParam ⟨"", value⟩ := fun names => by
    refine List.ext_getElem (by simp [named]) fun i _ _ => ?_
    simp [named, Fragment.ofParam, Fragment.unnamed, SqlPiece.unnamed, Param.unnamed]
  have hlist : ∀ names start, Fragment.unnamed (start ++
      Fragment.inParens (Fragment.joined ", " ((named names values).map Fragment.ofParam))) =
        Fragment.unnamed start ++ Fragment.inParens (Fragment.joined ", "
          (values.map fun value => Fragment.ofParam ⟨"", value⟩)) := fun names start => by
    rw [← hmarks names, ← Fragment.unnamed_joined]
    simp [Fragment.unnamed, Fragment.inParens, SqlPiece.unnamed]
  simp only [PrintsLike, sql, hempty]
  split_ifs
  · rfl
  · simp only [map_bind, map_pure, hlist]

end Predicate

/-- **The names are no matter for a search expression**: with other names it gives a predicate that
prints alike. -/
theorem SearchTerm.exists_printsLike {term : SearchTerm} {mode : SearchMode} {names : Naming}
    (names' : Naming) {p : Predicate} (h : (searchExpression term mode names).predicate = some p) :
    ∃ p', (searchExpression term mode names').predicate = some p' ∧ p.PrintsLike p' := by
  have hcompare : ∀ op, (searchCompare term op names).predicate = some p →
      ∃ p', (searchCompare term op names').predicate = some p' ∧ p.PrintsLike p' := by
    intro op h
    unfold searchCompare at h ⊢
    split at h
    · cases h
      exact ⟨_, rfl, Predicate.printsLike_compare op _⟩
    · cases h
  have hlike : ∀ negated, (searchLike term negated names).predicate = some p →
      ∃ p', (searchLike term negated names').predicate = some p' ∧ p.PrintsLike p' := by
    intro negated h
    unfold searchLike at h ⊢
    split at h
    · cases h
      exact ⟨_, rfl, Predicate.printsLike_like _⟩
    · cases h
  have hamong : ∀ negated, (searchAmong term negated names).predicate = some p →
      ∃ p', (searchAmong term negated names').predicate = some p' ∧ p.PrintsLike p' := by
    intro negated h
    simp only [searchAmong] at h ⊢
    split_ifs at h ⊢
    · cases h
    · cases h
      exact ⟨_, rfl, Predicate.printsLike_among _⟩
  rcases searchExpression_cases term mode with
    ⟨-, negated, heq⟩ | ⟨-, negated, heq⟩ | ⟨-, ⟨op, heq⟩ | ⟨negated, heq⟩⟩
  · rw [heq] at h ⊢
    exact ⟨p, h, rfl⟩
  · rw [heq] at h ⊢
    exact hamong negated h
  · rw [heq] at h ⊢
    exact hcompare op h
  · rw [heq] at h ⊢
    exact hlike negated h

/-! ### Filters and columns -/

/-- The part of the filter in the global search is the search expression of the text, as it is for
every built-in filter, and for a strategy that does not say otherwise. -/
def Filter.WidensByExpression (f : Filter) : Prop :=
  ∀ (acc : Group) (term : SearchTerm) mode column, f.widen acc term mode column =
    acc.pushSearched (searchExpression term mode (globalNames column acc.items.length))

theorem Filter.IsBuiltIn.widensByExpression {f : Filter} (h : f.IsBuiltIn) :
    f.WidensByExpression := by
  intro acc term mode column
  cases f with
  | custom s => exact absurd rfl (h s)
  | _ => rfl

/-! ### The group of the search -/

theorem Query.filters_filter_eq (q : Query) (g : Group) :
    (q.filter g).filters = q.filters ++ if g.items = [] then [] else [g] := by
  simp only [filter, List.isEmpty_iff]
  split_ifs
  · exact (List.append_nil _).symm
  · rfl

namespace Planned

variable {p : Planned} {value : String}

/-- The predicate of a text on a field that a column is searched by; none if the type of the column
does not take the text. -/
def predicateOn (p : Planned) (value : String) (step : Column × Target) : Option Predicate :=
  (searchExpression ⟨step.2, value, step.1.type⟩ p.table.settings.search.globalMode
    (globalNames step.1.index 0)).predicate

/-- Some field that a searchable column is searched by takes the text. -/
def Accepts (p : Planned) (value : String) : Prop :=
  ∃ step ∈ p.searchSteps, ∃ predicate, p.predicateOn value step = some predicate

/-- The predicate of the text on one of these fields holds. -/
def Finds (p : Planned) (value : String) (v : List Token → Prop) : Prop :=
  ∃ step ∈ p.searchSteps, ∃ predicate, p.predicateOn value step = some predicate ∧
    predicate.IsMet v

/-- The plan asks for a text by search expressions over settled targets, and the groups beside the
global search may stand beside it. -/
structure AsksFor (p : Planned) (value : String) : Prop where
  text : p.request.globalSearch = some value
  slots : AllTargets Target.IsSettled p.plan.search
  widens : ∀ c ∈ p.table.registry.columns, c.effectiveFilter.WidensByExpression
  keeps : ∀ c ∈ p.table.registry.columns, c.effectiveFilter.KeepsClosed
  base : ∀ g ∈ p.base.filters, g.Stands
  individual : p.individualSearch.HasNoBareOr

/-- **A plan for a text asks for it** if the conditions of the table are closed and what its columns
are searched by is settled. -/
theorem asksFor {t : Table} {request : Request} {planner : Planner}
    (hcreate : Planner.create t request = .ok planner) (hplan : planner.plan = .ok p)
    (hvalue : request.globalSearch = some value)
    (hconditions : ∀ sql ∈ t.predicates, Closed true (Text.letters sql))
    (hcolumns : ∀ c ∈ t.registry.columns, c.SearchedBy Target.IsSettled ∧
      c.effectiveFilter.WidensByExpression ∧ c.effectiveFilter.KeepsClosed)
    (hindividual : p.individualSearch.HasNoBareOr) : p.AsksFor value := by
  obtain ⟨root, -, htable, rfl, hbase⟩ := exists_root hcreate hplan
  refine ⟨?_, Table.allTargets_search Target.isSettled_column Target.isSettled_label htable
    fun c hc => (hcolumns c hc).1, fun c hc => (hcolumns c hc).2.1,
    fun c hc => (hcolumns c hc).2.2, fun g hg => ?_, hindividual⟩
  · rwa [request_of_plan hcreate hplan]
  · rw [hbase] at hg
    obtain ⟨sql, hsql, rfl⟩ := List.mem_map.mp hg
    exact Query.stands_authorGroup (hconditions sql hsql)

namespace AsksFor

variable (h : p.AsksFor value)
include h

/-- A step of the global search adds the predicate of the search expression, if there is one. -/
theorem items_widenAt {step : Column × Target} (hstep : step ∈ p.searchSteps) (acc : Group) :
    (p.widenAt acc step).items = acc.items ++ (searchExpression ⟨step.2, value, step.1.type⟩
      p.table.settings.search.globalMode
      (globalNames step.1.index acc.items.length)).predicate.toList := by
  have hcolumn := mem_columns_of_mem_searchedColumns (mem_searchSteps.mp hstep).1
  unfold widenAt
  rw [h.text]
  dsimp only
  rw [h.widens _ hcolumn, Group.pushSearched_eq_extend]
  rfl

/-- **The group of the search has the predicates of the fields that take the text**, but for the
names of their parameters. -/
theorem exists_item_iff {P : Predicate → Prop}
    (hP : ∀ a b : Predicate, a.PrintsLike b → P a → P b) :
    (∃ predicate ∈ p.globalSearch.items, P predicate) ↔
      ∃ step ∈ p.searchSteps, ∃ predicate, p.predicateOn value step = some predicate ∧
        P predicate := by
  have hitems := fun step (hstep : step ∈ p.searchSteps) => h.items_widenAt hstep
  rw [globalSearch_eq]
  generalize p.searchSteps = steps at hitems
  induction steps using List.reverseRecOn with
  | nil => simp [widened]
  | append_singleton before step ih =>
    have hstep : ∀ names names', (∃ predicate, (searchExpression ⟨step.2, value, step.1.type⟩
        p.table.settings.search.globalMode names).predicate = some predicate ∧ P predicate) →
          ∃ predicate, (searchExpression ⟨step.2, value, step.1.type⟩
            p.table.settings.search.globalMode names').predicate = some predicate ∧
              P predicate := by
      rintro names names' ⟨a, ha, hPa⟩
      obtain ⟨b, hb, hlike⟩ := SearchTerm.exists_printsLike names' ha
      exact ⟨b, hb, hP a b hlike hPa⟩
    rw [widened_concat, hitems step (by simp)]
    simp only [List.mem_append, or_and_right, exists_or, List.mem_singleton, exists_eq_left,
      Option.mem_toList, ih fun step h => hitems step (List.mem_append_left _ h)]
    exact or_congr_right ⟨hstep _ _, hstep _ _⟩

theorem accepts_iff : p.Accepts value ↔ p.globalSearch.items ≠ [] := by
  have hitem := h.exists_item_iff (P := fun _ => True) fun _ _ _ h => h
  simp only [and_true] at hitem
  rw [Accepts, ← hitem]
  exact ⟨fun ⟨_, hmem⟩ => List.ne_nil_of_mem hmem, List.exists_mem_of_ne_nil _⟩

theorem conjunction_globalSearch : p.globalSearch.conjunction = .or :=
  p.globalSearch_induction (P := fun g => g.conjunction = .or) rfl fun c hc _ _ acc _ _ _ hacc => by
    rw [h.widens c (mem_columns_of_mem_searchedColumns hc), Group.pushSearched_eq_extend]
    exact hacc

/-- **All predicates of the group print settled letters.** -/
theorem isSettled_globalSearch : p.globalSearch.IsSettled := by
  have hitems : ∀ predicate ∈ p.globalSearch.items, ∀ f, predicate.sql = .ok f →
      Settled f.letters :=
    p.globalSearch_induction (P := fun g => ∀ predicate ∈ g.items, ∀ f, predicate.sql = .ok f →
        Settled f.letters) (fun _ h => absurd h List.not_mem_nil)
      fun c hc t ht acc value mode column hacc => by
        rw [h.widens c (mem_columns_of_mem_searchedColumns hc), Group.pushSearched_eq_extend]
        intro predicate hpredicate f hf
        rcases List.mem_append.mp hpredicate with hbefore | hnew
        · exact hacc predicate hbefore f hf
        · exact (SearchTerm.gives_searchExpression (Option.mem_toList.mp hnew)).settled
            (h.slots.of_mem_searchSlot ht) hf
  exact fun predicate hone f hf => hitems predicate (hone ▸ List.mem_cons_self) f hf

end AsksFor

/-! ### The conditions of the page and of the filtered count -/

/-- The conditions of the page and of the filtered count, which are the same. -/
def conditions (p : Planned) : Except SqlFailure Fragment := (p.addSearch p.base).whereSql

theorem filters_addSearch_eq (q : Query) : (p.addSearch q).filters = q.filters ++
    (if p.globalSearch.items = [] then [] else [p.globalSearch]) ++
      if p.individualSearch.items = [] then [] else [p.individualSearch] := by
  rw [addSearch, Query.filters_filter_eq, Query.filters_filter_eq]

theorem whereSql_of_filters {q q' : Query} (hq : q.filters = p.base.filters)
    (hq' : q'.filters = (p.addSearch q).filters) : q'.whereSql = p.conditions := by
  have hfilters : q'.filters = (p.addSearch p.base).filters := by
    rw [hq', filters_addSearch_eq, filters_addSearch_eq, hq]
  simp only [conditions, Query.whereSql, hfilters]

/-- **The page has these conditions.** -/
theorem exists_conditions_of_page {c : Compiled} (h : p.page = .ok c) : ∃ q f,
    p.joined = .ok q ∧ (p.pageQuery q).sql = .ok f ∧ c.sql = f.text ∧ c.binds = f.binds ∧
      (p.pageQuery q).whereSql = p.conditions := by
  obtain ⟨q, f, hq, hf, rfl⟩ := page_eq_ok h
  obtain ⟨limit, offset, hpage⟩ := p.pageQuery_eq q
  have hbase : q.filters = p.base.filters := filters_joined hq
  exact ⟨q, f, hq, hf, rfl, rfl,
    whereSql_of_filters (q := { q with select := q.select ++ p.selectItems }) hbase (by rw [hpage])⟩

theorem exists_conditions_of_count {c : CompiledCount} (h : p.count true = .ok c) :
    ∃ root q f, p.joined = .ok q ∧ (p.countedQuery true root q).sql = .ok f ∧
      c.query.sql = f.text ∧ c.query.binds = f.binds ∧
      (p.countedQuery true root q).whereSql = p.conditions := by
  obtain ⟨root, q, f, hq, hf, hsql, hbinds, -⟩ := count_eq_ok h
  have hbase : q.filters = p.base.filters := filters_joined hq
  exact ⟨root, q, f, hq, hf, hsql, hbinds,
    whereSql_of_filters (q := p.countQuery root q) hbase rfl⟩

/-- The page and the filtered count admit a row: they print conditions that hold for it, or none. -/
def Admits (p : Planned) (v : List Token → Prop) : Prop :=
  ∃ f, p.conditions = .ok f ∧ ∀ w : Fragment, f = .plain " WHERE " :: w → w.IsMet v

theorem admits_iff {f : Fragment} (h : p.conditions = .ok f) {v : List Token → Prop} :
    p.Admits v ↔ (p.addSearch p.base).Admits v := by
  constructor
  · rintro ⟨f', hf', hmet⟩ w hw
    exact hmet w (Except.ok.inj (hf'.symm.trans hw))
  · exact fun hmet => ⟨f, h, fun w hw => hmet w (hw ▸ h)⟩

namespace AsksFor

variable {v : List Token → Prop} (h : p.AsksFor value)
include h

/-- **If no field takes the text, the conditions are those without a global search**: an empty group
is left out. -/
theorem conditions_of_not_accepts (hnone : ¬ p.Accepts value) :
    p.conditions = (p.withRequest { p.request with search := none }).conditions := by
  have hempty : p.globalSearch.items = [] := by
    rwa [h.accepts_iff, not_not] at hnone
  refine whereSql_of_filters (p := p.withRequest { p.request with search := none }) rfl ?_
  rw [filters_addSearch_eq, hempty, filters_addSearch_eq]
  rfl

theorem closed_searches : p.globalSearch.IsClosed ∧ p.individualSearch.IsClosed := by
  have hclosed : AreClosedSlots p.plan.search := h.slots.mono fun _ => Target.IsSettled.isClosed
  exact ⟨isClosed_globalSearch hclosed h.keeps, isClosed_individualSearch hclosed h.keeps⟩

/-- **The group of the search holds iff the predicate of some field does.** -/
theorem isMet_globalSearch_iff (haccepts : p.Accepts value) {f : Fragment}
    (hf : p.globalSearch.sql = .ok f) : p.globalSearch.IsMet v ↔ p.Finds value v := by
  rw [Finds, ← h.exists_item_iff fun _ _ hlike => hlike.isMet]
  exact Group.isMet_or h.closed_searches.1 h.conjunction_globalSearch (h.accepts_iff.mp haccepts) hf

/-- **If a field takes the text, a row is admitted only if the predicate of some field holds.** -/
theorem finds (haccepts : p.Accepts value) (hv : p.Admits v) : p.Finds value v := by
  have hne : p.globalSearch.items ≠ [] := h.accepts_iff.mp haccepts
  obtain ⟨hclosed, hclosed'⟩ := h.closed_searches
  obtain ⟨f, hf, -⟩ := id hv
  have hfilters : (p.addSearch p.base).filters = p.base.filters ++ p.globalSearch ::
      if p.individualSearch.items = [] then [] else [p.individualSearch] := by
    rw [filters_addSearch_eq, if_neg hne, List.append_assoc, List.singleton_append]
  have hbehind : ∀ g ∈ if p.individualSearch.items = [] then [] else [p.individualSearch],
      g.IsClosed ∧ g.HasNoBareOr := by
    intro g hg
    split_ifs at hg
    · cases hg
    · rw [List.mem_singleton.mp hg]
      exact ⟨hclosed', h.individual⟩
  have hmet := Query.isMet_of_admits hfilters h.base hclosed (fun _ => h.isSettled_globalSearch)
    hbehind hf ((admits_iff hf).mp hv)
  obtain ⟨g, hg, -⟩ := id hmet
  exact (h.isMet_globalSearch_iff haccepts hg).mp hmet

/-- **A row is admitted iff the conditions of the table, the predicate of some field and the
searches of the columns hold**, if none of them has an OR outside of its parentheses. -/
theorem admits_iff_finds (haccepts : p.Accepts value) (hglobal : p.globalSearch.HasNoBareOr)
    {f : Fragment} (hf : p.conditions = .ok f) : p.Admits v ↔
      (∀ g ∈ p.base.filters, g.IsMet v) ∧ p.Finds value v ∧
        (p.individualSearch.items ≠ [] → p.individualSearch.IsMet v) := by
  have hne : p.globalSearch.items ≠ [] := h.accepts_iff.mp haccepts
  obtain ⟨hclosed, hclosed'⟩ := h.closed_searches
  have hstands : p.globalSearch.Stands := ⟨hclosed, hglobal, h.isSettled_globalSearch⟩
  have hfilters := p.filters_addSearch_eq p.base
  rw [if_neg hne] at hfilters
  obtain ⟨g, hg⟩ : ∃ g, p.globalSearch.sql = .ok g :=
    Query.exists_sql_of_mem hf (hfilters ▸ by simp)
  rw [admits_iff hf, ← h.isMet_globalSearch_iff haccepts hg]
  by_cases hnone : p.individualSearch.items = []
  · rw [if_pos hnone, List.append_nil] at hfilters
    rw [Query.admits_iff hfilters h.base hclosed (fun _ => hglobal) hf]
    simp [hnone]
  · rw [if_neg hnone] at hfilters
    have hbefore : ∀ e ∈ p.base.filters ++ [p.globalSearch], e.Stands := fun e he =>
      (List.mem_append.mp he).elim (h.base e) fun hlast => List.mem_singleton.mp hlast ▸ hstands
    rw [Query.admits_iff hfilters hbefore hclosed' (fun _ => h.individual) hf]
    simp only [List.forall_mem_append, List.forall_mem_singleton, and_assoc, hnone, ne_eq,
      not_false_eq_true, forall_const]

end AsksFor

end Planned

end TableQuery
