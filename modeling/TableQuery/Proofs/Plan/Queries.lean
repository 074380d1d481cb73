import TableQuery.Plan.Compiled
import TableQuery.Proofs.Sql.Printing

/-! # What the three queries change

Each step from the base query to a compiled one changes one part of the query: joins are added, then
the selection, the conditions, the order and the window. Both searches go through the same steps,
each a column with a target that it is searched by (`Planned.globalSearch_eq`,
`Planned.individualSearch_eq`), so what every step keeps holds of them. A compiled query has the
parameters of its conditions, so those of the page and of the filtered count are those of the base
query followed by those of the two searches. -/

namespace TableQuery

open Outcome

/-! ### Joins -/

theorem Query.joinOn_eq_ok {q q' : Query} {kind : JoinKind} {table aliasName leftAlias leftColumn
    rightAlias rightColumn : String} :
    q.joinOn kind table aliasName leftAlias leftColumn rightAlias rightColumn = .ok q' ↔
      ∃ on, JoinCondition.columns leftAlias leftColumn rightAlias rightColumn = .ok on ∧
        q' = { q with joins := q.joins ++ [⟨kind, table, aliasName, [on]⟩] } := by
  simp only [joinOn, bind_eq_ok, Query.join, List.isEmpty_cons, Bool.false_eq_true, if_false,
    Except.ok.injEq, eq_comm (a := q')]

theorem Query.addPlanned_frame {q q' : Query} {j : PlannedJoin} (h : q.addPlanned j = .ok q') :
    ∃ joins, q' = { q with joins := joins } := by
  unfold addPlanned at h
  simp only at h
  split at h
  · obtain ⟨q₁, h₁, h₂⟩ := bind_eq_ok.mp h
    obtain ⟨on₁, -, rfl⟩ := joinOn_eq_ok.mp h₁
    obtain ⟨on₂, -, rfl⟩ := joinOn_eq_ok.mp h₂
    exact ⟨_, rfl⟩
  · obtain ⟨on, -, rfl⟩ := joinOn_eq_ok.mp h
    exact ⟨_, rfl⟩

/-- **Adding joins changes nothing but the joins.** -/
theorem Query.addJoins_frame {q q' : Query} {plan : JoinPlan} (h : q.addJoins plan = .ok q') :
    ∃ joins, q' = { q with joins := joins } := by
  refine foldlM_invariant (fun s : Query => ∃ joins, s = { q with joins := joins }) plan ?_
    ⟨q.joins, rfl⟩ h
  rintro j - s t ⟨joins, rfl⟩ ht
  obtain ⟨joins', rfl⟩ := addPlanned_frame ht
  exact ⟨joins', rfl⟩

theorem Planned.joined_frame {p : Planned} {q : Query} (h : p.joined = .ok q) :
    ∃ joins, q = { p.base with joins := joins } :=
  Query.addJoins_frame (mapError_eq_ok.mp h)

/-! ### Selection, conditions, order and window -/

theorem Query.filters_filter (q : Query) (g : Group) :
    ∃ groups, (q.filter g).filters = q.filters ++ groups ∧ ∀ g' ∈ groups, g' = g := by
  unfold Query.filter
  split_ifs
  · exact ⟨[], (List.append_nil _).symm, fun g' h => absurd h List.not_mem_nil⟩
  · exact ⟨[g], rfl, fun g' h => List.mem_singleton.mp h⟩

theorem Query.foldl_addSelect (items : List SelectItem) (q : Query) :
    items.foldl Query.addSelect q = { q with select := q.select ++ items } := by
  induction items generalizing q with
  | nil => simp
  | cons item items ih =>
    rw [List.foldl_cons, ih, addSelect]
    simp

namespace Planned

variable {p : Planned}

/-- What a term of the requested order comes to: the slot of its column in the direction of the
term, if the client lets the column be ordered. -/
def orderTerms (p : Planned) (o : OrderRequest) : List OrderTerm :=
  if p.request.columns[o.column]?.any RequestColumn.orderable then
    (p.plan.order[o.column]?.getD []).map fun target => ⟨target, o.direction⟩
  else []

/-- The terms that the request adds to an order. -/
def requestedOrder (p : Planned) : List OrderTerm := p.request.order.flatMap p.orderTerms

theorem addOrderTerm_eq (q : Query) (o : OrderRequest) :
    p.addOrderTerm q o = { q with orderBy := q.orderBy ++ p.orderTerms o } := by
  have hslot : ∀ slot : Slot,
      slot.foldl (fun q target => q.addOrderBy target o.direction) q =
        { q with orderBy := q.orderBy ++ slot.map fun target => ⟨target, o.direction⟩ } := by
    intro slot
    induction slot generalizing q with
    | nil => simp
    | cons target slot ih =>
      rw [List.foldl_cons, ih, Query.addOrderBy]
      simp
  unfold addOrderTerm orderTerms
  split_ifs
  · exact hslot _
  · simp

theorem addOrder_eq (q : Query) :
    p.addOrder q = { q with orderBy := q.orderBy ++ p.requestedOrder } := by
  unfold addOrder requestedOrder
  generalize p.request.order = order
  induction order generalizing q with
  | nil => simp
  | cons o order ih =>
    rw [List.foldl_cons, ih, addOrderTerm_eq]
    simp

theorem exists_slot_of_mem_requestedOrder {term : OrderTerm} (h : term ∈ p.requestedOrder) :
    ∃ slot ∈ p.plan.order, term.target ∈ slot := by
  obtain ⟨o, -, hterm⟩ := List.mem_flatMap.mp h
  unfold orderTerms at hterm
  split_ifs at hterm
  · obtain ⟨target, htarget, rfl⟩ := List.mem_map.mp hterm
    cases hget : p.plan.order[o.column]? with
    | none =>
      rw [hget] at htarget
      exact absurd htarget List.not_mem_nil
    | some slot =>
      rw [hget] at htarget
      exact ⟨slot, List.mem_of_getElem? hget, htarget⟩
  · exact absurd hterm List.not_mem_nil

theorem addSearch_frame (q : Query) : ∃ filters, p.addSearch q = { q with filters := filters } := by
  unfold addSearch Query.filter
  split_ifs <;> exact ⟨_, rfl⟩

theorem addWindow_frame (q : Query) :
    ∃ limit offset, p.addWindow q = { q with limit := limit, offset := offset } := by
  unfold addWindow
  split
  · split
    · next offset limit _ => exact ⟨some limit, some offset, rfl⟩
    · exact ⟨q.limit, q.offset, rfl⟩
  · exact ⟨q.limit, q.offset, rfl⟩

/-- The query of the page, from the base query with all joins. -/
def pageQuery (p : Planned) (q : Query) : Query :=
  p.addWindow (p.addOrder (p.addSearch (p.selectItems.foldl Query.addSelect q)))

/-- **The page query is the searched one** with a selection, an order and a window. -/
theorem pageQuery_eq (q : Query) : ∃ limit offset, p.pageQuery q =
    { p.addSearch { q with select := q.select ++ p.selectItems } with
      orderBy := q.orderBy ++ p.requestedOrder, limit := limit, offset := offset } := by
  obtain ⟨limit, offset, hw⟩ := p.addWindow_frame (p.addOrder (p.addSearch
    (p.selectItems.foldl Query.addSelect q)))
  obtain ⟨filters, hs⟩ := p.addSearch_frame { q with select := q.select ++ p.selectItems }
  refine ⟨limit, offset, ?_⟩
  rw [pageQuery, hw, addOrder_eq, Query.foldl_addSelect, hs]

/-! ### Searches -/

/-- The steps of a search: each column that takes part, with each target that it is searched by. -/
def searchSteps (p : Planned) : List (Column × Target) :=
  p.searchedColumns.flatMap fun c => (p.searchSlot c).map (c, ·)

theorem mem_searchSteps {c : Column} {t : Target} :
    (c, t) ∈ p.searchSteps ↔ c ∈ p.searchedColumns ∧ t ∈ p.searchSlot c := by
  simp [searchSteps]

/-- A step of the global search. Without a search text nothing is added. -/
def widenAt (p : Planned) (acc : Group) (step : Column × Target) : Group :=
  match p.request.globalSearch with
  | some value =>
    step.1.effectiveFilter.widen acc ⟨step.2, value, step.1.type⟩
      p.table.settings.search.globalMode step.1.index
  | none => acc

/-- A step of the searches of the columns. Without a search text for the column nothing is added. -/
def narrowAt (p : Planned) (acc : Group × Nat) (step : Column × Target) : Group × Nat :=
  match p.request.columnSearch step.1.index with
  | some value => step.1.effectiveFilter.narrow acc.1 ⟨step.2, value, step.1.type⟩ acc.2
  | none => acc

/-- The global search after some steps. -/
def widened (p : Planned) (steps : List (Column × Target)) : Group :=
  steps.foldl p.widenAt ⟨.or, []⟩

/-- The searches of the columns after some steps, with the counter. -/
def narrowed (p : Planned) (steps : List (Column × Target)) : Group × Nat :=
  steps.foldl p.narrowAt (⟨.and, []⟩, firstCounter)

theorem globalSearch_eq : p.globalSearch = p.widened p.searchSteps := by
  unfold globalSearch widened searchSteps
  cases hvalue : p.request.globalSearch with
  | none =>
    rw [List.foldl_fixed' fun step => by rw [widenAt, hvalue]]
  | some value =>
    simp only [List.foldl_flatMap, List.foldl_map, widenAt, hvalue]
    rfl

theorem individualSearch_eq : p.individualSearch =
    if p.table.settings.search.individual then (p.narrowed p.searchSteps).1 else ⟨.and, []⟩ := by
  have hcolumn : ∀ acc c, p.narrowBy acc c =
      ((p.searchSlot c).map (c, ·)).foldl p.narrowAt acc := by
    intro acc c
    rw [narrowBy, List.foldl_map]
    cases hvalue : p.request.columnSearch c.index with
    | none => rw [List.foldl_fixed' fun t => by rw [narrowAt, hvalue]]
    | some value => simp only [narrowAt, hvalue]
  simp only [individualSearch, narrowed, searchSteps, List.foldl_flatMap, ← hcolumn]

/-- **What every step keeps holds of the global search.** -/
theorem globalSearch_induction {P : Group → Prop} (hempty : P ⟨.or, []⟩)
    (hstep : ∀ c ∈ p.searchedColumns, ∀ t ∈ p.searchSlot c, ∀ (acc : Group) value mode column,
      P acc → P (c.effectiveFilter.widen acc ⟨t, value, c.type⟩ mode column)) :
    P p.globalSearch := by
  rw [globalSearch_eq]
  refine List.foldlRecOn _ _ hempty fun acc hacc step hmem => ?_
  obtain ⟨hc, ht⟩ := mem_searchSteps.mp hmem
  unfold widenAt
  split
  · exact hstep step.1 hc step.2 ht acc _ _ _ hacc
  · exact hacc

/-- **What every step keeps holds of the searches of the columns**, with the counter that they end
at. -/
theorem individualSearch_invariant {P : Group → Nat → Prop} (hempty : P ⟨.and, []⟩ firstCounter)
    (hstep : ∀ c ∈ p.searchedColumns, ∀ t ∈ p.searchSlot c, ∀ (acc : Group) value counter,
      P acc counter → P (c.effectiveFilter.narrow acc ⟨t, value, c.type⟩ counter).1
        (c.effectiveFilter.narrow acc ⟨t, value, c.type⟩ counter).2) :
    ∃ counter, P p.individualSearch counter := by
  rw [individualSearch_eq]
  split_ifs
  · refine ⟨_, List.foldlRecOn (motive := fun acc : Group × Nat => P acc.1 acc.2) _ _ hempty
      fun acc hacc step hmem => ?_⟩
    obtain ⟨hc, ht⟩ := mem_searchSteps.mp hmem
    unfold narrowAt
    split
    · exact hstep step.1 hc step.2 ht acc.1 _ _ hacc
    · exact hacc
  · exact ⟨_, hempty⟩

theorem individualSearch_induction {P : Group → Prop} (hempty : P ⟨.and, []⟩)
    (hstep : ∀ c ∈ p.searchedColumns, ∀ t ∈ p.searchSlot c, ∀ (acc : Group) value counter,
      P acc → P (c.effectiveFilter.narrow acc ⟨t, value, c.type⟩ counter).1) :
    P p.individualSearch :=
  (p.individualSearch_invariant (P := fun g _ => P g) hempty hstep).elim fun _ h => h

theorem mem_columns_of_mem_searchedColumns {c : Column} (h : c ∈ p.searchedColumns) :
    c ∈ p.table.registry.columns := List.mem_of_mem_filter h

/-! ### Parameters -/

theorem params_filter (q : Query) (g : Group) :
    (q.filter g).filters.flatMap Group.params = q.filters.flatMap Group.params ++ g.params := by
  unfold Query.filter
  split_ifs with h
  · have : g.items = [] := by simpa using h
    simp [Group.params, this, Predicate.itemParams]
  · simp

theorem params_addSearch (q : Query) : (p.addSearch q).filters.flatMap Group.params =
    q.filters.flatMap Group.params ++ p.globalSearch.params ++ p.individualSearch.params := by
  rw [addSearch, params_filter, params_filter]

theorem compile_eq_ok {q : Query} {cache : CacheOptions} {c : Compiled}
    (h : compile q cache = .ok c) : ∃ f, q.sql = .ok f ∧ c = ⟨f.text, f.binds, cache⟩ := by
  simp only [compile, bind_eq_ok, mapError_eq_ok, pure_eq_ok] at h
  exact h

theorem page_eq_ok {c : Compiled} (h : p.page = .ok c) : ∃ q f, p.joined = .ok q ∧
    (p.pageQuery q).sql = .ok f ∧ c = ⟨f.text, f.binds, ⟨p.cache.query, p.cache.result⟩⟩ := by
  simp only [page, guard_eq_ok, bind_eq_ok] at h
  obtain ⟨-, q, hq, h⟩ := h
  obtain ⟨f, hf, hc⟩ := compile_eq_ok h
  exact ⟨q, f, hq, hf, hc⟩

/-- The query of the count of all records, or of those that the searches keep, from the base query
with all joins. -/
def countedQuery (p : Planned) (filtered : Bool) (root : Entity) (q : Query) : Query :=
  if filtered then p.addSearch (p.countQuery root q) else p.countQuery root q

theorem count_eq_ok {filtered : Bool} {c : CompiledCount} (h : p.count filtered = .ok c) :
    ∃ root q f, p.joined = .ok q ∧ (p.countedQuery filtered root q).sql = .ok f ∧
      c.query.sql = f.text ∧ c.query.binds = f.binds ∧ p.table.registry.root = .ok root ∧
      c.strategy = strategyOf (p.countedQuery filtered root q) := by
  simp only [count, bind_eq_ok, mapError_eq_ok, pure_eq_ok] at h
  obtain ⟨root, hroot, q, hq, compiled, hc, rfl⟩ := h
  obtain ⟨f, hf, rfl⟩ := compile_eq_ok hc
  exact ⟨root, q, f, hq, hf, rfl, rfl, hroot, rfl⟩

/-- **The parameters of the page** are those of the base query and of the two searches, in order. -/
theorem binds_page {c : Compiled} (h : p.page = .ok c) : c.binds =
    p.base.filters.flatMap Group.params ++ p.globalSearch.params ++ p.individualSearch.params := by
  obtain ⟨q, f, hq, hf, rfl⟩ := page_eq_ok h
  obtain ⟨joins, rfl⟩ := joined_frame hq
  obtain ⟨limit, offset, hpage⟩ := p.pageQuery_eq { p.base with joins := joins }
  rw [Query.binds_of_sql hf, hpage, params_addSearch]

theorem binds_count {c : CompiledCount} (h : p.count true = .ok c) : c.query.binds =
    p.base.filters.flatMap Group.params ++ p.globalSearch.params ++ p.individualSearch.params := by
  obtain ⟨root, q, f, hq, hf, -, hbinds, -⟩ := count_eq_ok h
  obtain ⟨joins, rfl⟩ := joined_frame hq
  rw [hbinds, Query.binds_of_sql hf, countedQuery, if_pos rfl, params_addSearch]
  rfl

/-! ### Conditions and selection -/

theorem filters_addSearch (q : Query) : ∃ groups, (p.addSearch q).filters = q.filters ++ groups ∧
    ∀ g ∈ groups, g = p.globalSearch ∨ g = p.individualSearch := by
  obtain ⟨globals, hglobals, hglobal⟩ := q.filters_filter p.globalSearch
  obtain ⟨individuals, hindividuals, hindividual⟩ :=
    (q.filter p.globalSearch).filters_filter p.individualSearch
  refine ⟨globals ++ individuals, ?_, fun g hg => ?_⟩
  · rw [addSearch, hindividuals, hglobals, List.append_assoc]
  · rcases List.mem_append.mp hg with hg | hg
    · exact .inl (hglobal g hg)
    · exact .inr (hindividual g hg)

theorem filters_pageQuery (q : Query) :
    ∃ groups, (p.pageQuery q).filters = q.filters ++ groups ∧
      ∀ g ∈ groups, g = p.globalSearch ∨ g = p.individualSearch := by
  obtain ⟨limit, offset, hpage⟩ := p.pageQuery_eq q
  rw [hpage]
  exact p.filters_addSearch { q with select := q.select ++ p.selectItems }

theorem filters_countedQuery (filtered : Bool) (root : Entity) (q : Query) :
    ∃ groups, (p.countedQuery filtered root q).filters = q.filters ++ groups ∧
      ∀ g ∈ groups, g = p.globalSearch ∨ g = p.individualSearch := by
  unfold countedQuery
  split_ifs
  · exact p.filters_addSearch (p.countQuery root q)
  · exact ⟨[], (List.append_nil _).symm, fun g hg => absurd hg List.not_mem_nil⟩

theorem filters_joined {q : Query} (h : p.joined = .ok q) : q.filters = p.base.filters := by
  obtain ⟨joins, rfl⟩ := joined_frame h
  rfl

theorem select_pageQuery (q : Query) : (p.pageQuery q).select = q.select ++ p.selectItems := by
  obtain ⟨limit, offset, hpage⟩ := p.pageQuery_eq q
  obtain ⟨filters, hs⟩ := p.addSearch_frame { q with select := q.select ++ p.selectItems }
  rw [hpage, hs]

theorem countedQuery_frame (filtered : Bool) (root : Entity) (q : Query) :
    ∃ filters, p.countedQuery filtered root q =
      { q with
        select := [.countDistinct p.plan.rootAlias (root.columnFor p.plan.rootIdentifier)]
        filters := filters
        orderBy := [] } := by
  unfold countedQuery
  split_ifs
  · exact p.addSearch_frame (p.countQuery root q)
  · exact ⟨_, rfl⟩

end Planned

end TableQuery
