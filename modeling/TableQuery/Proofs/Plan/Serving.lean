import TableQuery.Proofs.Plan.Naming
import TableQuery.Proofs.Plan.Queries
import TableQuery.Proofs.Plan.Routes

/-! # No request breaks a table

A request chooses what is searched for, how the rows are ordered and which of them are shown, but no
name. So if the names of a table are identifiers, all three queries compile for every request
(`Planned.serves`), except for the page of a table without pages that fetches pages ahead, which no
request can ask for.

A query prints iff its parts do (`Query.exists_sql`). The tables and their aliases are those of the
plan (`Query.exists_addJoins`), the searches add predicates that print whatever the search values
are (`Filter.prints_narrow`), and the order is made of the targets of the plan
(`Planned.prints_pageQuery`). -/

namespace TableQuery

open Outcome

/-! ### Joins -/

namespace Query

variable {q : Query}

theorem exists_joinOn (hq : ∀ j ∈ q.joins, j.Prints) (kind : JoinKind)
    {table aliasName leftAlias leftColumn rightColumn : String} (htable : isIdentifier table = true)
    (halias : isIdentifier aliasName = true) (hla : isIdentifier leftAlias = true)
    (hlc : isIdentifier leftColumn = true) (hrc : isIdentifier rightColumn = true) :
    ∃ q', q.joinOn kind table aliasName leftAlias leftColumn aliasName rightColumn = .ok q' ∧
      ∀ j ∈ q'.joins, j.Prints := by
  refine ⟨_, joinOn_eq_ok.mpr ⟨_, JoinCondition.columns_eq_ok hla hlc halias hrc, rfl⟩, ?_⟩
  intro j hj
  rcases List.mem_append.mp hj with hj | hj
  · exact hq j hj
  · rw [List.mem_singleton.mp hj]
    exact ⟨htable, halias, by simpa using JoinCondition.exists_sql hla hlc halias hrc⟩

/-- **A planned join can be added** if its names and the alias it starts from are identifiers. -/
theorem exists_addPlanned (hq : ∀ j ∈ q.joins, j.Prints) {j : PlannedJoin} (hj : j.WellNamed)
    (hparent : isIdentifier j.parent = true) :
    ∃ q', q.addPlanned j = .ok q' ∧ ∀ j ∈ q'.joins, j.Prints := by
  have hlocal := hj.association.localColumn
  have hforeign := hj.association.foreignColumn
  simp only [addPlanned]
  split
  · next link hlink =>
    have hnames := hj.association.link link hlink
    have hlinkAlias := PlannedJoin.isIdentifier_linkAlias hj.aliasName
    obtain ⟨q₁, h₁, hq₁⟩ := exists_joinOn hq j.kind hnames.table hlinkAlias hparent hlocal
      hnames.sourceColumn
    obtain ⟨q₂, h₂, hq₂⟩ := exists_joinOn hq₁ j.kind hj.table hj.aliasName hlinkAlias
      hnames.targetColumn hforeign
    exact ⟨q₂, bind_eq_ok.mpr ⟨q₁, h₁, h₂⟩, hq₂⟩
  · exact exists_joinOn hq j.kind hj.table hj.aliasName hparent hlocal hforeign

/-- **The joins of a plan can be added**, since each starts from a table that is known before it. -/
theorem exists_addJoins : ∀ {plan : JoinPlan} {known : List String} {q : Query},
    plan.StartsIn known → (∀ a ∈ known, isIdentifier a = true) → (∀ j ∈ plan, j.WellNamed) →
      (∀ j ∈ q.joins, j.Prints) → ∃ q', q.addJoins plan = .ok q' ∧ ∀ j ∈ q'.joins, j.Prints
  | [], _, q, _, _, _, hq => ⟨q, rfl, hq⟩
  | j :: plan, known, q, hstarts, hknown, hplan, hq => by
    obtain ⟨hj, hplan⟩ := List.forall_mem_cons.mp hplan
    obtain ⟨q₁, h₁, hq₁⟩ := exists_addPlanned hq hj (hknown _ hstarts.1)
    have hknown' : ∀ a ∈ known ++ [j.aliasName], isIdentifier a = true := by
      simpa [or_imp, forall_and] using ⟨hknown, hj.aliasName⟩
    obtain ⟨q', h, hq'⟩ := exists_addJoins hstarts.2 hknown' hplan hq₁
    exact ⟨q', by rw [addJoins, List.foldlM_cons]; exact bind_eq_ok.mpr ⟨q₁, h₁, h⟩, hq'⟩

end Query

/-! ### Searches -/

namespace Filter

variable {f : Filter} {acc : Group} {term : SearchTerm}

theorem prints_pushSearched (hacc : acc.Prints) (ht : term.target.Prints) (mode : SearchMode)
    (names : Naming) : (acc.pushSearched (searchExpression term mode names)).Prints := by
  unfold Group.pushSearched
  split
  · next p hp => exact hacc.push ((SearchTerm.gives_searchExpression hp).prints ht)
  · exact hacc

/-- **A built-in filter adds predicates that print**, whatever the search value is. -/
theorem prints_narrow (hf : f.IsBuiltIn) (hacc : acc.Prints) (ht : term.target.Prints)
    (counter : Nat) : (f.narrow acc term counter).1.Prints := by
  obtain ⟨strategy, h⟩ | h | ⟨term', mode, hasks, h⟩ | ⟨low, high, h⟩ :=
    f.narrow_cases acc term counter
  · exact absurd h (hf strategy)
  · rwa [h]
  · rw [h]
    exact prints_pushSearched hacc (hasks.target_eq ▸ ht) mode _
  · obtain ⟨s, hs⟩ := ht
    rw [h]
    exact hacc.push ⟨_, Predicate.between_eq_ok.mpr ⟨s, hs, rfl⟩⟩

theorem prints_widen (hf : f.IsBuiltIn) (hacc : acc.Prints) (ht : term.target.Prints)
    (mode : SearchMode) (column : Nat) : (f.widen acc term mode column).Prints := by
  cases f with
  | custom strategy => exact absurd rfl (hf strategy)
  | _ => exact prints_pushSearched hacc ht mode _

end Filter

namespace Planned

variable {p : Planned}

theorem prints_searches (hslots : AllTargets Target.Prints p.plan.search)
    (hfilters : ∀ c ∈ p.table.registry.columns, c.effectiveFilter.IsBuiltIn) :
    p.globalSearch.Prints ∧ p.individualSearch.Prints := by
  constructor
  · exact p.globalSearch_induction (fun p hp => absurd hp List.not_mem_nil)
      fun c hc t ht _ _ _ _ hacc =>
        Filter.prints_widen (hfilters c (mem_columns_of_mem_searchedColumns hc)) hacc
          (hslots.of_mem_searchSlot ht) _ _
  · exact p.individualSearch_induction (fun p hp => absurd hp List.not_mem_nil)
      fun c hc t ht _ _ _ hacc =>
        Filter.prints_narrow (hfilters c (mem_columns_of_mem_searchedColumns hc)) hacc
          (hslots.of_mem_searchSlot ht) _

/-! ### The queries -/

theorem prints_selectItems (hschema : p.schema.WellNamed) (hplan : p.plan.WellNamed) :
    ∀ item ∈ p.selectItems, item.Prints := by
  intro item hitem
  obtain ⟨entry, hentry, hitem⟩ := List.mem_flatMap.mp hitem
  have hnamed := hplan.selection entry hentry
  cases entry with
  | fields a names =>
    obtain ⟨field, hmem, rfl⟩ := List.mem_map.mp hitem
    have hfield := hnamed.2 field hmem
    exact SelectItem.prints_column hnamed.1 (Plan.isIdentifier_columnFor hschema a hfield)
      (isIdentifier_fieldLabel hnamed.1 hfield)
  | raw sql label =>
    rw [List.mem_singleton.mp hitem]
    exact SelectItem.prints_expression hnamed.1 hnamed.2

variable {q : Query}

theorem prints_filters (hq : q.Prints) (hglobal : p.globalSearch.Prints)
    (hindividual : p.individualSearch.Prints) {searched : Query}
    (h : ∃ groups, searched.filters = q.filters ++ groups ∧
      ∀ g ∈ groups, g = p.globalSearch ∨ g = p.individualSearch) :
    ∀ g ∈ searched.filters, g.Prints := by
  obtain ⟨groups, hgroups, hmem⟩ := h
  intro g hg
  rw [hgroups] at hg
  rcases List.mem_append.mp hg with hg | hg
  · exact hq.filters g hg
  · rcases hmem g hg with rfl | rfl
    · exact hglobal
    · exact hindividual

/-- **The query of the page prints** for every request, if what it is made of does. -/
theorem prints_pageQuery (hq : q.Prints) (hitems : ∀ item ∈ p.selectItems, item.Prints)
    (hglobal : p.globalSearch.Prints) (hindividual : p.individualSearch.Prints)
    (horder : AllTargets Target.Prints p.plan.order) : (p.pageQuery q).Prints := by
  have hfilters := prints_filters hq hglobal hindividual (p.filters_pageQuery q)
  obtain ⟨limit, offset, hpage⟩ := p.pageQuery_eq q
  obtain ⟨filters, hs⟩ := p.addSearch_frame { q with select := q.select ++ p.selectItems }
  rw [hpage, hs] at hfilters ⊢
  refine ⟨hq.table, hq.aliasName, fun item hitem => ?_, hq.joins, hfilters, hq.groupBy,
    fun term hterm => ?_⟩
  · exact (List.mem_append.mp hitem).elim (hq.select item) (hitems item)
  · rcases List.mem_append.mp hterm with hterm | hterm
    · exact hq.orderBy term hterm
    · obtain ⟨slot, hslot, hmem⟩ := exists_slot_of_mem_requestedOrder hterm
      exact horder slot hslot _ hmem

theorem prints_countedQuery (hq : q.Prints) (hglobal : p.globalSearch.Prints)
    (hindividual : p.individualSearch.Prints) (filtered : Bool) {root : Entity}
    (halias : isIdentifier p.plan.rootAlias = true)
    (hcolumn : isIdentifier (root.columnFor p.plan.rootIdentifier) = true) :
    (p.countedQuery filtered root q).Prints := by
  have hfilters := prints_filters hq hglobal hindividual (p.filters_countedQuery filtered root q)
  obtain ⟨filters, hcounted⟩ := p.countedQuery_frame filtered root q
  rw [hcounted] at hfilters ⊢
  refine ⟨hq.table, hq.aliasName, fun item hitem => ?_, hq.joins, hfilters, hq.groupBy,
    fun term hterm => absurd hterm List.not_mem_nil⟩
  rw [List.mem_singleton.mp hitem]
  exact SelectItem.prints_countDistinct halias hcolumn

theorem exists_compile (hq : q.Prints) (cache : CacheOptions) :
    ∃ c, compile q cache = .ok c := by
  obtain ⟨f, hf⟩ := Query.exists_sql.mpr hq
  exact ⟨_, bind_eq_ok.mpr ⟨f, mapError_eq_ok.mpr hf, rfl⟩⟩

theorem exists_joined (hbase : p.base.Prints) (hplan : p.plan.WellNamed)
    (hstarts : p.plan.joins.StartsIn [p.plan.rootAlias]) : ∃ q, p.joined = .ok q ∧ q.Prints := by
  obtain ⟨q, hq, hjoins⟩ :=
    Query.exists_addJoins hstarts (by simpa using hplan.rootAlias) hplan.joins hbase.joins
  have hjoined : p.joined = .ok q := mapError_eq_ok.mpr hq
  obtain ⟨joins, rfl⟩ := joined_frame hjoined
  exact ⟨_, hjoined, hbase.table, hbase.aliasName, hbase.select, hjoins, hbase.filters,
    hbase.groupBy, hbase.orderBy⟩

theorem prints_baseQuery {t : Table} {root : Entity} (htable : isIdentifier root.table = true)
    (halias : isIdentifier (safeAlias root.shortName) = true)
    (hgroupBy : ∀ target ∈ t.groupBy, target.Prints) : (t.baseQuery root).Prints := by
  unfold Table.baseQuery
  generalize safeAlias root.shortName = aliasName at halias ⊢
  refine ⟨htable, halias, fun item h => absurd h List.not_mem_nil,
    fun j h => absurd h List.not_mem_nil, fun g hg => ?_, hgroupBy,
    fun term h => absurd h List.not_mem_nil⟩
  obtain ⟨sql, -, rfl⟩ := List.mem_map.mp hg
  intro predicate hpredicate
  rw [List.mem_singleton.mp hpredicate]
  exact ⟨_, Predicate.raw_eq_ok.mpr rfl⟩

/-- **Every request of a table with such names can be planned**, and its base query prints. -/
theorem exists_planned {t : Table} (hbuilt : t.registry.Built) (hnames : t.WellNamed)
    (hgroupBy : ∀ target ∈ t.groupBy, target.Prints) (request : Request) :
    ∃ planner p, Planner.create t request = .ok planner ∧ planner.plan = .ok p ∧ p.table = t ∧
      p.plan.WellNamed ∧ p.plan.joins.StartsIn [p.plan.rootAlias] ∧ p.base.Prints := by
  obtain ⟨root, hroot, -⟩ := hbuilt.sound.resolved
  have hentity : root.WellNamed := hnames.schema.entity hroot
  have halias := isIdentifier_safeAlias (hnames.root root hroot)
  obtain ⟨plan, hplan, hnamed⟩ := Table.exists_plan hbuilt hnames halias
  obtain ⟨-, hsound⟩ := Table.sound_plan hplan
  obtain ⟨planner, p, hcreate, hplanned, htable, rfl, hbase⟩ :=
    exists_of_plan hroot hplan request
  refine ⟨planner, p, hcreate, hplanned, htable, hnamed, hsound.starts, ?_⟩
  rw [hbase]
  exact prints_baseQuery hentity.table halias hgroupBy

/-- **No request breaks a table** whose names are identifiers, whose filters are built in and whose
grouping is read from texts that are not blank. The request can be planned, both counts compile, and
the page does exactly unless pages are to be fetched ahead for a table without pages. -/
theorem serves {t : Table} (hbuilt : t.registry.Built) (hnames : t.WellNamed)
    (hfilters : ∀ c ∈ t.registry.columns, c.effectiveFilter.IsBuiltIn)
    (hgroupBy : ∀ target ∈ t.groupBy, ∃ text, Text.isBlankText text = false ∧
      target = Target.ofText text) (request : Request) :
    ∃ planner p, Planner.create t request = .ok planner ∧ planner.plan = .ok p ∧
      (∃ c, p.count false = .ok c) ∧ (∃ c, p.count true = .ok c) ∧
      ((∃ c, p.page = .ok c) ↔
        ¬ (t.settings.hasPaging = false ∧ 0 < t.settings.ajax.pipeline)) := by
  have hgrouping : ∀ target ∈ t.groupBy, target.Prints := by
    intro target htarget
    obtain ⟨text, hblank, htext⟩ := hgroupBy target htarget
    rw [htext]
    exact Target.prints_ofText hblank
  obtain ⟨planner, p, hcreate, hplan, rfl, hnamed, hstarts, hbase⟩ :=
    exists_planned hbuilt hnames hgrouping request
  obtain ⟨q, hq, hprints⟩ := exists_joined hbase hnamed hstarts
  obtain ⟨hglobal, hindividual⟩ := prints_searches hnamed.search hfilters
  obtain ⟨root, hroot, -⟩ := hbuilt.sound.resolved
  have hentity : root.WellNamed := hnames.schema.entity hroot
  have hcount : ∀ filtered, ∃ c, p.count filtered = .ok c := by
    intro filtered
    obtain ⟨c, hc⟩ := exists_compile (prints_countedQuery hprints hglobal hindividual filtered
      hnamed.rootAlias (hentity.columnFor hnamed.rootIdentifier)) _
    simp only [count, bind_eq_ok]
    exact ⟨_, root, mapError_eq_ok.mpr hroot, q, hq, c, hc, rfl⟩
  obtain ⟨c, hc⟩ := exists_compile (prints_pageQuery hprints
    (prints_selectItems hnames.schema hnamed) hglobal hindividual hnamed.order)
    ⟨p.cache.query, p.cache.result⟩
  refine ⟨planner, p, hcreate, hplan, hcount false, hcount true, ?_⟩
  have hcond : (!p.table.settings.hasPaging && decide (0 < p.table.settings.ajax.pipeline)) = true ↔
      p.table.settings.hasPaging = false ∧ 0 < p.table.settings.ajax.pipeline := by simp
  simp only [page, guard_eq_ok, bind_eq_ok, hcond, exists_and_left]
  exact and_iff_left ⟨c, q, hq, hc⟩

/-- Posts of the blog, grouped, for a request that searches them for two texts and orders them
twice, once by a column that there is not. -/
theorem serves_blog : ∃ planner p, Planner.create
      ((blogTable.withPredicate "post.id > 0").withGroupBy "post.id")
      { start := some 20, length := some 10, search := some ⟨"50%", false⟩
        columns := [{ orderable := true }, { search := ⟨"' OR 1=1", false⟩ }]
        order := [⟨0, .desc⟩, ⟨7, .asc⟩] } = .ok planner ∧
    planner.plan = .ok p ∧ (∃ c, p.count false = .ok c) ∧ (∃ c, p.count true = .ok c) ∧
    ∃ c, p.page = .ok c := by
  have hplain : ∀ c ∈ blogTable.registry.columns, c.isExpression = false ∧
      c.searchColumn = none ∧ c.orderColumn = none ∧ c.effectiveFilter.IsBuiltIn := by
    decide +kernel
  have hbuilt : blogTable.registry.Built := built_blogRegistry _
  have hgroupBy : ∀ target ∈ [Target.ofText "post.id"],
      ∃ text, Text.isBlankText text = false ∧ target = Target.ofText text := by
    simpa using ⟨"post.id", by decide +kernel, rfl⟩
  have hnames : blogTable.WellNamed := by
    refine ⟨by decide +kernel, fun root hroot => ?_, fun c hc sql hsource => ?_,
      fun c hc entries h => ?_⟩
    · have hname : blogTable.registry.root.toOption.all
          (fun root => isIdentifier root.shortName) = true := by decide +kernel
      simpa only [hroot, Except.toOption, Option.all_some] using hname
    · have hexpression := (hplain c hc).1
      rw [Column.isExpression, hsource] at hexpression
      cases hexpression
    · rw [(hplain c hc).2.1, (hplain c hc).2.2.1] at h
      rcases h with h | h <;> cases h
  obtain ⟨planner, p, hcreate, hplan, hall, hfiltered, hpage⟩ := serves
    (t := (blogTable.withPredicate "post.id > 0").withGroupBy "post.id") hbuilt
    ⟨hnames.schema, hnames.root, hnames.expressions, hnames.overrides⟩
    (fun c hc => (hplain c hc).2.2.2) hgroupBy _
  exact ⟨planner, p, hcreate, hplan, hall, hfiltered, hpage.mpr (by decide)⟩

end Planned

end TableQuery
