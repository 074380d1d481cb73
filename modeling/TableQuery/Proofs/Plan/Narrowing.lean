import TableQuery.Proofs.Plan.ParamNames
import TableQuery.Proofs.Plan.Steps
import TableQuery.Proofs.Sql.Narrowing

/-! # Searches that narrow a table

The conditions of a table come first in the page and in both counts, and the two searches come
behind them. What a search compares is a column, a label or an expression of the author's, so the
predicates of a search are closed if the expressions are (`Planned.isClosed_globalSearch`,
`Planned.isClosed_individualSearch`). A search of several predicates stands in parentheses then, and
no search brings back what a condition of the table leaves out (`Planned.keeps_predicates`).

The predicate of a search of one stands without parentheses, and its expression is not put in
parentheses either. An OR in it is then an OR of the whole, and the rows of one of its sides are
found whatever the conditions of the table say (`Planned.not_keeps_tenancy`). -/

namespace TableQuery

open Outcome

/-! ### Filters -/

theorem isClosed_searchExpression {term : SearchTerm} {mode : SearchMode} {names : Naming}
    (hterm : term.target.IsClosed true) {p : Predicate}
    (h : (searchExpression term mode names).predicate = some p) : p.IsClosed true := by
  have hgives := SearchTerm.gives_searchExpression h
  generalize (searchExpression term mode names).used = used at hgives
  cases hgives with
  | isNull negated => exact hterm
  | compare op value => exact hterm
  | like negated value => exact hterm
  | among negated h => exact hterm

theorem Group.IsClosed.pushSearched {g : Group} (hg : g.IsClosed) {term : SearchTerm}
    (hterm : term.target.IsClosed true) (mode : SearchMode) (names : Naming) :
    (g.pushSearched (searchExpression term mode names)).IsClosed := by
  unfold Group.pushSearched
  split
  · next p hp => exact hg.push (isClosed_searchExpression hterm hp)
  · exact hg

/-- A strategy adds closed predicates for a closed target. -/
structure Strategy.KeepsClosed (s : Strategy) : Prop where
  widen : ∀ (acc : Group) (term : SearchTerm) mode column, acc.IsClosed →
    term.target.IsClosed true → (s.widen acc term mode column).IsClosed
  narrow : ∀ (acc : Group) (term : SearchTerm) counter, acc.IsClosed →
    term.target.IsClosed true → (s.narrow acc term counter).1.IsClosed

/-- The strategy of a filter, if it has one, adds closed predicates. -/
def Filter.KeepsClosed (f : Filter) : Prop := ∀ s, f = .custom s → s.KeepsClosed

theorem Filter.IsBuiltIn.keepsClosed {f : Filter} (h : f.IsBuiltIn) : f.KeepsClosed :=
  fun s hs => absurd hs (h s)

namespace Filter

variable {f : Filter} {acc : Group} {term : SearchTerm}

/-- **Every built-in filter adds closed predicates to the search of a column**, and so does a
strategy that says so. -/
theorem isClosed_narrow (hf : f.KeepsClosed) (hacc : acc.IsClosed)
    (hterm : term.target.IsClosed true) (counter : Nat) :
    (f.narrow acc term counter).1.IsClosed := by
  obtain ⟨strategy, rfl⟩ | h | ⟨term', mode, hasks, h⟩ | ⟨low, high, h⟩ :=
    f.narrow_cases acc term counter
  · exact (hf strategy rfl).narrow acc term counter hacc hterm
  · rw [h]
    exact hacc
  · rw [h]
    exact hacc.pushSearched (hasks.target_eq ▸ hterm) mode _
  · rw [h]
    exact hacc.push hterm

theorem isClosed_widen (hf : f.KeepsClosed) (hacc : acc.IsClosed)
    (hterm : term.target.IsClosed true) (mode : SearchMode) (column : Nat) :
    (f.widen acc term mode column).IsClosed := by
  cases f with
  | custom strategy => exact (hf strategy rfl).widen acc term mode column hacc hterm
  | _ => exact hacc.pushSearched hterm mode _

end Filter

/-! ### Columns -/

/-- What a column is searched by has a property: its expression with the placeholders filled in, or
for a virtual column what its override says. -/
structure Column.SearchedBy (P : Target → Prop) (c : Column) : Prop where
  expression : ∀ sql, c.source = .expression sql → c.searchable = true →
    P (.raw (Template.searched sql))
  override : ∀ entries, c.searchColumn = some entries → c.isVirtual = true →
    c.searchable = true → ∀ entry ∈ entries, P (Target.ofText (Text.trim entry))

section

variable {P : Target → Prop} (hcolumn : ∀ aliasName name, P (.column aliasName name))
  (hlabel : ∀ name, P (.label name))
include hcolumn

/-- **A column adds a slot of targets with the property**, which all columns of tables have. -/
theorem AllTargets.add {root : PlanRoot} {d d' : Draft} {c : Column} (hc : c.SearchedBy P)
    (hd : AllTargets P d.search) (h : d.add root c = .ok d') : AllTargets P d'.search := by
  obtain ⟨sql, data, hsource, -, rfl⟩ | ⟨path, w, identifier, -, -, -, -, rfl⟩ | rfl :=
    Draft.add_cases h
  · exact hd.concat_slotIf fun hable => hc.expression sql hsource hable
  · exact hd.concat_slotIf fun _ => hcolumn _ _
  · exact hd.concat_nil

include hlabel

theorem Plan.override_induction {p : Plan} {registry : Registry} {ordering : Bool} {entry : String}
    (h : P (Target.ofText (Text.trim entry))) : P (p.override registry ordering entry) := by
  simp only [Plan.override]
  split
  · cases hname : Target.ofText (Text.trim entry) with
    | column aliasName field => exact hcolumn _ _
    | label name => exact hlabel name
    | raw sql =>
      rw [hname] at h
      exact h
  · cases hexpression :
        (if ordering then expressionLabel? registry (Text.trim entry) else none) with
    | none => exact hcolumn _ _
    | some t =>
      cases ordering
      · cases hexpression
      · simp only [if_true, expressionLabel?] at hexpression
        split at hexpression
        · split_ifs at hexpression
          obtain ⟨data, -, rfl⟩ := Option.map_eq_some_iff.mp hexpression
          exact hlabel _
        · cases hexpression

theorem Plan.overrideSlot_induction {p : Plan} {registry : Registry} {c : Column}
    (hc : c.SearchedBy P) {slot : Slot} (hslot : ∀ t ∈ slot, P t) :
    ∀ t ∈ p.overrideSlot registry false c slot, P t := by
  simp only [Plan.overrideSlot, Bool.false_eq_true, if_false]
  split_ifs with hvirtual
  · obtain ⟨hvirtual, hable⟩ := Bool.and_eq_true_iff.mp hvirtual
    cases hentries : c.searchColumn with
    | none => exact hslot
    | some entries =>
      intro t ht
      obtain ⟨entry, hentry, rfl⟩ := List.mem_map.mp ht
      exact override_induction hcolumn hlabel
        (hc.override entries hentries hvirtual hable entry hentry)
  · exact hslot

/-- **All slots of a plan have targets with the property**, if what the columns name has it. -/
theorem Table.allTargets_search {t : Table} {rootAlias : String} {p : Plan}
    (h : t.plan rootAlias = .ok p) (hcolumns : ∀ c ∈ t.registry.columns, c.SearchedBy P) :
    AllTargets P p.search := by
  obtain ⟨root, d, -, -, hd, -, -, -, p₀, hp₀, -⟩ := Table.exists_draft h
  have hsearch : AllTargets P d.search :=
    foldlM_invariant (fun d : Draft => AllTargets P d.search) _
      (fun c hc _ _ hs h => AllTargets.add hcolumn (hcolumns c hc) hs h) (AllTargets.nil P) hd
  rw [hp₀]
  exact hsearch.zipWith fun c hc _ hslot =>
    Plan.overrideSlot_induction hcolumn hlabel (hcolumns c hc) hslot

end

/-- What a column is searched by is closed: its expression with the placeholders filled in, or for a
virtual column what its override says. -/
structure Column.IsClosed (c : Column) : Prop where
  expression : ∀ sql, c.source = .expression sql → c.searchable = true →
    Closed true (Text.letters (Template.searched sql))
  override : ∀ entries, c.searchColumn = some entries → c.isVirtual = true →
    c.searchable = true → ∀ entry ∈ entries, (Target.ofText (Text.trim entry)).IsClosed true

/-- All targets of some slots are closed. -/
def AreClosedSlots (slots : List Slot) : Prop := ∀ slot ∈ slots, ∀ t ∈ slot, t.IsClosed true

theorem Table.areClosedSlots_plan {t : Table} {rootAlias : String} {p : Plan}
    (h : t.plan rootAlias = .ok p) (hcolumns : ∀ c ∈ t.registry.columns, c.IsClosed) :
    AreClosedSlots p.search :=
  Table.allTargets_search (Target.isClosed_column true) (Target.isClosed_label true) h fun c hc =>
    ⟨fun sql hsource hable => Target.isClosed_raw ((hcolumns c hc).expression sql hsource hable),
      (hcolumns c hc).override⟩

/-! ### The two searches -/

namespace Planned

variable {p : Planned}

theorem isClosed_globalSearch (hslots : AreClosedSlots p.plan.search)
    (hfilters : ∀ c ∈ p.table.registry.columns, c.effectiveFilter.KeepsClosed) :
    p.globalSearch.IsClosed :=
  p.globalSearch_induction (Group.isClosed_empty .or) fun c hc _ ht _ _ _ _ hacc =>
    Filter.isClosed_widen (hfilters c (mem_columns_of_mem_searchedColumns hc)) hacc
      (AllTargets.of_mem_searchSlot hslots ht) _ _

theorem isClosed_individualSearch (hslots : AreClosedSlots p.plan.search)
    (hfilters : ∀ c ∈ p.table.registry.columns, c.effectiveFilter.KeepsClosed) :
    p.individualSearch.IsClosed :=
  p.individualSearch_induction (Group.isClosed_empty .and) fun c hc _ ht _ _ _ hacc =>
    Filter.isClosed_narrow (hfilters c (mem_columns_of_mem_searchedColumns hc)) hacc
      (AllTargets.of_mem_searchSlot hslots ht) _

end Planned

/-! ### The conditions of the queries -/

namespace Planned

variable {p : Planned}

/-- **No search brings back what a condition of the table leaves out**, in the page and in the
counts, if the conditions of the table and the expressions of its columns are closed and a search of
one predicate has no OR outside of parentheses. -/
theorem keeps_predicates {t : Table} {request : Request} {planner : Planner}
    (hcreate : Planner.create t request = .ok planner) (hplan : planner.plan = .ok p)
    (hconditions : ∀ sql ∈ t.predicates, Closed true (Text.letters sql))
    (hcolumns : ∀ c ∈ t.registry.columns, c.IsClosed)
    (hfilters : ∀ c ∈ t.registry.columns, c.effectiveFilter.KeepsClosed)
    (hglobal : p.globalSearch.HasNoBareOr) (hindividual : p.individualSearch.HasNoBareOr) :
    (∀ c, p.page = .ok c → ∃ q f, p.joined = .ok q ∧ (p.pageQuery q).sql = .ok f ∧
      c.sql = f.text ∧ (p.pageQuery q).Keeps t.predicates) ∧
    ∀ filtered c, p.count filtered = .ok c → ∃ root q f, p.joined = .ok q ∧
      (p.countedQuery filtered root q).sql = .ok f ∧ c.query.sql = f.text ∧
      (p.countedQuery filtered root q).Keeps t.predicates := by
  obtain ⟨root, -, hplan, htable, hpbase⟩ := Planned.exists_root hcreate hplan
  have hslots : AreClosedSlots p.plan.search := Table.areClosedSlots_plan hplan hcolumns
  rw [← htable] at hfilters
  have hsearches : ∀ g, g = p.globalSearch ∨ g = p.individualSearch →
      g.IsClosed ∧ g.HasNoBareOr := by
    rintro g (rfl | rfl)
    · exact ⟨isClosed_globalSearch hslots hfilters, hglobal⟩
    · exact ⟨isClosed_individualSearch hslots hfilters, hindividual⟩
  -- the conditions of the table come first in every query, and nothing but searches behind them
  have hkeeps : ∀ {q searched : Query} {f : Fragment}, p.joined = .ok q →
      (∃ groups, searched.filters = q.filters ++ groups ∧
        ∀ g ∈ groups, g = p.globalSearch ∨ g = p.individualSearch) →
      searched.sql = .ok f → searched.Keeps t.predicates := by
    rintro q searched f hq ⟨groups, hgroups, hmem⟩ hf
    rw [filters_joined hq, hpbase] at hgroups
    exact Query.keeps_of_filters hgroups hconditions (fun g hg => hsearches g (hmem g hg)) hf
  refine ⟨fun c hc => ?_, fun filtered c hc => ?_⟩
  · obtain ⟨q, f, hq, hf, rfl⟩ := page_eq_ok hc
    exact ⟨q, f, hq, hf, rfl, hkeeps hq (p.filters_pageQuery q) hf⟩
  · obtain ⟨root, q, f, hq, hf, hsql, -⟩ := count_eq_ok hc
    exact ⟨root, q, f, hq, hf, hsql, hkeeps hq (p.filters_countedQuery filtered root q) hf⟩

/-- Posts of one tenant, searched by expressions under some names. -/
def tenancy (expressions : List (String × String)) : Table :=
  { name := "posts"
    registry :=
      { schema := [("Post", { name := "Post", table := "posts", identifiers := ["id"] })]
        entity := "Post"
        columns := expressions.mapIdx fun index e =>
          { searchedColumn index e.2 .fallback with
            name := some e.1
            data := some ⟨[], e.1, none⟩ }
        names := [] }
    settings := { }
    predicates := ["post.tenant = 7"] }

/-- A request with a text in the global search. -/
def searching (value : String) : Request := { search := some { value := value } }

theorem closed_tenancy (expressions : List (String × String)) :
    ∀ sql ∈ (tenancy expressions).predicates, Closed true (Text.letters sql) := by
  intro sql hsql
  rw [List.mem_singleton.mp hsql]
  decide

theorem isClosed_tenancy {expressions : List (String × String)}
    (h : ∀ e ∈ expressions, Closed true (Text.letters (Template.searched e.2))) :
    ∀ c ∈ (tenancy expressions).registry.columns,
      c.IsClosed ∧ c.effectiveFilter.KeepsClosed := by
  intro c hc
  obtain ⟨index, hindex, rfl⟩ := List.mem_mapIdx.mp hc
  refine ⟨⟨?_, nofun⟩, nofun⟩
  rintro sql ⟨rfl⟩ -
  exact h _ (List.getElem_mem hindex)

/-- Two expressions, one of them with an OR. -/
def twoExpressions : Table :=
  tenancy [("status", "post.status = 1 OR post.title"), ("body", "post.body")]

/-- Two expressions are searched in parentheses, so an OR in one of them does no harm. -/
theorem keeps_predicates_tenancy : ∃ planner p c q f,
    Planner.create twoExpressions (searching "x") = .ok planner ∧ planner.plan = .ok p ∧
    p.page = .ok c ∧ p.joined = .ok q ∧ (p.pageQuery q).sql = .ok f ∧ c.sql = f.text ∧
    (p.pageQuery q).Keeps ["post.tenant = 7"] := by
  obtain ⟨planner, hcreate, h⟩ := exists_ok (x := Planner.create twoExpressions (searching "x"))
    (p := fun planner => planner.plan.toOption.any fun p => p.page.toOption.any fun _ =>
      p.globalSearch.items.length == 2 && p.individualSearch.items.length == 0)
    (by decide +kernel)
  obtain ⟨p, hplan, h⟩ := exists_ok h
  obtain ⟨c, hc, h⟩ := exists_ok h
  obtain ⟨hglobal, hindividual⟩ := Bool.and_eq_true_iff.mp h
  have hcolumns : ∀ c ∈ twoExpressions.registry.columns,
      c.IsClosed ∧ c.effectiveFilter.KeepsClosed := isClosed_tenancy (by decide +kernel)
  obtain ⟨hpage, -⟩ := keeps_predicates hcreate hplan (closed_tenancy _)
    (fun c hc => (hcolumns c hc).1) (fun c hc => (hcolumns c hc).2)
    (Group.hasNoBareOr_of_length (by rw [beq_iff_eq.mp hglobal]; decide))
    (Group.hasNoBareOr_of_length (by rw [beq_iff_eq.mp hindividual]; decide))
  obtain ⟨q, f, hq, hf, hsql, hkeeps⟩ := hpage c hc
  exact ⟨planner, p, c, q, f, hcreate, hplan, hc, hq, hf, hsql, hkeeps⟩

/-- One expression with an OR. -/
def oneExpression : Table := tenancy [("status", "post.status = 1 OR post.title")]

/-- The conditions of a search of that expression. -/
def oneSided : Fragment :=
  [.plain "(", .author "post.tenant = 7", .plain ")", .plain " AND ",
    .plain "post.status = 1 OR post.title LIKE ", .mark ⟨"g0_0", .text "%x%"⟩]

/-- A post of another tenant meets these conditions if its title does. -/
theorem not_keeps_oneSided {q : Query} (h : q.whereSql = .ok (.plain " WHERE " :: oneSided)) :
    ¬ q.Keeps ["post.tenant = 7"] := by
  intro hkeeps
  obtain ⟨w, hw, himplies⟩ := hkeeps "post.tenant = 7" List.mem_cons_self
  obtain rfl : oneSided = w := (List.cons.inj (Except.ok.inj (h.symm.trans hw))).2
  have htenant : alternatives ⟨0, 0⟩ (tokens (Text.letters "post.tenant = 7")) =
      [[tokens (Text.letters "post.tenant = 7")]] := by decide +kernel
  have htitle : [[.word "post.title".toList, .word "LIKE".toList, .mark ⟨"g0_0", .text "%x%"⟩]] ∈
      alternatives ⟨0, 0⟩ (tokens oneSided.letters) := by decide +kernel
  have hleaf : inner? (tokens (Text.letters "post.tenant = 7")) = none := by decide +kernel
  have hholds : Holds (· ≠ tokens (Text.letters "post.tenant = 7")) (tokens oneSided.letters) := by
    refine .intro htitle fun operand hoperand => ?_
    rw [List.mem_singleton.mp hoperand]
    exact .leaf rfl (by decide +kernel)
  obtain ⟨hmem, hall⟩ := himplies _ hholds
  rw [htenant, List.mem_singleton] at hmem
  subst hmem
  cases hall _ List.mem_cons_self with
  | leaf _ hother => exact hother rfl
  | parens hparens _ => cases hleaf.symm.trans hparens

/-- One expression is searched without parentheses, so an OR in it brings posts of other tenants
back. -/
theorem not_keeps_tenancy :
    (∀ sql ∈ oneExpression.predicates, Closed true (Text.letters sql)) ∧
    (∀ c ∈ oneExpression.registry.columns, c.IsClosed ∧ c.effectiveFilter.KeepsClosed) ∧
    ∃ planner p c k root q, Planner.create oneExpression (searching "x") = .ok planner ∧
      planner.plan = .ok p ∧ p.page = .ok c ∧ p.count true = .ok k ∧
      oneExpression.registry.root = .ok root ∧ p.joined = .ok q ∧
      ¬ (p.pageQuery q).Keeps ["post.tenant = 7"] ∧
      ¬ (p.countedQuery true root q).Keeps ["post.tenant = 7"] := by
  refine ⟨closed_tenancy _, isClosed_tenancy (by decide +kernel), ?_⟩
  obtain ⟨planner, hcreate, h⟩ := exists_ok (x := Planner.create oneExpression (searching "x"))
    (p := fun planner => planner.plan.toOption.any fun p => p.page.toOption.any fun _ =>
      (p.count true).toOption.any fun _ => oneExpression.registry.root.toOption.any fun root =>
        p.joined.toOption.any fun q =>
          (p.pageQuery q).whereSql.toOption.any (· == .plain " WHERE " :: oneSided) &&
          (p.countedQuery true root q).whereSql.toOption.any (· == .plain " WHERE " :: oneSided))
    (by decide +kernel)
  obtain ⟨p, hplan, h⟩ := exists_ok h
  obtain ⟨c, hc, h⟩ := exists_ok h
  obtain ⟨k, hk, h⟩ := exists_ok h
  obtain ⟨root, hroot, h⟩ := exists_ok h
  obtain ⟨q, hq, h⟩ := exists_ok h
  obtain ⟨hpage, hcount⟩ := Bool.and_eq_true_iff.mp h
  obtain ⟨w, hw, hpage⟩ := exists_ok hpage
  obtain ⟨w', hw', hcount⟩ := exists_ok hcount
  rw [beq_iff_eq.mp hpage] at hw
  rw [beq_iff_eq.mp hcount] at hw'
  exact ⟨planner, p, c, k, root, q, hcreate, hplan, hc, hk, hroot, hq, not_keeps_oneSided hw,
    not_keeps_oneSided hw'⟩

end Planned

end TableQuery
