import TableQuery.Proofs.Column.Registered
import TableQuery.Proofs.Plan.GlobalSearch
import TableQuery.Proofs.Plan.Overrides

/-! # One more searchable column

Whether a column can be searched decides about what it is searched by, and about nothing else in a
plan: not about the joins, the selection or the order, and not about the other columns
(`Table.exists_searchSlots`). So a table with one more searchable column is planned as before
(`Planned.exists_marked`), and what was searched is searched by the same fields
(`Planned.Marked.mem_searchSteps`).

The global search asks for one of the fields that take its text, so one more field removes no row
(`Planned.Marked.admits`, `Planned.globalSearch_disjunction`). This is only so if a field took the
text before. If none did, the search was left out and all rows were found, and the first field that
takes the text removes those that it does not find (`Planned.admits_all_notes`). -/

namespace TableQuery

open Outcome

/-! ### Plans of columns that can be searched or not -/

/-- The column, where it can be searched. -/
def Column.asSearchable (c : Column) : Column := { c with searchable := true }

theorem Column.asSearchable_eq_self {c : Column} (h : c.searchable = true) :
    c.asSearchable = c := by
  rw [asSearchable, ← h]

/-- The column, whether or not it can be searched. -/
def Column.IsBut (c c' : Column) : Prop := ∃ able, c' = { c with searchable := able }

/-- What the columns are searched by, from what each of them is searched by if it can be. -/
def searchSlots (columns : List Column) (slots : List Slot) : List Slot :=
  List.zipWith (fun c slot => if c.searchable then slot else []) columns slots

/-- **Whether a column can be searched decides about its slot, and about nothing else in a draft.**
-/
theorem Draft.exists_searchSlot {root : PlanRoot} {d d' : Draft} {c : Column}
    (h : d.add root c = .ok d') : ∃ slot : Slot, ∀ able search,
      Draft.add root { d with search := search } { c with searchable := able } =
        .ok { d' with search := search ++ [if able then slot else []] } := by
  cases hsource : c.source with
  | expression sql =>
    cases hdata : c.data with
    | none => simp [Draft.add, hsource, hdata] at h
    | some data =>
      refine ⟨[.raw (Template.searched sql)], fun able search => ?_⟩
      simp only [Draft.add, hsource, hdata, Except.ok.injEq] at h ⊢
      subst h
      rfl
  | none =>
    refine ⟨[], fun able search => ?_⟩
    simp only [Draft.add, hsource, Except.ok.injEq] at h ⊢
    subst h
    simp [Draft.withSlots]
  | field path =>
    by_cases hselectable : c.kind.isSelectable = true
    · obtain ⟨w, identifier, hw, hidentifier, rfl⟩ := Draft.add_of_field hsource hselectable h
      refine ⟨[.column w.aliasName (w.entity.columnFor path.field)], fun able search => ?_⟩
      simp only [Draft.add, hselectable, if_true, mapError_eq_ok, Draft.addField, bind_eq_ok,
        pure_eq_ok]
      exact ⟨w, hw, identifier, hidentifier, rfl⟩
    · refine ⟨[], fun able search => ?_⟩
      simp only [Draft.add, hsource, hselectable, Bool.false_eq_true, if_false,
        Except.ok.injEq] at h ⊢
      subst h
      simp [Draft.withSlots]

theorem Draft.exists_searchSlots {root : PlanRoot} : ∀ {columns : List Column} {d d' : Draft},
    columns.foldlM (Draft.add root) d = .ok d' → ∃ slots : List Slot,
      ∀ columns' search, List.Forall₂ Column.IsBut columns columns' →
        columns'.foldlM (Draft.add root) { d with search := search } =
          .ok { d' with search := search ++ searchSlots columns' slots }
  | [], d, d', h => by
    rw [List.foldlM_nil, pure_eq_ok] at h
    subst h
    refine ⟨[], fun columns' search hcolumns => ?_⟩
    cases hcolumns
    simp [searchSlots, pure, Except.pure]
  | c :: columns, d, d', h => by
    rw [List.foldlM_cons, bind_eq_ok] at h
    obtain ⟨d₁, hadd, hrest⟩ := h
    obtain ⟨slot, hslot⟩ := exists_searchSlot hadd
    obtain ⟨slots, hslots⟩ := exists_searchSlots hrest
    refine ⟨slot :: slots, fun columns' search hcolumns => ?_⟩
    obtain ⟨_, others, ⟨able, rfl⟩, hothers, rfl⟩ := List.forall₂_cons_left_iff.mp hcolumns
    rw [List.foldlM_cons, hslot, bind_eq_ok]
    refine ⟨_, rfl, ?_⟩
    rw [hslots others _ hothers, searchSlots, searchSlots, List.zipWith_cons_cons,
      List.append_assoc, List.singleton_append]

theorem Column.IsBut.refl (c : Column) : c.IsBut c := ⟨c.searchable, rfl⟩

theorem forall₂_isBut_refl (columns : List Column) : List.Forall₂ Column.IsBut columns columns :=
  List.forall₂_same.mpr fun c _ => .refl c

/-- The table with other columns. -/
def Table.withColumns (t : Table) (columns : List Column) : Table :=
  { t with registry := { t.registry with columns := columns } }

theorem zipWith_overrideSlot {p : Plan} {registry registry' : Registry}
    (hschema : registry'.schema = registry.schema) {columns columns' : List Column}
    (hcolumns : List.Forall₂ Column.IsBut columns columns') : ∀ slots : List Slot,
      List.zipWith (p.overrideSlot registry' false) columns' (searchSlots columns' slots) =
        searchSlots columns' (List.zipWith
          (fun c => p.overrideSlot registry false c.asSearchable) columns slots) := by
  have hentry : p.override registry' false = p.override registry false := by
    funext entry
    simp only [Plan.override, Plan.qualify, hschema, Bool.false_eq_true, if_false]
  induction hcolumns with
  | nil => exact fun slots => rfl
  | @cons c c' columns columns' hc hcolumns ih =>
    intro slots
    cases slots with
    | nil => rfl
    | cons slot slots =>
      have hrest := ih slots
      unfold searchSlots at hrest ⊢
      rw [List.zipWith_cons_cons, List.zipWith_cons_cons, List.zipWith_cons_cons,
        List.zipWith_cons_cons, hrest]
      congr 1
      obtain ⟨able, rfl⟩ := hc
      cases able
      · simp [Plan.overrideSlot]
      · simp only [Plan.overrideSlot, hentry]
        rfl

/-- **Whether its columns can be searched decides about the slots of a plan, and about nothing that
its conditions or joins need.** -/
theorem Table.exists_searchSlots {t : Table} {rootAlias : String} {p : Plan}
    (h : t.plan rootAlias = .ok p) : ∃ slots : List Slot,
      ∀ columns', List.Forall₂ Column.IsBut t.registry.columns columns' →
        ∃ p', (t.withColumns columns').plan rootAlias = .ok p' ∧ p'.joins = p.joins ∧
          p'.search = searchSlots columns' slots := by
  obtain ⟨root, identifier, d, hroot, hidentifier, hd, p₀, hp₀, rfl⟩ := plan_eq_ok.mp h
  obtain ⟨slots, hslots⟩ := Draft.exists_searchSlots hd
  refine ⟨List.zipWith (fun c => p₀.overrideSlot t.registry false c.asSearchable)
    t.registry.columns slots, fun columns' hcolumns => ?_⟩
  have hd' := hslots columns' [] hcolumns
  rw [List.nil_append] at hd'
  obtain ⟨p₁, hp₁⟩ : ∃ p₁ : Plan, p₁ = ⟨rootAlias, root.name, root.table, identifier, d.joins,
    d.selection, searchSlots columns' slots, d.order⟩ := ⟨_, rfl⟩
  have hfilled : p₁.overrideSlot (t.withColumns columns').registry false =
      p₀.overrideSlot (t.withColumns columns').registry false :=
    Plan.overrideSlot_congr (by rw [hp₀, hp₁]) (by rw [hp₀, hp₁]) (by rw [hp₀, hp₁]) _ false
  refine ⟨_, plan_eq_ok.mpr ⟨root, identifier, _, hroot, hidentifier, hd', p₁, hp₁, rfl⟩,
    by rw [hp₀, hp₁], ?_⟩
  show List.zipWith (p₁.overrideSlot (t.withColumns columns').registry false) columns'
    (searchSlots columns' slots) = _
  have hschema : (t.withColumns columns').registry.schema = t.registry.schema := rfl
  rw [hfilled, zipWith_overrideSlot hschema hcolumns slots]

/-! ### One more searchable column -/

/-- The table, where the column at a position can be searched. -/
def Table.withSearchable (t : Table) (i : Nat) : Table :=
  t.withColumns (t.registry.columns.modify i Column.asSearchable)

theorem forall₂_modify {α : Type} {R : α → α → Prop} {xs : List α} {i : Nat} {f : α → α}
    (h : ∀ j x, xs[j]? = some x → R x (if i = j then f x else x)) :
    List.Forall₂ R xs (xs.modify i f) := by
  refine List.forall₂_iff_get.mpr ⟨(List.length_modify ..).symm, fun j hj hj' => ?_⟩
  rw [List.get_eq_getElem, List.get_eq_getElem, List.getElem_modify]
  exact h j _ (List.getElem?_eq_getElem hj)

theorem foldl_eq_of_forall₂ {α β : Type} {f g : β → α → β} {xs ys : List α}
    (h : List.Forall₂ (fun x y => ∀ b, f b x = g b y) xs ys) (b : β) :
    xs.foldl f b = ys.foldl g b := by
  induction h generalizing b with
  | nil => rfl
  | cons hxy _ ih => rw [List.foldl_cons, List.foldl_cons, hxy, ih]

/-- What holds of the columns, and of the marked one where it can be searched, holds of the columns
of the table with one more searchable column. -/
theorem Table.forall_withSearchable {t : Table} {i : Nat} {P : Column → Prop}
    (h : ∀ c ∈ t.registry.columns, P c)
    (hi : ∀ c, t.registry.columns[i]? = some c → P c.asSearchable) :
    ∀ c ∈ (t.withSearchable i).registry.columns, P c := by
  intro c' hc'
  have hall : List.Forall₂ (fun _ c : Column => P c) t.registry.columns
      (t.registry.columns.modify i Column.asSearchable) := by
    refine forall₂_modify fun j c hc => ?_
    split_ifs with hj
    · exact hi c (hj ▸ hc)
    · exact h c (List.mem_of_getElem? hc)
  obtain ⟨-, -, hc'⟩ := exists_of_mem_right hall hc'
  exact hc'

namespace Planned

/-- The second of two planned requests is the first one, where the column at a position can be
searched. -/
structure Marked (p p' : Planned) (i : Nat) : Prop where
  request : p'.request = p.request
  settings : p'.table.settings = p.table.settings
  columns : p'.table.registry.columns =
    p.table.registry.columns.modify i Column.asSearchable
  base : p'.base = p.base
  joins : p'.plan.joins = p.plan.joins
  search : ∃ slots, p.plan.search = searchSlots p.table.registry.columns slots ∧
    p'.plan.search = searchSlots p'.table.registry.columns slots

/-- **A table that is planned is planned with one more searchable column.** -/
theorem exists_marked {t : Table} {request : Request} {planner : Planner} {p : Planned}
    (hcreate : Planner.create t request = .ok planner) (hplan : planner.plan = .ok p) (i : Nat) :
    ∃ planner' p', Planner.create (t.withSearchable i) request = .ok planner' ∧
      planner'.plan = .ok p' ∧ p.Marked p' i := by
  obtain ⟨root, hroot, rfl⟩ := Planner.create_eq_ok.mp hcreate
  obtain ⟨plan, htable, rfl⟩ := Planner.plan_eq_ok.mp hplan
  dsimp only at htable
  obtain ⟨slots, hslots⟩ := Table.exists_searchSlots htable
  obtain ⟨own, hown, -, hsearch⟩ := hslots t.registry.columns (forall₂_isBut_refl _)
  obtain rfl : own = plan := Except.ok.inj (hown.symm.trans htable)
  obtain ⟨plan', hplan', hjoins, hsearch'⟩ := hslots
    (t.registry.columns.modify i Column.asSearchable)
    (forall₂_modify fun j c _ => by split_ifs; exacts [⟨true, rfl⟩, .refl c])
  have hbase : (t.withSearchable i).baseQuery root = t.baseQuery root := rfl
  refine ⟨⟨t.withSearchable i, request, (t.withSearchable i).baseQuery root,
      safeAlias root.shortName⟩,
    ⟨t.withSearchable i, request, (t.withSearchable i).baseQuery root,
      (t.withSearchable i).settings.cache, plan'⟩,
    Planner.create_eq_ok.mpr ⟨root, hroot, rfl⟩, ?_,
    ⟨rfl, rfl, rfl, hbase, hjoins, slots, hsearch, hsearch'⟩⟩
  simp only [Planner.plan_eq_ok]
  exact ⟨plan', hplan', rfl⟩

namespace Marked

variable {p p' : Planned} {i : Nat} (h : p.Marked p' i)
include h

theorem joined : p'.joined = p.joined := by
  rw [Planned.joined, Planned.joined, h.base, h.joins]

theorem getElem?_columns {j : Nat} {c : Column} (hc : p.table.registry.columns[j]? = some c)
    (hable : c.searchable = true) : p'.table.registry.columns[j]? = some c := by
  rw [h.columns, List.getElem?_modify, hc, Option.map_eq_map, Option.map_some,
    Column.asSearchable_eq_self hable, ite_self]

theorem predicateOn : p'.predicateOn = p.predicateOn := by
  funext value step
  rw [Planned.predicateOn, Planned.predicateOn, h.settings]

section

variable (hpositions : ∀ j (c : Column), p.table.registry.columns[j]? = some c → c.index = j)
include hpositions

theorem searchSlot {c : Column} (hc : c ∈ p.table.registry.columns)
    (hable : c.searchable = true) : p'.searchSlot c = p.searchSlot c := by
  obtain ⟨j, hj⟩ := List.getElem?_of_mem hc
  obtain ⟨slots, hsearch, hsearch'⟩ := h.search
  have hj' := h.getElem?_columns hj hable
  rw [Planned.searchSlot, Planned.searchSlot, hsearch, hsearch', searchSlots, searchSlots,
    hpositions j c hj, List.getElem?_zipWith, List.getElem?_zipWith, hj, hj']

theorem mem_searchSteps {step : Column × Target} (hstep : step ∈ p.searchSteps) :
    step ∈ p'.searchSteps := by
  obtain ⟨hc, ht⟩ := Planned.mem_searchSteps.mp hstep
  obtain ⟨hmem, hsearched⟩ := List.mem_filter.mp hc
  have hable : step.1.searchable = true := by
    simp only [Column.isSearchedIn, Bool.and_eq_true] at hsearched
    exact hsearched.1.2
  obtain ⟨j, hj⟩ := List.getElem?_of_mem hmem
  refine Planned.mem_searchSteps.mpr ⟨List.mem_filter.mpr
    ⟨List.mem_of_getElem? (h.getElem?_columns hj hable), ?_⟩, ?_⟩
  · rw [h.settings]
    exact hsearched
  · rw [h.searchSlot hpositions hmem hable]
    exact ht

/-- **The searches of the columns stay as they were**, if the client has no search text for the
column or the table does not heed it. -/
theorem individualSearch
    (hquiet : p.table.settings.search.individual = true → p.request.columnSearch i = none) :
    p'.individualSearch = p.individualSearch := by
  rw [Planned.individualSearch, Planned.individualSearch, h.settings]
  split_ifs with hindividual
  · refine congrArg Prod.fst (Eq.symm ?_)
    rw [Planned.searchedColumns, Planned.searchedColumns, List.foldl_filter, List.foldl_filter,
      h.columns, h.settings]
    refine foldl_eq_of_forall₂ (forall₂_modify fun j c hj acc => ?_) _
    have hc : c ∈ p.table.registry.columns := List.mem_of_getElem? hj
    have hindex : c.index = j := hpositions j c hj
    by_cases hable : c.searchable = true
    · rw [Column.asSearchable_eq_self hable, ite_self]
      split_ifs
      · rw [narrowBy, narrowBy, h.request, h.searchSlot hpositions hc hable]
      · rfl
    · have hnot : c.isSearchedIn p.table.settings.search.hiddenToo = false := by
        simp [Column.isSearchedIn, hable]
      rw [hnot, if_neg Bool.false_ne_true]
      split_ifs with hposition hsearched hsearched
      · -- the marked column has no search text
        have hnone : p'.request.columnSearch (c.asSearchable).index = none := by
          rw [h.request, show (c.asSearchable).index = i from hindex.trans hposition.symm]
          exact hquiet hindividual
        rw [narrowBy, hnone]
      · rfl
      · rw [hnot] at hsearched
        cases hsearched
      · rfl
  · rfl

theorem finds {value : String} {v : List Token → Prop} (hfinds : p.Finds value v) :
    p'.Finds value v := by
  obtain ⟨step, hstep, predicate, hpredicate, hmet⟩ := hfinds
  exact ⟨step, h.mem_searchSteps hpositions hstep, predicate, h.predicateOn ▸ hpredicate, hmet⟩

theorem accepts {value : String} (haccepts : p.Accepts value) : p'.Accepts value := by
  obtain ⟨step, hstep, predicate, hpredicate⟩ := haccepts
  exact ⟨step, h.mem_searchSteps hpositions hstep, predicate, h.predicateOn ▸ hpredicate⟩

/-- **What was admitted is admitted**, if a field took the text before. -/
theorem admits
    (hquiet : p.table.settings.search.individual = true → p.request.columnSearch i = none)
    {value : String} (hasks : p.AsksFor value) (hasks' : p'.AsksFor value)
    (haccepts : p.Accepts value) (hglobal : p.globalSearch.HasNoBareOr)
    (hglobal' : p'.globalSearch.HasNoBareOr) {f : Fragment} (hf : p'.conditions = .ok f)
    {v : List Token → Prop} (hv : p.Admits v) : p'.Admits v := by
  have haccepts' : p'.Accepts value := h.accepts hpositions haccepts
  obtain ⟨own, hown, -⟩ := id hv
  obtain ⟨hmet, hfinds, halone⟩ := (hasks.admits_iff_finds haccepts hglobal hown).mp hv
  refine (hasks'.admits_iff_finds haccepts' hglobal' hf).mpr
    ⟨?_, h.finds hpositions hfinds, ?_⟩
  · rwa [h.base]
  · rwa [h.individualSearch hpositions hquiet]

end

end Marked

/-- **The global search asks for one of the fields that take its text.** Take a planned request with
a global search text, for a table whose columns were registered. Let the conditions of the table
close their quotes and parentheses, let the expressions of the columns do so too and leave no
BETWEEN waiting, and let a search of the columns by one predicate have no OR outside of parentheses.

The page and the filtered count print the same conditions. If a field in the slot of a searchable
column takes the text, they admit a row only if the predicate of the text on such a field holds. If
none does, they are the conditions without a global search.

Marking one more column searchable keeps the joins, and every row that is admitted, if a field took
the text before and no search text of the column itself is heeded. -/
theorem globalSearch_disjunction {t : Table} {request : Request} {planner : Planner} {p : Planned}
    {value : String} (hbuilt : t.registry.Built) (hcreate : Planner.create t request = .ok planner)
    (hplan : planner.plan = .ok p) (hvalue : request.globalSearch = some value)
    (hconditions : ∀ sql ∈ t.predicates, Closed true (Text.letters sql))
    (hcolumns : ∀ c ∈ t.registry.columns, c.SearchedBy Target.IsSettled)
    (hwidens : ∀ c ∈ t.registry.columns, c.effectiveFilter.WidensByExpression)
    (hkeeps : ∀ c ∈ t.registry.columns, c.effectiveFilter.KeepsClosed)
    (hindividual : p.individualSearch.HasNoBareOr) :
    (∀ c, p.page = .ok c → ∃ q f, p.joined = .ok q ∧ (p.pageQuery q).sql = .ok f ∧
      c.sql = f.text ∧ c.binds = f.binds ∧ (p.pageQuery q).whereSql = p.conditions) ∧
    (∀ c, p.count true = .ok c → ∃ root q f, p.joined = .ok q ∧
      (p.countedQuery true root q).sql = .ok f ∧ c.query.sql = f.text ∧
      c.query.binds = f.binds ∧ (p.countedQuery true root q).whereSql = p.conditions) ∧
    (p.Accepts value → ∀ v, p.Admits v → p.Finds value v) ∧
    (¬ p.Accepts value →
      p.conditions = (p.withRequest { request with search := none }).conditions) ∧
    ∀ i c, t.registry.columns[i]? = some c → c.asSearchable.SearchedBy Target.IsSettled →
      (t.settings.search.individual = true → request.columnSearch i = none) →
      ∃ planner' p', Planner.create (t.withSearchable i) request = .ok planner' ∧
        planner'.plan = .ok p' ∧ p'.joined = p.joined ∧
        (p.Accepts value → p.globalSearch.HasNoBareOr → p'.globalSearch.HasNoBareOr →
          ∀ f, p'.conditions = .ok f → ∀ v, p.Admits v → p'.Admits v) := by
  have hsound : ∀ c ∈ t.registry.columns, c.SearchedBy Target.IsSettled ∧
      c.effectiveFilter.WidensByExpression ∧ c.effectiveFilter.KeepsClosed :=
    fun c hc => ⟨hcolumns c hc, hwidens c hc, hkeeps c hc⟩
  have hasks : p.AsksFor value := asksFor hcreate hplan hvalue hconditions hsound hindividual
  obtain ⟨root, -, -, rfl, -⟩ := exists_root hcreate hplan
  have hrequest : p.request = request := request_of_plan hcreate hplan
  subst hrequest
  refine ⟨fun _ => exists_conditions_of_page, fun _ => exists_conditions_of_count,
    fun haccepts v => hasks.finds haccepts, hasks.conditions_of_not_accepts,
    fun i c hc hsearched hquiet => ?_⟩
  obtain ⟨planner', p', hcreate', hplan', hmarked⟩ := exists_marked hcreate hplan i
  have hsound' := Table.forall_withSearchable hsound fun d hd => by
    obtain rfl : d = c := Option.some.inj (hd.symm.trans hc)
    exact ⟨hsearched, (hsound d (List.mem_of_getElem? hd)).2⟩
  have hindividual' : p'.individualSearch.HasNoBareOr := by
    rwa [hmarked.individualSearch hbuilt.sound.positions hquiet]
  have hasks' : p'.AsksFor value :=
    asksFor hcreate' hplan' hvalue hconditions hsound' hindividual'
  exact ⟨planner', p', hcreate', hplan', hmarked.joined, fun haccepts hglobal hglobal' f hf v hv =>
    hmarked.admits hbuilt.sound.positions hquiet hasks hasks' haccepts hglobal hglobal' hf hv⟩

/-! ### Notes with numbers -/

/-- Notes with numbers and a title. -/
def noteSchema : Schema := Schema.ofEntities
  [{ name := "Note", table := "notes", identifiers := ["id"]
     fields := [("id", ⟨none, .integer, false⟩), ("views", ⟨none, .integer, false⟩),
      ("likes", ⟨none, .integer, false⟩), ("title", ⟨none, .string, false⟩)] }]

/-- Notes that are searched by their numbers, and not by their titles. -/
def noteTable (predicates : List String) : Table where
  name := "notes"
  registry := .ofColumns noteSchema "Note" [("views", .column, .null), ("likes", .column, .null),
    ("title", .column, .object [("searchable", .bool false)])]
  settings := { }
  predicates := predicates

theorem columns_noteTable (predicates : List String) :
    ∀ c ∈ (noteTable predicates).registry.columns, (c.SearchedBy Target.IsSettled ∧
      c.asSearchable.SearchedBy Target.IsSettled) ∧ c.effectiveFilter.WidensByExpression ∧
        c.effectiveFilter.KeepsClosed := by
  have hplain : ∀ c ∈ (noteTable []).registry.columns, c.isExpression = false ∧
      c.isVirtual = false ∧ c.effectiveFilter.IsBuiltIn := by decide +kernel
  have hsearched : ∀ c : Column, c.isExpression = false → c.isVirtual = false →
      c.SearchedBy Target.IsSettled := fun c hexpression hvirtual =>
    ⟨fun sql hsql => by simp [Column.isExpression, hsql] at hexpression,
      fun _ _ htrue => absurd htrue (by simp [hvirtual])⟩
  intro c hc
  obtain ⟨hexpression, hvirtual, hbuiltin⟩ := hplain c hc
  exact ⟨⟨hsearched c hexpression hvirtual, hsearched c.asSearchable hexpression hvirtual⟩,
    hbuiltin.widensByExpression, hbuiltin.keepsClosed⟩

/-- Notes are found by a number, also if their titles can be searched. -/
theorem globalSearch_disjunction_notes : ∃ planner p planner' p',
    Planner.create (noteTable ["note.draft = 0"]) (searching "7") = .ok planner ∧
    planner.plan = .ok p ∧ p.Accepts "7" ∧ (∀ v, p.Admits v → p.Finds "7" v) ∧
    Planner.create ((noteTable ["note.draft = 0"]).withSearchable 2) (searching "7") =
      .ok planner' ∧ planner'.plan = .ok p' ∧ ∀ v, p.Admits v → p'.Admits v := by
  obtain ⟨planner, hcreate, h⟩ := exists_ok
    (x := Planner.create (noteTable ["note.draft = 0"]) (searching "7"))
    (p := fun planner => planner.plan.toOption.any fun p : Planned =>
      p.globalSearch.items.length == 2 && p.individualSearch.items.length == 0 &&
        decide (∃ step ∈ p.searchSteps, (p.predicateOn "7" step).isSome))
    (by decide +kernel)
  obtain ⟨planner', hcreate', h'⟩ := exists_ok
    (x := Planner.create ((noteTable ["note.draft = 0"]).withSearchable 2) (searching "7"))
    (p := fun planner => planner.plan.toOption.any fun p : Planned =>
      p.conditions.toOption.any fun _ => p.globalSearch.items.length == 3)
    (by decide +kernel)
  obtain ⟨p, hplan, h⟩ := exists_ok h
  obtain ⟨p', hplan', h'⟩ := exists_ok h'
  obtain ⟨f, hf, hglobal'⟩ := exists_ok h'
  simp only [Bool.and_eq_true, beq_iff_eq, decide_eq_true_eq] at h hglobal'
  obtain ⟨⟨hglobal, hindividual⟩, step, hstep, hsome⟩ := h
  obtain ⟨predicate, hpredicate⟩ := Option.isSome_iff_exists.mp hsome
  have haccepts : p.Accepts "7" := ⟨step, hstep, predicate, hpredicate⟩
  have hbuilt : (noteTable ["note.draft = 0"]).registry.Built := (Registry.built_ofColumns rfl _).1
  have hcolumns := columns_noteTable ["note.draft = 0"]
  obtain ⟨-, -, hfinds, -, hmarked⟩ := globalSearch_disjunction hbuilt hcreate hplan rfl
    (fun sql hsql => by rw [List.mem_singleton.mp hsql]; decide)
    (fun c hc => (hcolumns c hc).1.1) (fun c hc => (hcolumns c hc).2.1)
    (fun c hc => (hcolumns c hc).2.2)
    (Group.hasNoBareOr_of_length (by rw [hindividual]; decide))
  obtain ⟨title, htitle⟩ : ∃ c, (noteTable ["note.draft = 0"]).registry.columns[2]? = some c :=
    Option.isSome_iff_exists.mp (by decide +kernel)
  obtain ⟨again, again', hcreate'', hplan'', -, hadmits⟩ := hmarked 2 title htitle
    (hcolumns title (List.mem_of_getElem? htitle)).1.2 nofun
  obtain rfl : again = planner' := Except.ok.inj (hcreate''.symm.trans hcreate')
  obtain rfl : again' = p' := Except.ok.inj (hplan''.symm.trans hplan')
  exact ⟨planner, p, again, again', hcreate, hplan, haccepts, hfinds haccepts, hcreate', hplan',
    hadmits haccepts (Group.hasNoBareOr_of_length (by rw [hglobal]; decide))
      (Group.hasNoBareOr_of_length (by rw [hglobal']; decide)) f hf⟩

/-- The condition of the search for a word in the titles. -/
def wordInTitle : Fragment := [.plain "`note`.`title` LIKE ", .mark ⟨"g2_0", .text "%rust%"⟩]

theorem not_isMet_wordInTitle : ¬ wordInTitle.IsMet fun _ => False := by
  have hone : alternatives ⟨0, 0⟩ wordInTitle.reading = [[wordInTitle.reading]] := by
    decide +kernel
  have hleaf : inner? wordInTitle.reading = none := by decide +kernel
  rintro ⟨hmem, hall⟩
  rw [hone, List.mem_singleton] at hmem
  subst hmem
  cases hall _ List.mem_cons_self with
  | leaf _ hfalse => exact hfalse
  | parens hparens _ => cases hleaf.symm.trans hparens

/-- A word is no number, so the search for it is left out and all notes are found. If the titles can
be searched, notes without the word in their title are removed. -/
theorem admits_all_notes : ∃ planner p c planner' p',
    Planner.create (noteTable []) (searching "rust") = .ok planner ∧ planner.plan = .ok p ∧
    p.page = .ok c ∧ (∀ v, ¬ p.Finds "rust" v) ∧ (∀ v, p.Admits v) ∧
    c.sql = "SELECT `note`.`id` AS `note__id`, `note`.`views` AS `note__views`, " ++
      "`note`.`likes` AS `note__likes`, `note`.`title` AS `note__title` " ++
      "FROM `notes` AS `note`" ∧
    Planner.create ((noteTable []).withSearchable 2) (searching "rust") = .ok planner' ∧
    planner'.plan = .ok p' ∧ ∃ v, ¬ p'.Admits v := by
  obtain ⟨planner, hcreate, h⟩ := exists_ok
    (x := Planner.create (noteTable []) (searching "rust"))
    (p := fun planner => planner.plan.toOption.any fun p : Planned =>
      p.page.toOption.any fun c : Compiled =>
        p.conditions.toOption.any (· == []) &&
        decide (∀ step ∈ p.searchSteps, p.predicateOn "rust" step = none) &&
        c.sql == "SELECT `note`.`id` AS `note__id`, `note`.`views` AS `note__views`, " ++
          "`note`.`likes` AS `note__likes`, `note`.`title` AS `note__title` " ++
          "FROM `notes` AS `note`")
    (by decide +kernel)
  obtain ⟨planner', hcreate', h'⟩ := exists_ok
    (x := Planner.create ((noteTable []).withSearchable 2) (searching "rust"))
    (p := fun planner => planner.plan.toOption.any fun p : Planned =>
      p.conditions.toOption.any (· == .plain " WHERE " :: wordInTitle))
    (by decide +kernel)
  obtain ⟨p, hplan, h⟩ := exists_ok h
  obtain ⟨c, hc, h⟩ := exists_ok h
  obtain ⟨p', hplan', h'⟩ := exists_ok h'
  obtain ⟨f', hf', h'⟩ := exists_ok h'
  rw [Bool.and_eq_true, Bool.and_eq_true, decide_eq_true_eq, beq_iff_eq] at h
  obtain ⟨⟨hconditions, hnone⟩, hsql⟩ := h
  obtain ⟨f, hf, hempty⟩ := exists_ok hconditions
  refine ⟨planner, p, c, planner', p', hcreate, hplan, hc, fun v hfinds => ?_, fun v => ⟨f, hf, ?_⟩,
    hsql, hcreate', hplan', fun _ => False, fun hadmits => ?_⟩
  · obtain ⟨step, hstep, predicate, hpredicate, -⟩ := hfinds
    cases (hnone step hstep).symm.trans hpredicate
  · rw [beq_iff_eq.mp hempty]
    exact fun w hw => nomatch hw
  · obtain ⟨w, hw, hmet⟩ := hadmits
    obtain rfl : f' = w := Except.ok.inj (hf'.symm.trans hw)
    exact not_isMet_wordInTitle (hmet _ (beq_iff_eq.mp h'))

end Planned

end TableQuery
