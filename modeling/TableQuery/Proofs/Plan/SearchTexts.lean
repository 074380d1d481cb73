import Mathlib.Data.List.Induction
import TableQuery.Proofs.Plan.Calls
import TableQuery.Proofs.Plan.Routes
import TableQuery.Proofs.Sql.Shapes

/-! # Search texts in the three queries

A client's search texts reach the queries as the values of parameters, and in no other way. Take two
requests that differ in their search texts only, and suppose that at every step of a search either
text adds predicates of the same shapes (`Planned.SearchesAlike`). Then both searches come to groups
of the same shapes, step by step (`Group.shape_eq_of_growAlike`). So the queries that are made from
them have the same shapes, and the same SQL with equally many parameters
(`Planned.sql_withRequest`).

Columns that take any text as one value search alike for all texts
(`Planned.searchesAlike_of_takesTexts`). -/

namespace TableQuery

open Outcome

/-! ### Groups that grow alike -/

namespace Group

/-- The group with more predicates at the end. -/
def extend (g : Group) (added : List Predicate) : Group := { g with items := g.items ++ added }

/-- A step adds predicates of the same shapes to two groups, or nothing to either. -/
def GrowAlike (before after before' after' : Group) : Prop :=
  ∃ added added', after = before.extend added ∧ after' = before'.extend added' ∧
    added.map Predicate.shape = added'.map Predicate.shape

theorem shape_extend (g : Group) (added : List Predicate) :
    (g.extend added).shape = g.shape.extend (added.map Predicate.shape) := by
  simp [shape, extend]

theorem GrowAlike.shape_eq {before after before' after' : Group}
    (h : GrowAlike before after before' after') (hbefore : before.shape = before'.shape) :
    after.shape = after'.shape := by
  obtain ⟨added, added', rfl, rfl, hadded⟩ := h
  rw [shape_extend, shape_extend, hbefore, hadded]

/-- **Groups that grow alike at every step end with the same shape.** -/
theorem shape_eq_of_growAlike {α : Type} {steps : List α} {g k : List α → Group}
    (hstart : (g []).shape = (k []).shape)
    (hstep : ∀ before step after, steps = before ++ step :: after →
      GrowAlike (g before) (g (before ++ [step])) (k before) (k (before ++ [step]))) :
    (g steps).shape = (k steps).shape := by
  have hprefix : ∀ before after, steps = before ++ after →
      (g before).shape = (k before).shape := by
    intro before
    induction before using List.reverseRecOn with
    | nil => exact fun _ _ => hstart
    | append_singleton before step ih =>
      intro after hsteps
      rw [List.append_assoc, List.singleton_append] at hsteps
      exact (hstep before step after hsteps).shape_eq (ih _ hsteps)
  exact hprefix steps [] (List.append_nil steps).symm

theorem pushSearched_eq_extend (g : Group) (s : Searched) :
    g.pushSearched s = g.extend s.predicate.toList := by
  unfold pushSearched
  cases s.predicate with
  | none => exact congrArg (Group.mk _) (List.append_nil _).symm
  | some p => rfl

theorem growAlike_pushSearched {s s' : Searched}
    (h : s.predicate.map Predicate.shape = s'.predicate.map Predicate.shape) (g g' : Group) :
    GrowAlike g (g.pushSearched s) g' (g'.pushSearched s') := by
  refine ⟨_, _, pushSearched_eq_extend g s, pushSearched_eq_extend g' s', ?_⟩
  rw [← Option.toList_map, ← Option.toList_map, h]

end Group

/-! ### What a request is beside its search texts -/

/-- The request without its search texts. -/
def Request.withoutSearch (r : Request) : Request :=
  { r with search := none, columns := r.columns.map fun c => { c with search := { } } }

theorem Request.any_orderable_withoutSearch (r : Request) (i : Nat) :
    r.withoutSearch.columns[i]?.any RequestColumn.orderable =
      r.columns[i]?.any RequestColumn.orderable := by
  rw [withoutSearch, List.getElem?_map, Option.any_map]

/-- What a client can read off a compiled query without its values: the text and the number of the
parameters. -/
def Compiled.form (c : Compiled) : String × Nat := (c.sql, c.binds.length)

namespace Planned

variable {p : Planned} {request : Request}

/-- **Two planned requests search alike**: at every step of a search, the texts of both add
predicates of the same shapes, or none. -/
structure SearchesAlike (p p' : Planned) : Prop where
  globalSearch : ∀ before step after, p.searchSteps = before ++ step :: after →
    Group.GrowAlike (p.widened before) (p.widened (before ++ [step]))
      (p'.widened before) (p'.widened (before ++ [step]))
  individualSearch : p.table.settings.search.individual = true →
    ∀ before step after, p.searchSteps = before ++ step :: after →
      Group.GrowAlike (p.narrowed before).1 (p.narrowed (before ++ [step])).1
        (p'.narrowed before).1 (p'.narrowed (before ++ [step])).1

theorem SearchesAlike.shape_globalSearch (h : p.SearchesAlike (p.withRequest request)) :
    p.globalSearch.shape = (p.withRequest request).globalSearch.shape := by
  rw [globalSearch_eq, globalSearch_eq]
  exact Group.shape_eq_of_growAlike rfl h.globalSearch

theorem SearchesAlike.shape_individualSearch (h : p.SearchesAlike (p.withRequest request)) :
    p.individualSearch.shape = (p.withRequest request).individualSearch.shape := by
  rw [individualSearch_eq, individualSearch_eq]
  show _ = (if p.table.settings.search.individual then _ else _ : Group).shape
  split_ifs with hindividual
  · exact Group.shape_eq_of_growAlike (g := fun steps => (p.narrowed steps).1)
      (k := fun steps => ((p.withRequest request).narrowed steps).1) rfl
      (h.individualSearch hindividual)
  · rfl

/-! ### The shapes of the queries -/

theorem shape_addSearch (q : Query) : (p.addSearch q).shape =
    (q.shape.filter p.globalSearch.shape).filter p.individualSearch.shape := by
  rw [addSearch, Query.shape_filter, Query.shape_filter]

theorem shape_addOrder (q : Query) : (p.addOrder q).shape = p.addOrder q.shape := by
  rw [addOrder_eq, addOrder_eq]
  rfl

theorem shape_addWindow (q : Query) : (p.addWindow q).shape = p.addWindow q.shape := by
  unfold addWindow
  split
  · split <;> rfl
  · rfl

theorem addWindow_withRequest (h : request.withoutSearch = p.request.withoutSearch) (q : Query) :
    (p.withRequest request).addWindow q = p.addWindow q := by
  have hwindow : request.window = p.request.window := by
    show request.withoutSearch.window = p.request.withoutSearch.window
    rw [h]
  unfold addWindow withRequest
  rw [hwindow]

theorem addOrder_withRequest (h : request.withoutSearch = p.request.withoutSearch) (q : Query) :
    (p.withRequest request).addOrder q = p.addOrder q := by
  have horder : request.order = p.request.order := by
    show request.withoutSearch.order = p.request.withoutSearch.order
    rw [h]
  have hterms : (p.withRequest request).orderTerms = p.orderTerms := by
    funext o
    have horderable := p.request.any_orderable_withoutSearch o.column
    rw [← h, Request.any_orderable_withoutSearch] at horderable
    unfold orderTerms withRequest
    rw [horderable]
  rw [addOrder_eq, addOrder_eq, requestedOrder, requestedOrder, hterms]
  show { q with orderBy := q.orderBy ++ request.order.flatMap p.orderTerms } = _
  rw [horder]

theorem shape_addSearch_withRequest (h : p.SearchesAlike (p.withRequest request)) (q : Query) :
    ((p.withRequest request).addSearch q).shape = (p.addSearch q).shape := by
  rw [shape_addSearch, shape_addSearch, h.shape_globalSearch, h.shape_individualSearch]

/-- **The page queries of two such requests have one shape.** -/
theorem shape_pageQuery_withRequest (hrequest : request.withoutSearch = p.request.withoutSearch)
    (h : p.SearchesAlike (p.withRequest request)) (q : Query) :
    ((p.withRequest request).pageQuery q).shape = (p.pageQuery q).shape := by
  have hitems : (p.withRequest request).selectItems = p.selectItems := rfl
  unfold pageQuery
  rw [shape_addWindow, shape_addWindow, shape_addOrder, shape_addOrder, hitems,
    shape_addSearch_withRequest h, addOrder_withRequest hrequest, addWindow_withRequest hrequest]

theorem shape_countedQuery_withRequest (h : p.SearchesAlike (p.withRequest request))
    (filtered : Bool) (root : Entity) (q : Query) :
    ((p.withRequest request).countedQuery filtered root q).shape =
      (p.countedQuery filtered root q).shape := by
  unfold countedQuery
  split_ifs
  · exact shape_addSearch_withRequest h (p.countQuery root q)
  · rfl

/-! ### The three queries -/

theorem form_compile {q q' : Query} (h : q.shape = q'.shape) (cache : CacheOptions) :
    Compiled.form <$> compile q cache = Compiled.form <$> compile q' cache := by
  have hform : ∀ q : Query, Compiled.form <$> compile q cache =
      ((fun f => (f.text, f.binds.length)) <$> q.sql).mapError .ofSql := by
    intro q
    unfold compile
    cases q.sql <;> rfl
  rw [hform, hform, Query.text_of_shape_eq h]

theorem form_page : Compiled.form <$> p.page =
    if !p.table.settings.hasPaging && 0 < p.table.settings.ajax.pipeline then
      .error (.config (.pipelineWithoutPaging p.table.name p.table.settings.ajax.pipeline))
    else p.joined >>= fun q =>
      Compiled.form <$> compile (p.pageQuery q) ⟨p.cache.query, p.cache.result⟩ := by
  simp only [page]
  split_ifs
  · rfl
  · rw [map_bind]
    rfl

theorem form_count (filtered : Bool) : (fun c => c.query.form) <$> p.count filtered =
    p.table.registry.root.mapError .schema >>= fun root => p.joined >>= fun q =>
      Compiled.form <$> compile (p.countedQuery filtered root q) ⟨p.cache.countQuery,
        if filtered then { p.cache.countResult with id := none } else p.cache.countResult⟩ := by
  simp only [count, map_bind, bind_pure_comp, Functor.map_map]
  rfl

/-- **Search texts travel only as parameters.** For two requests that differ in their search texts
only, and whose texts add predicates of the same shapes at every step of a search, the three queries
have the same SQL with equally many parameters, or fail alike. -/
theorem sql_withRequest (hrequest : request.withoutSearch = p.request.withoutSearch)
    (h : p.SearchesAlike (p.withRequest request)) :
    Compiled.form <$> (p.withRequest request).page = Compiled.form <$> p.page ∧
    ∀ filtered, (fun c => c.query.form) <$> (p.withRequest request).count filtered =
      (fun c => c.query.form) <$> p.count filtered := by
  have hpage : ∀ q cache, Compiled.form <$> compile ((p.withRequest request).pageQuery q) cache =
      Compiled.form <$> compile (p.pageQuery q) cache :=
    fun q => form_compile (shape_pageQuery_withRequest hrequest h q)
  have hcount : ∀ filtered root q cache,
      Compiled.form <$> compile ((p.withRequest request).countedQuery filtered root q) cache =
        Compiled.form <$> compile (p.countedQuery filtered root q) cache :=
    fun filtered root q => form_compile (shape_countedQuery_withRequest h filtered root q)
  refine ⟨?_, fun filtered => ?_⟩
  · simp only [form_page, hpage]
    rfl
  · simp only [form_count, hcount]
    rfl

end Planned

/-! ### Columns that take any text -/

/-- The modes that search for one value. -/
def SearchMode.isScalar : SearchMode → Bool
  | .among | .notAmong => false
  | _ => true

/-- The column is searched for any text as one value. -/
def Column.takesTexts (c : Column) : Bool :=
  c.type.all (fun t => !t.isFloating && !t.isIntegral) &&
    match c.effectiveFilter with
    | .text mode _ => mode.isScalar
    | _ => false

theorem Column.exists_of_takesTexts {c : Column} (h : c.takesTexts = true) :
    ∃ mode initial, c.effectiveFilter = .text mode initial ∧ mode.isScalar = true ∧
      ∀ s, typedValue? c.type s = some (.text s) := by
  obtain ⟨htype, hfilter⟩ := Bool.and_eq_true_iff.mp h
  have htyped : ∀ s, typedValue? c.type s = some (.text s) := by
    intro s
    cases ht : c.type with
    | none => rfl
    | some t =>
      rw [ht, Option.all_some, Bool.and_eq_true, Bool.not_eq_true', Bool.not_eq_true'] at htype
      simp [typedValue?, htype.1, htype.2]
  split at hfilter
  · next mode initial heq => exact ⟨mode, initial, heq, hfilter, htyped⟩
  · cases hfilter

/-- **Texts that are taken as they stand give predicates of one shape**, where there are texts. -/
theorem shape_elim_searchExpression {mode : SearchMode} (hmode : mode.isScalar = true)
    {type : Option FieldType} (htype : ∀ s, typedValue? type s = some (.text s))
    {value value' : Option String} (hvalue : value.isSome = value'.isSome) (target : Target)
    (names names' : Naming) :
    (value.elim .nothing fun value =>
        searchExpression ⟨target, value, type⟩ mode names).predicate.map Predicate.shape =
      (value'.elim .nothing fun value =>
        searchExpression ⟨target, value, type⟩ mode names').predicate.map Predicate.shape := by
  cases value with
  | none =>
    cases value' with
    | none => rfl
    | some value' => cases hvalue
  | some value =>
    cases value' with
    | none => cases hvalue
    | some value' =>
      cases mode with
      | among => cases hmode
      | notAmong => cases hmode
      | _ =>
        simp only [Option.elim_some, searchExpression, searchLike, searchCompare, htype,
          Option.map_some, Predicate.shape]

namespace Planned

variable {p : Planned} {request : Request}

theorem widened_concat (before : List (Column × Target)) (step : Column × Target) :
    p.widened (before ++ [step]) = p.widenAt (p.widened before) step := by
  rw [widened, List.foldl_append]
  rfl

theorem narrowed_concat (before : List (Column × Target)) (step : Column × Target) :
    p.narrowed (before ++ [step]) = p.narrowAt (p.narrowed before) step := by
  rw [narrowed, List.foldl_append]
  rfl

theorem widenAt_of_text {mode : SearchMode} {initial : Option String} {step : Column × Target}
    (h : step.1.effectiveFilter = .text mode initial) (acc : Group) : p.widenAt acc step =
      acc.pushSearched (p.request.globalSearch.elim .nothing fun value =>
        searchExpression ⟨step.2, value, step.1.type⟩ p.table.settings.search.globalMode
          (globalNames step.1.index acc.items.length)) := by
  unfold widenAt
  rw [h]
  cases p.request.globalSearch <;> rfl

theorem narrowAt_of_text {mode : SearchMode} {initial : Option String} {step : Column × Target}
    (h : step.1.effectiveFilter = .text mode initial) (acc : Group × Nat) :
    (p.narrowAt acc step).1 =
      acc.1.pushSearched ((p.request.columnSearch step.1.index).elim .nothing fun value =>
        searchExpression ⟨step.2, value, step.1.type⟩ mode (counterNames acc.2)) := by
  unfold narrowAt
  rw [h]
  cases p.request.columnSearch step.1.index <;> rfl

/-- **Where columns take any text, all texts search alike**, if the two requests fill the same
search boxes. -/
theorem searchesAlike_of_takesTexts (hcolumns : ∀ c ∈ p.searchedColumns, c.takesTexts = true)
    (hmode : p.table.settings.search.globalMode.isScalar = true)
    (hglobal : p.request.globalSearch.isSome = request.globalSearch.isSome)
    (hindividual : ∀ c ∈ p.searchedColumns,
      (p.request.columnSearch c.index).isSome = (request.columnSearch c.index).isSome) :
    p.SearchesAlike (p.withRequest request) := by
  have hstep : ∀ {before step after}, p.searchSteps = before ++ step :: after →
      step.1 ∈ p.searchedColumns := by
    intro before step after hsteps
    have hmem : step ∈ p.searchSteps := hsteps ▸ List.mem_append_right before List.mem_cons_self
    exact (mem_searchSteps.mp hmem).1
  refine ⟨fun before step after hsteps => ?_, fun _ before step after hsteps => ?_⟩
  · obtain ⟨mode, initial, hfilter, -, htype⟩ :=
      Column.exists_of_takesTexts (hcolumns _ (hstep hsteps))
    rw [widened_concat, widened_concat, widenAt_of_text hfilter, widenAt_of_text hfilter]
    exact Group.growAlike_pushSearched
      (shape_elim_searchExpression hmode htype hglobal _ _ _) _ _
  · obtain ⟨mode, initial, hfilter, hscalar, htype⟩ :=
      Column.exists_of_takesTexts (hcolumns _ (hstep hsteps))
    rw [narrowed_concat, narrowed_concat, narrowAt_of_text hfilter, narrowAt_of_text hfilter]
    exact Group.growAlike_pushSearched
      (shape_elim_searchExpression hscalar htype (hindividual _ (hstep hsteps)) _ _ _) _ _

/-- Posts with search boxes for the columns. -/
def blogWithBoxes : Table := { blogTable with settings := { search := ⟨true, .like, false⟩ } }

/-- A request for posts, searched by two texts. -/
def searchingTwice (anywhere commenter : String) : Request :=
  { start := some 20, length := some 10, search := some ⟨anywhere, false⟩
    columns := [{ orderable := true }, { search := ⟨commenter, false⟩ }]
    order := [⟨0, .desc⟩] }

/-- An attempt to break out of the SQL text changes the values of parameters only. -/
theorem sql_withRequest_blog : ∃ p c c',
    (Planner.create blogWithBoxes (searchingTwice "rust" "ann") >>= Planner.plan) = .ok p ∧
    p.page = .ok c ∧
    (p.withRequest (searchingTwice "' OR 1=1 --" "`?`")).page = .ok c' ∧
    c.binds.length = 3 ∧ c'.binds ≠ c.binds ∧ c'.sql = c.sql := by
  obtain ⟨p, hp, h⟩ := exists_ok
    (x := Planner.create blogWithBoxes (searchingTwice "rust" "ann") >>= Planner.plan)
    (p := fun p => p.searchedColumns.all Column.takesTexts &&
      (p.table.settings.search.globalMode.isScalar && p.page.toOption.any fun (c : Compiled) =>
        (p.withRequest (searchingTwice "' OR 1=1 --" "`?`")).page.toOption.any
          fun (c' : Compiled) => decide (c.binds.length = 3 ∧ c'.binds ≠ c.binds)))
    (by decide +kernel)
  rw [Bool.and_eq_true, Bool.and_eq_true, List.all_eq_true] at h
  obtain ⟨hcolumns, hmode, h⟩ := h
  obtain ⟨c, hc, h⟩ := exists_ok h
  obtain ⟨c', hc', h⟩ := exists_ok h
  obtain ⟨hlength, hne⟩ := of_decide_eq_true h
  have hrequest : p.request = searchingTwice "rust" "ann" := by
    obtain ⟨planner, hcreate, hplan⟩ := bind_eq_ok.mp hp
    obtain ⟨root, -, rfl⟩ := Planner.create_eq_ok.mp hcreate
    obtain ⟨plan, -, rfl⟩ := Planner.plan_eq_ok.mp hplan
    rfl
  have hcolumn : ∀ i, (p.request.columnSearch i).isSome =
      ((searchingTwice "' OR 1=1 --" "`?`").columnSearch i).isSome := by
    intro i
    rw [hrequest]
    rcases i with _ | _ | i <;> rfl
  have hforms := (sql_withRequest (p := p) (by rw [hrequest]; rfl)
    (searchesAlike_of_takesTexts hcolumns hmode (by rw [hrequest]; rfl)
      fun c _ => hcolumn c.index)).1
  rw [hc, hc'] at hforms
  exact ⟨p, c, c', hp, hc, hc', hlength, hne, congrArg Prod.fst (Except.ok.inj hforms)⟩

end Planned

end TableQuery
