import TableQuery.Proofs.Plan.Scope
import TableQuery.Proofs.Plan.Serving

/-! # What a client can search and order by

The author of a table says which columns can be searched and ordered by, and a client names columns
by their positions. The plan has a slot for each column, at the position of the column, and the slot
is empty if the column does not have the ability (`Table.guards_plan`): each column adds one slot to
the draft (`Draft.exists_slots`), and an override is filled in only where there is the ability.

So no request goes beyond what the table opens (`Planned.confined`). What a request is ordered by
are the slots of the columns that both the table and the client let be ordered
(`Planned.requestedOrder_eq_allowedOrder`), and what it is searched by are targets from the slots of
searchable columns, as the steps of both searches take their targets from there. -/

namespace TableQuery

open Outcome

/-! ### Slots and abilities -/

/-- There is a slot for each column, which is empty unless the column has the ability. -/
def Guards (able : Column → Bool) : List Column → List Slot → Prop :=
  List.Forall₂ fun c slot => slot ≠ [] → able c = true

theorem slotIf_ne_nil {able : Bool} {target : Target} (h : slotIf able target ≠ []) :
    able = true := by
  cases able
  · exact absurd rfl h
  · rfl

/-- **A column adds one slot of each sort**, and adds an empty one if it does not have the
ability. -/
theorem Draft.exists_slots {root : PlanRoot} {d d' : Draft} {c : Column}
    (h : d.add root c = .ok d') :
    (∃ slot, d'.search = d.search ++ [slot] ∧ (slot ≠ [] → c.searchable = true)) ∧
      ∃ slot, d'.order = d.order ++ [slot] ∧ (slot ≠ [] → c.orderable = true) := by
  obtain ⟨sql, data, -, -, rfl⟩ | ⟨path, w, identifier, -, -, -, -, rfl⟩ | rfl := Draft.add_cases h
  · exact ⟨⟨_, rfl, slotIf_ne_nil⟩, _, rfl, slotIf_ne_nil⟩
  · exact ⟨⟨_, rfl, slotIf_ne_nil⟩, _, rfl, slotIf_ne_nil⟩
  · exact ⟨⟨_, rfl, fun h => absurd rfl h⟩, _, rfl, fun h => absurd rfl h⟩

/-- Overrides do not open what is closed. -/
theorem Guards.override {able : Column → Bool} {columns : List Column} {slots : List Slot}
    (h : Guards able columns slots) {p : Plan} {registry : Registry} {ordering : Bool}
    (hable : ∀ c, able c = if ordering then c.orderable else c.searchable) :
    Guards able columns (List.zipWith (p.overrideSlot registry ordering) columns slots) := by
  unfold Guards at h ⊢
  induction h with
  | nil => exact .nil
  | @cons c slot columns slots hslot _ ih =>
    refine .cons (fun hne => ?_) ih
    by_cases hvirtual : (c.isVirtual && able c) = true
    · exact (Bool.and_eq_true_iff.mp hvirtual).2
    · simp only [Plan.overrideSlot, ← hable, if_neg hvirtual] at hne
      exact hslot hne

/-- **The slots of a plan stand beside the columns of the table**, and only those of columns with
the ability have anything in them. -/
theorem Table.guards_plan {t : Table} {rootAlias : String} {p : Plan}
    (h : t.plan rootAlias = .ok p) :
    Guards Column.searchable t.registry.columns p.search ∧
      Guards Column.orderable t.registry.columns p.order := by
  obtain ⟨root, d, -, -, hd, -, -, -, p₀, hsearch, horder⟩ := exists_draft h
  obtain ⟨searches, hsearches, hsearchable⟩ := foldlM_forall₂ hd fun _ _ _ hadd =>
    (Draft.exists_slots hadd).1
  obtain ⟨orders, horders, horderable⟩ := foldlM_forall₂ hd fun _ _ _ hadd =>
    (Draft.exists_slots hadd).2
  rw [List.nil_append] at hsearches horders
  rw [hsearch, horder, hsearches, horders]
  exact ⟨Guards.override hsearchable fun _ => rfl, Guards.override horderable fun _ => rfl⟩

/-! ### Predicates of a search -/

namespace Filter

variable {f : Filter} {acc : Group} {term : SearchTerm} {predicate : Predicate}

theorem mem_items_pushSearched {mode : SearchMode} {names : Naming}
    (h : predicate ∈ (acc.pushSearched (searchExpression term mode names)).items) :
    predicate ∈ acc.items ∨ predicate.targets = [term.target] := by
  unfold Group.pushSearched at h
  split at h
  · next added hadded =>
    refine (List.mem_append.mp h).imp_right fun hlast => ?_
    rw [List.mem_singleton.mp hlast]
    exact (SearchTerm.gives_searchExpression hadded).targets
  · exact .inl h

theorem mem_items_widen (hf : f.IsBuiltIn) {mode : SearchMode} {column : Nat}
    (h : predicate ∈ (f.widen acc term mode column).items) :
    predicate ∈ acc.items ∨ predicate.targets = [term.target] := by
  cases f with
  | custom strategy => exact absurd rfl (hf strategy)
  | _ => exact mem_items_pushSearched h

theorem mem_items_narrow (hf : f.IsBuiltIn) {counter : Nat}
    (h : predicate ∈ (f.narrow acc term counter).1.items) :
    predicate ∈ acc.items ∨ predicate.targets = [term.target] := by
  obtain ⟨strategy, heq⟩ | heq | ⟨term', mode, hasks, heq⟩ | ⟨low, high, heq⟩ :=
    f.narrow_cases acc term counter
  · exact absurd heq (hf strategy)
  · rw [heq] at h
    exact .inl h
  · rw [heq] at h
    rw [← hasks.target_eq]
    exact mem_items_pushSearched h
  · rw [heq] at h
    refine (List.mem_append.mp h).imp_right fun hlast => ?_
    rw [List.mem_singleton.mp hlast]
    rfl

end Filter

namespace Planned

variable {p : Planned}

/-! ### The order of the page -/

/-- Whether rows may be ordered by the column at a position: the table has to let the column be
ordered, and so has the client. -/
def mayOrderBy (p : Planned) (i : Nat) : Bool :=
  p.table.registry.columns[i]?.any Column.orderable &&
    p.request.columns[i]?.any RequestColumn.orderable

/-- What the request may order by: term by term the slot of its column, in its direction. -/
def allowedOrder (p : Planned) : List OrderTerm :=
  p.request.order.flatMap fun o =>
    if p.mayOrderBy o.column then
      (p.plan.order[o.column]?.getD []).map fun target => ⟨target, o.direction⟩
    else []

theorem slot_eq_nil (h : Guards Column.orderable p.table.registry.columns p.plan.order) {i : Nat}
    (hi : p.table.registry.columns[i]?.any Column.orderable = false) :
    p.plan.order[i]?.getD [] = [] := by
  cases hcolumn : p.table.registry.columns[i]? with
  | none =>
    have hlength := h.length_eq
    rw [List.getElem?_eq_none (hlength ▸ List.getElem?_eq_none_iff.mp hcolumn), Option.getD_none]
  | some c =>
    obtain ⟨slot, hslot, hable⟩ := exists_getElem?_of_forall₂ h hcolumn
    rw [hcolumn, Option.any_some] at hi
    rw [hslot, Option.getD_some]
    by_contra hne
    rw [hable hne] at hi
    cases hi

/-- **The request orders by what it may order by.** -/
theorem requestedOrder_eq_allowedOrder
    (h : Guards Column.orderable p.table.registry.columns p.plan.order) :
    p.requestedOrder = p.allowedOrder := by
  unfold requestedOrder allowedOrder
  congr 1
  funext o
  rw [orderTerms, mayOrderBy]
  cases hable : p.table.registry.columns[o.column]?.any Column.orderable with
  | true => rw [Bool.true_and]
  | false => rw [Bool.false_and, slot_eq_nil h hable, List.map_nil, ite_self, ite_self]

/-! ### What searches point at -/

/-- The target stands in the search slot of a column that the table lets be searched, and that is
visible unless the table searches hidden columns too. -/
def Opens (p : Planned) (t : Target) : Prop :=
  ∃ (i : Nat) (c : Column) (slot : Slot), p.table.registry.columns[i]? = some c ∧
    p.plan.search[i]? = some slot ∧ t ∈ slot ∧ c.searchable = true ∧
    (c.visible = true ∨ p.table.settings.search.hiddenToo = true)

theorem opens_of_mem_searchSlot (hbuilt : p.table.registry.Built) {c : Column} {t : Target}
    (hc : c ∈ p.searchedColumns) (ht : t ∈ p.searchSlot c) : p.Opens t := by
  obtain ⟨hmem, hsearched⟩ := List.mem_filter.mp hc
  obtain ⟨i, hi⟩ := List.getElem?_of_mem hmem
  have hindex := hbuilt.sound.positions i c hi
  simp only [Column.isSearchedIn, Bool.and_eq_true, Bool.or_eq_true] at hsearched
  obtain ⟨⟨-, hable⟩, hvisible⟩ := hsearched
  rw [searchSlot, hindex] at ht
  cases hslot : p.plan.search[i]? with
  | none =>
    rw [hslot] at ht
    exact absurd ht List.not_mem_nil
  | some slot =>
    rw [hslot] at ht
    exact ⟨i, c, slot, hi, hslot, ht, hable, hvisible.symm⟩

/-- **The global search points at open targets only.** -/
theorem targets_of_mem_globalSearch (hbuilt : p.table.registry.Built)
    (hfilters : ∀ c ∈ p.table.registry.columns, c.effectiveFilter.IsBuiltIn) :
    ∀ predicate ∈ p.globalSearch.items, ∃ t, predicate.targets = [t] ∧ p.Opens t := by
  refine globalSearch_induction
    (P := fun g => ∀ predicate ∈ g.items, ∃ t, predicate.targets = [t] ∧ p.Opens t)
    (fun _ h => absurd h List.not_mem_nil)
    fun c hc t ht acc value mode column hacc predicate h => ?_
  rcases Filter.mem_items_widen (hfilters c (mem_columns_of_mem_searchedColumns hc)) h with
    hold | htarget
  · exact hacc predicate hold
  · exact ⟨t, htarget, opens_of_mem_searchSlot hbuilt hc ht⟩

theorem targets_of_mem_individualSearch (hbuilt : p.table.registry.Built)
    (hfilters : ∀ c ∈ p.table.registry.columns, c.effectiveFilter.IsBuiltIn) :
    ∀ predicate ∈ p.individualSearch.items, ∃ t, predicate.targets = [t] ∧ p.Opens t := by
  refine individualSearch_induction
    (P := fun g => ∀ predicate ∈ g.items, ∃ t, predicate.targets = [t] ∧ p.Opens t)
    (fun _ h => absurd h List.not_mem_nil) fun c hc t ht acc value counter hacc predicate h => ?_
  rcases Filter.mem_items_narrow (hfilters c (mem_columns_of_mem_searchedColumns hc)) h with
    hold | htarget
  · exact hacc predicate hold
  · exact ⟨t, htarget, opens_of_mem_searchSlot hbuilt hc ht⟩

/-! ### Requests -/

/-- A planned request keeps to what the table opens. -/
structure Confined (p : Planned) : Prop where
  /-- There is a slot of each sort for each column. -/
  slots : p.plan.search.length = p.table.registry.columns.length ∧
    p.plan.order.length = p.table.registry.columns.length
  /-- The page is ordered as its base is, and then by what the request may order by. -/
  order : ∀ c, p.page = .ok c → ∃ q f, p.joined = .ok q ∧ (p.pageQuery q).sql = .ok f ∧
    c.sql = f.text ∧ (p.pageQuery q).orderBy = p.base.orderBy ++ p.allowedOrder
  globalSearch : ∀ predicate ∈ p.globalSearch.items, ∃ t, predicate.targets = [t] ∧ p.Opens t
  individualSearch : ∀ predicate ∈ p.individualSearch.items,
    ∃ t, predicate.targets = [t] ∧ p.Opens t
  /-- The searches of the columns are heeded only where the table has them. -/
  disabled : p.table.settings.search.individual = false → p.individualSearch.items = []

/-- **No request sorts or searches what its table closes.** There is a slot for each column. The
page is ordered by the slots of the columns that the table and the client let be ordered, in the
order of the request, and every predicate of a search points at a target from the slot of a
searchable column. -/
theorem confined {planner : Planner} (hbuilt : planner.table.registry.Built)
    (hfilters : ∀ c ∈ planner.table.registry.columns, c.effectiveFilter.IsBuiltIn)
    (hplan : planner.plan = .ok p) : p.Confined := by
  obtain ⟨plan, htable, rfl⟩ := Planner.plan_eq_ok.mp hplan
  obtain ⟨hsearchable, horderable⟩ := Table.guards_plan htable
  refine ⟨⟨hsearchable.length_eq.symm, horderable.length_eq.symm⟩, fun c hc => ?_,
    targets_of_mem_globalSearch hbuilt hfilters, targets_of_mem_individualSearch hbuilt hfilters,
    fun hoff => ?_⟩
  · obtain ⟨q, f, hq, hf, rfl⟩ := page_eq_ok hc
    refine ⟨q, f, hq, hf, rfl, ?_⟩
    obtain ⟨limit, offset, hpage⟩ := pageQuery_eq q
    obtain ⟨joins, rfl⟩ := joined_frame hq
    rw [hpage, requestedOrder_eq_allowedOrder horderable]
  · rw [individualSearch_eq, if_neg (by rw [hoff]; exact Bool.false_ne_true)]

/-- Posts with a second column that is hidden and that cannot be ordered. -/
def guardedBlog : Table :=
  { blogTable with
    registry := ((blogRegistry ["author.name"]).register (some "comments.author.name") .column
      (Json.object [("orderable", .bool false), ("visible", .bool false)]) none).1 }

/-- A client lets both columns be ordered, names them several times, and one that there is not. -/
theorem confined_blog : ∃ planner p, Planner.create guardedBlog
      { search := some ⟨"ann", false⟩
        columns := [{ orderable := true }, { orderable := true }]
        order := [⟨1, .asc⟩, ⟨0, .desc⟩, ⟨0, .asc⟩, ⟨5, .asc⟩] } = .ok planner ∧
    planner.plan = .ok p ∧ p.allowedOrder =
      [⟨.column "author" "user_name", .desc⟩, ⟨.column "author" "user_name", .asc⟩] ∧
    p.globalSearch.items.flatMap Predicate.targets = [.column "author" "user_name"] ∧
    p.Confined := by
  obtain ⟨planner, hcreate, h⟩ := exists_ok (x := Planner.create guardedBlog
      { search := some ⟨"ann", false⟩
        columns := [{ orderable := true }, { orderable := true }]
        order := [⟨1, .asc⟩, ⟨0, .desc⟩, ⟨0, .asc⟩, ⟨5, .asc⟩] })
    (p := fun planner => planner.plan.toOption.any fun p => p.allowedOrder =
        [⟨.column "author" "user_name", .desc⟩, ⟨.column "author" "user_name", .asc⟩] ∧
      p.globalSearch.items.flatMap Predicate.targets = [.column "author" "user_name"])
    (by decide +kernel)
  obtain ⟨p, hplan, hp⟩ := exists_ok h
  obtain ⟨horder, hsearch⟩ := of_decide_eq_true hp
  have hbuilt : guardedBlog.registry.Built := (built_blogRegistry _).register _ _ _ _
  have hfilters : ∀ c ∈ guardedBlog.registry.columns, c.effectiveFilter.IsBuiltIn := by
    decide +kernel
  obtain ⟨root, hroot, rfl⟩ := Planner.create_eq_ok.mp hcreate
  exact ⟨_, p, hcreate, hplan, horder, hsearch, confined hbuilt hfilters hplan⟩

end Planned

end TableQuery
