import TableQuery.Plan.Compiled
import TableQuery.Proofs.Outcome

/-! # What planning comes to

A request is planned in three steps. The base query is made of the table's own conditions and
grouping (`Planner.create_eq_ok`), each column adds to a draft (`Draft.add_cases`), hop by hop
(`Walk.exists_hopped`), where joins are planned once for each key (`JoinPlan.add_cases`), and the
overrides of the columns are filled in at the end (`Table.exists_draft`). -/

namespace TableQuery

open Outcome

/-- What a join is found by. -/
def PlannedJoin.key (j : PlannedJoin) : String × String := (j.parent, j.relationship)

theorem JoinPlan.find?_eq_some {joins : JoinPlan} {a relation : String} {j : PlannedJoin}
    (h : joins.find? a relation = some j) :
    j ∈ joins ∧ j.parent = a ∧ j.relationship = relation := by
  have hfollows := List.find?_some h
  simp only [PlannedJoin.follows, Bool.and_eq_true, beq_iff_eq] at hfollows
  exact ⟨List.mem_of_find?_eq_some h, hfollows⟩

theorem JoinPlan.add_cases (joins : JoinPlan) (join : PlannedJoin) :
    (∃ planned ∈ joins, planned.key = join.key ∧ joins.add join = (joins, planned)) ∨
      (join.key ∉ joins.map PlannedJoin.key ∧ joins.add join = (joins ++ [join], join)) := by
  unfold add
  cases hfind : joins.find? join.parent join.relationship with
  | some planned =>
    obtain ⟨hmem, hparent, hrelationship⟩ := find?_eq_some hfind
    exact .inl ⟨planned, hmem, Prod.ext hparent hrelationship, rfl⟩
  | none =>
    refine .inr ⟨fun hmem => ?_, rfl⟩
    obtain ⟨j, hj, hkey⟩ := List.mem_map.mp hmem
    have hnone := List.find?_eq_none.mp hfind j hj
    obtain ⟨hparent, hrelationship⟩ := Prod.ext_iff.mp hkey
    simp only [PlannedJoin.key] at hparent hrelationship
    simp [PlannedJoin.follows, hparent, hrelationship] at hnone

/-- The join leads to the entity. -/
structure PlannedJoin.LeadsTo (j : PlannedJoin) (e : Entity) : Prop where
  entity : j.entity = e.name
  table : j.table = e.table
  identifier : e.identifier = .ok j.identifier

/-- A walk goes on along a relationship, for which a join is planned unless there is one. -/
structure Walk.Hopped (schema : Schema) (relation : String) (w w' : Walk) (join : PlannedJoin) :
    Prop where
  association : w.entity.association relation = .ok join.association
  target : schema.entity join.association.target = .ok w'.entity
  parent : join.parent = w.aliasName
  relationship : join.relationship = relation
  path : join.aliasName = safeAlias ("_".intercalate (w.behind ++ [relation]))
  leads : join.LeadsTo w'.entity
  joins : w'.joins = (w.joins.add join).1
  selection : w'.selection = w.selection.addField (w.joins.add join).2.aliasName
    (w.joins.add join).2.identifier
  reached : w'.aliasName = (w.joins.add join).2.aliasName
  behind : w'.behind = w.behind ++ [relation]

/-- **What a hop comes to.** -/
theorem Walk.exists_hopped {schema : Schema} {kind : JoinKind} {w w' : Walk} {relation : String}
    (h : w.hop schema kind relation = .ok w') : ∃ join, Hopped schema relation w w' join := by
  simp only [hop, bind_eq_ok, pure_eq_ok] at h
  obtain ⟨a, ha, target, htarget, identifier, hidentifier, rfl⟩ := h
  exact ⟨_, ha, htarget, rfl, rfl, rfl, ⟨rfl, rfl, hidentifier⟩, rfl, rfl, rfl, rfl⟩

/-- **What a column with a field adds to a draft**: the walk to its field, whose end is selected and
is what the column is searched and ordered by. -/
theorem Draft.add_of_field {root : PlanRoot} {d d' : Draft} {c : Column} {path : DataPath}
    (hsource : c.source = .field path) (hselectable : c.kind.isSelectable = true)
    (h : d.add root c = .ok d') : ∃ w identifier,
      path.relations.foldlM (Walk.hop root.schema c.joinKind)
        ⟨d.joins, d.selection, root.aliasName, [], root.entity⟩ = .ok w ∧
      w.entity.identifier = .ok identifier ∧
      d' = ⟨w.joins,
        (w.selection.addField w.aliasName identifier).addField w.aliasName path.field,
        d.search ++ [slotIf c.searchable (.column w.aliasName (w.entity.columnFor path.field))],
        d.order ++ [slotIf c.orderable (.column w.aliasName (w.entity.columnFor path.field))]⟩ := by
  unfold Draft.add at h
  rw [hsource] at h
  simp only [hselectable, if_true, mapError_eq_ok, Draft.addField, bind_eq_ok, pure_eq_ok] at h
  obtain ⟨w, hw, identifier, hidentifier, hd⟩ := h
  exact ⟨w, identifier, hw, hidentifier, hd⟩

/-- **What a column adds to a draft**: its expression, the walk to its field, or empty slots. -/
theorem Draft.add_cases {root : PlanRoot} {d d' : Draft} {c : Column} (h : d.add root c = .ok d') :
    (∃ sql data, c.source = .expression sql ∧ c.data = some data ∧
      d' = ⟨d.joins, d.selection.addRaw (Template.selected sql) data.aliasName,
        d.search ++ [slotIf c.searchable (.raw (Template.searched sql))],
        d.order ++ [slotIf c.orderable (.label data.aliasName)]⟩) ∨
    (∃ path w identifier, c.source = .field path ∧ c.kind.isSelectable = true ∧
      path.relations.foldlM (Walk.hop root.schema c.joinKind)
        ⟨d.joins, d.selection, root.aliasName, [], root.entity⟩ = .ok w ∧
      w.entity.identifier = .ok identifier ∧
      d' = ⟨w.joins,
        (w.selection.addField w.aliasName identifier).addField w.aliasName path.field,
        d.search ++ [slotIf c.searchable (.column w.aliasName (w.entity.columnFor path.field))],
        d.order ++ [slotIf c.orderable (.column w.aliasName (w.entity.columnFor path.field))]⟩) ∨
    d' = ⟨d.joins, d.selection, d.search ++ [[]], d.order ++ [[]]⟩ := by
  have hadd := h
  unfold Draft.add at h
  split at h
  · next sql hsource =>
    split at h
    · next data hdata => exact .inl ⟨sql, data, hsource, hdata, (Except.ok.inj h).symm⟩
    · cases h
  · next path hsource =>
    split_ifs at h with hselectable
    · obtain ⟨w, identifier, hw, hidentifier, hd⟩ := add_of_field hsource hselectable hadd
      exact .inr (.inl ⟨path, w, identifier, hsource, hselectable, hw, hidentifier, hd⟩)
    · exact .inr (.inr (Except.ok.inj h).symm)
  · exact .inr (.inr (Except.ok.inj h).symm)

/-! ### Slots -/

theorem mem_slotIf {able : Bool} {target t : Target} (h : t ∈ slotIf able target) :
    able = true ∧ t = target := by
  cases able
  · cases h
  · exact ⟨rfl, List.mem_singleton.mp h⟩

/-- All targets of some slots have a property. -/
def AllTargets (P : Target → Prop) (slots : List Slot) : Prop := ∀ slot ∈ slots, ∀ t ∈ slot, P t

namespace AllTargets

variable {P Q : Target → Prop} {slots : List Slot}

theorem nil (P : Target → Prop) : AllTargets P [] := fun _ h => absurd h List.not_mem_nil

theorem mono (h : AllTargets P slots) (hPQ : ∀ t, P t → Q t) : AllTargets Q slots :=
  fun slot hslot t ht => hPQ t (h slot hslot t ht)

theorem concat (h : AllTargets P slots) {slot : Slot} (hslot : ∀ t ∈ slot, P t) :
    AllTargets P (slots ++ [slot]) := by
  intro s hs
  rcases List.mem_append.mp hs with hs | hs
  · exact h s hs
  · rw [List.mem_singleton.mp hs]
    exact hslot

theorem concat_nil (h : AllTargets P slots) : AllTargets P (slots ++ [[]]) :=
  h.concat fun _ ht => absurd ht List.not_mem_nil

theorem concat_slotIf (h : AllTargets P slots) {able : Bool} {target : Target}
    (ht : able = true → P target) : AllTargets P (slots ++ [slotIf able target]) := by
  refine h.concat fun t hmem => ?_
  obtain ⟨hable, rfl⟩ := mem_slotIf hmem
  exact ht hable

/-- Slots that the columns change one by one keep what each column keeps. -/
theorem zipWith (h : AllTargets P slots) {columns : List Column} {f : Column → Slot → Slot}
    (hf : ∀ c ∈ columns, ∀ slot : Slot, (∀ t ∈ slot, P t) → ∀ t ∈ f c slot, P t) :
    AllTargets P (List.zipWith f columns slots) := by
  intro slot hslot
  rw [← List.map_uncurry_zip_eq_zipWith] at hslot
  obtain ⟨⟨c, s⟩, hmem, rfl⟩ := List.mem_map.mp hslot
  obtain ⟨hc, hs⟩ := List.of_mem_zip hmem
  exact hf c hc s (h s hs)

theorem of_mem_searchSlot {p : Planned} (h : AllTargets P p.plan.search) {c : Column} {t : Target}
    (ht : t ∈ p.searchSlot c) : P t := by
  unfold Planned.searchSlot at ht
  cases hget : p.plan.search[c.index]? with
  | none =>
    rw [hget] at ht
    exact absurd ht List.not_mem_nil
  | some slot =>
    rw [hget] at ht
    exact h slot (List.mem_of_getElem? hget) t ht

end AllTargets

/-! ### Plans -/

/-- **A plan is the draft of all columns** with the overrides of its slots, which are filled in when
the joins are known. -/
theorem Table.plan_eq_ok {t : Table} {rootAlias : String} {p : Plan} :
    t.plan rootAlias = .ok p ↔ ∃ root identifier d, t.registry.root = .ok root ∧
      root.identifier = .ok identifier ∧
      t.registry.columns.foldlM (Draft.add ⟨t.registry.schema, root, rootAlias⟩)
        ⟨[], Selection.addField [] rootAlias identifier, [], []⟩ = .ok d ∧
      ∃ p₀ : Plan, p₀ = ⟨rootAlias, root.name, root.table, identifier, d.joins, d.selection,
          d.search, d.order⟩ ∧
        p = { p₀ with
          search := List.zipWith (p₀.overrideSlot t.registry false) t.registry.columns d.search
          order := List.zipWith (p₀.overrideSlot t.registry true) t.registry.columns d.order } := by
  simp only [Table.plan, bind_eq_ok, pure_eq_ok, mapError_eq_ok, exists_and_left, exists_eq_left]

theorem Table.exists_draft {t : Table} {rootAlias : String} {p : Plan}
    (h : t.plan rootAlias = .ok p) : ∃ root d, t.registry.root = .ok root ∧
      root.identifier = .ok p.rootIdentifier ∧
      t.registry.columns.foldlM (Draft.add ⟨t.registry.schema, root, rootAlias⟩)
        ⟨[], Selection.addField [] rootAlias p.rootIdentifier, [], []⟩ = .ok d ∧
      p.rootAlias = rootAlias ∧ p.joins = d.joins ∧ p.selection = d.selection ∧
      ∃ p₀ : Plan,
        p.search = List.zipWith (p₀.overrideSlot t.registry false) t.registry.columns d.search ∧
        p.order = List.zipWith (p₀.overrideSlot t.registry true) t.registry.columns d.order := by
  obtain ⟨root, identifier, d, hroot, hidentifier, hd, p₀, rfl, rfl⟩ := plan_eq_ok.mp h
  exact ⟨root, d, hroot, hidentifier, hd, rfl, rfl, rfl, _, rfl, rfl⟩

/-- **A property that selecting fields and the expressions of the columns keeps** holds of the
selection of a plan. -/
theorem Table.selection_induction {t : Table} {rootAlias : String} {p : Plan}
    (h : t.plan rootAlias = .ok p) {P : Selection → Prop} (nil : P [])
    (addField : ∀ s a field, P s → P (s.addField a field))
    (addRaw : ∀ s, ∀ c ∈ t.registry.columns, ∀ sql data, c.source = .expression sql →
      c.data = some data → P s → P (s.addRaw (Template.selected sql) data.aliasName)) :
    P p.selection := by
  obtain ⟨root, d, -, -, hd, -, -, hselection, -⟩ := exists_draft h
  rw [hselection]
  refine foldlM_invariant (fun d : Draft => P d.selection) _ (fun c hc d d' hd hadd => ?_)
    (addField _ _ _ nil) hd
  obtain ⟨sql, data, hsource, hdata, rfl⟩ | ⟨path, w, identifier, -, -, hw, -, rfl⟩ | rfl :=
    Draft.add_cases hadd
  · exact addRaw _ c hc sql data hsource hdata hd
  · refine addField _ _ _ (addField _ _ _ (foldlM_invariant (fun w : Walk => P w.selection) _
      (fun relation _ w w' hw hhop => ?_) hd hw))
    obtain ⟨join, hhop⟩ := Walk.exists_hopped hhop
    rw [hhop.selection]
    exact addField _ _ _ hw
  · exact hd

theorem Query.foldl_filterRaw (conditions : List String) (q : Query) :
    conditions.foldl Query.filterRaw q =
      { q with filters := q.filters ++ conditions.map fun sql => Group.all [.raw sql] } := by
  induction conditions generalizing q with
  | nil => simp
  | cons sql conditions ih =>
    rw [List.foldl_cons, ih]
    simp [filterRaw, filter, Group.all]

theorem Query.foldl_addGroupBy (targets : List Target) (q : Query) :
    targets.foldl Query.addGroupBy q = { q with groupBy := q.groupBy ++ targets } := by
  induction targets generalizing q with
  | nil => simp
  | cons target targets ih =>
    rw [List.foldl_cons, ih]
    simp [addGroupBy]

/-- The query that all queries of a table start from: its root table with the conditions and the
grouping of the table. -/
def Table.baseQuery (t : Table) (root : Entity) : Query :=
  { table := root.table
    aliasName := safeAlias root.shortName
    filters := t.predicates.map fun sql => Group.all [.raw sql]
    groupBy := t.groupBy }

/-- **A planner starts from the base query of its table.** -/
theorem Planner.create_eq_ok {t : Table} {request : Request} {planner : Planner} :
    Planner.create t request = .ok planner ↔ ∃ root, t.registry.root = .ok root ∧
      planner = ⟨t, request, t.baseQuery root, safeAlias root.shortName⟩ := by
  simp only [create, bind_eq_ok, mapError_eq_ok, pure_eq_ok, Query.foldl_filterRaw,
    Query.foldl_addGroupBy, List.nil_append, Table.baseQuery]

/-- **A planned request has the base query of its planner and the plan of its table.** -/
theorem Planner.plan_eq_ok {planner : Planner} {p : Planned} : planner.plan = .ok p ↔
    ∃ plan, planner.table.plan planner.rootAlias = .ok plan ∧
      p = ⟨planner.table, planner.request, planner.base, planner.table.settings.cache, plan⟩ := by
  simp only [Planner.plan, bind_eq_ok, pure_eq_ok]

/-- **What a planned request comes from**: the root of its table, which gives the base query and the
alias that the plan starts from. -/
theorem Planned.exists_root {t : Table} {request : Request} {planner : Planner} {p : Planned}
    (hcreate : Planner.create t request = .ok planner) (hplan : planner.plan = .ok p) :
    ∃ root, t.registry.root = .ok root ∧ t.plan (safeAlias root.shortName) = .ok p.plan ∧
      p.table = t ∧ p.base = t.baseQuery root := by
  obtain ⟨root, hroot, rfl⟩ := Planner.create_eq_ok.mp hcreate
  obtain ⟨plan, htable, rfl⟩ := Planner.plan_eq_ok.mp hplan
  dsimp only at htable
  exact ⟨root, hroot, htable, rfl, rfl⟩

theorem Planned.request_of_plan {t : Table} {request : Request} {planner : Planner} {p : Planned}
    (hcreate : Planner.create t request = .ok planner) (hplan : planner.plan = .ok p) :
    p.request = request := by
  obtain ⟨root, -, rfl⟩ := Planner.create_eq_ok.mp hcreate
  obtain ⟨plan, -, rfl⟩ := Planner.plan_eq_ok.mp hplan
  rfl

/-- **Every request of a table that has a plan is planned.** -/
theorem Planned.exists_of_plan {t : Table} {root : Entity} {plan : Plan}
    (hroot : t.registry.root = .ok root) (hplan : t.plan (safeAlias root.shortName) = .ok plan)
    (request : Request) : ∃ planner p, Planner.create t request = .ok planner ∧
      planner.plan = .ok p ∧ p.table = t ∧ p.plan = plan ∧ p.base = t.baseQuery root := by
  obtain ⟨planner, hcreate⟩ : ∃ planner, Planner.create t request = .ok planner :=
    ⟨_, Planner.create_eq_ok.mpr ⟨root, hroot, rfl⟩⟩
  obtain ⟨p, hp⟩ : ∃ p, planner.plan = .ok p := by
    obtain ⟨root', hroot', rfl⟩ := Planner.create_eq_ok.mp hcreate
    obtain rfl : root' = root := Except.ok.inj (hroot'.symm.trans hroot)
    simp only [Planner.plan_eq_ok]
    exact ⟨_, plan, hplan, rfl⟩
  obtain ⟨root', hroot', hplan', htable, hbase⟩ := exists_root hcreate hp
  obtain rfl : root' = root := Except.ok.inj (hroot'.symm.trans hroot)
  exact ⟨planner, p, hcreate, hp, htable, Except.ok.inj (hplan'.symm.trans hplan), hbase⟩

end TableQuery
