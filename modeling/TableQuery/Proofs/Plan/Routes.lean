import Mathlib.Data.List.Nodup
import TableQuery.Proofs.Column.Registered
import TableQuery.Proofs.Plan.Joins

/-! # The routes of the columns

The way to the field of a column is walked twice: at registration, where it gives the chain of the
column, and in planning, where each hop is a join that columns share. The two walks agree
(`Table.routes_plan`): the joins that are found one after the other from the root are made from the
associations and entities that registration went over, the slots of the column name the last of
them, and every join lies on the route of a column.

A join is found by the alias it starts from and its relationship, without the entity. What carries
the agreement is that every planned join follows an association of the entity behind its parent
(`JoinPlan.Mapped`). A hop keeps this as long as an alias stands for one table, because the entity
it starts from is then the one behind its alias (`Walk.Mapped.hop`). Routes only need that look-ups
stay as they are when joins are added (`JoinPlan.route_mono`). -/

namespace TableQuery

open Outcome

/-! ### Routes -/

namespace JoinPlan

/-- The joins that relationships lead over from an alias. -/
def route (joins : JoinPlan) : String → List String → Option (List PlannedJoin)
  | _, [] => some []
  | a, relation :: relations =>
    match joins.find? a relation with
    | some j => (joins.route j.aliasName relations).map (j :: ·)
    | none => none

/-- The alias at the end of a route. -/
def lastAlias : String → List PlannedJoin → String
  | a, [] => a
  | _, j :: hops => lastAlias j.aliasName hops

variable {joins joins' : JoinPlan}

theorem route_cons {a relation : String} {relations : List String} {hops : List PlannedJoin} :
    joins.route a (relation :: relations) = some hops ↔ ∃ j rest,
      joins.find? a relation = some j ∧ joins.route j.aliasName relations = some rest ∧
        hops = j :: rest := by
  rw [route]
  cases joins.find? a relation with
  | none => simp
  | some j =>
    simp only [Option.map_eq_some_iff, Option.some.injEq, exists_and_left, exists_eq_left',
      eq_comm (a := hops)]

theorem length_of_route : ∀ {relations : List String} {a : String} {hops : List PlannedJoin},
    joins.route a relations = some hops → hops.length = relations.length
  | [], _, _, h => by
    cases h
    rfl
  | _ :: _, _, _, h => by
    obtain ⟨j, rest, -, hrest, rfl⟩ := route_cons.mp h
    rw [List.length_cons, List.length_cons, length_of_route hrest]

theorem find?_mono (h : joins <+: joins') {a relation : String} {j : PlannedJoin}
    (hj : joins.find? a relation = some j) : joins'.find? a relation = some j := by
  obtain ⟨added, rfl⟩ := h
  rw [find?, List.find?_append, show List.find? _ joins = some j from hj]
  rfl

/-- **Routes stay as they are when joins are added.** -/
theorem route_mono (h : joins <+: joins') : ∀ {relations : List String} {a : String}
    {hops : List PlannedJoin}, joins.route a relations = some hops →
      joins'.route a relations = some hops
  | [], _, _, hroute => hroute
  | _ :: _, _, _, hroute => by
    obtain ⟨j, rest, hj, hrest, rfl⟩ := route_cons.mp hroute
    exact route_cons.mpr ⟨j, rest, find?_mono h hj, route_mono h hrest, rfl⟩

theorem find?_add (joins : JoinPlan) (join : PlannedJoin) :
    (joins.add join).1.find? join.parent join.relationship = some (joins.add join).2 := by
  unfold add
  cases h : joins.find? join.parent join.relationship with
  | some planned => exact h
  | none =>
    rw [find?] at h
    show List.find? _ (joins ++ [join]) = some join
    rw [List.find?_append, h]
    simp [PlannedJoin.follows]

end JoinPlan

/-! ### The walk of a column -/

/-- **The join of a hop** is found for its relationship afterwards, and is the only one that may be
new. -/
theorem Walk.exists_found {schema : Schema} {kind : JoinKind} {w w' : Walk} {relation : String}
    (h : w.hop schema kind relation = .ok w') : ∃ a j, w.entity.association relation = .ok a ∧
      schema.entity a.target = .ok w'.entity ∧
      w'.joins.find? w.aliasName relation = some j ∧ w'.aliasName = j.aliasName ∧
      (w'.joins = w.joins ∨ w'.joins = w.joins ++ [j] ∧ j.parent = w.aliasName ∧
        j.relationship = relation ∧ j.association = a ∧ j.LeadsTo w'.entity) := by
  obtain ⟨join, h⟩ := exists_hopped h
  have hfound := w.joins.find?_add join
  rw [← h.joins, h.parent, h.relationship] at hfound
  refine ⟨_, _, h.association, h.target, hfound, h.reached, ?_⟩
  rcases w.joins.add_cases join with ⟨planned, -, -, heq⟩ | ⟨-, heq⟩
  · exact .inl (by rw [h.joins, heq])
  · rw [h.joins, heq]
    exact .inr ⟨rfl, h.parent, h.relationship, rfl, h.leads⟩

theorem Walk.prefix_of_hop {schema : Schema} {kind : JoinKind} {w w' : Walk} {relation : String}
    (h : w.hop schema kind relation = .ok w') : w.joins <+: w'.joins := by
  obtain ⟨_, _, -, -, -, -, heq | ⟨heq, -⟩⟩ := exists_found h
  · exact heq ▸ List.prefix_refl _
  · exact heq ▸ List.prefix_append _ _

/-- **What a walk comes to**: the route that its relationships have in the joins it leaves, beside
the walk along the associations. All joins that it adds lie on its route. -/
theorem Walk.exists_route {schema : Schema} {kind : JoinKind} :
    ∀ {relations : List String} {w w' : Walk}, relations.foldlM (Walk.hop schema kind) w = .ok w' →
      ∃ hops steps, w'.joins.route w.aliasName relations = some hops ∧
        schema.Walks w.entity relations steps w'.entity ∧
        w'.aliasName = JoinPlan.lastAlias w.aliasName hops ∧ w.joins <+: w'.joins ∧
        ∀ j ∈ w'.joins, j ∈ w.joins ∨ j ∈ hops
  | [], w, w', h => by
    rw [List.foldlM_nil, pure_eq_ok] at h
    subst h
    exact ⟨[], [], rfl, .nil _, rfl, List.prefix_refl _, fun j hj => .inl hj⟩
  | relation :: relations, w, w', h => by
    rw [List.foldlM_cons, bind_eq_ok] at h
    obtain ⟨w₁, hhop, hrest⟩ := h
    obtain ⟨a, j, ha, htarget, hfound, hreached, hjoins⟩ := exists_found hhop
    obtain ⟨hops, steps, hroute, hwalk, hlast, hext, hadded⟩ := exists_route hrest
    refine ⟨j :: hops, (a, w₁.entity) :: steps, ?_, .cons ha htarget hwalk, ?_,
      (prefix_of_hop hhop).trans hext, fun i hi => ?_⟩
    · rw [hreached] at hroute
      exact JoinPlan.route_cons.mpr ⟨j, hops, JoinPlan.find?_mono hext hfound, hroute, rfl⟩
    · rw [hlast, hreached, JoinPlan.lastAlias]
    · rcases hadded i hi with hi | hi
      · rcases hjoins with heq | ⟨heq, -⟩
        · exact .inl (heq ▸ hi)
        · rw [heq] at hi
          rcases List.mem_append.mp hi with hi | hi
          · exact .inl hi
          · exact .inr (by rw [List.mem_singleton.mp hi]; exact List.mem_cons_self)
      · exact .inr (List.mem_cons_of_mem _ hi)

/-! ### Joins and the entities behind them -/

namespace JoinPlan

/-- The entity behind an alias: that of the root, or the one a join leads to. -/
def Behind (root : PlanRoot) (joins : JoinPlan) (a : String) (e : Entity) : Prop :=
  (a = root.aliasName ∧ e = root.entity) ∨
    ∃ j ∈ joins, j.aliasName = a ∧ root.schema.entity j.association.target = .ok e

/-- Every join follows an association of the entity behind its parent, to the entity it is made
of. -/
def Mapped (root : PlanRoot) (joins : JoinPlan) : Prop :=
  ∀ j ∈ joins, ∃ e target, joins.Behind root j.parent e ∧
    e.association j.relationship = .ok j.association ∧
    root.schema.entity j.association.target = .ok target ∧ j.LeadsTo target

variable {root : PlanRoot} {joins joins' : JoinPlan}

theorem aliases_mono (h : joins <+: joins') : joins.aliases <+: joins'.aliases := h.map _

theorem nodup_of_extended (h : joins <+: joins') {a : String} (hn : (a :: joins'.aliases).Nodup) :
    (a :: joins.aliases).Nodup :=
  hn.sublist ((aliases_mono h).sublist.cons_cons _)

theorem Behind.mono (h : joins ⊆ joins') {a : String} {e : Entity} (hb : joins.Behind root a e) :
    joins'.Behind root a e := by
  rcases hb with hroot | ⟨j, hj, ha, he⟩
  · exact .inl hroot
  · exact .inr ⟨j, h hj, ha, he⟩

/-- **One entity stands behind an alias** if the aliases are different. -/
theorem Behind.unique (hn : (root.aliasName :: joins.aliases).Nodup) {a : String} {e e' : Entity}
    (h : joins.Behind root a e) (h' : joins.Behind root a e') : e = e' := by
  obtain ⟨hroot, haliases⟩ := List.nodup_cons.mp hn
  rcases h with ⟨ha, rfl⟩ | ⟨j, hj, ha, he⟩ <;> rcases h' with ⟨ha', rfl⟩ | ⟨j', hj', ha', he'⟩
  · rfl
  · exact absurd (ha ▸ ha' ▸ List.mem_map_of_mem hj') hroot
  · exact absurd (ha' ▸ ha ▸ List.mem_map_of_mem hj) hroot
  · obtain rfl := List.inj_on_of_nodup_map haliases hj hj' (ha.trans ha'.symm)
    exact Except.ok.inj (he.symm.trans he')

/-- **Routes and walks agree** where every join is mapped and the aliases are different. -/
theorem Mapped.forall₂ (hm : joins.Mapped root) (hn : (root.aliasName :: joins.aliases).Nodup) :
    ∀ {relations : List String} {a : String} {e last : Entity} {hops : List PlannedJoin}
      {steps : List (Association × Entity)}, joins.Behind root a e →
      joins.route a relations = some hops → root.schema.Walks e relations steps last →
      List.Forall₂ (fun j step => j.association = step.1 ∧ j.LeadsTo step.2) hops steps
  | [], _, _, _, _, _, _, hroute, hwalk => by
    cases hroute
    cases hwalk
    exact .nil
  | relation :: relations, a, e, last, hops, _, hbehind, hroute, hwalk => by
    cases hwalk with
    | @cons _ next _ _ association _ steps ha hnext hrest =>
      obtain ⟨j, rest, hj, hafter, rfl⟩ := route_cons.mp hroute
      obtain ⟨hmem, rfl, rfl⟩ := find?_eq_some hj
      obtain ⟨e', target, hbehind', hassociation, htarget, hleads⟩ := hm j hmem
      -- the join was made from the entity behind its alias, which is the one that is walked from
      obtain rfl := hbehind.unique hn hbehind'
      obtain rfl := Except.ok.inj (ha.symm.trans hassociation)
      obtain rfl := Except.ok.inj (hnext.symm.trans htarget)
      exact .cons ⟨rfl, hleads⟩ (hm.forall₂ hn (.inr ⟨j, hmem, rfl, hnext⟩) hafter hrest)

end JoinPlan

/-- The joins of a walk are mapped, and its entity stands behind its alias. -/
structure Walk.Mapped (root : PlanRoot) (w : Walk) : Prop where
  joins : w.joins.Mapped root
  behind : w.joins.Behind root w.aliasName w.entity

/-- **A hop keeps the joins mapped** as long as their aliases are different. -/
theorem Walk.Mapped.hop {root : PlanRoot} {kind : JoinKind} {w w' : Walk} {relation : String}
    (hw : w.Mapped root) (hn : (root.aliasName :: w'.joins.aliases).Nodup)
    (h : w.hop root.schema kind relation = .ok w') : w'.Mapped root := by
  obtain ⟨a, j, ha, htarget, hfound, hreached, hjoins⟩ := exists_found h
  rcases hjoins with heq | ⟨heq, hparent, hrelation, hassociation, hleads⟩
  · obtain ⟨hmem, hparent, hrelation⟩ := JoinPlan.find?_eq_some hfound
    have hjoins : w'.joins.Mapped root := heq ▸ hw.joins
    obtain ⟨e, target, hbehind, hassociation, htarget', -⟩ := hjoins j hmem
    -- the planned join starts from the same alias, so from the same entity
    have he : e = w.entity :=
      hbehind.unique hn (hparent ▸ hw.behind.mono (by rw [heq]; exact List.Subset.refl _))
    rw [he, hrelation] at hassociation
    obtain rfl := Except.ok.inj (ha.symm.trans hassociation)
    exact ⟨hjoins, .inr ⟨j, hmem, hreached.symm, htarget⟩⟩
  · -- a new join is made from the entity of the walk, and leaves those behind other aliases alone
    have hsubset : w.joins ⊆ w'.joins := by
      rw [heq]
      exact List.subset_append_left _ _
    have hmem : j ∈ w'.joins := by simp [heq]
    refine ⟨fun i hi => ?_, .inr ⟨j, hmem, hreached.symm, hassociation ▸ htarget⟩⟩
    rw [heq] at hi
    rcases List.mem_append.mp hi with hi | hi
    · obtain ⟨e, target, hbehind, hrest⟩ := hw.joins i hi
      exact ⟨e, target, hbehind.mono hsubset, hrest⟩
    · rw [List.mem_singleton.mp hi]
      exact ⟨w.entity, w'.entity, hparent ▸ hw.behind.mono hsubset,
        by rw [hrelation, ha, hassociation], hassociation ▸ htarget, hleads⟩

/-! ### Columns -/

/-- The slots of a column with a field name the end of its route, if the column has the ability. -/
def Column.Routed (root : PlanRoot) (joins : JoinPlan) (c : Column) (slots : Slot × Slot) : Prop :=
  ∀ path, c.source = .field path → c.kind.isSelectable = true → ∃ hops steps last,
    joins.route root.aliasName path.relations = some hops ∧
    root.schema.Walks root.entity path.relations steps last ∧
    slots.1 = slotIf c.searchable
      (.column (JoinPlan.lastAlias root.aliasName hops) (last.columnFor path.field)) ∧
    slots.2 = slotIf c.orderable
      (.column (JoinPlan.lastAlias root.aliasName hops) (last.columnFor path.field))

/-- The join lies on the route of the column. -/
def Column.GoesOver (rootAlias : String) (joins : JoinPlan) (c : Column) (j : PlannedJoin) : Prop :=
  ∃ path hops, c.source = .field path ∧ c.kind.isSelectable = true ∧
    joins.route rootAlias path.relations = some hops ∧ j ∈ hops

section Columns

variable {root : PlanRoot} {joins joins' : JoinPlan} {c : Column}

theorem Column.Routed.mono (h : joins <+: joins') {slots : Slot × Slot}
    (hc : c.Routed root joins slots) : c.Routed root joins' slots := by
  intro path hsource hselectable
  obtain ⟨hops, steps, last, hroute, hrest⟩ := hc path hsource hselectable
  exact ⟨hops, steps, last, JoinPlan.route_mono h hroute, hrest⟩

theorem Column.GoesOver.mono (h : joins <+: joins') {a : String} {j : PlannedJoin}
    (hc : c.GoesOver a joins j) : c.GoesOver a joins' j := by
  obtain ⟨path, hops, hsource, hselectable, hroute, hj⟩ := hc
  exact ⟨path, hops, hsource, hselectable, JoinPlan.route_mono h hroute, hj⟩

/-- **One column**: its slots are those of its route, and all joins that it adds lie on it. -/
theorem Draft.add_routed {d d' : Draft} (h : d.add root c = .ok d') :
    d.joins <+: d'.joins ∧
    (∃ slots, d'.search = d.search ++ [slots.1] ∧ d'.order = d.order ++ [slots.2] ∧
      c.Routed root d'.joins slots) ∧
    ∀ j ∈ d'.joins, j ∈ d.joins ∨ c.GoesOver root.aliasName d'.joins j := by
  by_cases hfield : ∃ path, c.source = .field path ∧ c.kind.isSelectable = true
  · obtain ⟨path, hsource, hselectable⟩ := hfield
    obtain ⟨w, identifier, hw, -, rfl⟩ := Draft.add_of_field hsource hselectable h
    obtain ⟨hops, steps, hroute, hwalk, hlast, hext, hadded⟩ := Walk.exists_route hw
    refine ⟨hext, ⟨(_, _), rfl, rfl, fun path' hsource' _ => ?_⟩, fun j hj => ?_⟩
    · cases hsource.symm.trans hsource'
      have hend : w.aliasName = JoinPlan.lastAlias root.aliasName hops := hlast
      exact ⟨hops, steps, w.entity, hroute, hwalk, by rw [← hend]; rfl, by rw [← hend]; rfl⟩
    · rcases hadded j hj with hj | hj
      · exact .inl hj
      · exact .inr ⟨path, hops, hsource, hselectable, hroute, hj⟩
  · have hrouted : ∀ joins slots, c.Routed root joins slots :=
      fun _ _ path hsource hselectable => absurd ⟨path, hsource, hselectable⟩ hfield
    obtain ⟨sql, data, -, -, rfl⟩ | ⟨path, w, identifier, hsource, hselectable, -, -⟩ | rfl :=
      Draft.add_cases h
    · exact ⟨List.prefix_refl _, ⟨(_, _), rfl, rfl, hrouted _ _⟩, fun j hj => .inl hj⟩
    · exact absurd ⟨path, hsource, hselectable⟩ hfield
    · exact ⟨List.prefix_refl _, ⟨(_, _), rfl, rfl, hrouted _ _⟩, fun j hj => .inl hj⟩

theorem Draft.foldlM_routed : ∀ {columns : List Column} {d d' : Draft},
    columns.foldlM (Draft.add root) d = .ok d' →
    d.joins <+: d'.joins ∧
    (∃ slots, d'.search = d.search ++ slots.map Prod.fst ∧
      d'.order = d.order ++ slots.map Prod.snd ∧
      List.Forall₂ (Column.Routed root d'.joins) columns slots) ∧
    ∀ j ∈ d'.joins, j ∈ d.joins ∨ ∃ c ∈ columns, c.GoesOver root.aliasName d'.joins j
  | [], d, d', h => by
    rw [List.foldlM_nil, pure_eq_ok] at h
    subst h
    exact ⟨List.prefix_refl _, ⟨[], by simp, by simp, .nil⟩, fun j hj => .inl hj⟩
  | c :: columns, d, d', h => by
    rw [List.foldlM_cons, bind_eq_ok] at h
    obtain ⟨d₁, hadd, hrest⟩ := h
    obtain ⟨hext₁, ⟨first, hsearch₁, horder₁, hrouted₁⟩, hadded₁⟩ := Draft.add_routed hadd
    obtain ⟨hext, ⟨slots, hsearch, horder, hrouted⟩, hadded⟩ := foldlM_routed hrest
    refine ⟨hext₁.trans hext, ⟨first :: slots, ?_, ?_, .cons (hrouted₁.mono hext) hrouted⟩,
      fun j hj => ?_⟩
    · rw [hsearch, hsearch₁, List.map_cons, List.append_assoc, List.singleton_append]
    · rw [horder, horder₁, List.map_cons, List.append_assoc, List.singleton_append]
    · rcases hadded j hj with hj | ⟨c', hc', hover⟩
      · rcases hadded₁ j hj with hj | hover
        · exact .inl hj
        · exact .inr ⟨c, List.mem_cons_self, hover.mono hext⟩
      · exact .inr ⟨c', List.mem_cons_of_mem c hc', hover⟩

theorem JoinPlan.Mapped.add {d d' : Draft} (h : d.add root c = .ok d')
    (hn : (root.aliasName :: d'.joins.aliases).Nodup) (hm : d.joins.Mapped root) :
    d'.joins.Mapped root := by
  obtain ⟨sql, data, -, -, rfl⟩ | ⟨path, w, identifier, -, -, hw, -, rfl⟩ | rfl := Draft.add_cases h
  · exact hm
  · have hstart : Walk.Mapped root ⟨d.joins, d.selection, root.aliasName, [], root.entity⟩ :=
      ⟨hm, .inl ⟨rfl, rfl⟩⟩
    exact (foldlM_invariant
      (fun w : Walk => (root.aliasName :: w.joins.aliases).Nodup → w.Mapped root) _
      (fun _ _ w w' ih hhop hn' =>
        (ih (JoinPlan.nodup_of_extended (Walk.prefix_of_hop hhop) hn')).hop hn' hhop)
      (fun _ => hstart) hw hn).joins
  · exact hm

theorem JoinPlan.Mapped.foldlM {columns : List Column} {d d' : Draft} (hm : d.joins.Mapped root)
    (hn : (root.aliasName :: d'.joins.aliases).Nodup)
    (h : columns.foldlM (Draft.add root) d = .ok d') : d'.joins.Mapped root :=
  foldlM_invariant
    (fun d : Draft => (root.aliasName :: d.joins.aliases).Nodup → d.joins.Mapped root) _
    (fun _ _ _ _ ih hadd hn' =>
      .add hadd hn' (ih (JoinPlan.nodup_of_extended (Draft.add_routed hadd).1 hn')))
    (fun _ => hm) h hn

theorem JoinPlan.nodup_keys_add {joins : JoinPlan} (h : (joins.map PlannedJoin.key).Nodup)
    (join : PlannedJoin) : ((joins.add join).1.map PlannedJoin.key).Nodup := by
  rcases joins.add_cases join with ⟨planned, -, -, heq⟩ | ⟨hnew, heq⟩
  · rwa [heq]
  · rw [heq, List.map_append, List.map_singleton]
    exact List.concat_eq_append ▸ h.concat hnew

theorem Draft.nodup_keys_add {d d' : Draft} (h : d.add root c = .ok d')
    (hn : (d.joins.map PlannedJoin.key).Nodup) : (d'.joins.map PlannedJoin.key).Nodup := by
  obtain ⟨sql, data, -, -, rfl⟩ | ⟨path, w, identifier, -, -, hw, -, rfl⟩ | rfl := Draft.add_cases h
  · exact hn
  · refine foldlM_invariant (fun w : Walk => (w.joins.map PlannedJoin.key).Nodup) _
      (fun _ _ w w' hn hhop => ?_) hn hw
    obtain ⟨join, hhop⟩ := Walk.exists_hopped hhop
    rw [hhop.joins]
    exact JoinPlan.nodup_keys_add hn join
  · exact hn

theorem Draft.nodup_keys_foldlM {columns : List Column} {d d' : Draft}
    (h : columns.foldlM (Draft.add root) d = .ok d') (hn : (d.joins.map PlannedJoin.key).Nodup) :
    (d'.joins.map PlannedJoin.key).Nodup :=
  foldlM_invariant (fun d : Draft => (d.joins.map PlannedJoin.key).Nodup) _
    (fun _ _ _ _ hn hadd => Draft.nodup_keys_add hadd hn) hn h

end Columns

/-! ### Plans -/

theorem Plan.overrideSlot_of_isSelectable (p : Plan) (registry : Registry) (ordering : Bool)
    {c : Column} (h : c.kind.isSelectable = true) (slot : Slot) :
    p.overrideSlot registry ordering c slot = slot := by
  simp [overrideSlot, Column.isVirtual, h]

theorem exists_getElem?_of_forall₂ {α β : Type} {R : α → β → Prop} {xs : List α} {ys : List β}
    (h : List.Forall₂ R xs ys) {i : Nat} {x : α} (hx : xs[i]? = some x) :
    ∃ y, ys[i]? = some y ∧ R x y := by
  obtain ⟨hi, rfl⟩ := List.getElem?_eq_some_iff.mp hx
  obtain ⟨hlength, hget⟩ := List.forall₂_iff_get.mp h
  exact ⟨_, List.getElem?_eq_getElem (hlength ▸ hi), hget i hi _⟩

/-- **The joins of a plan are the routes of its columns.** Take the plan of a table whose columns
were registered.

- No two joins have the same parent and relationship.
- If the aliases of the root and of the joins are different, every column with a field has a route
  of joins from the root along its relationships. They are made from the associations and the
  entities that registration went over, one by one, so their cardinalities are the chain of the
  column. What the column is searched and ordered by, if it can be, is the column of its field in
  the entity at the end, under the last alias of the route.
- Every join lies on the route of such a column. -/
theorem Table.routes_plan {t : Table} {rootAlias : String} {p : Plan} (hbuilt : t.registry.Built)
    (h : t.plan rootAlias = .ok p) :
    (p.joins.map PlannedJoin.key).Nodup ∧
    ((p.rootAlias :: p.joins.aliases).Nodup → ∀ c ∈ t.registry.columns, ∀ path,
      c.source = .field path → c.kind.isSelectable = true →
      ∃ root steps last hops, t.registry.root = .ok root ∧
        t.registry.schema.follow root path.relations = .ok (last, c.chain) ∧
        t.registry.schema.Walks root path.relations steps last ∧
        p.joins.route p.rootAlias path.relations = some hops ∧
        hops.length = path.relations.length ∧
        List.Forall₂ (fun j step => j.association = step.1 ∧ j.LeadsTo step.2) hops steps ∧
        hops.map (fun j => j.association.kind) = c.chain ∧
        p.search[c.index]? = some (slotIf c.searchable
          (.column (JoinPlan.lastAlias p.rootAlias hops) (last.columnFor path.field))) ∧
        p.order[c.index]? = some (slotIf c.orderable
          (.column (JoinPlan.lastAlias p.rootAlias hops) (last.columnFor path.field)))) ∧
    ∀ j ∈ p.joins, ∃ c ∈ t.registry.columns, c.GoesOver p.rootAlias p.joins j := by
  obtain ⟨root, d, hroot, -, hd, hrootAlias, hjoins, -, p₀, hsearch, horder⟩ := exists_draft h
  obtain ⟨-, ⟨slots, hsearches, horders, hrouted⟩, hover⟩ := Draft.foldlM_routed hd
  rw [List.nil_append] at hsearches horders
  rw [hjoins, hrootAlias]
  refine ⟨Draft.nodup_keys_foldlM hd List.nodup_nil, fun hn c hc path hsource hselectable => ?_,
    fun j hj => ?_⟩
  · have hempty : JoinPlan.Mapped ⟨t.registry.schema, root, rootAlias⟩ [] :=
      fun j hj => absurd hj List.not_mem_nil
    have hmapped := hempty.foldlM hn hd
    obtain ⟨positions, root', hroot', hresolved⟩ := hbuilt.sound
    obtain rfl := Except.ok.inj (hroot.symm.trans hroot')
    obtain ⟨last', type, hfollow, -⟩ := hresolved c hc path hsource hselectable
    obtain ⟨steps', hwalk', hchain⟩ := Schema.follow_eq_ok.mp hfollow
    obtain ⟨i, hi⟩ := List.getElem?_of_mem hc
    obtain ⟨slot, hslot, hcolumn⟩ := exists_getElem?_of_forall₂ hrouted hi
    obtain ⟨hops, steps, last, hroute, hwalk, hsearchSlot, horderSlot⟩ :=
      hcolumn path hsource hselectable
    -- planning and registration went the same way
    obtain ⟨rfl, rfl⟩ := hwalk.unique hwalk'
    have hindex := positions i c hi
    have hagree := hmapped.forall₂ hn (.inl ⟨rfl, rfl⟩) hroute hwalk
    refine ⟨root, steps, last, hops, hroot, hfollow, hwalk, hroute, JoinPlan.length_of_route hroute,
      hagree, ?_, ?_, ?_⟩
    · rw [hchain]
      rw [← List.forall₂_eq_eq_eq, List.forall₂_map_left_iff, List.forall₂_map_right_iff]
      exact hagree.imp fun j step hstep => congrArg Association.kind hstep.1
    · rw [hsearch, hsearches, hindex, List.getElem?_zipWith, hi, List.getElem?_map, hslot]
      exact congrArg some ((p₀.overrideSlot_of_isSelectable _ _ hselectable _).trans hsearchSlot)
    · rw [horder, horders, hindex, List.getElem?_zipWith, hi, List.getElem?_map, hslot]
      exact congrArg some ((p₀.overrideSlot_of_isSelectable _ _ hselectable _).trans horderSlot)
  · rcases hover j hj with hj | hcolumn
    · exact absurd hj List.not_mem_nil
    · exact hcolumn

/-! ### Posts with registered columns -/

/-- Posts with their authors and comments; comments have authors as well. -/
def blogSchema : Schema :=
  [("Comment",
    { name := "Comment", table := "comments", identifiers := ["id"]
      associations := [("author", .manyToOne "User" "author_id")] }),
    ("Post",
    { name := "Post", table := "posts", identifiers := ["id"]
      associations := [("author", .manyToOne "User" "author_id"),
        ("comments", .oneToMany "Comment" "post_id")] }),
    ("User",
    { name := "User", table := "users", identifiers := ["id"]
      fields := [("name", ⟨some "user_name", .string, false⟩)] })]

/-- A registry of posts with columns of some names. -/
def blogRegistry (names : List String) : Registry :=
  names.foldl (fun r name => (r.register (some name) .column .null none).1)
    ⟨blogSchema, "Post", [], []⟩

theorem built_blogRegistry (names : List String) : (blogRegistry names).Built := by
  have hcreate : Registry.create blogSchema "Post" = .ok ⟨blogSchema, "Post", [], []⟩ := rfl
  exact List.foldlRecOn names _ (.create hcreate)
    fun _ h name _ => h.register (some name) .column .null none

/-- Posts with the names of their authors and of the authors of their comments. -/
def blogTable : Table :=
  { name := "posts"
    registry := blogRegistry ["author.name", "comments.author.name"]
    settings := { } }

/-- The names of those who comment are searched behind two joins. -/
theorem Table.routes_plan_blog : ∃ p, blogTable.registry.Built ∧ blogTable.plan "post" = .ok p ∧
    (p.rootAlias :: p.joins.aliases).Nodup ∧
    ∃ c ∈ blogTable.registry.columns, c.source = .field ⟨["comments", "author"], "name", none⟩ ∧
      ∃ (last : Entity) (hops : List PlannedJoin),
        p.joins.route p.rootAlias ["comments", "author"] = some hops ∧
        hops.map (fun j => j.association.kind) = c.chain ∧
        p.search[c.index]? = some (slotIf c.searchable
          (.column (JoinPlan.lastAlias p.rootAlias hops) (last.columnFor "name"))) := by
  have hbuilt : blogTable.registry.Built := built_blogRegistry _
  obtain ⟨p, h, hn⟩ := exists_ok (x := blogTable.plan "post")
    (p := fun p => decide (p.rootAlias :: p.joins.aliases).Nodup) (by decide +kernel)
  have hcolumn : blogTable.registry.columns[1]?.any (fun c =>
      decide (c.source = .field ⟨["comments", "author"], "name", none⟩) && c.kind.isSelectable) =
        true := by decide +kernel
  obtain ⟨c, hc, hp⟩ := (Option.any_eq_true _ _).mp hcolumn
  rw [Bool.and_eq_true, decide_eq_true_eq] at hp
  have hmem := List.mem_of_getElem? hc
  obtain ⟨root, steps, last, hops, -, -, -, hroute, -, -, hkinds, hsearch, -⟩ :=
    (routes_plan hbuilt h).2.1 (of_decide_eq_true hn) c hmem _ hp.1 hp.2
  exact ⟨p, hbuilt, h, of_decide_eq_true hn, c, hmem, hp.1, last, hops, hroute, hkinds, hsearch⟩

end TableQuery
