import TableQuery.Proofs.Plan.Routes

/-! # The entities behind the aliases

A plan keeps no entities, only their names: the entity behind an alias is looked up by the name that
the root or the join with the alias has. For a schema that finds its entities under their own names
(`Schema.IsNamed`) the look-up gives back what planning went over
(`Plan.mappedEntity?_of_behind`), as long as an alias stands for one table. In particular the entity
behind the last alias of a column's route is the one that has the column's field
(`Table.slots_plan`). -/

namespace TableQuery

open Outcome

/-! ### Entities under their names -/

/-- Every entity that is found under a name has that name. -/
def Schema.IsNamed (s : Schema) : Prop := ∀ name e, Keyed.get? s name = some e → e.name = name

/-- **A schema that is made of entities finds them under their own names.** -/
theorem Schema.isNamed_ofEntities (entities : List Entity) : (ofEntities entities).IsNamed := by
  refine List.foldlRecOn (motive := Schema.IsNamed) _ _ (fun _ _ h => nomatch h) ?_
  rintro s hs entry hentry name e he
  obtain ⟨e', -, rfl⟩ := List.mem_map.mp hentry
  rw [Keyed.get?_insert] at he
  split_ifs at he with hname
  · rw [← Option.some.inj he, hname]
  · exact hs name e he

namespace JoinPlan

variable {root : PlanRoot} {joins : JoinPlan}

/-- **The entity at the end of a walk stands behind the last alias of its route.** -/
theorem Behind.lastAlias : ∀ {relations : List String} {a : String} {e last : Entity}
    {hops : List PlannedJoin} {steps : List (Association × Entity)}, joins.Behind root a e →
    joins.route a relations = some hops → root.schema.Walks e relations steps last →
    List.Forall₂ (fun j step => j.association = step.1 ∧ j.LeadsTo step.2) hops steps →
    joins.Behind root (JoinPlan.lastAlias a hops) last
  | [], _, _, _, _, _, hbehind, hroute, hwalk, _ => by
    cases hroute
    cases hwalk
    exact hbehind
  | relation :: relations, _, _, _, _, _, _, hroute, hwalk, hagree => by
    cases hwalk with
    | cons _ hnext hrest =>
      obtain ⟨j, rest, hj, hafter, rfl⟩ := route_cons.mp hroute
      obtain ⟨⟨rfl, -⟩, hafterward⟩ := List.forall₂_cons.mp hagree
      have hbehind : joins.Behind root j.aliasName _ := .inr ⟨j, (find?_eq_some hj).1, rfl, hnext⟩
      have hlast := Behind.lastAlias hbehind hafter hrest hafterward
      exact hlast

end JoinPlan

/-! ### Entities of a plan -/

theorem JoinPlan.byAlias?_of_mem {joins : JoinPlan} (hn : joins.aliases.Nodup) {j : PlannedJoin}
    (hj : j ∈ joins) : joins.byAlias? j.aliasName = some j := by
  obtain ⟨i, hi⟩ := Option.isSome_iff_exists.mp (List.find?_isSome.mpr
    ⟨j, hj, beq_self_eq_true j.aliasName⟩ :
      (List.find? (fun i : PlannedJoin => i.aliasName == j.aliasName) joins).isSome)
  have hsame : i.aliasName = j.aliasName := by simpa using List.find?_some hi
  rw [byAlias?, hi, List.inj_on_of_nodup_map hn (List.mem_of_find?_eq_some hi) hj hsame]

theorem Plan.mappedEntity?_of_behind {p : Plan} {schema : Schema} {root : Entity}
    (hnamed : schema.IsNamed) (hroot : Keyed.get? schema root.name = some root)
    (hentity : p.rootEntity = root.name)
    (hm : p.joins.Mapped ⟨schema, root, p.rootAlias⟩) (hn : (p.rootAlias :: p.joins.aliases).Nodup)
    {a : String} {e : Entity} (h : p.joins.Behind ⟨schema, root, p.rootAlias⟩ a e) :
    p.mappedEntity? schema a = some e := by
  obtain ⟨hapart, haliases⟩ := List.nodup_cons.mp hn
  obtain ⟨ha, he⟩ | ⟨j, hj, rfl, htarget⟩ := h
  · dsimp only at ha he
    rw [mappedEntity?, entityOf?, if_pos ha, hentity, Option.bind_some, hroot, he]
  · have hother : j.aliasName ≠ p.rootAlias := fun heq =>
      hapart (heq ▸ List.mem_map_of_mem hj)
    obtain ⟨_, target, -, -, htarget', hleads⟩ := hm j hj
    obtain rfl := Except.ok.inj (htarget.symm.trans htarget')
    have hfound := Schema.entity_eq_ok.mp htarget
    rw [mappedEntity?, entityOf?, if_neg hother, JoinPlan.byAlias?_of_mem haliases hj,
      Option.map_some, Option.bind_some, hleads.entity, hnamed _ _ hfound, hfound]

theorem Table.mapped_plan {t : Table} {rootAlias : String} {p : Plan}
    (h : t.plan rootAlias = .ok p) (hn : (p.rootAlias :: p.joins.aliases).Nodup) :
    ∃ root, t.registry.root = .ok root ∧ p.rootEntity = root.name ∧
      p.joins.Mapped ⟨t.registry.schema, root, p.rootAlias⟩ := by
  obtain ⟨root, identifier, d, hroot, -, hd, p₀, rfl, rfl⟩ := plan_eq_ok.mp h
  have hempty : JoinPlan.Mapped ⟨t.registry.schema, root, rootAlias⟩ [] :=
    fun j hj => absurd hj List.not_mem_nil
  exact ⟨root, hroot, rfl, hempty.foldlM hn hd⟩

/-- **What a column with a field is searched and ordered by**, if it can be, is the column of its
field in the entity that is looked up by the last alias of its route. -/
theorem Table.slots_plan {t : Table} {rootAlias : String} {p : Plan} (hbuilt : t.registry.Built)
    (hnamed : t.registry.schema.IsNamed) (h : t.plan rootAlias = .ok p)
    (hn : (p.rootAlias :: p.joins.aliases).Nodup) {c : Column} (hc : c ∈ t.registry.columns)
    {path : DataPath} (hsource : c.source = .field path)
    (hselectable : c.kind.isSelectable = true) : ∃ root last hops, t.registry.root = .ok root ∧
      t.registry.schema.follow root path.relations = .ok (last, c.chain) ∧
      p.joins.route p.rootAlias path.relations = some hops ∧
      p.mappedEntity? t.registry.schema (JoinPlan.lastAlias p.rootAlias hops) = some last ∧
      p.search[c.index]? = some (slotIf c.searchable
        (.column (JoinPlan.lastAlias p.rootAlias hops) (last.columnFor path.field))) ∧
      p.order[c.index]? = some (slotIf c.orderable
        (.column (JoinPlan.lastAlias p.rootAlias hops) (last.columnFor path.field))) := by
  obtain ⟨root, steps, last, hops, hroot, hfollow, hwalk, hroute, -, hagree, -, hsearch, horder⟩ :=
    (routes_plan hbuilt h).2.1 hn c hc path hsource hselectable
  obtain ⟨root', hroot', hentity, hmapped⟩ := mapped_plan h hn
  obtain rfl := Except.ok.inj (hroot.symm.trans hroot')
  have hfound := Schema.entity_eq_ok.mp hroot
  have hbehind : p.joins.Behind ⟨t.registry.schema, root, p.rootAlias⟩
      (JoinPlan.lastAlias p.rootAlias hops) last :=
    JoinPlan.Behind.lastAlias (.inl ⟨rfl, rfl⟩) hroute hwalk hagree
  exact ⟨root, last, hops, hroot, hfollow, hroute,
    p.mappedEntity?_of_behind hnamed (by rw [hnamed _ _ hfound, hfound]) hentity hmapped hn hbehind,
    hsearch, horder⟩

end TableQuery
