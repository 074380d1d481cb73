import TableQuery.Proofs.Hydration.Selections
import TableQuery.Proofs.Hydration.Values
import TableQuery.Proofs.Plan.TidyNames

/-! # Keys of rows and records

A value of a row is found under its label, and a value of a record under the name of its field, of
its relationship or of its expression. Labels and names come from different sources, and nothing
keeps them apart: all of them are different exactly if the plan is unambiguous
(`Planned.nodup_keys_iff`), and then no value is overwritten. A plan is unambiguous if its table
keeps the names of fields, associations and expressions apart (`Table.unambiguous_plan`). A count of
the comments that is called like the comments themselves is overwritten by one of them
(`Planned.hydrate_counted`). -/

namespace TableQuery

open Outcome

/-! ### Names of a table -/

/-- The selected fields of a table. -/
def Plan.fieldsAt (p : Plan) (a : String) : List String := (p.selection.fieldsOf? a).getD []

/-- The relationships that start from a table. -/
def Plan.relationshipsAt (p : Plan) (a : String) : List String :=
  (p.joins.filter fun j => j.parent == a).map PlannedJoin.relationship

namespace Plan

variable {p : Plan} {a : String}

theorem mem_fieldsAt {field : String} : field ∈ p.fieldsAt a ↔ p.selection.Selects a field := by
  rw [fieldsAt]
  cases h : p.selection.fieldsOf? a <;> simp [Selection.Selects, h]

theorem mem_relationshipsAt {relation : String} :
    relation ∈ p.relationshipsAt a ↔ ∃ j ∈ p.joins, j.parent = a ∧ j.relationship = relation := by
  simp [relationshipsAt, and_assoc]

theorem nodup_fieldsAt (htables : p.selection.tables.Nodup) (honce : p.selection.Once)
    (a : String) : (p.fieldsAt a).Nodup := by
  rw [fieldsAt]
  cases hfields : p.selection.fieldsOf? a with
  | none => exact List.nodup_nil
  | some names => exact honce.names a names ((Selection.fieldsOf?_eq_some htables).mp hfields)

theorem nodup_relationshipsAt (hjoins : (p.joins.map PlannedJoin.key).Nodup) (a : String) :
    (p.relationshipsAt a).Nodup := by
  refine List.Nodup.of_map (Prod.mk a) ?_
  rw [relationshipsAt, List.map_map]
  have hkeys : (p.joins.filter fun j => j.parent == a).map (Prod.mk a ∘ PlannedJoin.relationship) =
      (p.joins.filter fun j => j.parent == a).map PlannedJoin.key := by
    refine List.map_congr_left fun j hj => ?_
    obtain rfl : j.parent = a := by simpa using (List.mem_filter.mp hj).2
    rfl
  rw [hkeys]
  exact hjoins.sublist (List.filter_sublist.map _)

end Plan

theorem Selection.rawAliases_sublist (s : Selection) :
    s.rawAliases.Sublist (s.flatMap SelectionEntry.labels) := by
  induction s with
  | nil => exact List.Sublist.refl _
  | cons entry s ih =>
    rw [List.flatMap_cons]
    cases entry with
    | fields a names => exact ih.trans (List.sublist_append_right _ _)
    | raw sql label => exact ih.cons_cons label

/-! ### Names of an object -/

namespace RecordTree

theorem child_mem_nodes {tree n : RecordTree} (hn : n ∈ tree.nodes) {c : Link × RecordTree}
    (hc : c ∈ n.children) : c.2 ∈ tree.nodes :=
  (perm_children tree).mem_iff.mpr (List.mem_cons_of_mem _
    (List.mem_flatMap.mpr ⟨n, hn, List.mem_map_of_mem hc⟩))

variable {p : Plan}

theorem fields_build (fuel : Nat) (a identifier : String) :
    (build p.joins p.selection fuel a identifier).fields = p.fieldsAt a := by
  cases fuel <;> rfl

theorem relationships_build (fuel : Nat) (a identifier : String) :
    (build p.joins p.selection (fuel + 1) a identifier).relationships = p.relationshipsAt a := by
  simp only [relationships, build, children, List.map_map]
  rfl

theorem names_build (fuel : Nat) (a identifier : String) :
    (build p.joins p.selection (fuel + 1) a identifier).names =
      p.fieldsAt a ++ p.relationshipsAt a := by
  rw [names, fields_build, relationships_build]

theorem names_sublist_of_mem_nodes : ∀ {fuel : Nat} {a identifier : String} {n : RecordTree},
    n ∈ (build p.joins p.selection fuel a identifier).nodes →
      n.names.Sublist (p.fieldsAt n.aliasName ++ p.relationshipsAt n.aliasName)
  | 0, a, identifier, n, hn => by
    obtain rfl : n = build p.joins p.selection 0 a identifier := by
      simpa [build, nodes, nodesBelow] using hn
    exact (List.Sublist.refl _).append (List.nil_sublist _)
  | fuel + 1, a, identifier, n, hn => by
    rw [nodes_eq] at hn
    rcases List.mem_cons.mp hn with rfl | hn
    · rw [aliasName_build, names_build]
    · obtain ⟨c, hc, hn⟩ := mem_nodesBelow.mp hn
      obtain ⟨j, -, rfl⟩ := List.mem_map.mp hc
      exact names_sublist_of_mem_nodes hn

/-- **Every joined table has a node**, even if two of them have the same alias: there is fuel left
for the joins behind it. -/
theorem exists_build_mem_nodes (hs : p.joins.StartsIn [p.rootAlias]) {x : String} :
    ∀ {before after : JoinPlan}, p.joins = before ++ after → x ∈ p.rootAlias :: before.aliases →
      ∃ fuel identifier, after.length ≤ fuel ∧
        build p.joins p.selection fuel x identifier ∈ (ofPlan p).nodes := by
  intro before
  induction before using List.reverseRecOn generalizing x with
  | nil =>
    intro after hsplit hx
    obtain rfl := List.mem_singleton.mp hx
    exact ⟨p.joins.length, p.rootIdentifier, by rw [hsplit, List.nil_append], self_mem_nodes _⟩
  | append_singleton before j ih =>
    intro after hsplit hx
    have hbefore : p.joins = before ++ j :: after := by simpa using hsplit
    simp only [JoinPlan.aliases, List.map_append, List.map_singleton, ← List.cons_append] at hx
    rcases List.mem_append.mp hx with hx | hx
    · obtain ⟨fuel, identifier, hfuel, hmem⟩ := ih hbefore hx
      exact ⟨fuel, identifier, Nat.le_of_succ_le hfuel, hmem⟩
    · obtain rfl := List.mem_singleton.mp hx
      have hparent := (JoinPlan.startsIn_concat.mp (hsplit ▸ hs).left).2
      obtain ⟨fuel, identifier, hfuel, hmem⟩ := ih hbefore hparent
      obtain ⟨fuel, rfl⟩ := Nat.exists_eq_add_one.mpr (Nat.zero_lt_of_lt hfuel)
      refine ⟨fuel, j.identifier, Nat.le_of_succ_le_succ hfuel, ?_⟩
      have hchild : (⟨j.relationship, j.isToMany⟩,
          build p.joins p.selection fuel j.aliasName j.identifier) ∈
            (build p.joins p.selection (fuel + 1) j.parent identifier).children :=
        List.mem_map.mpr ⟨j, List.mem_filter.mpr ⟨by simp [hbefore], by simp⟩, rfl⟩
      exact child_mem_nodes hmem hchild

theorem exists_node_of_join (hs : p.joins.StartsIn [p.rootAlias]) {j : PlannedJoin}
    (hj : j ∈ p.joins) :
    ∃ n ∈ (ofPlan p).nodes, n.names = p.fieldsAt j.parent ++ p.relationshipsAt j.parent := by
  obtain ⟨before, after, hsplit⟩ := List.append_of_mem hj
  have hsplit' : p.joins = (before ++ [j]) ++ after := by simpa using hsplit
  have hparent := (JoinPlan.startsIn_concat.mp (hsplit' ▸ hs).left).2
  obtain ⟨fuel, identifier, hfuel, hmem⟩ := exists_build_mem_nodes hs hsplit hparent
  obtain ⟨fuel, rfl⟩ := Nat.exists_eq_add_one.mpr (Nat.zero_lt_of_lt hfuel)
  exact ⟨_, hmem, names_build _ _ _⟩

theorem fields_ofPlan (p : Plan) : (ofPlan p).fields = p.fieldsAt p.rootAlias :=
  fields_build _ _ _

theorem relationships_ofPlan (p : Plan) :
    (ofPlan p).relationships = p.relationshipsAt p.rootAlias := by
  unfold ofPlan
  cases hlength : p.joins.length with
  | zero =>
    rw [Plan.relationshipsAt, List.eq_nil_of_length_eq_zero hlength]
    rfl
  | succ fuel => exact relationships_build fuel _ _

end RecordTree

theorem Table.nodup_keys_plan {t : Table} {rootAlias : String} {p : Plan}
    (h : t.plan rootAlias = .ok p) : (p.joins.map PlannedJoin.key).Nodup := by
  obtain ⟨root, d, -, -, hd, -, hjoins, -, -⟩ := exists_draft h
  rw [hjoins]
  exact Draft.nodup_keys_foldlM hd List.nodup_nil

namespace Plan

/-- Nothing that is selected has the label or the name of something else: the labels are apart, no
relationship is called like a selected field beside it, and no expression is called like a selected
field or a relationship of the root. -/
structure Unambiguous (p : Plan) : Prop where
  labels : p.selection.LabelsApart
  relationships : ∀ j ∈ p.joins, ¬ p.selection.Selects j.parent j.relationship
  expressionFields : ∀ label ∈ p.selection.rawAliases, ¬ p.selection.Selects p.rootAlias label
  expressionRelationships : ∀ label ∈ p.selection.rawAliases, ∀ j ∈ p.joins,
    j.parent = p.rootAlias → j.relationship ≠ label

variable {p : Plan}

theorem nodup_names_iff (htables : p.selection.tables.Nodup) (honce : p.selection.Once)
    (hjoins : (p.joins.map PlannedJoin.key).Nodup) (a : String) :
    (p.fieldsAt a ++ p.relationshipsAt a).Nodup ↔
      ∀ j ∈ p.joins, j.parent = a → ¬ p.selection.Selects a j.relationship := by
  rw [List.nodup_append, and_iff_right (nodup_fieldsAt htables honce a),
    and_iff_right (nodup_relationshipsAt hjoins a)]
  constructor
  · intro hapart j hj hparent hselects
    exact hapart _ (mem_fieldsAt.mpr hselects) _ (mem_relationshipsAt.mpr ⟨j, hj, hparent, rfl⟩) rfl
  · rintro hapart field hfield relation hrelation rfl
    obtain ⟨j, hj, hparent, rfl⟩ := mem_relationshipsAt.mp hrelation
    exact hapart j hj hparent (mem_fieldsAt.mp hfield)

theorem nodup_recordNames_iff : p.recordNames.Nodup ↔
    ((p.fieldsAt p.rootAlias ++ p.relationshipsAt p.rootAlias).Nodup ∧
      p.selection.rawAliases.Nodup) ∧
    (∀ label ∈ p.selection.rawAliases, ¬ p.selection.Selects p.rootAlias label) ∧
    ∀ label ∈ p.selection.rawAliases, ∀ j ∈ p.joins, j.parent = p.rootAlias →
      j.relationship ≠ label := by
  have hperm : p.recordNames.Perm
      ((p.fieldsAt p.rootAlias ++ p.relationshipsAt p.rootAlias) ++ p.selection.rawAliases) := by
    rw [recordNames, RecordTree.fields_ofPlan, RecordTree.relationships_ofPlan, List.append_assoc,
      List.append_assoc]
    exact List.perm_append_comm.append_left _
  rw [hperm.nodup_iff, List.nodup_append, and_assoc]
  refine and_congr_right fun _ => and_congr_right fun _ => ?_
  constructor
  · intro hapart
    refine ⟨fun label hlabel hselects => ?_, fun label hlabel j hj hparent => ?_⟩
    · exact hapart _ (List.mem_append_left _ (mem_fieldsAt.mpr hselects)) _ hlabel rfl
    · exact hapart _ (List.mem_append_right _ (mem_relationshipsAt.mpr ⟨j, hj, hparent, rfl⟩)) _
        hlabel
  · rintro ⟨hfields, hrelationships⟩ name hname label hlabel rfl
    rcases List.mem_append.mp hname with hfield | hrelation
    · exact hfields _ hlabel (mem_fieldsAt.mp hfield)
    · obtain ⟨j, hj, hparent, heq⟩ := mem_relationshipsAt.mp hrelation
      exact hrelationships _ hlabel j hj hparent heq

/-- **When labels and names are different**, for a plan that has everything once. -/
theorem nodup_iff_unambiguous (hstarts : p.joins.StartsIn [p.rootAlias])
    (htables : p.selection.tables.Nodup) (honce : p.selection.Once)
    (hjoins : (p.joins.map PlannedJoin.key).Nodup) :
    ((p.selection.flatMap SelectionEntry.labels).Nodup ∧ p.recordNames.Nodup ∧
      ∀ n ∈ (RecordTree.ofPlan p).nodes, n.names.Nodup) ↔ p.Unambiguous := by
  have hnames := nodup_names_iff htables honce hjoins
  constructor
  · rintro ⟨hlabels, hrecord, hnodes⟩
    obtain ⟨-, hfields, hrelationships⟩ := nodup_recordNames_iff.mp hrecord
    refine ⟨(honce.nodup_labels_iff htables).mp hlabels, fun j hj => ?_, hfields, hrelationships⟩
    obtain ⟨n, hn, heq⟩ := RecordTree.exists_node_of_join hstarts hj
    exact (hnames j.parent).mp (heq ▸ hnodes n hn) j hj rfl
  · intro h
    have hlabels := (honce.nodup_labels_iff htables).mpr h.labels
    have htable : ∀ a, (p.fieldsAt a ++ p.relationshipsAt a).Nodup := fun a =>
      (hnames a).mpr fun j hj hparent => hparent ▸ h.relationships j hj
    refine ⟨hlabels, nodup_recordNames_iff.mpr ⟨⟨htable _, ?_⟩, h.expressionFields,
      h.expressionRelationships⟩, fun n hn => (htable n.aliasName).sublist ?_⟩
    · exact hlabels.sublist (Selection.rawAliases_sublist _)
    · exact RecordTree.names_sublist_of_mem_nodes hn

end Plan

/-! ### Names that are kept apart -/

/-- No association of the entity is called like a field or an identifier. -/
def Entity.NamesApart (e : Entity) : Prop := ∀ entry ∈ e.associations, ¬ e.Has entry.1

instance (e : Entity) (name : String) : Decidable (e.Has name) :=
  inferInstanceAs (Decidable (name ∈ e.identifiers ∨ e.hasField name = true))

instance (e : Entity) : Decidable e.NamesApart :=
  inferInstanceAs (Decidable (∀ entry ∈ e.associations, ¬ e.Has entry.1))

/-- The names of a table are kept apart: those of the root, of the relationships and of the
expressions have single underscores, no association of an entity is called like a field of it, and
an expression is called neither like a field or an association of the root nor like another
expression. -/
structure Table.NamesApart (t : Table) (root : Entity) : Prop where
  rootName : IsTidyName root.shortName
  relations : ∀ relation, t.Follows relation → IsTidyName relation
  entities : ∀ entry ∈ t.registry.schema, entry.2.NamesApart
  labels : ∀ c ∈ t.registry.columns, ∀ sql label, c.Shows sql label →
    HasSingleUnderscores label ∧ ¬ root.Has label ∧ root.hasAssociation label = false
  expressions : ∀ c ∈ t.registry.columns, ∀ c' ∈ t.registry.columns, ∀ sql sql' label,
    c.Shows sql label → c'.Shows sql' label → sql = sql'

/-- No association that can be followed is called like a field or an identifier. -/
theorem Entity.NamesApart.not_has {e : Entity} (h : e.NamesApart) {name : String} {a : Association}
    (ha : e.association name = .ok a) : ¬ e.Has name :=
  h _ (Keyed.mem_of_get? (Entity.association_eq_ok.mp ha))

theorem Entity.hasAssociation_of_association {e : Entity} {name : String} {a : Association}
    (h : e.association name = .ok a) : e.hasAssociation name = true :=
  Option.isSome_iff_exists.mpr ⟨a, Entity.association_eq_ok.mp h⟩

namespace Table.NamesApart

variable {t : Table} {root : Entity} {p : Plan}

theorem singleUnderscores (ht : t.NamesApart root)
    (h : t.plan (safeAlias root.shortName) = .ok p) :
    ∀ a ∈ p.rootAlias :: p.joins.aliases, HasSingleUnderscores a := by
  obtain ⟨hroot, -⟩ := sound_plan h
  intro a ha
  rcases List.mem_cons.mp ha with rfl | ha
  · rw [hroot]
    exact ht.rootName.safeAlias
  · obtain ⟨j, hj, rfl⟩ := List.mem_map.mp ha
    obtain ⟨names, hne, hnames, halias⟩ := madeOf_plan h j hj
    rw [halias]
    have htidy := fun name hname => ht.relations name (hnames name hname)
    exact (isTidyName_intercalate hne htidy).safeAlias

/-- **The labels are apart**: the label of a field is cut at its double underscore, and that of an
expression has none. -/
theorem labelsApart (ht : t.NamesApart root) (h : t.plan (safeAlias root.shortName) = .ok p) :
    p.selection.LabelsApart := by
  have hselected := selected_plan h
  have hsingle : ∀ {a field}, p.selection.Selects a field → HasSingleUnderscores a := by
    rintro a field ⟨names, hnames, -⟩
    have hentry := (Selection.fieldsOf?_eq_some hselected.nodup).mp hnames
    exact ht.singleUnderscores h a (hselected.tables a (List.mem_filterMap.mpr ⟨_, hentry, rfl⟩))
  refine ⟨fun a b field field' ha hb => alias_eq_of_fieldLabel_eq (hsingle ha) (hsingle hb),
    fun sql sql' label hraw hraw' => ?_, fun a field hselects hlabel => ?_⟩
  · obtain ⟨c, hc, text, hshows, rfl⟩ := exists_column_of_raw h hraw
    obtain ⟨c', hc', text', hshows', rfl⟩ := exists_column_of_raw h hraw'
    rw [ht.expressions c hc c' hc' text text' label hshows hshows']
  · obtain ⟨c, hc, sql, hshows⟩ := exists_column_of_rawAlias h hlabel
    exact fieldLabel_ne (ht.labels c hc sql _ hshows).1 rfl

theorem behind (ht : t.NamesApart root) (hroot : t.registry.root = .ok root) {rootAlias a : String}
    {joins : JoinPlan} {e : Entity} (he : joins.Behind ⟨t.registry.schema, root, rootAlias⟩ a e) :
    e.NamesApart := by
  obtain ⟨-, rfl⟩ | ⟨j, -, -, hj⟩ := he
  · exact ht.entities _ (Keyed.mem_of_get? (Schema.entity_eq_ok.mp hroot))
  · exact ht.entities _ (Keyed.mem_of_get? (Schema.entity_eq_ok.mp hj))

end Table.NamesApart

/-- **A table that keeps its names apart has an unambiguous plan**, if the aliases are different. -/
theorem Table.unambiguous_plan {t : Table} {root : Entity} {p : Plan}
    (hroot : t.registry.root = .ok root)
    (hresolved : ∀ c ∈ t.registry.columns, c.Resolved t.registry.schema root)
    (h : t.plan (safeAlias root.shortName) = .ok p) (hn : (p.rootAlias :: p.joins.aliases).Nodup)
    (ht : t.NamesApart root) : p.Unambiguous := by
  obtain ⟨hmapped, hfields⟩ := fieldsOf_plan h hroot hresolved hn
  -- one entity stands behind the root, and behind the parent of a join
  have hbehind : ∀ {a e e'}, p.joins.Behind ⟨t.registry.schema, root, p.rootAlias⟩ a e →
      p.joins.Behind ⟨t.registry.schema, root, p.rootAlias⟩ a e' → e = e' :=
    fun he he' => he.unique hn he'
  have hstart : p.joins.Behind ⟨t.registry.schema, root, p.rootAlias⟩ p.rootAlias root :=
    .inl ⟨rfl, rfl⟩
  refine ⟨ht.labelsApart h, fun j hj hselects => ?_, fun label hlabel hselects => ?_,
    fun label hlabel j hj hparent heq => ?_⟩
  · obtain ⟨e, target, he, hassociation, -⟩ := hmapped j hj
    obtain ⟨e', he', hfield⟩ := hfields _ _ hselects
    obtain rfl := hbehind he he'
    exact (ht.behind hroot he).not_has hassociation hfield
  · obtain ⟨c, hc, sql, hshows⟩ := exists_column_of_rawAlias h hlabel
    obtain ⟨e, he, hfield⟩ := hfields _ _ hselects
    obtain rfl := hbehind hstart he
    exact (ht.labels c hc sql label hshows).2.1 hfield
  · obtain ⟨c, hc, sql, hshows⟩ := exists_column_of_rawAlias h hlabel
    obtain ⟨e, target, he, hassociation, -⟩ := hmapped j hj
    obtain rfl := hbehind hstart (hparent ▸ he)
    have hnone := (ht.labels c hc sql label hshows).2.2
    rw [← heq, Entity.hasAssociation_of_association hassociation] at hnone
    cases hnone

/-! ### The page of a request -/

namespace Planned

variable {p : Planned}

/-- **No two selected values have one key** exactly if the plan is unambiguous. The labels of what
the page selects are different, and so are the fields, the expressions and the relationships of a
record and the fields and the relationships of every object in it. Then records, which there are if
the tree of the plan has an end (`Plan.hasTree`), hold the values of rows, of which none is
overwritten. A plan is unambiguous if its table keeps its names apart and the aliases are
different. -/
theorem nodup_keys_iff {t : Table} {request : Request} {planner : Planner}
    (hcreate : Planner.create t request = .ok planner) (hplan : planner.plan = .ok p) :
    ((∀ q, (p.pageQuery q).select = q.select ++ p.selectItems) ∧
      ((p.selectItems.map SelectItem.alias?).Nodup ∧ p.plan.recordNames.Nodup ∧
        (∀ n ∈ (RecordTree.ofPlan p.plan).nodes, n.names.Nodup) ↔ p.plan.Unambiguous)) ∧
    (p.plan.Unambiguous → ∀ rows, ∀ r ∈ p.plan.hydrate rows,
      (RecordTree.ofPlan p.plan).HoldsRecord rows p.plan.selection.rawAliases r) ∧
    (t.registry.Built → ∀ root, t.registry.root = .ok root → t.NamesApart root →
      (p.plan.rootAlias :: p.plan.joins.aliases).Nodup → p.plan.Unambiguous) := by
  obtain ⟨root, hroot, hplanned, -, -⟩ := exists_root hcreate hplan
  obtain ⟨-, hsound⟩ := Table.sound_plan hplanned
  have hselected := Table.selected_plan hplanned
  have hiff := Plan.nodup_iff_unambiguous hsound.starts hselected.nodup (Table.once_plan hplanned)
    (Table.nodup_keys_plan hplanned)
  refine ⟨⟨select_pageQuery, ?_⟩, fun hunambiguous rows r hr => ?_,
    fun hbuilt root' hroot' hnames hn => ?_⟩
  · rw [map_alias_selectItems, List.nodup_map_iff (Option.some_injective _)]
    exact hiff
  · obtain ⟨-, hrecord, hobjects⟩ := hiff.mpr hunambiguous
    exact Plan.holdsRecord_of_mem_hydrate hrecord hobjects hr
  · obtain rfl := Except.ok.inj (hroot'.symm.trans hroot)
    obtain ⟨root'', hroot'', hresolved⟩ := hbuilt.sound.resolved
    obtain rfl := Except.ok.inj (hroot''.symm.trans hroot)
    exact Table.unambiguous_plan hroot hresolved hplanned hn hnames

/-- The number of comments of a post. -/
def commentCount : String := "(SELECT COUNT(c.id) FROM comments c WHERE c.post_id = post.id)"

/-- Posts with those who comment on them, and with the number of comments under a label. -/
def countedTable (label : String) : Table :=
  { blogTable with
    registry := ((blogRegistry ["comments.author.name"]).register (some label) .column
      (Json.object [("dql", .str commentCount)]) none).1 }

theorem built_countedTable (label : String) : (countedTable label).registry.Built :=
  (built_blogRegistry ["comments.author.name"]).register (some label) .column _ none

/-- The number of comments has a name of its own. -/
theorem nodup_keys_iff_counted : ∃ planner p,
    Planner.create (countedTable "comment_count") { } = .ok planner ∧ planner.plan = .ok p ∧
    p.plan.Unambiguous ∧ p.plan.recordNames = ["id", "comment_count", "comments"] ∧
    (p.selectItems.map SelectItem.alias?).Nodup ∧
    ∀ rows, ∀ r ∈ p.plan.hydrate rows,
      (RecordTree.ofPlan p.plan).HoldsRecord rows ["comment_count"] r := by
  obtain ⟨planner, hcreate, h⟩ := exists_ok (x := Planner.create (countedTable "comment_count") { })
    (p := fun planner => planner.plan.toOption.any fun p : Planned =>
      decide ((p.plan.rootAlias :: p.plan.joins.aliases).Nodup ∧
        p.plan.recordNames = ["id", "comment_count", "comments"] ∧
        p.plan.selection.rawAliases = ["comment_count"])) (by decide +kernel)
  obtain ⟨p, hplan, h⟩ := exists_ok h
  obtain ⟨hn, hrecord, hraw⟩ := of_decide_eq_true h
  obtain ⟨root, hroot, h⟩ := exists_ok (x := (countedTable "comment_count").registry.root)
    (p := fun root => decide (IsTidyName root.shortName ∧ ¬ root.Has "comment_count" ∧
      root.hasAssociation "comment_count" = false)) (by decide +kernel)
  obtain ⟨hrootName, hroot'⟩ := of_decide_eq_true h
  have hcolumns : ∀ c ∈ (countedTable "comment_count").registry.columns,
      c.source = .field ⟨["comments", "author"], "name", none⟩ ∨
      c.source = .expression commentCount ∧ c.data = some ⟨[], "comment_count", none⟩ := by
    decide +kernel
  have hshows : ∀ c ∈ (countedTable "comment_count").registry.columns, ∀ sql label,
      c.Shows sql label → sql = commentCount ∧ label = "comment_count" := by
    rintro c hc sql label ⟨data, hsource, hdata, rfl⟩
    obtain heq | ⟨heq, hdata'⟩ := hcolumns c hc
    · cases heq.symm.trans hsource
    · obtain rfl := Option.some.inj (hdata'.symm.trans hdata)
      exact ⟨(ColumnSource.expression.inj (heq.symm.trans hsource)).symm, by decide +kernel⟩
  have hnames : (countedTable "comment_count").NamesApart root := by
    refine ⟨hrootName, fun relation h => ?_, by decide +kernel, fun c hc sql label h => ?_,
      fun c hc c' hc' sql sql' label h h' => ?_⟩
    · obtain ⟨c, hc, path, hsource, hrelation⟩ := h
      have hrelations : relation ∈ ["comments", "author"] := by
        obtain heq | ⟨heq, -⟩ := hcolumns c hc <;> rw [heq] at hsource <;> cases hsource
        exact hrelation
      rcases List.mem_pair.mp hrelations with rfl | rfl <;> decide +kernel
    · obtain ⟨-, rfl⟩ := hshows c hc sql label h
      exact ⟨by decide +kernel, hroot'⟩
    · rw [(hshows c hc sql label h).1, (hshows c' hc' sql' label h').1]
  obtain ⟨⟨-, hiff⟩, hholds, hunambiguous⟩ := nodup_keys_iff hcreate hplan
  have hplanned := hunambiguous (built_countedTable _) root hroot hnames hn
  rw [hraw] at hholds
  exact ⟨planner, p, hcreate, hplan, hplanned, hrecord, (hiff.mpr hplanned).1, hholds hplanned⟩

/-- A post with two comments, as a row says it of one of them. -/
def countedRow (comment : Json) : Record :=
  [("comments", .int 2), ("comments__id", comment), ("comments_author__id", .null),
    ("comments_author__name", .null), ("post__id", .int 1)]

/-- The post with its first comment in place of the list of comments. -/
def overwrittenRecord : Json :=
  .object [("comments", .object [("author", .null), ("id", .int 10)]), ("id", .int 1)]

/-- **A count of the comments under their name**: the first comment of a post stands in place of the
count and of the list of comments. -/
theorem hydrate_counted : ∃ planner p, (countedTable "comments").registry.Built ∧
    Planner.create (countedTable "comments") { } = .ok planner ∧ planner.plan = .ok p ∧
    (∃ c, p.page = .ok c) ∧ ¬ p.plan.recordNames.Nodup ∧
    Json.sameItems ((p.plan.hydrate [countedRow (.int 10), countedRow (.int 11)]).map .obj)
      [overwrittenRecord] = true := by
  obtain ⟨planner, hcreate, h⟩ := exists_ok (x := Planner.create (countedTable "comments") { })
    (p := fun planner => planner.plan.toOption.any fun p : Planned =>
      p.page.toOption.any (fun _ => true) && decide (¬ p.plan.recordNames.Nodup) &&
        Json.sameItems ((p.plan.hydrate [countedRow (.int 10), countedRow (.int 11)]).map .obj)
          [overwrittenRecord]) (by decide +kernel)
  obtain ⟨p, hplan, h⟩ := exists_ok h
  rw [Bool.and_eq_true, Bool.and_eq_true, decide_eq_true_eq] at h
  obtain ⟨⟨hpage, hnames⟩, hrecords⟩ := h
  obtain ⟨c, hc, -⟩ := exists_ok hpage
  exact ⟨planner, p, built_countedTable _, hcreate, hplan, ⟨c, hc⟩, hnames, hrecords⟩

end Planned

end TableQuery
