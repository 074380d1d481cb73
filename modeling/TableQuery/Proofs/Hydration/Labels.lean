import TableQuery.Proofs.Hydration.Nested
import TableQuery.Proofs.Hydration.Nodes
import TableQuery.Proofs.Plan.Queries
import TableQuery.Proofs.Plan.Routes

/-! # The labels of a row

The rows of a page come back with one value under each label of the select list, and records are
nested from the values under the labels that the tree of the joins asks for (`Plan.rowLabels`). A
label that is asked for and not selected would silently be null. It does not happen: both are the
same labels (`Planned.rowLabels_selectItems`).

The selection has the fields of each table at most once, its tables are the root and the joined
ones, and the identifiers of all tables are selected. Every hop and every column keeps this
(`Walk.Selected.hop`, `JoinPlan.Selected.add`). Since the tree has a node for each of these tables,
its nodes ask for what is selected. Nothing else is read (`Plan.hydrate_congr`). -/

namespace TableQuery

open Outcome

/-! ### The tables of a selection -/

namespace Selection

/-- The aliases of the tables whose fields are selected. -/
def tables (s : Selection) : List String :=
  s.filterMap fun
    | .fields a _ => some a
    | .raw _ _ => none

theorem fieldsOf?_eq_none {s : Selection} {a : String} : s.fieldsOf? a = none ↔ a ∉ s.tables := by
  simp only [fieldsOf?, List.findSome?_eq_none_iff, tables, List.mem_filterMap, not_exists, not_and]
  refine forall₂_congr fun entry _ => ?_
  cases entry <;> simp

theorem tables_addField (s : Selection) (a field : String) :
    (s.addField a field).tables = if a ∈ s.tables then s.tables else s.tables ++ [a] := by
  obtain ⟨hnone, heq⟩ | ⟨before, names, after, rfl, -, heq⟩ := s.addField_cases a field
  · rw [heq, if_neg (fieldsOf?_eq_none.mp hnone)]
    simp [tables]
  · rw [heq, if_pos (by simp [tables])]
    simp [tables]

theorem tables_addRaw (s : Selection) (sql label : String) :
    (s.addRaw sql label).tables = s.tables := by
  unfold addRaw
  split_ifs
  · rfl
  · simp [tables]

theorem fieldsOf?_eq_some {s : Selection} (hn : s.tables.Nodup) {a : String} {names : List String} :
    s.fieldsOf? a = some names ↔ .fields a names ∈ s := by
  induction s with
  | nil => simp [fieldsOf?]
  | cons entry s ih =>
    cases entry with
    | raw sql b =>
      rw [fieldsOf?_cons_raw, ih hn]
      simp
    | fields b names' =>
      obtain ⟨hb, hn⟩ := List.nodup_cons.mp (show (b :: tables s).Nodup from hn)
      have hother : ∀ names, .fields b names ∉ s := fun names hmem =>
        hb (List.mem_filterMap.mpr ⟨_, hmem, rfl⟩)
      rw [fieldsOf?_cons_fields]
      split_ifs with hba
      · subst hba
        simp [hother, eq_comm]
      · rw [ih hn]
        simp [Ne.symm hba]

end Selection

/-! ### What planning selects -/

/-- The selection has one entry for the fields of a table, its tables are the root and the joined
ones, and the identifier of the root is selected. -/
structure JoinPlan.Selected (root identifier : String) (joins : JoinPlan) (selection : Selection) :
    Prop where
  tables : ∀ a ∈ selection.tables, a ∈ root :: joins.aliases
  nodup : selection.tables.Nodup
  root : selection.Selects root identifier

namespace JoinPlan.Selected

variable {root identifier : String} {joins joins' : JoinPlan} {selection : Selection}

theorem mono (h : Selected root identifier joins selection) (hext : joins <+: joins') :
    Selected root identifier joins' selection := by
  refine ⟨fun a ha => ?_, h.nodup, h.root⟩
  rcases List.mem_cons.mp (h.tables a ha) with rfl | ha
  · exact List.mem_cons_self
  · exact List.mem_cons_of_mem _ ((aliases_mono hext).subset ha)

theorem addField (h : Selected root identifier joins selection) {a : String}
    (ha : a ∈ root :: joins.aliases) (field : String) :
    Selected root identifier joins (selection.addField a field) := by
  refine ⟨fun b hb => ?_, ?_, h.root.addField a field⟩
  · rw [Selection.tables_addField] at hb
    split_ifs at hb with hmem
    · exact h.tables b hb
    · rcases List.mem_append.mp hb with hb | hb
      · exact h.tables b hb
      · rwa [List.mem_singleton.mp hb]
  · rw [Selection.tables_addField]
    split_ifs with hmem
    · exact h.nodup
    · exact List.concat_eq_append ▸ h.nodup.concat hmem

theorem addRaw (h : Selected root identifier joins selection) (sql label : String) :
    Selected root identifier joins (selection.addRaw sql label) := by
  have htables := selection.tables_addRaw sql label
  exact ⟨htables ▸ h.tables, htables ▸ h.nodup, h.root.addRaw sql label⟩

end JoinPlan.Selected

theorem Walk.Selected.hop {root identifier : String} {schema : Schema} {kind : JoinKind}
    {w w' : Walk} {relation : String} (hw : JoinPlan.Selected root identifier w.joins w.selection)
    (hreached : w'.aliasName ∈ root :: w'.joins.aliases)
    (h : w.hop schema kind relation = .ok w') :
    JoinPlan.Selected root identifier w'.joins w'.selection := by
  have hext := prefix_of_hop h
  obtain ⟨join, h⟩ := exists_hopped h
  rw [h.selection, ← h.reached]
  exact (hw.mono hext).addField hreached _

theorem JoinPlan.Selected.add {root : PlanRoot} {identifier : String} {d d' : Draft} {c : Column}
    (hs : JoinPlan.Sound root.aliasName d.joins d.selection)
    (hd : JoinPlan.Selected root.aliasName identifier d.joins d.selection)
    (h : d.add root c = .ok d') :
    JoinPlan.Selected root.aliasName identifier d'.joins d'.selection := by
  obtain ⟨sql, data, -, -, rfl⟩ | ⟨path, w, identifier', -, -, hw, -, rfl⟩ | rfl :=
    Draft.add_cases h
  · exact hd.addRaw _ _
  · obtain ⟨hsound, hselected⟩ := foldlM_invariant (fun w : Walk => w.Sound root.aliasName ∧
        JoinPlan.Selected root.aliasName identifier w.joins w.selection) _
      (fun _ _ _ _ hw hhop => ⟨hw.1.hop hhop, Walk.Selected.hop hw.2 (hw.1.hop hhop).reached hhop⟩)
      ⟨⟨hs, List.mem_cons_self⟩, hd⟩ hw
    exact (hselected.addField hsound.reached _).addField hsound.reached _
  · exact hd

/-- **What a plan selects.** -/
theorem Table.selected_plan {t : Table} {rootAlias : String} {p : Plan}
    (h : t.plan rootAlias = .ok p) :
    JoinPlan.Selected p.rootAlias p.rootIdentifier p.joins p.selection := by
  obtain ⟨root, d, -, -, hd, hroot, hjoins, hselection, -⟩ := exists_draft h
  rw [hroot, hjoins, hselection]
  have hstart : JoinPlan.Selected rootAlias p.rootIdentifier []
      (Selection.addField [] rootAlias p.rootIdentifier) :=
    ⟨fun a ha => ha, List.nodup_singleton _, Selection.selects_addField _ _ _⟩
  have hsound : JoinPlan.Sound rootAlias [] (Selection.addField [] rootAlias p.rootIdentifier) :=
    ⟨trivial, by simp⟩
  exact (foldlM_invariant (fun d : Draft => JoinPlan.Sound rootAlias d.joins d.selection ∧
      JoinPlan.Selected rootAlias p.rootIdentifier d.joins d.selection) _
    (fun _ _ _ _ hs hadd => ⟨JoinPlan.Sound.add hs.1 hadd, .add hs.1 hs.2 hadd⟩)
    ⟨hsound, hstart⟩ hd).2

/-! ### Labels -/

/-- The labels that a node reads: of its identifier and of its fields. -/
def RecordTree.labels (tree : RecordTree) : List String :=
  fieldLabel tree.aliasName tree.identifier :: tree.fields.map (fieldLabel tree.aliasName)

/-- The labels that are read of a row: those of all nodes, and those of the expressions. -/
def Plan.rowLabels (p : Plan) : List String :=
  (RecordTree.ofPlan p).nodes.flatMap RecordTree.labels ++ p.selection.rawAliases

/-- The labels of an entry of the selection. -/
def SelectionEntry.labels : SelectionEntry → List String
  | .fields aliasName names => names.map (fieldLabel aliasName)
  | .raw _ aliasName => [aliasName]

theorem Planned.map_alias_selectItems (p : Planned) : p.selectItems.map SelectItem.alias? =
    (p.plan.selection.flatMap SelectionEntry.labels).map some := by
  unfold selectItems
  rw [List.map_flatMap, List.map_flatMap]
  refine List.flatMap_congr fun entry _ => ?_
  cases entry with
  | fields a names => simp [entryItems, SelectionEntry.labels, SelectItem.alias?]
  | raw sql a => rfl

theorem Plan.selects_identifier {p : Plan}
    (hsound : JoinPlan.Sound p.rootAlias p.joins p.selection)
    (hselected : JoinPlan.Selected p.rootAlias p.rootIdentifier p.joins p.selection)
    (hn : (p.rootAlias :: p.joins.aliases).Nodup) {n : RecordTree}
    (hnode : n ∈ (RecordTree.ofPlan p).nodes) : p.selection.Selects n.aliasName n.identifier := by
  have hperm := (RecordTree.isTreeOf_ofPlan hsound.starts hn).perm_nodes hsound.starts hn
  rcases List.mem_cons.mp (hperm.mem_iff.mp (List.mem_map_of_mem hnode)) with heq | hpair
  · obtain ⟨ha, hi⟩ := Prod.mk.inj heq
    rw [ha, hi]
    exact hselected.root
  · obtain ⟨j, hj, heq⟩ := List.mem_map.mp hpair
    obtain ⟨ha, hi⟩ := Prod.mk.inj heq
    rw [← ha, ← hi]
    exact hsound.selected j hj

theorem Selection.mem_labels {s : Selection} (hn : s.tables.Nodup) {label : String} :
    label ∈ s.flatMap SelectionEntry.labels ↔
      (∃ a field, s.Selects a field ∧ label = fieldLabel a field) ∨ label ∈ s.rawAliases := by
  rw [List.mem_flatMap]
  constructor
  · rintro ⟨entry, hentry, hlabel⟩
    cases entry with
    | fields a names =>
      obtain ⟨field, hfield, rfl⟩ := List.mem_map.mp hlabel
      exact .inl ⟨a, field, ⟨names, (fieldsOf?_eq_some hn).mpr hentry, hfield⟩, rfl⟩
    | raw sql a =>
      obtain rfl := List.mem_singleton.mp hlabel
      exact .inr (List.mem_filterMap.mpr ⟨_, hentry, rfl⟩)
  · rintro (⟨a, field, ⟨names, hnames, hfield⟩, rfl⟩ | hraw)
    · exact ⟨_, (fieldsOf?_eq_some hn).mp hnames, List.mem_map_of_mem hfield⟩
    · obtain ⟨entry, hentry, hlabel⟩ := List.mem_filterMap.mp hraw
      cases entry with
      | fields a names => cases hlabel
      | raw sql a =>
        obtain rfl : a = label := Option.some.inj hlabel
        exact ⟨_, hentry, List.mem_cons_self⟩

theorem RecordTree.Spans.mem_labels {joins : JoinPlan} {selection : Selection} {n : RecordTree}
    (h : n.Spans joins selection) (hid : selection.Selects n.aliasName n.identifier)
    {label : String} : label ∈ n.labels ↔
      ∃ field, selection.Selects n.aliasName field ∧ label = fieldLabel n.aliasName field := by
  rw [labels, List.mem_cons, List.mem_map, h.fields_eq]
  constructor
  · rintro (rfl | ⟨field, hfield, rfl⟩)
    · exact ⟨n.identifier, hid, rfl⟩
    · refine ⟨field, ?_, rfl⟩
      cases hnames : selection.fieldsOf? n.aliasName with
      | none => simp [hnames] at hfield
      | some names => exact ⟨names, hnames, by simpa [hnames] using hfield⟩
  · rintro ⟨field, ⟨names, hnames, hfield⟩, rfl⟩
    exact .inr ⟨field, by simpa [hnames] using hfield, rfl⟩

/-- **The tree of the joins asks for what is selected.** -/
theorem Plan.mem_rowLabels {p : Plan} {label : String}
    (hsound : JoinPlan.Sound p.rootAlias p.joins p.selection)
    (hselected : JoinPlan.Selected p.rootAlias p.rootIdentifier p.joins p.selection)
    (hn : (p.rootAlias :: p.joins.aliases).Nodup) :
    label ∈ p.rowLabels ↔ label ∈ p.selection.flatMap SelectionEntry.labels := by
  have htree := RecordTree.isTreeOf_ofPlan hsound.starts hn
  have hnode : ∀ {n}, n ∈ (RecordTree.ofPlan p).nodes → (label ∈ n.labels ↔
      ∃ field, p.selection.Selects n.aliasName field ∧ label = fieldLabel n.aliasName field) :=
    fun hmem => (htree.spans.of_mem_nodes _ hmem).mem_labels
      (selects_identifier hsound hselected hn hmem)
  rw [rowLabels, List.mem_append, Selection.mem_labels hselected.nodup, List.mem_flatMap]
  refine or_congr_left ⟨?_, ?_⟩
  · rintro ⟨n, hmem, hlabel⟩
    exact ⟨n.aliasName, (hnode hmem).mp hlabel⟩
  · rintro ⟨a, field, ⟨names, hnames, hfield⟩, hlabel⟩
    have hentry := (Selection.fieldsOf?_eq_some hselected.nodup).mp hnames
    have hknown := hselected.tables a (List.mem_filterMap.mpr ⟨_, hentry, rfl⟩)
    obtain ⟨n, hmem, rfl⟩ := htree.exists_node hsound.starts hn hknown
    exact ⟨n, hmem, (hnode hmem).mpr ⟨field, ⟨names, hnames, hfield⟩, hlabel⟩⟩

/-! ### What nesting reads -/

/-- The rows have the same values under some labels. -/
def AgreeOn (labels : List String) (row row' : Record) : Prop :=
  ∀ label ∈ labels, RecordTree.cell row label = RecordTree.cell row' label

namespace RecordTree

variable {labels : List String} {row row' : Record}

theorem id_congr {tree : RecordTree} (h : AgreeOn labels row row') (ht : tree.labels ⊆ labels) :
    tree.id row = tree.id row' := by
  cases tree
  exact h _ (ht List.mem_cons_self)

theorem object_congr {tree : RecordTree} (h : AgreeOn labels row row') (ht : tree.labels ⊆ labels) :
    tree.object row = tree.object row' := by
  cases tree with
  | node a identifier fields children =>
    refine List.foldl_ext _ _ _ fun r field hfield => ?_
    have hlabel := ht (List.mem_cons_of_mem _ (List.mem_map_of_mem hfield))
    exact congrArg (fun value => Keyed.insert field value r) (h _ hlabel)

mutual

/-- Merging a row reads the labels of the nodes below. -/
theorem mergeRow_congr (h : AgreeOn labels row row') : ∀ tree : RecordTree,
    tree.nodes.flatMap RecordTree.labels ⊆ labels → mergeRow row tree = mergeRow row' tree
  | .node a identifier fields children, ht => by
    funext target
    rw [mergeRow, mergeRow]
    refine mergeChildren_congr h children (fun label hlabel => ht ?_) target
    rw [nodes, List.flatMap_cons]
    exact List.mem_append_right _ hlabel

theorem mergeChildren_congr (h : AgreeOn labels row row') : ∀ children : List (Link × RecordTree),
    (nodesBelow children).flatMap RecordTree.labels ⊆ labels → ∀ target,
      mergeChildren row children target = mergeChildren row' children target
  | [], _, _ => by rw [mergeChildren, mergeChildren]
  | (link, child) :: rest, ht, target => by
    rw [nodesBelow, List.flatMap_append, List.append_subset] at ht
    have hself : child.labels ⊆ labels := fun label hlabel =>
      ht.1 (List.mem_flatMap.mpr ⟨child, child.self_mem_nodes, hlabel⟩)
    rw [mergeChildren, mergeChildren, mergeRow_congr h child ht.1]
    simp only [mergeSlot, id_congr h hself, object_congr h hself]
    exact mergeChildren_congr h rest ht.2 _

end

end RecordTree

/-- **Nesting reads nothing but the row labels.** -/
theorem Plan.hydrate_congr {p : Plan} {rows rows' : List Record}
    (h : List.Forall₂ (AgreeOn p.rowLabels) rows rows') : p.hydrate rows = p.hydrate rows' := by
  have hnodes : (RecordTree.ofPlan p).nodes.flatMap RecordTree.labels ⊆ p.rowLabels :=
    List.subset_append_left _ _
  have hself : (RecordTree.ofPlan p).labels ⊆ p.rowLabels := fun label hlabel =>
    hnodes (List.mem_flatMap.mpr ⟨_, RecordTree.self_mem_nodes _, hlabel⟩)
  have hraw : p.selection.rawAliases ⊆ p.rowLabels := List.subset_append_right _ _
  have hfold : ∀ records, rows.foldl ((RecordTree.ofPlan p).addRow p.selection.rawAliases) records =
      rows'.foldl ((RecordTree.ofPlan p).addRow p.selection.rawAliases) records := by
    induction h with
    | nil => intro records; rfl
    | @cons row row' rows rows' hrow _ ih =>
      intro records
      have hadd : (RecordTree.ofPlan p).addRow p.selection.rawAliases records row =
          (RecordTree.ofPlan p).addRow p.selection.rawAliases records row' := by
        have hfresh : (RecordTree.ofPlan p).fresh p.selection.rawAliases row =
            (RecordTree.ofPlan p).fresh p.selection.rawAliases row' := by
          rw [RecordTree.fresh, RecordTree.fresh, RecordTree.object_congr hrow hself]
          refine List.foldl_ext _ _ _ fun r label hlabel => ?_
          rw [hrow _ (hraw hlabel)]
        rw [RecordTree.addRow, RecordTree.addRow, RecordTree.id_congr hrow hself, hfresh,
          RecordTree.mergeRow_congr hrow _ hnodes]
      rw [List.foldl_cons, List.foldl_cons, hadd, ih]
  rw [hydrate, hydrate, hfold]

/-! ### The page of a request -/

/-- **The select list of the page and the nesting of its rows agree on the labels.** Take a planned
request whose root and joined tables have different aliases.

- Building the tree of the joins from the root ends, and any fuel that is at least the number of
  joins gives this tree. It has one node for the root and one for each join, and below each node the
  joins that start from it.
- The labels that are read of a row (the identifiers and the fields of all nodes, and the labels of
  the expressions) are the aliases of the items that the page query adds to the items of its base.
- Rows with the same values under these labels give the same records. -/
theorem Planned.rowLabels_selectItems {planner : Planner} {p : Planned}
    (hplan : planner.plan = .ok p) (hn : (p.plan.rootAlias :: p.plan.joins.aliases).Nodup) :
    (Acc p.plan.joins.Needs p.plan.rootAlias ∧
      (∀ fuel, p.plan.joins.length ≤ fuel →
        RecordTree.build p.plan.joins p.plan.selection fuel p.plan.rootAlias
          p.plan.rootIdentifier = RecordTree.ofPlan p.plan) ∧
      (RecordTree.ofPlan p.plan).IsTreeOf p.plan ∧
      ((RecordTree.ofPlan p.plan).nodes.map fun n => (n.aliasName, n.identifier)).Perm
        ((p.plan.rootAlias, p.plan.rootIdentifier) ::
          p.plan.joins.map fun j => (j.aliasName, j.identifier))) ∧
    ((∀ q, (p.pageQuery q).select = q.select ++ p.selectItems) ∧
      ∀ label, label ∈ p.plan.rowLabels ↔ some label ∈ p.selectItems.map SelectItem.alias?) ∧
    ∀ rows rows', List.Forall₂ (AgreeOn p.plan.rowLabels) rows rows' →
      p.plan.hydrate rows = p.plan.hydrate rows' := by
  obtain ⟨plan, htable, rfl⟩ := Planner.plan_eq_ok.mp hplan
  obtain ⟨-, hsound⟩ := Table.sound_plan htable
  have htree := RecordTree.isTreeOf_ofPlan hsound.starts hn
  refine ⟨⟨htree.aliasName ▸ htree.spans.acc,
    fun fuel hfuel => RecordTree.build_eq_ofPlan hsound.starts hn hfuel, htree,
    htree.perm_nodes hsound.starts hn⟩, ⟨Planned.select_pageQuery, fun label => ?_⟩,
    fun rows rows' => Plan.hydrate_congr⟩
  rw [Plan.mem_rowLabels hsound (Table.selected_plan htable) hn, map_alias_selectItems]
  simp

/-- The labels of posts with their authors, their comments and the authors of these. -/
theorem Planned.rowLabels_selectItems_posts : ∃ planner p,
    Planner.create Plan.posts { } = .ok planner ∧ planner.plan = .ok p ∧
    (p.plan.rootAlias :: p.plan.joins.aliases).Nodup ∧
    ((RecordTree.ofPlan p.plan).nodes.map fun n => (n.aliasName, n.identifier)).Perm
      [("post", "id"), ("author", "id"), ("comments", "id"), ("comments_author", "id")] ∧
    ∀ label, label ∈ p.plan.rowLabels ↔
      label ∈ ["post__id", "author__id", "author__name", "comments__id", "comments_author__id",
        "comments_author__name"] := by
  obtain ⟨planner, hcreate, h⟩ := exists_ok (x := Planner.create Plan.posts { })
    (p := fun planner : Planner => planner.plan.toOption.any fun p : Planned =>
      decide ((p.plan.rootAlias :: p.plan.joins.aliases).Nodup ∧
        (p.plan.rootAlias, p.plan.rootIdentifier) ::
          p.plan.joins.map (fun j => (j.aliasName, j.identifier)) =
          [("post", "id"), ("author", "id"), ("comments", "id"), ("comments_author", "id")] ∧
        p.selectItems.map SelectItem.alias? =
          [some "post__id", some "author__id", some "author__name", some "comments__id",
            some "comments_author__id", some "comments_author__name"])) (by decide +kernel)
  obtain ⟨p, hplan, h⟩ := exists_ok h
  obtain ⟨hn, hnodes, haliases⟩ := of_decide_eq_true h
  obtain ⟨⟨-, -, -, hperm⟩, ⟨-, hlabels⟩, -⟩ := rowLabels_selectItems hplan hn
  rw [hnodes] at hperm
  refine ⟨planner, p, hcreate, hplan, hn, hperm, fun label => ?_⟩
  rw [hlabels, haliases]
  simp

end TableQuery
