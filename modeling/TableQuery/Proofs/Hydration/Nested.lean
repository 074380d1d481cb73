import Mathlib.Data.List.Induction
import TableQuery.Proofs.Hydration.Grouping
import TableQuery.Proofs.Hydration.JoinTree
import TableQuery.Proofs.Keyed

/-! # Nested records are a nested grouping

What the rows of one object say is defined without any order of merging (`RecordTree.nested`): the
fields of the first row, and for each relationship the rows that have an identifier for it. A
relationship to one holds the object of these rows, a relationship to many an object for each group
of rows with the same identifier. Merging one more row gives what the rows with that row say, for
the object of a node (`RecordTree.Proper.grows`) and for all records
(`RecordTree.addRow_keyedRecord`). So the records of a plan are the nested grouping of its rows
(`Plan.hydrate_eq_records`). -/

namespace TableQuery

/-! ### The nested grouping -/

/-- What a relationship holds, from the rows that have an identifier for it. -/
def Link.slot (link : Link) (sameId : Record → Record → Bool) (object : List Record → Record)
    (rows : List Record) : Json :=
  if link.toMany then .arr ((groupsBy sameId rows).map fun g => .obj (object g))
  else if rows.isEmpty then .null
  else .obj (object rows)

namespace RecordTree

/-- Whether two rows have the same identifier for a node. -/
def sameId (tree : RecordTree) (a b : Record) : Bool := (tree.id a).same (tree.id b)

/-- The rows that have an identifier for a node. -/
def present (tree : RecordTree) (rows : List Record) : List Record :=
  rows.filter fun row => !(tree.id row).isNull

/-- The fields of a node, from the first row. -/
def fieldPairs (tree : RecordTree) (rows : List Record) : List (String × Json) :=
  tree.fields.map fun field =>
    (field, cell (rows.headD []) (fieldLabel tree.aliasName field))

mutual

/-- The object of a node that stands for some rows. -/
def nested (rows : List Record) : RecordTree → Record
  | .node aliasName identifier fields children =>
    Keyed.ofPairs ((RecordTree.node aliasName identifier fields children).fieldPairs rows ++
      nestedSlots rows children)

/-- What the relationships of an object hold that stands for some rows. -/
def nestedSlots (rows : List Record) : List (Link × RecordTree) → List (String × Json)
  | [] => []
  | (link, child) :: rest =>
    (link.relationship, link.slot child.sameId (fun g => nested g child) (child.present rows)) ::
      nestedSlots rows rest

end

/-- The fields of the root and the expressions under some labels, from the first row. -/
def recordPairs (labels : List String) (tree : RecordTree) (rows : List Record) :
    List (String × Json) :=
  tree.fieldPairs rows ++ labels.map fun label => (label, cell (rows.headD []) label)

/-- The record that stands for some rows. -/
def record (labels : List String) (tree : RecordTree) (rows : List Record) : Record :=
  Keyed.ofPairs (recordPairs labels tree rows ++ nestedSlots rows tree.children)

/-- Whether two rows belong to one record: the texts of their identifiers are equal. -/
def sameKey (tree : RecordTree) (a b : Record) : Bool := (tree.id a).text == (tree.id b).text

/-- The records of some rows. -/
def records (labels : List String) (tree : RecordTree) (rows : List Record) : List Record :=
  (groupsBy tree.sameKey rows).map (tree.record labels)

/-- At each node the fields and the relationships have different names, and the identifier of a
joined table is one of its fields. -/
inductive Proper : RecordTree → Prop
  | node {aliasName identifier : String} {fields : List String}
    {children : List (Link × RecordTree)}
    (names : (fields ++ children.map fun c => c.1.relationship).Nodup)
    (identifiers : ∀ c ∈ children, c.2.identifier ∈ c.2.fields)
    (below : ∀ c ∈ children, Proper c.2) :
    Proper (.node aliasName identifier fields children)

/-! ### Merging as insertion -/

/-- What a relationship holds of some rows. -/
def slotOf (rows : List Record) (c : Link × RecordTree) : Json :=
  c.1.slot c.2.sameId (fun g => c.2.nested g) (c.2.present rows)

theorem nestedSlots_eq_map (rows : List Record) : ∀ children : List (Link × RecordTree),
    nestedSlots rows children = children.map fun c => (c.1.relationship, slotOf rows c)
  | [] => by rw [nestedSlots]; rfl
  | (link, child) :: rest => by rw [nestedSlots, nestedSlots_eq_map rows rest]; rfl

theorem nested_eq (rows : List Record) (tree : RecordTree) : tree.nested rows =
    Keyed.ofPairs (tree.fieldPairs rows ++ nestedSlots rows tree.children) := by
  cases tree
  rw [nested]
  rfl

theorem mergeChildren_eq_foldl (row : Record) : ∀ {children : List (Link × RecordTree)},
    (children.map fun c => c.1.relationship).Nodup → ∀ target : Record,
      mergeChildren row children target =
        (children.map fun c => (c.1.relationship, mergeSlot row c.2 (mergeRow row c.2)
          ((Keyed.get? target c.1.relationship).getD (emptySlot c.1)))).foldl
            (fun m entry => Keyed.insert entry.1 entry.2 m) target
  | [], _, target => by rw [mergeChildren]; rfl
  | (link, child) :: rest, hn, target => by
    rw [List.map_cons, List.nodup_cons] at hn
    rw [mergeChildren, mergeChildren_eq_foldl row hn.2, List.map_cons, List.foldl_cons]
    congr 1
    refine List.map_congr_left fun c hc => ?_
    have hne : c.1.relationship ≠ link.relationship := fun he =>
      hn.1 (he ▸ List.mem_map_of_mem hc)
    rw [Keyed.get?_insert, if_neg hne]

theorem object_eq (row : Record) (tree : RecordTree) :
    tree.object row = Keyed.ofPairs (tree.fieldPairs [row]) := by
  obtain ⟨aliasName, identifier, fields, children⟩ := tree
  simp only [object, Keyed.ofPairs, fieldPairs, List.foldl_map]
  rfl

theorem fieldPairs_concat (tree : RecordTree) {rows : List Record} (h : rows ≠ []) (row : Record) :
    tree.fieldPairs (rows ++ [row]) = tree.fieldPairs rows := by
  cases rows with
  | nil => exact absurd rfl h
  | cons r rows => rfl

/-! ### One more row -/

/-- What one more row does to the objects of a node: it starts an object, or joins the rows of
one. -/
structure Grows (tree : RecordTree) : Prop where
  start : ∀ row, mergeRow row tree (tree.object row) = tree.nested [row]
  concat : ∀ rows row, rows ≠ [] →
    mergeRow row tree (tree.nested rows) = tree.nested (rows ++ [row])

theorem hasId_nested {tree : RecordTree} (h : tree.Proper) (hid : tree.identifier ∈ tree.fields)
    (row : Record) (rows : List Record) (id : Json) :
    hasId tree.identifier id (.obj (tree.nested (row :: rows))) = (tree.id row).same id := by
  obtain ⟨aliasName, identifier, fields, children⟩ := tree
  cases h with
  | node names _ _ =>
    have hget : Keyed.get? (nested (row :: rows) (.node aliasName identifier fields children))
        identifier = some (cell row (fieldLabel aliasName identifier)) := by
      rw [nested_eq]
      refine Keyed.get?_ofPairs_of_mem ?_ (List.mem_append_left _ (List.mem_map_of_mem hid))
      simpa [fieldPairs, nestedSlots_eq_map, List.map_map, Function.comp_def, RecordTree.fields,
        RecordTree.children] using names
    simp only [hasId, RecordTree.identifier, hget, Option.any_some]
    rfl

/-- Of the entries of a relationship to many, the row goes to the one with its identifier. -/
theorem upsert_nested {tree : RecordTree} (h : tree.Proper) (hid : tree.identifier ∈ tree.fields)
    (hgrows : tree.Grows) (row : Record) : ∀ {gs : List (List Record)}, (∀ g ∈ gs, g ≠ []) →
      upsert tree.identifier (tree.id row) (mergeRow row tree)
          (mergeRow row tree (tree.object row)) (gs.map fun g => .obj (tree.nested g)) =
        (place tree.sameId row gs).map fun g => .obj (tree.nested g)
  | [], _ => by
    rw [List.map_nil, upsert, place, hgrows.start]
    rfl
  | [] :: gs, hne => absurd rfl (hne [] (by simp))
  | (r :: g) :: gs, hne => by
    have ih := upsert_nested h hid hgrows row fun g hg => hne g (List.mem_cons_of_mem _ hg)
    rw [List.map_cons, upsert, hasId_nested h hid, place]
    show (if tree.sameId r row then _ else _) = List.map _ (if tree.sameId r row then _ else _)
    split_ifs
    · rw [hgrows.concat _ _ (by simp)]
      rfl
    · rw [ih]
      rfl

theorem mergeSlot_slotOf {c : Link × RecordTree} (h : c.2.Proper)
    (hid : c.2.identifier ∈ c.2.fields) (hgrows : c.2.Grows) (rows : List Record) (row : Record) :
    mergeSlot row c.2 (mergeRow row c.2) (slotOf rows c) = slotOf (rows ++ [row]) c := by
  obtain ⟨link, child⟩ := c
  have hpresent : child.present (rows ++ [row]) =
      child.present rows ++ if (child.id row).isNull then [] else [row] := by
    rw [present, List.filter_append]
    cases hnull : (child.id row).isNull <;> simp [present, hnull]
  unfold mergeSlot
  by_cases hnull : (child.id row).isNull = true
  · rw [if_pos hnull, slotOf, slotOf, hpresent, if_pos hnull, List.append_nil]
  · rw [if_neg hnull, slotOf, slotOf, hpresent, if_neg hnull]
    cases hmany : link.toMany with
    | true =>
      simp only [Link.slot, hmany, if_true]
      rw [groupsBy_concat]
      exact congrArg Json.arr
        (upsert_nested h hid hgrows row fun g hg => ne_nil_of_mem_groupsBy hg)
    | false =>
      simp only [Link.slot, hmany, Bool.false_eq_true, if_false]
      cases hrows : child.present rows with
      | nil => exact congrArg Json.obj (hgrows.start row)
      | cons r rest => exact congrArg Json.obj (hgrows.concat (r :: rest) row (by simp))

theorem mergeChildren_of_slots {children : List (Link × RecordTree)}
    (hchildren : ∀ c ∈ children, c.2.Proper ∧ c.2.identifier ∈ c.2.fields ∧ c.2.Grows)
    (hrelationships : (children.map fun c => c.1.relationship).Nodup) {rows : List Record}
    {target : Record}
    (hslots : ∀ c ∈ children,
      (Keyed.get? target c.1.relationship).getD (emptySlot c.1) = slotOf rows c) (row : Record) :
    mergeChildren row children target = (nestedSlots (rows ++ [row]) children).foldl
      (fun m entry => Keyed.insert entry.1 entry.2 m) target := by
  rw [mergeChildren_eq_foldl row hrelationships, nestedSlots_eq_map]
  congr 1
  refine List.map_congr_left fun c hc => ?_
  obtain ⟨hproper, hid, hgrows⟩ := hchildren c hc
  rw [hslots c hc, mergeSlot_slotOf hproper hid hgrows]

theorem mergeChildren_nestedSlots {children : List (Link × RecordTree)}
    (hchildren : ∀ c ∈ children, c.2.Proper ∧ c.2.identifier ∈ c.2.fields ∧ c.2.Grows)
    {base : List (String × Json)}
    (hn : (base.map Prod.fst ++ children.map fun c => c.1.relationship).Nodup) (row : Record) :
    mergeChildren row children (Keyed.ofPairs base) =
        Keyed.ofPairs (base ++ nestedSlots [row] children) ∧
      ∀ rows, mergeChildren row children (Keyed.ofPairs (base ++ nestedSlots rows children)) =
        Keyed.ofPairs (base ++ nestedSlots (rows ++ [row]) children) := by
  obtain ⟨-, hrelationships, hdisjoint⟩ := List.nodup_append.mp hn
  have hkeys : ∀ rows, (nestedSlots rows children).map Prod.fst =
      children.map fun c => c.1.relationship := by
    intro rows
    rw [nestedSlots_eq_map, List.map_map]
    rfl
  refine ⟨?_, fun rows => ?_⟩
  · have hslots : ∀ c ∈ children, (Keyed.get? (Keyed.ofPairs base) c.1.relationship).getD
        (emptySlot c.1) = slotOf [] c := by
      intro c hc
      have hget : Keyed.get? (Keyed.ofPairs base) c.1.relationship = none :=
        Keyed.get?_ofPairs_of_not_mem fun hmem =>
          hdisjoint _ hmem _ (List.mem_map_of_mem hc) rfl
      rw [hget, Option.getD_none]
      simp only [emptySlot, slotOf, Link.slot, present, List.filter_nil, groupsBy]
      rfl
    rw [mergeChildren_of_slots hchildren hrelationships hslots, Keyed.ofPairs_append]
    rfl
  · have hslots : ∀ c ∈ children,
        (Keyed.get? (Keyed.ofPairs (base ++ nestedSlots rows children)) c.1.relationship).getD
          (emptySlot c.1) = slotOf rows c := by
      intro c hc
      have hget : Keyed.get? (Keyed.ofPairs (base ++ nestedSlots rows children))
          c.1.relationship = some (slotOf rows c) := by
        refine Keyed.get?_ofPairs_of_mem ?_ (List.mem_append_right _ ?_)
        · rwa [List.map_append, hkeys]
        · rw [nestedSlots_eq_map]
          exact List.mem_map_of_mem (f := fun c => (c.1.relationship, slotOf rows c)) hc
      rw [hget, Option.getD_some]
    rw [mergeChildren_of_slots hchildren hrelationships hslots]
    exact Keyed.ofPairs_replace base ((hkeys rows).trans (hkeys (rows ++ [row])).symm)
      ((hkeys _).symm ▸ hrelationships)

/-- **One more row for the object of a node.** -/
theorem Proper.grows {tree : RecordTree} (h : tree.Proper) : tree.Grows := by
  induction h with
  | @node aliasName identifier fields children names identifiers below ih =>
    have hchildren : ∀ c ∈ children, c.2.Proper ∧ c.2.identifier ∈ c.2.fields ∧ c.2.Grows :=
      fun c hc => ⟨below c hc, identifiers c hc, ih c hc⟩
    have hn : ∀ rows, ((RecordTree.node aliasName identifier fields children).fieldPairs rows |>.map
        Prod.fst) ++ (children.map fun c => c.1.relationship) =
          fields ++ children.map fun c => c.1.relationship := by
      intro rows
      simp [fieldPairs, RecordTree.fields, Function.comp_def]
    refine ⟨fun row => ?_, fun rows row hrows => ?_⟩
    · rw [object_eq, nested_eq, mergeRow]
      exact (mergeChildren_nestedSlots hchildren ((hn [row]).symm ▸ names) row).1
    · rw [nested_eq, nested_eq, mergeRow, fieldPairs_concat _ hrows]
      exact (mergeChildren_nestedSlots hchildren ((hn rows).symm ▸ names) row).2 rows

/-! ### All rows -/

theorem recordPairs_concat (labels : List String) (tree : RecordTree) {rows : List Record}
    (h : rows ≠ []) (row : Record) :
    recordPairs labels tree (rows ++ [row]) = recordPairs labels tree rows := by
  cases rows with
  | nil => exact absurd rfl h
  | cons r rows => rfl

theorem fresh_eq (labels : List String) (tree : RecordTree) (row : Record) :
    tree.fresh labels row = Keyed.ofPairs (recordPairs labels tree [row]) := by
  rw [fresh, object_eq, recordPairs, Keyed.ofPairs_append, List.foldl_map]
  rfl

theorem mergeRow_record {tree : RecordTree} (h : tree.Proper) {labels : List String}
    (hn : (tree.fields ++ labels ++ tree.children.map fun c => c.1.relationship).Nodup)
    (row : Record) :
    mergeRow row tree (tree.fresh labels row) = tree.record labels [row] ∧
      ∀ rows, rows ≠ [] →
        mergeRow row tree (tree.record labels rows) = tree.record labels (rows ++ [row]) := by
  obtain ⟨aliasName, identifier, fields, children⟩ := tree
  cases h with
  | node _ identifiers below =>
    have hchildren : ∀ c ∈ children, c.2.Proper ∧ c.2.identifier ∈ c.2.fields ∧ c.2.Grows :=
      fun c hc => ⟨below c hc, identifiers c hc, (below c hc).grows⟩
    have hnames : ∀ rows,
        ((recordPairs labels (.node aliasName identifier fields children) rows).map Prod.fst ++
          children.map fun c => c.1.relationship).Nodup := by
      intro rows
      simpa [recordPairs, fieldPairs, RecordTree.fields, RecordTree.children, Function.comp_def]
        using hn
    refine ⟨?_, fun rows hrows => ?_⟩
    · rw [fresh_eq, mergeRow]
      exact (mergeChildren_nestedSlots hchildren (hnames [row]) row).1
    · have hstep := (mergeChildren_nestedSlots hchildren (hnames rows) row).2 rows
      rw [mergeRow, record, record, recordPairs_concat labels _ hrows row]
      exact hstep

/-- A group of rows as a record with the text of its identifier. -/
def keyedRecord (labels : List String) (tree : RecordTree) (rows : List Record) :
    String × Record :=
  ((tree.id (rows.headD [])).text, tree.record labels rows)

/-- **One more row for the records.** -/
theorem addRow_keyedRecord {tree : RecordTree} (h : tree.Proper) {labels : List String}
    (hn : (tree.fields ++ labels ++ tree.children.map fun c => c.1.relationship).Nodup)
    (row : Record) : ∀ {gs : List (List Record)}, (∀ g ∈ gs, g ≠ []) →
      tree.addRow labels (gs.map (tree.keyedRecord labels)) row =
        (place tree.sameKey row gs).map (tree.keyedRecord labels)
  | [], _ => by
    rw [List.map_nil, addRow, Records.upsert, place, (mergeRow_record h hn row).1]
    rfl
  | [] :: gs, hne => absurd rfl (hne [] (by simp))
  | (r :: g) :: gs, hne => by
    have ih := addRow_keyedRecord h hn row fun g hg => hne g (List.mem_cons_of_mem _ hg)
    rw [addRow] at ih
    rw [List.map_cons, addRow, place]
    show (if (tree.id r).text = (tree.id row).text then _ else _) =
      List.map _ (if tree.sameKey r row then _ else _)
    simp only [sameKey, beq_iff_eq]
    split_ifs
    · rw [(mergeRow_record h hn row).2 _ (by simp)]
      rfl
    · rw [ih]
      rfl

theorem foldl_addRow {tree : RecordTree} (h : tree.Proper) {labels : List String}
    (hn : (tree.fields ++ labels ++ tree.children.map fun c => c.1.relationship).Nodup)
    (rows : List Record) : rows.foldl (tree.addRow labels) [] =
      (groupsBy tree.sameKey rows).map (tree.keyedRecord labels) := by
  induction rows using List.reverseRecOn with
  | nil => simp [groupsBy]
  | append_singleton rows row ih =>
    rw [List.foldl_append, ih, groupsBy_concat]
    exact addRow_keyedRecord h hn row fun g hg => ne_nil_of_mem_groupsBy hg

end RecordTree

/-! ### The records of a plan -/

namespace Plan

/-- The names in the objects of a table: its selected fields, for the root the labels of the
expressions, and the relationships that start from it. -/
def namesAt (p : Plan) (aliasName : String) : List String :=
  (p.selection.fieldsOf? aliasName).getD [] ++
    (if aliasName = p.rootAlias then p.selection.rawAliases else []) ++
    (p.joins.filter fun j => j.parent == aliasName).map PlannedJoin.relationship

theorem proper_of_spans {p : Plan} (hs : p.joins.Sound p.rootAlias p.selection)
    (hnames : ∀ a ∈ p.rootAlias :: p.joins.aliases, (p.namesAt a).Nodup) {tree : RecordTree}
    (h : tree.Spans p.joins p.selection) (ha : tree.aliasName ∈ p.rootAlias :: p.joins.aliases) :
    tree.Proper := by
  induction h with
  | @node aliasName identifier children joined below ih =>
    have hspans : (RecordTree.node aliasName identifier
        ((p.selection.fieldsOf? aliasName).getD []) children).Spans p.joins p.selection :=
      .node joined below
    refine .node ?_ (fun c hc => ?_) fun c hc => ih c hc ?_
    · have hn := hnames aliasName ha
      have hrelationships : children.map (fun c => c.1.relationship) =
          (p.joins.filter fun j => j.parent == aliasName).map PlannedJoin.relationship :=
        hspans.relationships_eq
      rw [namesAt, ← hrelationships, List.append_assoc] at hn
      exact hn.sublist ((List.Sublist.refl _).append (List.sublist_append_right _ _))
    · obtain ⟨j, hj, hja, hji⟩ := hspans.exists_join hc
      obtain ⟨names, hn, hmem⟩ := hs.selected j hj
      rw [(below c hc).fields_eq, hja, hji, hn]
      exact hmem
    · obtain ⟨j, hj, hja, -⟩ := hspans.exists_join hc
      rw [hja]
      exact List.mem_cons_of_mem _ (List.mem_map_of_mem hj)

/-- **The records of a plan are the nested grouping of its rows**, over the tree of all its joins,
if the tables have different aliases and the names in each object are different. -/
theorem hydrate_eq_records {t : Table} {rootAlias : String} {p : Plan}
    (h : t.plan rootAlias = .ok p) (ha : (p.rootAlias :: p.joins.aliases).Nodup)
    (hnames : ∀ a ∈ p.rootAlias :: p.joins.aliases, (p.namesAt a).Nodup) (rows : List Record) :
    (RecordTree.ofPlan p).IsTreeOf p ∧
      p.hydrate rows = (RecordTree.ofPlan p).records p.selection.rawAliases rows := by
  obtain ⟨-, hs⟩ := Table.sound_plan h
  have htree := RecordTree.isTreeOf_ofPlan hs.starts ha
  refine ⟨htree, ?_⟩
  have hproper : (RecordTree.ofPlan p).Proper :=
    proper_of_spans hs hnames htree.spans (by rw [htree.aliasName]; simp)
  have hn := hnames p.rootAlias (by simp)
  rw [namesAt, if_pos rfl, ← htree.aliasName, ← htree.spans.relationships_eq,
    ← htree.spans.fields_eq] at hn
  show (rows.foldl ((RecordTree.ofPlan p).addRow p.selection.rawAliases) []).map Prod.snd = _
  rw [RecordTree.foldl_addRow hproper hn, List.map_map]
  rfl

/-- A column of a field. -/
def fieldColumn (index : Nat) (path : DataPath) : Column :=
  { index, kind := .column, name := some path.text, data := some path, source := .field path,
    type := none, fieldType := none, chain := [], title := none, searchable := true,
    orderable := true, visible := true, joinKind := .left, className := none, width := none,
    defaultContent := none, orderColumn := none, searchColumn := none, filter := none,
    render := [] }

/-- Posts with their author, their comments and the authors of these. -/
def posts : Table :=
  { name := "posts"
    registry :=
      { schema :=
          [("Comment",
            { name := "Comment", table := "comments", identifiers := ["id"]
              associations := [("author", .manyToOne "User" "author_id")] }),
            ("Post",
            { name := "Post", table := "posts", identifiers := ["id"]
              associations := [("author", .manyToOne "User" "author_id"),
                ("comments", .oneToMany "Comment" "post_id")] }),
            ("User", { name := "User", table := "users", identifiers := ["id"] })]
        entity := "Post"
        columns := [fieldColumn 0 ⟨["author"], "name", none⟩,
          fieldColumn 1 ⟨["comments", "author"], "name", none⟩]
        names := [] }
    settings := { } }

/-- A row with a post, its author, a comment and its author. -/
def postRow (post author comment commenter : Json) : Record :=
  [("author__id", author), ("author__name", .str "ann"), ("comments__id", comment),
    ("comments_author__id", commenter), ("comments_author__name", .str "bob"), ("post__id", post)]

/-- Two posts. The rows of the first one are not next to each other, and one of them comes twice. -/
def postRows : List Record :=
  [postRow (.int 1) (.int 7) (.int 10) (.int 8), postRow (.int 2) .null .null .null,
    postRow (.int 1) (.int 7) (.int 11) .null, postRow (.int 1) (.int 7) (.int 10) (.int 8)]

/-- The two posts with their comments. -/
def postRecords : List Json :=
  [.object [("author", .object [("id", .int 7), ("name", .str "ann")]),
      ("comments", .arr
        [.object [("author", .object [("id", .int 8), ("name", .str "bob")]), ("id", .int 10)],
          .object [("author", .null), ("id", .int 11)]]),
      ("id", .int 1)],
    .object [("author", .null), ("comments", .arr []), ("id", .int 2)]]

theorem hydrate_eq_records_posts : ∃ p, posts.plan "post" = .ok p ∧
    (RecordTree.ofPlan p).IsTreeOf p ∧
    p.hydrate postRows = (RecordTree.ofPlan p).records p.selection.rawAliases postRows ∧
    Json.sameItems ((p.hydrate postRows).map .obj) postRecords = true := by
  obtain ⟨p, h, hp⟩ := Outcome.exists_ok (x := posts.plan "post") (p := fun p =>
    decide ((p.rootAlias :: p.joins.aliases).Nodup ∧
      ∀ a ∈ p.rootAlias :: p.joins.aliases, (p.namesAt a).Nodup) &&
      Json.sameItems ((p.hydrate postRows).map .obj) postRecords) (by decide +kernel)
  rw [Bool.and_eq_true, decide_eq_true_eq] at hp
  obtain ⟨⟨ha, hnames⟩, hsame⟩ := hp
  obtain ⟨htree, hrecords⟩ := hydrate_eq_records h ha hnames postRows
  exact ⟨p, h, htree, hrecords, hsame⟩

end Plan

end TableQuery
