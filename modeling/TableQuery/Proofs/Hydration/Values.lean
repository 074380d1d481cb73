import TableQuery.Proofs.Hydration.Nested
import TableQuery.Proofs.Hydration.Nodes

/-! # Values of nested records

An object of a table has values of its own, from the row that starts it, and relationships that
other rows add to. A row that is merged into it changes the relationships only
(`RecordTree.get?_mergeChildren_of_not_mem`), so where the names of an object are different no value
is overwritten, in no object of a record (`RecordTree.keeps_of_nodup`) and in no record
(`Plan.holdsRecord_of_mem_hydrate`). -/

namespace TableQuery

/-! ### Names of an object -/

namespace RecordTree

/-- The relationships of a node. -/
def relationships (tree : RecordTree) : List String :=
  tree.children.map fun c => c.1.relationship

/-- The names in the objects of a node. -/
def names (tree : RecordTree) : List String := tree.fields ++ tree.relationships

theorem nodes_subset_of_mem_children {tree : RecordTree} {c : Link × RecordTree}
    (hc : c ∈ tree.children) : c.2.nodes ⊆ tree.nodes := fun n hn => by
  rw [nodes_eq]
  exact List.mem_cons_of_mem _ (mem_nodesBelow.mpr ⟨c, hc, hn⟩)

end RecordTree

/-- The names in the records of a plan: the fields of the root, the labels of the expressions, and
the relationships that start from the root. -/
def Plan.recordNames (p : Plan) : List String :=
  (RecordTree.ofPlan p).fields ++ p.selection.rawAliases ++ (RecordTree.ofPlan p).relationships

/-! ### Values of an object -/

/-- What a relationship holds is of its kind, objects with a property: a list of them, or null or
one of them. -/
def Link.Fits (link : Link) (P : Record → Prop) (slot : Json) : Prop :=
  if link.toMany then ∃ objs : List Record, slot = .arr (objs.map .obj) ∧ ∀ obj ∈ objs, P obj
  else slot = .null ∨ ∃ obj, slot = .obj obj ∧ P obj

theorem Link.fits_emptySlot (link : Link) (P : Record → Prop) :
    link.Fits P (RecordTree.emptySlot link) := by
  unfold Fits RecordTree.emptySlot
  cases link.toMany
  · exact .inl rfl
  · exact ⟨[], rfl, fun _ h => absurd h List.not_mem_nil⟩

namespace RecordTree

/-- The object has the fields that a row has for a node. -/
def HasFields (tree : RecordTree) (row obj : Record) : Prop :=
  ∀ field ∈ tree.fields, Keyed.get? obj field = some (cell row (fieldLabel tree.aliasName field))

mutual

/-- An object of a node has the fields that one of the rows has for it, and below each relationship
objects of the joined table, of which the same is true. -/
def Holds (rows : List Record) : RecordTree → Record → Prop
  | .node aliasName identifier fields children, obj =>
    (∃ row ∈ rows, (RecordTree.node aliasName identifier fields children).HasFields row obj) ∧
      HoldsBelow rows children obj

/-- Below each relationship an object has objects of the joined table. -/
def HoldsBelow (rows : List Record) : List (Link × RecordTree) → Record → Prop
  | [], _ => True
  | (link, child) :: rest, obj =>
    (∃ slot, Keyed.get? obj link.relationship = some slot ∧ link.Fits (Holds rows child) slot) ∧
      HoldsBelow rows rest obj

end

theorem holdsBelow_iff {rows : List Record} {obj : Record}
    {children : List (Link × RecordTree)} : HoldsBelow rows children obj ↔
      ∀ c ∈ children, ∃ slot, Keyed.get? obj c.1.relationship = some slot ∧
        c.1.Fits (Holds rows c.2) slot := by
  induction children with
  | nil => simp [HoldsBelow]
  | cons c rest ih =>
    obtain ⟨link, child⟩ := c
    rw [HoldsBelow, ih, List.forall_mem_cons]

/-- A record has the fields that one of the rows has for the root and the expressions that it has
under some labels, and below each relationship objects of the joined table. -/
structure HoldsRecord (rows : List Record) (labels : List String) (tree : RecordTree)
    (obj : Record) : Prop where
  values : ∃ row ∈ rows, tree.HasFields row obj ∧
    ∀ label ∈ labels, Keyed.get? obj label = some (cell row label)
  below : HoldsBelow rows tree.children obj

theorem holds_iff {rows : List Record} {tree : RecordTree} {obj : Record} :
    tree.Holds rows obj ↔ tree.HoldsRecord rows [] obj := by
  cases tree
  rw [Holds]
  constructor
  · rintro ⟨⟨row, hrow, hobj⟩, hbelow⟩
    exact ⟨⟨row, hrow, hobj, by simp⟩, hbelow⟩
  · rintro ⟨⟨row, hrow, hobj, -⟩, hbelow⟩
    exact ⟨⟨row, hrow, hobj⟩, hbelow⟩

mutual

/-- **A property of trees that follows from the children** holds of all trees. -/
theorem induction_children {P : RecordTree → Prop}
    (h : ∀ tree : RecordTree, (∀ c ∈ tree.children, P c.2) → P tree) : ∀ tree, P tree
  | .node _ _ _ children => h _ (forall_children h children)

theorem forall_children {P : RecordTree → Prop}
    (h : ∀ tree : RecordTree, (∀ c ∈ tree.children, P c.2) → P tree) :
    ∀ children : List (Link × RecordTree), ∀ c ∈ children, P c.2
  | [], _, hc => absurd hc List.not_mem_nil
  | (_, child) :: rest, c, hc => by
    rcases List.mem_cons.mp hc with rfl | hc
    · exact induction_children h child
    · exact forall_children h rest c hc

end

variable {rows : List Record} {row : Record}

theorem get?_mergeChildren_of_not_mem {k : String} : ∀ {children : List (Link × RecordTree)},
    (∀ c ∈ children, c.1.relationship ≠ k) → ∀ target : Record,
      Keyed.get? (mergeChildren row children target) k = Keyed.get? target k
  | [], _, target => by rw [mergeChildren]
  | (link, child) :: rest, h, target => by
    obtain ⟨hlink, hrest⟩ := List.forall_mem_cons.mp h
    rw [mergeChildren, get?_mergeChildren_of_not_mem hrest, Keyed.get?_insert, if_neg hlink.symm]

theorem get?_mergeChildren {children : List (Link × RecordTree)}
    (hn : (children.map fun c => c.1.relationship).Nodup) (target : Record)
    {c : Link × RecordTree} (hc : c ∈ children) :
    Keyed.get? (mergeChildren row children target) c.1.relationship =
      some (mergeSlot row c.2 (mergeRow row c.2)
        ((Keyed.get? target c.1.relationship).getD (emptySlot c.1))) := by
  rw [mergeChildren_eq_foldl row hn]
  refine Keyed.get?_foldl_insert_of_mem ?_ ?_ target
  · rwa [List.map_map]
  · exact List.mem_map.mpr ⟨c, hc, rfl⟩

theorem exists_upsert {P : Record → Prop} {identifier : String} {id : Json}
    {change : Record → Record} {fresh : Record} (hfresh : P fresh)
    (hchange : ∀ obj, P obj → P (change obj)) : ∀ {objs : List Record}, (∀ obj ∈ objs, P obj) →
      ∃ objs' : List Record,
        upsert identifier id change fresh (objs.map .obj) = objs'.map .obj ∧ ∀ obj ∈ objs', P obj
  | [], _ => ⟨[fresh], rfl, by simpa using hfresh⟩
  | obj :: objs, h => by
    obtain ⟨hobj, hobjs⟩ := List.forall_mem_cons.mp h
    rw [List.map_cons, upsert]
    split_ifs
    · exact ⟨change obj :: objs, rfl, List.forall_mem_cons.mpr ⟨hchange obj hobj, hobjs⟩⟩
    · obtain ⟨objs', heq, hobjs'⟩ := exists_upsert hfresh hchange hobjs
      exact ⟨obj :: objs', by rw [heq, List.map_cons], List.forall_mem_cons.mpr ⟨hobj, hobjs'⟩⟩

/-- What one more row does to the objects of a node: it starts one that holds its values, and
overwrites none in another. -/
structure Keeps (rows : List Record) (row : Record) (tree : RecordTree) : Prop where
  start : tree.Holds rows (mergeRow row tree (tree.object row))
  step : ∀ obj, tree.Holds rows obj → tree.Holds rows (mergeRow row tree obj)

theorem Keeps.fits_mergeSlot {link : Link} {child : RecordTree} (h : Keeps rows row child)
    {slot : Json} (hslot : link.Fits (Holds rows child) slot) :
    link.Fits (Holds rows child) (mergeSlot row child (mergeRow row child) slot) := by
  unfold mergeSlot
  split_ifs
  · exact hslot
  · unfold Link.Fits at hslot ⊢
    split_ifs at hslot ⊢ with hmany
    · obtain ⟨objs, rfl, hobjs⟩ := hslot
      obtain ⟨objs', heq, hobjs'⟩ := exists_upsert h.start h.step hobjs
      exact ⟨objs', congrArg Json.arr heq, hobjs'⟩
    · obtain rfl | ⟨obj, rfl, hobj⟩ := hslot
      · exact .inr ⟨_, rfl, h.start⟩
      · exact .inr ⟨_, rfl, h.step obj hobj⟩

theorem holdsBelow_mergeChildren {children : List (Link × RecordTree)}
    (hn : (children.map fun c => c.1.relationship).Nodup)
    (hchildren : ∀ c ∈ children, Keeps rows row c.2) {target : Record}
    (hslots : ∀ c ∈ children, c.1.Fits (Holds rows c.2)
      ((Keyed.get? target c.1.relationship).getD (emptySlot c.1))) :
    HoldsBelow rows children (mergeChildren row children target) :=
  holdsBelow_iff.mpr fun c hc =>
    ⟨_, get?_mergeChildren hn target hc, (hchildren c hc).fits_mergeSlot (hslots c hc)⟩

theorem mergeRow_eq (tree : RecordTree) (obj : Record) :
    mergeRow row tree obj = mergeChildren row tree.children obj := by
  cases tree
  rw [mergeRow, children]

/-- **One more row for a record**: it starts one that holds its values, and overwrites none in
another, if the names of the record are different. -/
theorem holdsRecord_mergeRow {tree : RecordTree} {labels : List String} (hrow : row ∈ rows)
    (hn : (tree.fields ++ labels ++ tree.relationships).Nodup)
    (hchildren : ∀ c ∈ tree.children, Keeps rows row c.2) :
    tree.HoldsRecord rows labels (mergeRow row tree (tree.fresh labels row)) ∧
      ∀ obj, tree.HoldsRecord rows labels obj →
        tree.HoldsRecord rows labels (mergeRow row tree obj) := by
  obtain ⟨hvalues, hrelationships, hdisjoint⟩ := List.nodup_append.mp hn
  -- what is no relationship is kept
  have hkept : ∀ {obj k}, k ∈ tree.fields ++ labels →
      Keyed.get? (mergeChildren row tree.children obj) k = Keyed.get? obj k := fun hk =>
    get?_mergeChildren_of_not_mem
      (fun c hc heq => hdisjoint _ hk _ (List.mem_map_of_mem hc) heq.symm) _
  have hmerge : ∀ {row' obj}, row' ∈ rows → tree.HasFields row' obj →
      (∀ label ∈ labels, Keyed.get? obj label = some (cell row' label)) →
      (∀ c ∈ tree.children, c.1.Fits (Holds rows c.2)
        ((Keyed.get? obj c.1.relationship).getD (emptySlot c.1))) →
      tree.HoldsRecord rows labels (mergeRow row tree obj) := by
    intro row' obj hrow' hfields hlabels hslots
    rw [mergeRow_eq]
    refine ⟨⟨row', hrow', fun field hfield => ?_, fun label hlabel => ?_⟩,
      holdsBelow_mergeChildren hrelationships hchildren hslots⟩
    · rw [hkept (List.mem_append_left _ hfield), hfields field hfield]
    · rw [hkept (List.mem_append_right _ hlabel), hlabels label hlabel]
  refine ⟨?_, fun obj hobj => ?_⟩
  · have hkeys : (recordPairs labels tree [row]).map Prod.fst = tree.fields ++ labels := by
      simp [recordPairs, fieldPairs, Function.comp_def]
    have hget : ∀ {k value}, (k, value) ∈ recordPairs labels tree [row] →
        Keyed.get? (tree.fresh labels row) k = some value := fun hk => by
      rw [fresh_eq]
      exact Keyed.get?_ofPairs_of_mem (hkeys.symm ▸ hvalues) hk
    refine hmerge hrow (fun field hfield => hget ?_) (fun label hlabel => hget ?_) fun c hc => ?_
    · exact List.mem_append_left _ (List.mem_map.mpr ⟨field, hfield, rfl⟩)
    · exact List.mem_append_right _ (List.mem_map.mpr ⟨label, hlabel, rfl⟩)
    · rw [fresh_eq, Keyed.get?_ofPairs_of_not_mem]
      · exact c.1.fits_emptySlot _
      · rw [hkeys]
        exact fun hmem => hdisjoint _ hmem _ (List.mem_map_of_mem hc) rfl
  · obtain ⟨⟨row', hrow', hfields, hlabels⟩, hbelow⟩ := hobj
    refine hmerge hrow' hfields hlabels fun c hc => ?_
    obtain ⟨slot, hslot, hfits⟩ := holdsBelow_iff.mp hbelow c hc
    rwa [hslot]

/-- **Merging a row overwrites no value** of an object, if the names at each node are different. -/
theorem keeps_of_nodup (hrow : row ∈ rows) : ∀ tree : RecordTree,
    (∀ n ∈ tree.nodes, n.names.Nodup) → Keeps rows row tree := by
  refine induction_children fun tree ih hnames => ?_
  have hchildren : ∀ c ∈ tree.children, Keeps rows row c.2 := fun c hc => ih c hc fun n hn =>
    hnames n (nodes_subset_of_mem_children hc hn)
  have hn : (tree.fields ++ [] ++ tree.relationships).Nodup := by
    rw [List.append_nil]
    exact hnames tree tree.self_mem_nodes
  obtain ⟨hstart, hstep⟩ := holdsRecord_mergeRow hrow hn hchildren
  exact ⟨holds_iff.mpr hstart, fun obj hobj => holds_iff.mpr (hstep obj (holds_iff.mp hobj))⟩

end RecordTree

namespace Records

theorem forall_upsert {P : Record → Prop} {key : String} {change : Record → Record}
    {fresh : Record} (hfresh : P (change fresh)) (hchange : ∀ r, P r → P (change r)) :
    ∀ {records : Records}, (∀ entry ∈ records, P entry.2) →
      ∀ entry ∈ upsert key change fresh records, P entry.2
  | [], _, entry, hentry => by
    obtain rfl := List.mem_singleton.mp hentry
    exact hfresh
  | (k, r) :: rest, h, entry, hentry => by
    obtain ⟨hr, hrest⟩ := List.forall_mem_cons.mp h
    rw [upsert] at hentry
    split_ifs at hentry
    · rcases List.mem_cons.mp hentry with rfl | hentry
      · exact hchange r hr
      · exact hrest entry hentry
    · rcases List.mem_cons.mp hentry with rfl | hentry
      · exact hr
      · exact forall_upsert hfresh hchange hrest entry hentry

end Records

/-- **Nesting overwrites no value**: the records hold the values of the rows, if the names of the
records and of the objects in them are different. -/
theorem Plan.holdsRecord_of_mem_hydrate {p : Plan} (hrecord : p.recordNames.Nodup)
    (hnames : ∀ n ∈ (RecordTree.ofPlan p).nodes, n.names.Nodup) {rows : List Record} {r : Record}
    (hr : r ∈ p.hydrate rows) :
    (RecordTree.ofPlan p).HoldsRecord rows p.selection.rawAliases r := by
  have hchildren : ∀ row ∈ rows, ∀ c ∈ (RecordTree.ofPlan p).children,
      RecordTree.Keeps rows row c.2 := fun row hrow c hc =>
    RecordTree.keeps_of_nodup hrow c.2 fun n hn =>
      hnames n (RecordTree.nodes_subset_of_mem_children hc hn)
  have hall : ∀ entry ∈ rows.foldl ((RecordTree.ofPlan p).addRow p.selection.rawAliases) [],
      (RecordTree.ofPlan p).HoldsRecord rows p.selection.rawAliases entry.2 := by
    refine List.foldlRecOn (motive := fun records : Records => ∀ entry ∈ records,
      (RecordTree.ofPlan p).HoldsRecord rows p.selection.rawAliases entry.2) rows _
      (fun entry h => absurd h List.not_mem_nil) fun records hrecords row hrow => ?_
    obtain ⟨hstart, hstep⟩ :=
      RecordTree.holdsRecord_mergeRow hrow hrecord (hchildren row hrow)
    exact Records.forall_upsert hstart hstep hrecords
  obtain ⟨entry, hentry, rfl⟩ := List.mem_map.mp hr
  exact hall entry hentry

end TableQuery
