import Mathlib.Tactic.MkIffOfInductiveProp
import TableQuery.Proofs.Column.Registered
import TableQuery.Proofs.DataPath
import TableQuery.Proofs.Keyed
import TableQuery.Proofs.Plan.Joins
import TableQuery.Proofs.Sql.Printable

/-! # Names of a plan

In a schema whose names are identifiers, the columns of a registry can be planned, and every name
of the plan is an identifier again (`Table.exists_plan`). Aliases are made of identifiers by joining
them with underscores (`isIdentifier_alias`), a field is stored in a column with an identifier for
a name (`Entity.WellNamed.columnFor`), and the walk that registration took is taken again
(`Walk.WellNamed.exists_walk`). So each column adds names that print (`Draft.WellNamed.exists_add`),
and so do the overrides that are filled in at the end (`Plan.prints_override`). -/

namespace TableQuery

open Outcome

/-! ### Schemas -/

/-- The names of a link table are identifiers. -/
@[mk_iff]
structure LinkTable.WellNamed (l : LinkTable) : Prop where
  table : isIdentifier l.table = true
  sourceColumn : isIdentifier l.sourceColumn = true
  targetColumn : isIdentifier l.targetColumn = true

/-- The columns of an association are identifiers, and so are the names of its link table. -/
@[mk_iff]
structure Association.WellNamed (a : Association) : Prop where
  localColumn : isIdentifier a.localColumn = true
  foreignColumn : isIdentifier a.foreignColumn = true
  link : ∀ l, a.link = some l → l.WellNamed

/-- An entity has an identifier, and its table, its columns and its associations have identifiers
for names. -/
@[mk_iff]
structure Entity.WellNamed (e : Entity) : Prop where
  table : isIdentifier e.table = true
  identified : e.identifiers ≠ []
  identifiers : ∀ name ∈ e.identifiers, isIdentifier name = true
  columns : ∀ entry ∈ e.fields, ∀ column, entry.2.column = some column → isIdentifier column = true
  associations : ∀ entry ∈ e.associations, entry.2.WellNamed

/-- The entities of a schema are well named. -/
def Schema.WellNamed (s : Schema) : Prop := ∀ entry ∈ s, entry.2.WellNamed

/-! These conditions can be checked of a given schema. -/

instance (l : LinkTable) : Decidable l.WellNamed := decidable_of_iff' _ l.wellNamed_iff

instance (a : Association) : Decidable a.WellNamed :=
  have : Decidable (∀ l, a.link = some l → l.WellNamed) :=
    inferInstanceAs (Decidable (∀ l ∈ a.link, l.WellNamed))
  decidable_of_iff' _ a.wellNamed_iff

instance (e : Entity) : Decidable e.WellNamed :=
  have : Decidable (∀ entry ∈ e.fields, ∀ column, entry.2.column = some column →
      isIdentifier column = true) :=
    inferInstanceAs (Decidable (∀ entry ∈ e.fields, ∀ column ∈ entry.2.column,
      isIdentifier column = true))
  decidable_of_iff' _ e.wellNamed_iff

instance (s : Schema) : Decidable s.WellNamed :=
  inferInstanceAs (Decidable (∀ entry ∈ s, entry.2.WellNamed))

namespace Entity.WellNamed

variable {e : Entity} (h : e.WellNamed)
include h

theorem exists_identifier : ∃ name, e.identifier = .ok name ∧ isIdentifier name = true := by
  obtain ⟨name, names, heq⟩ := List.exists_cons_of_ne_nil h.identified
  exact ⟨name, by rw [identifier, heq], h.identifiers name (by simp [heq])⟩

theorem columnFor {field : String} (hfield : isIdentifier field = true) :
    isIdentifier (e.columnFor field) = true := by
  unfold Entity.columnFor
  cases hget : Keyed.get? e.fields field with
  | none => exact hfield
  | some mapping =>
    cases hcolumn : mapping.column with
    | none => simpa [hcolumn] using hfield
    | some column => simpa [hcolumn] using h.columns _ (Keyed.mem_of_get? hget) column hcolumn

theorem association {relation : String} {a : Association} (ha : e.association relation = .ok a) :
    a.WellNamed :=
  h.associations _ (Keyed.mem_of_get? (Entity.association_eq_ok.mp ha))

end Entity.WellNamed

theorem Schema.WellNamed.entity {s : Schema} (h : s.WellNamed) {name : String} {e : Entity}
    (he : s.entity name = .ok e) : e.WellNamed :=
  h _ (Keyed.mem_of_get? (Schema.entity_eq_ok.mp he))

/-! ### Aliases -/

theorem isIdentifier_safeAlias {name : String} (h : isIdentifier name = true) :
    isIdentifier (safeAlias name) = true := by
  unfold safeAlias
  split_ifs
  · exact isIdentifier_append (by decide) (isIdentifier_over h)
  · exact h

theorem isIdentifier_alias {names : List String} (hne : names ≠ [])
    (h : ∀ name ∈ names, isIdentifier name = true) :
    isIdentifier (safeAlias ("_".intercalate names)) = true :=
  isIdentifier_safeAlias (isIdentifier_intercalate hne h)

theorem isIdentifier_fieldLabel {aliasName field : String} (ha : isIdentifier aliasName = true)
    (hfield : isIdentifier field = true) : isIdentifier (fieldLabel aliasName field) = true := by
  rw [fieldLabel, String.append_assoc]
  exact isIdentifier_append ha (.append (.of_all (by decide)) (isIdentifier_over hfield))

theorem PlannedJoin.isIdentifier_linkAlias {j : PlannedJoin} (h : isIdentifier j.aliasName = true) :
    isIdentifier j.linkAlias = true :=
  isIdentifier_append h (.of_all (by decide))

theorem DataPath.isIdentifier_aliasName {text : String} {path : DataPath}
    (h : DataPath.ofText text = .ok path) : isIdentifier path.aliasName = true :=
  isIdentifier_intercalate (by simp [segments]) (isIdentifier_of_mem_segments h)

/-! ### Selections -/

/-- An alias and fields that are identifiers, or an expression that is not blank under a label that
is one. -/
def SelectionEntry.WellNamed : SelectionEntry → Prop
  | .fields aliasName names =>
    isIdentifier aliasName = true ∧ ∀ name ∈ names, isIdentifier name = true
  | .raw sql aliasName => Text.isBlankText sql = false ∧ isIdentifier aliasName = true

/-- The entries of a selection are well named. -/
def Selection.WellNamed (s : Selection) : Prop := ∀ entry ∈ s, entry.WellNamed

namespace Selection

theorem wellNamed_addField {s : Selection} (h : WellNamed s) {a field : String}
    (ha : isIdentifier a = true) (hfield : isIdentifier field = true) :
    WellNamed (s.addField a field) := by
  obtain ⟨-, heq⟩ | ⟨before, names, after, rfl, -, heq⟩ := s.addField_cases a field <;> rw [heq]
  · exact List.forall_mem_append.mpr
      ⟨h, List.forall_mem_singleton.mpr ⟨ha, List.forall_mem_singleton.mpr hfield⟩⟩
  · obtain ⟨hbefore, hrest⟩ := List.forall_mem_append.mp h
    obtain ⟨hentry, hafter⟩ := List.forall_mem_cons.mp hrest
    refine List.forall_mem_append.mpr ⟨hbefore, List.forall_mem_cons.mpr ⟨⟨ha, ?_⟩, hafter⟩⟩
    intro name hname
    rcases mem_addName.mp hname with rfl | hname
    · exact hfield
    · exact hentry.2 name hname

theorem wellNamed_addRaw {s : Selection} (h : WellNamed s) {sql label : String}
    (hsql : Text.isBlankText sql = false) (hlabel : isIdentifier label = true) :
    WellNamed (s.addRaw sql label) := by
  unfold addRaw
  split_ifs
  · exact h
  · intro entry hentry
    rcases List.mem_append.mp hentry with hentry | hentry
    · exact h entry hentry
    · rw [List.mem_singleton.mp hentry]
      exact ⟨hsql, hlabel⟩

end Selection

/-! ### Walks -/

/-- The names of a join are identifiers. -/
structure PlannedJoin.WellNamed (j : PlannedJoin) : Prop where
  aliasName : isIdentifier j.aliasName = true
  table : isIdentifier j.table = true
  identifier : isIdentifier j.identifier = true
  association : j.association.WellNamed

/-- The names of a walk are identifiers. -/
structure Walk.WellNamed (w : Walk) : Prop where
  joins : ∀ j ∈ w.joins, j.WellNamed
  selection : Selection.WellNamed w.selection
  aliasName : isIdentifier w.aliasName = true
  behind : ∀ name ∈ w.behind, isIdentifier name = true
  entity : w.entity.WellNamed

namespace Walk.WellNamed

variable {schema : Schema} {kind : JoinKind} {w : Walk}

theorem exists_hop (hw : w.WellNamed) (hschema : schema.WellNamed) {relation : String}
    (hrelation : isIdentifier relation = true) {a : Association} {next : Entity}
    (ha : w.entity.association relation = .ok a) (hnext : schema.entity a.target = .ok next) :
    ∃ w', w.hop schema kind relation = .ok w' ∧ w'.WellNamed ∧ w'.entity = next := by
  have hentity := hschema.entity hnext
  obtain ⟨identifier, hidentifier, hname⟩ := hentity.exists_identifier
  obtain ⟨w', h⟩ : ∃ w', w.hop schema kind relation = .ok w' := by
    simp only [hop, bind_eq_ok]
    exact ⟨_, a, ha, next, hnext, identifier, hidentifier, rfl⟩
  obtain ⟨join, hjoin⟩ := exists_hopped h
  obtain rfl : a = join.association := Except.ok.inj (ha.symm.trans hjoin.association)
  obtain rfl : next = w'.entity := Except.ok.inj (hnext.symm.trans hjoin.target)
  obtain rfl : identifier = join.identifier :=
    Except.ok.inj (hidentifier.symm.trans hjoin.leads.identifier)
  have hbehind : ∀ name ∈ w'.behind, isIdentifier name = true := by
    rw [hjoin.behind]
    simpa [or_imp, forall_and] using ⟨hw.behind, hrelation⟩
  have halias : isIdentifier join.aliasName = true := by
    rw [hjoin.path, ← hjoin.behind]
    exact isIdentifier_alias (by simp [hjoin.behind]) hbehind
  have hnew : join.WellNamed :=
    ⟨halias, hjoin.leads.table ▸ hentity.table, hname, hw.entity.association ha⟩
  -- the join that is found or added is well named, and so are all joins then
  obtain ⟨hfound, hjoins⟩ : (w.joins.add join).2.WellNamed ∧
      ∀ j ∈ (w.joins.add join).1, j.WellNamed := by
    rcases w.joins.add_cases join with ⟨planned, hmem, -, heq⟩ | ⟨-, heq⟩ <;> rw [heq]
    · exact ⟨hw.joins planned hmem, hw.joins⟩
    · refine ⟨hnew, fun j hj => ?_⟩
      rcases List.mem_append.mp hj with hj | hj
      · exact hw.joins j hj
      · rwa [List.mem_singleton.mp hj]
  refine ⟨w', h, ⟨?_, ?_, ?_, hbehind, hentity⟩, rfl⟩
  · rwa [hjoin.joins]
  · rw [hjoin.selection]
    exact Selection.wellNamed_addField hw.selection hfound.aliasName hfound.identifier
  · rw [hjoin.reached]
    exact hfound.aliasName

/-- **The walk that registration took is taken again.** -/
theorem exists_walk (hschema : schema.WellNamed) {relations : List String}
    {steps : List (Association × Entity)} {e last : Entity}
    (h : schema.Walks e relations steps last) (hw : w.WellNamed) (he : w.entity = e)
    (hrelations : ∀ name ∈ relations, isIdentifier name = true) :
    ∃ w', relations.foldlM (Walk.hop schema kind) w = .ok w' ∧ w'.WellNamed ∧ w'.entity = last := by
  induction h generalizing w with
  | nil e => exact ⟨w, rfl, hw, he⟩
  | @cons e next last relation a relations steps ha hnext _ ih =>
    obtain ⟨hrelation, hrest⟩ := List.forall_mem_cons.mp hrelations
    obtain ⟨w₁, hhop, hw₁, hentity⟩ := hw.exists_hop hschema hrelation (he ▸ ha) hnext
    obtain ⟨w', hfold, hw'⟩ := ih hw₁ hentity hrest
    exact ⟨w', by rw [List.foldlM_cons]; exact bind_eq_ok.mpr ⟨w₁, hhop, hfold⟩, hw'⟩

end Walk.WellNamed

/-! ### Columns -/

/-- The names of a draft are identifiers, and what its columns are searched and ordered by
prints. -/
structure Draft.WellNamed (d : Draft) : Prop where
  joins : ∀ j ∈ d.joins, j.WellNamed
  selection : Selection.WellNamed d.selection
  search : AllTargets Target.Prints d.search
  order : AllTargets Target.Prints d.order

/-- **A column can be planned**, and what it adds prints. -/
theorem Draft.WellNamed.exists_add {root : PlanRoot} {d : Draft} (hd : d.WellNamed)
    (hschema : root.schema.WellNamed) (hroot : root.entity.WellNamed)
    (halias : isIdentifier root.aliasName = true) {c : Column}
    (hresolved : c.Resolved root.schema root.entity) (hread : c.IsRead)
    (hsql : ∀ sql, c.source = .expression sql → Text.isBlankText sql = false) :
    ∃ d', d.add root c = .ok d' ∧ d'.WellNamed := by
  unfold Draft.add
  split
  · next sql hsource =>
    obtain ⟨data, hdata⟩ := Option.isSome_iff_exists.mp (hread.expression sql hsource)
    obtain ⟨text, htext⟩ := hread.data data hdata
    have hlabel := DataPath.isIdentifier_aliasName htext
    have hblank := hsql sql hsource
    rw [hdata]
    refine ⟨_, rfl, hd.joins,
      Selection.wellNamed_addRaw hd.selection (Template.isBlankText_expand "" hblank) hlabel,
      hd.search.concat_slotIf fun _ => ?_, hd.order.concat_slotIf fun _ => ?_⟩
    · exact Target.prints_raw.mpr (Template.isBlankText_expand "_search" hblank)
    · exact Target.prints_label.mpr (isIdentifierPath_of_isIdentifier hlabel)
  · next path hsource =>
    split_ifs with hselectable
    · obtain ⟨text, htext⟩ := hread.source path hsource
      have hsegments := DataPath.isIdentifier_of_mem_segments htext
      have hfield : isIdentifier path.field = true := hsegments _ (by simp [DataPath.segments])
      obtain ⟨last, type, hfollow, -⟩ := hresolved path hsource hselectable
      obtain ⟨steps, hwalk, -⟩ := Schema.follow_eq_ok.mp hfollow
      obtain ⟨w, hw, hnamed, -⟩ : ∃ w, path.relations.foldlM (Walk.hop root.schema c.joinKind)
          ⟨d.joins, d.selection, root.aliasName, [], root.entity⟩ = .ok w ∧ w.WellNamed ∧
            w.entity = last :=
        Walk.WellNamed.exists_walk hschema hwalk ⟨hd.joins, hd.selection, halias, by simp, hroot⟩
          rfl fun name hname => hsegments name (List.mem_append_left _ hname)
      obtain ⟨identifier, hidentifier, hname⟩ := hnamed.entity.exists_identifier
      have htarget := Target.prints_column.mpr
        ⟨hnamed.aliasName, hnamed.entity.columnFor hfield⟩
      have hselection := Selection.wellNamed_addField
        (Selection.wellNamed_addField hnamed.selection hnamed.aliasName hname) hnamed.aliasName
        hfield
      have hadd : d.addField root c path = .ok (Draft.withSlots
          { d with
            joins := w.joins
            selection :=
              (w.selection.addField w.aliasName identifier).addField w.aliasName path.field }
          (slotIf c.searchable (.column w.aliasName (w.entity.columnFor path.field)))
          (slotIf c.orderable (.column w.aliasName (w.entity.columnFor path.field)))) := by
        simp only [Draft.addField, bind_eq_ok]
        exact ⟨w, hw, identifier, hidentifier, rfl⟩
      exact ⟨_, mapError_eq_ok.mpr hadd, hnamed.joins, hselection,
        hd.search.concat_slotIf fun _ => htarget, hd.order.concat_slotIf fun _ => htarget⟩
    · exact ⟨_, rfl, hd.joins, hd.selection, hd.search.concat_nil, hd.order.concat_nil⟩
  · exact ⟨_, rfl, hd.joins, hd.selection, hd.search.concat_nil, hd.order.concat_nil⟩

/-! ### Overrides -/

/-- The entries of an override contain a dot or are identifiers. -/
def AreEntries (entries : List String) : Prop :=
  ∀ entry ∈ entries, '.' ∈ entry.toList ∨ isIdentifier entry = true

namespace Plan

variable {p : Plan} {r : Registry}

theorem isIdentifier_columnFor {schema : Schema} (hschema : schema.WellNamed) (aliasName : String)
    {field : String} (hfield : isIdentifier field = true) :
    isIdentifier (p.columnFor schema aliasName field) = true := by
  unfold columnFor
  cases he : p.mappedEntity? schema aliasName with
  | none => exact hfield
  | some e =>
    obtain ⟨name, -, hget⟩ := Option.bind_eq_some_iff.mp he
    exact (hschema _ (Keyed.mem_of_get? hget)).columnFor hfield

theorem prints_qualify {schema : Schema} (hschema : schema.WellNamed) {aliasName field : String}
    (ha : isIdentifier aliasName = true) (hfield : isIdentifier field = true) :
    (p.qualify schema aliasName field).Prints :=
  Target.prints_column.mpr ⟨ha, isIdentifier_columnFor hschema aliasName hfield⟩

theorem prints_expressionLabel (hread : ∀ c ∈ r.columns, c.IsRead) {name : String} {t : Target}
    (h : expressionLabel? r name = some t) : t.Prints := by
  unfold expressionLabel? at h
  split at h
  · next c hc =>
    obtain ⟨i, -, hget⟩ := Option.bind_eq_some_iff.mp hc
    split_ifs at h
    obtain ⟨data, hdata, rfl⟩ := Option.map_eq_some_iff.mp h
    obtain ⟨text, htext⟩ := (hread c (List.mem_of_getElem? hget)).data data hdata
    exact Target.prints_label.mpr
      (isIdentifierPath_of_isIdentifier (DataPath.isIdentifier_aliasName htext))
  · cases h

/-- **What an override says prints**: with a dot it is a column or an expression that is not blank,
and without one a label or a column of the root. -/
theorem prints_override (hschema : r.schema.WellNamed) (hread : ∀ c ∈ r.columns, c.IsRead)
    (hroot : isIdentifier p.rootAlias = true) (ordering : Bool) {entry : String}
    (h : '.' ∈ entry.toList ∨ isIdentifier entry = true) :
    (p.override r ordering entry).Prints := by
  simp only [override]
  split
  · next hdot =>
    have hblank : Text.isBlankText (Text.trim entry) = false :=
      Text.isBlankText_eq_false.mpr ⟨'.', by simpa using hdot, by decide⟩
    have hprints := Target.prints_ofText hblank
    cases hname : Target.ofText (Text.trim entry) with
    | column aliasName field =>
      rw [hname] at hprints
      obtain ⟨ha, hfield⟩ := Target.prints_column.mp hprints
      exact prints_qualify hschema ha hfield
    | label name => rwa [hname] at hprints
    | raw sql => rwa [hname] at hprints
  · next hdot =>
    have hentry : isIdentifier entry = true := by
      refine h.resolve_left fun hmem => hdot ?_
      have hkept : '.' ∈ (Text.trim entry).toList := by
        rwa [Text.toList_trim, Text.mem_trimChars (by decide)]
      simpa using hkept
    rw [trim_of_isIdentifier hentry]
    cases hlabel : if ordering then expressionLabel? r entry else none with
    | none => exact prints_qualify hschema hroot hentry
    | some t =>
      cases ordering
      · cases hlabel
      · exact prints_expressionLabel hread hlabel

theorem prints_overrideSlot (hschema : r.schema.WellNamed) (hread : ∀ c ∈ r.columns, c.IsRead)
    (hroot : isIdentifier p.rootAlias = true) (ordering : Bool) {c : Column}
    (hentries : ∀ entries, c.searchColumn = some entries ∨ c.orderColumn = some entries →
      AreEntries entries) {slot : Slot} (hslot : ∀ t ∈ slot, t.Prints) :
    ∀ t ∈ p.overrideSlot r ordering c slot, t.Prints := by
  unfold overrideSlot
  by_cases hable : (c.isVirtual && if ordering then c.orderable else c.searchable) = true
  · rw [if_pos hable]
    cases hgiven : if ordering then c.orderColumn else c.searchColumn with
    | none => exact hslot
    | some entries =>
      have hare : AreEntries entries := by
        cases ordering
        · exact hentries entries (.inl hgiven)
        · exact hentries entries (.inr hgiven)
      intro t ht
      obtain ⟨entry, hentry, rfl⟩ := List.mem_map.mp ht
      exact prints_override hschema hread hroot ordering (hare entry hentry)
  · rwa [if_neg hable]

end Plan

/-! ### Plans -/

/-- The names of a plan are identifiers, and what its columns are searched and ordered by prints. -/
structure Plan.WellNamed (p : Plan) : Prop where
  rootAlias : isIdentifier p.rootAlias = true
  rootIdentifier : isIdentifier p.rootIdentifier = true
  joins : ∀ j ∈ p.joins, j.WellNamed
  selection : Selection.WellNamed p.selection
  search : AllTargets Target.Prints p.search
  order : AllTargets Target.Prints p.order

/-- The names that a table is made from: those of its schema and of its root are identifiers, its
expressions are not blank, and its overrides have entries of the two forms. -/
structure Table.WellNamed (t : Table) : Prop where
  schema : t.registry.schema.WellNamed
  root : ∀ root, t.registry.root = .ok root → isIdentifier root.shortName = true
  expressions : ∀ c ∈ t.registry.columns, ∀ sql, c.source = .expression sql →
    Text.isBlankText sql = false
  overrides : ∀ c ∈ t.registry.columns, ∀ entries,
    c.searchColumn = some entries ∨ c.orderColumn = some entries → AreEntries entries

/-- **A table with such names can be planned**, and the names of its plan are identifiers. -/
theorem Table.exists_plan {t : Table} (hbuilt : t.registry.Built) (hnames : t.WellNamed)
    {rootAlias : String} (halias : isIdentifier rootAlias = true) :
    ∃ p, t.plan rootAlias = .ok p ∧ p.WellNamed := by
  obtain ⟨root, hroot, hresolved⟩ := hbuilt.sound.resolved
  have hread := hbuilt.isRead
  have hentity : root.WellNamed := hnames.schema.entity hroot
  obtain ⟨identifier, hidentifier, hname⟩ := hentity.exists_identifier
  have hstart : Draft.WellNamed ⟨[], Selection.addField [] rootAlias identifier, [], []⟩ :=
    ⟨by simp, Selection.wellNamed_addField (by simp [Selection.WellNamed]) halias hname, .nil _,
      .nil _⟩
  obtain ⟨d, hd, hdraft⟩ := exists_foldlM Draft.WellNamed t.registry.columns
    (f := Draft.add ⟨t.registry.schema, root, rootAlias⟩)
    (fun c hc d hd => hd.exists_add hnames.schema hentity halias (hresolved c hc) (hread c hc)
      (hnames.expressions c hc)) hstart
  refine ⟨_, plan_eq_ok.mpr ⟨root, identifier, d, hroot, hidentifier, hd, _, rfl, rfl⟩, halias,
    hname, hdraft.joins, hdraft.selection, ?_, ?_⟩
  · exact hdraft.search.zipWith fun c hc _ hslot =>
      Plan.prints_overrideSlot hnames.schema hread halias false (hnames.overrides c hc) hslot
  · exact hdraft.order.zipWith fun c hc _ hslot =>
      Plan.prints_overrideSlot hnames.schema hread halias true (hnames.overrides c hc) hslot

end TableQuery
