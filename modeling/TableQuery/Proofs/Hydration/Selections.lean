import Mathlib.Data.List.Pairwise
import TableQuery.Proofs.Hydration.Labels

/-! # What is selected

Nothing is selected twice: a selection has one entry for each table, with different fields, and one
for each expression under a label (`Table.once_plan`). So the labels of a row are different exactly
if the fields and the expressions do not meet in a label (`Selection.Once.nodup_labels_iff`). The
selected fields belong to the entities behind the aliases (`Table.fieldsOf_plan`), and the selected
expressions to the columns (`Table.exists_column_of_raw`). -/

namespace TableQuery

open Outcome

/-! ### What is selected is selected once -/

/-- What an entry of a selection is found by: its table, or its expression with its label. -/
def SelectionEntry.key : SelectionEntry → String ⊕ String × String
  | .fields aliasName _ => .inl aliasName
  | .raw sql aliasName => .inr (sql, aliasName)

namespace Selection

/-- A selection has one entry for a table, with different fields, and one for an expression under a
label. -/
structure Once (s : Selection) : Prop where
  keys : (s.map SelectionEntry.key).Nodup
  names : ∀ a names, .fields a names ∈ s → names.Nodup

theorem nodup_addName {names : List String} (h : names.Nodup) (name : String) :
    (addName names name).Nodup := by
  unfold addName
  split_ifs with hmem
  · exact h
  · exact List.concat_eq_append ▸ h.concat (by simpa using hmem)

theorem mem_keys_addField {s : Selection} {a field : String} {key : String ⊕ String × String} :
    key ∈ (s.addField a field).map SelectionEntry.key ↔
      key ∈ s.map SelectionEntry.key ∨ key = .inl a := by
  obtain ⟨-, heq⟩ | ⟨before, names, after, rfl, -, heq⟩ := s.addField_cases a field <;> rw [heq]
  · simp [SelectionEntry.key]
  · simp only [List.map_append, List.map_cons, List.mem_append, List.mem_cons, SelectionEntry.key]
    tauto

namespace Once

variable {s : Selection}

theorem nil : Once [] := ⟨List.nodup_nil, fun _ _ h => absurd h List.not_mem_nil⟩

theorem addField (h : s.Once) (a field : String) : (s.addField a field).Once := by
  obtain ⟨hnone, heq⟩ | ⟨before, names, after, rfl, -, heq⟩ :=
    Selection.addField_cases s a field <;> rw [heq]
  · refine ⟨?_, fun b names hmem => ?_⟩
    · rw [List.map_append, List.map_singleton, ← List.concat_eq_append]
      refine h.keys.concat fun hkey => fieldsOf?_eq_none.mp hnone ?_
      obtain ⟨entry, hentry, hkey⟩ := List.mem_map.mp hkey
      cases entry with
      | fields b names => exact List.mem_filterMap.mpr ⟨_, hentry, congrArg some (Sum.inl.inj hkey)⟩
      | raw sql label => cases hkey
    · rcases List.mem_append.mp hmem with hmem | hmem
      · exact h.names b names hmem
      · obtain ⟨-, rfl⟩ := SelectionEntry.fields.inj (List.mem_singleton.mp hmem)
        exact List.nodup_singleton _
  · have hnames := h.names a names (List.mem_append_right _ List.mem_cons_self)
    refine ⟨by simpa [SelectionEntry.key] using h.keys, fun b names' hmem => ?_⟩
    rcases List.mem_append.mp hmem with hmem | hmem
    · exact h.names b names' (List.mem_append_left _ hmem)
    · rcases List.mem_cons.mp hmem with heq' | hmem
      · obtain ⟨-, rfl⟩ := SelectionEntry.fields.inj heq'
        exact nodup_addName hnames field
      · exact h.names b names' (List.mem_append_right _ (List.mem_cons_of_mem _ hmem))

theorem addRaw (h : s.Once) (sql label : String) : (s.addRaw sql label).Once := by
  unfold Selection.addRaw
  split_ifs with hmem
  · exact h
  · refine ⟨?_, fun a names hentry => ?_⟩
    · rw [List.map_append, List.map_singleton, ← List.concat_eq_append]
      refine h.keys.concat fun hkey => hmem ?_
      obtain ⟨entry, hentry, heq⟩ := List.mem_map.mp hkey
      cases entry with
      | fields a names => cases heq
      | raw sql' label' =>
        obtain ⟨rfl, rfl⟩ := Prod.mk.inj (Sum.inr.inj heq)
        simpa using hentry
    · rcases List.mem_append.mp hentry with hentry | hentry
      · exact h.names a names hentry
      · cases List.mem_singleton.mp hentry

theorem eq_of_key_eq (h : s.Once) {x y : SelectionEntry} (hx : x ∈ s) (hy : y ∈ s)
    (hkey : x.key = y.key) : x = y :=
  List.inj_on_of_nodup_map h.keys hx hy hkey

end Once

end Selection

theorem Table.once_plan {t : Table} {rootAlias : String} {p : Plan}
    (h : t.plan rootAlias = .ok p) : p.selection.Once :=
  selection_induction h .nil (fun _ a field hs => hs.addField a field)
    fun _ _ _ sql data _ _ hs => hs.addRaw (Template.selected sql) data.aliasName

/-! ### Expressions of columns -/

/-- The column shows an expression under a label. -/
def Column.Shows (c : Column) (sql label : String) : Prop :=
  ∃ data, c.source = .expression sql ∧ c.data = some data ∧ label = data.aliasName

theorem Selection.mem_keys_addRaw {s : Selection} {sql label : String}
    {key : String ⊕ String × String} (h : key ∈ (s.addRaw sql label).map SelectionEntry.key) :
    key ∈ s.map SelectionEntry.key ∨ key = .inr (sql, label) := by
  unfold addRaw at h
  split_ifs at h
  · exact .inl h
  · simpa [SelectionEntry.key] using h

theorem Selection.mem_rawAliases {s : Selection} {label : String} :
    label ∈ s.rawAliases ↔ ∃ sql, .raw sql label ∈ s := by
  constructor
  · intro h
    obtain ⟨entry, hentry, hlabel⟩ := List.mem_filterMap.mp h
    cases entry with
    | fields a names => cases hlabel
    | raw sql a =>
      obtain rfl : a = label := Option.some.inj hlabel
      exact ⟨sql, hentry⟩
  · rintro ⟨sql, h⟩
    exact List.mem_filterMap.mpr ⟨_, h, rfl⟩

theorem Table.exists_column_of_raw {t : Table} {rootAlias : String} {p : Plan}
    (h : t.plan rootAlias = .ok p) {sql label : String} (hraw : .raw sql label ∈ p.selection) :
    ∃ c ∈ t.registry.columns, ∃ text, c.Shows text label ∧ sql = Template.selected text := by
  refine selection_induction h (P := fun s => ∀ sql label,
    .inr (sql, label) ∈ s.map SelectionEntry.key → ∃ c ∈ t.registry.columns, ∃ text,
      c.Shows text label ∧ sql = Template.selected text)
    (fun _ _ hmem => absurd hmem List.not_mem_nil) (fun s a field hs sql label hmem => ?_)
    (fun s c hc text data hsource hdata hs sql label hmem => ?_) sql label
    (List.mem_map_of_mem hraw)
  · rcases Selection.mem_keys_addField.mp hmem with hmem | heq
    · exact hs sql label hmem
    · cases heq
  · rcases Selection.mem_keys_addRaw hmem with hmem | heq
    · exact hs sql label hmem
    · obtain ⟨rfl, rfl⟩ := Prod.mk.inj (Sum.inr.inj heq)
      exact ⟨c, hc, text, ⟨data, hsource, hdata, rfl⟩, rfl⟩

theorem Table.exists_column_of_rawAlias {t : Table} {rootAlias : String} {p : Plan}
    (h : t.plan rootAlias = .ok p) {label : String} (hlabel : label ∈ p.selection.rawAliases) :
    ∃ c ∈ t.registry.columns, ∃ sql, c.Shows sql label := by
  obtain ⟨sql, hraw⟩ := Selection.mem_rawAliases.mp hlabel
  obtain ⟨c, hc, text, hshows, -⟩ := exists_column_of_raw h hraw
  exact ⟨c, hc, text, hshows⟩

/-! ### Labels of a row -/

/-- The labels of what is selected are different: those of the fields of different tables, those of
different expressions, and those of fields and of expressions. -/
structure Selection.LabelsApart (s : Selection) : Prop where
  fields : ∀ a b field field', s.Selects a field → s.Selects b field' →
    fieldLabel a field = fieldLabel b field' → a = b
  expressions : ∀ sql sql' label, .raw sql label ∈ s → .raw sql' label ∈ s → sql = sql'
  apart : ∀ a field, s.Selects a field → fieldLabel a field ∉ s.rawAliases

namespace Selection

theorem fieldLabel_inj_right {a field field' : String}
    (h : fieldLabel a field = fieldLabel a field') : field = field' :=
  String.append_right_inj _ |>.mp h

theorem Once.nodup_labels {s : Selection} (h : s.Once) :
    (s.flatMap SelectionEntry.labels).Nodup ↔
      ∀ x ∈ s, ∀ y ∈ s, ∀ label ∈ x.labels, label ∈ y.labels → x = y := by
  have hone : ∀ entry ∈ s, entry.labels.Nodup := by
    intro entry hentry
    cases entry with
    | fields a names =>
      exact (h.names a names hentry).map fun _ _ => fieldLabel_inj_right
    | raw sql label => exact List.nodup_singleton _
  rw [List.nodup_flatMap, and_iff_right hone]
  constructor
  · intro hapart x hx y hy label hl hl'
    have hsymm : Std.Symm (Function.onFun List.Disjoint SelectionEntry.labels) :=
      ⟨fun _ _ hdisjoint => List.disjoint_symm hdisjoint⟩
    by_contra hne
    exact hapart.forall hx hy hne hl hl'
  · intro hshared
    exact (List.Nodup.of_map _ h.keys).pairwise_of_forall_ne fun x hx y hy hne label hl hl' =>
      hne (hshared x hx y hy label hl hl')

/-- **When labels are different**, for what is selected. -/
theorem Once.nodup_labels_iff {s : Selection} (h : s.Once) (hn : s.tables.Nodup) :
    (s.flatMap SelectionEntry.labels).Nodup ↔ s.LabelsApart := by
  have hselects : ∀ {a field}, s.Selects a field ↔
      ∃ names, .fields a names ∈ s ∧ field ∈ names := fun {a field} => by
    simp only [Selects, fieldsOf?_eq_some hn]
  rw [h.nodup_labels]
  constructor
  · intro hshared
    refine ⟨fun a b field field' hfield hfield' hlabel => ?_,
      fun sql sql' label hraw hraw' => ?_, fun a field hfield hlabel => ?_⟩
    · obtain ⟨names, hentry, hmem⟩ := hselects.mp hfield
      obtain ⟨names', hentry', hmem'⟩ := hselects.mp hfield'
      have heq := hshared _ hentry _ hentry' _ (List.mem_map_of_mem hmem)
        (hlabel ▸ List.mem_map_of_mem hmem')
      exact (SelectionEntry.fields.inj heq).1
    · have heq := hshared _ hraw _ hraw' label List.mem_cons_self List.mem_cons_self
      exact (SelectionEntry.raw.inj heq).1
    · obtain ⟨names, hentry, hmem⟩ := hselects.mp hfield
      obtain ⟨sql, hraw⟩ := mem_rawAliases.mp hlabel
      cases hshared _ hentry _ hraw _ (List.mem_map_of_mem hmem) List.mem_cons_self
  · intro hapart x hx y hy label hl hl'
    cases x with
    | fields a names =>
      obtain ⟨field, hfield, rfl⟩ := List.mem_map.mp hl
      have hselected : s.Selects a field := hselects.mpr ⟨names, hx, hfield⟩
      cases y with
      | fields b names' =>
        obtain ⟨field', hfield', heq⟩ := List.mem_map.mp hl'
        obtain rfl : b = a := hapart.fields b a field' field
          (hselects.mpr ⟨names', hy, hfield'⟩) hselected heq
        exact h.eq_of_key_eq hx hy rfl
      | raw sql label =>
        rw [SelectionEntry.labels, List.mem_singleton] at hl'
        exact absurd (mem_rawAliases.mpr ⟨sql, hl' ▸ hy⟩) (hapart.apart a field hselected)
    | raw sql label' =>
      obtain rfl := List.mem_singleton.mp hl
      cases y with
      | fields b names' =>
        obtain ⟨field', hfield', heq⟩ := List.mem_map.mp hl'
        exact absurd (mem_rawAliases.mpr ⟨sql, heq.symm ▸ hx⟩)
          (hapart.apart b field' (hselects.mpr ⟨names', hy, hfield'⟩))
      | raw sql' label' =>
        obtain rfl := List.mem_singleton.mp hl'
        rw [hapart.expressions sql sql' label hx hy]

end Selection

/-! ### Fields of entities -/

/-- The name is an identifier or a field of the entity. -/
def Entity.Has (e : Entity) (name : String) : Prop := name ∈ e.identifiers ∨ e.hasField name = true

theorem Entity.has_of_identifier {e : Entity} {name : String} (h : e.identifier = .ok name) :
    e.Has name := by
  unfold identifier at h
  split at h
  · next names heq =>
    obtain rfl := Except.ok.inj h
    exact .inl (heq ▸ List.mem_cons_self)
  · cases h

theorem Entity.has_of_fieldType {e : Entity} {name : String} {type : FieldType}
    (h : e.fieldType name = .ok type) : e.Has name := by
  unfold fieldType at h
  split at h
  · next mapping heq => exact .inr (by rw [hasField, heq]; rfl)
  · cases h

/-- The selected fields belong to the entities behind the aliases. -/
def Selection.FieldsOf (root : PlanRoot) (joins : JoinPlan) (s : Selection) : Prop :=
  ∀ a field, s.Selects a field → ∃ e, joins.Behind root a e ∧ e.Has field

namespace Selection

theorem Selects.of_addField {s : Selection} {a field b name : String}
    (h : (s.addField a field).Selects b name) : s.Selects b name ∨ (b = a ∧ name = field) := by
  obtain ⟨names, hnames, hmem⟩ := h
  rw [fieldsOf?_addField] at hnames
  split_ifs at hnames with hb
  · subst hb
    cases hold : s.fieldsOf? b with
    | none =>
      simp only [hold, Option.elim_none, Option.some.injEq] at hnames
      exact .inr ⟨rfl, by simpa [← hnames] using hmem⟩
    | some old =>
      simp only [hold, Option.elim_some, Option.some.injEq] at hnames
      rw [← hnames] at hmem
      rcases mem_addName.mp hmem with rfl | hmem
      · exact .inr ⟨rfl, rfl⟩
      · exact .inl ⟨old, hold, hmem⟩
  · exact .inl ⟨names, hnames, hmem⟩

variable {root : PlanRoot} {joins joins' : JoinPlan} {s : Selection}

theorem FieldsOf.mono (h : s.FieldsOf root joins) (hsubset : joins ⊆ joins') :
    s.FieldsOf root joins' := fun a field hselects => by
  obtain ⟨e, hbehind, hfield⟩ := h a field hselects
  exact ⟨e, hbehind.mono hsubset, hfield⟩

theorem FieldsOf.addField (h : s.FieldsOf root joins) {a field : String} {e : Entity}
    (ha : joins.Behind root a e) (hfield : e.Has field) :
    (s.addField a field).FieldsOf root joins := by
  intro b name hselects
  obtain hold | ⟨rfl, rfl⟩ := hselects.of_addField
  · exact h b name hold
  · exact ⟨e, ha, hfield⟩

theorem FieldsOf.addRaw (h : s.FieldsOf root joins) (sql label : String) :
    (s.addRaw sql label).FieldsOf root joins := by
  rintro a field ⟨names, hnames, hmem⟩
  rw [fieldsOf?_addRaw] at hnames
  exact h a field ⟨names, hnames, hmem⟩

end Selection

theorem Walk.Mapped.fieldsOf_hop {root : PlanRoot} {kind : JoinKind} {w w' : Walk}
    {relation : String} (hw' : w'.Mapped root) (hs : w.selection.FieldsOf root w.joins)
    (h : w.hop root.schema kind relation = .ok w') : w'.selection.FieldsOf root w'.joins := by
  have hext := prefix_of_hop h
  obtain ⟨join, hhop⟩ := exists_hopped h
  obtain ⟨hmem, -, -⟩ := JoinPlan.find?_eq_some (w.joins.find?_add join)
  rw [← hhop.joins] at hmem
  obtain ⟨e, target, -, -, htarget, hleads⟩ := hw'.joins _ hmem
  rw [hhop.selection]
  exact (hs.mono hext.subset).addField (.inr ⟨_, hmem, rfl, htarget⟩)
    (Entity.has_of_identifier hleads.identifier)

theorem Draft.fieldsOf_add {root : PlanRoot} {d d' : Draft} {c : Column}
    (hn : (root.aliasName :: d'.joins.aliases).Nodup) (hm : d.joins.Mapped root)
    (hs : d.selection.FieldsOf root d.joins) (hc : c.Resolved root.schema root.entity)
    (h : d.add root c = .ok d') : d'.selection.FieldsOf root d'.joins := by
  obtain ⟨sql, data, -, -, rfl⟩ |
    ⟨path, w, identifier, hsource, hselectable, hw, hidentifier, rfl⟩ | rfl := Draft.add_cases h
  · exact hs.addRaw _ _
  · have hstart : Walk.Mapped root ⟨d.joins, d.selection, root.aliasName, [], root.entity⟩ :=
      ⟨hm, .inl ⟨rfl, rfl⟩⟩
    obtain ⟨hmapped, hfields⟩ := foldlM_invariant
      (fun w : Walk => (root.aliasName :: w.joins.aliases).Nodup →
        w.Mapped root ∧ w.selection.FieldsOf root w.joins) _
      (fun _ _ w w' ih hhop hn' => by
        obtain ⟨hw, hs⟩ := ih (JoinPlan.nodup_of_extended (Walk.prefix_of_hop hhop) hn')
        have hw' := hw.hop hn' hhop
        exact ⟨hw', hw'.fieldsOf_hop hs hhop⟩)
      (fun _ => ⟨hstart, hs⟩) hw hn
    obtain ⟨last, type, hfollow, htype⟩ := hc path hsource hselectable
    obtain ⟨steps, hwalk, -⟩ := Schema.follow_eq_ok.mp hfollow
    obtain ⟨-, steps', -, hwalk', -⟩ := Walk.exists_route hw
    obtain ⟨-, rfl⟩ := hwalk.unique hwalk'
    exact (hfields.addField hmapped.behind (Entity.has_of_identifier hidentifier)).addField
      hmapped.behind (Entity.has_of_fieldType htype)
  · exact hs

/-- **The selected fields of a plan belong to the entities behind the aliases**, and the joins
follow associations of these, if the aliases are different. -/
theorem Table.fieldsOf_plan {t : Table} {rootAlias : String} {p : Plan} {root : Entity}
    (h : t.plan rootAlias = .ok p) (hroot : t.registry.root = .ok root)
    (hresolved : ∀ c ∈ t.registry.columns, c.Resolved t.registry.schema root)
    (hn : (p.rootAlias :: p.joins.aliases).Nodup) :
    p.joins.Mapped ⟨t.registry.schema, root, p.rootAlias⟩ ∧
      p.selection.FieldsOf ⟨t.registry.schema, root, p.rootAlias⟩ p.joins := by
  obtain ⟨root', d, hroot', hidentifier, hd, hrootAlias, hjoins, hselection, -⟩ := exists_draft h
  obtain rfl := Except.ok.inj (hroot'.symm.trans hroot)
  rw [hjoins, hrootAlias] at hn
  rw [hjoins, hselection, hrootAlias]
  refine foldlM_invariant (fun d : Draft => (rootAlias :: d.joins.aliases).Nodup →
    d.joins.Mapped ⟨t.registry.schema, root', rootAlias⟩ ∧
      d.selection.FieldsOf ⟨t.registry.schema, root', rootAlias⟩ d.joins) _
    (fun c hc d d' ih hadd hn' => ?_) (fun _ => ⟨fun j hj => absurd hj List.not_mem_nil, ?_⟩) hd hn
  · obtain ⟨hm, hs⟩ := ih (JoinPlan.nodup_of_extended (Draft.add_routed hadd).1 hn')
    exact ⟨.add hadd hn' hm, Draft.fieldsOf_add hn' hm hs (hresolved c hc) hadd⟩
  · have hempty : Selection.FieldsOf ⟨t.registry.schema, root', rootAlias⟩ [] [] := by
      rintro a field ⟨names, hnames, -⟩
      cases hnames
    exact hempty.addField (.inl ⟨rfl, rfl⟩) (Entity.has_of_identifier hidentifier)

end TableQuery
