import TableQuery.Column.Registry
import TableQuery.Proofs.Outcome

/-! # What registration guarantees

A registry comes about by registering and removing columns (`Registry.Built`). Its columns stand at
their positions, and for every column with a field the relationships on the way to the field were
followed: the cardinalities on the way are the chain of the column, and the entity at the end has
the field (`Registry.Built.sound`). Registering adds one column or none
(`Registry.register_cases`), and removing takes one out or none (`Registry.unregister_cases`), so
what holds of every column that is built holds of all columns (`Registry.Built.forall_columns`). In
particular the field type of a column is that of its field (`Registry.Built.isTyped`). -/

namespace TableQuery

open Outcome

/-! ### Walks along relationships -/

theorem Schema.entity_eq_ok {s : Schema} {name : String} {e : Entity} :
    s.entity name = .ok e ↔ Keyed.get? s name = some e := by
  unfold entity
  cases Keyed.get? s name <;> simp

theorem Entity.association_eq_ok {e : Entity} {name : String} {a : Association} :
    e.association name = .ok a ↔ Keyed.get? e.associations name = some a := by
  unfold association
  cases Keyed.get? e.associations name <;> simp

/-- Following relationships from an entity goes over these associations, each to the entity beside
it, and ends at an entity. -/
inductive Schema.Walks (s : Schema) :
    Entity → List String → List (Association × Entity) → Entity → Prop
  | nil (e : Entity) : Walks s e [] [] e
  | cons {e next last : Entity} {relation : String} {a : Association} {relations : List String}
    {steps : List (Association × Entity)} (association : e.association relation = .ok a)
    (target : s.entity a.target = .ok next) (rest : Walks s next relations steps last) :
    Walks s e (relation :: relations) ((a, next) :: steps) last

namespace Schema

variable {s : Schema} {e last : Entity} {relations : List String}

theorem follow_eq_ok {chain : List Cardinality} : s.follow e relations = .ok (last, chain) ↔
    ∃ steps, s.Walks e relations steps last ∧ chain = steps.map fun step => step.1.kind := by
  induction relations generalizing e chain with
  | nil =>
    rw [follow]
    constructor
    · intro h
      cases h
      exact ⟨[], .nil _, rfl⟩
    · rintro ⟨steps, hwalk, rfl⟩
      cases hwalk
      rfl
  | cons relation relations ih =>
    simp only [follow, bind_eq_ok, pure_eq_ok]
    constructor
    · rintro ⟨a, ha, next, hnext, ⟨last', chain'⟩, hrest, heq⟩
      obtain ⟨rfl, rfl⟩ := Prod.mk.inj heq
      obtain ⟨steps, hwalk, rfl⟩ := ih.mp hrest
      exact ⟨(a, next) :: steps, .cons ha hnext hwalk, rfl⟩
    · rintro ⟨steps, hwalk, rfl⟩
      cases hwalk with
      | @cons _ next _ _ a _ steps ha hnext hrest =>
        exact ⟨a, ha, next, hnext, _, ih.mpr ⟨steps, hrest, rfl⟩, rfl⟩

theorem Walks.unique {steps steps' : List (Association × Entity)} {last' : Entity}
    (h : s.Walks e relations steps last) (h' : s.Walks e relations steps' last') :
    steps = steps' ∧ last = last' := by
  induction h generalizing steps' with
  | nil e =>
    cases h'
    exact ⟨rfl, rfl⟩
  | cons ha hnext _ ih =>
    cases h' with
    | cons ha' hnext' hrest' =>
      cases ha.symm.trans ha'
      cases hnext.symm.trans hnext'
      obtain ⟨rfl, rfl⟩ := ih hrest'
      exact ⟨rfl, rfl⟩

end Schema

/-! ### Registries -/

/-- The relationships on the way to the field of a column can be followed, with the chain of the
column, to an entity that has the field. -/
def Column.Resolved (schema : Schema) (root : Entity) (c : Column) : Prop :=
  ∀ path, c.source = .field path → c.kind.isSelectable = true → ∃ last type,
    schema.follow root path.relations = .ok (last, c.chain) ∧ last.fieldType path.field = .ok type

theorem Column.Resolved.moved {schema : Schema} {root : Entity} {c : Column}
    (h : c.Resolved schema root) (i : Nat) : Column.Resolved schema root { c with index := i } := h

/-- The paths of a column were read from texts, and an expression has a place for its values. -/
structure Column.IsRead (c : Column) : Prop where
  data : ∀ path, c.data = some path → ∃ text, DataPath.ofText text = .ok path
  source : ∀ path, c.source = .field path → ∃ text, DataPath.ofText text = .ok path
  expression : ∀ sql, c.source = .expression sql → c.data.isSome = true

/-- The field type of a column with a field is the type of that field in the entity at the end of
its relationships. A virtual column has none. -/
structure Column.IsTyped (schema : Schema) (entity : String) (c : Column) : Prop where
  field : ∀ path, c.source = .field path → c.kind.isSelectable = true → ∃ root last type,
    schema.entity entity = .ok root ∧ schema.follow root path.relations = .ok (last, c.chain) ∧
      last.fieldType path.field = .ok type ∧ c.fieldType = some type
  virtual : c.isVirtual = true → c.fieldType = none

namespace Registry

/-- A registry that came about by registering and removing columns. -/
inductive Built : Registry → Prop
  | create {schema : Schema} {entity : String} {r : Registry}
    (h : Registry.create schema entity = .ok r) : Built r
  | register {r : Registry} (h : Built r) (name : Option String) (kind : ColumnKind)
    (options : Json) (filter : Option Filter) : Built (r.register name kind options filter).1
  | unregister {r : Registry} (h : Built r) (name : String) : Built (r.unregister name).1

/-- The columns of a registry stand at their positions, and their fields were found. -/
structure Sound (r : Registry) : Prop where
  positions : ∀ i (c : Column), r.columns[i]? = some c → c.index = i
  resolved : ∃ root, r.root = .ok root ∧ ∀ c ∈ r.columns, c.Resolved r.schema root

variable {r : Registry}

/-- **Registering adds one column or none**: it refuses the column and leaves the registry, refuses
it and takes it back, or adds a column that was built and is not one too many of its kind. -/
theorem register_cases (r : Registry) (name : Option String) (kind : ColumnKind) (options : Json)
    (filter : Option Filter) :
    (∃ e, r.register name kind options filter = (r, .error e)) ∨
      (∃ e, r.register name kind options filter = (r.withColumns r.columns, .error e)) ∨
      ∃ c, r.build r.columns.length name kind options filter = .ok c ∧
        (r.push c).checkUnique = .ok () ∧
        r.register name kind options filter = (r.push c, .ok c) := by
  unfold register
  cases hc : r.build r.columns.length name kind options filter with
  | error failure => exact .inl ⟨_, rfl⟩
  | ok c =>
    cases hunique : (r.push c).checkUnique with
    | error failure =>
      simp only [hunique]
      exact .inr (.inl ⟨.config (.column failure), by simp [push, withColumns]⟩)
    | ok _ =>
      simp only [hunique]
      exact .inr (.inr ⟨c, rfl, hunique, rfl⟩)

theorem register_frame (r : Registry) (name : Option String) (kind : ColumnKind) (options : Json)
    (filter : Option Filter) : (r.register name kind options filter).1.schema = r.schema ∧
      (r.register name kind options filter).1.entity = r.entity := by
  obtain ⟨e, heq⟩ | ⟨e, heq⟩ | ⟨c, -, -, heq⟩ := r.register_cases name kind options filter <;>
    rw [heq] <;> exact ⟨rfl, rfl⟩

/-- **Removing takes one column out or none**, and puts the others at their positions. -/
theorem unregister_cases (r : Registry) (name : String) : (r.unregister name).1 = r ∨
    ∃ i, (r.unregister name).1 = r.withColumns (reindex (r.columns.eraseIdx i)) := by
  unfold unregister
  cases r.columns.findIdx? fun c => c.name == some name with
  | none => exact .inl rfl
  | some i => exact .inr ⟨i, rfl⟩

theorem build_eq_ok {index : Nat} {name : Option String} {kind : ColumnKind} {options : Json}
    {filter : Option Filter} {c : Column} {root : Entity}
    (h : r.build index name kind options filter = .ok c) (hroot : r.root = .ok root) :
    c.index = index ∧ c.Resolved r.schema root := by
  simp only [build, bind_eq_ok, pure_eq_ok] at h
  obtain ⟨given, -, options, -, namePath, -, data, -, source, -, types, htypes, filter, -, rfl⟩ := h
  refine ⟨rfl, fun path hsource hselectable => ?_⟩
  obtain rfl : source = .field path := hsource
  have hkind : kind.isSelectable = true := hselectable
  simp only [typesOf, hkind, if_true, hroot, bind_eq_ok, mapError_eq_ok, pure_eq_ok] at htypes
  obtain ⟨root', hroot', ⟨last, chain⟩, hfollow, type, htype, rfl⟩ := htypes
  cases hroot'
  exact ⟨last, type, hfollow, htype⟩

theorem Sound.register (h : r.Sound) (name : Option String) (kind : ColumnKind) (options : Json)
    (filter : Option Filter) : (r.register name kind options filter).1.Sound := by
  obtain ⟨root, hroot, hresolved⟩ := h.resolved
  obtain ⟨e, heq⟩ | ⟨e, heq⟩ | ⟨c, hc, -, heq⟩ := r.register_cases name kind options filter <;>
    rw [heq]
  · exact h
  · exact ⟨h.positions, root, hroot, hresolved⟩
  · obtain ⟨hindex, hnew⟩ := build_eq_ok hc hroot
    refine ⟨fun i c' hc' => ?_, root, hroot, fun c' hc' => ?_⟩
    · rw [push, List.getElem?_append] at hc'
      split_ifs at hc' with hi
      · exact h.positions i c' hc'
      · rw [List.getElem?_singleton] at hc'
        split_ifs at hc' with hlast
        cases hc'
        omega
    · rcases List.mem_append.mp hc' with hold | hlast
      · exact hresolved c' hold
      · rw [List.mem_singleton.mp hlast]
        exact hnew

theorem Sound.unregister (h : r.Sound) (name : String) : (r.unregister name).1.Sound := by
  obtain ⟨root, hroot, hresolved⟩ := h.resolved
  obtain heq | ⟨i, heq⟩ := r.unregister_cases name <;> rw [heq]
  · exact h
  · refine ⟨fun j c hc => ?_, root, hroot, fun c hc => ?_⟩
    · simp only [withColumns, reindex, List.getElem?_mapIdx, Option.map_eq_some_iff] at hc
      obtain ⟨c', -, rfl⟩ := hc
      rfl
    · obtain ⟨j, hj, rfl⟩ := List.mem_mapIdx.mp hc
      exact (hresolved _ (List.mem_of_mem_eraseIdx (List.getElem_mem hj))).moved j

/-- **The columns of a registry stand at their positions, and their fields were found.** -/
theorem Built.sound (h : r.Built) : r.Sound := by
  induction h with
  | @create schema entity r h =>
    obtain ⟨root, hroot, rfl⟩ := map_eq_ok.mp h
    exact ⟨fun i c hc => by simp at hc, root, hroot, fun c hc => absurd hc List.not_mem_nil⟩
  | register _ name kind options filter ih => exact ih.register name kind options filter
  | unregister _ name ih => exact ih.unregister name

/-- **What holds of every column that is built for a schema and an entity holds of the columns of a
registry**, if a column keeps it at another position. -/
theorem Built.forall_columns_of {P : Schema → String → Column → Prop}
    (hbuild : ∀ (r : Registry) index name kind options filter c,
      r.build index name kind options filter = .ok c → P r.schema r.entity c)
    (hmoved : ∀ schema entity (c : Column) i, P schema entity c →
      P schema entity { c with index := i }) (h : r.Built) :
    ∀ c ∈ r.columns, P r.schema r.entity c := by
  induction h with
  | create h =>
    obtain ⟨root, -, rfl⟩ := map_eq_ok.mp h
    exact fun c hc => absurd hc List.not_mem_nil
  | @register r _ name kind options filter ih =>
    obtain ⟨e, heq⟩ | ⟨e, heq⟩ | ⟨c, hc, -, heq⟩ := r.register_cases name kind options filter <;>
      rw [heq]
    · exact ih
    · exact ih
    · refine fun c' hc' => (List.mem_append.mp hc').elim (ih c') fun hlast => ?_
      rw [List.mem_singleton.mp hlast]
      exact hbuild r _ name kind options filter c hc
  | @unregister r _ name ih =>
    obtain heq | ⟨i, heq⟩ := r.unregister_cases name <;> rw [heq]
    · exact ih
    · intro c hc
      obtain ⟨j, hj, rfl⟩ := List.mem_mapIdx.mp hc
      exact hmoved _ _ _ j (ih _ (List.mem_of_mem_eraseIdx (List.getElem_mem hj)))

theorem Built.forall_columns {P : Column → Prop}
    (hbuild : ∀ (r : Registry) index name kind options filter c,
      r.build index name kind options filter = .ok c → P c)
    (hmoved : ∀ (c : Column) i, P c → P { c with index := i }) (h : r.Built) :
    ∀ c ∈ r.columns, P c :=
  h.forall_columns_of (P := fun _ _ => P) hbuild fun _ _ => hmoved

/-! ### Paths of a column -/

theorem mapM_ofText_eq_ok {name : Option String} {namePath : Option DataPath}
    (h : name.mapM DataPath.ofText = .ok namePath) {path : DataPath}
    (hpath : namePath = some path) : ∃ text, DataPath.ofText text = .ok path := by
  subst hpath
  cases name with
  | none => cases h
  | some name =>
    rw [Option.mapM_some] at h
    obtain ⟨path', hread, heq⟩ := map_eq_ok.mp h
    exact ⟨name, by rw [hread, Option.some.inj heq]⟩

/-- **The paths of a column were read**, and its expression has a place for its values. -/
theorem isRead_build {index : Nat} {name : Option String} {kind : ColumnKind} {options : Json}
    {filter : Option Filter} {c : Column} (h : r.build index name kind options filter = .ok c) :
    c.IsRead := by
  simp only [build, bind_eq_ok, pure_eq_ok, mapError_eq_ok] at h
  obtain ⟨given, -, options, -, namePath, hname, data, hdata, source, hsource, types, -, filter, -,
    rfl⟩ := h
  refine ⟨fun path hpath => ?_, fun path hpath => ?_, fun sql hsql => ?_⟩
  · obtain rfl : data = some path := hpath
    unfold dataOf at hdata
    split at hdata
    · obtain ⟨path', hread, heq⟩ := map_eq_ok.mp hdata
      cases heq
      exact ⟨_, hread⟩
    · cases hdata
      exact mapM_ofText_eq_ok hname rfl
  · obtain rfl : source = .field path := hpath
    unfold sourceOf at hsource
    split at hsource
    · split_ifs at hsource
      cases hsource
    · cases namePath with
      | none => cases hsource
      | some path' =>
        cases hsource
        exact mapM_ofText_eq_ok hname rfl
  · obtain rfl : source = .expression sql := hsql
    unfold sourceOf at hsource
    split at hsource
    · split_ifs at hsource with hsome
      exact hsome
    · cases namePath <;> cases hsource

theorem Built.isRead (h : r.Built) : ∀ c ∈ r.columns, c.IsRead :=
  h.forall_columns (fun _ _ _ _ _ _ _ hbuild => isRead_build hbuild)
    fun _ _ hread => ⟨hread.data, hread.source, hread.expression⟩

/-! ### Types of a column -/

/-- **The field type of a column is that of its field**, and a column without one has none. -/
theorem isTyped_build {index : Nat} {name : Option String} {kind : ColumnKind} {options : Json}
    {filter : Option Filter} {c : Column} (h : r.build index name kind options filter = .ok c) :
    c.IsTyped r.schema r.entity := by
  simp only [build, bind_eq_ok, pure_eq_ok, mapError_eq_ok] at h
  obtain ⟨given, -, resolved, -, namePath, -, data, -, source, -, types, htypes, -, -, rfl⟩ := h
  refine ⟨fun path hsource hselectable => ?_, fun hvirtual => ?_⟩
  · obtain rfl : source = .field path := hsource
    have hkind : kind.isSelectable = true := hselectable
    simp only [typesOf, hkind, if_true, bind_eq_ok, mapError_eq_ok, pure_eq_ok] at htypes
    obtain ⟨root, hroot, ⟨last, chain⟩, hfollow, type, htype, rfl⟩ := htypes
    exact ⟨root, last, type, hroot, hfollow, htype, rfl⟩
  · simp only [Column.isVirtual, Column.isExpression, Bool.and_eq_true,
      Bool.not_eq_true'] at hvirtual
    unfold typesOf at htypes
    split at htypes
    · cases hvirtual.1
    · rw [if_neg (by rw [hvirtual.2]; exact Bool.false_ne_true)] at htypes
      cases htypes
      rfl
    · rw [if_neg (by rw [hvirtual.2]; exact Bool.false_ne_true)] at htypes
      cases htypes
      rfl

theorem Built.isTyped (h : r.Built) : ∀ c ∈ r.columns, c.IsTyped r.schema r.entity :=
  h.forall_columns_of (fun _ _ _ _ _ _ _ hbuild => isTyped_build hbuild)
    fun _ _ _ _ htyped => ⟨htyped.field, htyped.virtual⟩

/-- The registry of an entity with some columns, given by their names, kinds and options. -/
def ofColumns (schema : Schema) (entity : String) (columns : List (String × ColumnKind × Json)) :
    Registry :=
  columns.foldl (fun r c => (r.register (some c.1) c.2.1 c.2.2 none).1) ⟨schema, entity, [], []⟩

/-- **Such a registry came about by registering**, if the schema has the entity. -/
theorem built_ofColumns {schema : Schema} {entity : String}
    (h : Registry.create schema entity = .ok ⟨schema, entity, [], []⟩)
    (columns : List (String × ColumnKind × Json)) : (ofColumns schema entity columns).Built ∧
      (ofColumns schema entity columns).schema = schema := by
  refine List.foldlRecOn (motive := fun r : Registry => r.Built ∧ r.schema = schema) columns _
    ⟨.create h, rfl⟩ fun r h c _ => ⟨h.1.register (some c.1) c.2.1 c.2.2 none, ?_⟩
  exact (r.register_frame (some c.1) c.2.1 c.2.2 none).1.trans h.2

end Registry

end TableQuery
