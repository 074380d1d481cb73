import Mathlib.Data.List.Induction
import Mathlib.Order.Bounds.Basic
import TableQuery.Proofs.Column.Registered
import TableQuery.Proofs.DataPath
import TableQuery.Proofs.Keyed
import TableQuery.Proofs.Search.ParamNames

/-! # Positions and names of columns

The list of columns, their positions and the index of names are kept by different steps: a new
column is added to the index, a column that is taken back or removed has the index made anew. Both
ways the index is the one of the columns (`Registry.Consistent`), so a name is found at the last
column that has it. A column without a data path is known by its position, which no path can be
mistaken for, as a path does not begin with a digit (`Registry.Built.positioned`).

A column that is one too many of its kind may have hidden another one of its name before it is taken
back. The index that is made anew finds that one again, so a registration that is refused leaves the
registry as it was (`Registry.Built.register_refused`). -/

namespace TableQuery

open Outcome

namespace Registry

variable {r : Registry}

/-! ### Kinds that a table has at most once -/

/-- The kinds of the columns that a table has at most once. -/
def uniqueKinds (columns : List Column) : List ColumnKind :=
  (columns.map Column.kind).filter ColumnKind.isUnique

theorem uniqueKinds_reindex (columns : List Column) :
    uniqueKinds (reindex columns) = uniqueKinds columns := by
  have hkinds : (reindex columns).map Column.kind = columns.map Column.kind := by
    refine List.ext_getElem? fun i => ?_
    simp only [reindex, List.getElem?_map, List.getElem?_mapIdx, Option.map_map]
    rfl
  rw [uniqueKinds, hkinds, uniqueKinds]

theorem uniqueKinds_sublist {columns columns' : List Column} (h : columns.Sublist columns') :
    (uniqueKinds columns).Sublist (uniqueKinds columns') :=
  (h.map Column.kind).filter ColumnKind.isUnique

/-- A list of columns is accepted exactly if no kind of which there is at most one column comes
twice, or was seen before. -/
theorem checkUniqueFrom_eq_ok {seen : List (ColumnKind × Nat)} {columns : List Column} :
    checkUniqueFrom seen columns = .ok () ↔
      (uniqueKinds columns).Nodup ∧ ∀ kind ∈ uniqueKinds columns, seen.lookup kind = none := by
  induction columns generalizing seen with
  | nil => simp [checkUniqueFrom, uniqueKinds]
  | cons c rest ih =>
    rw [checkUniqueFrom]
    by_cases hc : c.kind.isUnique = true
    · have hkinds : uniqueKinds (c :: rest) = c.kind :: uniqueKinds rest := by
        rw [uniqueKinds, List.map_cons, List.filter_cons_of_pos hc, uniqueKinds]
      rw [if_pos hc, hkinds, List.nodup_cons, List.forall_mem_cons]
      cases hseen : seen.lookup c.kind with
      | some first => simp
      | none =>
        have hlookup : ∀ kind, ((c.kind, c.index) :: seen).lookup kind = none ↔
            kind ≠ c.kind ∧ seen.lookup kind = none := fun kind => by
          rw [List.lookup_cons]
          rcases eq_or_ne kind c.kind with h | h
          · simp [h]
          · simp only [beq_eq_false_iff_ne.mpr h, h, ne_eq, not_false_eq_true, true_and]
        simp only [ih, hlookup, true_and]
        constructor
        · rintro ⟨hnodup, h⟩
          exact ⟨⟨fun hmem => (h _ hmem).1 rfl, hnodup⟩, fun kind hk => (h kind hk).2⟩
        · rintro ⟨⟨hnot, hnodup⟩, h⟩
          exact ⟨hnodup, fun kind hk => ⟨fun heq => hnot (heq ▸ hk), h kind hk⟩⟩
    · have hkinds : uniqueKinds (c :: rest) = uniqueKinds rest := by
        rw [uniqueKinds, List.map_cons, List.filter_cons_of_neg hc, uniqueKinds]
      rw [if_neg hc, hkinds]
      exact ih

theorem checkUnique_eq_ok : r.checkUnique = .ok () ↔ (uniqueKinds r.columns).Nodup := by
  rw [checkUnique, checkUniqueFrom_eq_ok]
  simp

/-! ### The index of names -/

/-- The index of names is the one of the columns, and no kind of which a table has at most one
column comes twice. -/
structure Consistent (r : Registry) : Prop where
  names : r.names = indexNames r.columns
  unique : (uniqueKinds r.columns).Nodup

theorem indexNames_append (columns : List Column) (c : Column) : indexNames (columns ++ [c]) =
    c.name.elim (indexNames columns) fun name =>
      Keyed.insert name c.index (indexNames columns) := by
  rw [indexNames, List.filterMap_append, Keyed.ofPairs_append, ← indexNames]
  cases hname : c.name <;> simp [hname]

theorem Built.consistent (h : r.Built) : r.Consistent := by
  induction h with
  | create h =>
    obtain ⟨root, -, rfl⟩ := map_eq_ok.mp h
    exact ⟨rfl, List.nodup_nil⟩
  | @register r _ name kind options filter ih =>
    obtain ⟨e, heq⟩ | ⟨e, heq⟩ | ⟨c, -, hunique, heq⟩ :=
      r.register_cases name kind options filter <;> rw [heq]
    · exact ih
    · exact ⟨rfl, ih.unique⟩
    · refine ⟨?_, checkUnique_eq_ok.mp hunique⟩
      rw [push, indexNames_append, ih.names]
  | @unregister r _ name ih =>
    obtain heq | ⟨i, heq⟩ := r.unregister_cases name <;> rw [heq]
    · exact ih
    · refine ⟨rfl, ?_⟩
      rw [withColumns, uniqueKinds_reindex]
      exact ih.unique.sublist (uniqueKinds_sublist (List.eraseIdx_sublist _ _))

/-- The positions of the columns of a name. -/
def positionsOf (columns : List Column) (name : String) : Set Nat :=
  { i | ∃ c, columns[i]? = some c ∧ c.name = some name }

theorem mem_positionsOf_append {columns : List Column} {c : Column} {name : String} {i : Nat} :
    i ∈ positionsOf (columns ++ [c]) name ↔
      i ∈ positionsOf columns name ∨ i = columns.length ∧ c.name = some name := by
  simp only [positionsOf, Set.mem_ofPred_eq, List.getElem?_append]
  by_cases hi : i < columns.length
  · simp [hi, hi.ne]
  · simp only [hi, if_false, List.getElem?_singleton, List.getElem?_eq_none (not_lt.mp hi)]
    rcases eq_or_ne i columns.length with rfl | hne
    · simp
    · have : i - columns.length ≠ 0 := by omega
      simp [this, hne]

theorem lt_length_of_mem_positionsOf {columns : List Column} {name : String} {i : Nat}
    (h : i ∈ positionsOf columns name) : i < columns.length := by
  obtain ⟨c, hc, -⟩ := h
  exact (List.getElem?_eq_some_iff.mp hc).1

theorem positionsOf_append_of_ne {columns : List Column} {c : Column} {name : String}
    (h : c.name ≠ some name) : positionsOf (columns ++ [c]) name = positionsOf columns name := by
  ext i
  rw [mem_positionsOf_append]
  exact or_iff_left fun hlast => h hlast.2

/-- **The index of columns at their positions finds a name at the last column that has it**, or not
at all. -/
theorem get?_indexNames {columns : List Column} (name : String)
    (h : ∀ i (c : Column), columns[i]? = some c → c.index = i) :
    (∃ i, Keyed.get? (indexNames columns) name = some i ∧
      IsGreatest (positionsOf columns name) i) ∨
    Keyed.get? (indexNames columns) name = none ∧ positionsOf columns name = ∅ := by
  induction columns using List.reverseRecOn with
  | nil =>
    refine .inr ⟨rfl, Set.eq_empty_iff_forall_notMem.mpr fun i hi => ?_⟩
    exact absurd (lt_length_of_mem_positionsOf hi) (Nat.not_lt_zero i)
  | append_singleton columns c ih =>
    have hindex : c.index = columns.length := h columns.length c (by simp)
    have hbefore := ih fun i c' hc' =>
      h i c' (by rw [List.getElem?_append_left (List.getElem?_eq_some_iff.mp hc').1, hc'])
    rw [indexNames_append]
    by_cases hc : c.name = some name
    · -- the last column has the name
      refine .inl ⟨columns.length, ?_, mem_positionsOf_append.mpr (.inr ⟨rfl, hc⟩), fun j hj => ?_⟩
      · rw [hc, Option.elim_some, Keyed.get?_insert, if_pos rfl, hindex]
      · have := lt_length_of_mem_positionsOf hj
        rw [List.length_append, List.length_singleton] at this
        omega
    · have hget : Keyed.get? (c.name.elim (indexNames columns) fun name =>
          Keyed.insert name c.index (indexNames columns)) name =
          Keyed.get? (indexNames columns) name := by
        cases hname : c.name with
        | none => rfl
        | some other =>
          have hne : name ≠ other := fun heq => hc (by rw [hname, heq])
          rw [Option.elim_some, Keyed.get?_insert, if_neg hne]
      rwa [hget, positionsOf_append_of_ne hc]

/-! ### Keys of cells -/

theorem text_ne_toString {text : String} {path : DataPath} (h : DataPath.ofText text = .ok path)
    (n : Nat) : path.text ≠ toString n := by
  intro heq
  obtain ⟨c, cs, hcs, hstart⟩ := DataPath.exists_toList_text h
  have hdigit : c.isDigit = true := by
    refine isDigit_of_mem_toString (n := n) ?_
    rw [← heq, hcs]
    exact List.mem_cons_self
  rw [isDigit_of_isIdentifierStart hstart] at hdigit
  cases hdigit

/-! ### All that is kept -/

/-- What the list of columns, their positions and the index of names say of each other. -/
structure Positioned (r : Registry) : Prop where
  positions : ∀ i (c : Column), r.columns[i]? = some c → c.index = i
  /-- There is at most one column with buttons and at most one with check boxes. -/
  once : (r.columns.map Column.kind).count .action ≤ 1 ∧
    (r.columns.map Column.kind).count .multiselect ≤ 1
  accepted : r.checkUnique = .ok ()
  lookup_eq_some : ∀ name i, r.lookup name = some i ↔ IsGreatest (positionsOf r.columns name) i
  lookup_eq_none : ∀ name, r.lookup name = none ↔ ∀ c ∈ r.columns, c.name ≠ some name
  /-- A column without a data path has its position for a key, and no other column has the key. -/
  keys : ∀ (i : Nat) (c : Column), r.columns[i]? = some c → c.data = none →
    c.dataKey = toString i ∧
      ∀ j (c' : Column), r.columns[j]? = some c' → j ≠ i → c'.dataKey ≠ c.dataKey

theorem Consistent.count_le_one (h : r.Consistent) {kind : ColumnKind}
    (hkind : kind.isUnique = true) : (r.columns.map Column.kind).count kind ≤ 1 := by
  rw [← List.count_filter hkind]
  exact List.nodup_iff_count_le_one.mp h.unique kind

theorem positionsOf_eq_empty {columns : List Column} {name : String} :
    positionsOf columns name = ∅ ↔ ∀ c ∈ columns, c.name ≠ some name := by
  rw [Set.eq_empty_iff_forall_notMem]
  constructor
  · intro h c hc hname
    obtain ⟨i, hi⟩ := List.mem_iff_getElem?.mp hc
    exact h i ⟨c, hi, hname⟩
  · rintro h i ⟨c, hc, hname⟩
    exact h c (List.mem_of_getElem? hc) hname

/-- **Positions, names and keys stay right through every registration, refused or not, and every
removal**: the columns stand at their positions, at most one is of each kind that a table has at
most once, a name is found at the last column that has it, and a column without a data path has its
position for a key, which is the key of no other column. -/
theorem Built.positioned (h : r.Built) : r.Positioned := by
  have hpositions := h.sound.positions
  have hconsistent := h.consistent
  have hlookup : ∀ name, (∃ i, r.lookup name = some i ∧ IsGreatest (positionsOf r.columns name) i) ∨
      r.lookup name = none ∧ positionsOf r.columns name = ∅ := fun name => by
    rw [lookup, hconsistent.names]
    exact get?_indexNames name hpositions
  refine ⟨hpositions, ⟨hconsistent.count_le_one rfl, hconsistent.count_le_one rfl⟩,
    checkUnique_eq_ok.mpr hconsistent.unique, fun name i => ?_, fun name => ?_,
    fun i c hc hdata => ⟨?_, fun j c' hc' hne => ?_⟩⟩
  · obtain ⟨last, hget, hlast⟩ | ⟨hget, hempty⟩ := hlookup name
    · rw [hget, Option.some_inj]
      exact ⟨fun heq => heq ▸ hlast, hlast.unique⟩
    · rw [hget, hempty]
      simp [IsGreatest]
  · rw [← positionsOf_eq_empty]
    obtain ⟨last, hget, hlast⟩ | ⟨hget, hempty⟩ := hlookup name
    · rw [hget]
      refine iff_of_false (Option.some_ne_none last) fun hempty => ?_
      rw [hempty] at hlast
      exact hlast.1
    · exact iff_of_true hget hempty
  · rw [Column.dataKey, hdata, hpositions i c hc]
  · have hkey : c.dataKey = toString i := by rw [Column.dataKey, hdata, hpositions i c hc]
    rw [hkey, Column.dataKey]
    cases hdata' : c'.data with
    | none =>
      rw [hpositions j c' hc']
      exact fun heq => hne (toString_inj heq)
    | some path =>
      obtain ⟨text, hread⟩ := (h.isRead c' (List.mem_of_getElem? hc')).data path hdata'
      exact text_ne_toString hread i

/-- Users with their names. -/
def userSchema : Schema :=
  [("User",
    { name := "User", table := "users", identifiers := ["id"]
      fields := [("name", ⟨none, .string, false⟩)] })]

/-- Users, whose names are registered twice. A second column with buttons is refused, and the first
column is removed. -/
def userRegistry : Registry :=
  let start : Registry := ⟨userSchema, "User", [], []⟩
  let named := ((start.register (some "name") .column .null none).1.register (some "name") .column
    .null none).1
  let buttons := ((named.register none .action .null none).1.register none .action .null none).1
  (buttons.unregister "name").1

theorem built_userRegistry : userRegistry.Built := by
  have hcreate : Registry.create userSchema "User" = .ok ⟨userSchema, "User", [], []⟩ := rfl
  exact .unregister (.register (.register (.register (.register (.create hcreate)
    _ _ _ _) _ _ _ _) _ _ _ _) _ _ _ _) _

/-- The name is found at the column that is left, and the key of the buttons is their new
position. -/
theorem Built.positioned_users : userRegistry.Built ∧ userRegistry.columns.length = 2 ∧
    userRegistry.lookup "name" = some 0 ∧
    userRegistry.columns.map Column.dataKey = ["name", "1"] ∧ userRegistry.Positioned := by
  exact ⟨built_userRegistry, by decide +kernel, by decide +kernel, by decide +kernel,
    Built.positioned built_userRegistry⟩

/-! ### Refused registrations -/

/-- The index of the columns is the one that a consistent registry has already. -/
theorem Consistent.withColumns_columns (h : r.Consistent) : r.withColumns r.columns = r := by
  rw [withColumns, ← h.names]

/-- **A registration that is refused leaves no trace**, whatever the reason: the registry has the
columns it had, at their positions, and finds every name where it did. -/
theorem Built.register_refused (h : r.Built) {name : Option String} {kind : ColumnKind}
    {options : Json} {filter : Option Filter} {failure : Failure}
    (hrefused : (r.register name kind options filter).2 = .error failure) :
    (r.register name kind options filter).1 = r := by
  obtain ⟨e, heq⟩ | ⟨e, heq⟩ | ⟨c, -, -, heq⟩ := r.register_cases name kind options filter <;>
    rw [heq] at hrefused ⊢
  · -- the column was taken back
    exact h.consistent.withColumns_columns
  · cases hrefused

/-- A second column with buttons, under the name of the users' names. -/
theorem Built.register_refused_buttons : userRegistry.Built ∧
    (∃ failure, (userRegistry.register (some "name") .action .null none).2 = .error failure) ∧
    (userRegistry.register (some "name") .action .null none).1 = userRegistry ∧
    (userRegistry.register (some "name") .action .null none).1.lookup "name" = some 0 := by
  have hrefused : (userRegistry.register (some "name") .action .null none).2.toOption = none := by
    decide +kernel
  cases hresult : (userRegistry.register (some "name") .action .null none).2 with
  | ok c => rw [hresult] at hrefused; cases hrefused
  | error failure =>
    have hsame := Built.register_refused built_userRegistry hresult
    refine ⟨built_userRegistry, ⟨failure, rfl⟩, hsame, ?_⟩
    rw [hsame]
    decide +kernel

end Registry

end TableQuery
