import TableQuery.Proofs.DataPath
import TableQuery.Proofs.Plan.Entities
import TableQuery.Proofs.Sql.JoinConditions
import TableQuery.Proofs.Sql.Targets

/-! # Overrides and the columns they name

A virtual column says in texts what it is searched and ordered by. An entry `alias.field` is taken
as it is written: its alias is the text in front of the dot (`Plan.override_of_dotted`). A column
with the path `relation.field` goes another way: its alias is that of the join that its hop planned,
which is the relationship with an underscore in front if that is a reserved word
(`Table.aliasName_of_parent_root`).

So an entry that is spelt like the path of a column names the target of the column exactly if the
relationship is no reserved word (`Table.override_eq_iff`). -/

namespace TableQuery

open Outcome

/-! ### Dotted entries -/

/-- **An entry with a dot is taken as it is written**: its alias is the text in front of the dot. -/
theorem Plan.override_of_dotted {p : Plan} {registry : Registry} {ordering : Bool}
    {entry a field : String} (ha : isIdentifier a = true) (hfield : isIdentifier field = true)
    (hentry : Text.trim entry = a ++ "." ++ field) : p.override registry ordering entry =
      .column a (p.columnFor registry.schema a field) := by
  have hdot : (a ++ "." ++ field).toList.contains '.' = true := by simp
  have htarget : Target.ofText (a ++ "." ++ field) = .column a field :=
    Target.ofText_eq_column.mpr
      ⟨ha, hfield, trim_of_isIdentifierPath (isIdentifierPath_dotted ha hfield)⟩
  simp only [override, hentry, hdot, if_true, htarget]
  rfl

/-! ### Joins from the root -/

namespace JoinPlan

/-- The joins that start from an alias have the names of their relationships. -/
def NamedFrom (rootAlias : String) (joins : JoinPlan) : Prop :=
  ∀ j ∈ joins, j.parent = rootAlias → j.aliasName = safeAlias j.relationship

theorem NamedFrom.add {rootAlias : String} {joins : JoinPlan} (h : joins.NamedFrom rootAlias)
    {join : PlannedJoin} (hjoin : join.parent = rootAlias →
      join.aliasName = safeAlias join.relationship) : (joins.add join).1.NamedFrom rootAlias := by
  obtain ⟨planned, -, -, heq⟩ | ⟨-, heq⟩ := joins.add_cases join <;> rw [heq]
  · exact h
  · intro j hj
    rcases List.mem_append.mp hj with hj | hj
    · exact h j hj
    · rw [List.mem_singleton.mp hj]
      exact hjoin

end JoinPlan

/-- The joins of a walk from the root have the names of their relationships, and the walk stands at
a joined table or has not begun. -/
structure Walk.NamedFrom (rootAlias : String) (w : Walk) : Prop where
  joins : w.joins.NamedFrom rootAlias
  reached : w.behind = [] ∨ w.aliasName ∈ w.joins.aliases

/-- **A hop keeps the names** as long as no joined table has the alias of the root. -/
theorem Walk.NamedFrom.hop {rootAlias : String} {schema : Schema} {kind : JoinKind} {w w' : Walk}
    {relation : String} (hw : w.NamedFrom rootAlias)
    (hn : (rootAlias :: w'.joins.aliases).Nodup) (h : w.hop schema kind relation = .ok w') :
    w'.NamedFrom rootAlias := by
  have hext := prefix_of_hop h
  obtain ⟨join, hhop⟩ := exists_hopped h
  have hreached : w'.aliasName ∈ w'.joins.aliases := by
    rw [hhop.reached, hhop.joins]
    rcases w.joins.add_cases join with ⟨planned, hmem, -, heq⟩ | ⟨-, heq⟩ <;> rw [heq]
    · exact List.mem_map_of_mem hmem
    · exact List.mem_map_of_mem (List.mem_append_right _ List.mem_cons_self)
  refine ⟨hhop.joins ▸ hw.joins.add fun hparent => ?_, .inr hreached⟩
  -- behind the first hop the walk stands at a joined table, which is not the root
  have hbehind : w.behind = [] := hw.reached.resolve_right fun hmem => by
    rw [← hhop.parent, hparent] at hmem
    exact (List.nodup_cons.mp hn).1 ((JoinPlan.aliases_mono hext).subset hmem)
  rw [hhop.path, hbehind, hhop.relationship, List.nil_append, String.intercalate_singleton]

theorem JoinPlan.NamedFrom.addColumn {root : PlanRoot} {d d' : Draft} {c : Column}
    (hd : d.joins.NamedFrom root.aliasName) (hn : (root.aliasName :: d'.joins.aliases).Nodup)
    (h : d.add root c = .ok d') : d'.joins.NamedFrom root.aliasName := by
  obtain ⟨sql, data, -, -, rfl⟩ | ⟨path, w, identifier, -, -, hw, -, rfl⟩ | rfl := Draft.add_cases h
  · exact hd
  · have hstart : Walk.NamedFrom root.aliasName
        ⟨d.joins, d.selection, root.aliasName, [], root.entity⟩ := ⟨hd, .inl rfl⟩
    exact (foldlM_invariant
      (fun w : Walk => (root.aliasName :: w.joins.aliases).Nodup → w.NamedFrom root.aliasName) _
      (fun _ _ w w' ih hhop hn' =>
        (ih (JoinPlan.nodup_of_extended (Walk.prefix_of_hop hhop) hn')).hop hn' hhop)
      (fun _ => hstart) hw hn).joins
  · exact hd

/-- **The joins from the root have the names of their relationships**, with the mark of a reserved
word, if the aliases of the plan are different. -/
theorem Table.aliasName_of_parent_root {t : Table} {rootAlias : String} {p : Plan}
    (h : t.plan rootAlias = .ok p) (hn : (p.rootAlias :: p.joins.aliases).Nodup) :
    p.joins.NamedFrom p.rootAlias := by
  obtain ⟨root, d, -, -, hd, hroot, hjoins, -⟩ := exists_draft h
  rw [hroot, hjoins] at hn ⊢
  exact foldlM_invariant
    (fun d : Draft => (rootAlias :: d.joins.aliases).Nodup → d.joins.NamedFrom rootAlias) _
    (fun _ _ _ _ ih hadd hn' =>
      (ih (JoinPlan.nodup_of_extended (Draft.add_routed hadd).1 hn')).addColumn hn' hadd)
    (fun _ j hj => absurd hj List.not_mem_nil) hd hn

/-! ### Slots of virtual columns -/

/-- What the columns are ordered by, or what they are searched by. -/
def Plan.slots (p : Plan) (ordering : Bool) : List Slot := if ordering then p.order else p.search

/-- Whether a column can be ordered by, or searched. -/
def Column.isAble (c : Column) (ordering : Bool) : Bool :=
  if ordering then c.orderable else c.searchable

/-- What a column names to be ordered by, or to be searched by, in place of its own field. -/
def Column.entries? (c : Column) (ordering : Bool) : Option (List String) :=
  if ordering then c.orderColumn else c.searchColumn

theorem Plan.overrideSlot_congr {p p' : Plan} (hroot : p.rootAlias = p'.rootAlias)
    (hentity : p.rootEntity = p'.rootEntity) (hjoins : p.joins = p'.joins) (registry : Registry)
    (ordering : Bool) : p.overrideSlot registry ordering = p'.overrideSlot registry ordering := by
  have hoverride : p.override registry ordering = p'.override registry ordering := by
    funext entry
    simp only [override, qualify, columnFor, mappedEntity?, entityOf?, hroot, hentity, hjoins]
  funext c slot
  simp only [overrideSlot, hoverride]

theorem Table.exists_filled {t : Table} {rootAlias : String} {p : Plan}
    (h : t.plan rootAlias = .ok p) : ∃ root identifier d, t.registry.columns.foldlM
        (Draft.add ⟨t.registry.schema, root, rootAlias⟩)
        ⟨[], Selection.addField [] rootAlias identifier, [], []⟩ = .ok d ∧
      p.search = List.zipWith (p.overrideSlot t.registry false) t.registry.columns d.search ∧
      p.order = List.zipWith (p.overrideSlot t.registry true) t.registry.columns d.order := by
  obtain ⟨root, identifier, d, -, -, hd, p₀, -, hp⟩ := plan_eq_ok.mp h
  have hslots : ∀ ordering, p.overrideSlot t.registry ordering =
      p₀.overrideSlot t.registry ordering := Plan.overrideSlot_congr (by rw [hp]) (by rw [hp])
    (by rw [hp]) t.registry
  exact ⟨root, identifier, d, hd, by rw [hslots, hp], by rw [hslots, hp]⟩

/-- **The slot of a virtual column holds what its entries stand for.** -/
theorem Table.slots_of_isVirtual {t : Table} {rootAlias : String} {p : Plan}
    (hbuilt : t.registry.Built) (h : t.plan rootAlias = .ok p) {v : Column}
    (hv : v ∈ t.registry.columns) (hvirtual : v.isVirtual = true) {ordering : Bool}
    (hable : v.isAble ordering = true) {entries : List String}
    (hentries : v.entries? ordering = some entries) :
    (p.slots ordering)[v.index]? = some (entries.map (p.override t.registry ordering)) := by
  obtain ⟨root, identifier, d, hd, hsearch, horder⟩ := exists_filled h
  obtain ⟨-, ⟨slots, hsearches, horders, hrouted⟩, -⟩ := Draft.foldlM_routed hd
  rw [List.nil_append] at hsearches horders
  obtain ⟨i, hi⟩ := List.getElem?_of_mem hv
  obtain ⟨slot, hslot, -⟩ := exists_getElem?_of_forall₂ hrouted hi
  have hfilled : ∀ slot, p.overrideSlot t.registry ordering v slot =
      entries.map (p.override t.registry ordering) := by
    intro slot
    simp only [Plan.overrideSlot]
    rw [← Column.isAble, hvirtual, hable, ← Column.entries?, hentries]
    rfl
  rw [hbuilt.sound.positions i v hi]
  cases ordering
  · simp only [Plan.slots, Bool.false_eq_true, if_false, hsearch, hsearches, List.getElem?_zipWith,
      hi, List.getElem?_map, hslot, Option.map_some, hfilled]
  · simp only [Plan.slots, if_true, horder, horders, List.getElem?_zipWith, hi, List.getElem?_map,
      hslot, Option.map_some, hfilled]

/-! ### Entries that are spelt like paths -/

theorem safeAlias_eq_self {name : String} : safeAlias name = name ↔ isReserved name = false := by
  unfold safeAlias
  split_ifs with h
  · refine ⟨fun heq => ?_, fun hfalse => absurd h (by rw [hfalse]; exact Bool.false_ne_true)⟩
    have hlength := congrArg (fun s => s.toList.length) heq
    simp at hlength
  · simp [h]

/-- **An entry names the field of a column iff its relationship is no reserved word.** Take the plan
of a table whose columns were registered, with different aliases, and a column with the path
`relation.field` that can be searched and ordered by. There is one target that the column is
searched and ordered by. The entries of a virtual column stand in its slots, one by one, and an
entry that is spelt `relation.field` stands for that target iff `relation` is no reserved word. -/
theorem Table.override_eq_iff {t : Table} {rootAlias : String} {p : Plan}
    (hbuilt : t.registry.Built) (hnamed : t.registry.schema.IsNamed)
    (h : t.plan rootAlias = .ok p) (hn : (p.rootAlias :: p.joins.aliases).Nodup)
    {c : Column} (hc : c ∈ t.registry.columns) {relation field : String} {marker : Option Marker}
    (hsource : c.source = .field ⟨[relation], field, marker⟩)
    (hselectable : c.kind.isSelectable = true) (hable : ∀ ordering, c.isAble ordering = true)
    {v : Column} (hv : v ∈ t.registry.columns) (hvirtual : v.isVirtual = true)
    (hvable : ∀ ordering, v.isAble ordering = true) :
    ∃ target, (∀ ordering, (p.slots ordering)[c.index]? = some [target]) ∧
      ∀ ordering entries, v.entries? ordering = some entries →
        (p.slots ordering)[v.index]? = some (entries.map (p.override t.registry ordering)) ∧
        ∀ entry ∈ entries, Text.trim entry = relation ++ "." ++ field →
          (p.override t.registry ordering entry = target ↔ isReserved relation = false) := by
  obtain ⟨root, last, hops, -, -, hroute, hlast, hsearch, horder⟩ :=
    slots_plan hbuilt hnamed h hn hc hsource hselectable
  obtain ⟨j, rest, hj, hend, rfl⟩ := JoinPlan.route_cons.mp hroute
  obtain rfl : [] = rest := Option.some.inj hend
  have hreached : JoinPlan.lastAlias p.rootAlias [j] = j.aliasName := rfl
  rw [hreached] at hlast hsearch horder
  obtain ⟨hmem, hparent, hrelation⟩ := JoinPlan.find?_eq_some hj
  have halias : j.aliasName = safeAlias relation :=
    hrelation ▸ aliasName_of_parent_root h hn j hmem hparent
  obtain ⟨text, hread⟩ := (hbuilt.isRead c hc).source _ hsource
  have hidentifiers := DataPath.isIdentifier_of_mem_segments hread
  have hrelationName : isIdentifier relation = true := hidentifiers _ (by simp [DataPath.segments])
  have hfieldName : isIdentifier field = true := hidentifiers _ (by simp [DataPath.segments])
  refine ⟨.column j.aliasName (last.columnFor field), fun ordering => ?_,
    fun ordering entries hentries => ⟨slots_of_isVirtual hbuilt h hv hvirtual (hvable ordering)
      hentries, fun entry _ hentry => ?_⟩⟩
  · have hslot := hable ordering
    cases ordering
    · rw [Column.isAble, if_neg Bool.false_ne_true] at hslot
      rw [Plan.slots, if_neg Bool.false_ne_true, hsearch, hslot]
      rfl
    · rw [Column.isAble, if_pos rfl] at hslot
      rw [Plan.slots, if_pos rfl, horder, hslot]
      rfl
  · rw [Plan.override_of_dotted hrelationName hfieldName hentry, ← safeAlias_eq_self, ← halias]
    refine ⟨fun heq => (Target.column.inj heq).1.symm, fun heq => ?_⟩
    have hcolumn : p.columnFor t.registry.schema j.aliasName field = last.columnFor field := by
      rw [Plan.columnFor, hlast]
      rfl
    rw [← hcolumn, heq]

/-! ### Members of teams and groups -/

/-- Members with their teams and their groups; `group` is a reserved word. -/
def clubSchema : Schema := Schema.ofEntities
  [{ name := "Member", table := "members", identifiers := ["id"]
     associations := [("group", .manyToOne "Group" "group_id"),
      ("team", .manyToOne "Team" "team_id")] },
   { name := "Group", table := "groups", identifiers := ["id"]
     fields := [("name", ⟨some "group_name", .string, false⟩)] },
   { name := "Team", table := "teams", identifiers := ["id"]
     fields := [("name", ⟨some "team_name", .string, false⟩)] }]

/-- A virtual column that is searched and ordered by what its entries name. -/
def entryOptions (entries : List String) : Json :=
  let names := Json.arr (entries.map Json.str)
  Json.object [("order_column", names), ("orderable", .bool true), ("search_column", names),
    ("searchable", .bool true)]

/-- Members with the names of their teams and groups, and a column for both. -/
def clubTable : Table where
  name := "members"
  registry := .ofColumns clubSchema "Member" [("team.name", .column, .null),
    ("group.name", .column, .null), ("both", .virtual, entryOptions ["team.name", "group.name"])]
  settings := { }

/-- The names of teams are found under the same target both ways. -/
theorem Table.override_eq_iff_club : ∃ p c v, clubTable.plan "member" = .ok p ∧
    c ∈ clubTable.registry.columns ∧ v ∈ clubTable.registry.columns ∧
    c.source = .field ⟨["team"], "name", none⟩ ∧
    v.entries? true = some ["team.name", "group.name"] ∧
    (p.slots true)[c.index]? = some [p.override clubTable.registry true "team.name"] := by
  obtain ⟨p, h, hn⟩ := exists_ok (x := clubTable.plan "member")
    (p := fun p => decide (p.rootAlias :: p.joins.aliases).Nodup) (by decide +kernel)
  have hcolumns : ∃ c ∈ clubTable.registry.columns, ∃ v ∈ clubTable.registry.columns,
      (c.source = .field ⟨["team"], "name", none⟩ ∧ c.kind.isSelectable = true ∧
        ∀ ordering, c.isAble ordering = true) ∧
      v.isVirtual = true ∧ (∀ ordering, v.isAble ordering = true) ∧
        v.entries? true = some ["team.name", "group.name"] := by decide +kernel
  obtain ⟨c, hc, v, hv, ⟨hsource, hselectable, hable⟩, hvirtual, hvable, hentries⟩ := hcolumns
  obtain ⟨hbuilt, hschema⟩ : clubTable.registry.Built ∧ clubTable.registry.schema = clubSchema :=
    Registry.built_ofColumns rfl _
  have hnamed : clubTable.registry.schema.IsNamed := hschema ▸ Schema.isNamed_ofEntities _
  obtain ⟨target, hslot, hoverride⟩ := override_eq_iff hbuilt hnamed h (of_decide_eq_true hn) hc
    hsource hselectable hable hv hvirtual hvable
  have htarget := ((hoverride true _ hentries).2 "team.name" (by simp) (by decide)).mpr (by decide)
  exact ⟨p, c, v, h, hc, hv, hsource, hentries, htarget ▸ hslot true⟩

/-- The names of groups are not: the groups are joined under `_group`, and the entry stands for a
column of a table `group`, which is not in the query. -/
theorem Table.override_ne_club : ∃ p, clubTable.plan "member" = .ok p ∧
    (∃ c, clubTable.registry.columns[1]? = some c ∧ c.kind.isSelectable = true ∧
      c.source = .field ⟨["group"], "name", none⟩) ∧
    (∃ v, clubTable.registry.columns[2]? = some v ∧ v.isVirtual = true ∧
      ∀ ordering, v.entries? ordering = some ["team.name", "group.name"]) ∧
    p.rootAlias :: p.joins.aliases = ["member", "team", "_group"] ∧
    ∀ ordering, (p.slots ordering)[1]? = some [.column "_group" "group_name"] ∧
      (p.slots ordering)[2]? =
        some [.column "team" "team_name", .column "group" "name"] := by
  obtain ⟨p, h, hp⟩ := exists_ok (x := clubTable.plan "member")
    (p := fun p => decide (p.rootAlias :: p.joins.aliases = ["member", "team", "_group"] ∧
      ∀ ordering, (p.slots ordering)[1]? = some [Target.column "_group" "group_name"] ∧
        (p.slots ordering)[2]? =
          some [Target.column "team" "team_name", Target.column "group" "name"]))
    (by decide +kernel)
  obtain ⟨haliases, hslots⟩ := of_decide_eq_true hp
  have hgroup : clubTable.registry.columns[1]?.any (fun c =>
      decide (c.kind.isSelectable = true ∧ c.source = .field ⟨["group"], "name", none⟩)) =
        true := by decide +kernel
  have hboth : clubTable.registry.columns[2]?.any (fun v => decide (v.isVirtual = true ∧
      ∀ ordering, v.entries? ordering = some ["team.name", "group.name"])) = true := by
    decide +kernel
  obtain ⟨c, hc, hsource⟩ := (Option.any_eq_true _ _).mp hgroup
  obtain ⟨v, hv, hentries⟩ := (Option.any_eq_true _ _).mp hboth
  exact ⟨p, h, ⟨c, hc, of_decide_eq_true hsource⟩, ⟨v, hv, of_decide_eq_true hentries⟩, haliases,
    hslots⟩

end TableQuery
