import TableQuery.Proofs.Plan.Overrides
import TableQuery.Proofs.Plan.Queries
import TableQuery.Proofs.Plan.Scope
import TableQuery.Proofs.Search.Coercion

/-! # Searches and the types of the searched fields

A search value is read as the type of the column that brings it. A column with a field takes its
type from the field, which is the field that it is searched by, so a value that the field cannot
hold is left out. A virtual column is searched by the fields that its entries name, but has no type
unless one is given, and takes every text for any of them.

So a search leaves a refused value out exactly for the columns with a field
(`Planned.leavesOut_iff`). -/

namespace TableQuery

open Outcome

/-! ### Columns of tables in the search slots -/

theorem Draft.exists_searched {root : PlanRoot} {d d' : Draft} {c : Column}
    (h : d.add root c = .ok d') : ∃ slot : Slot, d'.search = d.search ++ [slot] ∧
      ∀ a name, .column a name ∈ slot →
        ∃ path, c.source = .field path ∧ c.kind.isSelectable = true := by
  obtain ⟨sql, data, -, -, rfl⟩ | ⟨path, w, identifier, hsource, hselectable, -, -, rfl⟩ | rfl :=
    Draft.add_cases h
  · exact ⟨_, rfl, fun a name ht => nomatch (mem_slotIf ht).2⟩
  · exact ⟨_, rfl, fun _ _ _ => ⟨path, hsource, hselectable⟩⟩
  · exact ⟨_, rfl, fun a name ht => absurd ht List.not_mem_nil⟩

/-- **A column of a table is searched by a virtual column, or by one with a field.** -/
theorem Table.origin_of_mem_search {t : Table} {rootAlias : String} {p : Plan}
    (hbuilt : t.registry.Built) (h : t.plan rootAlias = .ok p) {c : Column}
    (hc : c ∈ t.registry.columns) {slot : Slot} (hslot : p.search[c.index]? = some slot)
    {a name : String} (ht : .column a name ∈ slot) :
    c.isVirtual = true ∨ ∃ path, c.source = .field path ∧ c.kind.isSelectable = true := by
  obtain ⟨root, identifier, d, hd, hsearch, -⟩ := exists_filled h
  obtain ⟨slots, hslots, horigins⟩ := foldlM_forall₂ hd fun _ _ _ hadd =>
    Draft.exists_searched hadd
  rw [List.nil_append] at hslots
  obtain ⟨i, hi⟩ := List.getElem?_of_mem hc
  obtain ⟨own, hown, horigin⟩ := exists_getElem?_of_forall₂ horigins hi
  rw [hbuilt.sound.positions i c hi, hsearch, hslots, List.getElem?_zipWith, hi, hown] at hslot
  by_cases hvirtual : c.isVirtual = true
  · exact .inl hvirtual
  · have hkept : p.overrideSlot t.registry false c own = own := by
      simp [Plan.overrideSlot, hvirtual]
    obtain rfl : own = slot := hkept.symm.trans (Option.some.inj hslot)
    exact .inr (horigin a name ht)

/-! ### Fields that cannot hold a value -/

/-- The column of an entity's table holds fields, and no type of theirs takes the text. -/
structure Entity.Refuses (e : Entity) (column s : String) : Prop where
  exists_field : ∃ field type, e.fieldType field = .ok type ∧ e.columnFor field = column
  types : ∀ field type, e.fieldType field = .ok type → e.columnFor field = column → type.Refuses s

namespace Planned

variable {p : Planned}

/-- **The type of a searched column is that of the field it is searched by**, for the columns with a
field, so it refuses what the field refuses. -/
theorem exists_type_of_field {planner : Planner} (hbuilt : p.table.registry.Built)
    (hnamed : p.schema.IsNamed) (hplan : planner.plan = .ok p)
    (hn : (p.plan.rootAlias :: p.plan.joins.aliases).Nodup) {c : Column}
    (hc : c ∈ p.table.registry.columns) {path : DataPath} (hsource : c.source = .field path)
    (hselectable : c.kind.isSelectable = true) (htype : c.type = c.fieldType) {a name : String}
    (ht : .column a name ∈ p.searchSlot c) {e : Entity}
    (he : p.plan.mappedEntity? p.schema a = some e) {s : String} (hrefuses : e.Refuses name s) :
    ∃ type, c.type = some type ∧ type.Refuses s := by
  obtain ⟨plan, htable, rfl⟩ := Planner.plan_eq_ok.mp hplan
  obtain ⟨root, last, hops, hroot, hfollow, -, hlast, hsearch, -⟩ :=
    Table.slots_plan hbuilt hnamed htable hn hc hsource hselectable
  obtain ⟨root', last', type, hroot', hfollow', hfield, hcolumn⟩ :=
    (hbuilt.isTyped c hc).field path hsource hselectable
  -- planning and registration found the field in the same entity
  obtain rfl := Except.ok.inj (hroot.symm.trans hroot')
  obtain ⟨rfl, -⟩ := Prod.mk.inj (Except.ok.inj (hfollow.symm.trans hfollow'))
  simp only [searchSlot, hsearch, Option.getD_some] at ht
  obtain ⟨ha, hname⟩ := Target.column.inj (mem_slotIf ht).2
  obtain rfl : e = last := Option.some.inj (he.symm.trans (ha ▸ hlast))
  exact ⟨type, htype.trans hcolumn, hrefuses.types path.field type hfield hname.symm⟩

/-- **A search expression leaves a refused value out exactly for the columns with a field**: for a
virtual column there is a predicate, but for an empty list. -/
theorem predicate_eq_none_iff {planner : Planner} (hbuilt : p.table.registry.Built)
    (hnamed : p.schema.IsNamed) (hplan : planner.plan = .ok p)
    (hn : (p.plan.rootAlias :: p.plan.joins.aliases).Nodup) {c : Column}
    (hc : c ∈ p.table.registry.columns) (htype : c.type = c.fieldType) {a name : String}
    (ht : .column a name ∈ p.searchSlot c) {e : Entity}
    (he : p.plan.mappedEntity? p.schema a = some e) {s : String} (hcomma : ',' ∉ s.toList)
    (hrefuses : e.Refuses name s) {mode : SearchMode} (hmode : mode.NeedsValue) {names : Naming} :
    (searchExpression ⟨.column a name, s, c.type⟩ mode names).predicate = none ↔
      c.isVirtual = false ∨ mode.TakesList ∧ Text.isBlankText s = true := by
  obtain ⟨plan, htable, hp⟩ := Planner.plan_eq_ok.mp hplan
  by_cases hvirtual : c.isVirtual = true
  · have huntyped : c.type = none := htype.trans ((hbuilt.isTyped c hc).virtual hvirtual)
    rw [huntyped, SearchTerm.predicate_of_untyped hcomma hmode]
    simp [hvirtual]
  · refine iff_of_true ?_ (.inl (Bool.eq_false_iff.mpr hvirtual))
    obtain ⟨slot, hslot⟩ : ∃ slot, p.plan.search[c.index]? = some slot := by
      cases hget : p.plan.search[c.index]? with
      | some slot => exact ⟨slot, rfl⟩
      | none =>
        rw [searchSlot, hget] at ht
        exact absurd ht List.not_mem_nil
    have hmem : .column a name ∈ slot := by rwa [searchSlot, hslot] at ht
    obtain ⟨path, hsource, hselectable⟩ := (Table.origin_of_mem_search (t := p.table) hbuilt
      (by rw [hp]; exact htable) hc hslot hmem).resolve_left hvirtual
    obtain ⟨type, hcolumn, htypeRefuses⟩ := exists_type_of_field hbuilt hnamed hplan hn hc hsource
      hselectable htype ht he hrefuses
    rw [hcolumn]
    exact SearchTerm.predicate_of_refuses htypeRefuses hcomma hmode

/-- **Searches leave out what the searched field cannot hold, but not for virtual columns.** Take a
planned request of a table whose columns were registered, with different aliases, and a column with
a text filter that was given no type. In the slot of the column there is a column of a joined table
that holds fields of the entity behind the alias. Let a text without commas be no value of their
types: no canonical integer of 64 bits if they are integral, and no finite number if they are
floating. Searching for the text, in a mode that compares values, adds no predicate iff the column
is not virtual, or the mode takes a list and the text is blank. This holds of the global search and
of the search of the column alone. -/
theorem leavesOut_iff {planner : Planner} (hbuilt : p.table.registry.Built)
    (hnamed : p.schema.IsNamed) (hplan : planner.plan = .ok p)
    (hn : (p.plan.rootAlias :: p.plan.joins.aliases).Nodup) {c : Column}
    (hc : c ∈ p.table.registry.columns) (htype : c.type = c.fieldType) {own : SearchMode}
    {initial : Option String} (hfilter : c.effectiveFilter = .text own initial) {a name : String}
    (ht : .column a name ∈ p.searchSlot c) {e : Entity}
    (he : p.plan.mappedEntity? p.schema a = some e) {s : String} (hcomma : ',' ∉ s.toList)
    (hrefuses : e.Refuses name s) :
    (p.request.globalSearch = some s → p.table.settings.search.globalMode.NeedsValue →
      ∀ acc, p.widenAt acc (c, .column a name) = acc ↔ c.isVirtual = false ∨
        p.table.settings.search.globalMode.TakesList ∧ Text.isBlankText s = true) ∧
    (p.request.columnSearch c.index = some s → own.NeedsValue →
      ∀ acc, (p.narrowAt acc (c, .column a name)).1 = acc.1 ↔ c.isVirtual = false ∨
        own.TakesList ∧ Text.isBlankText s = true) := by
  refine ⟨fun hsearch hmode acc => ?_, fun hsearch hmode acc => ?_⟩
  · rw [widenAt, hsearch]
    simp only [hfilter, Filter.widen]
    rw [Group.pushSearched_eq_self]
    exact predicate_eq_none_iff hbuilt hnamed hplan hn hc htype ht he hcomma hrefuses hmode
  · rw [narrowAt, hsearch]
    simp only [hfilter, Filter.narrow, Filter.narrowBy]
    rw [Group.pushSearched_eq_self]
    exact predicate_eq_none_iff hbuilt hnamed hplan hn hc htype ht he hcomma hrefuses hmode

/-! ### Posts with the numbers of their views -/

/-- Articles with a number of views. -/
def articleSchema : Schema := Schema.ofEntities
  [{ name := "Article", table := "articles", identifiers := ["id"]
     fields := [("id", ⟨none, .integer, false⟩), ("views", ⟨none, .integer, false⟩)] }]

/-- Articles with their views, and a virtual column that is searched by the views as well. -/
def articleTable : Table where
  name := "articles"
  registry := .ofColumns articleSchema "Article" [("views", .column, .null),
    ("popularity", .virtual, entryOptions ["views"])]
  settings := { }

theorem refuses_views {e : Entity}
    (h : e.fields = [("id", ⟨none, .integer, false⟩), ("views", ⟨none, .integer, false⟩)]) :
    e.Refuses "views" "rust" := by
  have hfields : ∀ field type, e.fieldType field = .ok type → type = .integer := by
    intro field type htype
    simp only [Entity.fieldType, h, Keyed.get?] at htype
    split_ifs at htype <;> cases htype <;> rfl
  refine ⟨⟨"views", .integer, ?_, ?_⟩, fun field type htype _ => ?_⟩
  · rw [Entity.fieldType, h]
    rfl
  · rw [Entity.columnFor, h]
    rfl
  · rw [hfields field type htype]
    decide

/-- A word is no number of views, so the column of the views leaves it out. -/
theorem leavesOut_iff_views : ∃ planner p, Planner.create articleTable
      { search := some ⟨"rust", false⟩ } = .ok planner ∧ planner.plan = .ok p ∧
    ∃ c ∈ p.table.registry.columns, c.source = .field ⟨[], "views", none⟩ ∧
      .column "article" "views" ∈ p.searchSlot c ∧
      ∀ acc, p.widenAt acc (c, .column "article" "views") = acc := by
  obtain ⟨planner, hcreate, h⟩ := exists_ok
    (x := Planner.create articleTable { search := some ⟨"rust", false⟩ })
    (p := fun planner => planner.plan.toOption.any fun p : Planned =>
      decide ((p.plan.rootAlias :: p.plan.joins.aliases).Nodup) &&
      (p.plan.mappedEntity? articleSchema "article").any (fun e => decide (e.fields =
        [("id", ⟨none, .integer, false⟩), ("views", ⟨none, .integer, false⟩)])) &&
      articleTable.registry.columns[0]?.any fun c =>
        decide (c.source = .field ⟨[], "views", none⟩ ∧ c.type = c.fieldType ∧
          c.isVirtual = false ∧ Target.column "article" "views" ∈ p.searchSlot c) &&
        match c.effectiveFilter with
        | .text _ _ => true
        | _ => false)
    (by decide +kernel)
  obtain ⟨p, hplan, hp⟩ := exists_ok h
  simp only [Bool.and_eq_true, decide_eq_true_eq, Option.any_eq_true] at hp
  obtain ⟨⟨hn, e, he, hfields⟩, c, hc, ⟨hsource, htype, hvirtual, ht⟩, hfilter⟩ := hp
  obtain ⟨hbuilt, hschema⟩ : articleTable.registry.Built ∧
      articleTable.registry.schema = articleSchema := Registry.built_ofColumns rfl _
  obtain ⟨root, -, rfl⟩ := Planner.create_eq_ok.mp hcreate
  obtain ⟨plan, htable, rfl⟩ := Planner.plan_eq_ok.mp hplan
  split at hfilter
  · next own initial htext =>
    have hnamed : articleTable.registry.schema.IsNamed := hschema ▸ Schema.isNamed_ofEntities _
    have hmode : SearchMode.like.NeedsValue := by decide
    obtain ⟨hleaves, -⟩ := leavesOut_iff (p := ⟨articleTable, _, _, _, plan⟩) hbuilt hnamed hplan hn
      (List.mem_of_getElem? hc) htype htext ht (e := e) (by rw [schema, hschema]; exact he)
      (s := "rust") (by decide) (refuses_views hfields)
    exact ⟨_, _, hcreate, hplan, c, List.mem_of_getElem? hc, hsource, ht,
      fun acc => (hleaves rfl hmode acc).mpr (.inl hvirtual)⟩
  · cases hfilter

/-- The virtual column takes the word for the same field, which is then compared with it. -/
theorem widens_views : ∃ planner p c, Planner.create articleTable
      { search := some ⟨"rust", false⟩ } = .ok planner ∧ planner.plan = .ok p ∧
    p.page = .ok c ∧
    (∃ v, p.table.registry.columns[1]? = some v ∧ v.isVirtual = true ∧ v.type = v.fieldType ∧
      p.searchSlot v = [.column "article" "views"]) ∧
    p.globalSearch.items.flatMap Predicate.targets = [.column "article" "views"] ∧
    c.sql = "SELECT `article`.`id` AS `article__id`, `article`.`views` AS `article__views` " ++
      "FROM `articles` AS `article` WHERE `article`.`views` LIKE ?" ∧
    c.binds = [⟨"g1_0", .text "%rust%"⟩] := by
  obtain ⟨planner, hcreate, h⟩ := exists_ok
    (x := Planner.create articleTable { search := some ⟨"rust", false⟩ })
    (p := fun planner => planner.plan.toOption.any fun p : Planned =>
      decide (p.globalSearch.items.flatMap Predicate.targets =
        [Target.column "article" "views"]) &&
      p.table.registry.columns[1]?.any (fun v : Column => decide (v.isVirtual = true ∧
        v.type = v.fieldType ∧ p.searchSlot v = [Target.column "article" "views"])) &&
      p.page.toOption.any fun c : Compiled => decide (c.sql =
          "SELECT `article`.`id` AS `article__id`, `article`.`views` AS `article__views` " ++
            "FROM `articles` AS `article` WHERE `article`.`views` LIKE ?" ∧
        c.binds = [⟨"g1_0", .text "%rust%"⟩]))
    (by decide +kernel)
  obtain ⟨p, hplan, hp⟩ := exists_ok h
  rw [Bool.and_eq_true, Bool.and_eq_true, decide_eq_true_eq] at hp
  obtain ⟨⟨htargets, hcolumn⟩, hpage⟩ := hp
  obtain ⟨v, hv, hvirtual⟩ := (Option.any_eq_true _ _).mp hcolumn
  obtain ⟨c, hc, hsql⟩ := exists_ok hpage
  rw [decide_eq_true_eq] at hvirtual hsql
  exact ⟨planner, p, c, hcreate, hplan, hc, ⟨v, hv, hvirtual⟩, htargets, hsql⟩

end Planned

end TableQuery
