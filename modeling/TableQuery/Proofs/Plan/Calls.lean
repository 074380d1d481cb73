import Mathlib.Data.List.Pairwise
import TableQuery.Execution.Page
import TableQuery.Proofs.Keyed
import TableQuery.Proofs.Plan.CacheKeys
import TableQuery.Proofs.Plan.Queries
import TableQuery.Proofs.Plan.Steps

/-! # The calls of a request and their keys

A request makes three calls: for the rows of its page and for the two counts. Two calls that are
kept under one key should be for the same query, whatever requests and tables they belong to.

The calls without a given key are apart, since their keys tell the SQL text and the values. The
count of all records keeps a key that is given for it, and does not depend on the request
(`Planned.count_withRequest`), so a given key names one count unless tables share it. The page keeps
a given key as well, although it does depend on the request. So the settings of the tables are asked
to give no key to kept pages, and no two kept counts the same (`Catalog.KeysApart`). Calls that are
kept under one key then have the same SQL text and print the same values
(`Catalog.KeysApart.query_eq`). -/

namespace TableQuery

open Outcome

/-! ### Calls -/

/-- The call that reads a count. -/
def CompiledCount.call (c : CompiledCount) : Call :=
  match c.strategy with
  | .scalar => ⟨.scalar, c.query⟩
  | .materializedRows => ⟨.rows, c.query⟩

/-- The calls of a page. -/
def PageQueries.calls (q : PageQueries) : List Call :=
  [⟨.rows, q.page⟩, q.total.call, q.filtered.call]

/-- Some request for a table of the catalog makes the call. -/
def Catalog.Makes (c : Catalog) (call : Call) : Prop :=
  ∃ name request p queries, c.plan name request = .ok p ∧ p.queries = .ok queries ∧
    call ∈ queries.calls

theorem CompiledCount.query_call (c : CompiledCount) : c.call.query = c.query := by
  obtain ⟨query, strategy⟩ := c
  cases strategy <;> rfl

/-! ### What a plan has from the request -/

/-- The plan with another request. -/
def Planned.withRequest (p : Planned) (request : Request) : Planned := { p with request := request }

/-- **Planning does not read the request.** -/
theorem Catalog.plan_withRequest (c : Catalog) (name : String) (request request' : Request) :
    c.plan name request' = (c.plan name request).map (Planned.withRequest · request') := by
  unfold plan
  cases c.table? name with
  | none => rfl
  | some t =>
    simp only [Planner.create, Planner.plan]
    cases t.registry.root with
    | error e => rfl
    | ok root =>
      simp only [Except.mapError, bind, Except.bind, pure, Except.pure]
      cases t.plan (safeAlias root.shortName) <;> rfl

/-- **The count of all records does not depend on the request.** -/
theorem Planned.count_withRequest (p : Planned) (request : Request) :
    (p.withRequest request).count false = p.count false := rfl

theorem Catalog.plan_eq_ok {c : Catalog} {name : String} {request : Request} {p : Planned}
    (h : c.plan name request = .ok p) :
    ∃ t, c.table? name = some t ∧ p.cache = t.settings.cache := by
  unfold plan at h
  cases ht : c.table? name with
  | none => rw [ht] at h; cases h
  | some t =>
    simp only [ht, bind_eq_ok] at h
    obtain ⟨planner, hcreate, hplan⟩ := h
    obtain ⟨root, -, rfl⟩ := Planner.create_eq_ok.mp hcreate
    simp only [Planner.plan, bind_eq_ok, pure_eq_ok] at hplan
    obtain ⟨plan, -, rfl⟩ := hplan
    exact ⟨t, rfl, rfl⟩

/-! ### Calls with and without a given key -/

theorem Query.exists_text {q : Query} {f : Fragment} (h : q.sql = .ok f) :
    ∃ rest, f.text = "SELECT " ++ rest := by
  obtain ⟨head, conditions, grouping, order, hhead, -, -, -, rfl⟩ := sql_eq_ok.mp h
  simp only [headSql, bind_eq_ok, pure_eq_ok] at hhead
  obtain ⟨-, -, select, -, table, -, name, -, joins, -, rfl⟩ := hhead
  refine ⟨select ++ " FROM " ++ table ++ " AS " ++ name ++ String.join joins ++ Fragment.text
    (conditions ++ [.plain (grouping ++ order ++ q.windowSql)]), ?_⟩
  simp [Fragment.text, SqlPiece.text, String.append_assoc]

/-- The options of a count: a given key names the count of all records only. -/
theorem Planned.cache_of_count {p : Planned} {filtered : Bool} {c : CompiledCount}
    (h : p.count filtered = .ok c) : c.query.cache.result =
      if filtered then { p.cache.countResult with id := none } else p.cache.countResult := by
  simp only [count, bind_eq_ok, pure_eq_ok] at h
  obtain ⟨root, -, q, -, compiled, hc, rfl⟩ := h
  obtain ⟨f, -, rfl⟩ := compile_eq_ok hc
  rfl

/-- The key that is given for results that are kept. -/
def ResultCache.key? (c : ResultCache) : Option String := if c.enabled then c.id else none

/-- **Settings that keep the results of different queries apart.** -/
structure Catalog.KeysApart (c : Catalog) : Prop where
  /-- No key is given for kept pages. -/
  pages : ∀ entry ∈ c.tables, entry.2.settings.cache.result.key? = none
  /-- No key is given for the kept counts of two tables. -/
  totals : (c.tables.filterMap fun entry => entry.2.settings.cache.countResult.key?).Nodup
  /-- No key that is given for a kept count starts as a query does. -/
  foreign : ∀ entry ∈ c.tables, ∀ id ∈ entry.2.settings.cache.countResult.key?,
    ¬ "SELECT ".toList <+: id.toList

namespace Catalog

variable {c : Catalog} {a b : Call}

/-- The call reads the count of all records of a table, under the key that is given for it. -/
structure Names (c : Catalog) (name : String) (t : Table) (id : String) (call : Call) : Prop where
  table : c.table? name = some t
  key : t.settings.cache.countResult.key? = some id
  cacheKey : call.query.cacheKey = id
  call : ∃ request p total, c.plan name request = .ok p ∧ p.count false = .ok total ∧
    call = total.call

/-- The key of the call is made from its query. -/
structure Tells (call : Call) : Prop where
  id : call.query.cache.result.id = none
  text : ∃ rest, call.query.sql = "SELECT " ++ rest

theorem key?_eq_id {call : Call} {cache : ResultCache} (hcache : call.query.cache.result = cache)
    (on : call.query.cache.result.enabled = true) : cache.key? = call.query.cache.result.id := by
  rw [← hcache, ResultCache.key?, if_pos on]

theorem mem_tables {name : String} {t : Table} (h : c.table? name = some t) :
    (name, t) ∈ c.tables := Keyed.mem_of_get? h

/-- **The key of a kept call** is made from its query or names a count of all records. -/
theorem KeysApart.tells_or_names (hc : c.KeysApart) (ha : c.Makes a)
    (on : a.query.cache.result.enabled = true) : Tells a ∨ ∃ name t id, c.Names name t id a := by
  obtain ⟨name, request, p, queries, hp, hqueries, hmem⟩ := ha
  obtain ⟨t, ht, hcache⟩ := plan_eq_ok hp
  simp only [Planned.queries, bind_eq_ok, pure_eq_ok] at hqueries
  obtain ⟨page, hpage, total, htotal, filtered, hfiltered, rfl⟩ := hqueries
  have htext : ∀ {only : Bool} {count : CompiledCount}, p.count only = .ok count →
      ∃ rest, count.call.query.sql = "SELECT " ++ rest := by
    intro only count h
    obtain ⟨root, q, f, -, hf, hsql, -⟩ := Planned.count_eq_ok h
    rw [count.query_call, hsql]
    exact Query.exists_text hf
  have hresult : ∀ {only : Bool} {count : CompiledCount}, p.count only = .ok count →
      count.call.query.cache.result =
        if only then { t.settings.cache.countResult with id := none }
          else t.settings.cache.countResult := by
    intro only count h
    rw [count.query_call, Planned.cache_of_count h, hcache]
  simp only [PageQueries.calls, List.mem_cons, List.not_mem_nil, or_false] at hmem
  -- the page, the count of all records, and that of the records that are searched for
  rcases hmem with rfl | rfl | rfl
  · obtain ⟨q, f, -, hf, rfl⟩ := Planned.page_eq_ok hpage
    have hid := hc.pages _ (mem_tables ht)
    rw [← hcache, ResultCache.key?, if_pos on] at hid
    exact .inl ⟨hid, Query.exists_text hf⟩
  · have hkey := key?_eq_id (hresult htotal) on
    rw [if_neg (by decide)] at hkey
    cases hid : total.call.query.cache.result.id with
    | none => exact .inl ⟨hid, htext htotal⟩
    | some id =>
      refine .inr ⟨name, t, id, ht, hkey.trans hid, ?_, request, p, total, hp, htotal, rfl⟩
      rw [Compiled.cacheKey, hid]
  · refine .inl ⟨?_, htext hfiltered⟩
    rw [hresult hfiltered, if_pos rfl]

theorem KeysApart.eq_of_names (hc : c.KeysApart) {name name' id : String} {t t' : Table}
    (ha : c.Names name t id a) (hb : c.Names name' t' id b) : a = b := by
  have hname : name = name' := by
    have hpairs := List.pairwise_filterMap.mp hc.totals
    have hsymm : Std.Symm fun e e' : String × Table =>
        ∀ id ∈ e.2.settings.cache.countResult.key?,
          ∀ id' ∈ e'.2.settings.cache.countResult.key?, id ≠ id' :=
      ⟨fun e e' h id hid id' hid' => (h id' hid' id hid).symm⟩
    by_contra hne
    exact hpairs.forall (mem_tables ha.table) (mem_tables hb.table)
      (fun h => hne (congrArg Prod.fst h)) id ha.key id hb.key rfl
  subst hname
  obtain ⟨request, p, total, hp, htotal, rfl⟩ := ha.call
  obtain ⟨request', p', total', hp', htotal', rfl⟩ := hb.call
  rw [c.plan_withRequest name request request', hp] at hp'
  cases hp'
  rw [Planned.count_withRequest, htotal] at htotal'
  cases htotal'
  rfl

theorem KeysApart.ne_of_tells_of_names (hc : c.KeysApart) {name id : String} {t : Table}
    (ha : Tells a) (hb : c.Names name t id b) : a.query.cacheKey ≠ b.query.cacheKey := by
  obtain ⟨rest, hrest⟩ := ha.text
  rw [hb.cacheKey, Compiled.cacheKey, ha.id, hrest]
  rintro rfl
  refine hc.foreign _ (mem_tables hb.table) _ hb.key ?_
  simp only [String.toList_append, List.append_assoc]
  exact List.prefix_append _ _

/-- **Calls that are kept under one key** have the same SQL text and print the same values, if the
settings keep the keys apart. -/
theorem KeysApart.query_eq (hc : c.KeysApart) (ha : c.Makes a) (hb : c.Makes b)
    (hona : a.query.cache.result.enabled = true) (honb : b.query.cache.result.enabled = true)
    (h : a.query.cacheKey = b.query.cacheKey) :
    a.query.sql = b.query.sql ∧ a.query.shown = b.query.shown := by
  rcases hc.tells_or_names ha hona with hatells | ⟨name, t, id, hanames⟩ <;>
    rcases hc.tells_or_names hb honb with hbtells | ⟨name', t', id', hbnames⟩
  · exact Compiled.shown_eq_of_cacheKey_eq hatells.id hbtells.id h
  · exact absurd h (hc.ne_of_tells_of_names hatells hbnames)
  · exact absurd h.symm (hc.ne_of_tells_of_names hbtells hanames)
  · have hid : id = id' := by rw [← hanames.cacheKey, h, hbnames.cacheKey]
    subst hid
    rw [hc.eq_of_names hanames hbnames]
    exact ⟨rfl, rfl⟩

end Catalog

end TableQuery
