import TableQuery.Proofs.Plan.Routes
import TableQuery.Proofs.Plan.Queries

/-! # The rows of the page and of its counts

The page and both counts are made from one base query, along different steps: the page adds a
selection, an order and a window, and a count has a selection of its own and no order. The text of a
query is its select list, then its rows, and then its order and window (`Query.exists_reads`). Its
rows are what stands from FROM to the end of GROUP BY, and no step but the searches changes them.

So the page and the filtered count read the same rows with the same parameters, and the count of all
records reads those without the searches (`Planned.counts_rows`). -/

namespace TableQuery

open Outcome

/-! ### The rows of a query -/

/-- What the rows of a query come from, as SQL. -/
structure RowsSql where
  /-- The tables, with the word FROM. -/
  source : String
  conditions : Fragment
  grouping : String

/-- The text from FROM to the end of GROUP BY. -/
def RowsSql.text (r : RowsSql) : String := r.source ++ r.conditions.text ++ r.grouping

namespace Query

variable {q : Query}

/-- The table and the joined ones. -/
def sourceSql (q : Query) : Except SqlFailure String := do
  let table ← quoteIdentifier q.table
  let name ← quoteIdentifier q.aliasName
  let joins ← q.joins.mapM joinSql
  pure (" FROM " ++ table ++ " AS " ++ name ++ String.join joins)

/-- The rows. -/
def rowsSql (q : Query) : Except SqlFailure RowsSql := do
  let source ← q.sourceSql
  let conditions ← q.whereSql
  let grouping ← clauseSql " GROUP BY " Target.sql q.groupBy
  pure ⟨source, conditions, grouping⟩

theorem rowsSql_eq_ok {rows : RowsSql} : q.rowsSql = .ok rows ↔ q.sourceSql = .ok rows.source ∧
    q.whereSql = .ok rows.conditions ∧
    clauseSql " GROUP BY " Target.sql q.groupBy = .ok rows.grouping := by
  simp only [rowsSql, bind_eq_ok, pure_eq_ok]
  constructor
  · rintro ⟨source, hsource, conditions, hconditions, grouping, hgrouping, rfl⟩
    exact ⟨hsource, hconditions, hgrouping⟩
  · rintro ⟨hsource, hconditions, hgrouping⟩
    exact ⟨_, hsource, _, hconditions, _, hgrouping, rfl⟩

theorem exists_sourceSql {head : String} (h : q.headSql = .ok head) : ∃ select source,
    q.selectSql = .ok select ∧ q.sourceSql = .ok source ∧ head = "SELECT " ++ select ++ source := by
  simp only [headSql, bind_eq_ok, pure_eq_ok] at h
  obtain ⟨-, -, select, hselect, table, htable, name, hname, joins, hjoins, rfl⟩ := h
  refine ⟨select, " FROM " ++ table ++ " AS " ++ name ++ String.join joins, hselect, ?_, ?_⟩
  · simp only [sourceSql, bind_eq_ok, pure_eq_ok]
    exact ⟨table, htable, name, hname, joins, hjoins, rfl⟩
  · simp only [String.append_assoc]

/-- The compiled query selects something from some rows, in an order and a window. -/
structure Reads (q : Query) (c : Compiled) (rows : RowsSql) : Prop where
  read : q.rowsSql = .ok rows
  text : ∃ select order, q.selectSql = .ok select ∧
    clauseSql " ORDER BY " orderSql q.orderBy = .ok order ∧
    c.sql = "SELECT " ++ select ++ rows.text ++ (order ++ q.windowSql)
  /-- Parameters stand nowhere but in the rows. -/
  binds : c.binds = rows.conditions.binds

/-- **A compiled query reads its rows.** -/
theorem exists_reads {f : Fragment} (h : q.sql = .ok f) {c : Compiled} (hsql : c.sql = f.text)
    (hbinds : c.binds = f.binds) : ∃ rows, q.Reads c rows := by
  obtain ⟨head, conditions, grouping, order, hhead, hconditions, hgrouping, horder, rfl⟩ :=
    sql_eq_ok.mp h
  obtain ⟨select, source, hselect, hsource, rfl⟩ := exists_sourceSql hhead
  refine ⟨⟨source, conditions, grouping⟩, rowsSql_eq_ok.mpr ⟨hsource, hconditions, hgrouping⟩,
    ⟨select, order, hselect, horder, ?_⟩, ?_⟩
  · rw [hsql]
    simp [RowsSql.text, Fragment.text, SqlPiece.text, String.append_assoc]
  · rw [hbinds, List.cons_append, Fragment.binds_cons, Fragment.binds_append]
    simp [Fragment.binds, SqlPiece.param?]

end Query

namespace Planned

variable {p : Planned}

/-! ### The steps -/

/-- **The page reads the rows of the base that the searches keep.** -/
theorem rowsSql_pageQuery (q : Query) : (p.pageQuery q).rowsSql = (p.addSearch q).rowsSql := by
  obtain ⟨limit, offset, hpage⟩ := p.pageQuery_eq q
  rw [hpage]
  unfold addSearch Query.filter
  split_ifs <;> rfl

theorem rowsSql_countedQuery (root : Entity) (q : Query) :
    (p.countedQuery true root q).rowsSql = (p.addSearch q).rowsSql := by
  rw [countedQuery, if_pos rfl]
  unfold addSearch Query.filter
  split_ifs <;> rfl

theorem rowsSql_addSearch {q : Query} {found all : RowsSql}
    (hfound : (p.addSearch q).rowsSql = .ok found) (hall : q.rowsSql = .ok all) :
    all.source = found.source ∧ all.grouping = found.grouping := by
  obtain ⟨filters, hq⟩ := p.addSearch_frame q
  rw [hq] at hfound
  obtain ⟨hsource, -, hgrouping⟩ := Query.rowsSql_eq_ok.mp hfound
  obtain ⟨hsource', -, hgrouping'⟩ := Query.rowsSql_eq_ok.mp hall
  exact ⟨Except.ok.inj (hsource'.symm.trans hsource),
    Except.ok.inj (hgrouping'.symm.trans hgrouping)⟩

/-- No search text of the request gives a condition. -/
def isUnsearched (p : Planned) : Bool :=
  p.globalSearch.items.isEmpty && p.individualSearch.items.isEmpty

theorem countedQuery_of_isUnsearched (h : p.isUnsearched = true) (root : Entity) (q : Query) :
    p.countedQuery true root q = p.countedQuery false root q := by
  obtain ⟨hglobal, hindividual⟩ := Bool.and_eq_true_iff.mp h
  simp only [countedQuery, addSearch, Query.filter, hglobal, hindividual, if_true,
    Bool.false_eq_true, if_false]

/-! ### The three queries -/

theorem exists_sql_of_count {filtered : Bool} {c : CompiledCount} {root : Entity} {q : Query}
    (h : p.count filtered = .ok c) (hroot : p.table.registry.root = .ok root)
    (hq : p.joined = .ok q) : ∃ f, (p.countedQuery filtered root q).sql = .ok f ∧
      c.query.sql = f.text ∧ c.query.binds = f.binds ∧
      c.strategy = strategyOf (p.countedQuery filtered root q) := by
  obtain ⟨root', q', f, hq', hf, hsql, hbinds, hroot', hstrategy⟩ := count_eq_ok h
  obtain rfl : root = root' := Except.ok.inj (hroot.symm.trans hroot')
  obtain rfl : q = q' := Except.ok.inj (hq.symm.trans hq')
  exact ⟨f, hf, hsql, hbinds, hstrategy⟩

/-- **The page and its counts describe the same rows**, whatever the base query is. The text of the
page and that of the filtered count are the same from FROM to the end of GROUP BY, and so are their
parameters. The count of all records has the tables and the grouping, but no conditions other than
those of the base query; if no search text gives a condition, it is the filtered count. -/
theorem counts_rows {page : Compiled} {filtered total : CompiledCount} (hpage : p.page = .ok page)
    (hfiltered : p.count true = .ok filtered) (htotal : p.count false = .ok total) :
    ∃ root q found all, p.joined = .ok q ∧ (p.pageQuery q).Reads page found ∧
      (p.countedQuery true root q).Reads filtered.query found ∧
      (p.countedQuery false root q).Reads total.query all ∧
      all.source = found.source ∧ all.grouping = found.grouping ∧
      p.base.whereSql = .ok all.conditions ∧
      (p.isUnsearched = true → filtered.query.sql = total.query.sql ∧
        filtered.query.binds = total.query.binds ∧ filtered.strategy = total.strategy) := by
  obtain ⟨q, f, hq, hf, rfl⟩ := page_eq_ok hpage
  obtain ⟨root, -, -, -, -, -, -, hroot, -⟩ := count_eq_ok htotal
  obtain ⟨g, hg, hgText, hgBinds, hgStrategy⟩ := exists_sql_of_count hfiltered hroot hq
  obtain ⟨k, hk, hkText, hkBinds, hkStrategy⟩ := exists_sql_of_count htotal hroot hq
  obtain ⟨found, hfound⟩ := Query.exists_reads hf (c := ⟨f.text, f.binds, _⟩) rfl rfl
  obtain ⟨found', hfound'⟩ := Query.exists_reads hg hgText hgBinds
  obtain ⟨all, hall⟩ := Query.exists_reads hk hkText hkBinds
  have hsearched : (p.addSearch q).rowsSql = .ok found :=
    (rowsSql_pageQuery q).symm.trans hfound.read
  obtain rfl : found' = found := Except.ok.inj
    (hfound'.read.symm.trans ((rowsSql_countedQuery root q).trans hsearched))
  have hjoined : q.rowsSql = .ok all := hall.read
  obtain ⟨hsource, hgrouping⟩ := rowsSql_addSearch hsearched hjoined
  refine ⟨root, q, found', all, hq, hfound, hfound', hall, hsource, hgrouping, ?_, fun h => ?_⟩
  · obtain ⟨joins, rfl⟩ := joined_frame hq
    exact (Query.rowsSql_eq_ok.mp hjoined).2.1
  · have hsame := countedQuery_of_isUnsearched h root q
    rw [← hsame] at hk hkStrategy
    obtain rfl : g = k := Except.ok.inj (hg.symm.trans hk)
    exact ⟨hgText.trans hkText.symm, hgBinds.trans hkBinds.symm, hgStrategy.trans hkStrategy.symm⟩

/-- Posts that are published, searched for a text by the names of their authors, which are said to
be of some type. -/
def publishedPosts (type : String) : Except Failure Planned := do
  let registry := ((blogRegistry []).register (some "author.name") .column
    (Json.object [("type_of_field", .str type)]) none).1
  let planner ← Planner.create
    { blogTable with registry := registry, groupBy := [.column "post" "id"] }
    { start := some 10, length := some 5, search := some ⟨"rust", false⟩
      columns := [{ orderable := true }], order := [⟨0, .desc⟩] }
  Planner.plan { planner with base := planner.base.filterRaw "post.published = 1" }

/-- Texts are searched for the text, and numbers for nothing. -/
theorem counts_rows_posts :
    (∃ p page filtered total root q found all, publishedPosts "string" = .ok p ∧
      p.page = .ok page ∧ p.count true = .ok filtered ∧ p.count false = .ok total ∧
      page.binds.length = 1 ∧ (p.pageQuery q).Reads page found ∧
      (p.countedQuery true root q).Reads filtered.query found ∧
      (p.countedQuery false root q).Reads total.query all) ∧
    ∃ p filtered total, publishedPosts "integer" = .ok p ∧ p.count true = .ok filtered ∧
      p.count false = .ok total ∧ filtered.query.sql = total.query.sql := by
  have hcompiled : ∀ {p : Planned}, (p.count true).toOption.any (fun _ => true) = true →
      (p.count false).toOption.any (fun _ => true) = true →
      ∃ filtered total, p.count true = .ok filtered ∧ p.count false = .ok total := by
    intro p htrue hfalse
    obtain ⟨filtered, hfiltered, -⟩ := exists_ok htrue
    obtain ⟨total, htotal, -⟩ := exists_ok hfalse
    exact ⟨filtered, total, hfiltered, htotal⟩
  constructor
  · obtain ⟨p, hp, h⟩ := exists_ok (x := publishedPosts "string")
      (p := fun p => p.page.toOption.any (fun c => c.binds.length == 1) &&
        ((p.count true).toOption.any (fun _ => true) && (p.count false).toOption.any fun _ => true))
      (by decide +kernel)
    rw [Bool.and_eq_true, Bool.and_eq_true] at h
    obtain ⟨page, hpage, hbinds⟩ := exists_ok h.1
    obtain ⟨filtered, total, hfiltered, htotal⟩ := hcompiled h.2.1 h.2.2
    obtain ⟨root, q, found, all, -, hfound, hfound', hall, -⟩ := counts_rows hpage hfiltered htotal
    exact ⟨p, page, filtered, total, root, q, found, all, hp, hpage, hfiltered, htotal,
      beq_iff_eq.mp hbinds, hfound, hfound', hall⟩
  · obtain ⟨p, hp, h⟩ := exists_ok (x := publishedPosts "integer")
      (p := fun p => p.page.toOption.any (fun _ => true) && p.isUnsearched &&
        ((p.count true).toOption.any (fun _ => true) && (p.count false).toOption.any fun _ => true))
      (by decide +kernel)
    rw [Bool.and_eq_true, Bool.and_eq_true, Bool.and_eq_true] at h
    obtain ⟨page, hpage, -⟩ := exists_ok h.1.1
    obtain ⟨filtered, total, hfiltered, htotal⟩ := hcompiled h.2.1 h.2.2
    obtain ⟨-, -, -, -, -, -, -, -, -, -, -, hsame⟩ := counts_rows hpage hfiltered htotal
    exact ⟨p, filtered, total, hp, hfiltered, htotal, (hsame h.1.2).1⟩

end Planned

end TableQuery
