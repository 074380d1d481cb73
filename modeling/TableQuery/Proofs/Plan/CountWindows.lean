import TableQuery.Proofs.Hydration.Paging
import TableQuery.Proofs.Plan.Counts
import TableQuery.Proofs.Sql.Printable

/-! # The window of a count

A count selects one number in no order, whatever its base query selects and orders by. Its window is
the one of the base query: nothing on the way from the base to a count drops a limit or an offset
(`Planned.isCountOf`). Behind the rows, the text of a count therefore ends with the window of its
base query (`Planned.count_window`).

A query that is not grouped has one row with its number. A window that takes no rows, or that starts
behind the first one, leaves nothing of it (`Query.kept_singleton`), so such a count reads no number
at all (`Planned.count_window_posts_ne`). -/

namespace TableQuery

open Outcome

/-! ### A selection of one item -/

theorem Query.selectSql_of_singleton {q : Query} {item : SelectItem} (h : q.select = [item]) :
    q.selectSql = item.sql := by
  rw [selectSql, h]
  simp only [List.isEmpty_cons, Bool.false_eq_true, if_false, List.mapM_cons, List.mapM_nil]
  cases item.sql with
  | error failure => rfl
  | ok text => exact congrArg Except.ok String.intercalate_singleton

/-! ### Windows -/

namespace Query

variable {q : Query}

/-- The query has a limit or an offset. -/
def IsWindowed (q : Query) : Prop := q.limit ≠ none ∨ q.offset ≠ none

/-- The window of the query has the first row in it. -/
def KeepsFirst (q : Query) : Prop := q.limit ≠ some 0 ∧ q.offset.getD 0 = 0

instance (q : Query) : Decidable q.IsWindowed := inferInstanceAs (Decidable (_ ∨ _))

instance (q : Query) : Decidable q.KeepsFirst := inferInstanceAs (Decidable (_ ∧ _))

/-- **A window is printed unless there is none.** -/
theorem windowSql_eq_empty_iff : q.windowSql = "" ↔ ¬ q.IsWindowed := by
  have hlimit : ∀ text : String, " LIMIT " ++ text ≠ "" := fun text h =>
    absurd (String.append_eq_empty_iff.mp h).1 (by decide)
  have hoffset : ∀ text : String, " OFFSET " ++ text ≠ "" := fun text h =>
    absurd (String.append_eq_empty_iff.mp h).1 (by decide)
  unfold windowSql IsWindowed
  rw [String.append_eq_empty_iff, not_or, not_not, not_not]
  cases q.limit with
  | some count => simp [hlimit]
  | none =>
    cases q.offset with
    | some count => simp [hoffset]
    | none => simp

/-- **A window on a single row** keeps it or leaves nothing. -/
theorem kept_singleton {α : Type} (q : Query) (row : α) :
    q.kept [row] = if q.KeepsFirst then [row] else [] := by
  have hdrop : [row].drop (q.offset.getD 0) = if q.offset.getD 0 = 0 then [row] else [] := by
    cases q.offset.getD 0 with
    | zero => rfl
    | succ n => simp
  unfold kept
  rw [hdrop]
  by_cases h : q.KeepsFirst
  · rw [if_pos h, if_pos h.2]
    cases hlimit : q.limit with
    | none => rfl
    | some count =>
      have hcount : count ≠ 0 := fun hzero => h.1 (hlimit.trans (congrArg some hzero))
      exact List.take_of_length_le (by simp only [List.length_singleton]; omega)
  · rw [if_neg h]
    rcases Classical.not_and_iff_not_or_not.mp h with hlimit | hoffset
    · rw [not_not.mp hlimit]
      exact List.take_zero
    · rw [if_neg hoffset]
      cases q.limit <;> simp

/-- The parts of a count: it selects the number of distinct values of a column and has no order. The
table, the grouping and the window are those of its base query. -/
structure IsCountOf (q base : Query) (aliasName column : String) : Prop where
  select : q.select = [.countDistinct aliasName column]
  orderBy : q.orderBy = []
  table : q.table = base.table ∧ q.aliasName = base.aliasName
  groupBy : q.groupBy = base.groupBy
  window : q.limit = base.limit ∧ q.offset = base.offset

namespace IsCountOf

variable {base : Query} {aliasName column : String}

theorem windowSql (h : q.IsCountOf base aliasName column) : q.windowSql = base.windowSql := by
  unfold Query.windowSql
  rw [h.window.1, h.window.2]

theorem keepsFirst (h : q.IsCountOf base aliasName column) : q.KeepsFirst ↔ base.KeepsFirst := by
  unfold KeepsFirst
  rw [h.window.1, h.window.2]

theorem strategyOf (h : q.IsCountOf base aliasName column) :
    Planned.strategyOf q = .scalar ↔ base.groupBy = [] := by
  unfold Planned.strategyOf isGrouped
  rw [h.groupBy]
  cases base.groupBy <;> simp

/-- **The text of a count**: the number, its rows and the window. -/
theorem sql (h : q.IsCountOf base aliasName column) {c : Compiled} {rows : RowsSql}
    (hreads : q.Reads c rows) : c.sql = "SELECT COUNT(DISTINCT " ++ backticked aliasName ++ "." ++
      backticked column ++ ")" ++ rows.text ++ base.windowSql := by
  obtain ⟨select, order, hselect, horder, htext⟩ := hreads.text
  rw [h.orderBy] at horder
  obtain rfl : "" = order := Except.ok.inj horder
  rw [selectSql_of_singleton h.select] at hselect
  obtain ⟨-, rfl⟩ := SelectItem.countDistinct_eq_ok.mp hselect
  rw [htext, h.windowSql]
  simp only [String.append_assoc, String.empty_append]
  rfl

end IsCountOf

end Query

namespace Planned

variable {p : Planned}

/-! ### Counts of a base query -/

/-- **Both counts keep the window of their base query.** -/
theorem isCountOf (filtered : Bool) (root : Entity) {q : Query} (h : p.joined = .ok q) :
    (p.countedQuery filtered root q).IsCountOf p.base p.plan.rootAlias
      (root.columnFor p.plan.rootIdentifier) := by
  obtain ⟨joins, rfl⟩ := joined_frame h
  obtain ⟨filters, hcounted⟩ := p.countedQuery_frame filtered root { p.base with joins := joins }
  rw [hcounted]
  exact ⟨rfl, rfl, ⟨rfl, rfl⟩, rfl, rfl, rfl⟩

/-- **A count is windowed as its base query is**, whatever the base query is. It selects the number
of distinct identifiers of the root, in no order, and then its text goes on with its rows and ends
with the window of the base query: with nothing if there is no limit and no offset. It is read as a
number if the base query is not grouped, and the one row that has the number is kept by the window
exactly if the limit of the base query is not zero and its offset is. -/
theorem count_window {filtered : Bool} {c : CompiledCount} (h : p.count filtered = .ok c) :
    ∃ root q rows, p.table.registry.root = .ok root ∧ p.joined = .ok q ∧
      (p.countedQuery filtered root q).IsCountOf p.base p.plan.rootAlias
        (root.columnFor p.plan.rootIdentifier) ∧
      (p.countedQuery filtered root q).Reads c.query rows ∧
      c.query.sql = "SELECT COUNT(DISTINCT " ++ backticked p.plan.rootAlias ++ "." ++
        backticked (root.columnFor p.plan.rootIdentifier) ++ ")" ++ rows.text ++
          p.base.windowSql ∧
      (p.base.windowSql = "" ↔ ¬ p.base.IsWindowed) ∧
      (c.strategy = .scalar ↔ p.base.groupBy = []) ∧
      ∀ row : Record, (p.countedQuery filtered root q).kept [row] =
        if p.base.KeepsFirst then [row] else [] := by
  obtain ⟨root, q, f, hq, hf, hsql, hbinds, hroot, hstrategy⟩ := count_eq_ok h
  have hcount := isCountOf filtered root hq
  obtain ⟨rows, hreads⟩ := Query.exists_reads hf hsql hbinds
  refine ⟨root, q, rows, hroot, hq, hcount, hreads, hcount.sql hreads,
    Query.windowSql_eq_empty_iff, ?_, fun row => ?_⟩
  · rw [hstrategy]
    exact hcount.strategyOf
  · rw [Query.kept_singleton]
    exact if_congr hcount.keepsFirst rfl rfl

/-- Posts with the names of their authors. The base query has an order, a limit and an offset. -/
def windowedPosts (limit offset : Nat) : Except Failure Planned := do
  let planner ← Planner.create { blogTable with registry := blogRegistry ["author.name"] } { }
  let ordered := planner.base.addOrderBy (.column "author" "user_name") .asc
  Planner.plan { planner with base := (ordered.withOffset offset).withLimit limit }

/-- A limit without an offset keeps the number, and the order is gone. -/
theorem count_window_posts : ∃ p c root q rows, windowedPosts 10 0 = .ok p ∧
    p.count true = .ok c ∧ p.base.orderBy.length = 1 ∧ c.strategy = .scalar ∧
    (p.countedQuery true root q).orderBy = [] ∧
    c.query.sql = "SELECT COUNT(DISTINCT " ++ backticked p.plan.rootAlias ++ "." ++
      backticked (root.columnFor p.plan.rootIdentifier) ++ ")" ++ RowsSql.text rows ++
        " LIMIT 10 OFFSET 0" ∧
    ∀ row : Record, (p.countedQuery true root q).kept [row] = [row] := by
  obtain ⟨p, hp, h⟩ := exists_ok (x := windowedPosts 10 0)
    (p := fun p => (p.base.orderBy.length == 1 && p.base.groupBy.isEmpty) &&
      (p.base.windowSql == " LIMIT 10 OFFSET 0" && decide p.base.KeepsFirst) &&
        (p.count true).toOption.any fun _ => true)
    (by decide +kernel)
  simp only [Bool.and_eq_true, beq_iff_eq, decide_eq_true_eq, List.isEmpty_iff] at h
  obtain ⟨⟨⟨horder, hgroup⟩, hwindow, hkeeps⟩, hcompiles⟩ := h
  obtain ⟨c, hc, -⟩ := exists_ok hcompiles
  obtain ⟨root, q, rows, -, -, hcount, -, hsql, -, hscalar, hkept⟩ := count_window hc
  rw [hwindow] at hsql
  exact ⟨p, c, root, q, rows, hp, hc, horder, hscalar.mpr hgroup, hcount.orderBy, hsql,
    fun row => (hkept row).trans (if_pos hkeeps)⟩

/-- The count of posts behind the twentieth row. -/
def windowedCountSql : String :=
  "SELECT COUNT(DISTINCT `post`.`id`) FROM `posts` AS `post` LEFT JOIN `users` AS `author`" ++
    " ON `post`.`author_id` = `author`.`id` LIMIT 10 OFFSET 20"

/-- The number of all posts is cut off by the offset of the base query. -/
theorem count_window_posts_ne : ∃ p c root q, windowedPosts 10 20 = .ok p ∧
    p.count false = .ok c ∧ c.strategy = .scalar ∧ c.query.sql = windowedCountSql ∧
    (p.countedQuery false root q).sql.map Fragment.text = .ok c.query.sql ∧
    ∀ row : Record, (p.countedQuery false root q).kept [row] = [] := by
  obtain ⟨p, hp, h⟩ := exists_ok (x := windowedPosts 10 20)
    (p := fun p => !decide p.base.KeepsFirst &&
      (p.count false).toOption.any fun c : CompiledCount =>
        decide (c.strategy = .scalar) && c.query.sql == windowedCountSql)
    (by decide +kernel)
  simp only [Bool.and_eq_true, Bool.not_eq_true', decide_eq_false_iff_not] at h
  obtain ⟨hkeeps, hcompiles⟩ := h
  obtain ⟨c, hc, hcount⟩ := exists_ok hcompiles
  rw [Bool.and_eq_true, decide_eq_true_eq, beq_iff_eq] at hcount
  obtain ⟨hscalar, hsql⟩ := hcount
  obtain ⟨root, q, f, hq, hf, htext, -, -, -⟩ := count_eq_ok hc
  refine ⟨p, c, root, q, hp, hc, hscalar, hsql, ?_, fun row => ?_⟩
  · rw [hf, htext]
    rfl
  · have hbase := isCountOf false root hq
    rw [Query.kept_singleton, if_neg (hbase.keepsFirst.not.mpr hkeeps)]

end Planned

end TableQuery
