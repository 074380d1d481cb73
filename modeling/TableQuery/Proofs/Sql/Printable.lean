import TableQuery.Proofs.Search.Added
import TableQuery.Proofs.Sql.JoinConditions
import TableQuery.Proofs.Sql.Printing
import TableQuery.Proofs.Text.Blank

/-! # When a query prints

A query prints iff each of its parts does (`Query.exists_sql`): the tables and their aliases are
identifiers, expressions are not blank, and no list of values is empty. What is read from a text
that is not blank prints (`Target.prints_ofText`), and so does the predicate that a search value
comes to, if its target does (`SearchTerm.Gives.prints`). -/

namespace TableQuery

open Outcome

/-! ### Targets -/

/-- The target has an SQL text. -/
def Target.Prints (t : Target) : Prop := ∃ s, t.sql = .ok s

namespace Target

theorem prints_column {aliasName name : String} :
    (column aliasName name).Prints ↔ isIdentifier aliasName = true ∧ isIdentifier name = true := by
  simp only [Prints, sql, exists_bind, quoteIdentifier_eq_ok, pure_eq_ok]
  simp

theorem prints_label {name : String} : (label name).Prints ↔ isIdentifierPath name = true := by
  simp only [Prints, sql, quotePath_eq_ok, exists_and_left, exists_eq, and_true]

theorem prints_raw {sql : String} : (raw sql).Prints ↔ Text.isBlankText sql = false := by
  rw [Prints, Target.sql]
  split_ifs with h <;> simp [h]

/-- **What is read from a text that is not blank prints.** -/
theorem prints_ofText {text : String} (h : Text.isBlankText text = false) :
    (ofText text).Prints := by
  have hraw : (raw (Text.trim text)).Prints := prints_raw.mpr (Text.isBlankText_trim h)
  simp only [ofText]
  split_ifs with hpath
  · rw [isIdentifierPath, List.all_eq_true] at hpath
    split
    · next name hpieces =>
      exact prints_label.mpr (isIdentifierPath_of_isIdentifier (hpath name (by simp [hpieces])))
    · next aliasName name hpieces =>
      exact prints_column.mpr ⟨hpath aliasName (by simp [hpieces]), hpath name (by simp [hpieces])⟩
    · exact hraw
  · exact hraw

end Target

/-! ### Conditions -/

/-- The predicate has an SQL text. -/
def Predicate.Prints (p : Predicate) : Prop := ∃ f, p.sql = .ok f

namespace Group

/-- All predicates of the group have an SQL text. -/
def Prints (g : Group) : Prop := ∀ p ∈ g.items, p.Prints

theorem exists_forall₂ {items : List Predicate} :
    (∃ fs, List.Forall₂ (fun p f => Predicate.sql p = .ok f) items fs) ↔
      ∀ p ∈ items, p.Prints := by
  simp only [← mapM_eq_ok]
  exact exists_mapM

/-- **A group prints iff its predicates do.** -/
theorem exists_sql {g : Group} : (∃ f, g.sql = .ok f) ↔ g.Prints := by
  rw [Prints, ← exists_forall₂]
  constructor
  · rintro ⟨f, h⟩
    obtain ⟨fs, hfs, -⟩ := sql_eq_ok.mp h
    exact ⟨fs, hfs⟩
  · rintro ⟨fs, hfs⟩
    exact ⟨_, sql_eq_ok.mpr ⟨fs, hfs, rfl⟩⟩

theorem Prints.push {g : Group} (hg : g.Prints) {p : Predicate} (hp : p.Prints) :
    (g.push p).Prints := by
  intro p' hp'
  rcases List.mem_append.mp hp' with hp' | hp'
  · exact hg p' hp'
  · rwa [List.mem_singleton.mp hp']

end Group

/-- **What a search value comes to prints**, if its target does. -/
theorem SearchTerm.Gives.prints {term : SearchTerm} {names : Naming} {p : Predicate} {used : Nat}
    (h : term.Gives names p used) (ht : term.target.Prints) : p.Prints := by
  obtain ⟨s, hs⟩ := ht
  cases h with
  | isNull negated => exact ⟨_, Predicate.isNull_eq_ok.mpr ⟨s, hs, rfl⟩⟩
  | compare op value => exact ⟨_, Predicate.compare_eq_ok.mpr ⟨s, hs, rfl⟩⟩
  | like negated value => exact ⟨_, Predicate.like_eq_ok.mpr ⟨s, hs, rfl⟩⟩
  | among negated hvalues =>
    refine ⟨_, Predicate.among_eq_ok.mpr ⟨?_, s, hs, rfl⟩⟩
    simpa [named] using hvalues

/-! ### The select list -/

/-- The item has an SQL text. -/
def SelectItem.Prints (item : SelectItem) : Prop := ∃ s, item.sql = .ok s

namespace SelectItem

theorem quoteColumn_eq_ok {source name s : String} :
    quoteColumn (some source) name = .ok s ↔ (isIdentifier source = true ∧
      isIdentifier name = true) ∧ s = backticked source ++ "." ++ backticked name := by
  simp only [quoteColumn, bind_eq_ok, pure_eq_ok, quoteIdentifier_eq_ok]
  constructor
  · rintro ⟨_, ⟨hsource, rfl⟩, _, ⟨hname, rfl⟩, rfl⟩
    exact ⟨⟨hsource, hname⟩, rfl⟩
  · rintro ⟨⟨hsource, hname⟩, rfl⟩
    exact ⟨_, ⟨hsource, rfl⟩, _, ⟨hname, rfl⟩, rfl⟩

theorem exists_underAlias {text aliasName : String} (h : isIdentifier aliasName = true) :
    ∃ s, underAlias text aliasName = .ok s :=
  exists_bind.mpr ⟨_, quoteIdentifier_eq_ok.mpr ⟨h, rfl⟩, _, rfl⟩

theorem prints_column {source name aliasName : String} (hsource : isIdentifier source = true)
    (hname : isIdentifier name = true) (halias : isIdentifier aliasName = true) :
    (column (some source) name (some aliasName)).Prints := by
  have hstar : name ≠ "*" := by
    rintro rfl
    exact absurd hname (by decide)
  rw [Prints, sql, if_neg hstar, exists_bind]
  exact ⟨_, quoteColumn_eq_ok.mpr ⟨⟨hsource, hname⟩, rfl⟩, exists_underAlias halias⟩

theorem prints_expression {sql aliasName : String} (hsql : Text.isBlankText sql = false)
    (halias : isIdentifier aliasName = true) : (expression sql aliasName).Prints := by
  rw [Prints, SelectItem.sql, hsql]
  exact exists_underAlias halias

theorem countDistinct_eq_ok {source name s : String} :
    (countDistinct source name).sql = .ok s ↔ (isIdentifier source = true ∧
      isIdentifier name = true) ∧
      s = "COUNT(DISTINCT " ++ (backticked source ++ "." ++ backticked name) ++ ")" := by
  simp only [sql, bind_eq_ok, pure_eq_ok, quoteColumn_eq_ok]
  constructor
  · rintro ⟨_, ⟨hnames, rfl⟩, rfl⟩
    exact ⟨hnames, rfl⟩
  · rintro ⟨hnames, rfl⟩
    exact ⟨_, ⟨hnames, rfl⟩, rfl⟩

theorem prints_countDistinct {source name : String} (hsource : isIdentifier source = true)
    (hname : isIdentifier name = true) : (countDistinct source name).Prints :=
  ⟨_, countDistinct_eq_ok.mpr ⟨⟨hsource, hname⟩, rfl⟩⟩

end SelectItem

/-! ### Joins and queries -/

/-- The join has an SQL text: its table and its alias are identifiers, and its conditions print. -/
structure Join.Prints (j : Join) : Prop where
  table : isIdentifier j.table = true
  aliasName : isIdentifier j.aliasName = true
  on : ∀ c ∈ j.on, ∃ s, JoinCondition.sql c = .ok s

/-- The parts of a query have SQL texts. -/
structure Query.Prints (q : Query) : Prop where
  table : isIdentifier q.table = true
  aliasName : isIdentifier q.aliasName = true
  select : ∀ item ∈ q.select, item.Prints
  joins : ∀ j ∈ q.joins, j.Prints
  filters : ∀ g ∈ q.filters, g.Prints
  groupBy : ∀ t ∈ q.groupBy, t.Prints
  orderBy : ∀ term ∈ q.orderBy, term.target.Prints

namespace Query

theorem exists_joinSql {j : Join} : (∃ s, joinSql j = .ok s) ↔ j.Prints := by
  simp only [joinSql, exists_bind, quoteIdentifier_eq_ok, pure_eq_ok]
  constructor
  · rintro ⟨-, ⟨htable, -⟩, -, ⟨halias, -⟩, on, hon, -⟩
    exact ⟨htable, halias, exists_mapM.mp ⟨on, hon⟩⟩
  · intro h
    obtain ⟨on, hon⟩ := exists_mapM.mpr h.on
    exact ⟨_, ⟨h.table, rfl⟩, _, ⟨h.aliasName, rfl⟩, on, hon, _, rfl⟩

theorem exists_clauseSql {α : Type} {keyword : String} {sql : α → Except SqlFailure String}
    {terms : List α} :
    (∃ s, clauseSql keyword sql terms = .ok s) ↔ ∀ t ∈ terms, ∃ s, sql t = .ok s := by
  unfold clauseSql
  cases terms with
  | nil => simp
  | cons t terms =>
    rw [List.isEmpty_cons, if_neg Bool.false_ne_true, exists_bind, ← exists_mapM]
    exact exists_congr fun texts => and_iff_left ⟨_, rfl⟩

theorem exists_groupSql {several : Bool} {g : Group} :
    (∃ f, groupSql several g = .ok f) ↔ g.Prints := by
  rw [← Group.exists_sql, groupSql, exists_bind]
  exact exists_congr fun f => and_iff_left ⟨_, rfl⟩

theorem exists_whereSql {q : Query} : (∃ f, q.whereSql = .ok f) ↔ ∀ g ∈ q.filters, g.Prints := by
  unfold whereSql
  split_ifs with hempty
  · rw [List.isEmpty_iff.mp hempty]
    simp
  · rw [exists_bind]
    refine (exists_congr fun parts => and_iff_left ⟨_, rfl⟩).trans (exists_mapM.trans ?_)
    exact forall₂_congr fun g _ => exists_groupSql

theorem exists_orderSql {term : OrderTerm} : (∃ s, orderSql term = .ok s) ↔ term.target.Prints := by
  rw [orderSql, exists_bind]
  exact exists_congr fun s => and_iff_left ⟨_, rfl⟩

theorem exists_selectSql {q : Query} (halias : isIdentifier q.aliasName = true) :
    (∃ s, q.selectSql = .ok s) ↔ ∀ item ∈ q.select, item.Prints := by
  unfold selectSql
  split_ifs with hempty
  · rw [List.isEmpty_iff.mp hempty]
    have hroot : ∃ s, (SelectItem.column (some q.aliasName) "*" none).sql = .ok s :=
      exists_bind.mpr ⟨_, quoteIdentifier_eq_ok.mpr ⟨halias, rfl⟩, _, rfl⟩
    simp [hroot]
  · rw [exists_bind]
    exact (exists_congr fun items => and_iff_left ⟨_, rfl⟩).trans exists_mapM

theorem exists_headSql {q : Query} : (∃ s, q.headSql = .ok s) ↔ isIdentifier q.table = true ∧
    isIdentifier q.aliasName = true ∧ (∀ item ∈ q.select, item.Prints) ∧
      ∀ j ∈ q.joins, j.Prints := by
  simp only [headSql, exists_bind, quoteIdentifier_eq_ok]
  constructor
  · rintro ⟨-, -, select, hselect, -, ⟨htable, -⟩, -, ⟨halias, -⟩, joins, hjoins, -⟩
    refine ⟨htable, halias, (exists_selectSql halias).mp ⟨select, hselect⟩, fun j hj => ?_⟩
    exact exists_joinSql.mp (exists_mapM.mp ⟨joins, hjoins⟩ j hj)
  · rintro ⟨htable, halias, hselect, hjoins⟩
    obtain ⟨select, hselect⟩ := (exists_selectSql halias).mpr hselect
    obtain ⟨joins, hjoins⟩ := exists_mapM.mpr fun j hj => exists_joinSql.mpr (hjoins j hj)
    exact ⟨(), checkPath_eq_ok.mpr (isIdentifierPath_of_isIdentifier htable), select, hselect, _,
      ⟨htable, rfl⟩, _, ⟨halias, rfl⟩, joins, hjoins, _, rfl⟩

/-- **A query prints iff each of its parts does.** -/
theorem exists_sql {q : Query} : (∃ f, q.sql = .ok f) ↔ q.Prints := by
  simp only [Query.sql, exists_bind]
  constructor
  · rintro ⟨head, hhead, conditions, hconditions, grouping, hgrouping, order, horder, -⟩
    obtain ⟨htable, halias, hselect, hjoins⟩ := exists_headSql.mp ⟨head, hhead⟩
    exact ⟨htable, halias, hselect, hjoins, exists_whereSql.mp ⟨conditions, hconditions⟩,
      exists_clauseSql.mp ⟨grouping, hgrouping⟩,
      fun term hterm => exists_orderSql.mp (exists_clauseSql.mp ⟨order, horder⟩ term hterm)⟩
  · intro h
    obtain ⟨head, hhead⟩ := exists_headSql.mpr ⟨h.table, h.aliasName, h.select, h.joins⟩
    obtain ⟨conditions, hconditions⟩ := exists_whereSql.mpr h.filters
    obtain ⟨grouping, hgrouping⟩ := exists_clauseSql.mpr h.groupBy
    obtain ⟨order, horder⟩ :=
      exists_clauseSql.mpr fun term hterm => exists_orderSql.mpr (h.orderBy term hterm)
    exact ⟨head, hhead, conditions, hconditions, grouping, hgrouping, order, horder, _, rfl⟩

end Query

end TableQuery
