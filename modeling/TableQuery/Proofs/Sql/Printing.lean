import TableQuery.Sql.Query
import TableQuery.Proofs.Sql.Names

/-! # Printed conditions

What a condition prints, one statement for each kind of predicate: it prints iff its target does
(and a list is not empty), and its text is the text of the target with the operator and the marks.
From this the conditions of a query: the printed groups with ` AND ` between them. The parameters of
a printed query are those of its groups in order (`Query.binds_of_sql`). -/

namespace TableQuery

open Outcome

namespace Predicate

/-- **Induction on predicates**, with the hypothesis for every item of a group. -/
@[induction_eliminator]
theorem induction {P : Predicate → Prop}
    (compare : ∀ target op param, P (.compare target op param))
    (like : ∀ target negated param, P (.like target negated param))
    (among : ∀ target negated params, P (.among target negated params))
    (between : ∀ target low high, P (.between target low high))
    (isNull : ∀ target negated, P (.isNull target negated))
    (raw : ∀ sql, P (.raw sql))
    (group : ∀ conjunction items, (∀ p ∈ items, P p) → P (.group conjunction items)) :
    ∀ p, P p
  | .compare target op param => compare target op param
  | .like target negated param => like target negated param
  | .among target negated params => among target negated params
  | .between target low high => between target low high
  | .isNull target negated => isNull target negated
  | .raw sql => raw sql
  | .group conjunction items =>
    group conjunction items fun p _ =>
      induction compare like among between isNull raw group p
termination_by p => sizeOf p
decreasing_by
  have := List.sizeOf_lt_of_mem ‹_›
  simp only [Predicate.group.sizeOf_spec]
  omega

/-! ### What each kind prints -/

variable {target : Target} {negated : Bool} {param low high : Param} {f : Fragment}

theorem opening_eq_ok {operator : String} : opening target operator = .ok f ↔
    ∃ s, target.sql = .ok s ∧ f = [.plain (s ++ " " ++ operator)] := by
  unfold opening
  rw [bind_eq_ok]
  exact exists_congr fun s => and_congr_right fun _ => pure_eq_ok

theorem compare_eq_ok {op : Comparison} : (compare target op param).sql = .ok f ↔
    ∃ s, target.sql = .ok s ∧ f = [.plain (s ++ " " ++ (op.sql ++ " ")), .mark param] := by
  simp only [sql, bind_eq_ok, opening_eq_ok, pure_eq_ok]
  constructor
  · rintro ⟨_, ⟨s, hs, rfl⟩, rfl⟩; exact ⟨s, hs, rfl⟩
  · rintro ⟨s, hs, rfl⟩; exact ⟨_, ⟨s, hs, rfl⟩, rfl⟩

theorem like_eq_ok : (like target negated param).sql = .ok f ↔ ∃ s, target.sql = .ok s ∧
    f = [.plain (s ++ " " ++ orNot negated "LIKE " "NOT LIKE "), .mark param] := by
  simp only [sql, bind_eq_ok, opening_eq_ok, pure_eq_ok]
  constructor
  · rintro ⟨_, ⟨s, hs, rfl⟩, rfl⟩; exact ⟨s, hs, rfl⟩
  · rintro ⟨s, hs, rfl⟩; exact ⟨_, ⟨s, hs, rfl⟩, rfl⟩

theorem among_eq_ok {ps : List Param} : (among target negated ps).sql = .ok f ↔
    ps ≠ [] ∧ ∃ s, target.sql = .ok s ∧
      f = .plain (s ++ " " ++ orNot negated "IN " "NOT IN ") ::
        Fragment.inParens (Fragment.joined ", " (ps.map Fragment.ofParam)) := by
  simp only [sql, guard_eq_ok, bind_eq_ok, opening_eq_ok, pure_eq_ok, List.isEmpty_iff]
  refine and_congr_right fun _ => ⟨?_, ?_⟩
  · rintro ⟨_, ⟨s, hs, rfl⟩, rfl⟩; exact ⟨s, hs, rfl⟩
  · rintro ⟨s, hs, rfl⟩; exact ⟨_, ⟨s, hs, rfl⟩, rfl⟩

theorem between_eq_ok : (between target low high).sql = .ok f ↔ ∃ s, target.sql = .ok s ∧
    f = [.plain (s ++ " " ++ "BETWEEN "), .mark low, .plain " AND ", .mark high] := by
  simp only [sql, bind_eq_ok, opening_eq_ok, pure_eq_ok]
  constructor
  · rintro ⟨_, ⟨s, hs, rfl⟩, rfl⟩; exact ⟨s, hs, rfl⟩
  · rintro ⟨s, hs, rfl⟩; exact ⟨_, ⟨s, hs, rfl⟩, rfl⟩

theorem isNull_eq_ok : (isNull target negated).sql = .ok f ↔ ∃ s, target.sql = .ok s ∧
    f = [.plain (s ++ " " ++ orNot negated "IS NULL" "IS NOT NULL")] := by
  simp only [sql, opening_eq_ok]

theorem raw_eq_ok {text : String} :
    (raw text).sql = .ok f ↔ f = Fragment.inParens (Fragment.ofAuthor text) := by
  simp only [sql, Except.ok.injEq, eq_comm]

theorem itemsSql_eq_ok : ∀ {items : List Predicate} {fs : List Fragment},
    itemsSql items = .ok fs ↔ List.Forall₂ (fun p f => sql p = .ok f) items fs
  | [], fs => by simp [itemsSql, eq_comm]
  | p :: ps, fs => by
    rw [itemsSql, bind_eq_ok, List.forall₂_cons_left_iff]
    constructor
    · rintro ⟨f, hf, h⟩
      obtain ⟨fs', hfs, h⟩ := bind_eq_ok.mp h
      exact ⟨f, fs', hf, itemsSql_eq_ok.mp hfs, pure_eq_ok.mp h⟩
    · rintro ⟨f, fs', hf, hfs, rfl⟩
      exact ⟨f, hf, bind_eq_ok.mpr ⟨fs', itemsSql_eq_ok.mpr hfs, rfl⟩⟩

theorem group_eq_ok {conjunction : Conjunction} {items : List Predicate} :
    (group conjunction items).sql = .ok f ↔
      ∃ fs, List.Forall₂ (fun p f => sql p = .ok f) items fs ∧
        f = Fragment.inParens (Fragment.joined conjunction.sql fs) := by
  simp only [sql, bind_eq_ok, itemsSql_eq_ok, pure_eq_ok]

theorem itemParams_eq_flatMap : ∀ items : List Predicate, itemParams items = items.flatMap params
  | [] => rfl
  | p :: ps => by rw [itemParams, itemParams_eq_flatMap ps, List.flatMap_cons]

end Predicate

theorem Group.sql_eq_ok {g : Group} {f : Fragment} : g.sql = .ok f ↔
    ∃ fs, List.Forall₂ (fun p f => Predicate.sql p = .ok f) g.items fs ∧
      f = Fragment.joined g.conjunction.sql fs := by
  simp only [Group.sql, bind_eq_ok, Predicate.itemsSql_eq_ok, pure_eq_ok]

/-! ### The parameters of a printed condition -/

namespace Fragment

theorem binds_cons (p : SqlPiece) (f : Fragment) : binds (p :: f) = p.param?.toList ++ binds f := by
  cases h : p.param? <;> simp [binds, h]

theorem binds_inParens (f : Fragment) : binds (inParens f) = binds f := by
  rw [inParens, List.cons_append, binds_cons, binds_append]
  simp [binds, SqlPiece.param?]

theorem binds_joined (sep : String) : ∀ fs : List Fragment,
    binds (joined sep fs) = fs.flatMap binds
  | [] => rfl
  | [f] => by simp [joined]
  | f :: g :: rest => by
    rw [joined, binds_append, binds_cons, binds_joined sep (g :: rest), List.flatMap_cons]
    rfl

theorem binds_ofParams (ps : List Param) : (ps.map ofParam).flatMap binds = ps := by
  induction ps with
  | nil => rfl
  | cons p ps ih => rw [List.map_cons, List.flatMap_cons, ih]; rfl

end Fragment

theorem flatMap_binds_of_forall₂ {α : Type} {R : α → Fragment → Prop} {params : α → List Param}
    {items : List α} {fs : List Fragment} (h : List.Forall₂ R items fs)
    (hb : ∀ x ∈ items, ∀ f, R x f → f.binds = params x) :
    fs.flatMap Fragment.binds = items.flatMap params := by
  induction h with
  | nil => rfl
  | @cons x f xs fs hx _ ih =>
    rw [List.flatMap_cons, List.flatMap_cons, hb x (by simp) f hx,
      ih fun y hy => hb y (List.mem_cons_of_mem x hy)]

theorem Predicate.binds_of_sql (p : Predicate) : ∀ f, p.sql = .ok f → f.binds = p.params := by
  induction p with
  | compare target op param =>
    intro f h; obtain ⟨s, -, rfl⟩ := compare_eq_ok.mp h; rfl
  | like target negated param =>
    intro f h; obtain ⟨s, -, rfl⟩ := like_eq_ok.mp h; rfl
  | among target negated params =>
    intro f h
    obtain ⟨-, s, -, rfl⟩ := among_eq_ok.mp h
    rw [Fragment.binds_cons, Fragment.binds_inParens, Fragment.binds_joined,
      Fragment.binds_ofParams]
    rfl
  | between target low high =>
    intro f h; obtain ⟨s, -, rfl⟩ := between_eq_ok.mp h; rfl
  | isNull target negated =>
    intro f h; obtain ⟨s, -, rfl⟩ := isNull_eq_ok.mp h; rfl
  | raw sql =>
    intro f h; rw [raw_eq_ok.mp h]; rfl
  | group conjunction items ih =>
    intro f h
    obtain ⟨fs, hfs, rfl⟩ := group_eq_ok.mp h
    rw [Fragment.binds_inParens, Fragment.binds_joined, flatMap_binds_of_forall₂ hfs ih,
      Predicate.params, itemParams_eq_flatMap]

theorem Group.binds_of_sql {g : Group} {f : Fragment} (h : g.sql = .ok f) :
    f.binds = g.params := by
  obtain ⟨fs, hfs, rfl⟩ := Group.sql_eq_ok.mp h
  rw [Fragment.binds_joined, flatMap_binds_of_forall₂ hfs fun p _ => p.binds_of_sql, Group.params,
    Predicate.itemParams_eq_flatMap]

/-! ### The conditions of a query -/

namespace Query

theorem groupSql_eq_ok {several : Bool} {g : Group} {f : Fragment} :
    groupSql several g = .ok f ↔
      ∃ f', g.sql = .ok f' ∧ f = if several && 1 < g.items.length then f'.inParens else f' := by
  simp only [groupSql, bind_eq_ok, pure_eq_ok]

theorem whereSql_eq_ok {q : Query} (hq : q.filters ≠ []) {f : Fragment} : q.whereSql = .ok f ↔
    ∃ parts, List.Forall₂ (fun g p => groupSql (1 < q.filters.length) g = .ok p) q.filters parts ∧
      f = .plain " WHERE " :: Fragment.joined " AND " parts := by
  have he : q.filters.isEmpty = false := by simpa using hq
  simp only [whereSql, he, Bool.false_eq_true, if_false, bind_eq_ok, mapM_eq_ok, pure_eq_ok]

theorem sql_eq_ok {q : Query} {f : Fragment} : q.sql = .ok f ↔
    ∃ head conditions grouping order, q.headSql = .ok head ∧ q.whereSql = .ok conditions ∧
      clauseSql " GROUP BY " Target.sql q.groupBy = .ok grouping ∧
      clauseSql " ORDER BY " orderSql q.orderBy = .ok order ∧
      f = .plain head :: conditions ++ [.plain (grouping ++ order ++ q.windowSql)] := by
  simp only [Query.sql, bind_eq_ok, pure_eq_ok, exists_and_left]

theorem binds_of_groupSql {several : Bool} {g : Group} {f : Fragment}
    (h : groupSql several g = .ok f) : f.binds = g.params := by
  obtain ⟨f', hf, rfl⟩ := groupSql_eq_ok.mp h
  split_ifs
  · rw [Fragment.binds_inParens, Group.binds_of_sql hf]
  · exact Group.binds_of_sql hf

theorem binds_of_whereSql {q : Query} {f : Fragment} (h : q.whereSql = .ok f) :
    f.binds = q.filters.flatMap Group.params := by
  by_cases hq : q.filters = []
  · simp only [whereSql, hq, List.isEmpty_nil, if_true] at h
    cases h
    rw [hq]
    rfl
  · obtain ⟨parts, hparts, rfl⟩ := (whereSql_eq_ok hq).mp h
    rw [Fragment.binds_cons, Fragment.binds_joined,
      flatMap_binds_of_forall₂ hparts fun g _ f => binds_of_groupSql]
    rfl

/-- **The parameters of a printed query are those of its groups in order.** -/
theorem binds_of_sql {q : Query} {f : Fragment} (h : q.sql = .ok f) :
    f.binds = q.filters.flatMap Group.params := by
  obtain ⟨head, conditions, grouping, order, -, hw, -, -, rfl⟩ := sql_eq_ok.mp h
  rw [List.cons_append, Fragment.binds_cons, Fragment.binds_append, binds_of_whereSql hw]
  simp [Fragment.binds, SqlPiece.param?]

end Query

end TableQuery
