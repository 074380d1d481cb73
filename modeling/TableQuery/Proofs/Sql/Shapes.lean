import TableQuery.Proofs.Sql.Printing

/-! # Shapes of queries

The shape of a predicate is the predicate without the names and the values of its parameters: its
kind with its target, operator and negation, and the number of its parameters. The shape of an SQL
text with parameters has its letters and its marks. Printing goes along with shapes, for predicates
(`Predicate.sql_shape`) and so for queries (`Query.sql_shape`): two queries of one shape have the
same text with equally many parameters, or the same failure. -/

namespace TableQuery

open Outcome

/-- A parameter without a name and a value. -/
def Param.blank : Param := ⟨"", .null⟩

/-! ### Shapes -/

namespace Predicate

mutual

/-- The predicate without the names and the values of its parameters. -/
def shape : Predicate → Predicate
  | .compare target op _ => .compare target op .blank
  | .like target negated _ => .like target negated .blank
  | .among target negated params => .among target negated (params.map fun _ => .blank)
  | .between target _ _ => .between target .blank .blank
  | .isNull target negated => .isNull target negated
  | .raw sql => .raw sql
  | .group conjunction items => .group conjunction (itemShapes items)

/-- The shapes of predicates. -/
def itemShapes : List Predicate → List Predicate
  | [] => []
  | p :: ps => shape p :: itemShapes ps

end

theorem itemShapes_eq_map : ∀ items : List Predicate, itemShapes items = items.map shape
  | [] => rfl
  | p :: ps => by rw [itemShapes, itemShapes_eq_map ps, List.map_cons]

end Predicate

/-- The group with the shapes of its predicates. -/
def Group.shape (g : Group) : Group := { g with items := g.items.map Predicate.shape }

/-- The query with the shapes of its conditions. -/
def Query.shape (q : Query) : Query := { q with filters := q.filters.map Group.shape }

/-- The piece without what is bound to it. -/
def SqlPiece.shape : SqlPiece → SqlPiece
  | .mark _ => .mark .blank
  | piece => piece

namespace Fragment

/-- The fragment without what is bound to its marks. -/
def shape (f : Fragment) : Fragment := f.map SqlPiece.shape

/-- **A shape has the text of its fragment.** -/
theorem text_shape (f : Fragment) : f.shape.text = f.text := by
  have hpiece : ∀ piece : SqlPiece, piece.shape.text = piece.text := by rintro (_ | _ | _) <;> rfl
  rw [text, shape, List.map_map, text]
  exact congrArg String.join (List.map_congr_left fun piece _ => hpiece piece)

/-- **A shape has as many parameters as its fragment.** -/
theorem length_binds_shape (f : Fragment) : f.shape.binds.length = f.binds.length := by
  induction f with
  | nil => rfl
  | cons piece f ih =>
    rw [shape, List.map_cons, binds_cons, binds_cons, List.length_append, List.length_append]
    exact congrArg₂ (· + ·) (by cases piece <;> rfl) ih

theorem shape_inParens (f : Fragment) : f.inParens.shape = f.shape.inParens := by
  simp [shape, inParens, SqlPiece.shape]

/-- What changes the pieces one by one goes along with joining, if it leaves the text between. -/
theorem map_joined {g : SqlPiece → SqlPiece} {sep : String} (hsep : g (.plain sep) = .plain sep) :
    ∀ fs : List Fragment, (joined sep fs).map g = joined sep (fs.map (List.map g))
  | [] => rfl
  | [f] => rfl
  | f :: next :: rest => by
    have ih := map_joined hsep (next :: rest)
    rw [List.map_cons] at ih
    rw [joined, List.map_append, List.map_cons, List.map_cons, List.map_cons, joined, ← ih, hsep]

theorem shape_joined (sep : String) (fs : List Fragment) :
    (joined sep fs).shape = joined sep (fs.map shape) := map_joined rfl fs

theorem shape_ofParams (params : List Param) :
    (params.map ofParam).map shape = (params.map fun _ => Param.blank).map ofParam := by
  rw [List.map_map, List.map_map]
  rfl

end Fragment

/-! ### Printing -/

namespace Predicate

theorem itemsSql_eq_mapM : ∀ items : List Predicate, itemsSql items = items.mapM sql
  | [] => rfl
  | p :: ps => by rw [itemsSql, itemsSql_eq_mapM ps, List.mapM_cons]

/-- **The shape of a predicate prints as the shape of what the predicate prints as.** -/
theorem sql_shape (p : Predicate) : p.shape.sql = Fragment.shape <$> p.sql := by
  induction p with
  | compare target op param =>
    simp only [shape, sql, opening]
    cases target.sql <;> rfl
  | like target negated param =>
    simp only [shape, sql, opening]
    cases target.sql <;> rfl
  | among target negated params =>
    simp only [shape, sql, opening, List.isEmpty_map, ← Fragment.shape_ofParams,
      ← Fragment.shape_joined, ← Fragment.shape_inParens]
    split_ifs
    · rfl
    · cases target.sql <;> rfl
  | between target low high =>
    simp only [shape, sql, opening]
    cases target.sql <;> rfl
  | isNull target negated =>
    simp only [shape, sql, opening]
    cases target.sql <;> rfl
  | raw sql => rfl
  | group conjunction items ih =>
    simp only [shape, sql, itemShapes_eq_map, itemsSql_eq_mapM, mapM_map ih, bind_map_left,
      map_bind, map_pure, Fragment.shape_inParens, Fragment.shape_joined]

end Predicate

theorem Group.sql_shape (g : Group) : g.shape.sql = Fragment.shape <$> g.sql := by
  simp only [shape, sql, Predicate.itemsSql_eq_mapM,
    mapM_map fun p (_ : p ∈ g.items) => p.sql_shape, bind_map_left, map_bind, map_pure,
    Fragment.shape_joined]

namespace Query

theorem groupSql_shape (several : Bool) (g : Group) :
    groupSql several g.shape = Fragment.shape <$> groupSql several g := by
  have hlength : g.shape.items.length = g.items.length := List.length_map _
  simp only [groupSql, g.sql_shape, hlength, bind_map_left, map_bind, map_pure]
  split_ifs <;> simp only [Fragment.shape_inParens]

theorem whereSql_shape (q : Query) : q.shape.whereSql = Fragment.shape <$> q.whereSql := by
  simp only [whereSql, shape, List.isEmpty_map, List.length_map,
    mapM_map fun g (_ : g ∈ q.filters) => groupSql_shape _ g]
  split_ifs
  · rfl
  · simp only [bind_map_left, map_bind, map_pure, ← Fragment.shape_joined]
    rfl

/-- **The shape of a query prints as the shape of what the query prints as.** -/
theorem sql_shape (q : Query) : q.shape.sql = Fragment.shape <$> q.sql := by
  have hhead : q.shape.headSql = q.headSql := rfl
  have hpieces : ∀ head conditions tail,
      Fragment.shape (.plain head :: conditions ++ [.plain tail]) =
        .plain head :: Fragment.shape conditions ++ [.plain tail] := by
    intro head conditions tail
    simp [Fragment.shape, SqlPiece.shape]
  simp only [sql, hhead, q.whereSql_shape, bind_map_left, map_bind, map_pure, hpieces]
  rfl

/-- **Queries of one shape have one text**, with equally many parameters. -/
theorem text_of_shape_eq {q q' : Query} (h : q.shape = q'.shape) :
    (fun f => (f.text, f.binds.length)) <$> q.sql =
      (fun f => (f.text, f.binds.length)) <$> q'.sql := by
  have hshape : ∀ q : Query, (fun f => (f.text, f.binds.length)) <$> q.shape.sql =
      (fun f => (f.text, f.binds.length)) <$> q.sql := by
    intro q
    simp only [q.sql_shape, Functor.map_map, Fragment.text_shape, Fragment.length_binds_shape]
  rw [← hshape q, ← hshape q', h]

theorem shape_filter (q : Query) (g : Group) : (q.filter g).shape = q.shape.filter g.shape := by
  unfold filter
  rw [Group.shape, List.isEmpty_map]
  split_ifs
  · rfl
  · simp [shape, Group.shape]

end Query

end TableQuery
