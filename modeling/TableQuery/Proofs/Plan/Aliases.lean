import TableQuery.Proofs.Hydration.Nested
import TableQuery.Proofs.Plan.Queries
import TableQuery.Proofs.Text.Split
import Mathlib.Data.List.Nodup

/-! # The aliases of the tables in a query

The alias of a joined table is the path of relationships to it, joined by underscores and marked if
that is a reserved word; a link table has that alias with `_link` behind it, and the root has its
own name. Aliases are not kept apart otherwise, so two tables can have the same one
(`Planned.tableAliases_addresses`).

They are different if the names are plain: without underscores, the first relationship of a column
not called like the root, and no later one called `link`. Then the alias of a table tells its path
and whether it is a link table (`PlainRelations.aliasAt_inj`). Every hop of every column keeps each
join at its path, and no two joins at the same one (`JoinPlan.Along`), so all tables of a planned
request have different aliases (`Planned.tableAliases_nodup`). -/

namespace TableQuery

open Outcome

/-! ### Aliases of paths -/

/-- Names that are not empty and have no underscore. -/
def IsPlainName (name : String) : Prop := name ≠ "" ∧ '_' ∉ name.toList

instance (name : String) : Decidable (IsPlainName name) := inferInstanceAs (Decidable (_ ∧ _))

/-- Paths of plain names that go on with no relationship called `link`. -/
structure PlainPath (path : List String) : Prop where
  ne_nil : path ≠ []
  plain : ∀ name ∈ path, IsPlainName name
  link : "link" ∉ path.tail

/-- The alias of the table that a path of relationships leads to. -/
def pathAlias (path : List String) : String := safeAlias ("_".intercalate path)

/-- The alias of that table, or of the link table on the way to it. -/
def tableAlias (path : List String) (link : Bool) : String :=
  if link then pathAlias path ++ "_link" else pathAlias path

theorem intercalate_concat : ∀ {path : List String}, path ≠ [] → ∀ name,
    "_".intercalate (path ++ [name]) = "_".intercalate path ++ ("_" ++ name)
  | [a], _, name => by simp [String.intercalate_cons_cons, String.append_assoc]
  | a :: b :: path, _, name => by
    have ih := intercalate_concat (List.cons_ne_nil b path) name
    rw [List.cons_append, List.cons_append, String.intercalate_cons_cons,
      String.intercalate_cons_cons, ← List.cons_append, ih]
    simp only [String.append_assoc]

/-- **Paths of plain names with the same joined text are the same.** -/
theorem eq_of_intercalate_eq {p q : List String} (hp : p ≠ []) (hq : q ≠ [])
    (hplain : ∀ name ∈ p ++ q, '_' ∉ name.toList) (h : "_".intercalate p = "_".intercalate q) :
    p = q := by
  have hleft : Text.piecesOf '_' ("_".intercalate p) = p :=
    Text.piecesOf_intercalate rfl hp fun name hn => hplain name (List.mem_append_left _ hn)
  have hright : Text.piecesOf '_' ("_".intercalate q) = q :=
    Text.piecesOf_intercalate rfl hq fun name hn => hplain name (List.mem_append_right _ hn)
  rw [← hleft, h, hright]

theorem PlainPath.exists_toList {path : List String} (h : PlainPath path) :
    ∃ c cs, ("_".intercalate path).toList = c :: cs ∧ c ≠ '_' := by
  obtain ⟨hne, hplain, -⟩ := h
  obtain ⟨name, rest, rfl⟩ := List.exists_cons_of_ne_nil hne
  obtain ⟨hempty, hunderscore⟩ := hplain name List.mem_cons_self
  obtain ⟨c, cs, hname⟩ : ∃ c cs, name.toList = c :: cs :=
    List.exists_cons_of_ne_nil fun hnil => hempty (String.toList_inj.mp hnil)
  refine ⟨c, ?_⟩
  rw [hname, List.mem_cons, not_or] at hunderscore
  rw [String.toList_intercalate, List.map_cons, hname]
  cases rest with
  | nil => exact ⟨cs, by simp, Ne.symm hunderscore.1⟩
  | cons b rest =>
    rw [List.map_cons, List.intercalate_cons_cons]
    exact ⟨_, rfl, Ne.symm hunderscore.1⟩

theorem safeAlias_eq (name : String) : safeAlias name = name ∨ safeAlias name = "_" ++ name := by
  unfold safeAlias
  split_ifs
  · exact .inr rfl
  · exact .inl rfl

/-- Behind a text that does not begin with an underscore, the mark of a reserved word is seen. -/
theorem PlainPath.append_eq_append {p q : List String} (hp : PlainPath p) (hq : PlainPath q)
    {x y : String} (h : pathAlias p ++ x = pathAlias q ++ y) :
    "_".intercalate p ++ x = "_".intercalate q ++ y := by
  have hmark : ∀ {r r' : List String}, PlainPath r → ∀ z z' : String,
      "_".intercalate r ++ z ≠ "_" ++ "_".intercalate r' ++ z' := by
    intro r r' hr z z' heq
    obtain ⟨c, cs, hcs, hc⟩ := hr.exists_toList
    have hchars := congrArg String.toList heq
    simp only [String.toList_append, hcs] at hchars
    exact hc (List.cons.inj hchars).1
  unfold pathAlias at h
  rcases safeAlias_eq ("_".intercalate p) with hp' | hp' <;>
    rcases safeAlias_eq ("_".intercalate q) with hq' | hq' <;> rw [hp', hq'] at h
  · exact h
  · exact absurd h (hmark hp _ _)
  · exact absurd h.symm (hmark hq _ _)
  · rw [String.append_assoc, String.append_assoc] at h
    exact String.append_right_inj _ |>.mp h

/-- A path with the segment that a link table adds to its text. -/
def linkPath (path : List String) (link : Bool) : List String :=
  if link then path ++ ["link"] else path

namespace PlainPath

variable {p q : List String}

theorem linkPath_ne_nil (hp : PlainPath p) (link : Bool) : linkPath p link ≠ [] := by
  cases link
  · exact hp.ne_nil
  · exact List.append_ne_nil_of_right_ne_nil _ (List.cons_ne_nil _ _)

theorem underscore_not_mem (hp : PlainPath p) {link : Bool} {name : String}
    (h : name ∈ linkPath p link) : '_' ∉ name.toList := by
  cases link
  · exact (hp.plain name h).2
  · rcases List.mem_append.mp h with h | h
    · exact (hp.plain name h).2
    · rw [List.mem_singleton.mp h]
      decide

theorem ne_linkPath (hq : PlainPath q) (hp : p ≠ []) : p ++ ["link"] ≠ q := by
  rintro rfl
  refine hq.link ?_
  rw [List.tail_append_of_ne_nil hp]
  exact List.mem_append_right _ List.mem_cons_self

theorem linkPath_inj (hp : PlainPath p) (hq : PlainPath q) {b c : Bool}
    (h : linkPath p b = linkPath q c) : p = q ∧ b = c := by
  cases b <;> cases c
  · exact ⟨h, rfl⟩
  · exact absurd h.symm (hp.ne_linkPath hq.ne_nil)
  · exact absurd h (hq.ne_linkPath hp.ne_nil)
  · exact ⟨List.append_cancel_right h, rfl⟩

theorem exists_tableAlias (hp : PlainPath p) (link : Bool) : ∃ x,
    tableAlias p link = pathAlias p ++ x ∧
      "_".intercalate p ++ x = "_".intercalate (linkPath p link) := by
  cases link
  · exact ⟨"", String.append_empty.symm, String.append_empty⟩
  · exact ⟨"_link", rfl, (intercalate_concat hp.ne_nil "link").symm⟩

/-- **Tables of different paths, and tables and link tables, have different aliases.** -/
theorem tableAlias_inj (hp : PlainPath p) (hq : PlainPath q) {b c : Bool}
    (h : tableAlias p b = tableAlias q c) : p = q ∧ b = c := by
  obtain ⟨x, hx, hpx⟩ := hp.exists_tableAlias b
  obtain ⟨y, hy, hqy⟩ := hq.exists_tableAlias c
  rw [hx, hy] at h
  have htext := hp.append_eq_append hq h
  rw [hpx, hqy] at htext
  refine hp.linkPath_inj hq (eq_of_intercalate_eq (hp.linkPath_ne_nil b) (hq.linkPath_ne_nil c)
    (fun name hname => ?_) htext)
  rcases List.mem_append.mp hname with hname | hname
  · exact hp.underscore_not_mem hname
  · exact hq.underscore_not_mem hname

end PlainPath

/-! ### Paths from the root -/

/-- Relationships to follow from a root: their names are plain, the first one is not called like the
root, and none after it is called `link`. -/
structure PlainRelations (root : String) (path : List String) : Prop where
  plain : ∀ name ∈ path, IsPlainName name
  apart : path.head? ≠ some root
  link : "link" ∉ path.tail

/-- The path of a table, where the root stands for itself. -/
def fromRoot (root : String) (path : List String) : List String :=
  if path = [] then [root] else path

/-- The alias of a table at a path from the root, or of the link table on the way to it. -/
def aliasAt (root : String) (path : List String) (link : Bool) : String :=
  tableAlias (fromRoot root path) link

namespace PlainRelations

variable {root : String} {path : List String}

theorem nil (root : String) : PlainRelations root [] :=
  ⟨fun _ h => absurd h List.not_mem_nil, by simp, by simp⟩

theorem left {rest : List String} (h : PlainRelations root (path ++ rest)) :
    PlainRelations root path := by
  cases path with
  | nil => exact nil root
  | cons name path =>
    exact ⟨fun n hn => h.plain n (List.mem_append_left _ hn), h.apart,
      fun hl => h.link (List.mem_append_left _ hl)⟩

theorem plainPath (hroot : IsPlainName root) (h : PlainRelations root path) :
    PlainPath (fromRoot root path) := by
  unfold fromRoot
  split_ifs with hnil
  · exact ⟨List.cons_ne_nil _ _, by simpa using hroot, by simp⟩
  · exact ⟨hnil, h.plain, h.link⟩

theorem fromRoot_inj {p q : List String} (hp : PlainRelations root p) (hq : PlainRelations root q)
    (h : fromRoot root p = fromRoot root q) : p = q := by
  unfold fromRoot at h
  split_ifs at h with hpn hqn hqn
  · rw [hpn, hqn]
  · exact absurd (by rw [← h]; rfl) hq.apart
  · exact absurd (by rw [h]; rfl) hp.apart
  · exact h

/-- **Tables at different paths have different aliases.** -/
theorem aliasAt_inj (hroot : IsPlainName root) {p q : List String} (hp : PlainRelations root p)
    (hq : PlainRelations root q) {b c : Bool} (h : aliasAt root p b = aliasAt root q c) :
    p = q ∧ b = c := by
  obtain ⟨hpath, hlink⟩ := (hp.plainPath hroot).tableAlias_inj (hq.plainPath hroot) h
  exact ⟨hp.fromRoot_inj hq hpath, hlink⟩

end PlainRelations

/-! ### Joins along paths -/

namespace PlannedJoin

/-- The aliases that a join adds to a query. -/
def tableAliases (j : PlannedJoin) : List String :=
  if j.association.link.isSome then [j.linkAlias, j.aliasName] else [j.aliasName]

/-- The join follows its relationship from the table at a path. -/
structure At (root : String) (behind : List String) (j : PlannedJoin) : Prop where
  parent : j.parent = aliasAt root behind false
  aliasName : j.aliasName = aliasAt root (behind ++ [j.relationship]) false
  plain : PlainRelations root (behind ++ [j.relationship])

theorem At.mem_tableAliases {root : String} {behind : List String} {j : PlannedJoin}
    (h : j.At root behind) {name : String} (hname : name ∈ j.tableAliases) :
    ∃ link, name = aliasAt root (behind ++ [j.relationship]) link := by
  have hlink : j.linkAlias = aliasAt root (behind ++ [j.relationship]) true := by
    rw [linkAlias, h.aliasName]
    rfl
  unfold tableAliases at hname
  split_ifs at hname
  · rcases List.mem_cons.mp hname with rfl | hname
    · exact ⟨true, hlink⟩
    · exact ⟨false, (List.mem_singleton.mp hname).trans h.aliasName⟩
  · exact ⟨false, (List.mem_singleton.mp hname).trans h.aliasName⟩

theorem nodup_tableAliases (j : PlannedJoin) : j.tableAliases.Nodup := by
  have hne : j.linkAlias ≠ j.aliasName := by
    intro h
    have hlength := congrArg (fun s => s.toList.length) h
    simp [linkAlias] at hlength
  unfold tableAliases
  split_ifs
  · simpa using hne
  · exact List.nodup_singleton _

end PlannedJoin

namespace JoinPlan

/-- No two joins follow the same relationship from the same alias, and each follows its relationship
from the table at some path. -/
structure Along (root : String) (joins : JoinPlan) : Prop where
  keys : (joins.map PlannedJoin.key).Nodup
  paths : ∀ j ∈ joins, ∃ behind, j.At root behind

/-- **One more join keeps the joins along their paths**, and gives the table that its path leads
to. -/
theorem Along.add {root : String} {joins : JoinPlan} (h : joins.Along root)
    (hroot : IsPlainName root) {behind : List String} {join : PlannedJoin}
    (hjoin : join.At root behind) : (joins.add join).1.Along root ∧
      (joins.add join).2.aliasName = aliasAt root (behind ++ [join.relationship]) false := by
  rcases joins.add_cases join with ⟨planned, hmem, hkey, heq⟩ | ⟨hnew, heq⟩ <;> rw [heq]
  · obtain ⟨behind', hplanned⟩ := h.paths planned hmem
    obtain ⟨hparent, hrelationship⟩ := Prod.ext_iff.mp hkey
    simp only [PlannedJoin.key] at hparent hrelationship
    rw [hplanned.parent, hjoin.parent] at hparent
    obtain ⟨rfl, -⟩ := hplanned.plain.left.aliasAt_inj hroot hjoin.plain.left hparent
    exact ⟨h, by rw [hplanned.aliasName, hrelationship]⟩
  · refine ⟨⟨?_, fun j hj => ?_⟩, hjoin.aliasName⟩
    · rw [List.map_append, List.map_singleton, ← List.concat_eq_append]
      exact h.keys.concat hnew
    · rcases List.mem_append.mp hj with hj | hj
      · exact h.paths j hj
      · rw [List.mem_singleton.mp hj]
        exact ⟨behind, hjoin⟩

/-- **Joins along plain paths have different aliases**, and none has the alias of the root. -/
theorem Along.nodup_tableAliases {root : String} {joins : JoinPlan} (h : joins.Along root)
    (hroot : IsPlainName root) :
    (aliasAt root [] false :: joins.flatMap PlannedJoin.tableAliases).Nodup := by
  rw [List.nodup_cons, List.nodup_flatMap]
  refine ⟨fun hmem => ?_, fun j _ => j.nodup_tableAliases, ?_⟩
  · obtain ⟨j, hj, hname⟩ := List.mem_flatMap.mp hmem
    obtain ⟨behind, hat⟩ := h.paths j hj
    obtain ⟨link, heq⟩ := hat.mem_tableAliases hname
    obtain ⟨hnil, -⟩ := (PlainRelations.nil root).aliasAt_inj hroot hat.plain heq
    simp at hnil
  · refine (List.pairwise_map.mp h.keys).imp_of_mem fun {i j} hi hj hkey name hi' hj' => hkey ?_
    obtain ⟨behind, hat⟩ := h.paths i hi
    obtain ⟨behind', hat'⟩ := h.paths j hj
    obtain ⟨link, heq⟩ := hat.mem_tableAliases hi'
    obtain ⟨link', heq'⟩ := hat'.mem_tableAliases hj'
    obtain ⟨hpath, -⟩ := hat.plain.aliasAt_inj hroot hat'.plain (heq.symm.trans heq')
    obtain ⟨rfl, hrelationship⟩ := List.append_inj' hpath rfl
    exact Prod.ext (hat.parent.trans hat'.parent.symm) (List.cons.inj hrelationship).1

end JoinPlan

/-! ### The walk over the columns -/

/-- The joins of a walk are along their paths, and the table that was reached is at the path
behind. -/
structure Walk.Along (root : String) (w : Walk) : Prop where
  joins : w.joins.Along root
  reached : w.aliasName = aliasAt root w.behind false

theorem Walk.Along.hop {root : String} {schema : Schema} {kind : JoinKind} {w w' : Walk}
    {relation : String} (hw : w.Along root) (hroot : IsPlainName root)
    (hplain : PlainRelations root (w.behind ++ [relation]))
    (h : w.hop schema kind relation = .ok w') :
    w'.Along root ∧ w'.behind = w.behind ++ [relation] := by
  obtain ⟨join, h⟩ := exists_hopped h
  have hpath : fromRoot root (w.behind ++ [relation]) = w.behind ++ [relation] := if_neg (by simp)
  have halias : join.aliasName = aliasAt root (w.behind ++ [relation]) false := by
    rw [h.path, aliasAt, hpath]
    rfl
  have hjoin : join.At root w.behind :=
    ⟨h.parent.trans hw.reached, h.relationship ▸ halias, h.relationship ▸ hplain⟩
  obtain ⟨hjoins, hreached⟩ := hw.joins.add hroot hjoin
  rw [h.relationship, ← h.behind] at hreached
  exact ⟨⟨h.joins ▸ hjoins, h.reached.trans hreached⟩, h.behind⟩

theorem Walk.Along.foldlM {root : String} {schema : Schema} {kind : JoinKind}
    (hroot : IsPlainName root) : ∀ {relations : List String} {w w' : Walk}, w.Along root →
      PlainRelations root (w.behind ++ relations) →
      relations.foldlM (Walk.hop schema kind) w = .ok w' → w'.Along root
  | [], w, w', hw, _, h => by
    rw [List.foldlM_nil, pure_eq_ok] at h
    rwa [h]
  | relation :: relations, w, w', hw, hplain, h => by
    rw [List.foldlM_cons, bind_eq_ok] at h
    obtain ⟨w₁, hhop, h⟩ := h
    rw [← List.singleton_append, ← List.append_assoc] at hplain
    obtain ⟨hw₁, hbehind⟩ := hw.hop hroot hplain.left hhop
    exact Along.foldlM hroot hw₁ (by rwa [hbehind]) h

/-- The relationships of a column are plain. -/
def Column.IsPlain (root : String) (c : Column) : Prop :=
  ∀ path, c.source = .field path → c.kind.isSelectable = true →
    PlainRelations root path.relations

theorem JoinPlan.Along.addColumn {name : String} {root : PlanRoot} {d d' : Draft} {c : Column}
    (hd : d.joins.Along name) (hname : IsPlainName name) (hroot : root.aliasName = safeAlias name)
    (hc : c.IsPlain name) (h : d.add root c = .ok d') : d'.joins.Along name := by
  obtain ⟨sql, data, -, -, rfl⟩ | ⟨path, w, identifier, hsource, hselectable, hw, -, rfl⟩ | rfl :=
    Draft.add_cases h
  · exact hd
  · have hstart : Walk.Along name ⟨d.joins, d.selection, root.aliasName, [], root.entity⟩ :=
      ⟨hd, by rw [hroot, aliasAt, fromRoot, if_pos rfl]; rfl⟩
    exact (Walk.Along.foldlM hname hstart (hc path hsource hselectable) hw).joins
  · exact hd

/-- The names of a table are plain: that of its root, and those of the relationships of its
columns. -/
structure Table.IsPlain (t : Table) (name : String) : Prop where
  root : IsPlainName name
  columns : ∀ c ∈ t.registry.columns, c.IsPlain name

/-- The aliases of all tables of a plan: that of the root, and those of the joins with their link
tables. -/
def Plan.tableAliases (p : Plan) : List String :=
  p.rootAlias :: p.joins.flatMap PlannedJoin.tableAliases

/-- **The tables of a plan have different aliases** if the names of its table are plain. -/
theorem Table.nodup_tableAliases {t : Table} {name : String} {p : Plan}
    (hnames : t.IsPlain name) (h : t.plan (safeAlias name) = .ok p) : p.tableAliases.Nodup := by
  obtain ⟨root, d, -, -, hd, hrootAlias, hplanned, -, -⟩ := Table.exists_draft h
  have hempty : JoinPlan.Along name [] := ⟨List.nodup_nil, fun j hj => absurd hj List.not_mem_nil⟩
  have hjoins : d.joins.Along name :=
    foldlM_invariant (fun d : Draft => d.joins.Along name) _
      (fun c hc _ _ hs h => hs.addColumn hnames.root rfl (hnames.columns c hc) h) hempty hd
  have hroot : aliasAt name [] false = safeAlias name := by rw [aliasAt, fromRoot, if_pos rfl]; rfl
  have hnodup := hjoins.nodup_tableAliases hnames.root
  rwa [hroot, ← hrootAlias, ← hplanned] at hnodup

/-! ### The aliases of the compiled queries -/

namespace Query

/-- The aliases of the tables of a query. -/
def tableAliases (q : Query) : List String := q.aliasName :: q.joins.map Join.aliasName

theorem joinOn_tableAliases {q q' : Query} {kind : JoinKind} {table aliasName leftAlias leftColumn
    rightAlias rightColumn : String}
    (h : q.joinOn kind table aliasName leftAlias leftColumn rightAlias rightColumn = .ok q') :
    q'.tableAliases = q.tableAliases ++ [aliasName] := by
  obtain ⟨on, -, rfl⟩ := joinOn_eq_ok.mp h
  simp [tableAliases]

theorem addPlanned_tableAliases {q q' : Query} {j : PlannedJoin} (h : q.addPlanned j = .ok q') :
    q'.tableAliases = q.tableAliases ++ j.tableAliases := by
  unfold addPlanned at h
  simp only at h
  unfold PlannedJoin.tableAliases
  split at h
  · next link hlink =>
    obtain ⟨q₁, h₁, h₂⟩ := bind_eq_ok.mp h
    rw [joinOn_tableAliases h₂, joinOn_tableAliases h₁, hlink]
    simp
  · next hlink =>
    rw [joinOn_tableAliases h, hlink]
    simp

theorem addJoins_tableAliases {plan : JoinPlan} : ∀ {q q' : Query}, q.addJoins plan = .ok q' →
    q'.tableAliases = q.tableAliases ++ plan.flatMap PlannedJoin.tableAliases := by
  unfold addJoins
  induction plan with
  | nil =>
    intro q q' h
    rw [List.foldlM_nil, pure_eq_ok] at h
    simp [h]
  | cons j plan ih =>
    intro q q' h
    rw [List.foldlM_cons, bind_eq_ok] at h
    obtain ⟨q₁, h₁, h⟩ := h
    rw [ih h, addPlanned_tableAliases h₁, List.flatMap_cons, List.append_assoc]

end Query

namespace Planned

variable {p : Planned}

theorem tableAliases_pageQuery (q : Query) : (p.pageQuery q).tableAliases = q.tableAliases := by
  obtain ⟨limit, offset, hpage⟩ := p.pageQuery_eq q
  obtain ⟨filters, hs⟩ := p.addSearch_frame { q with select := q.select ++ p.selectItems }
  rw [hpage, hs]
  rfl

theorem tableAliases_countedQuery (filtered : Bool) (root : Entity) (q : Query) :
    (p.countedQuery filtered root q).tableAliases = q.tableAliases := by
  obtain ⟨filters, h⟩ := p.countedQuery_frame filtered root q
  rw [h]
  rfl

/-- **All tables of a planned request have different aliases** if the names of its table are plain.
The page and both counts are queries over the tables of the plan: the root, the joined tables and
the link tables between them. -/
theorem tableAliases_nodup {t : Table} {request : Request} {planner : Planner} {root : Entity}
    (hcreate : Planner.create t request = .ok planner) (hplan : planner.plan = .ok p)
    (hroot : t.registry.root = .ok root) (hnames : t.IsPlain root.shortName) :
    p.plan.tableAliases.Nodup ∧
      (∀ c, p.page = .ok c → ∃ q f, p.joined = .ok q ∧ (p.pageQuery q).sql = .ok f ∧
        c.sql = f.text ∧ (p.pageQuery q).tableAliases = p.plan.tableAliases) ∧
      ∀ filtered c, p.count filtered = .ok c → ∃ root q f, p.joined = .ok q ∧
        (p.countedQuery filtered root q).sql = .ok f ∧ c.query.sql = f.text ∧
        (p.countedQuery filtered root q).tableAliases = p.plan.tableAliases := by
  obtain ⟨root', hroot', hplan, -, hpbase⟩ := Planned.exists_root hcreate hplan
  obtain rfl : root' = root := Except.ok.inj (hroot'.symm.trans hroot)
  obtain ⟨hrootAlias, -⟩ := Table.sound_plan hplan
  have hbase : p.base.tableAliases = [p.plan.rootAlias] := by
    rw [hpbase, hrootAlias, Table.baseQuery, Query.tableAliases, List.map_nil]
  have hjoined : ∀ {q : Query}, p.joined = .ok q → q.tableAliases = p.plan.tableAliases := by
    intro q hq
    rw [Query.addJoins_tableAliases (mapError_eq_ok.mp hq), hbase, Plan.tableAliases]
    rfl
  refine ⟨Table.nodup_tableAliases hnames hplan, fun c hc => ?_, fun filtered c hc => ?_⟩
  · obtain ⟨q, f, hq, hf, rfl⟩ := page_eq_ok hc
    exact ⟨q, f, hq, hf, rfl, (tableAliases_pageQuery q).trans (hjoined hq)⟩
  · obtain ⟨entity, q, f, hq, hf, hsql, -⟩ := count_eq_ok hc
    exact ⟨entity, q, f, hq, hf, hsql,
      (tableAliases_countedQuery filtered entity q).trans (hjoined hq)⟩

/-- Posts with some columns: a post has an author with an address, an address of its own for the
author, and tags. -/
def addressed (paths : List DataPath) : Table :=
  { name := "posts"
    registry :=
      { schema :=
          [("Address", { name := "Address", table := "addresses", identifiers := ["id"] }),
            ("Post",
            { name := "Post", table := "posts", identifiers := ["id"]
              associations := [("author", .manyToOne "User" "author_id"),
                ("author_address", .manyToOne "Address" "author_address_id"),
                ("tags", .manyToMany "Tag" ⟨"post_tags", "post_id", "tag_id"⟩)] }),
            ("Tag", { name := "Tag", table := "tags", identifiers := ["id"] }),
            ("User",
            { name := "User", table := "users", identifiers := ["id"]
              associations := [("address", .oneToOne "Address" "address_id")] })]
        entity := "Post"
        columns := paths.mapIdx Plan.fieldColumn
        names := [] }
    settings := { } }

theorem isPlain_fieldColumn {name : String} {index : Nat} {path : DataPath}
    (h : PlainRelations name path.relations) : (Plan.fieldColumn index path).IsPlain name := by
  intro path' hsource _
  cases hsource
  exact h

/-- The tables of the address of the author and of the tags have different aliases. -/
theorem tableAliases_nodup_tags : ∃ planner p root,
    Planner.create (addressed [⟨["author", "address"], "city", none⟩, ⟨["tags"], "name", none⟩])
      { } = .ok planner ∧ planner.plan = .ok p ∧ planner.table.registry.root = .ok root ∧
    planner.table.IsPlain root.shortName ∧ p.plan.tableAliases.Nodup ∧
    p.plan.tableAliases = ["post", "author", "author_address", "tags_link", "tags"] := by
  obtain ⟨planner, hcreate, h⟩ := exists_ok (x := Planner.create
      (addressed [⟨["author", "address"], "city", none⟩, ⟨["tags"], "name", none⟩]) { })
    (p := fun planner => planner.plan.toOption.any (fun p =>
        p.plan.tableAliases == ["post", "author", "author_address", "tags_link", "tags"]) &&
      planner.table.registry.root.toOption.any fun root => root.shortName == "post")
    (by decide +kernel)
  rw [Bool.and_eq_true] at h
  obtain ⟨p, hplan, haliases⟩ := exists_ok h.1
  obtain ⟨root, hroot, hshort⟩ := exists_ok h.2
  obtain ⟨root', -, hplanner⟩ := Planner.create_eq_ok.mp hcreate
  have htable := congrArg Planner.table hplanner
  dsimp only at htable
  have hnames : planner.table.IsPlain root.shortName := by
    rw [beq_iff_eq.mp hshort, htable]
    refine ⟨by decide, fun c hc => ?_⟩
    rcases List.mem_pair.mp hc with rfl | rfl
    · exact isPlain_fieldColumn ⟨by decide, by decide, by decide⟩
    · exact isPlain_fieldColumn ⟨by decide, by decide, by decide⟩
  exact ⟨planner, p, root, hcreate, hplan, hroot, hnames,
    (tableAliases_nodup hcreate hplan (htable ▸ hroot) (htable ▸ hnames)).1,
    beq_iff_eq.mp haliases⟩

/-- The address of the author and the other address of the post have the same alias. -/
theorem tableAliases_addresses : ∃ p, (Planner.create (addressed
      [⟨["author", "address"], "city", none⟩, ⟨["author_address"], "city", none⟩]) { }).bind
        Planner.plan = .ok p ∧ (∃ c, p.page = .ok c) ∧
    p.plan.tableAliases = ["post", "author", "author_address", "author_address"] ∧
    ¬ p.plan.tableAliases.Nodup := by
  obtain ⟨p, h, hp⟩ := exists_ok (x := (Planner.create (addressed
      [⟨["author", "address"], "city", none⟩, ⟨["author_address"], "city", none⟩]) { }).bind
        Planner.plan)
    (p := fun p => p.page.toOption.any (fun _ => true) &&
      p.plan.tableAliases == ["post", "author", "author_address", "author_address"])
    (by decide +kernel)
  rw [Bool.and_eq_true] at hp
  obtain ⟨c, hc, -⟩ := exists_ok hp.1
  have haliases := beq_iff_eq.mp hp.2
  exact ⟨p, h, ⟨c, hc⟩, haliases, by rw [haliases]; decide⟩

end Planned

end TableQuery
