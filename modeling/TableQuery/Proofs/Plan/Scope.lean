import TableQuery.Proofs.Hydration.Labels
import TableQuery.Proofs.Plan.Aliases
import TableQuery.Proofs.Sql.Printable

/-! # Aliases are introduced before they are used

A query names its tables by aliases. The three queries of a request name no alias that they do not
have (`Planned.queries_scoped`): what is selected, searched and ordered by is a column of the root
or of a joined table, or an expression that is selected, and the condition of a join names its own
alias and those that stand before it.

The first part holds of a plan because a column names the table at the end of its walk, which is
then joined (`Draft.Scoped.add`). The second part holds because every join starts from the root or
from an earlier join (`JoinPlan.Sound`): its condition compares a column of that table with one of
its own, over the link table if there is one (`Query.joinsLookBack_addJoins`). -/

namespace TableQuery

open Outcome

/-! ### Targets in scope -/

/-- What a target may name. -/
structure Scope where
  /-- The aliases of tables. -/
  tables : List String
  /-- The labels of selected expressions. -/
  labels : List String
  /-- Expressions of the table's author. -/
  expressions : List String

/-- The target names a table or a label of the scope, or is one of its expressions. -/
def Target.InScope (s : Scope) : Target → Prop
  | .column aliasName _ => aliasName ∈ s.tables
  | .label name => name ∈ s.labels
  | .raw sql => sql ∈ s.expressions

/-- Tables and labels may be added. -/
theorem Target.InScope.mono {s s' : Scope} {t : Target} (h : t.InScope s)
    (htables : s.tables ⊆ s'.tables) (hlabels : s.labels ⊆ s'.labels)
    (hexpressions : s.expressions ⊆ s'.expressions) : t.InScope s' := by
  cases t with
  | column aliasName column => exact htables h
  | label name => exact hlabels h
  | raw sql => exact hexpressions h

/-! ### Joins that look back -/

/-- The conditions of each join name its own alias and those that are known before it. -/
def LooksBack : List String → List Join → Prop
  | _, [] => True
  | known, j :: joins =>
    (∀ c ∈ j.on, ∀ a ∈ c.aliases, a = j.aliasName ∨ a ∈ known) ∧
      LooksBack (known ++ [j.aliasName]) joins

theorem looksBack_concat {j : Join} : ∀ {known : List String} {joins : List Join},
    LooksBack known (joins ++ [j]) ↔ LooksBack known joins ∧
      ∀ c ∈ j.on, ∀ a ∈ c.aliases, a = j.aliasName ∨ a ∈ known ++ joins.map Join.aliasName
  | known, [] => by simp [LooksBack]
  | known, i :: joins => by
    rw [List.cons_append, LooksBack, LooksBack, looksBack_concat, and_assoc]
    simp

namespace Query

/-- The joins of a query look back. -/
def JoinsLookBack (q : Query) : Prop := LooksBack [q.aliasName] q.joins

theorem joinsLookBack_joinOn {q q' : Query} {kind : JoinKind} {table aliasName leftAlias leftColumn
    rightColumn : String} (hq : q.JoinsLookBack)
    (h : q.joinOn kind table aliasName leftAlias leftColumn aliasName rightColumn = .ok q')
    (hknown : leftAlias ∈ q.tableAliases) (hleft : isIdentifier leftAlias = true)
    (hname : isIdentifier aliasName = true) : q'.JoinsLookBack := by
  obtain ⟨on, hon, rfl⟩ := joinOn_eq_ok.mp h
  refine looksBack_concat.mpr ⟨hq, fun c hc a ha => ?_⟩
  rw [List.mem_singleton.mp hc] at ha
  rcases JoinCondition.mem_aliases hon hleft hname ha with rfl | rfl
  · exact .inr hknown
  · exact .inl rfl

/-- **A planned join looks back** if the table it starts from is in the query. -/
theorem joinsLookBack_addPlanned {q q' : Query} {j : PlannedJoin} (hq : q.JoinsLookBack)
    (h : q.addPlanned j = .ok q') (hparent : j.parent ∈ q.tableAliases)
    (hnames : ∀ a ∈ q'.tableAliases, isIdentifier a = true) : q'.JoinsLookBack := by
  have haliases := addPlanned_tableAliases h
  have hold : isIdentifier j.parent = true :=
    hnames _ (haliases ▸ List.mem_append_left _ hparent)
  have hadded : ∀ a ∈ j.tableAliases, isIdentifier a = true :=
    fun a ha => hnames a (haliases ▸ List.mem_append_right _ ha)
  unfold addPlanned at h
  simp only at h
  unfold PlannedJoin.tableAliases at hadded
  split at h
  · next link hlink =>
    -- the link table starts from the parent, and the joined table from the link table
    obtain ⟨q₁, h₁, h₂⟩ := bind_eq_ok.mp h
    rw [hlink, Option.isSome_some, if_pos rfl] at hadded
    have hlinkName := hadded _ List.mem_cons_self
    have hback := joinsLookBack_joinOn hq h₁ hparent hold hlinkName
    refine joinsLookBack_joinOn hback h₂ ?_ hlinkName (hadded _ (by simp))
    rw [joinOn_tableAliases h₁]
    simp
  · next hlink =>
    rw [hlink, Option.isSome_none, if_neg Bool.false_ne_true] at hadded
    exact joinsLookBack_joinOn hq h hparent hold (hadded _ (by simp))

theorem joinsLookBack_addJoins {plan : JoinPlan} : ∀ {q q' : Query} {known : List String},
    q.JoinsLookBack → plan.StartsIn known → known ⊆ q.tableAliases → q.addJoins plan = .ok q' →
      (∀ a ∈ q'.tableAliases, isIdentifier a = true) → q'.JoinsLookBack := by
  induction plan with
  | nil =>
    intro q q' known hq _ _ h _
    rw [addJoins, List.foldlM_nil, pure_eq_ok] at h
    rwa [h]
  | cons j plan ih =>
    intro q q' known hq hstarts hknown h hnames
    rw [addJoins, List.foldlM_cons, bind_eq_ok] at h
    obtain ⟨q₁, h₁, h⟩ := h
    have haliases := addPlanned_tableAliases h₁
    have hnames₁ : ∀ a ∈ q₁.tableAliases, isIdentifier a = true := fun a ha =>
      hnames a (addJoins_tableAliases h ▸ List.mem_append_left _ ha)
    refine ih (joinsLookBack_addPlanned hq h₁ (hknown hstarts.1) hnames₁) hstarts.2 ?_ h hnames
    intro a ha
    rw [haliases]
    rcases List.mem_append.mp ha with ha | ha
    · exact List.mem_append_left _ (hknown ha)
    · rw [List.mem_singleton.mp ha]
      exact List.mem_append_right _ (by unfold PlannedJoin.tableAliases; split_ifs <;> simp)

theorem isIdentifier_of_mem_tableAliases {q : Query} {f : Fragment} (h : q.sql = .ok f) :
    ∀ a ∈ q.tableAliases, isIdentifier a = true := by
  have hprints := exists_sql.mp ⟨f, h⟩
  intro a ha
  rcases List.mem_cons.mp ha with rfl | ha
  · exact hprints.aliasName
  · obtain ⟨j, hj, rfl⟩ := List.mem_map.mp ha
    exact (hprints.joins j hj).aliasName

end Query

/-! ### Targets of a search -/

namespace Predicate

mutual

/-- What the predicate compares. -/
def targets : Predicate → List Target
  | .compare target _ _ => [target]
  | .like target _ _ => [target]
  | .among target _ _ => [target]
  | .between target _ _ => [target]
  | .isNull target _ => [target]
  | .raw _ => []
  | .group _ items => itemTargets items

/-- What the predicates of a group compare. -/
def itemTargets : List Predicate → List Target
  | [] => []
  | p :: ps => targets p ++ itemTargets ps

end

theorem itemTargets_eq_flatMap : ∀ items : List Predicate,
    itemTargets items = items.flatMap targets
  | [] => rfl
  | p :: ps => by rw [itemTargets, itemTargets_eq_flatMap ps, List.flatMap_cons]

end Predicate

/-- What the predicates of the group compare. -/
def Group.targets (g : Group) : List Target := Predicate.itemTargets g.items

theorem Group.targets_push (g : Group) (p : Predicate) :
    (g.push p).targets = g.targets ++ p.targets := by
  simp [targets, push, Predicate.itemTargets_eq_flatMap]

theorem SearchTerm.Gives.targets {term : SearchTerm} {names : Naming} {p : Predicate} {used : Nat}
    (h : term.Gives names p used) : p.targets = [term.target] := by
  cases h <;> rfl

theorem Group.mem_targets_pushSearched {g : Group} {term : SearchTerm} {mode : SearchMode}
    {names : Naming} {t : Target}
    (h : t ∈ (g.pushSearched (searchExpression term mode names)).targets) :
    t ∈ g.targets ∨ t = term.target := by
  unfold pushSearched at h
  split at h
  · next p hp =>
    rw [targets_push, (SearchTerm.gives_searchExpression hp).targets] at h
    simpa using h
  · exact .inl h

/-- Beside the target of the search, a strategy compares targets of its own only. There is no
condition on a strategy if all targets are its own. -/
structure Strategy.Compares (own : Target → Prop) (s : Strategy) : Prop where
  widen : ∀ (acc : Group) (term : SearchTerm) mode column,
    ∀ t ∈ (s.widen acc term mode column).targets, t ∈ acc.targets ∨ t = term.target ∨ own t
  narrow : ∀ (acc : Group) (term : SearchTerm) counter,
    ∀ t ∈ (s.narrow acc term counter).1.targets, t ∈ acc.targets ∨ t = term.target ∨ own t

/-- The strategy of a filter, if it has one, brings only these targets. -/
def Filter.Compares (own : Target → Prop) (f : Filter) : Prop :=
  ∀ s, f = .custom s → s.Compares own

namespace Filter

variable {own : Target → Prop} {f : Filter} {acc : Group} {term : SearchTerm} {t : Target}

/-- **The search of a column compares its target**, or one that a strategy brings. -/
theorem mem_targets_narrow (hf : f.Compares own) {counter : Nat}
    (h : t ∈ (f.narrow acc term counter).1.targets) :
    t ∈ acc.targets ∨ t = term.target ∨ own t := by
  obtain ⟨strategy, rfl⟩ | heq | ⟨term', mode, hasks, heq⟩ | ⟨low, high, heq⟩ :=
    f.narrow_cases acc term counter
  · exact (hf strategy rfl).narrow acc term counter t h
  · rw [heq] at h
    exact .inl h
  · rw [heq] at h
    exact (Group.mem_targets_pushSearched h).imp_right fun ht => .inl (ht.trans hasks.target_eq)
  · rw [heq, narrowBetween, Group.targets_push] at h
    exact (List.mem_append.mp h).imp_right fun ht => .inl (List.mem_singleton.mp ht)

theorem mem_targets_widen (hf : f.Compares own) {mode : SearchMode} {column : Nat}
    (h : t ∈ (f.widen acc term mode column).targets) :
    t ∈ acc.targets ∨ t = term.target ∨ own t := by
  cases f with
  | custom strategy => exact (hf strategy rfl).widen acc term mode column t h
  | _ => exact (Group.mem_targets_pushSearched h).imp_right .inl

end Filter

/-! ### The slots of a plan -/

namespace Selection

theorem rawAliases_addField (s : Selection) (a field : String) :
    (s.addField a field).rawAliases = s.rawAliases := by
  obtain ⟨-, heq⟩ | ⟨before, names, after, rfl, -, heq⟩ := s.addField_cases a field <;>
    simp [heq, rawAliases]

theorem rawAliases_addRaw (s : Selection) (sql label : String) :
    s.rawAliases ⊆ (s.addRaw sql label).rawAliases ∧ label ∈ (s.addRaw sql label).rawAliases := by
  unfold addRaw
  split_ifs with h
  · have hmem : SelectionEntry.raw sql label ∈ s := by simpa using h
    exact ⟨List.Subset.refl _, List.mem_filterMap.mpr ⟨_, hmem, rfl⟩⟩
  · simp [rawAliases]

end Selection

/-- The searched forms of the expressions of a table. -/
def Table.searchedExpressions (t : Table) : List String :=
  t.registry.columns.filterMap fun c =>
    match c.source with
    | .expression sql => some (Template.searched sql)
    | _ => none

/-- What the columns so far are searched by and ordered by is in scope: the tables are the root and
the joined ones, and the labels are those of the selected expressions. -/
structure Draft.Scoped (root : String) (expressions : List String) (d : Draft) : Prop where
  search : AllTargets (Target.InScope ⟨root :: d.joins.aliases, [], expressions⟩) d.search
  order : AllTargets (Target.InScope ⟨root :: d.joins.aliases, d.selection.rawAliases, []⟩) d.order

theorem Walk.rawAliases_foldlM {schema : Schema} {kind : JoinKind} {w w' : Walk}
    {relations : List String} (h : relations.foldlM (Walk.hop schema kind) w = .ok w') :
    w'.selection.rawAliases = w.selection.rawAliases := by
  refine foldlM_invariant (fun v : Walk => v.selection.rawAliases = w.selection.rawAliases) _
    (fun relation _ v v' hv hhop => ?_) rfl h
  obtain ⟨join, hhop⟩ := exists_hopped hhop
  rw [hhop.selection, Selection.rawAliases_addField, hv]

theorem Draft.Scoped.add {root : PlanRoot} {expressions : List String} {d d' : Draft} {c : Column}
    (hsound : JoinPlan.Sound root.aliasName d.joins d.selection)
    (hd : d.Scoped root.aliasName expressions)
    (hc : ∀ sql, c.source = .expression sql → Template.searched sql ∈ expressions)
    (h : d.add root c = .ok d') : d'.Scoped root.aliasName expressions := by
  obtain ⟨sql, data, hsource, -, rfl⟩ | ⟨path, w, identifier, -, -, hw, -, rfl⟩ | rfl :=
    Draft.add_cases h
  · obtain ⟨hlabels, hlabel⟩ :=
      d.selection.rawAliases_addRaw (Template.selected sql) data.aliasName
    refine ⟨hd.search.concat_slotIf fun _ => hc sql hsource,
      .concat_slotIf (hd.order.mono fun t ht => ?_) fun _ => hlabel⟩
    exact ht.mono (List.Subset.refl _) hlabels (List.Subset.refl _)
  · have hreached := (foldlM_invariant (fun w : Walk => w.Sound root.aliasName) _
      (fun _ _ _ _ hw h => hw.hop h) ⟨hsound, List.mem_cons_self⟩ hw).reached
    obtain ⟨-, -, -, -, -, hext, -⟩ := Walk.exists_route hw
    have htables : root.aliasName :: d.joins.aliases ⊆ root.aliasName :: w.joins.aliases :=
      List.cons_subset_cons _ (JoinPlan.aliases_mono hext).subset
    have hlabels : ((w.selection.addField w.aliasName identifier).addField w.aliasName
        path.field).rawAliases = d.selection.rawAliases := by
      rw [Selection.rawAliases_addField, Selection.rawAliases_addField, Walk.rawAliases_foldlM hw]
    refine ⟨.concat_slotIf (hd.search.mono fun t ht => ?_) fun _ => hreached,
      .concat_slotIf (hd.order.mono fun t ht => ?_) fun _ => hreached⟩
    · exact ht.mono htables (List.Subset.refl _) (List.Subset.refl _)
    · exact ht.mono htables (fun _ hl => hlabels ▸ hl) (List.Subset.refl _)
  · exact ⟨hd.search.concat_nil, hd.order.concat_nil⟩

/-- No column of the table says what it is searched or ordered by in place of its own field or
expression. -/
def Table.HasNoOverrides (t : Table) : Prop :=
  ∀ c ∈ t.registry.columns, c.searchColumn = none ∧ c.orderColumn = none

theorem Table.scoped_plan {t : Table} {rootAlias : String} {p : Plan}
    (h : t.plan rootAlias = .ok p) (hoverrides : t.HasNoOverrides) :
    AllTargets (Target.InScope ⟨p.rootAlias :: p.joins.aliases, [], t.searchedExpressions⟩)
      p.search ∧
    AllTargets (Target.InScope ⟨p.rootAlias :: p.joins.aliases, p.selection.rawAliases, []⟩)
      p.order := by
  obtain ⟨root, d, -, -, hd, hroot, hjoins, hselection, p₀, hsearch, horder⟩ := exists_draft h
  have hexpressions : ∀ c ∈ t.registry.columns, ∀ sql, c.source = .expression sql →
      Template.searched sql ∈ t.searchedExpressions := fun c hc sql hsource =>
    List.mem_filterMap.mpr ⟨c, hc, by rw [hsource]⟩
  have hsound : JoinPlan.Sound rootAlias [] (Selection.addField [] rootAlias p.rootIdentifier) :=
    ⟨trivial, by simp⟩
  obtain ⟨-, hscoped⟩ := foldlM_invariant
    (fun d : Draft => JoinPlan.Sound rootAlias d.joins d.selection ∧
      d.Scoped rootAlias t.searchedExpressions) _
    (fun c hc _ _ hs hadd => ⟨JoinPlan.Sound.add hs.1 hadd, hs.2.add hs.1 (hexpressions c hc) hadd⟩)
    ⟨hsound, .nil _, .nil _⟩ hd
  rw [hsearch, horder, hroot, hjoins, hselection]
  refine ⟨hscoped.search.zipWith fun c hc slot hslot => ?_,
    hscoped.order.zipWith fun c hc slot hslot => ?_⟩
  · have hslot' : p₀.overrideSlot t.registry false c slot = slot := by
      simp [Plan.overrideSlot, (hoverrides c hc).1]
    rwa [hslot']
  · have hslot' : p₀.overrideSlot t.registry true c slot = slot := by
      simp [Plan.overrideSlot, (hoverrides c hc).2]
    rwa [hslot']

/-! ### The compiled queries -/

/-- The labels of the expressions that a query selects. -/
def Query.expressionLabels (q : Query) : List String :=
  q.select.filterMap fun
    | .expression _ aliasName => some aliasName
    | _ => none

/-- Every alias of a query is introduced before it is used: it is the alias of one of some tables of
the query, or the label of an expression that the query selects. -/
structure Query.Scoped (q : Query) (tables expressions : List String) (own : Target → Prop) :
    Prop where
  introduced : tables ⊆ q.tableAliases
  selected : ∀ item ∈ q.select, ∀ a, item.source? = some a → a ∈ tables
  searched : ∀ g ∈ q.filters, ∀ t ∈ g.targets, t.InScope ⟨tables, [], expressions⟩ ∨ own t
  ordered : ∀ term ∈ q.orderBy, term.target.InScope ⟨tables, q.expressionLabels, []⟩
  joined : q.JoinsLookBack

namespace Planned

variable {p : Planned} {own : Target → Prop}

theorem searches_inScope {s : Scope} (hslots : AllTargets (Target.InScope s) p.plan.search)
    (hfilters : ∀ c ∈ p.table.registry.columns, c.effectiveFilter.Compares own) :
    ∀ g, g = p.globalSearch ∨ g = p.individualSearch → ∀ t ∈ g.targets, t.InScope s ∨ own t := by
  rintro g (rfl | rfl)
  · refine p.globalSearch_induction (P := fun g => ∀ t ∈ g.targets, t.InScope s ∨ own t)
      (fun _ ht => absurd ht List.not_mem_nil)
      fun c hc target htarget acc value mode column hacc t ht => ?_
    obtain hold | rfl | hown := Filter.mem_targets_widen
      (hfilters c (mem_columns_of_mem_searchedColumns hc)) ht
    · exact hacc t hold
    · exact .inl (hslots.of_mem_searchSlot htarget)
    · exact .inr hown
  · refine p.individualSearch_induction (P := fun g => ∀ t ∈ g.targets, t.InScope s ∨ own t)
      (fun _ ht => absurd ht List.not_mem_nil)
      fun c hc target htarget acc value counter hacc t ht => ?_
    obtain hold | rfl | hown := Filter.mem_targets_narrow
      (hfilters c (mem_columns_of_mem_searchedColumns hc)) ht
    · exact hacc t hold
    · exact .inl (hslots.of_mem_searchSlot htarget)
    · exact .inr hown

theorem source_selectItems (hselected : JoinPlan.Selected p.plan.rootAlias p.plan.rootIdentifier
      p.plan.joins p.plan.selection) {item : SelectItem} (hitem : item ∈ p.selectItems) {a : String}
    (ha : item.source? = some a) : a ∈ p.plan.rootAlias :: p.plan.joins.aliases := by
  obtain ⟨entry, hentry, hitem⟩ := List.mem_flatMap.mp hitem
  cases entry with
  | fields b names =>
    obtain ⟨field, -, rfl⟩ := List.mem_map.mp hitem
    obtain rfl : b = a := Option.some.inj ha
    exact hselected.tables b (List.mem_filterMap.mpr ⟨_, hentry, rfl⟩)
  | raw sql label =>
    rw [entryItems, List.mem_singleton] at hitem
    rw [hitem] at ha
    cases ha

theorem expressionLabels_selectItems (p : Planned) {q : Query} (hq : q.select = p.selectItems) :
    q.expressionLabels = p.plan.selection.rawAliases := by
  rw [Query.expressionLabels, hq, selectItems, Selection.rawAliases]
  induction p.plan.selection with
  | nil => rfl
  | cons entry s ih =>
    rw [List.flatMap_cons, List.filterMap_append, ih]
    cases entry with
    | fields a names =>
      rw [List.filterMap_cons_none rfl, List.filterMap_eq_nil_iff.mpr, List.nil_append]
      intro item hitem
      obtain ⟨field, -, rfl⟩ := List.mem_map.mp hitem
      rfl
    | raw sql label => rfl

theorem joined_eq_ok {t : Table} {request : Request} {planner : Planner} {q : Query}
    (hcreate : Planner.create t request = .ok planner) (hplan : planner.plan = .ok p)
    (hq : p.joined = .ok q) : q.select = [] ∧ q.orderBy = [] ∧ (∀ g ∈ q.filters, g.targets = []) ∧
      p.plan.rootAlias :: p.plan.joins.aliases ⊆ q.tableAliases ∧
      ((∀ a ∈ q.tableAliases, isIdentifier a = true) → q.JoinsLookBack) := by
  obtain ⟨root, -, hplan, -, hbase⟩ := Planned.exists_root hcreate hplan
  obtain ⟨hroot, hsound⟩ := Table.sound_plan hplan
  have haliases : p.base.tableAliases = [p.plan.rootAlias] := by
    rw [hbase, hroot, Table.baseQuery, Query.tableAliases, List.map_nil]
  have hadded := mapError_eq_ok.mp hq
  have htables := Query.addJoins_tableAliases hadded
  rw [haliases] at htables
  refine ⟨?_, ?_, ?_, ?_, fun hnames => ?_⟩
  · obtain ⟨joins, rfl⟩ := joined_frame hq
    rw [hbase, Table.baseQuery]
  · obtain ⟨joins, rfl⟩ := joined_frame hq
    rw [hbase, Table.baseQuery]
  · obtain ⟨joins, rfl⟩ := joined_frame hq
    rw [hbase, Table.baseQuery]
    intro g hg
    obtain ⟨sql, -, rfl⟩ := List.mem_map.mp hg
    rfl
  · rw [htables]
    refine List.cons_subset_cons _ fun a ha => ?_
    obtain ⟨j, hj, rfl⟩ := List.mem_map.mp ha
    refine List.mem_flatMap.mpr ⟨j, hj, ?_⟩
    unfold PlannedJoin.tableAliases
    split_ifs <;> simp
  · refine Query.joinsLookBack_addJoins ?_ hsound.starts (haliases ▸ List.Subset.refl _) hadded
      hnames
    rw [hbase, Table.baseQuery, Query.JoinsLookBack]
    exact trivial

theorem joinsLookBack_pageQuery {q : Query} (h : q.JoinsLookBack) :
    (p.pageQuery q).JoinsLookBack := by
  obtain ⟨limit, offset, hpage⟩ := p.pageQuery_eq q
  obtain ⟨filters, hs⟩ := p.addSearch_frame { q with select := q.select ++ p.selectItems }
  rw [hpage, hs]
  exact h

section

variable {t : Table} {request : Request} {planner : Planner}
  (hcreate : Planner.create t request = .ok planner) (hplan : planner.plan = .ok p)
  (hoverrides : t.HasNoOverrides)
  (hfilters : ∀ c ∈ t.registry.columns, c.effectiveFilter.Compares own)
include hcreate hplan hoverrides hfilters

/-- The conditions of a query are those of its base, which compare nothing, and the two searches. -/
theorem filters_inScope {q searched : Query} (hq : p.joined = .ok q)
    (hsearched : ∃ groups, searched.filters = q.filters ++ groups ∧
      ∀ g ∈ groups, g = p.globalSearch ∨ g = p.individualSearch) :
    ∀ g ∈ searched.filters, ∀ target ∈ g.targets,
      target.InScope ⟨p.plan.rootAlias :: p.plan.joins.aliases, [], t.searchedExpressions⟩ ∨
        own target := by
  obtain ⟨-, -, hbase, -, -⟩ := joined_eq_ok hcreate hplan hq
  obtain ⟨root, -, hplan, htable, -⟩ := Planned.exists_root hcreate hplan
  rw [← htable] at hfilters
  obtain ⟨groups, hgroups, hmem⟩ := hsearched
  intro g hg target htarget
  rw [hgroups] at hg
  rcases List.mem_append.mp hg with hg | hg
  · rw [hbase g hg] at htarget
    exact absurd htarget List.not_mem_nil
  · have hslots := (Table.scoped_plan hplan hoverrides).1
    exact searches_inScope hslots hfilters g (hmem g hg) target htarget

theorem scoped_pageQuery {q : Query} {f : Fragment} (hq : p.joined = .ok q)
    (hf : (p.pageQuery q).sql = .ok f) :
    (p.pageQuery q).Scoped (p.plan.rootAlias :: p.plan.joins.aliases) t.searchedExpressions
      own := by
  obtain ⟨hselect, hnoOrder, -, hintroduced, hback⟩ := joined_eq_ok hcreate hplan hq
  obtain ⟨root, -, hplanned, -, -⟩ := Planned.exists_root hcreate hplan
  have haliases := tableAliases_pageQuery (p := p) q
  have hitems : (p.pageQuery q).select = p.selectItems := by
    rw [select_pageQuery, hselect, List.nil_append]
  refine ⟨haliases ▸ hintroduced, fun item hitem a ha => ?_,
    filters_inScope hcreate hplan hoverrides hfilters hq (p.filters_pageQuery q), ?_, ?_⟩
  · exact source_selectItems (Table.selected_plan hplanned) (hitems ▸ hitem) ha
  · rw [expressionLabels_selectItems p hitems]
    obtain ⟨limit, offset, hpage⟩ := p.pageQuery_eq q
    intro term hterm
    rw [hpage, hnoOrder, List.nil_append] at hterm
    obtain ⟨slot, hslot, hmem⟩ := exists_slot_of_mem_requestedOrder hterm
    exact (Table.scoped_plan hplanned hoverrides).2 slot hslot _ hmem
  · have hnames := Query.isIdentifier_of_mem_tableAliases hf
    rw [haliases] at hnames
    exact joinsLookBack_pageQuery (hback hnames)

theorem scoped_countedQuery {filtered : Bool} {root : Entity} {q : Query} {f : Fragment}
    (hq : p.joined = .ok q) (hf : (p.countedQuery filtered root q).sql = .ok f) :
    (p.countedQuery filtered root q).Scoped (p.plan.rootAlias :: p.plan.joins.aliases)
      t.searchedExpressions own := by
  obtain ⟨-, -, -, hintroduced, hback⟩ := joined_eq_ok hcreate hplan hq
  have haliases := tableAliases_countedQuery (p := p) filtered root q
  have hnames := Query.isIdentifier_of_mem_tableAliases hf
  obtain ⟨filters, hcounted⟩ := p.countedQuery_frame filtered root q
  refine ⟨haliases ▸ hintroduced, fun item hitem a ha => ?_,
    filters_inScope hcreate hplan hoverrides hfilters hq (p.filters_countedQuery filtered root q),
    ?_, ?_⟩
  · rw [hcounted, List.mem_singleton] at hitem
    rw [hitem] at ha
    cases ha
    exact List.mem_cons_self
  · rw [hcounted]
    exact fun term hterm => absurd hterm List.not_mem_nil
  · rw [haliases] at hnames
    rw [hcounted]
    exact hback hnames

end

/-- **Every alias is introduced before it is used**, in the page and in the counts, if no column
says what it is searched or ordered by in place of its own field or expression. What is selected,
searched and ordered by names the root, a joined table or a selected expression, and the condition
of a join names its own alias and those before it. The targets that strategies bring of their own
are up to them. -/
theorem queries_scoped {t : Table} {request : Request} {planner : Planner}
    (hcreate : Planner.create t request = .ok planner) (hplan : planner.plan = .ok p)
    (hoverrides : t.HasNoOverrides)
    (hfilters : ∀ c ∈ t.registry.columns, c.effectiveFilter.Compares own) :
    (∀ c, p.page = .ok c → ∃ q f, p.joined = .ok q ∧ (p.pageQuery q).sql = .ok f ∧
      c.sql = f.text ∧ (p.pageQuery q).Scoped (p.plan.rootAlias :: p.plan.joins.aliases)
        t.searchedExpressions own) ∧
    ∀ filtered c, p.count filtered = .ok c → ∃ root q f, p.joined = .ok q ∧
      (p.countedQuery filtered root q).sql = .ok f ∧ c.query.sql = f.text ∧
      (p.countedQuery filtered root q).Scoped (p.plan.rootAlias :: p.plan.joins.aliases)
        t.searchedExpressions own := by
  refine ⟨fun c hc => ?_, fun filtered c hc => ?_⟩
  · obtain ⟨q, f, hq, hf, rfl⟩ := page_eq_ok hc
    exact ⟨q, f, hq, hf, rfl, scoped_pageQuery hcreate hplan hoverrides hfilters hq hf⟩
  · obtain ⟨root, q, f, hq, hf, hsql, -⟩ := count_eq_ok hc
    exact ⟨root, q, f, hq, hf, hsql, scoped_countedQuery hcreate hplan hoverrides hfilters hq hf⟩

/-- The tags of a post are joined over their link table, behind the address of its author. -/
theorem queries_scoped_tags : ∃ planner p c q, Planner.create
      (addressed [⟨["author", "address"], "city", none⟩, ⟨["tags"], "name", none⟩]) { } =
        .ok planner ∧ planner.plan = .ok p ∧ p.page = .ok c ∧ p.joined = .ok q ∧
    (p.pageQuery q).tableAliases = ["post", "author", "author_address", "tags_link", "tags"] ∧
    (p.pageQuery q).Scoped ["post", "author", "author_address", "tags"] [] fun _ => False := by
  obtain ⟨planner, hcreate, h⟩ := exists_ok (x := Planner.create
      (addressed [⟨["author", "address"], "city", none⟩, ⟨["tags"], "name", none⟩]) { })
    (p := fun planner => planner.plan.toOption.any fun p => p.page.toOption.any (fun _ => true) &&
      p.plan.rootAlias :: p.plan.joins.aliases == ["post", "author", "author_address", "tags"] &&
      p.joined.toOption.any fun q =>
        q.tableAliases == ["post", "author", "author_address", "tags_link", "tags"])
    (by decide +kernel)
  obtain ⟨p, hplan, h⟩ := exists_ok h
  rw [Bool.and_eq_true, Bool.and_eq_true, beq_iff_eq] at h
  obtain ⟨⟨hpage, haliases⟩, hjoined⟩ := h
  obtain ⟨c, hc, -⟩ := exists_ok hpage
  obtain ⟨q', hq', htables⟩ := exists_ok hjoined
  have hplain : ∀ c ∈ (addressed [⟨["author", "address"], "city", none⟩,
      ⟨["tags"], "name", none⟩]).registry.columns, (c.searchColumn = none ∧ c.orderColumn = none) ∧
        c.effectiveFilter.Compares fun _ => False := by
    intro c hc
    rcases List.mem_pair.mp hc with rfl | rfl <;> exact ⟨⟨rfl, rfl⟩, nofun⟩
  obtain ⟨q, f, hq, -, -, hscoped⟩ := (queries_scoped hcreate hplan (fun c hc => (hplain c hc).1)
    fun c hc => (hplain c hc).2).1 c hc
  rw [haliases] at hscoped
  obtain rfl : q' = q := Except.ok.inj (hq'.symm.trans hq)
  exact ⟨planner, p, c, q', hcreate, hplan, hc, hq, (tableAliases_pageQuery q').trans
    (beq_iff_eq.mp htables), hscoped⟩

end Planned

end TableQuery
