import TableQuery.Proofs.Plan.Aliases
import TableQuery.Proofs.Plan.Entities

/-! # Joins and the order of registration

Take two tables whose columns are the same registrations in different orders. Both plans have the
same joins but for their order and their kinds (`Table.joins_perm`): a join is made from what lies
on the way to it, which does not depend on the columns before. Its kind does, because a join is
planned once, by the first column that goes over it, and the other columns share it whatever join
they ask for (`Table.exists_first`). So if the columns that go over one join agree, the joins are
the same.

The way to a join is read off its alias: as long as aliases are different, an alias is reached along
one path only (`JoinPlan.Reaches.unique`), and the join behind it is named after that path
(`JoinPlan.Pathed`). -/

namespace TableQuery

open Outcome

/-! ### Registrations -/

/-- What a column is registered with. -/
structure Registration where
  name : Option String
  kind : ColumnKind
  options : Json
  filter : Option Filter

/-- The column comes from a registration in a table of the entity, at some position. -/
def Registration.Makes (g : Registration) (schema : Schema) (entity : String) (c : Column) : Prop :=
  ∃ (r : Registry) (i : Nat), r.schema = schema ∧ r.entity = entity ∧
    r.build i g.name g.kind g.options g.filter = .ok c

namespace Registry

/-- Registers a column, which has to be accepted. -/
def accept (r : Registry) (g : Registration) : Except Failure Registry :=
  match r.register g.name g.kind g.options g.filter with
  | (r', .ok _) => .ok r'
  | (_, .error e) => .error e

/-- Registers columns one after the other, all of which have to be accepted. -/
def acceptAll (r : Registry) (gs : List Registration) : Except Failure Registry :=
  gs.foldlM accept r

theorem build_moved {r r' : Registry} (hschema : r.schema = r'.schema)
    (hentity : r.entity = r'.entity) {i : Nat} {name : Option String} {kind : ColumnKind}
    {options : Json} {filter : Option Filter} {c : Column}
    (h : r.build i name kind options filter = .ok c) (i' : Nat) :
    r'.build i' name kind options filter = .ok { c with index := i' } := by
  have htypes : r.typesOf = r'.typesOf := by
    funext kind source given
    simp only [typesOf, root, hschema, hentity]
  simp only [build, bind_eq_ok, pure_eq_ok] at h ⊢
  obtain ⟨given, hgiven, resolved, hresolved, namePath, hname, data, hdata, source, hsource, types,
    ht, filter, hfilter, rfl⟩ := h
  exact ⟨given, hgiven, resolved, hresolved, namePath, hname, data, hdata, source, hsource, types,
    htypes ▸ ht, filter, hfilter, rfl⟩

end Registry

/-- **A registration makes one column**, but for its position. -/
theorem Registration.Makes.unique {g : Registration} {schema : Schema} {entity : String}
    {c c' : Column} (h : g.Makes schema entity c) (h' : g.Makes schema entity c') :
    { c' with index := c.index } = c := by
  obtain ⟨r, i, hschema, hentity, hc⟩ := h
  obtain ⟨r', i', hschema', hentity', hc'⟩ := h'
  have hsame :=
    Registry.build_moved (hschema.trans hschema'.symm) (hentity.trans hentity'.symm) hc i'
  obtain rfl := Except.ok.inj (hc'.symm.trans hsame)
  rfl

/-- **Accepted registrations make the columns**, one by one. -/
theorem Registry.acceptAll_eq_ok : ∀ {gs : List Registration} {r r' : Registry}, r.Built →
    r.acceptAll gs = .ok r' → r'.Built ∧ r'.schema = r.schema ∧ r'.entity = r.entity ∧
      ∃ made, r'.columns = r.columns ++ made ∧
        List.Forall₂ (fun g c => g.Makes r.schema r.entity c) gs made
  | [], r, r', hbuilt, h => by
    rw [acceptAll, List.foldlM_nil, pure_eq_ok] at h
    subst h
    exact ⟨hbuilt, rfl, rfl, [], (List.append_nil _).symm, .nil⟩
  | g :: gs, r, r', hbuilt, h => by
    rw [acceptAll, List.foldlM_cons, bind_eq_ok] at h
    obtain ⟨r₁, haccept, hrest⟩ := h
    have hbuilt' := hbuilt.register g.name g.kind g.options g.filter
    unfold accept at haccept
    obtain ⟨e, heq⟩ | ⟨e, heq⟩ | ⟨c, hc, -, heq⟩ :=
      r.register_cases g.name g.kind g.options g.filter <;> rw [heq] at haccept hbuilt'
    · cases haccept
    · cases haccept
    · cases haccept
      obtain ⟨hlast, hschema, hentity, made, hcolumns, hmade⟩ := acceptAll_eq_ok hbuilt' hrest
      refine ⟨hlast, hschema, hentity, c :: made, ?_, .cons ⟨r, _, rfl, rfl, hc⟩ hmade⟩
      rw [hcolumns, push, List.append_assoc, List.singleton_append]

/-- **The same registrations make the same columns** in another order, at other positions. -/
theorem Registry.exists_same {r₀ r r' : Registry} (hbuilt : r₀.Built) (hempty : r₀.columns = [])
    {gs gs' : List Registration} (h : r₀.acceptAll gs = .ok r) (h' : r₀.acceptAll gs' = .ok r')
    (hsubset : gs ⊆ gs') {c : Column} (hc : c ∈ r.columns) :
    ∃ c' ∈ r'.columns, { c' with index := c.index } = c := by
  obtain ⟨-, -, -, made, hcolumns, hmade⟩ := acceptAll_eq_ok hbuilt h
  obtain ⟨-, -, -, made', hcolumns', hmade'⟩ := acceptAll_eq_ok hbuilt h'
  rw [hempty, List.nil_append] at hcolumns hcolumns'
  obtain ⟨g, hg, hmakes⟩ := exists_of_mem_right hmade (hcolumns ▸ hc)
  obtain ⟨i, hi⟩ := List.getElem?_of_mem (hsubset hg)
  obtain ⟨c', hc', hmakes'⟩ := exists_getElem?_of_forall₂ hmade' hi
  exact ⟨c', hcolumns' ▸ List.mem_of_getElem? hc', hmakes.unique hmakes'⟩

/-! ### Paths to aliases -/

namespace JoinPlan

/-- The alias is that of the root, or of a join at the end of a path of joins from the root. -/
inductive Reaches (rootAlias : String) (joins : JoinPlan) : String → List String → Prop
  | root : Reaches rootAlias joins rootAlias []
  | hop {j : PlannedJoin} {path : List String} (mem : j ∈ joins)
    (behind : Reaches rootAlias joins j.parent path) :
    Reaches rootAlias joins j.aliasName (path ++ [j.relationship])

/-- The alias of every join is that of the path to it. -/
def Pathed (rootAlias : String) (joins : JoinPlan) : Prop :=
  ∀ j ∈ joins, ∃ path, joins.Reaches rootAlias j.parent path ∧
    j.aliasName = pathAlias (path ++ [j.relationship])

variable {rootAlias : String} {joins joins' : JoinPlan}

theorem Reaches.mono (h : joins ⊆ joins') {a : String} {path : List String}
    (hr : joins.Reaches rootAlias a path) : joins'.Reaches rootAlias a path := by
  induction hr with
  | root => exact .root
  | hop hj _ ih => exact .hop (h hj) ih

theorem Reaches.cases_eq {a : String} {path : List String} (h : joins.Reaches rootAlias a path) :
    (a = rootAlias ∧ path = []) ∨ ∃ j ∈ joins, ∃ before, a = j.aliasName ∧
      path = before ++ [j.relationship] ∧ joins.Reaches rootAlias j.parent before := by
  cases h with
  | root => exact .inl ⟨rfl, rfl⟩
  | hop hj hbehind => exact .inr ⟨_, hj, _, rfl, rfl, hbehind⟩

theorem Reaches.unique (hn : (rootAlias :: joins.aliases).Nodup) {a : String}
    {path path' : List String} (h : joins.Reaches rootAlias a path)
    (h' : joins.Reaches rootAlias a path') : path = path' := by
  obtain ⟨hroot, haliases⟩ := List.nodup_cons.mp hn
  induction h generalizing path' with
  | root =>
    obtain ⟨-, rfl⟩ | ⟨j, hj, -, ha, -⟩ := h'.cases_eq
    · rfl
    · exact absurd (ha ▸ List.mem_map_of_mem hj) hroot
  | @hop j path hj _ ih =>
    obtain ⟨ha, -⟩ | ⟨j', hj', before, ha, rfl, hbehind⟩ := h'.cases_eq
    · exact absurd (ha ▸ List.mem_map_of_mem hj) hroot
    · obtain rfl := List.inj_on_of_nodup_map haliases hj hj' ha
      rw [ih hbehind]

theorem Pathed.add (h : joins.Pathed rootAlias) {join : PlannedJoin} {path : List String}
    (hparent : joins.Reaches rootAlias join.parent path)
    (halias : join.aliasName = pathAlias (path ++ [join.relationship])) :
    (joins.add join).1.Pathed rootAlias := by
  obtain ⟨planned, -, -, heq⟩ | ⟨-, heq⟩ := joins.add_cases join <;> rw [heq]
  · exact h
  · have hsubset : joins ⊆ joins ++ [join] := List.subset_append_left _ _
    intro j hj
    rcases List.mem_append.mp hj with hj | hj
    · obtain ⟨before, hreaches, hname⟩ := h j hj
      exact ⟨before, hreaches.mono hsubset, hname⟩
    · rw [List.mem_singleton.mp hj]
      exact ⟨path, hparent.mono hsubset, halias⟩

end JoinPlan

/-- The joins of a walk are named after their paths, and the walk stands at the end of its own. -/
structure Walk.Pathed (rootAlias : String) (w : Walk) : Prop where
  joins : w.joins.Pathed rootAlias
  reached : w.joins.Reaches rootAlias w.aliasName w.behind

theorem Walk.Pathed.hop {rootAlias : String} {schema : Schema} {kind : JoinKind} {w w' : Walk}
    {relation : String} (hw : w.Pathed rootAlias) (h : w.hop schema kind relation = .ok w') :
    w'.Pathed rootAlias := by
  have hsubset : w.joins ⊆ w'.joins := (prefix_of_hop h).subset
  obtain ⟨join, hhop⟩ := exists_hopped h
  have hparent : w.joins.Reaches rootAlias join.parent w.behind := hhop.parent ▸ hw.reached
  refine ⟨?_, ?_⟩
  · rw [hhop.joins]
    exact hw.joins.add hparent (by rw [hhop.path, hhop.relationship]; rfl)
  · -- the join of the hop starts where the walk stood, whether it is new or not
    have hplanned : (w.joins.add join).2 ∈ w'.joins ∧
        (w.joins.add join).2.key = join.key := by
      rw [hhop.joins]
      rcases w.joins.add_cases join with ⟨planned, hmem, hkey, heq⟩ | ⟨-, heq⟩ <;> rw [heq]
      · exact ⟨hmem, hkey⟩
      · exact ⟨List.mem_append_right _ List.mem_cons_self, rfl⟩
    obtain ⟨hmem, hkey⟩ := hplanned
    obtain ⟨hsameParent, hsameRelation⟩ := Prod.ext_iff.mp hkey
    simp only [PlannedJoin.key] at hsameParent hsameRelation
    rw [hhop.reached, hhop.behind, ← hhop.relationship, ← hsameRelation]
    exact .hop hmem (hsameParent ▸ hparent.mono hsubset)

/-- **The joins of a plan are named after their paths.** -/
theorem Table.pathed_plan {t : Table} {rootAlias : String} {p : Plan}
    (h : t.plan rootAlias = .ok p) : p.joins.Pathed p.rootAlias := by
  obtain ⟨root, d, -, -, hd, hroot, hjoins, -⟩ := exists_draft h
  rw [hroot, hjoins]
  refine foldlM_invariant (fun d : Draft => d.joins.Pathed rootAlias) _
    (fun c _ d d' hd hadd => ?_) (fun j hj => absurd hj List.not_mem_nil) hd
  obtain ⟨sql, data, -, -, rfl⟩ | ⟨path, w, identifier, -, -, hw, -, rfl⟩ | rfl :=
    Draft.add_cases hadd
  · exact hd
  · exact (foldlM_invariant (fun w : Walk => w.Pathed rootAlias) _ (fun _ _ _ _ hw h => hw.hop h)
      ⟨hd, .root⟩ hw).joins
  · exact hd

/-! ### Two plans -/

/-- All of a join but its kind. -/
def PlannedJoin.withoutKind (j : PlannedJoin) : PlannedJoin := { j with kind := .left }

theorem PlannedJoin.key_eq_of_withoutKind {j j' : PlannedJoin}
    (h : j.withoutKind = j'.withoutKind) : j.key = j'.key :=
  show j.withoutKind.key = j'.withoutKind.key from congrArg PlannedJoin.key h

theorem PlannedJoin.eq_of_withoutKind {j j' : PlannedJoin} (h : j.withoutKind = j'.withoutKind)
    (hkind : j.kind = j'.kind) : j = j' := by
  cases j
  cases j'
  simp only [withoutKind, mk.injEq] at h hkind ⊢
  tauto

/-- **A route is made of the same joins in two plans**, but for their kinds, if it leads along the
same associations. -/
theorem JoinPlan.withoutKind_route {rootAlias : String} {joins joins' : JoinPlan}
    (hn : (rootAlias :: joins.aliases).Nodup) (hn' : (rootAlias :: joins'.aliases).Nodup)
    (hp : joins.Pathed rootAlias) (hp' : joins'.Pathed rootAlias) :
    ∀ {relations behind : List String} {a : String} {hops hops' : List PlannedJoin}
      {steps : List (Association × Entity)}, joins.Reaches rootAlias a behind →
      joins'.Reaches rootAlias a behind → joins.route a relations = some hops →
      joins'.route a relations = some hops' →
      List.Forall₂ (fun j step => j.association = step.1 ∧ j.LeadsTo step.2) hops steps →
      List.Forall₂ (fun j step => j.association = step.1 ∧ j.LeadsTo step.2) hops' steps →
      hops.map PlannedJoin.withoutKind = hops'.map PlannedJoin.withoutKind
  | [], _, _, _, _, _, _, _, hroute, hroute', _, _ => by
    cases hroute
    cases hroute'
    rfl
  | relation :: relations, behind, a, _, _, _, hr, hr', hroute, hroute', hagree, hagree' => by
    obtain ⟨j, rest, hj, hafter, rfl⟩ := route_cons.mp hroute
    obtain ⟨j', rest', hj', hafter', rfl⟩ := route_cons.mp hroute'
    obtain ⟨hmem, rfl, rfl⟩ := find?_eq_some hj
    obtain ⟨hmem', hparent, hrelation⟩ := find?_eq_some hj'
    cases hagree with
    | cons hstep hsteps =>
      obtain ⟨hstep', hsteps'⟩ := List.forall₂_cons.mp hagree'
      -- the path to the join gives its alias in both plans
      have halias : ∀ {joins : JoinPlan} {i : PlannedJoin}, (rootAlias :: joins.aliases).Nodup →
          joins.Pathed rootAlias → i ∈ joins → joins.Reaches rootAlias i.parent behind →
          i.aliasName = pathAlias (behind ++ [i.relationship]) := by
        intro joins i hn hp hi hreaches
        obtain ⟨path, hpath, hname⟩ := hp i hi
        rw [hname, hpath.unique hn hreaches]
      have hname := halias hn hp hmem hr
      have hname' := halias hn' hp' hmem' (hparent ▸ hr')
      have hsameName : j'.aliasName = j.aliasName := by rw [hname, hname', hrelation]
      have hidentifier : j'.identifier = j.identifier :=
        Except.ok.inj (hstep'.2.identifier.symm.trans hstep.2.identifier)
      have hsame : j.withoutKind = j'.withoutKind := by
        simp only [PlannedJoin.withoutKind, hparent, hrelation, hsameName, hidentifier, hstep.1,
          hstep'.1, hstep.2.entity, hstep'.2.entity, hstep.2.table, hstep'.2.table]
      have hreaches : joins'.Reaches rootAlias j.aliasName (behind ++ [j.relationship]) := by
        rw [← hsameName, ← hrelation]
        exact .hop hmem' (hparent ▸ hr')
      rw [List.map_cons, List.map_cons, hsame, withoutKind_route hn hn' hp hp' (.hop hmem hr)
        hreaches hafter (hsameName ▸ hafter') hsteps hsteps']

theorem JoinPlan.mem_of_mem_route {joins : JoinPlan} : ∀ {relations : List String} {a : String}
    {hops : List PlannedJoin}, joins.route a relations = some hops → ∀ j ∈ hops, j ∈ joins
  | [], _, _, h => by
    cases h
    exact fun _ hj => absurd hj List.not_mem_nil
  | _ :: _, _, _, h => by
    obtain ⟨j, rest, hj, hrest, rfl⟩ := route_cons.mp h
    exact List.forall_mem_cons.mpr ⟨(find?_eq_some hj).1, mem_of_mem_route hrest⟩

theorem Column.GoesOver.mem {rootAlias : String} {joins : JoinPlan} {c : Column} {j : PlannedJoin}
    (h : c.GoesOver rootAlias joins j) : j ∈ joins := by
  obtain ⟨path, hops, -, -, hroute, hj⟩ := h
  exact JoinPlan.mem_of_mem_route hroute j hj

/-- The second table has the columns of the first, at some positions. -/
def Table.HasColumnsOf (t' t : Table) : Prop :=
  ∀ c ∈ t.registry.columns, ∃ c' ∈ t'.registry.columns, { c' with index := c.index } = c

/-- **A column goes over the same joins in the plan of a table that has it as well**, but for their
kinds. -/
theorem Table.exists_withoutKind {t t' : Table} {rootAlias : String} {p p' : Plan}
    (hbuilt : t.registry.Built) (hbuilt' : t'.registry.Built)
    (hschema : t'.registry.schema = t.registry.schema)
    (hentity : t'.registry.entity = t.registry.entity) (hcolumns : t'.HasColumnsOf t)
    (h : t.plan rootAlias = .ok p) (h' : t'.plan rootAlias = .ok p')
    (hn : (p.rootAlias :: p.joins.aliases).Nodup) (hn' : (p'.rootAlias :: p'.joins.aliases).Nodup)
    {c : Column} (hc : c ∈ t.registry.columns) {j : PlannedJoin}
    (hj : c.GoesOver p.rootAlias p.joins j) :
    ∃ c' ∈ t'.registry.columns, { c' with index := c.index } = c ∧
      ∃ j', c'.GoesOver p'.rootAlias p'.joins j' ∧ j'.withoutKind = j.withoutKind := by
  obtain ⟨c', hc', hsame⟩ := hcolumns c hc
  obtain ⟨path, hops, hsource, hselectable, hroute, hmem⟩ := hj
  have hsource' : c'.source = .field path := by rw [← hsource, ← hsame]
  have hselectable' : c'.kind.isSelectable = true := by rw [← hselectable, ← hsame]
  obtain ⟨root, steps, last, hops₁, hroot, -, hwalk, hroute₁, -, hagree, -⟩ :=
    (routes_plan hbuilt h).2.1 hn c hc path hsource hselectable
  obtain ⟨root', steps', last', hops', hroot', -, hwalk', hroute', -, hagree', -⟩ :=
    (routes_plan hbuilt' h').2.1 hn' c' hc' path hsource' hselectable'
  obtain rfl := Option.some.inj (hroute.symm.trans hroute₁)
  -- both walks start from the same root in the same schema
  rw [Registry.root, hschema, hentity] at hroot'
  obtain rfl := Except.ok.inj (hroot.symm.trans hroot')
  rw [hschema] at hwalk'
  obtain ⟨rfl, -⟩ := hwalk.unique hwalk'
  have hroots : p'.rootAlias = p.rootAlias := (sound_plan h').1.trans (sound_plan h).1.symm
  rw [hroots] at hn' hroute' ⊢
  have hpathed' := pathed_plan h'
  rw [hroots] at hpathed'
  have hmaps := JoinPlan.withoutKind_route hn hn' (pathed_plan h) hpathed' .root .root hroute
    hroute' hagree hagree'
  have hmem' : j.withoutKind ∈ hops'.map PlannedJoin.withoutKind :=
    hmaps ▸ List.mem_map_of_mem hmem
  obtain ⟨j', hj', hkept⟩ := List.mem_map.mp hmem'
  exact ⟨c', hc', hsame, j', ⟨path, hops', hsource', hselectable', hroute', hj'⟩, hkept⟩

/-! ### The column that plans a join -/

theorem Walk.kind_of_hop {schema : Schema} {kind : JoinKind} {w w' : Walk} {relation : String}
    (h : w.hop schema kind relation = .ok w') : ∀ j ∈ w'.joins, j ∈ w.joins ∨ j.kind = kind := by
  simp only [hop, bind_eq_ok, pure_eq_ok] at h
  obtain ⟨a, -, target, -, identifier, -, rfl⟩ := h
  intro j hj
  dsimp only at hj
  obtain ⟨planned, -, -, heq⟩ | ⟨-, heq⟩ := JoinPlan.add_cases w.joins _ <;> rw [heq] at hj
  · exact .inl hj
  · exact (List.mem_append.mp hj).imp_right fun hj => by rw [List.mem_singleton.mp hj]

theorem Draft.kind_of_add {root : PlanRoot} {d d' : Draft} {c : Column}
    (h : d.add root c = .ok d') : ∀ j ∈ d'.joins, j ∈ d.joins ∨ j.kind = c.joinKind := by
  obtain ⟨sql, data, -, -, rfl⟩ | ⟨path, w, identifier, -, -, hw, -, rfl⟩ | rfl := add_cases h
  · exact fun j hj => .inl hj
  · refine foldlM_invariant (fun w : Walk => ∀ j ∈ w.joins, j ∈ d.joins ∨ j.kind = c.joinKind) _
      (fun _ _ w w' hkinds hhop j hj => ?_) (fun j hj => .inl hj) hw
    exact (Walk.kind_of_hop hhop j hj).elim (hkinds j) .inr
  · exact fun j hj => .inl hj

/-- The column is the first one that goes over the join, which has its kind. -/
structure Column.IsFirstOver (rootAlias : String) (joins : JoinPlan) (columns : List Column)
    (j : PlannedJoin) (c : Column) : Prop where
  goesOver : c.GoesOver rootAlias joins j
  kind : j.kind = c.joinKind
  first : ∃ before after, columns = before ++ c :: after ∧
    ∀ c' ∈ before, ¬ c'.GoesOver rootAlias joins j

theorem Draft.mem_of_goesOver {root : PlanRoot} {d d' : Draft} {c : Column}
    (h : d.add root c = .ok d') {joins : JoinPlan} (hext : d'.joins <+: joins) {j : PlannedJoin}
    (hj : c.GoesOver root.aliasName joins j) : j ∈ d'.joins := by
  obtain ⟨-, ⟨slots, -, -, hrouted⟩, -⟩ := add_routed h
  obtain ⟨path, hops, hsource, hselectable, hroute, hmem⟩ := hj
  obtain ⟨hops', -, -, hroute', -⟩ := hrouted path hsource hselectable
  obtain rfl := Option.some.inj (hroute.symm.trans (JoinPlan.route_mono hext hroute'))
  exact JoinPlan.mem_of_mem_route hroute' j hmem

/-- **Every join is planned by the first column that goes over it.** -/
theorem Draft.exists_first {root : PlanRoot} : ∀ {columns : List Column} {d d' : Draft},
    columns.foldlM (Draft.add root) d = .ok d' → ∀ j ∈ d'.joins,
      j ∈ d.joins ∨ ∃ c : Column, c.IsFirstOver root.aliasName d'.joins columns j
  | [], d, d', h, j, hj => by
    rw [List.foldlM_nil, pure_eq_ok] at h
    exact .inl (h ▸ hj)
  | c :: columns, d, d', h, j, hj => by
    rw [List.foldlM_cons, bind_eq_ok] at h
    obtain ⟨d₁, hadd, hrest⟩ := h
    have hext := (foldlM_routed hrest).1
    by_cases hmem : j ∈ d₁.joins
    · obtain hold | hover := (add_routed hadd).2.2 j hmem
      · exact .inl hold
      · obtain hold | hkind := kind_of_add hadd j hmem
        · exact .inl hold
        · exact .inr ⟨c, hover.mono hext, hkind, [], columns, rfl,
            fun _ hc' => absurd hc' List.not_mem_nil⟩
    · obtain hold | ⟨c', hover, hkind, before, after, rfl, hfirst⟩ := exists_first hrest j hj
      · exact absurd hold hmem
      · exact .inr ⟨c', hover, hkind, c :: before, after, rfl, List.forall_mem_cons.mpr
          ⟨fun hover' => hmem (mem_of_goesOver hadd hext hover'), hfirst⟩⟩

/-- **Every join of a plan has the kind of the first column that goes over it.** -/
theorem Table.exists_first {t : Table} {rootAlias : String} {p : Plan}
    (h : t.plan rootAlias = .ok p) :
    ∀ j ∈ p.joins, ∃ c : Column, c.IsFirstOver p.rootAlias p.joins t.registry.columns j := by
  obtain ⟨root, d, -, -, hd, hroot, hjoins, -⟩ := exists_draft h
  rw [hroot, hjoins]
  exact fun j hj => (Draft.exists_first hd j hj).resolve_left List.not_mem_nil

/-! ### Tables with the same columns -/

theorem JoinPlan.eq_of_key {joins : JoinPlan} (hn : (joins.map PlannedJoin.key).Nodup)
    {j j' : PlannedJoin} (hj : j ∈ joins) (hj' : j' ∈ joins) (h : j.withoutKind = j'.withoutKind) :
    j = j' :=
  List.inj_on_of_nodup_map hn hj hj' (PlannedJoin.key_eq_of_withoutKind h)

theorem JoinPlan.nodup_withoutKind {joins : JoinPlan} (hn : (joins.map PlannedJoin.key).Nodup) :
    (joins.map PlannedJoin.withoutKind).Nodup := by
  refine .of_map PlannedJoin.key ?_
  rw [List.map_map]
  exact hn

/-- The columns that go over one join agree on its kind. -/
def Table.AgreesOnKinds (t : Table) (p : Plan) : Prop :=
  ∀ j, ∀ c ∈ t.registry.columns, ∀ c' ∈ t.registry.columns, c.GoesOver p.rootAlias p.joins j →
    c'.GoesOver p.rootAlias p.joins j → c.joinKind = c'.joinKind

/-- Two plans of tables over one entity, each with the columns of the other, and with different
aliases. -/
structure Table.PlannedBoth (t t' : Table) (p p' : Plan) : Prop where
  built : t.registry.Built
  built' : t'.registry.Built
  schema : t'.registry.schema = t.registry.schema
  entity : t'.registry.entity = t.registry.entity
  columns : t.HasColumnsOf t'
  columns' : t'.HasColumnsOf t
  planned : ∃ rootAlias, t.plan rootAlias = .ok p ∧ t'.plan rootAlias = .ok p'
  nodup : (p.rootAlias :: p.joins.aliases).Nodup
  nodup' : (p'.rootAlias :: p'.joins.aliases).Nodup

namespace Table.PlannedBoth

variable {t t' : Table} {p p' : Plan}

theorem symm (h : PlannedBoth t t' p p') : PlannedBoth t' t p' p :=
  ⟨h.built', h.built, h.schema.symm, h.entity.symm, h.columns', h.columns,
    h.planned.imp fun _ hp => hp.symm, h.nodup', h.nodup⟩

theorem nodup_keys (h : PlannedBoth t t' p p') : (p.joins.map PlannedJoin.key).Nodup :=
  h.planned.elim fun _ hp => (routes_plan h.built hp.1).1

theorem exists_over (h : PlannedBoth t t' p p') {c : Column} (hc : c ∈ t.registry.columns)
    {j : PlannedJoin} (hj : c.GoesOver p.rootAlias p.joins j) :
    ∃ c' ∈ t'.registry.columns, c'.joinKind = c.joinKind ∧
      ∃ j', c'.GoesOver p'.rootAlias p'.joins j' ∧ j'.withoutKind = j.withoutKind := by
  obtain ⟨rootAlias, hp, hp'⟩ := h.planned
  obtain ⟨c', hc', hsame, hover⟩ := exists_withoutKind h.built h.built' h.schema h.entity h.columns'
    hp hp' h.nodup h.nodup' hc hj
  exact ⟨c', hc', by rw [← hsame], hover⟩

theorem exists_first (h : PlannedBoth t t' p p') {j : PlannedJoin} (hj : j ∈ p.joins) :
    ∃ c ∈ t.registry.columns, c.GoesOver p.rootAlias p.joins j ∧ j.kind = c.joinKind := by
  obtain ⟨rootAlias, hp, -⟩ := h.planned
  obtain ⟨c, hover, hkind, before, after, hcolumns, -⟩ := Table.exists_first hp j hj
  exact ⟨c, by rw [hcolumns]; simp, hover, hkind⟩

theorem withoutKind_subset (h : PlannedBoth t t' p p') :
    p.joins.map PlannedJoin.withoutKind ⊆ p'.joins.map PlannedJoin.withoutKind := by
  intro i hi
  obtain ⟨j, hj, rfl⟩ := List.mem_map.mp hi
  obtain ⟨c, hc, hover, -⟩ := h.exists_first hj
  obtain ⟨_, -, -, j', hover', hsame⟩ := h.exists_over hc hover
  exact hsame ▸ List.mem_map_of_mem hover'.mem

/-- **Both plans have the same joins but for their kinds.** -/
theorem perm_withoutKind (h : PlannedBoth t t' p p') :
    (p.joins.map PlannedJoin.withoutKind).Perm (p'.joins.map PlannedJoin.withoutKind) :=
  (List.perm_ext_iff_of_nodup (JoinPlan.nodup_withoutKind h.nodup_keys)
    (JoinPlan.nodup_withoutKind h.symm.nodup_keys)).mpr fun _ =>
      ⟨fun hj => h.withoutKind_subset hj, fun hj => h.symm.withoutKind_subset hj⟩

theorem mem_of_agrees (h : PlannedBoth t t' p p') (hagrees : t.AgreesOnKinds p) {j : PlannedJoin}
    (hj : j ∈ p.joins) : j ∈ p'.joins := by
  obtain ⟨c, hc, hover, hkind⟩ := h.exists_first hj
  obtain ⟨_, -, -, j', hover', hsame⟩ := h.exists_over hc hover
  -- the column that planned the other join goes over this one here
  obtain ⟨c', hc', hfirst, hkind'⟩ := h.symm.exists_first hover'.mem
  obtain ⟨c₁, hc₁, hsameKind, j₁, hover₁, hsame₁⟩ := h.symm.exists_over hc' hfirst
  obtain rfl : j₁ = j := JoinPlan.eq_of_key h.nodup_keys hover₁.mem hj (hsame₁.trans hsame)
  have hkinds : j'.kind = j₁.kind := by
    rw [hkind', ← hsameKind, hkind, hagrees j₁ c₁ hc₁ c hc hover₁ hover]
  obtain rfl := PlannedJoin.eq_of_withoutKind hsame hkinds
  exact hover'.mem

/-- **Both plans have the same joins** if the columns that go over one join agree on its kind. -/
theorem perm_of_agrees (h : PlannedBoth t t' p p') (hagrees : t.AgreesOnKinds p) :
    p.joins.Perm p'.joins := by
  refine (List.perm_ext_iff_of_nodup (.of_map _ h.nodup_keys) (.of_map _ h.symm.nodup_keys)).mpr
    fun j => ⟨h.mem_of_agrees hagrees, fun hj => ?_⟩
  obtain ⟨c', hc', hover, -⟩ := h.symm.exists_first hj
  obtain ⟨_, -, -, j₁, hover₁, hsame⟩ := h.symm.exists_over hc' hover
  obtain rfl := JoinPlan.eq_of_key h.symm.nodup_keys (h.mem_of_agrees hagrees hover₁.mem) hj hsame
  exact hover₁.mem

end Table.PlannedBoth

/-- **The order of registration decides the kinds of shared joins, and nothing else about the
joins.** Register the same columns for an entity in two orders, all accepted, and let both tables
have plans with different aliases.

- Both plans have the same joins, but for their order and their kinds.
- The kind of a join is that of the first column that goes over it, in either plan.
- If the columns that go over one join agree on its kind, both plans have the same joins, kinds
  included. -/
theorem Table.joins_perm {schema : Schema} {entity : String} {r₀ : Registry}
    {gs gs' : List Registration} {t t' : Table} {rootAlias : String} {p p' : Plan}
    (hcreate : Registry.create schema entity = .ok r₀) (hperm : gs.Perm gs')
    (hr : r₀.acceptAll gs = .ok t.registry) (hr' : r₀.acceptAll gs' = .ok t'.registry)
    (h : t.plan rootAlias = .ok p) (h' : t'.plan rootAlias = .ok p')
    (hn : (p.rootAlias :: p.joins.aliases).Nodup)
    (hn' : (p'.rootAlias :: p'.joins.aliases).Nodup) :
    (p.joins.map PlannedJoin.withoutKind).Perm (p'.joins.map PlannedJoin.withoutKind) ∧
    (∀ j ∈ p.joins, ∃ c : Column, c.IsFirstOver p.rootAlias p.joins t.registry.columns j) ∧
    (∀ j ∈ p'.joins, ∃ c : Column, c.IsFirstOver p'.rootAlias p'.joins t'.registry.columns j) ∧
    (t.AgreesOnKinds p → p.joins.Perm p'.joins) := by
  have hempty : r₀.columns = [] := by
    obtain ⟨root, -, rfl⟩ := map_eq_ok.mp hcreate
    rfl
  obtain ⟨hbuilt, hschema, hentity, -⟩ := Registry.acceptAll_eq_ok (.create hcreate) hr
  obtain ⟨hbuilt', hschema', hentity', -⟩ := Registry.acceptAll_eq_ok (.create hcreate) hr'
  have hboth : PlannedBoth t t' p p' :=
    ⟨hbuilt, hbuilt', hschema'.trans hschema.symm, hentity'.trans hentity.symm,
      fun _ hc => Registry.exists_same (.create hcreate) hempty hr' hr hperm.symm.subset hc,
      fun _ hc => Registry.exists_same (.create hcreate) hempty hr hr' hperm.subset hc,
      ⟨rootAlias, h, h'⟩, hn, hn'⟩
  exact ⟨hboth.perm_withoutKind, exists_first h, exists_first h', hboth.perm_of_agrees⟩

/-! ### Books with their authors -/

/-- Books with their authors. -/
def bookSchema : Schema := Schema.ofEntities
  [{ name := "Author", table := "authors", identifiers := ["id"]
     fields := [("born", ⟨none, .date, true⟩), ("name", ⟨none, .string, false⟩)] },
   { name := "Book", table := "books", identifiers := ["id"]
     associations := [("author", .manyToOne "Author" "author_id")] }]

/-- The names of the authors, for all books. -/
def authorName : Registration := ⟨some "author.name", .column, .null, none⟩

/-- Their dates of birth, for the books that have an author. -/
def authorBorn : Registration :=
  ⟨some "author.born", .column, Json.object [("join_type", .str "inner")], none⟩

/-- Books with some columns. -/
def bookTable (r : Registry) : Table := { name := "books", registry := r, settings := { } }

/-- Two columns over one join, in both orders. -/
theorem Table.joins_perm_books : ∃ r r' p p',
    Registry.acceptAll ⟨bookSchema, "Book", [], []⟩ [authorName, authorBorn] = .ok r ∧
    Registry.acceptAll ⟨bookSchema, "Book", [], []⟩ [authorBorn, authorName] = .ok r' ∧
    (bookTable r).plan "book" = .ok p ∧ (bookTable r').plan "book" = .ok p' ∧
    (p.joins.map PlannedJoin.withoutKind).Perm (p'.joins.map PlannedJoin.withoutKind) ∧
    p.joins ≠ [] ∧ ∀ j ∈ p.joins, ∃ c : Column, c.IsFirstOver p.rootAlias p.joins r.columns j := by
  obtain ⟨r, hr, hp⟩ := exists_ok
    (x := Registry.acceptAll ⟨bookSchema, "Book", [], []⟩ [authorName, authorBorn])
    (p := fun r => ((bookTable r).plan "book").toOption.any fun p : Plan =>
      decide ((p.rootAlias :: p.joins.aliases).Nodup ∧ p.joins ≠ [])) (by decide +kernel)
  obtain ⟨r', hr', hp'⟩ := exists_ok
    (x := Registry.acceptAll ⟨bookSchema, "Book", [], []⟩ [authorBorn, authorName])
    (p := fun r => ((bookTable r).plan "book").toOption.any fun p : Plan =>
      decide (p.rootAlias :: p.joins.aliases).Nodup) (by decide +kernel)
  obtain ⟨p, h, hn⟩ := exists_ok hp
  obtain ⟨p', h', hn'⟩ := exists_ok hp'
  rw [decide_eq_true_eq] at hn hn'
  have hcreate : Registry.create bookSchema "Book" = .ok ⟨bookSchema, "Book", [], []⟩ := rfl
  have hswap : [authorName, authorBorn].Perm [authorBorn, authorName] := .swap _ _ []
  have hr'' : Registry.acceptAll ⟨bookSchema, "Book", [], []⟩ [authorBorn, authorName] =
    .ok (bookTable r').registry := hr'
  obtain ⟨hperm, hfirst, -⟩ :=
    joins_perm (t := bookTable r) hcreate hswap hr hr'' h h' hn.1 hn'
  exact ⟨r, r', p, p', hr, hr', h, h', hperm, hn.2, hfirst⟩

/-- The first column decides whether books without an author are left out. -/
theorem Table.kinds_books : ∃ r r' p p',
    Registry.acceptAll ⟨bookSchema, "Book", [], []⟩ [authorName, authorBorn] = .ok r ∧
    Registry.acceptAll ⟨bookSchema, "Book", [], []⟩ [authorBorn, authorName] = .ok r' ∧
    (bookTable r).plan "book" = .ok p ∧ (bookTable r').plan "book" = .ok p' ∧
    p.rootAlias :: p.joins.aliases = ["book", "author"] ∧
    p'.rootAlias :: p'.joins.aliases = ["book", "author"] ∧
    p.joins.map PlannedJoin.kind = [.left] ∧ p'.joins.map PlannedJoin.kind = [.inner] := by
  obtain ⟨r, hr, hp⟩ := exists_ok
    (x := Registry.acceptAll ⟨bookSchema, "Book", [], []⟩ [authorName, authorBorn])
    (p := fun r => ((bookTable r).plan "book").toOption.any fun p : Plan =>
      decide (p.rootAlias :: p.joins.aliases = ["book", "author"] ∧
        p.joins.map PlannedJoin.kind = [.left])) (by decide +kernel)
  obtain ⟨r', hr', hp'⟩ := exists_ok
    (x := Registry.acceptAll ⟨bookSchema, "Book", [], []⟩ [authorBorn, authorName])
    (p := fun r => ((bookTable r).plan "book").toOption.any fun p : Plan =>
      decide (p.rootAlias :: p.joins.aliases = ["book", "author"] ∧
        p.joins.map PlannedJoin.kind = [.inner])) (by decide +kernel)
  obtain ⟨p, h, hkinds⟩ := exists_ok hp
  obtain ⟨p', h', hkinds'⟩ := exists_ok hp'
  rw [decide_eq_true_eq] at hkinds hkinds'
  exact ⟨r, r', p, p', hr, hr', h, h', hkinds.1, hkinds'.1, hkinds.2, hkinds'.2⟩

end TableQuery
