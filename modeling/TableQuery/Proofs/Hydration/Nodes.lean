import Mathlib.Data.List.Induction
import Mathlib.Data.List.Nodup
import Mathlib.Data.List.Perm.Subperm
import TableQuery.Proofs.Hydration.JoinTree

/-! # The nodes of the tree of the joins

The tree of a plan is built by going from an alias to the aliases of the joins that start from it.
There is no end to this in general, but there is if the aliases are different
(`RecordTree.Spans.acc`), and then there is one tree of the joins, however much fuel is left over
(`RecordTree.build_eq_ofPlan`). It has one node for the root and one for each join
(`RecordTree.perm_nodes`): a node that is not the root is a child of one node, so an alias occurs as
often as the alias that its join starts from (`JoinPlan.count_aliasName`), which by induction along
the joins is once. -/

namespace TableQuery

namespace JoinPlan

variable {joins : JoinPlan}

/-- An alias is among those that start from the parent of its join, once, and from no other
alias. -/
theorem count_aliasesFrom (hn : joins.aliases.Nodup) {j : PlannedJoin} (hj : j ∈ joins)
    (a : String) : (joins.aliasesFrom a).count j.aliasName = if a = j.parent then 1 else 0 := by
  have hsub : (joins.aliasesFrom a).Nodup := hn.sublist (List.filter_sublist.map _)
  split_ifs with ha
  · exact List.count_eq_one_of_mem hsub (mem_aliasesFrom.mpr ⟨j, hj, ha.symm, rfl⟩)
  · refine List.count_eq_zero_of_not_mem fun hmem => ha ?_
    obtain ⟨j', hj', hparent, halias⟩ := mem_aliasesFrom.mp hmem
    rw [← List.inj_on_of_nodup_map hn hj' hj halias, hparent]

theorem count_flatMap_of_count {f : String → List String} {x p : String}
    (h : ∀ a, (f a).count x = if a = p then 1 else 0) (l : List String) :
    (l.flatMap f).count x = l.count p := by
  induction l with
  | nil => rfl
  | cons a l ih =>
    rw [List.flatMap_cons, List.count_append, ih, h, List.count_cons, Nat.add_comm]
    simp only [beq_iff_eq]

section Unfolding

variable {root : String} {l : List String}

/-- **An alias occurs as often as the alias that its join starts from**, in aliases that are the
root and those that start from them. -/
theorem count_aliasName (hn : (root :: joins.aliases).Nodup)
    (hl : l.Perm (root :: l.flatMap joins.aliasesFrom)) {j : PlannedJoin} (hj : j ∈ joins) :
    l.count j.aliasName = l.count j.parent := by
  obtain ⟨hroot, hn⟩ := List.nodup_cons.mp hn
  have hne : root ≠ j.aliasName := fun h => hroot (h ▸ List.mem_map_of_mem hj)
  rw [hl.count_eq, List.count_cons_of_ne hne]
  exact count_flatMap_of_count (count_aliasesFrom hn hj) l

/-- **Aliases that are the root and those that start from them** are the root and all joins. -/
theorem perm_aliases (hs : joins.StartsIn [root]) (hn : (root :: joins.aliases).Nodup)
    (hl : l.Perm (root :: l.flatMap joins.aliasesFrom)) : l.Perm (root :: joins.aliases) := by
  have hmem : ∀ {x}, x ∈ l.flatMap joins.aliasesFrom → x ∈ joins.aliases := by
    intro x hx
    obtain ⟨a, -, hx⟩ := List.mem_flatMap.mp hx
    obtain ⟨j, hj, -, rfl⟩ := mem_aliasesFrom.mp hx
    exact List.mem_map_of_mem hj
  have hroot : l.count root = 1 := by
    rw [hl.count_eq, List.count_cons_self,
      List.count_eq_zero_of_not_mem fun h => (List.nodup_cons.mp hn).1 (hmem h)]
  -- by induction along the joins, since each starts from the root or an earlier one
  have hone : ∀ before after : JoinPlan, joins = before ++ after →
      ∀ x ∈ root :: before.aliases, l.count x = 1 := by
    intro before
    induction before using List.reverseRecOn with
    | nil =>
      intro after _ x hx
      rw [List.mem_singleton.mp hx, hroot]
    | append_singleton before j ih =>
      intro after hsplit x hx
      have hbefore := ih (j :: after) (by simpa using hsplit)
      have hstarts := startsIn_concat.mp (hsplit ▸ hs).left
      simp only [aliases, List.map_append, List.map_singleton, ← List.cons_append] at hx
      rcases List.mem_append.mp hx with hx | hx
      · exact hbefore x hx
      · rw [List.mem_singleton.mp hx, count_aliasName hn hl (by simp [hsplit])]
        exact hbefore _ hstarts.2
  refine List.perm_iff_count.mpr fun x => ?_
  by_cases hx : x ∈ root :: joins.aliases
  · rw [hone joins [] (by simp) x hx, List.count_eq_one_of_mem hn hx]
  · rw [List.count_eq_zero_of_not_mem hx, List.count_eq_zero_of_not_mem]
    intro hxl
    rcases List.mem_cons.mp (hl.mem_iff.mp hxl) with rfl | hxl
    · exact hx List.mem_cons_self
    · exact hx (List.mem_cons_of_mem _ (hmem hxl))

end Unfolding

end JoinPlan

namespace RecordTree

/-! ### Nodes -/

mutual

/-- A node with all nodes below it. -/
def nodes : RecordTree → List RecordTree
  | .node aliasName identifier fields children =>
    .node aliasName identifier fields children :: nodesBelow children

/-- The nodes of the tables joined to a table. -/
def nodesBelow : List (Link × RecordTree) → List RecordTree
  | [] => []
  | (_, child) :: rest => nodes child ++ nodesBelow rest

end

theorem nodes_eq (tree : RecordTree) : tree.nodes = tree :: nodesBelow tree.children := by
  cases tree
  rw [nodes, children]

theorem self_mem_nodes (tree : RecordTree) : tree ∈ tree.nodes := by
  rw [nodes_eq]
  exact List.mem_cons_self

theorem mem_nodesBelow {n : RecordTree} : ∀ {children : List (Link × RecordTree)},
    n ∈ nodesBelow children ↔ ∃ c ∈ children, n ∈ c.2.nodes
  | [] => by simp [nodesBelow]
  | (link, child) :: rest => by
    rw [nodesBelow, List.mem_append, mem_nodesBelow]
    simp

mutual

/-- **The nodes of a tree are its root and their children.** -/
theorem perm_children : ∀ tree : RecordTree,
    tree.nodes.Perm (tree :: tree.nodes.flatMap fun n => n.children.map Prod.snd)
  | .node a identifier fields children => by
    rw [nodes, List.flatMap_cons]
    exact (perm_childrenBelow children).cons _

theorem perm_childrenBelow : ∀ children : List (Link × RecordTree),
    (nodesBelow children).Perm (children.map Prod.snd ++
      (nodesBelow children).flatMap fun n => n.children.map Prod.snd)
  | [] => by simp [nodesBelow]
  | (link, child) :: rest => by
    rw [nodesBelow, List.flatMap_append, List.map_cons, List.cons_append]
    refine ((perm_children child).append (perm_childrenBelow rest)).trans ?_
    rw [List.cons_append]
    exact (List.perm_append_comm_assoc _ _ _).cons _

end

variable {joins : JoinPlan} {selection : Selection} {tree : RecordTree}

namespace Spans

/-- **Building ends**: below the alias of a tree there is no endless chain of aliases. -/
theorem acc (h : tree.Spans joins selection) : Acc joins.Needs tree.aliasName := by
  induction h with
  | @node a identifier children joined below ih =>
    refine Acc.intro _ fun b hb => ?_
    have hmap := congrArg (List.map fun c : Link × String × String => c.2.1) joined
    rw [List.map_map, List.map_map] at hmap
    have hmem : b ∈ children.map fun c => c.2.aliasName := hmap ▸ hb
    obtain ⟨c, hc, rfl⟩ := List.mem_map.mp hmem
    exact ih c hc

/-- **There is one tree of the joins** from an alias with an identifier. -/
theorem unique (h : tree.Spans joins selection) : ∀ {tree' : RecordTree},
    tree'.Spans joins selection → tree'.aliasName = tree.aliasName →
      tree'.identifier = tree.identifier → tree = tree' := by
  induction h with
  | @node a identifier children joined below ih =>
    intro tree' h' ha hi
    cases h' with
    | @node a' identifier' children' joined' below' =>
      obtain rfl : a' = a := ha
      obtain rfl : identifier' = identifier := hi
      have hmap := joined.trans joined'.symm
      have hlength : children.length = children'.length := by simpa using congrArg List.length hmap
      congr 1
      refine List.ext_getElem hlength fun i hi hi' => ?_
      have hget := List.getElem_of_eq hmap (i := i) (by simpa using hi)
      simp only [List.getElem_map, Prod.mk.injEq] at hget
      obtain ⟨hlink, halias, hidentifier⟩ := hget
      refine Prod.ext hlink (ih _ (List.getElem_mem hi) ?_ halias.symm hidentifier.symm)
      exact below' _ (List.getElem_mem hi')

theorem of_mem_nodes (h : tree.Spans joins selection) :
    ∀ n ∈ tree.nodes, n.Spans joins selection := by
  induction h with
  | @node a identifier children joined below ih =>
    intro n hn
    rw [nodes] at hn
    rcases List.mem_cons.mp hn with rfl | hn
    · exact .node joined below
    · obtain ⟨c, hc, hn⟩ := mem_nodesBelow.mp hn
      exact ih c hc n hn

theorem perm_aliasesFrom (h : tree.Spans joins selection) :
    (tree.nodes.map aliasName).Perm
      (tree.aliasName :: (tree.nodes.map aliasName).flatMap joins.aliasesFrom) := by
  have hchildren : ∀ n ∈ tree.nodes,
      (n.children.map Prod.snd).map aliasName = joins.aliasesFrom n.aliasName := by
    intro n hn
    have hmap := congrArg (List.map fun c : Link × String × String => c.2.1)
      (h.of_mem_nodes n hn).map_children
    rw [List.map_map, List.map_map] at hmap
    rw [List.map_map]
    exact hmap
  have hperm := (perm_children tree).map aliasName
  rw [List.map_cons, List.map_flatMap, List.flatMap_congr hchildren] at hperm
  rwa [List.flatMap_map]

end Spans

/-! ### The tree of a plan -/

variable {p : Plan}

/-- **Fuel does not matter** once there is as much as there are joins. -/
theorem build_eq_ofPlan (hs : p.joins.StartsIn [p.rootAlias])
    (hn : (p.rootAlias :: p.joins.aliases).Nodup) {fuel : Nat} (hfuel : p.joins.length ≤ fuel) :
    build p.joins p.selection fuel p.rootAlias p.rootIdentifier = ofPlan p := by
  have hends := JoinPlan.endsWithin_of_acc (Plan.ends_of_nodup hs hn) hfuel
  obtain ⟨halias, hidentifier, hspans'⟩ := isTreeOf_ofPlan hs hn
  refine (spans_build hends _).unique hspans' ?_ ?_
  · rw [halias, aliasName_build]
  · rw [hidentifier, identifier_build]

/-- **One node for the root and one for each join**, with their aliases and identifiers. -/
theorem IsTreeOf.perm_nodes (h : tree.IsTreeOf p) (hs : p.joins.StartsIn [p.rootAlias])
    (hn : (p.rootAlias :: p.joins.aliases).Nodup) :
    (tree.nodes.map fun n => (n.aliasName, n.identifier)).Perm
      ((p.rootAlias, p.rootIdentifier) :: p.joins.map fun j => (j.aliasName, j.identifier)) := by
  have haliases := h.spans.perm_aliasesFrom
  rw [h.aliasName] at haliases
  have hperm := JoinPlan.perm_aliases hs hn haliases
  -- the pairs of the nodes are different, as many as those of the joins, and among them
  have hnodup : (tree.nodes.map fun n => (n.aliasName, n.identifier)).Nodup := by
    refine List.Nodup.of_map Prod.fst ?_
    rw [List.map_map]
    exact hperm.nodup_iff.mpr hn
  have hsubset : (tree.nodes.map fun n => (n.aliasName, n.identifier)) ⊆
      (p.rootAlias, p.rootIdentifier) :: p.joins.map fun j => (j.aliasName, j.identifier) := by
    intro pair hpair
    obtain ⟨n, hn, rfl⟩ := List.mem_map.mp hpair
    rcases List.mem_cons.mp ((perm_children tree).mem_iff.mp hn) with rfl | hchild
    · rw [h.aliasName, h.identifier]
      exact List.mem_cons_self
    · obtain ⟨m, hm, hchild⟩ := List.mem_flatMap.mp hchild
      obtain ⟨c, hc, rfl⟩ := List.mem_map.mp hchild
      obtain ⟨j, hj, halias, hidentifier⟩ := (h.spans.of_mem_nodes m hm).exists_join hc
      rw [halias, hidentifier]
      exact List.mem_cons_of_mem _ (List.mem_map_of_mem hj)
  refine (List.subperm_of_subset hnodup hsubset).perm_of_length_le (Nat.le_of_eq ?_)
  simpa [JoinPlan.aliases] using hperm.length_eq.symm

theorem IsTreeOf.exists_node (h : tree.IsTreeOf p) (hs : p.joins.StartsIn [p.rootAlias])
    (hn : (p.rootAlias :: p.joins.aliases).Nodup) {a : String}
    (ha : a ∈ p.rootAlias :: p.joins.aliases) : ∃ n ∈ tree.nodes, n.aliasName = a := by
  have hperm := (h.perm_nodes hs hn).map Prod.fst
  rw [List.map_map, List.map_cons, List.map_map] at hperm
  exact List.mem_map.mp (hperm.mem_iff.mpr ha)

end RecordTree

end TableQuery
