import Mathlib.Data.Finset.Card
import Mathlib.Logic.Relation
import TableQuery.Hydration
import TableQuery.Proofs.Plan.Joins

/-! # The tree of the joins

The tree of a plan has the root table at its root, and below each table the tables joined to it, all
of them and in the order of the joins. Building it comes to an end if there is no endless chain of
aliases from the root, in which each alias is that of a join from the one before (`Plan.Ends`).
That is what is tested before the tree is built (`Plan.hasTree_iff`), and then the fuel is enough,
because the aliases that are still below become fewer with each level
(`JoinPlan.endsWithin_of_acc`, `RecordTree.isTreeOf_of_ends`).

There is an end if the aliases are different, since each join starts from the root or from an
earlier join (`Plan.ends_of_nodup`). There is none if a join has the alias of the root
(`Plan.not_ends_of_mem`). -/

namespace TableQuery

namespace JoinPlan

theorem StartsIn.left {known : List String} : ∀ {xs ys : JoinPlan},
    StartsIn known (xs ++ ys) → StartsIn known xs
  | [], _, _ => trivial
  | _ :: _, _, h => ⟨h.1, StartsIn.left h.2⟩

theorem StartsIn.parent_mem {known : List String} : ∀ {joins : JoinPlan}, StartsIn known joins →
    ∀ j ∈ joins, j.parent ∈ known ++ joins.aliases
  | i :: joins, h, j, hj => by
    rcases List.mem_cons.mp hj with rfl | hj
    · exact List.mem_append_left _ h.1
    · simpa [aliases] using StartsIn.parent_mem h.2 j hj

/-- No join starts from its own table or from the table of a later join. -/
theorem StartsIn.parent_ne {root : String} {xs ys : JoinPlan} {z : PlannedJoin}
    (h : StartsIn [root] (xs ++ z :: ys)) (hn : (root :: aliases (xs ++ z :: ys)).Nodup) :
    ∀ j ∈ xs ++ [z], j.parent ≠ z.aliasName := by
  have hsplit : StartsIn [root] ((xs ++ [z]) ++ ys) := by
    rwa [List.append_assoc, List.singleton_append]
  obtain ⟨hx, hz⟩ := startsIn_concat.mp hsplit.left
  have hnot : z.aliasName ∉ [root] ++ aliases xs := by
    simp only [aliases, List.map_append, List.map_cons] at hn ⊢
    rw [← List.cons_append, List.nodup_append] at hn
    exact fun hmem => hn.2.2 _ hmem _ (by simp) rfl
  intro j hj he
  rcases List.mem_append.mp hj with hj | hj
  · exact hnot (he ▸ hx.parent_mem j hj)
  · rw [List.mem_singleton.mp hj] at he
    exact hnot (he ▸ hz)

/-! ### Aliases below aliases -/

/-- The aliases of the joins that start from an alias. -/
def aliasesFrom (joins : JoinPlan) (a : String) : List String :=
  (joins.filter fun j => j.parent == a).map PlannedJoin.aliasName

/-- The tree below an alias is built from the tree below another one. -/
def Needs (joins : JoinPlan) (b a : String) : Prop := b ∈ joins.aliasesFrom a

variable {joins : JoinPlan}

theorem mem_aliasesFrom {a b : String} :
    b ∈ joins.aliasesFrom a ↔ ∃ j ∈ joins, j.parent = a ∧ j.aliasName = b := by
  simp [aliasesFrom, and_assoc]

theorem endsWithin_succ {levels : Nat} {a : String} : joins.endsWithin (levels + 1) a = true ↔
    ∀ b, joins.Needs b a → joins.endsWithin levels b = true := by
  simp only [endsWithin, List.all_eq_true, Needs, mem_aliasesFrom, List.mem_filter, beq_iff_eq]
  constructor
  · rintro h b ⟨j, hj, hparent, rfl⟩
    exact h j ⟨hj, hparent⟩
  · rintro h j ⟨hj, hparent⟩
    exact h j.aliasName ⟨j, hj, hparent, rfl⟩

theorem acc_of_endsWithin {levels : Nat} : ∀ {a : String}, joins.endsWithin levels a = true →
    Acc joins.Needs a := by
  induction levels with
  | zero => exact fun h => nomatch h
  | succ levels ih => exact fun h => .intro _ fun b hb => ih (endsWithin_succ.mp h b hb)

/-- Where the chains end, no alias is below itself. -/
theorem not_below_self {a : String} (ha : Acc joins.Needs a) :
    ¬ Relation.TransGen joins.Needs a a := by
  induction ha with
  | intro a _ ih =>
    intro h
    obtain ⟨b, hab, hba⟩ := Relation.TransGen.tail'_iff.mp h
    exact ih b hba (.head' hba hab)

open Classical in
/-- The aliases at or below an alias from which joins start. -/
noncomputable def parentsBelow (joins : JoinPlan) (a : String) : Finset String :=
  (joins.map PlannedJoin.parent).toFinset.filter (Relation.ReflTransGen joins.Needs · a)

theorem mem_parentsBelow {a x : String} : x ∈ joins.parentsBelow a ↔
    x ∈ (joins.map PlannedJoin.parent).toFinset ∧ Relation.ReflTransGen joins.Needs x a := by
  simp only [parentsBelow, Finset.mem_filter]

theorem card_parentsBelow_le (joins : JoinPlan) (a : String) :
    (joins.parentsBelow a).card ≤ joins.length := by
  calc (joins.parentsBelow a).card ≤ (joins.map PlannedJoin.parent).toFinset.card :=
        Finset.card_le_card fun _ hx => (mem_parentsBelow.mp hx).1
    _ ≤ (joins.map PlannedJoin.parent).length := List.toFinset_card_le _
    _ = joins.length := List.length_map _

/-- Below the next alias, one that is not below itself is no longer to be found. -/
theorem card_parentsBelow_lt {a b : String} (ha : ¬ Relation.TransGen joins.Needs a a)
    (hb : joins.Needs b a) :
    (joins.parentsBelow b).card < (joins.parentsBelow a).card := by
  refine Finset.card_lt_card (Finset.ssubset_iff_of_subset ?_ |>.mpr ⟨a, ?_, ?_⟩)
  · intro x hx
    obtain ⟨hparent, hbelow⟩ := mem_parentsBelow.mp hx
    exact mem_parentsBelow.mpr ⟨hparent, hbelow.tail hb⟩
  · obtain ⟨j, hj, hparent, -⟩ := mem_aliasesFrom.mp hb
    exact mem_parentsBelow.mpr ⟨List.mem_toFinset.mpr (List.mem_map.mpr ⟨j, hj, hparent⟩), .refl⟩
  · exact fun hmem => ha (.tail' (mem_parentsBelow.mp hmem).2 hb)

/-- **As many levels as there are joins are enough** to see that the chains end, since each level
takes a parent away. -/
theorem endsWithin_of_acyclic {a : String}
    (ha : ∀ b, Relation.ReflTransGen joins.Needs b a → ¬ Relation.TransGen joins.Needs b b)
    {fuel : Nat} (hfuel : joins.length ≤ fuel) : joins.endsWithin (fuel + 1) a = true := by
  have hparents : (joins.parentsBelow a).card < fuel + 1 :=
    Nat.lt_succ_of_le ((joins.card_parentsBelow_le a).trans hfuel)
  clear hfuel
  generalize fuel + 1 = levels at hparents ⊢
  induction levels generalizing a with
  | zero => exact absurd hparents (Nat.not_lt_zero _)
  | succ levels ih =>
    refine endsWithin_succ.mpr fun b hb => ih (fun c hc => ha c (hc.tail hb)) ?_
    have hfewer := card_parentsBelow_lt (ha a .refl) hb
    omega

theorem endsWithin_of_acc {a : String} (ha : Acc joins.Needs a) {fuel : Nat}
    (hfuel : joins.length ≤ fuel) : joins.endsWithin (fuel + 1) a = true := by
  refine endsWithin_of_acyclic (fun b hb => not_below_self ?_) hfuel
  induction hb using Relation.ReflTransGen.head_induction_on with
  | refl => exact ha
  | head hb _ ih => exact ih.inv hb

/-- Below an alias from which no join up to some place starts, there are only the joins after that
place. -/
theorem acc_of_nodup {root : String} (hs : joins.StartsIn [root])
    (hn : (root :: joins.aliases).Nodup) (before after : JoinPlan) (a : String)
    (hjoins : joins = before ++ after) (hbefore : ∀ j ∈ before, j.parent ≠ a) :
    Acc joins.Needs a := by
  refine .intro _ fun b hb => ?_
  obtain ⟨j, hj, hparent, rfl⟩ := mem_aliasesFrom.mp hb
  have hafter : j ∈ after := by
    rw [hjoins, List.mem_append] at hj
    exact hj.resolve_left fun hb => hbefore j hb hparent
  obtain ⟨xs, ys, hxs⟩ := List.append_of_mem hafter
  have hfewer : ys.length < after.length := by
    rw [hxs, List.length_append, List.length_cons]
    omega
  have hsplit : joins = (before ++ xs) ++ j :: ys := by simp [hjoins, hxs]
  exact acc_of_nodup hs hn (before ++ xs ++ [j]) ys j.aliasName (by simp [hsplit])
    (StartsIn.parent_ne (hsplit ▸ hs) (hsplit ▸ hn))
termination_by after.length

theorem StartsIn.below {root : String} {known : List String} {later : JoinPlan}
    (hlater : later.StartsIn known) (hsub : later ⊆ joins)
    (hknown : ∀ a ∈ known, Relation.ReflTransGen joins.Needs a root) :
    ∀ j ∈ later, Relation.ReflTransGen joins.Needs j.parent root := by
  induction later generalizing known with
  | nil => exact fun _ h => nomatch h
  | cons j later ih =>
    obtain ⟨hj, hsub⟩ := List.cons_subset.mp hsub
    have hparent := hknown _ hlater.1
    have hself : joins.Needs j.aliasName j.parent := mem_aliasesFrom.mpr ⟨j, hj, rfl, rfl⟩
    refine List.forall_mem_cons.mpr ⟨hparent, ih hlater.2 hsub ?_⟩
    exact List.forall_mem_append.mpr ⟨hknown, List.forall_mem_singleton.mpr (.head hself hparent)⟩

end JoinPlan

namespace Plan

variable {p : Plan}

/-- The aliases below the root are no endless chain, so the tree of the plan has an end. -/
def Ends (p : Plan) : Prop := Acc p.joins.Needs p.rootAlias

/-- **The test finds out whether the tree has an end.** -/
theorem hasTree_iff : p.hasTree = true ↔ p.Ends :=
  ⟨JoinPlan.acc_of_endsWithin, fun h => JoinPlan.endsWithin_of_acc h (Nat.le_refl _)⟩

/-- There is an end if no table stands below itself. -/
theorem ends_of_acyclic (h : ∀ a, Relation.ReflTransGen p.joins.Needs a p.rootAlias →
    ¬ Relation.TransGen p.joins.Needs a a) : p.Ends :=
  JoinPlan.acc_of_endsWithin (JoinPlan.endsWithin_of_acyclic h (Nat.le_refl _))

/-- There is an end if the aliases are different. -/
theorem ends_of_nodup (hs : p.joins.StartsIn [p.rootAlias])
    (hn : (p.rootAlias :: p.joins.aliases).Nodup) : p.Ends :=
  JoinPlan.acc_of_nodup hs hn [] p.joins p.rootAlias rfl (by simp)

/-- There is no end if a join has the alias of the root. -/
theorem not_ends_of_mem (hs : p.joins.StartsIn [p.rootAlias])
    (h : p.rootAlias ∈ p.joins.aliases) : ¬ p.Ends := by
  intro hends
  obtain ⟨j, hj, hself⟩ := List.mem_map.mp h
  have hneeds : p.joins.Needs p.rootAlias j.parent :=
    JoinPlan.mem_aliasesFrom.mpr ⟨j, hj, rfl, hself⟩
  have hbelow : Relation.ReflTransGen p.joins.Needs j.parent p.rootAlias :=
    hs.below (List.Subset.refl _) (List.forall_mem_singleton.mpr .refl) j hj
  exact JoinPlan.not_below_self hends (.head' hneeds hbelow)

end Plan

namespace RecordTree

/-- The alias of a node. -/
def aliasName : RecordTree → String
  | .node aliasName _ _ _ => aliasName

/-- The selected fields of a node. -/
def fields : RecordTree → List String
  | .node _ _ fields _ => fields

/-- The tables joined to a node. -/
def children : RecordTree → List (Link × RecordTree)
  | .node _ _ _ children => children

/-- Below each table stand the tables joined to it, in order and with their selected fields. -/
inductive Spans (joins : JoinPlan) (selection : Selection) : RecordTree → Prop
  | node {aliasName identifier : String} {children : List (Link × RecordTree)}
    (joined : children.map (fun c => (c.1, c.2.aliasName, c.2.identifier)) =
      (joins.filter fun j => j.parent == aliasName).map fun j =>
        (⟨j.relationship, j.isToMany⟩, j.aliasName, j.identifier))
    (below : ∀ c ∈ children, Spans joins selection c.2) :
    Spans joins selection
      (.node aliasName identifier ((selection.fieldsOf? aliasName).getD []) children)

namespace Spans

variable {joins : JoinPlan} {selection : Selection} {tree : RecordTree}

theorem fields_eq (h : tree.Spans joins selection) :
    tree.fields = (selection.fieldsOf? tree.aliasName).getD [] := by
  cases h
  rfl

theorem map_children (h : tree.Spans joins selection) :
    tree.children.map (fun c => (c.1, c.2.aliasName, c.2.identifier)) =
      (joins.filter fun j => j.parent == tree.aliasName).map fun j =>
        (⟨j.relationship, j.isToMany⟩, j.aliasName, j.identifier) := by
  cases h with
  | node joined _ => exact joined

/-- The relationships of a node are those of the joins that start from it. -/
theorem relationships_eq (h : tree.Spans joins selection) :
    tree.children.map (fun c => c.1.relationship) =
      (joins.filter fun j => j.parent == tree.aliasName).map PlannedJoin.relationship := by
  have hmap := congrArg (List.map fun c : Link × String × String => c.1.relationship) h.map_children
  rw [List.map_map, List.map_map] at hmap
  exact hmap

theorem exists_join (h : tree.Spans joins selection) {c : Link × RecordTree}
    (hc : c ∈ tree.children) :
    ∃ j ∈ joins, c.2.aliasName = j.aliasName ∧ c.2.identifier = j.identifier := by
  have hmem := List.mem_map_of_mem (f := fun c : Link × RecordTree =>
    (c.1, c.2.aliasName, c.2.identifier)) hc
  rw [h.map_children, List.mem_map] at hmem
  obtain ⟨j, hj, he⟩ := hmem
  simp only [Prod.mk.injEq] at he
  exact ⟨j, List.mem_of_mem_filter hj, he.2.1.symm, he.2.2.symm⟩

end Spans

/-- The tree of all joins of a plan. -/
structure IsTreeOf (p : Plan) (tree : RecordTree) : Prop where
  aliasName : tree.aliasName = p.rootAlias
  identifier : tree.identifier = p.rootIdentifier
  spans : tree.Spans p.joins p.selection

theorem aliasName_build (joins : JoinPlan) (selection : Selection) (fuel : Nat)
    (a identifier : String) : (build joins selection fuel a identifier).aliasName = a := by
  cases fuel <;> rfl

theorem identifier_build (joins : JoinPlan) (selection : Selection) (fuel : Nat)
    (a identifier : String) :
    (build joins selection fuel a identifier).identifier = identifier := by
  cases fuel <;> rfl

/-- Fuel for all levels but the last is enough. -/
theorem spans_build {joins : JoinPlan} {selection : Selection} : ∀ {fuel : Nat} {a : String},
    joins.endsWithin (fuel + 1) a = true → ∀ identifier : String,
      (build joins selection fuel a identifier).Spans joins selection
  | 0, a, h, identifier => by
    have hnone : (joins.filter fun j => j.parent == a) = [] := by
      refine List.eq_nil_iff_forall_not_mem.mpr fun j hj => ?_
      obtain ⟨hj, hparent⟩ := List.mem_filter.mp hj
      have hneeds := JoinPlan.mem_aliasesFrom.mpr ⟨j, hj, by simpa using hparent, rfl⟩
      exact nomatch JoinPlan.endsWithin_succ.mp h _ hneeds
    exact .node (by rw [hnone]; rfl) (by simp)
  | fuel + 1, a, h, identifier => by
    refine .node ?_ fun c hc => ?_
    · simp only [List.map_map]
      refine List.map_congr_left fun j _ => ?_
      simp only [Function.comp, aliasName_build, identifier_build]
    · obtain ⟨j, hj, rfl⟩ := List.mem_map.mp hc
      obtain ⟨hj, hparent⟩ := List.mem_filter.mp hj
      have hneeds := JoinPlan.mem_aliasesFrom.mpr ⟨j, hj, by simpa using hparent, rfl⟩
      exact spans_build (JoinPlan.endsWithin_succ.mp h _ hneeds) j.identifier

variable {p : Plan}

/-- **A tree that has an end has all joins of its plan.** -/
theorem isTreeOf_of_ends (h : p.Ends) : (ofPlan p).IsTreeOf p :=
  ⟨aliasName_build _ _ _ _ _, identifier_build _ _ _ _ _, spans_build (Plan.hasTree_iff.mpr h) _⟩

theorem isTreeOf_ofPlan (hs : p.joins.StartsIn [p.rootAlias])
    (hn : (p.rootAlias :: p.joins.aliases).Nodup) : (ofPlan p).IsTreeOf p :=
  isTreeOf_of_ends (Plan.ends_of_nodup hs hn)

end RecordTree

end TableQuery
