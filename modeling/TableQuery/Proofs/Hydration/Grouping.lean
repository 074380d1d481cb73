import Mathlib.Data.List.Basic

/-! # Groups of items

Items are grouped by a relation: the first item with all items that it is related to, and then the
groups of the rest. One more item at the end goes to the first group whose first item is related to
it, or starts a group (`groupsBy_concat`). -/

namespace TableQuery

variable {α : Type} {eq : α → α → Bool}

/-- The items in groups, in the order of their first items. -/
def groupsBy (eq : α → α → Bool) : List α → List (List α)
  | [] => []
  | x :: xs => (x :: xs.filter (eq x)) :: groupsBy eq (xs.filter fun y => !eq x y)
termination_by xs => xs.length
decreasing_by
  simp only [List.unattach_filter, List.unattach_attach, List.length_cons]
  exact Nat.lt_succ_of_le (List.length_filter_le _ _)

/-- Induction along the groups: a list with its first item is as good as the rest without what that
item is related to. -/
@[elab_as_elim]
theorem groupsBy_induction (eq : α → α → Bool) {P : List α → Prop} (nil : P [])
    (cons : ∀ x xs, P (xs.filter fun y => !eq x y) → P (x :: xs)) (xs : List α) : P xs := by
  induction xs using groupsBy.induct eq with
  | case1 => exact nil
  | case2 x xs ih =>
    refine cons x xs ?_
    simpa only [List.unattach_filter, List.unattach_attach] using ih

/-- Puts an item into the first group whose first item is related to it, or into a new group at the
end. -/
def place (eq : α → α → Bool) (x : α) : List (List α) → List (List α)
  | [] => [[x]]
  | g :: gs => if g.head?.any fun y => eq y x then (g ++ [x]) :: gs else g :: place eq x gs

theorem groupsBy_concat (x : α) (xs : List α) :
    groupsBy eq (xs ++ [x]) = place eq x (groupsBy eq xs) := by
  induction xs using groupsBy_induction eq with
  | nil => simp [groupsBy, place]
  | cons y xs ih =>
    rw [List.cons_append, groupsBy, groupsBy, place, List.filter_append, List.filter_append]
    cases h : eq y x
    · simpa [h] using ih
    · simp [h]

theorem ne_nil_of_mem_groupsBy {xs g : List α} (h : g ∈ groupsBy eq xs) : g ≠ [] := by
  induction xs using groupsBy_induction eq with
  | nil => simp [groupsBy] at h
  | cons x xs ih =>
    rw [groupsBy, List.mem_cons] at h
    rcases h with rfl | h
    · simp
    · exact ih h

end TableQuery
