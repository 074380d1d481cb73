import Mathlib.Data.List.Sort
import Mathlib.Data.String.Basic
import TableQuery.Keyed

/-! # Maps in key order

Insertion keeps the keys ascending, and a map with ascending keys is determined by its look-ups. So
a map of pairs with different keys does not depend on their order, and pairs that are given again
replace the old ones (`ofPairs_replace`). -/

namespace TableQuery.Keyed

variable {α : Type}

/-- The keys ascend. -/
def Ascending (m : Keyed α) : Prop := m.Pairwise fun a b => a.1 < b.1

theorem Ascending.insert {m : Keyed α} (h : m.Ascending) (k : String) (v : α) :
    (Keyed.insert k v m).Ascending := by
  induction m with
  | nil => exact List.pairwise_singleton _ _
  | cons entry rest ih =>
    obtain ⟨j, w⟩ := entry
    obtain ⟨hj, hrest⟩ := List.pairwise_cons.mp h
    simp only [Keyed.insert]
    split_ifs with h1 h2
    · refine List.pairwise_cons.mpr ⟨fun e he => ?_, h⟩
      rcases List.mem_cons.mp he with rfl | he
      · exact h1
      · exact lt_trans h1 (hj e he)
    · subst h2
      exact List.pairwise_cons.mpr ⟨hj, hrest⟩
    · have hlt : j < k := lt_of_le_of_ne (not_lt.mp h1) (Ne.symm h2)
      refine List.pairwise_cons.mpr ⟨fun e he => ?_, ih hrest⟩
      have hk : e.1 ∈ keys (Keyed.insert k v rest) := List.mem_map_of_mem he
      rcases (mem_keys_insert k e.1 v rest).mp hk with hk | hk
      · exact hk ▸ hlt
      · obtain ⟨e', he', hk⟩ := List.mem_map.mp hk
        exact hk ▸ hj e' he'

theorem Ascending.erase {m : Keyed α} (h : m.Ascending) (k : String) : (erase m k).Ascending :=
  List.Pairwise.filter _ h

theorem ascending_foldl_insert (pairs : List (String × α)) {m : Keyed α} (h : m.Ascending) :
    (pairs.foldl (fun m entry => insert entry.1 entry.2 m) m).Ascending := by
  induction pairs generalizing m with
  | nil => exact h
  | cons entry rest ih => exact ih (h.insert entry.1 entry.2)

theorem ascending_ofPairs (pairs : List (String × α)) : (ofPairs pairs).Ascending :=
  ascending_foldl_insert pairs List.Pairwise.nil

theorem get?_eq_none_of_lt {m : Keyed α} {k : String} (h : ∀ e ∈ m, k < e.1) : get? m k = none := by
  induction m with
  | nil => rfl
  | cons entry rest ih =>
    have hk : k ≠ entry.1 := ne_of_lt (h entry (by simp))
    rw [get?, if_neg hk]
    exact ih fun e he => h e (List.mem_cons_of_mem _ he)

theorem erase_of_get?_eq_none {m : Keyed α} {k : String} (h : get? m k = none) :
    erase m k = m := by
  induction m with
  | nil => rfl
  | cons entry rest ih =>
    obtain ⟨j, v⟩ := entry
    rw [get?] at h
    split_ifs at h with hk
    have hrest := ih h
    rw [erase] at hrest ⊢
    rw [List.filter_cons_of_pos (by simpa using Ne.symm hk), hrest]

theorem mem_of_get? {m : Keyed α} {k : String} {v : α} (h : get? m k = some v) : (k, v) ∈ m := by
  induction m with
  | nil => cases h
  | cons entry rest ih =>
    obtain ⟨j, w⟩ := entry
    rw [get?] at h
    split_ifs at h with hk
    · cases h
      rw [hk]
      exact List.mem_cons_self
    · exact List.mem_cons_of_mem _ (ih h)

/-- Every pair of a map with ascending keys is found. -/
theorem Ascending.get?_of_mem {m : Keyed α} (h : m.Ascending) {k : String} {v : α}
    (hmem : (k, v) ∈ m) : get? m k = some v := by
  induction m with
  | nil => simp at hmem
  | cons entry rest ih =>
    obtain ⟨hfirst, hrest⟩ := List.pairwise_cons.mp h
    rcases List.mem_cons.mp hmem with rfl | hmem
    · rw [get?, if_pos rfl]
    · rw [get?, if_neg (ne_of_gt (hfirst _ hmem))]
      exact ih hrest hmem

theorem mem_keys {m : Keyed α} {k : String} : k ∈ keys m ↔ (get? m k).isSome = true := by
  induction m with
  | nil => simp [keys, get?]
  | cons entry rest ih =>
    rw [get?, keys, List.map_cons, List.mem_cons]
    split_ifs with hk
    · simp [hk]
    · rw [← ih, keys]
      simp [hk]

theorem get?_map {β : Type} (f : String → α → β) (m : Keyed α) (k : String) :
    get? (m.map fun entry => (entry.1, f entry.1 entry.2)) k = (get? m k).map (f k) := by
  induction m with
  | nil => rfl
  | cons entry rest ih =>
    rw [List.map_cons, get?, get?]
    split_ifs with hk
    · rw [hk]
      rfl
    · exact ih

/-- **A map with ascending keys is determined by its look-ups.** -/
theorem Ascending.ext : ∀ {m n : Keyed α}, m.Ascending → n.Ascending →
    (∀ k, get? m k = get? n k) → m = n
  | [], [], _, _, _ => rfl
  | [], (k, v) :: n, _, _, h => by
    have := h k
    simp [get?] at this
  | (k, v) :: m, [], _, _, h => by
    have := h k
    simp [get?] at this
  | (k, v) :: m, (l, w) :: n, hm, hn, h => by
    obtain ⟨hk, hm'⟩ := List.pairwise_cons.mp hm
    obtain ⟨hl, hn'⟩ := List.pairwise_cons.mp hn
    -- the smaller of two first keys would be missing in the other map
    have hkl : k = l := by
      rcases lt_trichotomy k l with hlt | heq | hlt
      · have := h k
        rw [get?, if_pos rfl, get?_eq_none_of_lt (m := (l, w) :: n)] at this
        · cases this
        · intro e he
          rcases List.mem_cons.mp he with rfl | he
          · exact hlt
          · exact lt_trans hlt (hl e he)
      · exact heq
      · have := h l
        rw [get?_eq_none_of_lt (m := (k, v) :: m), get?, if_pos rfl] at this
        · cases this
        · intro e he
          rcases List.mem_cons.mp he with rfl | he
          · exact hlt
          · exact lt_trans hlt (hk e he)
    subst hkl
    have hvw : v = w := by
      have := h k
      simpa [get?] using this
    subst hvw
    have hrest : m = n := Ascending.ext hm' hn' fun j => by
      by_cases hj : j = k
      · subst hj
        rw [get?_eq_none_of_lt hk, get?_eq_none_of_lt hl]
      · have := h j
        rwa [get?, if_neg hj, get?, if_neg hj] at this
    rw [hrest]

/-! ### Look-ups in a map of pairs -/

theorem get?_foldl_insert_of_not_mem {pairs : List (String × α)} {k : String}
    (h : k ∉ pairs.map Prod.fst) (m : Keyed α) :
    get? (pairs.foldl (fun m entry => insert entry.1 entry.2 m) m) k = get? m k := by
  induction pairs generalizing m with
  | nil => rfl
  | cons entry rest ih =>
    simp only [List.map_cons, List.mem_cons, not_or] at h
    rw [List.foldl_cons, ih h.2, get?_insert, if_neg h.1]

theorem get?_foldl_insert_of_mem {pairs : List (String × α)} (hn : (pairs.map Prod.fst).Nodup)
    {k : String} {v : α} (h : (k, v) ∈ pairs) (m : Keyed α) :
    get? (pairs.foldl (fun m entry => insert entry.1 entry.2 m) m) k = some v := by
  induction pairs generalizing m with
  | nil => simp at h
  | cons entry rest ih =>
    rw [List.map_cons, List.nodup_cons] at hn
    rw [List.foldl_cons]
    rcases List.mem_cons.mp h with rfl | h
    · rw [get?_foldl_insert_of_not_mem hn.1, get?_insert, if_pos rfl]
    · exact ih hn.2 h _

theorem get?_ofPairs_of_mem {pairs : List (String × α)} (hn : (pairs.map Prod.fst).Nodup)
    {k : String} {v : α} (h : (k, v) ∈ pairs) : get? (ofPairs pairs) k = some v :=
  get?_foldl_insert_of_mem hn h []

theorem get?_ofPairs_of_not_mem {pairs : List (String × α)} {k : String}
    (h : k ∉ pairs.map Prod.fst) : get? (ofPairs pairs) k = none :=
  get?_foldl_insert_of_not_mem h []

theorem ofPairs_append (base pairs : List (String × α)) : ofPairs (base ++ pairs) =
    pairs.foldl (fun m entry => insert entry.1 entry.2 m) (ofPairs base) :=
  List.foldl_append

/-- **Pairs that are given again replace the old ones.** -/
theorem ofPairs_replace (base : List (String × α)) {old new : List (String × α)}
    (hk : old.map Prod.fst = new.map Prod.fst) (hn : (new.map Prod.fst).Nodup) :
    new.foldl (fun m entry => insert entry.1 entry.2 m) (ofPairs (base ++ old)) =
      ofPairs (base ++ new) := by
  rw [ofPairs_append base new]
  refine Ascending.ext (ascending_foldl_insert _ (ascending_ofPairs _))
    (ascending_foldl_insert _ (ascending_ofPairs _)) fun k => ?_
  by_cases h : k ∈ new.map Prod.fst
  · obtain ⟨entry, hmem, rfl⟩ := List.mem_map.mp h
    rw [get?_foldl_insert_of_mem hn hmem, get?_foldl_insert_of_mem hn hmem]
  · rw [get?_foldl_insert_of_not_mem h, get?_foldl_insert_of_not_mem h, ofPairs_append,
      get?_foldl_insert_of_not_mem (hk ▸ h)]

end TableQuery.Keyed
