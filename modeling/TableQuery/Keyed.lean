/-! # Association lists in key order

A finite map from texts is a list of pairs whose keys ascend, by code point. Insertion keeps the
order and replaces the value of a key that is there already. -/

namespace TableQuery

/-- A finite map from texts, as a list of pairs with ascending keys. -/
abbrev Keyed (α : Type) := List (String × α)

namespace Keyed

variable {α β : Type}

/-- The map with `v` as the value of `k`. -/
def insert (k : String) (v : α) : Keyed α → Keyed α
  | [] => [(k, v)]
  | (k', v') :: rest =>
    if k < k' then (k, v) :: (k', v') :: rest
    else if k = k' then (k, v) :: rest
    else (k', v') :: insert k v rest

/-- The value of a key. -/
def get? (m : Keyed α) (k : String) : Option α :=
  match m with
  | [] => none
  | (k', v) :: rest => if k = k' then some v else get? rest k

/-- The map without a key. -/
def erase (m : Keyed α) (k : String) : Keyed α := m.filter fun entry => entry.1 ≠ k

/-- The map with `v` as the value of `k` unless `k` has a value. -/
def insertNew (k : String) (v : α) (m : Keyed α) : Keyed α :=
  if (get? m k).isSome then m else insert k v m

/-- The keys in ascending order. -/
def keys (m : Keyed α) : List String := m.map Prod.fst

/-- The map of the pairs, where a later pair replaces an earlier one with its key. -/
def ofPairs (pairs : List (String × α)) : Keyed α :=
  pairs.foldl (fun m entry => insert entry.1 entry.2 m) []

/-- The map with every value changed. -/
def mapValues (f : α → β) (m : Keyed α) : Keyed β := m.map fun entry => (entry.1, f entry.2)

theorem get?_insert (k k' : String) (v : α) (m : Keyed α) :
    get? (insert k v m) k' = if k' = k then some v else get? m k' := by
  induction m with
  | nil => simp [insert, get?]
  | cons entry rest ih =>
    obtain ⟨j, w⟩ := entry
    simp only [insert]
    split
    · simp only [get?]
    · split
      · next h =>
        subst h
        simp only [get?]
        split <;> rfl
      · next h =>
        simp only [get?, ih]
        split
        · next h' =>
          subst h'
          rw [if_neg (fun h' => h h'.symm)]
        · rfl

theorem get?_erase (k k' : String) (m : Keyed α) :
    get? (erase m k) k' = if k' = k then none else get? m k' := by
  induction m with
  | nil => simp [erase, get?]
  | cons entry rest ih =>
    obtain ⟨j, w⟩ := entry
    by_cases h : j = k
    · subst h
      have he : erase ((j, w) :: rest) j = erase rest j := by simp [erase]
      rw [he, ih]
      simp only [get?]
      split <;> simp_all
    · have he : erase ((j, w) :: rest) k = (j, w) :: erase rest k := by simp [erase, h]
      rw [he]
      simp only [get?, ih]
      split
      · next h' => subst h'; simp [h]
      · rfl

theorem mem_keys_insert (k k' : String) (v : α) (m : Keyed α) :
    k' ∈ keys (insert k v m) ↔ k' = k ∨ k' ∈ keys m := by
  induction m with
  | nil => simp [insert, keys]
  | cons entry rest ih =>
    obtain ⟨j, w⟩ := entry
    simp only [keys] at ih
    simp only [insert]
    split
    · simp [keys]
    · split
      · next h =>
        subst h
        simp [keys]
      · simp only [keys, List.map_cons, List.mem_cons, ih]
        exact or_left_comm

theorem length_insert {k : String} {m : Keyed α} (h : k ∉ keys m) (v : α) :
    (insert k v m).length = m.length + 1 := by
  induction m with
  | nil => rfl
  | cons entry rest ih =>
    obtain ⟨j, w⟩ := entry
    simp only [keys, List.map_cons, List.mem_cons, not_or] at h
    simp only [insert]
    split
    · rfl
    · split
      · next hj => exact absurd hj h.1
      · simp [ih h.2]

/-- A map of pairs with different keys has all of them. -/
theorem length_ofPairs {pairs : List (String × α)} (h : (pairs.map Prod.fst).Nodup) :
    (ofPairs pairs).length = pairs.length := by
  have step : ∀ (pairs : List (String × α)) (m : Keyed α), (pairs.map Prod.fst).Nodup →
      (∀ k ∈ pairs.map Prod.fst, k ∉ keys m) →
      (pairs.foldl (fun m entry => insert entry.1 entry.2 m) m).length =
        m.length + pairs.length := by
    intro pairs
    induction pairs with
    | nil => intro m _ _; rfl
    | cons entry rest ih =>
      intro m hn hm
      rw [List.map_cons, List.nodup_cons] at hn
      have hk := hm entry.1 (by simp)
      rw [List.foldl_cons, ih _ hn.2, length_insert hk, List.length_cons]
      · omega
      · intro k hk' hins
        rcases (mem_keys_insert entry.1 k entry.2 m).mp hins with rfl | hmem
        · exact hn.1 hk'
        · exact hm k (by simp [hk']) hmem
  simpa [ofPairs] using step pairs [] h (by simp [keys])

end Keyed

end TableQuery
