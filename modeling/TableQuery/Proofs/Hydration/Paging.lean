import TableQuery.Proofs.Hydration.Nested
import TableQuery.Proofs.Plan.Queries
import Mathlib.Data.Finset.Card

/-! # Pages of nested records

The window of a page cuts the flat rows of a query, and records are formed from what it keeps. There
is one record for each key among the rows (`Plan.length_hydrate`), so a record whose rows fall into
two pages is formed twice, each time from a part of its rows.

The pages of some rows, one after the other, are these rows (`flatten_pageRows`), and a row stands
on the page that its index says (`mem_pageRows_iff`). Joined together, the records of some parts of
the rows are the records of all rows exactly if no key is in two parts (`Plan.flatMap_hydrate_iff`).
For pages, this is to say that all rows of a record stand on one page
(`Planned.flatMap_pages_eq_iff`). -/

namespace TableQuery

/-! ### Windows -/

section Windows
variable {α : Type} {rows : List α} {length : Nat}

/-- The rows that the window of a query keeps. -/
def Query.kept (q : Query) (rows : List α) : List α :=
  match q.limit with
  | some count => (rows.drop (q.offset.getD 0)).take count
  | none => rows.drop (q.offset.getD 0)

/-- A page of some rows. -/
def pageRows (length : Nat) (rows : List α) (index : Nat) : List α :=
  (rows.drop (index * length)).take length

/-- **The pages of some rows are the rows.** -/
theorem flatten_pageRows {count : Nat} (h : rows.length ≤ count * length) :
    ((List.range count).map (pageRows length rows)).flatten = rows := by
  have htake : ∀ n,
      ((List.range n).map (pageRows length rows)).flatten = rows.take (n * length) := by
    intro n
    induction n with
    | zero => simp
    | succ n ih => rw [List.range_succ, List.map_append, List.flatten_append, ih, Nat.succ_mul,
        List.take_add, List.map_singleton, List.flatten_singleton, pageRows]
  rw [htake, List.take_of_length_le h]

theorem mem_pageRows_iff (hlength : 0 < length) {index : Nat} {row : α} :
    row ∈ pageRows length rows index ↔
      ∃ i, ∃ h : i < rows.length, i / length = index ∧ rows[i] = row := by
  simp only [pageRows, List.mem_iff_getElem, List.getElem_take, List.getElem_drop, List.length_take,
    List.length_drop]
  constructor
  · rintro ⟨k, hk, rfl⟩
    refine ⟨index * length + k, by omega, ?_, rfl⟩
    rw [Nat.mul_comm, Nat.mul_add_div hlength, Nat.div_eq_of_lt (by omega), Nat.add_zero]
  · rintro ⟨i, hi, rfl, rfl⟩
    have hdiv := Nat.div_add_mod' i length
    have hmod := Nat.mod_lt i hlength
    exact ⟨i % length, by omega, by simp only [hdiv]⟩

end Windows

/-! ### Records of more rows -/

namespace Records

/-- The keys of some records. -/
def keys (records : Records) : List String := records.map Prod.fst

variable {key : String} {change : Record → Record} {fresh : Record}

theorem keys_upsert (records : Records) : keys (upsert key change fresh records) =
    if key ∈ keys records then keys records else keys records ++ [key] := by
  induction records with
  | nil => rfl
  | cons entry records ih =>
    obtain ⟨k, r⟩ := entry
    unfold upsert
    split_ifs with hk hmem hmem
    · rfl
    · exact absurd (hk ▸ List.mem_cons_self) hmem
    · have hrest : key ∈ keys records := (List.mem_cons.mp hmem).resolve_left (Ne.symm hk)
      rw [if_pos hrest] at ih
      exact congrArg (k :: ·) ih
    · have hrest : key ∉ keys records := fun h => hmem (List.mem_cons_of_mem _ h)
      rw [if_neg hrest] at ih
      exact congrArg (k :: ·) ih

theorem upsert_append {before : Records} (h : key ∉ keys before) (records : Records) :
    upsert key change fresh (before ++ records) = before ++ upsert key change fresh records := by
  induction before with
  | nil => rfl
  | cons entry before ih =>
    obtain ⟨k, r⟩ := entry
    have hk : k ≠ key := fun hk => h (hk ▸ List.mem_cons_self)
    rw [List.cons_append, upsert, if_neg hk, ih fun hmem => h (List.mem_cons_of_mem _ hmem)]
    rfl

end Records

namespace RecordTree

variable (tree : RecordTree) (labels : List String)

/-- The key of a row. -/
def key (row : Record) : String := (tree.id row).text

theorem keys_addRow (records : Records) (row : Record) :
    (tree.addRow labels records row).keys =
      if tree.key row ∈ records.keys then records.keys else records.keys ++ [tree.key row] :=
  Records.keys_upsert records

theorem foldl_addRow_append {before : Records} {rows : List Record}
    (h : ∀ row ∈ rows, tree.key row ∉ before.keys) (records : Records) :
    rows.foldl (tree.addRow labels) (before ++ records) =
      before ++ rows.foldl (tree.addRow labels) records := by
  induction rows generalizing records with
  | nil => rfl
  | cons row rows ih =>
    have hadd : tree.addRow labels (before ++ records) row =
        before ++ tree.addRow labels records row :=
      Records.upsert_append (h row List.mem_cons_self) records
    rw [List.foldl_cons, List.foldl_cons, hadd]
    exact ih (fun r hr => h r (List.mem_cons_of_mem _ hr)) _

theorem mem_keys_foldl_addRow {rows : List Record} {records : Records} {k : String} :
    k ∈ (rows.foldl (tree.addRow labels) records).keys ↔
      k ∈ records.keys ∨ k ∈ rows.map tree.key := by
  induction rows generalizing records with
  | nil => simp
  | cons row rows ih =>
    rw [List.foldl_cons, ih, keys_addRow, List.map_cons, List.mem_cons]
    split_ifs with hmem
    · constructor
      · rintro (h | h)
        · exact .inl h
        · exact .inr (.inr h)
      · rintro (h | rfl | h)
        · exact .inl h
        · exact .inl hmem
        · exact .inr h
    · rw [List.mem_append, List.mem_singleton, or_assoc]

theorem nodup_keys_foldl_addRow (rows : List Record) {records : Records}
    (h : records.keys.Nodup) : (rows.foldl (tree.addRow labels) records).keys.Nodup := by
  induction rows generalizing records with
  | nil => exact h
  | cons row rows ih =>
    refine ih ?_
    rw [keys_addRow]
    split_ifs with hmem
    · exact h
    · rw [← List.concat_eq_append]
      exact h.concat hmem

end RecordTree

/-! ### Records of parts of the rows -/

namespace Plan

variable (p : Plan)

/-- The records of some rows with their keys. -/
def keyed (rows : List Record) : Records :=
  rows.foldl ((RecordTree.ofPlan p).addRow p.selection.rawAliases) []

/-- The keys of some rows. -/
def keys (rows : List Record) : Finset String := (rows.map (RecordTree.ofPlan p).key).toFinset

theorem mem_keys_keyed {rows : List Record} {k : String} :
    k ∈ (p.keyed rows).keys ↔ k ∈ p.keys rows := by
  rw [keyed, RecordTree.mem_keys_foldl_addRow, keys, List.mem_toFinset]
  exact or_iff_right List.not_mem_nil

/-- **There is one record for each key among the rows.** -/
theorem length_hydrate (rows : List Record) : (p.hydrate rows).length = (p.keys rows).card := by
  have hnodup : (p.keyed rows).keys.Nodup :=
    (RecordTree.ofPlan p).nodup_keys_foldl_addRow p.selection.rawAliases rows List.nodup_nil
  have hkeys : (p.keyed rows).keys.toFinset = p.keys rows := by
    ext k
    rw [List.mem_toFinset, mem_keys_keyed]
  rw [← hkeys, List.toFinset_card_of_nodup hnodup, Records.keys, List.length_map]
  exact List.length_map _

theorem keys_append (xs ys : List Record) : p.keys (xs ++ ys) = p.keys xs ∪ p.keys ys := by
  rw [keys, List.map_append, List.toFinset_append]
  rfl

theorem mem_keys_flatten {parts : List (List Record)} {k : String} :
    k ∈ p.keys parts.flatten ↔ ∃ rows ∈ parts, k ∈ p.keys rows := by
  induction parts with
  | nil => simp [keys]
  | cons xs parts ih =>
    rw [List.flatten_cons, keys_append, Finset.mem_union, ih, List.exists_mem_cons_iff]

/-- No row of one part has the key of a row of the other. -/
def Apart (xs ys : List Record) : Prop := Disjoint (p.keys xs) (p.keys ys)

theorem apart_flatten_iff {xs : List Record} {parts : List (List Record)} :
    p.Apart xs parts.flatten ↔ ∀ ys ∈ parts, p.Apart xs ys := by
  simp only [Apart, Finset.disjoint_left, mem_keys_flatten]
  constructor
  · exact fun h ys hys k hk hmem => h hk ⟨ys, hys, hmem⟩
  · rintro h k hk ⟨ys, hys, hmem⟩
    exact h ys hys hk hmem

variable {p}

/-- **Parts that are apart have the records of each.** -/
theorem Apart.hydrate_append {xs ys : List Record} (h : p.Apart xs ys) :
    p.hydrate (xs ++ ys) = p.hydrate xs ++ p.hydrate ys := by
  have hys : ∀ row ∈ ys, (RecordTree.ofPlan p).key row ∉ (p.keyed xs).keys := by
    intro row hrow hmem
    refine Finset.disjoint_left.mp h (p.mem_keys_keyed.mp hmem) ?_
    exact List.mem_toFinset.mpr (List.mem_map_of_mem hrow)
  have happend : p.keyed (xs ++ ys) = p.keyed xs ++ p.keyed ys := by
    have hfold := (RecordTree.ofPlan p).foldl_addRow_append p.selection.rawAliases hys []
    rw [List.append_nil] at hfold
    rw [keyed, List.foldl_append]
    exact hfold
  exact (congrArg (List.map Prod.snd) happend).trans List.map_append

/-- The parts of some rows have at least as many records as all of them, and no more than these only
if the parts are apart. -/
theorem length_flatMap_hydrate (parts : List (List Record)) :
    (p.hydrate parts.flatten).length ≤ (parts.flatMap p.hydrate).length ∧
      ((parts.flatMap p.hydrate).length = (p.hydrate parts.flatten).length →
        parts.Pairwise p.Apart) := by
  induction parts with
  | nil => exact ⟨Nat.le_refl _, fun _ => .nil⟩
  | cons xs parts ih =>
    obtain ⟨hle, hpairwise⟩ := ih
    have hunion := Finset.card_union_le (p.keys xs) (p.keys parts.flatten)
    rw [List.flatten_cons, List.flatMap_cons, List.length_append, p.length_hydrate (xs ++ _),
      keys_append, p.length_hydrate xs]
    rw [p.length_hydrate] at hle hpairwise
    refine ⟨by omega, fun heq => List.pairwise_cons.mpr ⟨?_, hpairwise (by omega)⟩⟩
    rw [← apart_flatten_iff]
    exact Finset.card_union_eq_card_add_card.mp (by omega)

/-- **The records of the parts are the records of all rows exactly if the parts are apart.** -/
theorem flatMap_hydrate_iff {parts : List (List Record)} :
    parts.flatMap p.hydrate = p.hydrate parts.flatten ↔ parts.Pairwise p.Apart := by
  refine ⟨fun h => (length_flatMap_hydrate parts).2 (congrArg List.length h), fun h => ?_⟩
  induction h with
  | nil => rfl
  | cons hxs _ ih =>
    rw [List.flatMap_cons, ih, List.flatten_cons, ((p.apart_flatten_iff).mpr hxs).hydrate_append]

theorem mem_keys_pageRows {rows : List Record} {length index : Nat} (hlength : 0 < length)
    {k : String} : k ∈ p.keys (pageRows length rows index) ↔ ∃ i, ∃ h : i < rows.length,
      i / length = index ∧ (RecordTree.ofPlan p).key rows[i] = k := by
  simp only [keys, List.mem_toFinset, List.mem_map, mem_pageRows_iff hlength]
  constructor
  · rintro ⟨_, ⟨i, hi, hindex, rfl⟩, hk⟩
    exact ⟨i, hi, hindex, hk⟩
  · rintro ⟨i, hi, hindex, hk⟩
    exact ⟨rows[i], ⟨i, hi, hindex, rfl⟩, hk⟩

/-- **Pages are apart exactly if rows with the same key stand on the same page.** -/
theorem pairwise_apart_iff {rows : List Record} {length count : Nat} (hlength : 0 < length)
    (hcount : rows.length ≤ count * length) :
    ((List.range count).map (pageRows length rows)).Pairwise p.Apart ↔
      ∀ i j (hi : i < rows.length) (hj : j < rows.length),
        (RecordTree.ofPlan p).sameKey rows[i] rows[j] = true → i / length = j / length := by
  have hcover : ∀ i < rows.length, i / length < count := fun i hi =>
    Nat.div_lt_of_lt_mul (by rw [Nat.mul_comm]; omega)
  rw [List.pairwise_map, List.pairwise_iff_getElem]
  simp only [List.getElem_range, List.length_range, Apart, Finset.disjoint_left,
    mem_keys_pageRows hlength]
  constructor
  · intro h i j hi hj hkey
    have hkey : (RecordTree.ofPlan p).key rows[i] = (RecordTree.ofPlan p).key rows[j] :=
      beq_iff_eq.mp hkey
    rcases Nat.lt_trichotomy (i / length) (j / length) with hlt | heq | hgt
    · exact absurd ⟨j, hj, rfl, hkey.symm⟩
        (h _ _ (hcover i hi) (hcover j hj) hlt ⟨i, hi, rfl, rfl⟩)
    · exact heq
    · exact absurd ⟨i, hi, rfl, hkey⟩
        (h _ _ (hcover j hj) (hcover i hi) hgt ⟨j, hj, rfl, rfl⟩)
  · rintro h a b - - hab k ⟨i, hi, rfl, hik⟩ ⟨j, hj, rfl, hjk⟩
    have hsame := h i j hi hj (beq_iff_eq.mpr (hik.trans hjk.symm))
    omega

end Plan

/-! ### Pages of a request -/

namespace Planned

/-- The plan of the request without a window. -/
def withoutWindow (p : Planned) : Planned :=
  { p with request := { p.request with start := none, length := none } }

/-- The plan of the request for a page of some length. -/
def turnTo (p : Planned) (length index : Nat) : Planned :=
  { p with request := { p.request with
      start := some ((index * length : Nat) : Int), length := some (length : Int) } }

theorem pageQuery_turnTo {p : Planned} (hpaging : p.table.settings.hasPaging = true) (q : Query)
    (length index : Nat) : (p.turnTo length index).pageQuery q =
      ((p.withoutWindow.pageQuery q).withOffset (index * length)).withLimit length := by
  have hwindow : (p.turnTo length index).request.window = some (index * length, length) := by
    have hlength : ¬ (length : Int) = -1 := by omega
    simp only [Request.window, turnTo, if_neg hlength, Int.toNat_natCast]
  rw [pageQuery, addWindow, if_pos (show (p.turnTo length index).table.settings.hasPaging = true
    from hpaging), hwindow, pageQuery, addWindow, if_pos
    (show p.withoutWindow.table.settings.hasPaging = true from hpaging)]
  rfl

/-- **Pages give whole records exactly if no record stands on two of them.** Take the rows that the
page query gives without its window, and pages of some length that cover them. If the table has
pages, the query of each page is the one without a window but for its window, which keeps the page
of the rows. The records of the pages, one after the other, are the records of all rows if and only
if rows with the same root key stand on the same page. There are records at all if the tree of the
plan has an end (`Plan.hasTree`). -/
theorem flatMap_pages_eq_iff (p : Planned) (q : Query) (rows : List Record) {length count : Nat}
    (hlength : 0 < length) (hcount : rows.length ≤ count * length) :
    (p.table.settings.hasPaging = true → ∀ index, (p.turnTo length index).pageQuery q =
        ((p.withoutWindow.pageQuery q).withOffset (index * length)).withLimit length ∧
      ((p.turnTo length index).pageQuery q).kept rows = pageRows length rows index) ∧
    (((List.range count).flatMap fun index => p.plan.hydrate (pageRows length rows index)) =
        p.plan.hydrate rows ↔
      ∀ i j (hi : i < rows.length) (hj : j < rows.length),
        (RecordTree.ofPlan p.plan).sameKey rows[i] rows[j] = true → i / length = j / length) := by
  constructor
  · intro hpaging index
    rw [pageQuery_turnTo hpaging]
    exact ⟨rfl, rfl⟩
  · rw [← Plan.pairwise_apart_iff hlength hcount, ← Plan.flatMap_hydrate_iff,
      flatten_pageRows hcount, List.flatMap_map]

/-- A post with two comments, and a post without one. -/
def commentedRows : List Record :=
  [Plan.postRow (.int 1) (.int 7) (.int 10) (.int 8),
    Plan.postRow (.int 1) (.int 7) (.int 11) .null,
    Plan.postRow (.int 2) .null .null .null]

/-- In pages of two rows, both posts are whole. -/
theorem flatMap_pages_posts : ∃ p, (Planner.create Plan.posts { }).bind Planner.plan = .ok p ∧
    0 < 2 ∧ commentedRows.length ≤ 2 * 2 ∧
    ((List.range 2).flatMap fun index => p.plan.hydrate (pageRows 2 commentedRows index)) =
      p.plan.hydrate commentedRows := by
  obtain ⟨p, h, hkeys⟩ := Outcome.exists_ok (x := (Planner.create Plan.posts { }).bind Planner.plan)
    (p := fun p => decide (∀ i j : Fin commentedRows.length, (RecordTree.ofPlan p.plan).sameKey
      commentedRows[i] commentedRows[j] = true → i.val / 2 = j.val / 2)) (by decide +kernel)
  refine ⟨p, h, by decide, by decide, ?_⟩
  refine (flatMap_pages_eq_iff p p.base commentedRows (by decide) (by decide)).2.mpr ?_
  exact fun i j hi hj => of_decide_eq_true hkeys ⟨i, hi⟩ ⟨j, hj⟩

/-- In pages of one row, the post with two comments is served twice, each time with one of them. -/
theorem flatMap_pages_posts_ne : ∃ p, (Planner.create Plan.posts { }).bind Planner.plan = .ok p ∧
    p.table.settings.hasPaging = true ∧ 0 < 1 ∧ commentedRows.length ≤ 3 * 1 ∧
    ((List.range 3).flatMap fun index => p.plan.hydrate
      (((p.turnTo 1 index).pageQuery p.base).kept commentedRows)) ≠
        p.plan.hydrate commentedRows := by
  obtain ⟨p, h, hp⟩ := Outcome.exists_ok (x := (Planner.create Plan.posts { }).bind Planner.plan)
    (p := fun p => decide (p.table.settings.hasPaging = true ∧ ((List.range 3).flatMap fun index =>
        p.plan.hydrate (((p.turnTo 1 index).pageQuery p.base).kept commentedRows)).length = 3 ∧
      (p.plan.hydrate commentedRows).length = 2)) (by decide +kernel)
  obtain ⟨hpaging, hthree, htwo⟩ := of_decide_eq_true hp
  refine ⟨p, h, hpaging, by decide, by decide, fun heq => ?_⟩
  rw [heq, htwo] at hthree
  cases hthree

end Planned

end TableQuery
