import Mathlib.Data.List.Basic
import TableQuery.Proofs.Plan.Steps

/-! # The joins of a plan

Every join of a plan starts from the root table or from the table of an earlier join, and its
identifier is selected (`Table.sound_plan`). Each hop of a column keeps this, whether it plans a
join or finds it planned (`Walk.Sound.hop`), and so does each column (`JoinPlan.Sound.add`). What is
selected stays selected: a field comes as a new entry or as one more name in the entry of its table
(`Selection.addField_cases`). -/

namespace TableQuery

open Outcome

/-! ### Selected fields -/

namespace Selection

/-- The field of a table is selected. -/
def Selects (s : Selection) (aliasName field : String) : Prop :=
  ∃ names, s.fieldsOf? aliasName = some names ∧ field ∈ names

theorem mem_addName {names : List String} {name n : String} :
    n ∈ addName names name ↔ n = name ∨ n ∈ names := by
  unfold addName
  split_ifs with h
  · constructor
    · exact Or.inr
    · rintro (rfl | hn)
      · simpa using h
      · exact hn
  · rw [List.mem_append, List.mem_singleton, or_comm]

theorem fieldsOf?_cons_fields (a : String) (names : List String) (s : Selection) (b : String) :
    fieldsOf? (.fields a names :: s) b = if a = b then some names else s.fieldsOf? b := by
  simp only [fieldsOf?, List.findSome?_cons]
  split_ifs <;> rfl

theorem fieldsOf?_cons_raw (sql a : String) (s : Selection) (b : String) :
    fieldsOf? (.raw sql a :: s) b = s.fieldsOf? b := rfl

theorem fieldsOf?_append (s s' : Selection) (b : String) :
    (s ++ s').fieldsOf? b = (s.fieldsOf? b).or (s'.fieldsOf? b) :=
  List.findSome?_append

/-- **What selecting a field comes to**: a new entry at the end, or one more name in the first entry
of its table. -/
theorem addField_cases (s : Selection) (a field : String) :
    (s.fieldsOf? a = none ∧ s.addField a field = s ++ [.fields a [field]]) ∨
    ∃ (before : Selection) (names : List String) (after : Selection),
      s = before ++ .fields a names :: after ∧ before.fieldsOf? a = none ∧
      s.addField a field = before ++ .fields a (addName names field) :: after := by
  induction s with
  | nil => exact .inl ⟨rfl, rfl⟩
  | cons entry s ih =>
    by_cases hentry : ∃ names, entry = .fields a names
    · obtain ⟨names, rfl⟩ := hentry
      exact .inr ⟨[], names, s, rfl, rfl, by rw [addField, if_pos rfl, List.nil_append]⟩
    · have hadd : addField (entry :: s) a field = entry :: addField s a field := by
        cases entry with
        | raw sql b => rfl
        | fields b names => rw [addField, if_neg fun hb : b = a => hentry ⟨names, hb ▸ rfl⟩]
      have hcons : ∀ s' : Selection, fieldsOf? (entry :: s') a = s'.fieldsOf? a := by
        intro s'
        cases entry with
        | raw sql b => rfl
        | fields b names =>
          rw [fieldsOf?_cons_fields, if_neg fun hb : b = a => hentry ⟨names, hb ▸ rfl⟩]
      rw [hadd, hcons]
      obtain ⟨hnone, heq⟩ | ⟨before, names, after, rfl, hnone, heq⟩ := ih
      · exact .inl ⟨hnone, by rw [heq, List.cons_append]⟩
      · exact .inr ⟨entry :: before, names, after, rfl, by rwa [hcons], by
          rw [heq, List.cons_append]⟩

theorem fieldsOf?_addField (s : Selection) (a field b : String) :
    (s.addField a field).fieldsOf? b =
      if b = a then some ((s.fieldsOf? a).elim [field] fun names => addName names field)
      else s.fieldsOf? b := by
  have hentry : ∀ names (s : Selection), fieldsOf? (.fields a names :: s) b =
      if b = a then some names else s.fieldsOf? b := fun names s => by
    rw [fieldsOf?_cons_fields, if_congr eq_comm rfl rfl]
  obtain ⟨hnone, heq⟩ | ⟨before, names, after, rfl, hnone, heq⟩ := s.addField_cases a field
  · rw [heq, fieldsOf?_append, hentry, hnone]
    split_ifs with hb
    · rw [hb, hnone]
      rfl
    · exact Option.or_none
  · rw [heq, fieldsOf?_append, fieldsOf?_append, fieldsOf?_append, hentry, hentry, hnone]
    split_ifs with hb
    · rw [hb, hnone, fieldsOf?_cons_fields, if_pos rfl]
      rfl
    · rfl

theorem fieldsOf?_addRaw (s : Selection) (sql label b : String) :
    (s.addRaw sql label).fieldsOf? b = s.fieldsOf? b := by
  unfold addRaw
  split_ifs
  · rfl
  · rw [fieldsOf?, List.findSome?_append]
    simp [fieldsOf?]

theorem selects_addField (s : Selection) (a field : String) :
    (s.addField a field).Selects a field := by
  refine ⟨_, by rw [fieldsOf?_addField, if_pos rfl], ?_⟩
  cases s.fieldsOf? a with
  | none => simp
  | some names => exact mem_addName.mpr (Or.inl rfl)

theorem Selects.addField {s : Selection} {b name : String} (h : s.Selects b name)
    (a field : String) : (s.addField a field).Selects b name := by
  obtain ⟨names, hn, hmem⟩ := h
  by_cases hb : b = a
  · subst hb
    refine ⟨addName names field, ?_, mem_addName.mpr (Or.inr hmem)⟩
    rw [fieldsOf?_addField, if_pos rfl, hn]
    rfl
  · exact ⟨names, by rw [fieldsOf?_addField, if_neg hb, hn], hmem⟩

theorem Selects.addRaw {s : Selection} {b name : String} (h : s.Selects b name)
    (sql label : String) : (s.addRaw sql label).Selects b name := by
  obtain ⟨names, hn, hmem⟩ := h
  exact ⟨names, by rw [fieldsOf?_addRaw, hn], hmem⟩

end Selection

/-! ### Joins that start from known tables -/

namespace JoinPlan

/-- The aliases of the joined tables. -/
def aliases (joins : JoinPlan) : List String := joins.map PlannedJoin.aliasName

/-- Every join starts from a known table, or from the table of an earlier join. -/
def StartsIn (known : List String) : JoinPlan → Prop
  | [] => True
  | j :: joins => j.parent ∈ known ∧ StartsIn (known ++ [j.aliasName]) joins

theorem startsIn_concat {j : PlannedJoin} : ∀ {known : List String} {joins : JoinPlan},
    StartsIn known (joins ++ [j]) ↔ StartsIn known joins ∧ j.parent ∈ known ++ joins.aliases
  | known, [] => by simp [StartsIn, aliases]
  | known, i :: joins => by
    rw [List.cons_append, StartsIn, StartsIn, startsIn_concat, and_assoc]
    simp [aliases]

/-- The joins start from known tables, and their identifiers are selected. -/
structure Sound (root : String) (joins : JoinPlan) (selection : Selection) : Prop where
  starts : joins.StartsIn [root]
  selected : ∀ j ∈ joins, selection.Selects j.aliasName j.identifier

namespace Sound

variable {root : String} {joins : JoinPlan} {selection : Selection}

theorem addField (h : Sound root joins selection) (a field : String) :
    Sound root joins (selection.addField a field) :=
  ⟨h.starts, fun j hj => (h.selected j hj).addField a field⟩

theorem addRaw (h : Sound root joins selection) (sql label : String) :
    Sound root joins (selection.addRaw sql label) :=
  ⟨h.starts, fun j hj => (h.selected j hj).addRaw sql label⟩

theorem addJoin (h : Sound root joins selection) (join : PlannedJoin)
    (hparent : join.parent ∈ root :: joins.aliases) :
    Sound root (joins.add join).1 (selection.addField (joins.add join).2.aliasName
      (joins.add join).2.identifier) ∧
      (joins.add join).2.aliasName ∈ root :: (joins.add join).1.aliases := by
  rcases joins.add_cases join with ⟨planned, hmem, -, heq⟩ | ⟨-, heq⟩ <;> rw [heq]
  · exact ⟨h.addField _ _, List.mem_cons_of_mem _ (List.mem_map_of_mem hmem)⟩
  · refine ⟨⟨startsIn_concat.mpr ⟨h.starts, hparent⟩, fun j hj => ?_⟩, ?_⟩
    · rcases List.mem_append.mp hj with hj | hj
      · exact (h.selected j hj).addField _ _
      · rw [List.mem_singleton.mp hj]
        exact Selection.selects_addField _ _ _
    · simp [aliases]

end Sound

end JoinPlan

/-- The joins of a walk are sound, and the table that was reached is known. -/
structure Walk.Sound (root : String) (w : Walk) : Prop where
  joins : JoinPlan.Sound root w.joins w.selection
  reached : w.aliasName ∈ root :: w.joins.aliases

theorem Walk.Sound.hop {root : String} {schema : Schema} {kind : JoinKind} {w w' : Walk}
    {relation : String} (hw : w.Sound root) (h : w.hop schema kind relation = .ok w') :
    w'.Sound root := by
  obtain ⟨join, h⟩ := exists_hopped h
  obtain ⟨hjoins, hreached⟩ := hw.joins.addJoin join (h.parent ▸ hw.reached)
  refine ⟨?_, ?_⟩
  · rwa [h.joins, h.selection]
  · rwa [h.joins, h.reached]

theorem JoinPlan.Sound.add {root : PlanRoot} {d d' : Draft} {c : Column}
    (hd : JoinPlan.Sound root.aliasName d.joins d.selection) (h : d.add root c = .ok d') :
    JoinPlan.Sound root.aliasName d'.joins d'.selection := by
  obtain ⟨sql, data, -, -, rfl⟩ | ⟨path, w, identifier, -, -, hw, -, rfl⟩ | rfl := Draft.add_cases h
  · exact hd.addRaw _ _
  · have hsound : w.Sound root.aliasName :=
      foldlM_invariant (fun w => w.Sound root.aliasName) _ (fun _ _ _ _ hw h => hw.hop h)
        ⟨hd, by simp⟩ hw
    exact (hsound.joins.addField _ _).addField _ _
  · exact hd

/-- **The joins of a plan are sound.** -/
theorem Table.sound_plan {t : Table} {rootAlias : String} {p : Plan}
    (h : t.plan rootAlias = .ok p) :
    p.rootAlias = rootAlias ∧ JoinPlan.Sound p.rootAlias p.joins p.selection := by
  obtain ⟨root, d, -, -, hd, hroot, hjoins, hselection, -⟩ := Table.exists_draft h
  rw [hroot, hjoins, hselection]
  refine ⟨rfl, ?_⟩
  have hstart : JoinPlan.Sound rootAlias [] (Selection.addField [] rootAlias p.rootIdentifier) :=
    ⟨trivial, by simp⟩
  exact foldlM_invariant (fun d : Draft => JoinPlan.Sound rootAlias d.joins d.selection) _
    (fun _ _ _ _ hs h => JoinPlan.Sound.add hs h) hstart hd

end TableQuery
