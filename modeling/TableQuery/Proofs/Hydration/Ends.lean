import Mathlib.Data.Prod.Lex
import TableQuery.Proofs.Hydration.JoinTree
import TableQuery.Proofs.Plan.Aliases
import TableQuery.Proofs.Plan.Routes

/-! # Where the tree of a plan has no end

Columns may come to one table over different paths, and tables that have nothing to do with each
other may have one alias. The tree of a plan has an end all the same, unless a join has the alias of
the root (`Table.ends_iff`).

An alias is the text of a path but for underscores in front of it, and a table is joined to it under
a longer text. So the aliases of the joins along a chain grow in rank (`JoinPlan.rank_lt_of_needs`),
where it matters that two paths with one alias have texts that differ in these underscores only
(`NamesText.next`). A chain can come back only where the alias of a join is no such text for the
joins behind it, and that is the alias of the root. -/

namespace TableQuery

open Outcome

/-! ### Aliases and the texts of paths -/

/-- A text without the underscores in front of it. -/
def withoutMarks (s : String) : List Char := s.toList.dropWhile (· == '_')

theorem withoutMarks_append (s t : String) : withoutMarks (s ++ t) =
    if withoutMarks s = [] then withoutMarks t else withoutMarks s ++ t.toList := by
  simp only [withoutMarks, String.toList_append, List.dropWhile_append, List.isEmpty_iff]
  rfl

/-- No reserved word consists of underscores. -/
theorem not_isReserved {s : String} (h : withoutMarks s = []) : isReserved s = false := by
  -- as a test that runs along the list: a decision for all its words nests as deep as it is long
  have hwords : (reservedWords.all fun word => word.toList.any (· != '_')) = true := by
    decide +kernel
  have hmarks : ∀ c ∈ s.toList, c = '_' := by
    simpa [withoutMarks, List.dropWhile_eq_nil_iff] using h
  refine Bool.eq_false_iff.mpr fun hreserved => ?_
  obtain ⟨c, hc, hne⟩ :=
    List.any_eq_true.mp (List.all_eq_true.mp hwords _ (List.contains_iff_mem.mp hreserved))
  rw [Text.asciiLower, String.toList_ofList] at hc
  obtain ⟨d, hd, rfl⟩ := List.mem_map.mp hc
  rw [hmarks d hd] at hne
  cases hne

/-- The alias is the text but for underscores in front. It is the text itself if that is nothing but
underscores. -/
structure NamesText (a text : String) : Prop where
  eq : withoutMarks a = withoutMarks text
  bare : withoutMarks text = [] → a = text

theorem namesText_safeAlias (text : String) : NamesText (safeAlias text) text := by
  unfold safeAlias
  split_ifs with hreserved
  · refine ⟨by rw [withoutMarks_append, if_pos (by decide)], fun h => ?_⟩
    rw [not_isReserved h] at hreserved
    cases hreserved
  · exact ⟨rfl, fun _ => rfl⟩

namespace NamesText

variable {a b text text' : String}

/-- **A table joined to one alias**: its alias goes with either text of that alias. -/
theorem next {x : String} (h : NamesText a text) (h' : NamesText a text')
    (hb : NamesText b (text' ++ x)) : NamesText b (text ++ x) := by
  by_cases hbare : withoutMarks a = []
  · rw [← h.bare (h.eq ▸ hbare), h'.bare (h'.eq ▸ hbare)]
    exact hb
  · have heq : withoutMarks (text ++ x) = withoutMarks (text' ++ x) := by
      rw [withoutMarks_append, withoutMarks_append, ← h.eq, ← h'.eq, if_neg hbare]
    refine ⟨hb.eq.trans heq.symm, fun hnil => ?_⟩
    rw [withoutMarks_append, ← h.eq, if_neg hbare] at hnil
    exact absurd (List.append_eq_nil_iff.mp hnil).1 hbare

end NamesText

/-- How far down an alias is at least. -/
def aliasRank (a : String) : ℕ ×ₗ ℕ := toLex ((withoutMarks a).length, a.toList.length)

theorem NamesText.aliasRank_lt {a b text name : String} (ha : NamesText a text)
    (hb : NamesText b (text ++ ("_" ++ name))) : aliasRank a < aliasRank b := by
  rw [aliasRank, aliasRank, Prod.Lex.toLex_lt_toLex, ha.eq, hb.eq, withoutMarks_append]
  split_ifs with hbare
  · rw [hbare, ha.bare hbare]
    rcases Nat.eq_zero_or_pos (withoutMarks ("_" ++ name)).length with hzero | hpos
    · have htext : b = text ++ ("_" ++ name) :=
        hb.bare (by rw [withoutMarks_append, if_pos hbare, List.eq_nil_of_length_eq_zero hzero])
      refine .inr ⟨hzero.symm, ?_⟩
      simp only [htext, String.toList_append, List.length_append]
      have hmark : "_".toList.length = 1 := rfl
      omega
    · exact .inl hpos
  · refine .inl ?_
    simp only [String.toList_append, List.length_append]
    have hmark : "_".toList.length = 1 := rfl
    omega

/-! ### Joins behind the root -/

/-- The alias that a path leads to from the root, which is not the alias of the root. -/
inductive Reached (root : String) : List String → String → Prop
  | root : Reached root [] root
  | joined {path : List String} {a : String} (hpath : path ≠ []) (hne : a ≠ root)
    (htext : NamesText a ("_".intercalate path)) : Reached root path a

namespace Reached

variable {root a b relation : String} {path path' : List String}

theorem namesText (h : Reached root path a) (hpath : path ≠ []) :
    NamesText a ("_".intercalate path) := by
  cases h with
  | root => exact absurd rfl hpath
  | joined _ _ htext => exact htext

theorem ne_root (h : Reached root path a) (hpath : path ≠ []) : a ≠ root := by
  cases h with
  | root => exact absurd rfl hpath
  | joined _ hne _ => exact hne

/-- The alias of a joined table is reached by every path to the table that it is joined to. -/
theorem next (h : Reached root path a) (h' : Reached root path' a)
    (hb : Reached root (path' ++ [relation]) b) : Reached root (path ++ [relation]) b := by
  cases h with
  | root =>
    cases h' with
    | root => exact hb
    | joined _ hne _ => exact absurd rfl hne
  | joined hpath hne htext =>
    cases h' with
    | root => exact absurd rfl hne
    | joined hpath' _ htext' =>
      have hb' := hb.namesText (by simp)
      rw [intercalate_concat hpath'] at hb'
      refine .joined (by simp) (hb.ne_root (by simp)) ?_
      rw [intercalate_concat hpath]
      exact htext.next htext' hb'

theorem aliasRank_lt (h : Reached root path a) (ha : a ≠ root)
    (hb : Reached root (path ++ [relation]) b) : aliasRank a < aliasRank b := by
  cases h with
  | root => exact absurd rfl ha
  | joined hpath _ htext =>
    have hb' := hb.namesText (by simp)
    rw [intercalate_concat hpath] at hb'
    exact htext.aliasRank_lt hb'

end Reached

/-- Each join leads on from a path to its parent. -/
def JoinPlan.LeadsOn (root : String) (joins : JoinPlan) : Prop :=
  ∀ j ∈ joins, ∃ path, Reached root path j.parent ∧
    Reached root (path ++ [j.relationship]) j.aliasName

/-- The joins of a walk lead on from paths, and its table is reached by the path behind. -/
structure Walk.LeadsOn (root : String) (w : Walk) : Prop where
  joins : w.joins.LeadsOn root
  reached : Reached root w.behind w.aliasName

/-- **A hop leads on**, unless it joins a table under the alias of the root. -/
theorem Walk.LeadsOn.hop {root : String} {schema : Schema} {kind : JoinKind} {w w' : Walk}
    {relation : String} (hw : w.LeadsOn root) (hroot : root ∉ w'.joins.aliases)
    (h : w.hop schema kind relation = .ok w') : w'.LeadsOn root := by
  obtain ⟨join, h⟩ := exists_hopped h
  rcases w.joins.add_cases join with ⟨planned, hmem, hkey, heq⟩ | ⟨-, heq⟩
  · obtain ⟨path, hparent, hplanned⟩ := hw.joins planned hmem
    obtain ⟨hsame, hrelationship⟩ := Prod.ext_iff.mp hkey
    simp only [PlannedJoin.key, h.parent, h.relationship] at hsame hrelationship
    rw [hsame] at hparent
    rw [hrelationship] at hplanned
    refine ⟨by rw [h.joins, heq]; exact hw.joins, ?_⟩
    rw [h.behind, h.reached, heq]
    exact hw.reached.next hparent hplanned
  · have hne : join.aliasName ≠ root := by
      rintro rfl
      exact hroot (by simp [h.joins, heq, JoinPlan.aliases])
    have hjoin : Reached root (w.behind ++ [relation]) join.aliasName :=
      .joined (by simp) hne (h.path ▸ namesText_safeAlias _)
    refine ⟨fun j hj => ?_, by rwa [h.behind, h.reached, heq]⟩
    rw [h.joins, heq] at hj
    rcases List.mem_append.mp hj with hj | hj
    · exact hw.joins j hj
    · rw [List.mem_singleton.mp hj, h.parent, h.relationship]
      exact ⟨w.behind, hw.reached, hjoin⟩

namespace JoinPlan

variable {root : String} {joins : JoinPlan}

/-- An alias that needs another one comes before it in rank, unless it is the root. -/
theorem rank_lt_of_needs (h : joins.LeadsOn root) {a b : String} (ha : a ≠ root)
    (hb : joins.Needs b a) : aliasRank a < aliasRank b := by
  obtain ⟨j, hj, rfl, rfl⟩ := mem_aliasesFrom.mp hb
  obtain ⟨path, hparent, hjoin⟩ := h j hj
  exact hparent.aliasRank_lt ha hjoin

theorem mem_aliases_of_needs {a b : String} (h : joins.Needs b a) : b ∈ joins.aliases := by
  obtain ⟨j, hj, -, rfl⟩ := mem_aliasesFrom.mp h
  exact List.mem_map_of_mem hj

/-- **No table stands below itself** if no join has the alias of the root. -/
theorem LeadsOn.acyclic (h : joins.LeadsOn root) (hroot : root ∉ joins.aliases) (a : String) :
    ¬ Relation.TransGen joins.Needs a a := by
  have hrank : ∀ {b a}, Relation.TransGen joins.Needs b a → a ≠ root →
      aliasRank a < aliasRank b := by
    intro b a hba
    induction hba with
    | single hb => exact fun ha => rank_lt_of_needs h ha hb
    | tail _ hca ih =>
      exact fun ha => (rank_lt_of_needs h ha hca).trans
        (ih fun hc => hroot (hc ▸ mem_aliases_of_needs hca))
  intro hcycle
  obtain ⟨b, hab, -⟩ := Relation.TransGen.head'_iff.mp hcycle
  exact (hrank hcycle fun ha => hroot (ha ▸ mem_aliases_of_needs hab)).false

end JoinPlan

/-! ### Plans -/

theorem JoinPlan.LeadsOn.add {root : PlanRoot} {d d' : Draft} {c : Column}
    (hd : d.joins.LeadsOn root.aliasName) (hroot : root.aliasName ∉ d'.joins.aliases)
    (h : d.add root c = .ok d') : d'.joins.LeadsOn root.aliasName := by
  obtain ⟨sql, data, -, -, rfl⟩ | ⟨path, w, identifier, -, -, hw, -, rfl⟩ | rfl := Draft.add_cases h
  · exact hd
  · exact (foldlM_invariant
      (fun w : Walk => root.aliasName ∉ w.joins.aliases → w.LeadsOn root.aliasName) _
      (fun _ _ w w' ih hhop hroot =>
        (ih fun hmem => hroot ((JoinPlan.aliases_mono (Walk.prefix_of_hop hhop)).subset hmem)).hop
          hroot hhop)
      (fun _ => ⟨hd, .root⟩) hw hroot).joins
  · exact hd

theorem Table.leadsOn_plan {t : Table} {rootAlias : String} {p : Plan}
    (h : t.plan rootAlias = .ok p) (hroot : p.rootAlias ∉ p.joins.aliases) :
    p.joins.LeadsOn p.rootAlias := by
  obtain ⟨root, d, -, -, hd, halias, hjoins, -⟩ := Table.exists_draft h
  rw [halias, hjoins] at hroot ⊢
  exact foldlM_invariant
    (fun d : Draft => rootAlias ∉ d.joins.aliases → d.joins.LeadsOn rootAlias) _
    (fun _ _ d d' ih hadd hroot =>
      (ih fun hmem => hroot ((JoinPlan.aliases_mono (Draft.add_routed hadd).1).subset hmem)).add
        hroot hadd)
    (fun _ _ hj => absurd hj List.not_mem_nil) hd hroot

/-- **The tree of a table's plan has an end iff no join has the alias of the root.** -/
theorem Table.ends_iff {t : Table} {rootAlias : String} {p : Plan}
    (h : t.plan rootAlias = .ok p) : p.Ends ↔ p.rootAlias ∉ p.joins.aliases :=
  ⟨fun hends hmem => Plan.not_ends_of_mem (Table.sound_plan h).2.starts hmem hends, fun hroot =>
    Plan.ends_of_acyclic fun a _ => (Table.leadsOn_plan h hroot).acyclic hroot a⟩

end TableQuery
