import Mathlib.Data.List.Basic
import TableQuery.Proofs.Decimal.Literal
import TableQuery.Proofs.Sql.Printing

/-! # Question marks in a query

The text of a query has a question mark in the place of each parameter, and nowhere else as long as
the table's author writes none: names, operators, keywords and numbers have none. So the k-th
question mark of the text is the mark of the k-th parameter (`Query.idxsOf_mark`). -/

namespace TableQuery

open Outcome

/-- Texts without a question mark. -/
abbrev Text.Markless (s : String) : Prop := Text.Over (· != '?') s

/-! ### What the author writes -/

/-- The expression of a target. -/
def Target.authorTexts : Target → List String
  | .raw sql => [sql]
  | _ => []

/-- The expression of an item. -/
def SelectItem.authorTexts : SelectItem → List String
  | .expression sql _ => [sql]
  | _ => []

/-- The text that a condition compares with. -/
def JoinCondition.authorTexts (c : JoinCondition) : List String :=
  match c.right with
  | .text content => [content]
  | _ => []

mutual

/-- The expressions and raw conditions of a predicate. -/
def Predicate.authorTexts : Predicate → List String
  | .compare target _ _ => target.authorTexts
  | .like target _ _ => target.authorTexts
  | .among target _ _ => target.authorTexts
  | .between target _ _ => target.authorTexts
  | .isNull target _ => target.authorTexts
  | .raw sql => [sql]
  | .group _ items => Predicate.itemAuthorTexts items

/-- The expressions and raw conditions of predicates. -/
def Predicate.itemAuthorTexts : List Predicate → List String
  | [] => []
  | p :: ps => Predicate.authorTexts p ++ Predicate.itemAuthorTexts ps

end

/-- The texts of a query that its author wrote and that are printed as they are. -/
def Query.authorTexts (q : Query) : List String :=
  q.select.flatMap SelectItem.authorTexts ++
    q.joins.flatMap (fun j => j.on.flatMap JoinCondition.authorTexts) ++
    q.filters.flatMap (fun g => Predicate.itemAuthorTexts g.items) ++
    q.groupBy.flatMap Target.authorTexts ++
    q.orderBy.flatMap fun t => t.target.authorTexts

/-- Conditions that were made of a left side, an operator and a right side. -/
def JoinCondition.Accepted (c : JoinCondition) : Prop :=
  ∃ left operator right, JoinCondition.ofParts left operator right = .ok c

/-! ### The places of the marks -/

namespace Fragment

/-- The parameters with the positions of their marks in a text that begins at `start`. -/
def placeholdersFrom (start : Nat) : Fragment → List (Nat × Param)
  | [] => []
  | .mark p :: rest => (start, p) :: placeholdersFrom (start + 1) rest
  | .plain s :: rest => placeholdersFrom (start + s.length) rest
  | .author s :: rest => placeholdersFrom (start + s.length) rest

/-- The parameters with the positions of their marks in the text. -/
def placeholders (f : Fragment) : List (Nat × Param) := f.placeholdersFrom 0

/-- Fragments whose texts have no question mark. -/
def Markless (f : Fragment) : Prop :=
  ∀ s, .plain s ∈ f ∨ .author s ∈ f → Text.Markless s

theorem Markless.append {f g : Fragment} (hf : f.Markless) (hg : g.Markless) :
    (f ++ g).Markless := by
  intro s hs
  simp only [List.mem_append] at hs
  rcases hs with (h | h) | h | h
  · exact hf s (Or.inl h)
  · exact hg s (Or.inl h)
  · exact hf s (Or.inr h)
  · exact hg s (Or.inr h)

theorem markless_plain {s : String} (hs : Text.Markless s) : Markless [.plain s] := by
  intro t ht
  have : t = s := by simpa using ht
  rwa [this]

theorem markless_author {s : String} (hs : Text.Markless s) : Markless [.author s] := by
  intro t ht
  have : t = s := by simpa using ht
  rwa [this]

theorem markless_mark (p : Param) : Markless [.mark p] := by
  intro s hs
  simp at hs

theorem Markless.inParens {f : Fragment} (hf : f.Markless) : f.inParens.Markless :=
  ((markless_plain (.of_all (by decide))).append hf).append
    (markless_plain (.of_all (by decide)))

theorem Markless.joined {sep : String} (hsep : Text.Markless sep) :
    ∀ {fs : List Fragment}, (∀ f ∈ fs, f.Markless) → (Fragment.joined sep fs).Markless
  | [], _ => by intro s hs; simp [Fragment.joined] at hs
  | [f], h => h f (by simp)
  | f :: g :: rest, h => by
    have hrest := Markless.joined hsep fun e he => h e (List.mem_cons_of_mem f he)
    exact (h f (by simp)).append ((markless_plain hsep).append hrest)

theorem placeholdersFrom_params : ∀ (f : Fragment) (start : Nat),
    (f.placeholdersFrom start).map Prod.snd = f.binds
  | [], _ => rfl
  | .mark p :: rest, start => by
    rw [placeholdersFrom, List.map_cons, placeholdersFrom_params rest, binds_cons]
    rfl
  | .plain s :: rest, start => by
    rw [placeholdersFrom, placeholdersFrom_params rest, binds_cons]
    rfl
  | .author s :: rest, start => by
    rw [placeholdersFrom, placeholdersFrom_params rest, binds_cons]
    rfl

theorem idxsOf_append_of_markless {cs : List Char} (hcs : ∀ c ∈ cs, (c != '?') = true)
    (ds : List Char) (start : Nat) :
    (cs ++ ds).idxsOf '?' start = ds.idxsOf '?' (start + cs.length) := by
  induction cs generalizing start with
  | nil => rfl
  | cons c cs ih =>
    have hc : (c == '?') = false := by simpa using hcs c (by simp)
    rw [List.cons_append, List.idxsOf_cons, hc, if_neg Bool.false_ne_true,
      ih fun d hd => hcs d (List.mem_cons_of_mem c hd), List.length_cons]
    congr 1
    omega

/-- **The question marks of a text are the marks of its parameters.** -/
theorem idxsOf_text : ∀ {f : Fragment} (start : Nat), f.Markless →
    f.text.toList.idxsOf '?' start = (f.placeholdersFrom start).map Prod.fst
  | [], _, _ => rfl
  | piece :: rest, start, h => by
    have ht : text (piece :: rest) = piece.text ++ text rest := by simp [text]
    have hrest : Markless rest := fun s hs =>
      h s (hs.imp (List.mem_cons_of_mem piece) (List.mem_cons_of_mem piece))
    rw [ht, String.toList_append]
    cases piece with
    | mark p =>
      have hm : (SqlPiece.mark p).text.toList = ['?'] := by simp [SqlPiece.text]
      rw [hm, List.singleton_append, List.idxsOf_cons, beq_self_eq_true, if_pos rfl,
        idxsOf_text (start + 1) hrest]
      rfl
    | plain s =>
      have hs : ∀ c ∈ s.toList, (c != '?') = true := h s (Or.inl (by simp))
      show (s.toList ++ (text rest).toList).idxsOf '?' start = _
      rw [idxsOf_append_of_markless hs, idxsOf_text _ hrest, String.length_toList]
      rfl
    | author s =>
      have hs : ∀ c ∈ s.toList, (c != '?') = true := h s (Or.inr (by simp))
      show (s.toList ++ (text rest).toList).idxsOf '?' start = _
      rw [idxsOf_append_of_markless hs, idxsOf_text _ hrest, String.length_toList]
      rfl

end Fragment

/-! ### Texts without question marks -/

open Fragment

theorem markless_of_quoted {s : String} (h : Text.Over isQuotedChar s) : Text.Markless s := by
  refine h.mono fun c hc => ?_
  rw [bne_iff_ne]
  rintro rfl
  revert hc
  decide

theorem markless_of_number (n : Nat) : Text.Markless (toString n) := by
  intro c hc
  have hd := isDigit_of_mem_toString hc
  rw [bne_iff_ne]
  rintro rfl
  revert hd
  decide

theorem Target.markless {t : Target} {s : String} (h : t.sql = .ok s)
    (ht : ∀ a ∈ t.authorTexts, Text.Markless a) : Text.Markless s := by
  cases t with
  | column aliasName name =>
    simp only [Target.sql, bind_eq_ok, pure_eq_ok] at h
    obtain ⟨a, ha, n, hn, rfl⟩ := h
    exact ((markless_of_quoted (quoteIdentifier_over ha)).append (.of_all (by decide))).append
      (markless_of_quoted (quoteIdentifier_over hn))
  | label name => exact markless_of_quoted (quotePath_over h)
  | raw sql =>
    simp only [Target.sql] at h
    split_ifs at h
    cases h
    exact ht _ (by simp [Target.authorTexts])

theorem Target.markless_opening {t : Target} {s operator : String} (h : t.sql = .ok s)
    (ht : ∀ a ∈ t.authorTexts, Text.Markless a) (ho : operator.toList.all (· != '?') = true) :
    Fragment.Markless [.plain (s ++ " " ++ operator)] :=
  markless_plain (((t.markless h ht).append (.of_all (by decide))).append
    (.of_all ho))

theorem mem_itemAuthorTexts {items : List Predicate} {p : Predicate} (hp : p ∈ items) {s : String}
    (hs : s ∈ p.authorTexts) : s ∈ Predicate.itemAuthorTexts items := by
  induction items with
  | nil => simp at hp
  | cons q items ih =>
    rw [Predicate.itemAuthorTexts, List.mem_append]
    rcases List.mem_cons.mp hp with rfl | hp
    · exact Or.inl hs
    · exact Or.inr (ih hp)

theorem Predicate.markless (p : Predicate) : ∀ f, p.sql = .ok f →
    (∀ a ∈ p.authorTexts, Text.Markless a) → f.Markless := by
  induction p with
  | compare target op param =>
    intro f h ha
    obtain ⟨s, hs, rfl⟩ := compare_eq_ok.mp h
    refine (target.markless_opening hs ha ?_).append (markless_mark param)
    cases op <;> decide
  | like target negated param =>
    intro f h ha
    obtain ⟨s, hs, rfl⟩ := like_eq_ok.mp h
    refine (target.markless_opening hs ha ?_).append (markless_mark param)
    cases negated <;> decide
  | among target negated params =>
    intro f h ha
    obtain ⟨-, s, hs, rfl⟩ := among_eq_ok.mp h
    refine (target.markless_opening hs ha ?_).append (Markless.inParens (Markless.joined ?_ ?_))
    · cases negated <;> decide
    · exact .of_all (by decide)
    · intro g hg
      obtain ⟨param, -, rfl⟩ := List.mem_map.mp hg
      exact markless_mark param
  | between target low high =>
    intro f h ha
    obtain ⟨s, hs, rfl⟩ := between_eq_ok.mp h
    have hand : Fragment.Markless [.plain " AND "] := markless_plain (.of_all (by decide))
    exact (target.markless_opening hs ha (by decide)).append
      ((markless_mark low).append (hand.append (markless_mark high)))
  | isNull target negated =>
    intro f h ha
    obtain ⟨s, hs, rfl⟩ := isNull_eq_ok.mp h
    refine target.markless_opening hs ha ?_
    cases negated <;> decide
  | raw sql =>
    intro f h ha
    rw [raw_eq_ok.mp h]
    exact (markless_author (ha sql (by simp [Predicate.authorTexts]))).inParens
  | group conjunction items ih =>
    intro f h ha
    obtain ⟨fs, hfs, rfl⟩ := group_eq_ok.mp h
    refine Markless.inParens (Markless.joined ?_ fun g hg => ?_)
    · cases conjunction <;> exact .of_all (by decide)
    · obtain ⟨q, hq, hg⟩ := exists_of_mem_right hfs hg
      exact ih q hq g hg fun a hqa => ha a (mem_itemAuthorTexts hq hqa)

theorem Query.markless_whereSql {q : Query} (hq : ∀ a ∈ q.authorTexts, Text.Markless a)
    {f : Fragment} (h : q.whereSql = .ok f) : f.Markless := by
  by_cases hne : q.filters = []
  · simp only [whereSql, hne, List.isEmpty_nil, if_true] at h
    cases h
    intro s hs
    simp at hs
  · obtain ⟨parts, hparts, rfl⟩ := (whereSql_eq_ok hne).mp h
    refine (markless_plain (.of_all (by decide))).append
      (Markless.joined (.of_all (by decide)) fun part hpart => ?_)
    obtain ⟨g, hg, hpart⟩ := exists_of_mem_right hparts hpart
    obtain ⟨f', hf', rfl⟩ := groupSql_eq_ok.mp hpart
    obtain ⟨fs, hfs, rfl⟩ := Group.sql_eq_ok.mp hf'
    have hf : (Fragment.joined g.conjunction.sql fs).Markless := by
      refine Markless.joined ?_ fun e he => ?_
      · cases g.conjunction <;> exact .of_all (by decide)
      · obtain ⟨p, hp, he⟩ := exists_of_mem_right hfs he
        refine p.markless e he fun a ha => hq a ?_
        simp only [authorTexts, List.mem_append, List.mem_flatMap]
        exact Or.inl (Or.inl (Or.inr ⟨g, hg, mem_itemAuthorTexts hp ha⟩))
    split_ifs
    · exact hf.inParens
    · exact hf

namespace SelectItem

theorem markless_quoteColumn {source : Option String} {name s : String}
    (h : quoteColumn source name = .ok s) : Text.Markless s := by
  cases source with
  | none => exact markless_of_quoted (quoteIdentifier_over h)
  | some source =>
    simp only [quoteColumn, bind_eq_ok, pure_eq_ok] at h
    obtain ⟨t, ht, n, hn, rfl⟩ := h
    exact ((markless_of_quoted (quoteIdentifier_over ht)).append
      (.of_all (by decide))).append (markless_of_quoted (quoteIdentifier_over hn))

theorem markless_underAlias {text aliasName s : String} (ht : Text.Markless text)
    (h : underAlias text aliasName = .ok s) : Text.Markless s := by
  simp only [underAlias, bind_eq_ok, pure_eq_ok] at h
  obtain ⟨a, ha, rfl⟩ := h
  exact (ht.append (.of_all (by decide))).append (markless_of_quoted (quoteIdentifier_over ha))

theorem markless_wildcard {source : Option String} {s : String}
    (h : (column source "*" none).sql = .ok s) : Text.Markless s := by
  cases source with
  | none =>
    simp only [sql, if_true, Option.isSome_none, Bool.false_eq_true, if_false] at h
    cases h
    exact .of_all (by decide)
  | some source =>
    simp only [sql, if_true, Option.isSome_none, Bool.false_eq_true, if_false, bind_eq_ok,
      pure_eq_ok] at h
    obtain ⟨t, ht, rfl⟩ := h
    exact (markless_of_quoted (quoteIdentifier_over ht)).append (.of_all (by decide))

theorem markless {item : SelectItem} {s : String} (h : item.sql = .ok s)
    (ha : ∀ a ∈ item.authorTexts, Text.Markless a) : Text.Markless s := by
  cases item with
  | column source name aliasName =>
    by_cases hn : name = "*"
    · subst hn
      cases aliasName with
      | none => exact markless_wildcard h
      | some aliasName => simp [sql] at h
    · simp only [sql, if_neg hn, bind_eq_ok] at h
      obtain ⟨text, ht, h⟩ := h
      cases aliasName with
      | none =>
        rw [pure_eq_ok.mp h]
        exact markless_quoteColumn ht
      | some aliasName => exact markless_underAlias (markless_quoteColumn ht) h
  | expression text aliasName =>
    simp only [sql] at h
    split_ifs at h
    exact markless_underAlias (ha text (by simp [authorTexts])) h
  | countDistinct source name =>
    simp only [sql, bind_eq_ok, pure_eq_ok] at h
    obtain ⟨c, hc, rfl⟩ := h
    exact Text.Over.append (Text.Over.append (.of_all (by decide)) (markless_quoteColumn hc))
      (.of_all (by decide))

end SelectItem

namespace JoinCondition

theorem markless_of_looksNumeric {s : String} (h : Operand.looksNumeric s.toList = true) :
    Text.Markless s := by
  intro c hc
  have hall : s.toList.all Operand.isNumberChar = true := by
    unfold Operand.looksNumeric at h
    split at h
    · exact (Bool.and_eq_true_iff.mp h).2
    · cases h
  have hn := List.all_eq_true.mp hall c hc
  rw [bne_iff_ne]
  rintro rfl
  revert hn
  decide

theorem Accepted.looksNumeric {c : JoinCondition} (hc : c.Accepted) {number : String}
    (hr : c.right = .number number) : Operand.looksNumeric number.toList = true := by
  obtain ⟨left, operator, right, h⟩ := hc
  simp only [ofParts, bind_eq_ok] at h
  obtain ⟨op, -, operand, ho, _, -, h⟩ := h
  obtain ⟨-, h⟩ := guard_eq_ok.mp h
  rw [pure_eq_ok.mp h] at hr
  simp only at hr
  subst hr
  unfold Operand.ofText at ho
  split at ho
  · cases ho
  · split at ho
    · cases ho
    · split at ho
      · next hn =>
        cases ho
        exact hn
      · obtain ⟨_, -, ho⟩ := map_eq_ok.mp ho
        cases ho

theorem markless_quoteLiteral {content : String} (h : Text.Markless content) :
    Text.Markless (Value.quoteLiteral content) := by
  intro c hc
  simp only [Value.quoteLiteral, Text.replaceChar, String.toList_ofList, List.mem_cons,
    List.mem_append, List.mem_flatMap, List.not_mem_nil, or_false, List.cons_append] at hc
  rcases hc with rfl | ⟨d, hd, hc⟩ | rfl
  · decide
  · split_ifs at hc
    · have : c = '\x27' := by simpa using hc
      rw [this]
      decide
    · rw [List.mem_singleton.mp hc]
      exact h d hd
  · decide

theorem markless {c : JoinCondition} (hc : c.Accepted) {s : String} (h : c.sql = .ok s)
    (ha : ∀ a ∈ c.authorTexts, Text.Markless a) : Text.Markless s := by
  simp only [sql, bind_eq_ok] at h
  obtain ⟨left, hl, h⟩ := h
  have hop : Text.Markless c.op.sql := by cases c.op <;> exact .of_all (by decide)
  have hstart : Text.Markless (left ++ " " ++ c.op.sql) :=
    ((markless_of_quoted (quotePath_over hl)).append (.of_all (by decide))).append hop
  have hblank : Text.Markless " " := .of_all (by decide)
  cases hr : c.right with
  | null =>
    simp only [hr] at h
    split_ifs at h
    rw [pure_eq_ok.mp h]
    exact hstart.append (.of_all (by decide))
  | path path =>
    simp only [hr, bind_eq_ok, pure_eq_ok] at h
    obtain ⟨right, hright, rfl⟩ := h
    exact (hstart.append hblank).append (markless_of_quoted (quotePath_over hright))
  | number text =>
    simp only [hr, pure_eq_ok] at h
    rw [h]
    exact (hstart.append hblank).append (markless_of_looksNumeric (hc.looksNumeric hr))
  | text content =>
    simp only [hr, pure_eq_ok] at h
    rw [h]
    exact (hstart.append hblank).append
      (markless_quoteLiteral (ha content (by simp [authorTexts, hr])))

end JoinCondition

namespace Query

theorem markless_clauseSql {α : Type} {keyword : String} {sql : α → Except SqlFailure String}
    {terms : List α} {s : String} (hk : Text.Markless keyword)
    (ht : ∀ t ∈ terms, ∀ u, sql t = .ok u → Text.Markless u)
    (h : clauseSql keyword sql terms = .ok s) : Text.Markless s := by
  unfold clauseSql at h
  split_ifs at h
  · cases h
    exact .of_all (by decide)
  · simp only [bind_eq_ok, mapM_eq_ok, pure_eq_ok] at h
    obtain ⟨texts, htexts, rfl⟩ := h
    refine hk.append (Text.Over.intercalate (.of_all (by decide)) fun u hu => ?_)
    obtain ⟨t, htt, hu⟩ := exists_of_mem_right htexts hu
    exact ht t htt u hu

theorem markless_windowSql (q : Query) : Text.Markless q.windowSql := by
  unfold windowSql
  refine Text.Over.append ?_ ?_
  · split
    · exact Text.Over.append (.of_all (by decide)) (markless_of_number _)
    · exact Text.Over.append (.of_all (by decide)) (markless_of_number _)
    · exact .of_all (by decide)
  · split
    · exact Text.Over.append (.of_all (by decide)) (markless_of_number _)
    · exact .of_all (by decide)

theorem markless_selectSql {q : Query} (hq : ∀ a ∈ q.authorTexts, Text.Markless a) {s : String}
    (h : q.selectSql = .ok s) : Text.Markless s := by
  unfold selectSql at h
  split_ifs at h
  · exact SelectItem.markless h fun a ha => by simp [SelectItem.authorTexts] at ha
  · simp only [bind_eq_ok, mapM_eq_ok, pure_eq_ok] at h
    obtain ⟨items, hitems, rfl⟩ := h
    refine Text.Over.intercalate (.of_all (by decide)) fun u hu => ?_
    obtain ⟨item, hitem, hu⟩ := exists_of_mem_right hitems hu
    refine SelectItem.markless hu fun a ha => hq a ?_
    simp only [authorTexts, List.mem_append, List.mem_flatMap]
    exact Or.inl (Or.inl (Or.inl (Or.inl ⟨item, hitem, ha⟩)))

theorem markless_joinSql {j : Join} (hon : ∀ c ∈ j.on, c.Accepted)
    (ha : ∀ c ∈ j.on, ∀ a ∈ c.authorTexts, Text.Markless a) {s : String}
    (h : joinSql j = .ok s) : Text.Markless s := by
  simp only [joinSql, bind_eq_ok, mapM_eq_ok, pure_eq_ok] at h
  obtain ⟨table, ht, name, hn, on, hons, rfl⟩ := h
  have hkind : Text.Markless j.kind.sql := by cases j.kind <;> exact .of_all (by decide)
  have hblank : Text.Markless " " := .of_all (by decide)
  refine Text.Over.append (((((((hblank.append hkind).append hblank).append ?_).append ?_).append
    ?_).append (.of_all (by decide)))) ?_
  · exact markless_of_quoted (quoteIdentifier_over ht)
  · exact .of_all (by decide)
  · exact markless_of_quoted (quoteIdentifier_over hn)
  · refine Text.Over.intercalate (.of_all (by decide)) fun u hu => ?_
    obtain ⟨c, hc, hu⟩ := exists_of_mem_right hons hu
    exact JoinCondition.markless (hon c hc) hu (ha c hc)

theorem markless_headSql {q : Query} (hon : ∀ j ∈ q.joins, ∀ c ∈ j.on, c.Accepted)
    (hq : ∀ a ∈ q.authorTexts, Text.Markless a) {s : String} (h : q.headSql = .ok s) :
    Text.Markless s := by
  simp only [headSql, bind_eq_ok, mapM_eq_ok, pure_eq_ok] at h
  obtain ⟨_, -, select, hselect, table, ht, name, hn, joins, hjoins, rfl⟩ := h
  refine Text.Over.append (((((Text.Over.append ?_ (markless_selectSql hq hselect)).append
    ?_).append (markless_of_quoted (quoteIdentifier_over ht))).append ?_).append
    (markless_of_quoted (quoteIdentifier_over hn))) (Text.Over.join fun u hu => ?_)
  · exact .of_all (by decide)
  · exact .of_all (by decide)
  · exact .of_all (by decide)
  · obtain ⟨j, hj, hu⟩ := exists_of_mem_right hjoins hu
    refine markless_joinSql (hon j hj) (fun c hc a ha => hq a ?_) hu
    simp only [authorTexts, List.mem_append, List.mem_flatMap]
    exact Or.inl (Or.inl (Or.inl (Or.inr ⟨j, hj, c, hc, ha⟩)))

theorem markless {q : Query} (hon : ∀ j ∈ q.joins, ∀ c ∈ j.on, c.Accepted)
    (hq : ∀ a ∈ q.authorTexts, Text.Markless a) {f : Fragment} (h : q.sql = .ok f) :
    f.Markless := by
  obtain ⟨head, conditions, grouping, order, hhead, hconditions, hgrouping, horder, rfl⟩ :=
    sql_eq_ok.mp h
  have hg : Text.Markless grouping := by
    refine markless_clauseSql (.of_all (by decide)) (fun t ht u hu => ?_) hgrouping
    refine t.markless hu fun a ha => hq a ?_
    simp only [authorTexts, List.mem_append, List.mem_flatMap]
    exact Or.inl (Or.inr ⟨t, ht, ha⟩)
  have ho : Text.Markless order := by
    refine markless_clauseSql (.of_all (by decide)) (fun t ht u hu => ?_) horder
    simp only [orderSql, bind_eq_ok, pure_eq_ok] at hu
    obtain ⟨target, htarget, rfl⟩ := hu
    have hd : Text.Markless t.direction.sql := by
      cases t.direction <;> exact .of_all (by decide)
    refine ((t.target.markless htarget fun a ha => hq a ?_).append
      (.of_all (by decide))).append hd
    simp only [authorTexts, List.mem_append, List.mem_flatMap]
    exact Or.inr ⟨t, ht, ha⟩
  exact ((markless_plain (markless_headSql hon hq hhead)).append
    (markless_whereSql hq hconditions)).append
      (markless_plain ((hg.append ho).append (markless_windowSql q)))

/-- **The k-th question mark of a query is the mark of its k-th parameter.** The parameters are
those of the groups in order, there are as many question marks, and they stand where the marks of
the parameters were printed. -/
theorem idxsOf_mark (q : Query) (hon : ∀ j ∈ q.joins, ∀ c ∈ j.on, c.Accepted)
    (hq : ∀ a ∈ q.authorTexts, '?' ∉ a.toList) {f : Fragment} (h : q.sql = .ok f) :
    f.binds = q.filters.flatMap Group.params ∧ f.text.toList.count '?' = f.binds.length ∧
      f.text.toList.idxsOf '?' = f.placeholders.map Prod.fst ∧
      f.placeholders.map Prod.snd = f.binds := by
  have hm : f.Markless := markless hon (fun a ha c hc => by
    rw [bne_iff_ne]
    rintro rfl
    exact hq a ha hc) h
  have hi := Fragment.idxsOf_text 0 hm
  have hb : f.placeholders.map Prod.snd = f.binds := f.placeholdersFrom_params 0
  refine ⟨binds_of_sql h, ?_, hi, hb⟩
  rw [← List.length_idxsOf, hi, ← hb, List.length_map, List.length_map]
  rfl

/-- A query with a quote in a join, a nested group, a list and a range. -/
def nested : Query :=
  { table := "posts"
    aliasName := "post"
    joins := [⟨.left, "users", "author", [⟨"author.role", .eq, .text "it's"⟩]⟩]
    filters :=
      [⟨.or, [.like (.column "post" "title") false ⟨"g0_0", .text "%a%"⟩,
        .group .and [.among (.column "post" "id") true [⟨"g1_1", .int 1⟩, ⟨"g1_1_1", .int 2⟩],
          .raw "post.draft = 0"]]⟩,
        ⟨.and, [.between (.raw "LENGTH(post.title)") ⟨"p100", .int 3⟩ ⟨"p101", .int 9⟩]⟩]
    orderBy := [⟨.label "total", .desc⟩]
    limit := some 10 }

theorem idxsOf_mark_nested : ∃ f, nested.sql = .ok f ∧ f.text.toList.count '?' = 5 ∧
    f.text.toList.idxsOf '?' = [125, 151, 154, 211, 217] ∧
    f.binds.map Param.name = ["g0_0", "g1_1", "g1_1_1", "p100", "p101"] := by
  have hon : ∀ j ∈ nested.joins, ∀ c ∈ j.on, c.Accepted := by
    intro j hj c hc
    simp only [nested, List.mem_singleton] at hj
    subst hj
    rw [List.mem_singleton.mp hc]
    exact ⟨"author.role", "=", "'it's'", rfl⟩
  have hq : ∀ a ∈ nested.authorTexts, '?' ∉ a.toList := by decide
  obtain ⟨f, h, hp⟩ := exists_ok (x := nested.sql)
    (p := fun f => f.placeholders.map Prod.fst == [125, 151, 154, 211, 217]) (by decide +kernel)
  obtain ⟨hb, hc, hi, -⟩ := idxsOf_mark nested hon hq h
  refine ⟨f, h, ?_, ?_, ?_⟩
  · rw [hc, hb]
    decide
  · rw [hi]
    simpa using hp
  · rw [hb]
    decide

end Query

end TableQuery
