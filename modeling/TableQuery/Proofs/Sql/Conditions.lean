import TableQuery.Proofs.Sql.Printing
import TableQuery.Proofs.Sql.Reading

/-! # What the printed conditions mean

Parentheses are printed around a nested group, and around a group with several predicates if it is
one of several groups. That is enough: the conditions of a query, read as SQL reads them, are the
conjunction of its groups (`Query.readCondition_where`). The proof goes along the printing: a
printed predicate is read as an operand (`Predicate.reads`), so a printed group is read as a level,
and as an operand if it has one predicate or stands in parentheses. -/

namespace TableQuery

open Outcome

/-! ### Predicates without empty parts -/

/-- Columns and labels, but not expressions. -/
def Target.isName : Target → Bool
  | .raw _ => false
  | _ => true

mutual

/-- Whether the targets are columns and labels, and no group in the predicate is empty. -/
def Predicate.isProper : Predicate → Bool
  | .compare target _ _ => target.isName
  | .like target _ _ => target.isName
  | .among target _ _ => target.isName
  | .between target _ _ => target.isName
  | .isNull target _ => target.isName
  | .raw _ => true
  | .group _ items => !items.isEmpty && Predicate.areProper items

/-- Whether all predicates are proper. -/
def Predicate.areProper : List Predicate → Bool
  | [] => true
  | p :: ps => Predicate.isProper p && Predicate.areProper ps

end

/-- Whether a group has predicates, all of them proper. -/
def Group.isProper (g : Group) : Bool := !g.items.isEmpty && Predicate.areProper g.items

theorem Predicate.areProper_eq_true : ∀ {items : List Predicate},
    areProper items = true ↔ ∀ p ∈ items, p.isProper = true
  | [] => by simp [areProper]
  | p :: ps => by simp [areProper, areProper_eq_true]

/-! ### The meaning of a group -/

mutual

/-- The predicates of nested groups in order, and the predicate itself if it is no group. -/
def Predicate.leaves : Predicate → List Predicate
  | .group _ items => Predicate.itemLeaves items
  | p => [p]

/-- The leaves of predicates in order. -/
def Predicate.itemLeaves : List Predicate → List Predicate
  | [] => []
  | p :: ps => Predicate.leaves p ++ Predicate.itemLeaves ps

end

mutual

/-- The truth of a predicate, from the truth of its leaves. -/
def Predicate.holds (v : Predicate → Bool) : Predicate → Bool
  | .group conjunction items => conjunction.truth (Predicate.itemsHold v items)
  | p => v p

/-- The truth of each predicate. -/
def Predicate.itemsHold (v : Predicate → Bool) : List Predicate → List Bool
  | [] => []
  | p :: ps => Predicate.holds v p :: Predicate.itemsHold v ps

end

/-- The leaves of a group in order. -/
def Group.leaves (g : Group) : List Predicate := Predicate.itemLeaves g.items

/-- The truth of a group: of all its items or of one of them. -/
def Group.holds (v : Predicate → Bool) (g : Group) : Bool :=
  g.conjunction.truth (Predicate.itemsHold v g.items)

/-- The lexemes of a leaf. A condition of the table's author is one lexeme. -/
def Predicate.lexemes : Predicate → List Lexeme
  | .raw sql => [.author sql]
  | p => p.sql.toOption.elim [] Fragment.lexemes

theorem Predicate.itemLeaves_eq_flatMap : ∀ items : List Predicate,
    itemLeaves items = items.flatMap leaves
  | [] => rfl
  | p :: ps => by rw [itemLeaves, itemLeaves_eq_flatMap ps, List.flatMap_cons]

theorem Predicate.itemsHold_eq_map (v : Predicate → Bool) : ∀ items : List Predicate,
    itemsHold v items = items.map (holds v)
  | [] => rfl
  | p :: ps => by rw [itemsHold, itemsHold_eq_map v ps, List.map_cons]

/-! ### Printed names are words -/

theorem isWordChar_of_isQuotedChar {c : Char} (hc : isQuotedChar c = true) :
    isWordChar c = true := by
  simp only [isWordChar, Bool.and_eq_true, bne_iff_ne]
  refine ⟨⟨?_, ?_⟩, ?_⟩ <;> rintro rfl <;> revert hc <;> decide

theorem backtick_mem_quotePath {path s : String} (h : quotePath path = .ok s) :
    '`' ∈ s.toList := by
  obtain ⟨-, rfl⟩ := quotePath_eq_ok.mp h
  obtain ⟨name, names, hn⟩ := List.exists_cons_of_ne_nil (List.splitOn_ne_nil '.' path.toList)
  rw [Text.piecesOf, hn]
  cases names <;> simp [backticked, String.intercalate_cons_cons]

theorem Target.over_of_isName {t : Target} (ht : t.isName = true) {s : String}
    (h : t.sql = .ok s) : Text.Over isQuotedChar s ∧ '`' ∈ s.toList := by
  cases t with
  | column aliasName name =>
    simp only [Target.sql, bind_eq_ok, pure_eq_ok] at h
    obtain ⟨a, ha, n, hn, rfl⟩ := h
    have hdot : Text.Over isQuotedChar "." := .of_all (by decide)
    refine ⟨((quoteIdentifier_over ha).append hdot).append (quoteIdentifier_over hn), ?_⟩
    obtain ⟨-, rfl⟩ := quoteIdentifier_eq_ok.mp ha
    simp [backticked]
  | label name => exact ⟨quotePath_over h, backtick_mem_quotePath h⟩
  | raw sql => cases ht

theorem Target.ofChars_sql {t : Target} (ht : t.isName = true) {s : String} (h : t.sql = .ok s) :
    Lexeme.ofChars s.toList = [.word s] := by
  have hb := (Target.over_of_isName ht h).2
  have hne : s.toList.isEmpty = false := by
    cases hs : s.toList with
    | nil => rw [hs] at hb; simp at hb
    | cons c cs => rfl
  have hword : Lexeme.ofWord s = .word s := by
    unfold Lexeme.ofWord
    split_ifs with h1 h2 h3
    · subst h1; exact absurd hb (by decide)
    · subst h2; exact absurd hb (by decide)
    · subst h3; exact absurd hb (by decide)
    · rfl
  simp [Lexeme.ofChars, hne, hword]

theorem Fragment.lexemes_opening {t : Target} (ht : t.isName = true) {s : String}
    (h : t.sql = .ok s) (operator : String) (rest : Fragment) :
    Fragment.lexemes (.plain (s ++ " " ++ operator) :: rest) =
      .word s :: Fragment.lexemes (.plain operator :: rest) := by
  have hover : ∀ c ∈ s.toList, isWordChar c = true :=
    (Target.over_of_isName ht h).1.mono fun _ => isWordChar_of_isQuotedChar
  have hname : lexemes [.plain s] = [.word s] := by
    have hs := lexemesFrom_word hover [] []
    rw [List.append_nil, List.nil_append, lexemesFrom, Target.ofChars_sql ht h] at hs
    rw [← hs]
    simp [lexemes, symbols, SqlPiece.symbols]
  have hb := lexemes_blank [] s operator rest
  rwa [List.nil_append, List.nil_append, hname] at hb

/-! ### What is read as a leaf -/

/-- Words and marks. -/
def Lexeme.isPlain : Lexeme → Bool
  | .word _ | .mark _ => true
  | _ => false

theorem ReadOperand.foldlM_extend {xs : List Lexeme} (h : ∀ x ∈ xs, x.isPlain = true)
    (text : List Lexeme) (depth : Nat) (range : Bool) :
    xs.foldlM extend? (.leaf text depth range) = some (.leaf (text ++ xs) depth range) := by
  induction xs generalizing text with
  | nil => simp
  | cons x xs ih =>
    have hx : extend? (.leaf text depth range) x = some (.leaf (text ++ [x]) depth range) := by
      have hp := h x (by simp)
      cases x with
      | word text => cases depth <;> cases range <;> rfl
      | mark param => cases depth <;> cases range <;> rfl
      | _ => cases hp
    rw [List.foldlM_cons, hx]
    show xs.foldlM extend? (.leaf (text ++ [x]) depth range) = _
    rw [ih fun y hy => h y (List.mem_cons_of_mem x hy), List.append_assoc]
    rfl

theorem readsOperand_plain (s : String) {xs : List Lexeme} (h : ∀ x ∈ xs, x.isPlain = true) :
    ReadsOperand (.word s :: xs) (.leaf (.word s :: xs)) := by
  refine readsOperand_leaf ?_
  show xs.foldlM ReadOperand.extend? (.leaf [.word s] 0 false) = _
  rw [ReadOperand.foldlM_extend h]
  rfl

theorem readsOperand_list (s : String) {xs ys : List Lexeme} (hx : ∀ x ∈ xs, x.isPlain = true)
    (hy : ∀ y ∈ ys, y.isPlain = true) :
    ReadsOperand (.word s :: xs ++ .opening :: (ys ++ [.closing]))
      (.leaf (.word s :: xs ++ .opening :: (ys ++ [.closing]))) := by
  refine readsOperand_leaf ?_
  rw [List.foldlM_append]
  show (xs.foldlM ReadOperand.extend? (.leaf [.word s] 0 false)).bind _ = _
  rw [ReadOperand.foldlM_extend hx]
  show (ys ++ [Lexeme.closing]).foldlM ReadOperand.extend?
    (.leaf ([Lexeme.word s] ++ xs ++ [.opening]) 1 false) = _
  rw [List.foldlM_append, ReadOperand.foldlM_extend hy]
  show some (ReadOperand.leaf ([Lexeme.word s] ++ xs ++ [.opening] ++ ys ++ [.closing]) 0 false) = _
  simp

namespace Fragment

theorem isPlain_lexemes_mark {words : String} (h : ∀ x ∈ lexemes [.plain words], x.isPlain = true)
    (p : Param) : ∀ x ∈ lexemes [.plain words, .mark p], x.isPlain = true := by
  have hl : lexemes [.plain words, .mark p] = lexemes [.plain words] ++ [.mark p] :=
    lexemes_mark [.plain words] p []
  intro x hx
  rw [hl, List.mem_append, List.mem_singleton] at hx
  rcases hx with hx | rfl
  · exact h x hx
  · rfl

/-- The marks of a list with commas between them. -/
def commaMarks : List Param → List Lexeme
  | [] => []
  | p :: ps => .mark p :: ps.flatMap fun q => [.word ",", .mark q]

theorem isPlain_of_mem_commaMarks {ps : List Param} : ∀ x ∈ commaMarks ps, x.isPlain = true := by
  cases ps with
  | nil => simp [commaMarks]
  | cons p ps =>
    intro x hx
    simp only [commaMarks, List.mem_cons, List.mem_flatMap, List.not_mem_nil, or_false] at hx
    rcases hx with rfl | ⟨q, -, rfl | rfl⟩ <;> rfl

theorem lexemes_marks : ∀ {ps : List Param}, ps ≠ [] →
    (joined ", " (ps.map ofParam)).lexemes = commaMarks ps
  | [], h => absurd rfl h
  | p :: ps, _ => by
    have hmark : ∀ q : Param, (ofParam q).lexemes = [.mark q] := fun q => lexemes_mark [] q []
    have hcomma : ∀ (q : Param) (rest : Fragment),
        (ofParam q ++ .plain ", " :: rest).lexemes =
          (ofParam q).lexemes ++ .word "," :: rest.lexemes := by
      intro q rest
      have hblank := lexemes_blank (ofParam q) "," "" rest
      have hl : lexemes (ofParam q ++ [.plain ","]) = [.mark q, .word ","] :=
        lexemes_mark [] q [.plain ","]
      rw [hl, lexemes_empty_cons] at hblank
      rw [hmark]
      exact hblank
    rw [List.map_cons, lexemes_joined (x := .word ",") fun g hg rest => ?_]
    · simp only [hmark, commaMarks, List.flatMap_map, List.singleton_append]
    · obtain ⟨q, -, rfl⟩ := List.mem_map.mp (List.map_cons.symm ▸ hg : g ∈ (p :: ps).map ofParam)
      exact hcomma q rest

end Fragment

/-! ### What a fragment is read as -/

/-- A fragment is read as a condition over predicates with given leaves and a given truth. -/
def Fragment.Means (reads : List Lexeme → Condition (List Lexeme) → Prop) (f : Fragment)
    (leaves : List Predicate) (truth : (Predicate → Bool) → Bool) : Prop :=
  ∃ c : Condition Predicate, reads f.lexemes (c.map Predicate.lexemes) ∧ c.leaves = leaves ∧
    ∀ v, c.eval v = truth v

namespace Fragment

variable {f : Fragment} {leaves : List Predicate} {truth : (Predicate → Bool) → Bool}

theorem means_leaf {reads : List Lexeme → Condition (List Lexeme) → Prop} {p : Predicate}
    (hleaves : p.leaves = [p]) (hholds : ∀ v, p.holds v = v p)
    (h : reads f.lexemes (.leaf p.lexemes)) : f.Means reads p.leaves fun v => p.holds v :=
  ⟨.leaf p, h, hleaves.symm, fun v => (hholds v).symm⟩

/-- A printed predicate that is no group, and no condition of the author's, is read as a leaf if its
lexemes are. -/
theorem means_of_readsOperand {p : Predicate} (hraw : ∀ s, p ≠ .raw s) (h : p.sql = .ok f)
    (hleaves : p.leaves = [p]) (hholds : ∀ v, p.holds v = v p)
    (hread : ReadsOperand f.lexemes (.leaf f.lexemes)) :
    f.Means ReadsOperand p.leaves fun v => p.holds v := by
  have hl : p.lexemes = f.lexemes := by
    unfold Predicate.lexemes
    split
    · next s => exact absurd rfl (hraw s)
    · rw [h]
      rfl
  exact means_leaf hleaves hholds (hl ▸ hread)

theorem Means.inParens (h : f.Means ReadsLevel leaves truth) :
    f.inParens.Means ReadsOperand leaves truth := by
  obtain ⟨c, hread, hc⟩ := h
  have hl : f.inParens.lexemes = .opening :: (f.lexemes ++ [.closing]) := lexemes_inParens [] f
  exact ⟨c, by rw [hl]; exact hread.inParens, hc⟩

/-- **Printed parts with the same word between each two.** Each is read as an operand, so together
they are read as a level: all of them or one of them has to hold. -/
theorem means_joined {α : Type} {leaves : α → List Predicate}
    {holds : (Predicate → Bool) → α → Bool} (conjunction : Conjunction) {xs : List α}
    {fs : List Fragment} (hne : xs ≠ [])
    (h : List.Forall₂ (fun x f => f.Means ReadsOperand (leaves x) fun v => holds v x) xs fs) :
    (joined conjunction.sql fs).Means ReadsLevel (xs.flatMap leaves) fun v =>
      conjunction.truth (xs.map (holds v)) := by
  cases h with
  | nil => exact absurd rfl hne
  | @cons x f xs fs hx h =>
    obtain ⟨c, hread, hleaves, heval⟩ := hx
    have hrest : ∃ cs : List (Condition Predicate),
        List.Forall₂ ReadsOperand (fs.map lexemes) (cs.map (Condition.map Predicate.lexemes)) ∧
          cs.flatMap Condition.leaves = xs.flatMap leaves ∧
            ∀ v, cs.map (Condition.eval v) = xs.map (holds v) := by
      clear hread hleaves heval
      induction h with
      | nil => exact ⟨[], .nil, rfl, fun v => rfl⟩
      | cons hy _ ih =>
        obtain ⟨d, hread, hleaves, heval⟩ := hy
        obtain ⟨cs, hreads, hsleaves, hsevals⟩ := ih (by simp)
        refine ⟨d :: cs, .cons hread hreads, ?_, fun v => ?_⟩
        · rw [List.flatMap_cons, List.flatMap_cons, hleaves, hsleaves]
        · rw [List.map_cons, List.map_cons, heval, hsevals]
    obtain ⟨cs, hreads, hsleaves, hsevals⟩ := hrest
    refine ⟨.joined conjunction c cs, ?_, ?_, fun v => ?_⟩
    · rw [lexemes_joined fun g _ rest => lexemes_conjunction conjunction g rest,
        Condition.map_joined]
      have := readsLevel_joined conjunction hread hreads
      rwa [List.flatMap_map] at this
    · rw [Condition.leaves_joined, hleaves, hsleaves, List.flatMap_cons]
    · rw [Condition.eval_joined, heval, hsevals]
      rfl

end Fragment

/-- **A printed predicate is read as an operand.** One that is no group is a leaf; the AND of a
range belongs to it, and so do the parentheses of a list. -/
theorem Predicate.reads (p : Predicate) : ∀ f, p.sql = .ok f → p.isProper = true →
    f.Means ReadsOperand p.leaves fun v => p.holds v := by
  induction p with
  | compare target op param =>
    intro f h hp
    obtain ⟨s, hs, rfl⟩ := compare_eq_ok.mp h
    refine Fragment.means_of_readsOperand (by simp) h rfl (fun v => rfl) ?_
    rw [Fragment.lexemes_opening hp hs]
    exact readsOperand_plain s
      (Fragment.isPlain_lexemes_mark (by cases op <;> decide +kernel) param)
  | like target negated param =>
    intro f h hp
    obtain ⟨s, hs, rfl⟩ := like_eq_ok.mp h
    refine Fragment.means_of_readsOperand (by simp) h rfl (fun v => rfl) ?_
    rw [Fragment.lexemes_opening hp hs]
    exact readsOperand_plain s
      (Fragment.isPlain_lexemes_mark (by cases negated <;> decide +kernel) param)
  | among target negated params =>
    intro f h hp
    obtain ⟨hne, s, hs, rfl⟩ := among_eq_ok.mp h
    refine Fragment.means_of_readsOperand (by simp) h rfl (fun v => rfl) ?_
    have hl := Fragment.lexemes_inParens [.plain (orNot negated "IN " "NOT IN ")]
      (Fragment.joined ", " (params.map Fragment.ofParam))
    rw [List.singleton_append, Fragment.lexemes_marks hne] at hl
    rw [Fragment.lexemes_opening hp hs, hl]
    exact readsOperand_list s (by cases negated <;> decide +kernel)
      Fragment.isPlain_of_mem_commaMarks
  | between target low high =>
    intro f h hp
    obtain ⟨s, hs, rfl⟩ := between_eq_ok.mp h
    refine Fragment.means_of_readsOperand (by simp) h rfl (fun v => rfl) ?_
    have hl : Fragment.lexemes [.plain "BETWEEN ", .mark low, .plain " AND ", .mark high] =
        [.between, .mark low, .and, .mark high] := by
      have hlow := Fragment.lexemes_mark [.plain "BETWEEN "] low [.plain " AND ", .mark high]
      have hhigh := Fragment.lexemes_mark [.plain " AND "] high []
      rw [List.singleton_append] at hlow hhigh
      rw [hlow, hhigh]
      rfl
    rw [Fragment.lexemes_opening hp hs, hl]
    exact readsOperand_leaf rfl
  | isNull target negated =>
    intro f h hp
    obtain ⟨s, hs, rfl⟩ := isNull_eq_ok.mp h
    refine Fragment.means_of_readsOperand (by simp) h rfl (fun v => rfl) ?_
    rw [Fragment.lexemes_opening hp hs]
    exact readsOperand_plain s (by cases negated <;> decide +kernel)
  | raw sql =>
    intro f h _
    rw [raw_eq_ok.mp h]
    have hl : (Fragment.ofAuthor sql).lexemes = [.author sql] := rfl
    refine Fragment.Means.inParens (Fragment.means_leaf rfl (fun v => rfl) ?_)
    rw [hl]
    exact (readsOperand_leaf rfl).readsLevel
  | group conjunction items ih =>
    intro f h hp
    obtain ⟨fs, hfs, rfl⟩ := group_eq_ok.mp h
    simp only [isProper, Bool.and_eq_true, areProper_eq_true] at hp
    obtain ⟨hne, hp⟩ := hp
    have hparts : List.Forall₂ (fun p f => f.Means ReadsOperand p.leaves fun v => p.holds v)
        items fs :=
      ((List.forall₂_and_left _ _).mpr ⟨fun p hmem => And.intro (ih p hmem) (hp p hmem), hfs⟩).imp
        fun p f h => h.1.1 f h.2 h.1.2
    have := (Fragment.means_joined conjunction (by simpa using hne) hparts).inParens
    simpa only [leaves, holds, itemLeaves_eq_flatMap, itemsHold_eq_map] using this

theorem Group.reads_items {g : Group} (hg : g.isProper = true) {fs : List Fragment}
    (hfs : List.Forall₂ (fun p f => Predicate.sql p = .ok f) g.items fs) :
    List.Forall₂ (fun p f => f.Means ReadsOperand p.leaves fun v => p.holds v) g.items fs := by
  simp only [isProper, Bool.and_eq_true, Predicate.areProper_eq_true] at hg
  exact ((List.forall₂_and_left _ _).mpr ⟨hg.2, hfs⟩).imp fun p f h => p.reads f h.2 h.1

theorem Group.reads {g : Group} (hg : g.isProper = true) {f : Fragment} (h : g.sql = .ok f) :
    f.Means ReadsLevel g.leaves fun v => g.holds v := by
  obtain ⟨fs, hfs, rfl⟩ := Group.sql_eq_ok.mp h
  have hne : g.items ≠ [] := by
    rintro he
    simp [isProper, he] at hg
  have := Fragment.means_joined g.conjunction hne (reads_items hg hfs)
  simpa only [leaves, holds, Predicate.itemLeaves_eq_flatMap, Predicate.itemsHold_eq_map] using this

/-- **One of several printed groups is read as an operand**: it stands in parentheses, or is one
predicate. -/
theorem Query.reads_groupSql {g : Group} (hg : g.isProper = true) {f : Fragment}
    (h : groupSql true g = .ok f) : f.Means ReadsOperand g.leaves fun v => g.holds v := by
  obtain ⟨f', hf, rfl⟩ := groupSql_eq_ok.mp h
  rw [Bool.true_and]
  split_ifs with hlength
  · exact (Group.reads hg hf).inParens
  · obtain ⟨fs, hfs, rfl⟩ := Group.sql_eq_ok.mp hf
    have hreads := Group.reads_items hg hfs
    obtain ⟨conjunction, items⟩ := g
    match items, fs, hreads with
    | [], _, _ => simp [Group.isProper] at hg
    | _ :: _ :: _, _, _ => simp at hlength
    | [p], [f], .cons hp .nil =>
      obtain ⟨c, hread, hleaves, heval⟩ := hp
      refine ⟨c, hread, ?_, fun v => ?_⟩
      · simp [hleaves, Group.leaves, Predicate.itemLeaves]
      · rw [heval]
        cases conjunction <;> simp [Group.holds, Predicate.itemsHold, Conjunction.truth]

namespace Query

theorem foldl_filter {gs : List Group} (hgs : ∀ g ∈ gs, g.isProper = true) (q : Query) :
    gs.foldl filter q = { q with filters := q.filters ++ gs } := by
  induction gs generalizing q with
  | nil => simp
  | cons g gs ih =>
    have hg : g.items.isEmpty = false := by
      have := hgs g (by simp)
      simp only [Group.isProper, Bool.and_eq_true] at this
      simpa using this.1
    rw [List.foldl_cons, ih fun e he => hgs e (List.mem_cons_of_mem g he)]
    simp [filter, hg]

theorem reads_whereSql {q : Query} (hne : q.filters ≠ [])
    (hq : ∀ g ∈ q.filters, g.isProper = true) {f : Fragment} (h : q.whereSql = .ok f) :
    ∃ w : Fragment, f = .plain " WHERE " :: w ∧
      w.Means ReadsLevel (q.filters.flatMap Group.leaves) fun v =>
        q.filters.all fun g => g.holds v := by
  obtain ⟨parts, hparts, rfl⟩ := (whereSql_eq_ok hne).mp h
  refine ⟨_, rfl, ?_⟩
  generalize q.filters = gs at hne hq hparts
  match gs, parts, hparts with
  | [], _, _ => exact absurd rfl hne
  | [g], [part], .cons hg .nil =>
    obtain ⟨f', hf, rfl⟩ := groupSql_eq_ok.mp hg
    simpa [Fragment.joined] using Group.reads (hq g (by simp)) hf
  | g :: g' :: gs, parts, hparts =>
    have hreads : List.Forall₂
        (fun (g : Group) f => f.Means ReadsOperand g.leaves fun v => g.holds v)
        (g :: g' :: gs) parts := by
      refine ((List.forall₂_and_left _ _).mpr ⟨hq, hparts⟩).imp fun g f h => ?_
      exact reads_groupSql h.1 (by simpa using h.2)
    have := Fragment.means_joined .and hne hreads
    simpa only [Conjunction.sql, Conjunction.truth, List.all_map, Function.id_comp] using this

/-- **The conditions of a query, as SQL reads them, are the conjunction of its groups.** The text
between the word WHERE and the clauses behind it is read as a condition over the leaves of the
groups in order, and under every truth of the leaves it holds iff every group does. -/
theorem readCondition_where (q : Query) (hq : q.filters = []) {gs : List Group} (hne : gs ≠ [])
    (hgs : ∀ g ∈ gs, g.isProper = true) {f : Fragment} (h : (gs.foldl filter q).sql = .ok f) :
    ∃ (head : String) (w : Fragment) (tail : String), q.headSql = .ok head ∧
      f = .plain head :: .plain " WHERE " :: (w ++ [.plain tail]) ∧
      ∃ c : Condition Predicate, readCondition w.lexemes = some (c.map Predicate.lexemes) ∧
        c.leaves = gs.flatMap Group.leaves ∧ ∀ v, c.eval v = gs.all fun g => g.holds v := by
  rw [foldl_filter hgs, hq, List.nil_append] at h
  obtain ⟨head, conditions, grouping, order, hhead, hw, -, -, rfl⟩ := sql_eq_ok.mp h
  obtain ⟨w, rfl, c, hread, hc⟩ := reads_whereSql (q := { q with filters := gs }) hne hgs hw
  exact ⟨head, w, _, hhead, rfl, c, readCondition_of_readsLevel hread, hc⟩

/-- Two groups: a nested one with a range and a condition of the author's, and a list. -/
def mixedGroups : List Group :=
  [⟨.or, [.like (.column "post" "title") false ⟨"g0_0", .text "%a%"⟩,
    .group .and [.between (.column "post" "id") ⟨"p100", .int 1⟩ ⟨"p101", .int 9⟩,
      .raw "post.draft = 0 OR TRUE"]]⟩,
    ⟨.or, [.among (.label "kind") true [⟨"p102", .int 1⟩, ⟨"p103", .int 2⟩]]⟩]

/-- Posts under two groups. -/
def mixed : Query := mixedGroups.foldl filter { table := "posts", aliasName := "post" }

/-- The text of the posts under two groups. -/
def mixedText : String :=
  "SELECT `post`.* FROM `posts` AS `post` WHERE (`post`.`title` LIKE ? OR " ++
    "(`post`.`id` BETWEEN ? AND ? AND (post.draft = 0 OR TRUE))) AND `kind` NOT IN (?, ?)"

theorem readCondition_where_mixed : ∃ f, mixed.sql = .ok f ∧ f.text = mixedText ∧
    ∃ (head : String) (w : Fragment) (tail : String) (c : Condition Predicate),
      f = .plain head :: .plain " WHERE " :: (w ++ [.plain tail]) ∧
      readCondition w.lexemes = some (c.map Predicate.lexemes) ∧ c.leaves.length = 4 ∧
        ∀ v, c.eval v = mixedGroups.all fun g => g.holds v := by
  have hgs : ∀ g ∈ mixedGroups, g.isProper = true := by decide
  obtain ⟨f, h, ht⟩ := exists_ok (x := mixed.sql) (p := fun f => f.text == mixedText)
    (by decide +kernel)
  obtain ⟨head, w, tail, -, hf, c, hread, hleaves, heval⟩ :=
    readCondition_where { table := "posts", aliasName := "post" } rfl (by simp [mixedGroups]) hgs h
  exact ⟨f, h, by simpa using ht, head, w, tail, c, hf, hread, by rw [hleaves]; rfl, heval⟩

end Query

end TableQuery
