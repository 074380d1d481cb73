import TableQuery.Proofs.Sql.Alternatives
import TableQuery.Proofs.Sql.Printing

/-! # Conditions of the author's among the others

The conditions that a table's author gives come first, each in parentheses, and the groups of the
searches come behind them. If what is printed behind them is closed and has no OR outside of
parentheses, then all of them are operands of the only alternative, so the whole condition holds
only if each of them does (`Query.keeps_of_filters`).

A predicate prints closed letters if the expressions in it are closed (`Predicate.closed_sql`). A
group of several predicates stands in parentheses; the predicate of a group of one does not, so it
may have no OR outside of its own parentheses (`Query.closed_groupSql`). -/

namespace TableQuery

open Outcome

/-! ### Letters -/

theorem Text.letters_append (s t : String) :
    Text.letters (s ++ t) = Text.letters s ++ Text.letters t := by
  simp [Text.letters]

namespace Fragment

theorem letters_cons (piece : SqlPiece) (f : Fragment) :
    letters (piece :: f) = piece.letters ++ letters f := rfl

theorem letters_append (f g : Fragment) : letters (f ++ g) = letters f ++ letters g :=
  List.flatMap_append

theorem letters_ofAuthor (sql : String) : letters (ofAuthor sql) = Text.letters sql :=
  List.append_nil _

theorem letters_inParens (f : Fragment) :
    letters (inParens f) = .char '(' :: letters f ++ [.char ')'] := by
  rw [inParens, List.cons_append, letters_cons, letters_append]
  rfl

end Fragment

theorem cuts_blank {ds : List Letter} {ts : List Token}
    (h : (Scan.word []).run ds = (ts, .word [])) : Cuts (.char ' ' :: ds) ts := by
  intro w
  have hblank : Cuts [.char ' '] [] := cuts_char (by decide) (by decide)
  rw [← List.singleton_append, Scan.run_append, hblank, h, List.append_nil]

theorem cuts_and : Cuts (Text.letters " AND ") [.and] := cuts_blank (by decide)

theorem cuts_or : Cuts (Text.letters " OR ") [.or] := cuts_blank (by decide)

theorem cuts_backticked {name : String} (h : isIdentifier name = true) :
    Cuts (Text.letters (backticked name)) [.quoted '`' name.toList] := by
  have hcs : ∀ c ∈ name.toList, c ≠ '`' ∧ c ≠ '\\' := fun c hc => by
    have hchar := isIdentifier_over h c hc
    constructor <;> rintro rfl <;> revert hchar <;> decide
  have hletters : Text.letters (backticked name) =
      .char '`' :: name.toList.map .char ++ [.char '`'] := by
    simp [Text.letters, backticked]
  rw [hletters]
  exact cuts_quoted (by decide) hcs

/-- **What an identifier between backticks keeps, some of them keep** with dots between them. -/
theorem backticked_induction {P : List Letter → Prop} (nil : P []) (dot : P (Text.letters "."))
    (append : ∀ {xs ys : List Letter} {name : String}, P xs → isIdentifier name = true → P ys →
      P (xs ++ Text.letters (backticked name) ++ ys)) :
    ∀ {names : List String}, (∀ name ∈ names, isIdentifier name = true) →
      ∀ {xs : List Letter}, P xs →
        P (xs ++ Text.letters (".".intercalate (names.map backticked)))
  | [], _, xs, hxs => by
    rw [List.map_nil, String.intercalate_nil]
    exact (List.append_nil xs).symm ▸ hxs
  | [name], h, xs, hxs => by
    have hone := append hxs (h name List.mem_cons_self) nil
    rwa [List.append_nil] at hone
  | name :: next :: names, h, xs, hxs => by
    have hrest := backticked_induction nil dot append
      (fun n hn => h n (List.mem_cons_of_mem name hn)) dot
    rw [List.map_cons, List.map_cons, String.intercalate_cons_cons, Text.letters_append,
      Text.letters_append, List.append_assoc, ← List.append_assoc xs]
    exact append hxs (h name List.mem_cons_self) hrest

namespace Closed

variable {orToo : Bool} {xs ys : List Letter}

theorem of_false (h : Closed false xs) (orToo : Bool) : Closed orToo xs := by
  cases orToo
  · exact h
  · exact h.mono

theorem blank (hxs : Closed orToo xs) (hys : Closed orToo ys) :
    Closed orToo (xs ++ Text.letters " " ++ ys) :=
  hxs.append (cuts_blank rfl) rfl hys

theorem mark_behind (hxs : Closed orToo xs) (param : Param) :
    Closed orToo (xs ++ [.mark param]) := by
  have h := hxs.append (cuts_mark param) rfl nil
  rwa [List.append_nil] at h

theorem joined {sep : String} {ts : List Token} (hsep : Cuts (Text.letters sep) ts)
    (hts : TableQuery.levels orToo 0 ts = some 0) : ∀ {fs : List Fragment},
      (∀ f ∈ fs, Closed orToo f.letters) → Closed orToo (Fragment.joined sep fs).letters
  | [], _ => nil
  | [f], h => h f List.mem_cons_self
  | f :: g :: fs, h => by
    have hrest : Closed orToo (Fragment.joined sep (g :: fs)).letters :=
      joined hsep hts fun f hf => h f (List.mem_cons_of_mem _ hf)
    rw [Fragment.joined, Fragment.letters_append, Fragment.letters_cons, ← List.append_assoc]
    exact (h f List.mem_cons_self).append hsep hts hrest

theorem path {names : List String} (h : ∀ name ∈ names, isIdentifier name = true)
    (hxs : Closed orToo xs) :
    Closed orToo (xs ++ Text.letters (".".intercalate (names.map backticked))) :=
  backticked_induction nil (of_false (by decide) orToo)
    (fun hxs hname hys => hxs.append (cuts_backticked hname) rfl hys) h hxs

end Closed

/-! ### Targets and predicates -/

/-- The expression of a target, if it is one, is closed. -/
def Target.IsClosed (orToo : Bool) (t : Target) : Prop :=
  ∀ sql, t = .raw sql → Closed orToo (Text.letters sql)

theorem Target.isClosed_raw {orToo : Bool} {sql : String} (h : Closed orToo (Text.letters sql)) :
    (Target.raw sql).IsClosed orToo := by
  rintro _ ⟨rfl⟩
  exact h

theorem Target.isClosed_column (orToo : Bool) (aliasName name : String) :
    (Target.column aliasName name).IsClosed orToo := nofun

theorem Target.isClosed_label (orToo : Bool) (name : String) :
    (Target.label name).IsClosed orToo := nofun

theorem Target.closed_sql {orToo : Bool} {t : Target} {s : String} (h : t.sql = .ok s)
    (ht : t.IsClosed orToo) : Closed orToo (Text.letters s) := by
  cases t with
  | column aliasName name =>
    simp only [sql, bind_eq_ok, quoteIdentifier_eq_ok, pure_eq_ok] at h
    obtain ⟨_, ⟨ha, rfl⟩, _, ⟨hn, rfl⟩, rfl⟩ := h
    have hnames : ∀ n ∈ [aliasName, name], isIdentifier n = true := by simp [ha, hn]
    simpa [String.intercalate_cons_cons] using Closed.path hnames Closed.nil
  | label name =>
    obtain ⟨hpath, rfl⟩ := quotePath_eq_ok.mp h
    simpa using Closed.path (List.all_eq_true.mp hpath) Closed.nil
  | raw text =>
    simp only [sql] at h
    split_ifs at h
    cases h
    exact ht s rfl

namespace Predicate

mutual

/-- The expressions and the conditions of the author's in a predicate are closed. -/
def IsClosed (orToo : Bool) : Predicate → Prop
  | .compare target _ _ => target.IsClosed orToo
  | .like target _ _ => target.IsClosed orToo
  | .among target _ _ => target.IsClosed orToo
  | .between target _ _ => target.IsClosed orToo
  | .isNull target _ => target.IsClosed orToo
  | .raw sql => Closed true (Text.letters sql)
  | .group _ items => AreClosed items

/-- Predicates in parentheses, where an OR is inside of them. -/
def AreClosed : List Predicate → Prop
  | [] => True
  | p :: ps => p.IsClosed true ∧ AreClosed ps

end

theorem areClosed_iff : ∀ {items : List Predicate}, AreClosed items ↔ ∀ p ∈ items, p.IsClosed true
  | [] => by simp [AreClosed]
  | p :: ps => by rw [AreClosed, areClosed_iff, List.forall_mem_cons]

theorem cuts_conjunction (conjunction : Conjunction) :
    ∃ ts, Cuts (Text.letters conjunction.sql) ts ∧ levels true 0 ts = some 0 := by
  cases conjunction
  · exact ⟨[.and], cuts_and, rfl⟩
  · exact ⟨[.or], cuts_or, rfl⟩

theorem closed_opening {orToo : Bool} {target : Target} {s operator : String}
    (h : target.sql = .ok s) (ht : target.IsClosed orToo)
    (hoperator : Closed false (Text.letters operator)) :
    Closed orToo (Text.letters (s ++ " " ++ operator)) := by
  rw [Text.letters_append, Text.letters_append]
  exact (target.closed_sql h ht).blank (hoperator.of_false orToo)

theorem closed_marks (params : List Param) :
    Closed true (Fragment.joined ", " (params.map Fragment.ofParam)).letters := by
  have hcomma : Cuts (Text.letters ", ") [.symbol ','] :=
    (cuts_char (by decide) (by decide) : Cuts [.char ','] _).append (cuts_blank rfl)
  refine Closed.joined hcomma rfl fun f hf => ?_
  obtain ⟨param, -, rfl⟩ := List.mem_map.mp hf
  exact Closed.nil.mark_behind param

theorem letters_among (s : String) (negated : Bool) (params : List Param) :
    Fragment.letters (.plain (s ++ " " ++ orNot negated "IN " "NOT IN ") ::
        Fragment.inParens (Fragment.joined ", " (params.map Fragment.ofParam))) =
      Text.letters (s ++ " " ++ orNot negated "IN" "NOT IN") ++ Text.letters " " ++
        (.char '(' :: Fragment.letters (Fragment.joined ", " (params.map Fragment.ofParam)) ++
          [.char ')']) := by
  have hword : orNot negated "IN " "NOT IN " = orNot negated "IN" "NOT IN" ++ " " := by
    cases negated <;> rfl
  rw [hword, ← String.append_assoc, Fragment.letters_cons, SqlPiece.letters, Text.letters_append,
    Fragment.letters_inParens]

/-- **A predicate prints closed letters.** -/
theorem closed_sql (p : Predicate) : ∀ {orToo : Bool} {f : Fragment}, p.sql = .ok f →
    p.IsClosed orToo → Closed orToo f.letters := by
  induction p with
  | compare target op param =>
    intro orToo f h hp
    obtain ⟨s, hs, rfl⟩ := compare_eq_ok.mp h
    exact (closed_opening hs hp (by cases op <;> decide)).mark_behind param
  | like target negated param =>
    intro orToo f h hp
    obtain ⟨s, hs, rfl⟩ := like_eq_ok.mp h
    exact (closed_opening hs hp (by cases negated <;> decide)).mark_behind param
  | among target negated params =>
    intro orToo f h hp
    obtain ⟨-, s, hs, rfl⟩ := among_eq_ok.mp h
    have hstart : Closed orToo (Text.letters (s ++ " " ++ orNot negated "IN" "NOT IN")) :=
      closed_opening hs hp (by cases negated <;> decide)
    rw [letters_among]
    exact hstart.blank ((closed_marks params).parens orToo)
  | between target low high =>
    intro orToo f h hp
    obtain ⟨s, hs, rfl⟩ := between_eq_ok.mp h
    have hstart : Closed orToo (Text.letters (s ++ " " ++ "BETWEEN ")) :=
      closed_opening hs hp (by decide)
    have hall := (hstart.mark_behind low).append cuts_and rfl (Closed.nil.mark_behind high)
    simpa [Fragment.letters, SqlPiece.letters] using hall
  | isNull target negated =>
    intro orToo f h hp
    obtain ⟨s, hs, rfl⟩ := isNull_eq_ok.mp h
    have hall : Closed orToo (Text.letters (s ++ " " ++ orNot negated "IS NULL" "IS NOT NULL")) :=
      closed_opening hs hp (by cases negated <;> decide)
    simpa [Fragment.letters, SqlPiece.letters] using hall
  | raw text =>
    intro orToo f h hp
    rw [raw_eq_ok.mp h, Fragment.letters_inParens]
    rw [Fragment.letters_ofAuthor]
    exact Closed.parens hp orToo
  | group conjunction items ih =>
    intro orToo f h hp
    obtain ⟨fs, hfs, rfl⟩ := group_eq_ok.mp h
    obtain ⟨ts, hcuts, hts⟩ := cuts_conjunction conjunction
    rw [Fragment.letters_inParens]
    refine (Closed.joined hcuts hts fun f hf => ?_).parens orToo
    obtain ⟨p, hmem, hsql⟩ := exists_of_mem_right hfs hf
    exact ih p hmem hsql (areClosed_iff.mp hp p hmem)

end Predicate

/-! ### Groups -/

namespace Group

/-- All predicates of a group are closed. -/
def IsClosed (g : Group) : Prop := ∀ p ∈ g.items, p.IsClosed true

/-- The predicate of a group of one, which stands without parentheses, has no OR outside of its
own. -/
def HasNoBareOr (g : Group) : Prop := ∀ p, g.items = [p] → p.IsClosed false

theorem hasNoBareOr_of_length {g : Group} (h : g.items.length ≠ 1) : g.HasNoBareOr :=
  fun _ hone => absurd (congrArg List.length hone) h

theorem isClosed_empty (conjunction : Conjunction) : IsClosed ⟨conjunction, []⟩ :=
  fun _ h => absurd h List.not_mem_nil

theorem IsClosed.push {g : Group} (hg : g.IsClosed) {p : Predicate} (hp : p.IsClosed true) :
    (g.push p).IsClosed := by
  intro q hq
  rcases List.mem_append.mp hq with hq | hq
  · exact hg q hq
  · rw [List.mem_singleton.mp hq]
    exact hp

end Group

namespace Query

/-- **One of several printed groups has no OR outside of parentheses.** -/
theorem closed_groupSql {g : Group} (hg : g.IsClosed) (hone : g.HasNoBareOr) {f : Fragment}
    (h : groupSql true g = .ok f) : Closed false f.letters := by
  obtain ⟨f', hf, rfl⟩ := groupSql_eq_ok.mp h
  obtain ⟨fs, hfs, rfl⟩ := Group.sql_eq_ok.mp hf
  rw [Bool.true_and]
  split_ifs with hlength
  · obtain ⟨ts, hcuts, hts⟩ := Predicate.cuts_conjunction g.conjunction
    rw [Fragment.letters_inParens]
    refine (Closed.joined hcuts hts fun f hf => ?_).parens false
    obtain ⟨p, hmem, hsql⟩ := exists_of_mem_right hfs hf
    exact p.closed_sql hsql (hg p hmem)
  · obtain ⟨conjunction, items⟩ := g
    match items, fs, hfs with
    | [], [], .nil => exact Closed.nil
    | [p], [f], .cons hp .nil => exact p.closed_sql hp (hone p rfl)
    | _ :: _ :: _, _, _ => simp at hlength

/-- The group of a condition of the author's. -/
def authorGroup (sql : String) : Group := Group.all [.raw sql]

theorem groupSql_authorGroup {several : Bool} {sql : String} {f : Fragment}
    (h : groupSql several (authorGroup sql) = .ok f) :
    f.letters = .char '(' :: Text.letters sql ++ [.char ')'] := by
  obtain ⟨f', hf, rfl⟩ := groupSql_eq_ok.mp h
  obtain ⟨fs, hfs, rfl⟩ := Group.sql_eq_ok.mp hf
  have hone : ¬ (several && decide (1 < (authorGroup sql).items.length)) = true := by
    simp [authorGroup, Group.all]
  match fs, hfs with
  | [f], .cons hp .nil =>
    rw [if_neg hone, Fragment.joined, Predicate.raw_eq_ok.mp hp, Fragment.letters_inParens,
      Fragment.letters_ofAuthor]

/-- **The conditions of the author's are operands of the only alternative**, if the groups behind
them print closed letters without an OR outside of parentheses. -/
theorem exists_operands {several : Bool} {groups : List Group}
    (hgroups : ∀ g ∈ groups, ∀ f, groupSql several g = .ok f → Closed false f.letters) :
    ∀ {conditions : List String} {parts : List Fragment},
      (∀ sql ∈ conditions, Closed true (Text.letters sql)) →
      List.Forall₂ (fun g f => groupSql several g = .ok f)
        (conditions.map authorGroup ++ groups) parts →
      ∃ operands, alternatives ⟨0, 0⟩ (tokens (Fragment.joined " AND " parts).letters) =
        [operands] ∧ ∀ sql ∈ conditions,
          (.opening :: tokens (Text.letters sql) ++ [.closing]) ∈ operands
  | [], parts, _, hparts => by
    have hclosed : Closed false (Fragment.joined " AND " parts).letters :=
      Closed.joined cuts_and rfl fun f hf => by
        obtain ⟨g, hg, hsql⟩ := exists_of_mem_right hparts hf
        exact hgroups g hg f hsql
    obtain ⟨operands, hoperands⟩ := exists_alternative (p := ⟨0, 0⟩) hclosed.levels
    exact ⟨operands, hoperands, fun sql h => absurd h List.not_mem_nil⟩
  | sql :: conditions, part :: others, hconditions, .cons hpart hothers => by
    have hsql : Closed true (Text.letters sql) := hconditions sql List.mem_cons_self
    obtain ⟨hunquoted, htokens⟩ := hsql.run_parens
    rw [← groupSql_authorGroup hpart] at hunquoted htokens
    obtain ⟨operands, hoperands, hmem⟩ := exists_operands hgroups
      (fun sql h => hconditions sql (List.mem_cons_of_mem _ h)) hothers
    match others, hothers with
    | [], hothers =>
      obtain ⟨hnil, -⟩ := List.append_eq_nil_iff.mp (List.forall₂_nil_right_iff.mp hothers)
      obtain rfl := List.map_eq_nil_iff.mp hnil
      refine ⟨[.opening :: tokens (Text.letters sql) ++ [.closing]], ?_, ?_⟩
      · rw [Fragment.joined, htokens]
        have hone := alternatives_parens hsql.levels 0 []
        rw [List.append_nil, alternatives, Alternatives.foldr_extend, List.append_nil] at hone
        exact hone
      · exact fun sql' h => List.mem_cons.mpr (.inl (by rw [List.mem_singleton.mp h]))
    | other :: others, hothers =>
      refine ⟨(.opening :: tokens (Text.letters sql) ++ [.closing]) :: operands, ?_, ?_⟩
      · rw [Fragment.joined, Fragment.letters_append, Fragment.letters_cons, ← List.append_assoc,
          show (SqlPiece.plain " AND ").letters = Text.letters " AND " from rfl,
          tokens_append hunquoted cuts_and, htokens, List.append_assoc, List.singleton_append]
        exact alternatives_parens_and hsql.levels hoperands
      · intro sql' h
        rcases List.mem_cons.mp h with rfl | h
        · exact List.mem_cons_self
        · exact List.mem_cons_of_mem _ (hmem sql' h)

/-- The conditions of a query hold only if some conditions of the author's do. -/
def Keeps (q : Query) (conditions : List String) : Prop :=
  ∀ sql ∈ conditions, ∃ w : Fragment, q.whereSql = .ok (.plain " WHERE " :: w) ∧
    ∀ v, Holds v (tokens w.letters) → Holds v (tokens (Text.letters sql))

/-- **The conditions of a query hold only if those of the author's do**, if they come first, and if
the groups behind them are closed and no group of one has an OR outside of its parentheses. -/
theorem keeps_of_filters {q : Query} {conditions : List String} {groups : List Group}
    (hq : q.filters = conditions.map authorGroup ++ groups)
    (hconditions : ∀ sql ∈ conditions, Closed true (Text.letters sql))
    (hgroups : ∀ g ∈ groups, g.IsClosed ∧ g.HasNoBareOr) {f : Fragment} (h : q.sql = .ok f) :
    q.Keeps conditions := by
  intro sql hsql
  obtain ⟨-, conditionsSql, -, -, -, hwhere, -, -, -⟩ := sql_eq_ok.mp h
  have hne : q.filters ≠ [] := by
    rw [hq]
    exact List.append_ne_nil_of_left_ne_nil (List.ne_nil_of_mem (List.mem_map_of_mem hsql)) _
  obtain ⟨parts, hparts, rfl⟩ := (whereSql_eq_ok hne).mp hwhere
  rw [hq] at hparts
  have hclosed : ∀ g ∈ groups, ∀ f,
      groupSql (1 < (conditions.map authorGroup ++ groups).length) g = .ok f →
        Closed false f.letters := by
    intro g hg f hf
    have hseveral : 1 < (conditions.map authorGroup ++ groups).length := by
      have hleft := List.length_pos_of_mem hsql
      have hright := List.length_pos_of_mem hg
      simp only [List.length_append, List.length_map]
      omega
    rw [decide_eq_true hseveral] at hf
    exact closed_groupSql (hgroups g hg).1 (hgroups g hg).2 hf
  obtain ⟨operands, hoperands, hmem⟩ := exists_operands hclosed hconditions hparts
  exact ⟨_, hwhere, fun v hv => hv.of_mem hoperands (hconditions sql hsql).levels (hmem sql hsql)⟩

end Query

end TableQuery
