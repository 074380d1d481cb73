import TableQuery.Proofs.Sql.Disjunctions
import TableQuery.Proofs.Sql.Narrowing
import TableQuery.Proofs.Sql.Shapes
import TableQuery.Proofs.Search.Added

/-! # Rows that a query admits

The database binds values to the marks of a text by their positions, so a text is read without the
names of its parameters (`Fragment.reading`). A query admits a row if the conditions that it prints
hold for the row (`Query.Admits`).

A group joined by OR holds iff one of its predicates does (`Group.isMet_or`). The groups of a query
are joined by AND, so a row is admitted only if the last groups hold (`Query.isMet_of_admits`), and
iff all of them do (`Query.admits_iff`), under the conditions that the AND between them asks for:
a group in front of it leaves no BETWEEN waiting (`Settled`), and a group of one, which stands
without parentheses, has no OR of its own. -/

namespace TableQuery

open Outcome

/-! ### Names of parameters -/

/-- The parameter without its name. -/
def Param.unnamed (param : Param) : Param := { param with name := "" }

/-- The piece without the name of its parameter. -/
def SqlPiece.unnamed : SqlPiece → SqlPiece
  | .mark param => .mark param.unnamed
  | piece => piece

/-- The fragment without the names of its parameters. -/
def Fragment.unnamed (f : Fragment) : Fragment := f.map SqlPiece.unnamed

/-- The letter without the name of its parameter. -/
def Letter.unnamed : Letter → Letter
  | .mark param => .mark param.unnamed
  | x => x

/-- The token without the name of its parameter. -/
def Token.unnamed : Token → Token
  | .mark param => .mark param.unnamed
  | t => t

namespace Token

theorem unnamed_of_mem_ofWord {chars : List Char} {t : Token} (h : t ∈ ofWord chars) :
    t.unnamed = t := by
  unfold ofWord at h
  split at h
  · cases h
  · split at h <;> rw [List.mem_singleton.mp h] <;> rfl

theorem unnamed_of_mem_ofChar {c : Char} {t : Token} (h : t ∈ ofChar c) : t.unnamed = t := by
  unfold ofChar at h
  split_ifs at h <;> first | cases h; done | (rw [List.mem_singleton.mp h]; rfl)

theorem map_unnamed {ts : List Token} (h : ∀ t ∈ ts, t.unnamed = t) : ts.map unnamed = ts :=
  (List.map_congr_left h).trans (List.map_id ts)

theorem level_unnamed (orToo : Bool) (depth : Nat) (t : Token) :
    t.unnamed.level orToo depth = t.level orToo depth := by
  cases t <;> rfl

end Token

theorem levels_unnamed (orToo : Bool) (depth : Nat) (ts : List Token) :
    levels orToo depth (ts.map Token.unnamed) = levels orToo depth ts := by
  induction ts generalizing depth with
  | nil => rfl
  | cons t ts ih => simp only [List.map_cons, levels, t.level_unnamed, ih]

namespace Place

theorem after_unnamed (p : Place) (t : Token) : p.after t.unnamed = p.after t := by
  cases t <;> rfl

theorem behind_unnamed (p : Place) (ts : List Token) :
    p.behind (ts.map Token.unnamed) = p.behind ts := by
  rw [behind, List.foldl_map]
  simp only [after_unnamed]
  rfl

end Place

theorem Scan.step_unnamed (s : Scan) (x : Letter) :
    s.step x.unnamed = ((s.step x).1.map Token.unnamed, (s.step x).2) := by
  have hword : ∀ chars, (Token.ofWord chars).map Token.unnamed = Token.ofWord chars :=
    fun chars => Token.map_unnamed fun _ => Token.unnamed_of_mem_ofWord
  have hchar : ∀ c, (Token.ofChar c).map Token.unnamed = Token.ofChar c :=
    fun c => Token.map_unnamed fun _ => Token.unnamed_of_mem_ofChar
  cases s with
  | word chars =>
    cases x with
    | mark param => simp [step, Letter.unnamed, hword, Token.unnamed]
    | char c =>
      simp only [step, Letter.unnamed]
      split_ifs <;> simp [hword, hchar]
  | quoted quote chars escaped =>
    cases x with
    | mark param => rfl
    | char c =>
      simp only [step, Letter.unnamed]
      split_ifs <;> rfl

theorem tokens_unnamed (xs : List Letter) :
    tokens (xs.map Letter.unnamed) = (tokens xs).map Token.unnamed := by
  have hrun : ∀ s : Scan, s.run (xs.map Letter.unnamed) =
      ((s.run xs).1.map Token.unnamed, (s.run xs).2) := by
    induction xs with
    | nil => exact fun s => rfl
    | cons x xs ih => simp [Scan.run, Scan.step_unnamed, ih]
  have hfinish : ∀ s : Scan, s.finish.map Token.unnamed = s.finish := by
    rintro (chars | ⟨quote, chars, escaped⟩)
    · exact Token.map_unnamed fun _ => Token.unnamed_of_mem_ofWord
    · rfl
  rw [tokens, hrun, tokens, List.map_append, hfinish]

namespace Fragment

theorem letters_unnamed (f : Fragment) : f.unnamed.letters = f.letters.map Letter.unnamed := by
  have hpiece : ∀ piece : SqlPiece, piece.unnamed.letters = piece.letters.map Letter.unnamed := by
    rintro (text | text | param) <;>
      simp [SqlPiece.unnamed, SqlPiece.letters, Text.letters, Letter.unnamed]
  simp only [letters, unnamed, List.flatMap_map, List.map_flatMap, hpiece]

/-- What a database reads of a fragment: its tokens, where a parameter is its value. -/
def reading (f : Fragment) : List Token := (tokens f.letters).map Token.unnamed

/-- The fragment holds as a condition, given which operands without parentheses hold. -/
def IsMet (v : List Token → Prop) (f : Fragment) : Prop := Holds v f.reading

theorem reading_eq_of_unnamed {f g : Fragment} (h : f.unnamed = g.unnamed) :
    f.reading = g.reading := by
  rw [reading, ← tokens_unnamed, ← letters_unnamed, h, letters_unnamed, tokens_unnamed, reading]

theorem unnamed_joined (sep : String) (fs : List Fragment) :
    (joined sep fs).unnamed = joined sep (fs.map unnamed) := map_joined rfl fs

end Fragment

/-! ### Letters that leave no BETWEEN waiting -/

/-- Letters that close their quotes and parentheses, and leave no BETWEEN waiting for its AND. -/
structure Settled (xs : List Letter) : Prop where
  closed : Closed true xs
  free : Place.behind ⟨0, 0⟩ (tokens xs) = ⟨0, 0⟩

instance (xs : List Letter) : Decidable (Settled xs) :=
  decidable_of_iff (Closed true xs ∧ (Place.behind ⟨0, 0⟩ (tokens xs)).depth = 0 ∧
      (Place.behind ⟨0, 0⟩ (tokens xs)).betweens = 0)
    ⟨fun h => ⟨h.1, by cases hp : Place.behind ⟨0, 0⟩ (tokens xs); simp_all⟩,
      fun h => ⟨h.closed, by rw [h.free], by rw [h.free]⟩⟩

namespace Settled

variable {xs ys ds : List Letter} {ts : List Token}

theorem nil : Settled [] := ⟨.nil, rfl⟩

theorem append (hxs : Settled xs) (hds : Cuts ds ts) (hts : levels true 0 ts = some 0)
    (hfree : Place.behind ⟨0, 0⟩ ts = ⟨0, 0⟩) (hys : Settled ys) : Settled (xs ++ ds ++ ys) := by
  refine ⟨hxs.closed.append hds hts hys.closed, ?_⟩
  rw [tokens_append hxs.closed.unquoted hds, Place.behind_append, Place.behind_append, hxs.free,
    hfree, hys.free]

theorem blank (hxs : Settled xs) (hys : Settled ys) : Settled (xs ++ Text.letters " " ++ ys) :=
  hxs.append (cuts_blank rfl) rfl rfl hys

theorem mark_behind (hxs : Settled xs) (param : Param) : Settled (xs ++ [.mark param]) := by
  have h := hxs.append (cuts_mark param) rfl rfl nil
  rwa [List.append_nil] at h

/-- **Closed letters in parentheses are settled.** -/
theorem parens {orToo : Bool} (hxs : Closed orToo xs) :
    Settled (.char '(' :: xs ++ [.char ')']) := by
  refine ⟨hxs.parens true, ?_⟩
  rw [hxs.run_parens.2]
  exact Place.behind_parens (levels_mono hxs.levels)

theorem path {names : List String} (h : ∀ name ∈ names, isIdentifier name = true) :
    Settled (Text.letters (".".intercalate (names.map backticked))) :=
  backticked_induction nil (by decide)
    (fun hxs hname hys => hxs.append (cuts_backticked hname) rfl rfl hys) h nil

end Settled

/-- The expression of a target, if it is one, is settled. -/
def Target.IsSettled (t : Target) : Prop := ∀ sql, t = .raw sql → Settled (Text.letters sql)

namespace Target

variable {t : Target}

theorem IsSettled.isClosed (h : t.IsSettled) : t.IsClosed true :=
  fun sql hsql => (h sql hsql).closed

theorem isSettled_column (aliasName name : String) : (Target.column aliasName name).IsSettled :=
  nofun

theorem isSettled_label (name : String) : (Target.label name).IsSettled := nofun

theorem settled_sql {s : String} (h : t.sql = .ok s) (ht : t.IsSettled) :
    Settled (Text.letters s) := by
  cases t with
  | column aliasName name =>
    simp only [sql, bind_eq_ok, quoteIdentifier_eq_ok, pure_eq_ok] at h
    obtain ⟨_, ⟨ha, rfl⟩, _, ⟨hn, rfl⟩, rfl⟩ := h
    have hnames : ∀ n ∈ [aliasName, name], isIdentifier n = true := by simp [ha, hn]
    simpa [String.intercalate_cons_cons] using Settled.path hnames
  | label name =>
    obtain ⟨hpath, rfl⟩ := quotePath_eq_ok.mp h
    exact Settled.path (List.all_eq_true.mp hpath)
  | raw text =>
    simp only [sql] at h
    split_ifs at h
    cases h
    exact ht s rfl

theorem settled_opening {s operator : String} (h : t.sql = .ok s) (ht : t.IsSettled)
    (hoperator : Settled (Text.letters operator)) :
    Settled (Text.letters (s ++ " " ++ operator)) := by
  rw [Text.letters_append, Text.letters_append]
  exact (settled_sql h ht).blank hoperator

end Target

/-- **The predicate of a search value prints settled letters** for a settled target. -/
theorem SearchTerm.Gives.settled {term : SearchTerm} {names : Naming} {p : Predicate} {used : Nat}
    (h : term.Gives names p used) (ht : term.target.IsSettled) {f : Fragment}
    (hf : p.sql = .ok f) : Settled f.letters := by
  cases h with
  | isNull negated =>
    obtain ⟨s, hs, rfl⟩ := Predicate.isNull_eq_ok.mp hf
    have hall : Settled (Text.letters (s ++ " " ++
        Predicate.orNot negated "IS NULL" "IS NOT NULL")) :=
      Target.settled_opening hs ht (by cases negated <;> decide)
    simpa [Fragment.letters, SqlPiece.letters] using hall
  | compare op value =>
    obtain ⟨s, hs, rfl⟩ := Predicate.compare_eq_ok.mp hf
    exact (Target.settled_opening hs ht (by cases op <;> decide)).mark_behind _
  | like negated value =>
    obtain ⟨s, hs, rfl⟩ := Predicate.like_eq_ok.mp hf
    exact (Target.settled_opening hs ht (by cases negated <;> decide)).mark_behind _
  | @among negated values hne =>
    obtain ⟨-, s, hs, rfl⟩ := Predicate.among_eq_ok.mp hf
    have hstart : Settled (Text.letters (s ++ " " ++ Predicate.orNot negated "IN" "NOT IN")) :=
      Target.settled_opening hs ht (by cases negated <;> decide)
    rw [Predicate.letters_among]
    exact hstart.blank (.parens (Predicate.closed_marks (named names values)))

/-! ### Fragments with AND and OR between them -/

namespace Fragment

variable {v : List Token → Prop} {f g : Fragment} {fs : List Fragment} {orToo : Bool}

theorem levels_reading (h : Closed orToo f.letters) : levels orToo 0 f.reading = some 0 := by
  rw [reading, levels_unnamed, h.levels]

theorem behind_reading (h : Settled f.letters) : Place.behind ⟨0, 0⟩ f.reading = ⟨0, 0⟩ := by
  rw [reading, Place.behind_unnamed, h.free]

theorem reading_conjunction (hf : Closed orToo f.letters) {sep : String} {t : Token}
    (hsep : Cuts (Text.letters sep) [t]) (ht : t.unnamed = t) (g : Fragment) :
    (f ++ .plain sep :: g).reading = f.reading ++ t :: g.reading := by
  rw [reading, letters_append, letters_cons, SqlPiece.letters, ← List.append_assoc,
    tokens_append hf.unquoted hsep, List.map_append, List.map_append, List.append_assoc,
    List.map_singleton, ht]
  rfl

theorem isMet_inParens (hf : Closed orToo f.letters) : f.inParens.IsMet v ↔ f.IsMet v := by
  have hreading : f.inParens.reading = .opening :: f.reading ++ [.closing] := by
    rw [reading, letters_inParens, hf.run_parens.2, List.map_append]
    rfl
  rw [IsMet, hreading]
  exact holds_parens (levels_mono (levels_reading hf))

theorem isMet_or (hf : Closed true f.letters) :
    (f ++ .plain " OR " :: g).IsMet v ↔ f.IsMet v ∨ g.IsMet v := by
  rw [IsMet, reading_conjunction hf cuts_or rfl]
  exact holds_or (levels_reading hf)

/-- **Of fragments with OR between them, one has to hold.** -/
theorem isMet_joined_or (h : ∀ f ∈ fs, Closed true f.letters) (hne : fs ≠ []) :
    (joined " OR " fs).IsMet v ↔ ∃ f ∈ fs, f.IsMet v := by
  induction fs with
  | nil => exact absurd rfl hne
  | cons f fs ih =>
    cases fs with
    | nil => simp [joined]
    | cons g fs =>
      rw [joined, isMet_or (h f List.mem_cons_self),
        ih (fun f hf => h f (List.mem_cons_of_mem _ hf)) (List.cons_ne_nil g fs)]
      exact (List.exists_mem_cons_iff _ f (g :: fs)).symm

/-- Fragments that may stand in front of an AND without parentheses. -/
structure Stands (f : Fragment) : Prop where
  closed : Closed false f.letters
  settled : Settled f.letters

/-- **With an AND between two fragments, the first has to hold**, if the second may stand without
parentheses. -/
theorem IsMet.left (hf : Settled f.letters) (hg : Closed false g.letters)
    (h : (f ++ .plain " AND " :: g).IsMet v) : f.IsMet v := by
  rw [IsMet, reading_conjunction hf.closed cuts_and rfl] at h
  exact h.and_left (behind_reading hf) (levels_reading hg)

theorem IsMet.right (hf : f.Stands) (h : (f ++ .plain " AND " :: g).IsMet v) : g.IsMet v := by
  rw [IsMet, reading_conjunction hf.closed cuts_and rfl] at h
  exact h.and_right (behind_reading hf.settled) (levels_reading hf.closed)

theorem IsMet.of_append {before rest : List Fragment} (hbefore : ∀ f ∈ before, f.Stands)
    (hrest : rest ≠ []) (h : (joined " AND " (before ++ rest)).IsMet v) :
    (joined " AND " rest).IsMet v := by
  induction before with
  | nil => exact h
  | cons f before ih =>
    obtain ⟨g, fs, heq⟩ :=
      List.exists_cons_of_ne_nil (List.append_ne_nil_of_right_ne_nil before hrest)
    rw [List.cons_append, heq, joined, ← heq] at h
    exact ih (fun f hf => hbefore f (List.mem_cons_of_mem _ hf))
      (h.right (hbefore f List.mem_cons_self))

/-- **Of fragments with AND between them, all have to hold**, if all but the last may stand in front
of an AND. -/
theorem isMet_joined_and {before : List Fragment} (hbefore : ∀ f ∈ before, f.Stands)
    (hlast : before ≠ [] → Closed false f.letters) : (joined " AND " (before ++ [f])).IsMet v ↔
      (∀ e ∈ before, e.IsMet v) ∧ f.IsMet v := by
  induction before with
  | nil => simp [joined]
  | cons e before ih =>
    have hf : Closed false f.letters := hlast (List.cons_ne_nil e before)
    have he : e.Stands := hbefore e List.mem_cons_self
    have hrest : ∀ e ∈ before, e.Stands := fun e he => hbefore e (List.mem_cons_of_mem _ he)
    obtain ⟨g, fs, heq⟩ := List.exists_cons_of_ne_nil
      (List.append_ne_nil_of_right_ne_nil before (List.cons_ne_nil f []))
    have hjoined : Closed false (joined " AND " (before ++ [f])).letters :=
      Closed.joined cuts_and rfl fun e he => (List.mem_append.mp he).elim
        (fun h => (hrest e h).closed) fun h => List.mem_singleton.mp h ▸ hf
    rw [List.forall_mem_cons, and_assoc, ← ih hrest fun _ => hf, List.cons_append, heq, joined,
      ← heq]
    refine ⟨fun h => ⟨h.left he.settled hjoined, h.right he⟩, ?_⟩
    rintro ⟨hleft, hright⟩
    rw [IsMet, reading_conjunction he.closed cuts_and rfl]
    exact .and (behind_reading he.settled) (levels_reading he.closed) (levels_reading hjoined)
      hleft hright

end Fragment

/-! ### Groups -/

/-- The predicate holds as it is printed. -/
def Predicate.IsMet (v : List Token → Prop) (p : Predicate) : Prop :=
  ∃ f, p.sql = .ok f ∧ f.IsMet v

namespace Group

variable {v : List Token → Prop} {g : Group} {f : Fragment}

/-- The group holds as it is printed. -/
def IsMet (v : List Token → Prop) (g : Group) : Prop := ∃ f, g.sql = .ok f ∧ f.IsMet v

/-- The predicate of a group of one, which stands without parentheses, is settled. -/
def IsSettled (g : Group) : Prop := ∀ p, g.items = [p] → ∀ f, p.sql = .ok f → Settled f.letters

/-- A group that may stand in front of others: closed, and if it is a group of one, without an OR
outside of its parentheses and without a BETWEEN that waits for its AND. -/
structure Stands (g : Group) : Prop where
  closed : g.IsClosed
  noBareOr : g.HasNoBareOr
  settled : g.IsSettled

theorem closed_sql (hg : g.IsClosed) (h : g.sql = .ok f) : Closed true f.letters := by
  obtain ⟨fs, hfs, rfl⟩ := sql_eq_ok.mp h
  obtain ⟨ts, hcuts, hts⟩ := Predicate.cuts_conjunction g.conjunction
  refine Closed.joined hcuts hts fun f hf => ?_
  obtain ⟨p, hmem, hsql⟩ := exists_of_mem_right hfs hf
  exact p.closed_sql hsql (hg p hmem)

/-- **A group joined by OR holds iff one of its predicates does.** -/
theorem isMet_or (hg : g.IsClosed) (hor : g.conjunction = .or) (hne : g.items ≠ [])
    (h : g.sql = .ok f) : g.IsMet v ↔ ∃ p ∈ g.items, p.IsMet v := by
  obtain ⟨fs, hfs, rfl⟩ := sql_eq_ok.mp h
  have hclosed : ∀ f ∈ fs, Closed true f.letters := fun f hf => by
    obtain ⟨p, hmem, hsql⟩ := exists_of_mem_right hfs hf
    exact p.closed_sql hsql (hg p hmem)
  have hfsne : fs ≠ [] := by
    rintro rfl
    exact hne (List.forall₂_nil_right_iff.mp hfs)
  have hgroup : g.IsMet v ↔ ∃ f ∈ fs, f.IsMet v := by
    rw [← Fragment.isMet_joined_or hclosed hfsne]
    refine ⟨fun ⟨f', hf', hmet⟩ => ?_, fun hmet => ⟨_, h, hor ▸ hmet⟩⟩
    cases h.symm.trans hf'
    rw [hor] at hmet
    exact hmet
  rw [hgroup]
  constructor
  · rintro ⟨f, hf, hmet⟩
    obtain ⟨p, hp, hsql⟩ := exists_of_mem_right hfs hf
    exact ⟨p, hp, f, hsql, hmet⟩
  · rintro ⟨p, hp, f, hsql, hmet⟩
    obtain ⟨f', hf', hsql'⟩ := exists_of_mem_right hfs.flip hp
    cases hsql.symm.trans hsql'
    exact ⟨f, hf', hmet⟩

end Group

namespace Query

variable {v : List Token → Prop} {g : Group} {f : Fragment}

theorem isMet_groupSql {several : Bool} (hg : g.IsClosed) (h : groupSql several g = .ok f) :
    f.IsMet v ↔ g.IsMet v := by
  obtain ⟨f', hf, rfl⟩ := groupSql_eq_ok.mp h
  have hgroup : g.IsMet v ↔ f'.IsMet v := by
    refine ⟨fun ⟨f'', hf'', hmet⟩ => ?_, fun hmet => ⟨f', hf, hmet⟩⟩
    cases hf.symm.trans hf''
    exact hmet
  split_ifs
  · rw [Fragment.isMet_inParens (g.closed_sql hg hf), hgroup]
  · exact hgroup.symm

/-- **One of several printed groups leaves no BETWEEN waiting.** -/
theorem settled_groupSql (hg : g.IsClosed) (hsettled : g.IsSettled) (h : groupSql true g = .ok f) :
    Settled f.letters := by
  obtain ⟨f', hf, rfl⟩ := groupSql_eq_ok.mp h
  rw [Bool.true_and]
  split_ifs with hlength
  · rw [Fragment.letters_inParens]
    exact .parens (g.closed_sql hg hf)
  · obtain ⟨fs, hfs, rfl⟩ := Group.sql_eq_ok.mp hf
    obtain ⟨conjunction, items⟩ := g
    match items, fs, hfs with
    | [], [], .nil => exact .nil
    | [p], [f], .cons hp .nil => exact hsettled p rfl f hp
    | _ :: _ :: _, _, _ => simp at hlength

/-- The query admits a row: the conditions that it prints hold. -/
def Admits (q : Query) (v : List Token → Prop) : Prop :=
  ∀ w : Fragment, q.whereSql = .ok (.plain " WHERE " :: w) → w.IsMet v

theorem stands_authorGroup {sql : String} (h : Closed true (Text.letters sql)) :
    (authorGroup sql).Stands := by
  have hall : ∀ p ∈ (authorGroup sql).items, ∀ orToo, p.IsClosed orToo := by
    rintro p hp orToo
    rw [List.mem_singleton.mp hp]
    exact h
  refine ⟨fun p hp => hall p hp true, fun p hone => hall p (hone ▸ List.mem_cons_self) false,
    fun p hone f hf => ?_⟩
  obtain rfl : Predicate.raw sql = p := List.singleton_inj.mp hone
  rw [Predicate.raw_eq_ok.mp hf, Fragment.letters_inParens, Fragment.letters_ofAuthor]
  exact .parens h

theorem stands_groupSql (hg : g.Stands) (h : groupSql true g = .ok f) : f.Stands :=
  ⟨closed_groupSql hg.closed hg.noBareOr h, settled_groupSql hg.closed hg.settled h⟩

theorem exists_parts {q : Query} {before rest : List Group} (hq : q.filters = before ++ rest)
    (hrest : rest ≠ []) (hbefore : ∀ e ∈ before, e.Stands) (h : q.whereSql = .ok f) :
    ∃ befores parts, List.Forall₂ (fun g f => groupSql (1 < q.filters.length) g = .ok f) before
        befores ∧
      List.Forall₂ (fun g f => groupSql (1 < q.filters.length) g = .ok f) rest parts ∧
      (∀ f ∈ befores, f.Stands) ∧
      ∀ v, q.Admits v ↔ (Fragment.joined " AND " (befores ++ parts)).IsMet v := by
  have hne : q.filters ≠ [] := hq ▸ List.append_ne_nil_of_right_ne_nil before hrest
  obtain ⟨all, hall, rfl⟩ := (whereSql_eq_ok hne).mp h
  generalize hlength : decide (1 < q.filters.length) = several at hall ⊢
  rw [hq] at hall
  obtain ⟨befores, parts, hbefores, hparts, rfl⟩ := exists_append_of_forall₂ hall
  refine ⟨befores, parts, hbefores, hparts, fun f hf => ?_, fun v => ⟨fun hv => hv _ h, ?_⟩⟩
  · obtain ⟨e, he, hsql⟩ := exists_of_mem_right hbefores hf
    have hseveral : 1 < q.filters.length := by
      have hleft := List.length_pos_of_mem he
      have hright := List.length_pos_of_ne_nil hrest
      rw [hq, List.length_append]
      omega
    rw [← hlength, decide_eq_true hseveral] at hsql
    exact stands_groupSql (hbefore e he) hsql
  · intro hmet w hw
    cases h.symm.trans hw
    exact hmet

theorem exists_sql_of_mem {q : Query} (h : q.whereSql = .ok f) (hg : g ∈ q.filters) :
    ∃ f, g.sql = .ok f := by
  obtain ⟨parts, hparts, -⟩ := (whereSql_eq_ok (List.ne_nil_of_mem hg)).mp h
  obtain ⟨part, -, hpart⟩ := exists_of_mem_right hparts.flip hg
  obtain ⟨f, hf, -⟩ := groupSql_eq_ok.mp hpart
  exact ⟨f, hf⟩

/-- **A row is admitted only if a group holds**, whatever stands behind it without an OR of its
own. -/
theorem isMet_of_admits {q : Query} {before after : List Group}
    (hq : q.filters = before ++ g :: after) (hbefore : ∀ e ∈ before, e.Stands) (hg : g.IsClosed)
    (hsettled : after ≠ [] → g.IsSettled) (hafter : ∀ e ∈ after, e.IsClosed ∧ e.HasNoBareOr)
    (h : q.whereSql = .ok f) (hv : q.Admits v) : g.IsMet v := by
  obtain ⟨befores, parts, -, hparts, hstands, hadmits⟩ :=
    exists_parts hq (List.cons_ne_nil g after) hbefore h
  obtain ⟨part, afters, hpart, hafters, rfl⟩ := List.forall₂_cons_left_iff.mp hparts
  have hlast := ((hadmits v).mp hv).of_append hstands (List.cons_ne_nil part afters)
  rw [← isMet_groupSql hg hpart]
  match after, afters, hafters with
  | [], [], _ => exact hlast
  | e :: es, next :: afters, hafters =>
    have hseveral : decide (1 < q.filters.length) = true := by
      rw [hq, decide_eq_true_eq, List.length_append, List.length_cons, List.length_cons]
      omega
    rw [hseveral] at hpart hafters
    refine hlast.left (settled_groupSql hg (hsettled (List.cons_ne_nil e es)) hpart) ?_
    refine Closed.joined cuts_and rfl fun f hf => ?_
    obtain ⟨e', he', hsql⟩ := exists_of_mem_right hafters hf
    exact closed_groupSql (hafter e' he').1 (hafter e' he').2 hsql

/-- **A row is admitted iff all groups hold**, if they may stand beside each other. -/
theorem admits_iff {q : Query} {before : List Group} (hq : q.filters = before ++ [g])
    (hbefore : ∀ e ∈ before, e.Stands) (hg : g.IsClosed) (hone : before ≠ [] → g.HasNoBareOr)
    (h : q.whereSql = .ok f) : q.Admits v ↔ (∀ e ∈ before, e.IsMet v) ∧ g.IsMet v := by
  obtain ⟨befores, parts, hbefores, hparts, hstands, hadmits⟩ :=
    exists_parts hq (List.cons_ne_nil g []) hbefore h
  obtain ⟨part, afters, hpart, hnil, rfl⟩ := List.forall₂_cons_left_iff.mp hparts
  cases hnil
  have hlast : befores ≠ [] → Closed false part.letters := fun hne => by
    have hbeforene : before ≠ [] := by
      rintro rfl
      exact hne (List.forall₂_nil_left_iff.mp hbefores)
    have hseveral : decide (1 < q.filters.length) = true := by
      have := List.length_pos_of_ne_nil hbeforene
      simpa [hq] using this
    rw [hseveral] at hpart
    exact closed_groupSql hg (hone hbeforene) hpart
  rw [hadmits, Fragment.isMet_joined_and hstands hlast, isMet_groupSql hg hpart]
  refine and_congr_left fun _ => ⟨fun hmet e he => ?_, fun hmet f hf => ?_⟩
  · obtain ⟨f, hf, hsql⟩ := exists_of_mem_right hbefores.flip he
    exact (isMet_groupSql (hbefore e he).closed hsql).mp (hmet f hf)
  · obtain ⟨e, he, hsql⟩ := exists_of_mem_right hbefores hf
    exact (isMet_groupSql (hbefore e he).closed hsql).mpr (hmet e he)

end Query

end TableQuery
