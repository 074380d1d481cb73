import TableQuery.Sql.SelectItem
import TableQuery.Proofs.Sql.Printable
import TableQuery.Proofs.Text.Split

/-! # Written columns

A column is written in one of five ways (`SelectItem.Written`), with blanks around each part: `*`,
`source.*`, `column`, `source.column` and `source.column:label`. Exactly the texts of these forms
are read (`SelectItem.ofText_iff_written`). The parts are single identifiers, but for the label: it
is read as a path, and a label that is no single identifier is refused when the item is printed. -/

namespace TableQuery

open Outcome Text

/-! ### Parts with blanks around them -/

theorem ne_star_of_isIdentifier {name : String} (h : isIdentifier name = true) : name ≠ "*" := by
  rintro rfl
  exact absurd h (by decide)

theorem trim_star : trim "*" = "*" := by
  decide

theorem mem_trim {c : Char} (hc : isBlank c = false) {s : String} :
    c ∈ (trim s).toList ↔ c ∈ s.toList := by
  rw [toList_trim, mem_trimChars hc]

theorem not_mem_of_trim {c : Char} (hc : isIdentifierChar c = false) (hblank : isBlank c = false)
    {s : String} (h : isIdentifier (trim s) = true) : c ∉ s.toList := by
  intro hmem
  rw [isIdentifier_over h c ((mem_trim hblank).mpr hmem)] at hc
  cases hc

/-- Cutting a text and trimming the sides, or trimming the text first. -/
theorem trim_eq_cut_iff {sep : String} {c : Char} (hsep : sep.toList = [c])
    (hc : isBlank c = false) {s : String} {p : String → String → Prop} :
    (∃ x y, trim s = x ++ sep ++ y ∧ p (trim x) (trim y)) ↔
      ∃ x y, s = x ++ sep ++ y ∧ p (trim x) (trim y) := by
  constructor
  · rintro ⟨x, y, hs, hp⟩
    obtain ⟨before, after, hbefore, hafter, heq⟩ := isPadded_trim s
    have hempty : isBlankText "" = true := rfl
    refine ⟨before ++ x, y ++ after, ?_, ?_⟩
    · rw [heq, hs]
      simp [String.append_assoc]
    · have hx := trim_around hbefore hempty x
      have hy := trim_around hempty hafter y
      rw [String.append_empty] at hx
      rw [String.empty_append] at hy
      rwa [hx, hy]
  · rintro ⟨x, y, rfl, hp⟩
    obtain ⟨x', y', htrim, hx, hy⟩ := exists_trim_cut hsep hc x y
    exact ⟨x', y', htrim, by rwa [hx, hy]⟩

namespace SelectItem

/-! ### The five forms -/

/-- The text is a written form of the item, and `sql` is what it prints: a wildcard, the wildcard of
a source, a column, a column of a source, or that with a label. -/
inductive Written : String → SelectItem → String → Prop
  | all {text : String} (htext : IsPadded "*" text) : Written text (.column none "*" none) "*"
  | allOf {x y a : String} (hx : IsPadded a x) (ha : isIdentifier a = true) (hy : IsPadded "*" y) :
    Written (x ++ "." ++ y) (.column (some a) "*" none) (backticked a ++ ".*")
  | column {text b : String} (htext : IsPadded b text) (hb : isIdentifier b = true) :
    Written text (.column none b none) (backticked b)
  | columnOf {x y a b : String} (hx : IsPadded a x) (ha : isIdentifier a = true)
    (hy : IsPadded b y) (hb : isIdentifier b = true) :
    Written (x ++ "." ++ y) (.column (some a) b none) (backticked a ++ "." ++ backticked b)
  | labelled {x y z a b c : String} (hx : IsPadded a x) (ha : isIdentifier a = true)
    (hy : IsPadded b y) (hb : isIdentifier b = true) (hz : IsPadded c z)
    (hc : isIdentifierPath c = true) :
    Written (x ++ "." ++ y ++ ":" ++ z) (.column (some a) b (some c))
      (backticked a ++ "." ++ backticked b ++ " AS " ++ backticked c)

variable {text : String} {item : SelectItem} {aliasName : Option String}

/-! ### Reading columns -/

theorem ofParts_eq_ok {parts : List String} : ofParts aliasName parts = .ok item ↔
    (∃ name, parts = [name] ∧ aliasName = none ∧ isIdentifierPath name = true ∧
      item = .column none name none) ∨
    ∃ source name, parts = [source, name] ∧ isIdentifierPath source = true ∧
      (name = "*" ∧ aliasName = none ∨ isIdentifierPath name = true) ∧
      item = .column (some source) name aliasName := by
  have hcheck (path : String) : (∃ u, checkPath path = .ok u) ↔ isIdentifierPath path = true :=
    ⟨fun ⟨_, hu⟩ => checkPath_eq_ok.mp hu, fun h => ⟨(), checkPath_eq_ok.mpr h⟩⟩
  match parts with
  | [] => simp [ofParts]
  | [name] =>
    simp only [ofParts, guard_eq_ok, bind_eq_ok, pure_eq_ok, exists_and_right, hcheck]
    simp
  | [source, name] =>
    by_cases hname : name = "*"
    · subst hname
      have hstar : isIdentifierPath "*" = false := by decide
      simp only [ofParts, if_pos, guard_eq_ok, bind_eq_ok, pure_eq_ok]
      simp [hcheck, hstar]
    · simp only [ofParts, if_neg hname, bind_eq_ok, pure_eq_ok]
      simp [hcheck, hname]
  | _ :: _ :: _ :: _ => simp [ofParts]

theorem ofParts_piecesOf_eq_ok {s : String} :
    ofParts aliasName ((piecesOf '.' (trim s)).map trim) = .ok item ↔
    (isIdentifier (trim s) = true ∧ aliasName = none ∧ item = .column none (trim s) none) ∨
    ∃ x y, s = x ++ "." ++ y ∧ isIdentifier (trim x) = true ∧
      (trim y = "*" ∧ aliasName = none ∨ isIdentifier (trim y) = true) ∧
      item = .column (some (trim x)) (trim y) aliasName := by
  have hsep : ".".toList = ['.'] := rfl
  rw [ofParts_eq_ok, ← trim_eq_cut_iff hsep (by decide) (p := fun a b => isIdentifier a = true ∧
    (b = "*" ∧ aliasName = none ∨ isIdentifier b = true) ∧ item = .column (some a) b aliasName)]
  refine or_congr ⟨?_, ?_⟩ ⟨?_, ?_⟩
  · rintro ⟨name, hpieces, hnone, hname, rfl⟩
    obtain ⟨x, hx, rfl⟩ := List.map_eq_singleton_iff.mp hpieces
    obtain ⟨rfl, hdot⟩ := piecesOf_eq_one.mp hx
    rw [trim_trim, isIdentifierPath_of_not_mem hdot] at hname
    exact ⟨hname, hnone, by rw [trim_trim]⟩
  · rintro ⟨hname, hnone, rfl⟩
    refine ⟨trim s, ?_, hnone, isIdentifierPath_of_isIdentifier hname, rfl⟩
    rw [piecesOf_eq_one.mpr ⟨rfl, dot_not_mem_of_isIdentifier hname⟩, List.map_singleton, trim_trim]
  · rintro ⟨source, name, hpieces, hsource, hname, rfl⟩
    obtain ⟨x, y, hxy, rfl, rfl⟩ : ∃ x y, piecesOf '.' (trim s) = [x, y] ∧ trim x = source ∧
        trim y = name := by
      match hs : piecesOf '.' (trim s), hpieces with
      | [x, y], hpieces => simpa using hpieces
    obtain ⟨hs, hx, hy⟩ := (piecesOf_eq_two hsep).mp hxy
    have hdot {t : String} (ht : '.' ∉ t.toList) : '.' ∉ (trim t).toList :=
      (mem_trim (by decide)).not.mpr ht
    rw [isIdentifierPath_of_not_mem (hdot hx)] at hsource
    rw [isIdentifierPath_of_not_mem (hdot hy)] at hname
    exact ⟨x, y, hs, hsource, hname, rfl⟩
  · rintro ⟨x, y, hs, hx, hy, rfl⟩
    have hdot : '.' ∉ y.toList := by
      rcases hy with ⟨hstar, -⟩ | hy
      · rw [← mem_trim (by decide), hstar]
        decide
      · exact not_mem_of_trim (by decide) (by decide) hy
    refine ⟨trim x, trim y, ?_, isIdentifierPath_of_isIdentifier hx,
      hy.imp_right isIdentifierPath_of_isIdentifier, rfl⟩
    rw [(piecesOf_eq_two hsep).mpr ⟨hs, not_mem_of_trim (by decide) (by decide) hx, hdot⟩]
    rfl

/-! ### Reading labels -/

theorem splitAlias_of_not_mem {s : String} (h : ':' ∉ s.toList) :
    splitAlias s = .ok (s, none) := by
  rw [splitAlias, cutAtLast_eq_none h]

theorem splitAlias_append {w z : String} (h : ':' ∉ z.toList) {parts : String × Option String} :
    splitAlias (w ++ ":" ++ z) = .ok parts ↔
      isIdentifierPath (trim z) = true ∧ parts = (trim w, some (trim z)) := by
  have htext : (w ++ ":" ++ z).toList = w.toList ++ ':' :: z.toList := by
    simp [String.toList_append]
  rw [splitAlias, htext, cutAtLast_append _ h]
  simp only [guard_eq_ok, bind_eq_ok, pure_eq_ok, String.ofList_toList]
  constructor
  · rintro ⟨-, _, hpath, rfl⟩
    exact ⟨checkPath_eq_ok.mp hpath, rfl⟩
  · rintro ⟨hpath, rfl⟩
    refine ⟨fun hempty => ?_, (), checkPath_eq_ok.mpr hpath, rfl⟩
    rw [String.isEmpty_iff.mp hempty] at hpath
    exact absurd hpath (by decide)

theorem ofText_eq_ok : ofText text = .ok item ↔ ∃ columns aliasName,
    splitAlias (trim text) = .ok (columns, aliasName) ∧
      (columns = "*" ∧ aliasName = none ∧ item = .column none "*" none ∨
        ofParts aliasName ((piecesOf '.' columns).map trim) = .ok item) := by
  have hstar (aliasName : Option String) :
      ofParts aliasName ((piecesOf '.' "*").map trim) ≠ .ok item := by
    have hpieces : (piecesOf '.' "*").map trim = ["*"] := by decide
    cases aliasName <;> rw [hpieces] <;> exact fun h => by cases h
  have hempty : ofParts none ((piecesOf '.' "").map trim) ≠ .ok item := by
    have hpieces : (piecesOf '.' "").map trim = [""] := by decide
    rw [hpieces]
    exact fun h => by cases h
  simp only [ofText, guard_eq_ok, bind_eq_ok, Prod.exists]
  constructor
  · rintro ⟨-, columns, aliasName, hsplit, h⟩
    refine ⟨columns, aliasName, hsplit, ?_⟩
    by_cases hcolumns : columns = "*"
    · rw [if_pos hcolumns, guard_eq_ok, pure_eq_ok] at h
      exact .inl ⟨hcolumns, by simpa using h.1, h.2⟩
    · rw [if_neg hcolumns] at h
      exact .inr h
  · rintro ⟨columns, aliasName, hsplit, h⟩
    refine ⟨fun hblank => ?_, columns, aliasName, hsplit, ?_⟩
    · rw [String.isEmpty_iff.mp hblank] at hsplit
      cases hsplit
      rcases h with ⟨hcolumns, -⟩ | h
      · exact absurd hcolumns (by decide)
      · exact hempty h
    · rcases h with ⟨rfl, rfl, rfl⟩ | h
      · rfl
      · have hcolumns : columns ≠ "*" := fun heq => hstar aliasName (heq ▸ h)
        rw [if_neg hcolumns]
        exact h

theorem ofText_of_not_mem (h : ':' ∉ text.toList) : ofText text = .ok item ↔
    (trim text = "*" ∧ item = .column none "*" none) ∨
      ofParts none ((piecesOf '.' (trim text)).map trim) = .ok item := by
  have hcolon : ':' ∉ (trim text).toList := (mem_trim (by decide)).not.mpr h
  simp [ofText_eq_ok, splitAlias_of_not_mem hcolon]

theorem ofText_append {w z : String} (h : ':' ∉ z.toList) : ofText (w ++ ":" ++ z) = .ok item ↔
    isIdentifierPath (trim z) = true ∧
      ofParts (some (trim z)) ((piecesOf '.' (trim w)).map trim) = .ok item := by
  have hsep : ":".toList = [':'] := rfl
  obtain ⟨w', z', htrim, hw, hz⟩ := exists_trim_cut hsep (by decide) w z
  have hcolon : ':' ∉ z'.toList := by
    rwa [← mem_trim (by decide), hz, mem_trim (by decide)]
  simp [ofText_eq_ok, htrim, splitAlias_append hcolon, hw, hz]

/-! ### What is read and what is printed -/

theorem exists_written (h : ofText text = .ok item) : ∃ sql, Written text item sql := by
  by_cases hmem : ':' ∈ text.toList
  · have hsep : ":".toList = [':'] := rfl
    obtain ⟨w, z, rfl, hz⟩ := exists_lastCut hsep hmem
    obtain ⟨hlabel, h⟩ := (ofText_append hz).mp h
    rcases ofParts_piecesOf_eq_ok.mp h with ⟨-, hnone, -⟩ | ⟨x, y, rfl, hx, hy, rfl⟩
    · cases hnone
    · rcases hy with ⟨-, hnone⟩ | hy
      · cases hnone
      · exact ⟨_, .labelled (isPadded_trim x) hx (isPadded_trim y) hy (isPadded_trim z) hlabel⟩
  · rcases (ofText_of_not_mem hmem).mp h with ⟨htext, rfl⟩ | h
    · exact ⟨_, .all ((isPadded_iff trim_star).mpr htext)⟩
    · rcases ofParts_piecesOf_eq_ok.mp h with ⟨hname, -, rfl⟩ | ⟨x, y, rfl, hx, hy, rfl⟩
      · exact ⟨_, .column (isPadded_trim text) hname⟩
      · rcases hy with ⟨hy, -⟩ | hy
        · rw [hy]
          exact ⟨_, .allOf (isPadded_trim x) hx ((isPadded_iff trim_star).mpr hy)⟩
        · exact ⟨_, .columnOf (isPadded_trim x) hx (isPadded_trim y) hy⟩

theorem Written.ofText_eq_ok {sql : String} (h : Written text item sql) :
    ofText text = .ok item := by
  have hcolon {s : String} (h : isIdentifier (trim s) = true) : ':' ∉ s.toList :=
    not_mem_of_trim (by decide) (by decide) h
  have hstar {s : String} (h : trim s = "*") : ':' ∉ s.toList := by
    rw [← mem_trim (by decide), h]
    decide
  cases h with
  | all htext =>
    have htext := (isPadded_iff trim_star).mp htext
    exact (ofText_of_not_mem (hstar htext)).mpr (.inl ⟨htext, rfl⟩)
  | @allOf x y a hx ha hy =>
    obtain rfl := (isPadded_iff (trim_of_isIdentifier ha)).mp hx
    have hy := (isPadded_iff trim_star).mp hy
    refine (ofText_of_not_mem ?_).mpr (.inr (ofParts_piecesOf_eq_ok.mpr (.inr
      ⟨x, y, rfl, ha, .inl ⟨hy, rfl⟩, by rw [hy]⟩)))
    simp [String.toList_append, hcolon ha, hstar hy]
  | column htext hb =>
    obtain rfl := (isPadded_iff (trim_of_isIdentifier hb)).mp htext
    exact (ofText_of_not_mem (hcolon hb)).mpr (.inr (ofParts_piecesOf_eq_ok.mpr
      (.inl ⟨hb, rfl, rfl⟩)))
  | @columnOf x y a b hx ha hy hb =>
    obtain rfl := (isPadded_iff (trim_of_isIdentifier ha)).mp hx
    obtain rfl := (isPadded_iff (trim_of_isIdentifier hb)).mp hy
    refine (ofText_of_not_mem ?_).mpr (.inr (ofParts_piecesOf_eq_ok.mpr (.inr
      ⟨x, y, rfl, ha, .inr hb, rfl⟩)))
    simp [String.toList_append, hcolon ha, hcolon hb]
  | @labelled x y z a b c hx ha hy hb hz hc =>
    obtain rfl := (isPadded_iff (trim_of_isIdentifier ha)).mp hx
    obtain rfl := (isPadded_iff (trim_of_isIdentifier hb)).mp hy
    obtain rfl := (isPadded_iff (trim_of_isIdentifierPath hc)).mp hz
    have hlabel : ':' ∉ z.toList := fun hmem =>
      absurd (isIdentifierPath_over hc ':' ((mem_trim (by decide)).mpr hmem)) (by decide)
    exact (ofText_append hlabel).mpr ⟨hc, ofParts_piecesOf_eq_ok.mpr (.inr
      ⟨x, y, rfl, ha, .inr hb, rfl⟩)⟩

/-- **Exactly the texts of the five forms are read.** -/
theorem ofText_eq_ok_written : ofText text = .ok item ↔ ∃ sql, Written text item sql :=
  ⟨exists_written, fun ⟨_, h⟩ => h.ofText_eq_ok⟩

theorem underAlias_eq_ok {text aliasName s : String} : underAlias text aliasName = .ok s ↔
    isIdentifier aliasName = true ∧ s = text ++ " AS " ++ backticked aliasName := by
  simp only [underAlias, bind_eq_ok, pure_eq_ok, quoteIdentifier_eq_ok]
  constructor
  · rintro ⟨_, ⟨halias, rfl⟩, rfl⟩
    exact ⟨halias, rfl⟩
  · rintro ⟨halias, rfl⟩
    exact ⟨_, ⟨halias, rfl⟩, rfl⟩

theorem Written.sql_eq_ok {sql s : String} (h : Written text item sql) : item.sql = .ok s ↔
    (∀ label, item.alias? = some label → isIdentifier label = true) ∧ s = sql := by
  have hpure {t : String} : (Except.ok t : Except SqlFailure String) = .ok s ↔ s = t := pure_eq_ok
  cases h with
  | all htext => simp [SelectItem.sql, alias?, hpure]
  | allOf hx ha hy =>
    have hsource := quoteIdentifier_eq_ok.mpr ⟨ha, rfl⟩
    simp only [SelectItem.sql, alias?, hsource]
    simp [hpure]
  | column htext hb =>
    have hname := quoteIdentifier_eq_ok.mpr ⟨hb, rfl⟩
    simp [SelectItem.sql, alias?, ne_star_of_isIdentifier hb, quoteColumn, hname, hpure]
  | columnOf hx ha hy hb =>
    have hcolumn := quoteColumn_eq_ok.mpr ⟨⟨ha, hb⟩, rfl⟩
    simp [SelectItem.sql, alias?, ne_star_of_isIdentifier hb, hcolumn, hpure]
  | labelled hx ha hy hb hz hc =>
    rw [SelectItem.sql, if_neg (ne_star_of_isIdentifier hb),
      quoteColumn_eq_ok.mpr ⟨⟨ha, hb⟩, rfl⟩]
    simp only [alias?, Option.some.injEq, forall_eq']
    exact underAlias_eq_ok

/-- **What is read and what is printed**: exactly the texts of the five forms are read, and an item
that is read prints its parts between backticks, unless its label is no single identifier; then it
does not print. -/
theorem ofText_iff_written (text : String) :
    (∀ item, ofText text = .ok item ↔ ∃ sql, Written text item sql) ∧
    ∀ item sql, Written text item sql → ∀ s, item.sql = .ok s ↔
      (∀ label, item.alias? = some label → isIdentifier label = true) ∧ s = sql :=
  ⟨fun _ => ofText_eq_ok_written, fun _ _ h _ => h.sql_eq_ok⟩

/-- A column with a label, with blanks around all parts. -/
theorem ofText_iff_written_label :
    Written " post . id : post__id " (.column (some "post") "id" (some "post__id"))
        "`post`.`id` AS `post__id`" ∧
      ofText " post . id : post__id " = .ok (.column (some "post") "id" (some "post__id")) ∧
      (SelectItem.column (some "post") "id" (some "post__id")).sql =
        .ok "`post`.`id` AS `post__id`" := by
  have hwritten : Written (" post " ++ "." ++ " id " ++ ":" ++ " post__id ")
      (.column (some "post") "id" (some "post__id"))
      (backticked "post" ++ "." ++ backticked "id" ++ " AS " ++ backticked "post__id") :=
    .labelled ⟨" ", " ", rfl, rfl, by decide⟩ (by decide) ⟨" ", " ", rfl, rfl, by decide⟩
      (by decide) ⟨" ", " ", rfl, rfl, by decide⟩ (by decide)
  have htext : " post " ++ "." ++ " id " ++ ":" ++ " post__id " = " post . id : post__id " := by
    decide
  have hsql : backticked "post" ++ "." ++ backticked "id" ++ " AS " ++ backticked "post__id" =
      "`post`.`id` AS `post__id`" := by decide
  rw [htext, hsql] at hwritten
  obtain ⟨hread, hprint⟩ := ofText_iff_written " post . id : post__id "
  refine ⟨hwritten, (hread _).mpr ⟨_, hwritten⟩, (hprint _ _ hwritten _).mpr ⟨?_, rfl⟩⟩
  intro label hlabel
  cases hlabel
  decide

/-- A label of two identifiers is read, and the column does not print. -/
theorem ofText_dotted_label :
    ofText "a.b:c.d" = .ok (.column (some "a") "b" (some "c.d")) ∧
      (SelectItem.column (some "a") "b" (some "c.d")).sql = .error (.notSingle "c.d") := by
  decide +kernel

end SelectItem

end TableQuery
