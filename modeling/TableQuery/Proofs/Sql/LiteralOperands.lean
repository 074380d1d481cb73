import TableQuery.Proofs.Sql.JoinConditions
import TableQuery.Proofs.Sql.Literals

/-! # Literals in join conditions

A join condition compares a path with a literal. A numeral is printed as it was written, and so
denotes the same number. A text loses the quotes around it but keeps the doubled ones inside, and
they are doubled again when the condition is printed (`LiteralValue.requoted`): the printed literal
denotes the same text exactly if no quote is in it (`JoinCondition.sql_of_literal`).

Numbers are told by their characters only, so that a right side may be taken for a number without
being a numeral. It is one exactly if it is read as a number where a number is searched for. -/

namespace TableQuery

open Outcome Text

/-! ### Quotes that are doubled again -/

theorem length_doubled (cs : List Char) :
    (doubled cs).length = cs.length + cs.count '\x27' := by
  induction cs with
  | nil => rfl
  | cons c cs ih =>
    rw [doubled_cons, List.length_append, ih, List.length_cons]
    by_cases hc : c = '\x27'
    · rw [if_pos hc, hc, List.count_cons_self, List.length_cons, List.length_singleton]
      omega
    · rw [if_neg hc, List.count_cons_of_ne hc, List.length_singleton]
      omega

theorem doubled_eq_self_iff {cs : List Char} : doubled cs = cs ↔ '\x27' ∉ cs := by
  refine ⟨fun h hmem => ?_, doubled_of_not_mem⟩
  have hlength := length_doubled cs
  rw [h] at hlength
  have hpos := List.count_pos_iff.mpr hmem
  omega

namespace LiteralValue

/-- The value with every quote of a text written twice. -/
def requoted : LiteralValue → LiteralValue
  | .number q => .number q
  | .text s => .text (String.ofList (doubled s.toList))

/-- A number, or a text without quotes. -/
def IsQuoteFree : LiteralValue → Prop
  | .number _ => True
  | .text s => '\x27' ∉ s.toList

theorem requoted_eq_self_iff {v : LiteralValue} : v.requoted = v ↔ v.IsQuoteFree := by
  cases v with
  | number q => exact iff_of_true rfl trivial
  | text s =>
    rw [requoted, IsQuoteFree, ← doubled_eq_self_iff, LiteralValue.text.injEq, ← String.toList_inj,
      String.toList_ofList]

end LiteralValue

/-! ### Literals as right sides -/

namespace Operand

theorem toLower_of_isNumberChar {c : Char} (h : isNumberChar c = true) : c.toLower ≠ 'n' := by
  simp only [isNumberChar, Bool.or_eq_true, beq_iff_eq] at h
  rcases h with ((((h | rfl) | rfl) | rfl) | rfl) | rfl
  · rw [toLower_of_isDigit h]
    rintro rfl
    exact absurd h (by decide)
  all_goals decide

theorem isNumberChar_of_isDigit {c : Char} (h : c.isDigit = true) : isNumberChar c = true := by
  simp [isNumberChar, h]

theorem isNumberChar_of_mem_sign {s : Sign} {c : Char} (h : c ∈ s.chars) :
    isNumberChar c = true := by
  cases s with
  | none => exact absurd h List.not_mem_nil
  | plus => exact List.mem_singleton.mp h ▸ rfl
  | minus => exact List.mem_singleton.mp h ▸ rfl

theorem isNumberChar_of_mem_text (n : Numeral) {c : Char} (h : c ∈ n.text.toList) :
    isNumberChar c = true := by
  have hfraction : ∀ d ∈ n.fractionChars, isNumberChar d = true := by
    intro d hd
    have hdigits := n.isDigit_fraction
    rw [Numeral.fractionChars] at hd
    cases hf : n.fraction with
    | none => simp [hf] at hd
    | some f =>
      rw [hf] at hd hdigits
      rcases List.mem_cons.mp hd with rfl | hd
      · rfl
      · exact isNumberChar_of_isDigit (hdigits d hd)
  have hpower : ∀ d ∈ n.powerChars, isNumberChar d = true := by
    intro d hd
    rw [Numeral.powerChars] at hd
    cases hp : n.power with
    | none => simp [hp] at hd
    | some p =>
      rw [hp] at hd
      rcases List.mem_cons.mp hd with rfl | hd
      · rcases p.mark_eq with hmark | hmark <;> rw [hmark] <;> rfl
      · exact (List.mem_append.mp hd).elim isNumberChar_of_mem_sign fun hd =>
          isNumberChar_of_isDigit (p.isDigit_digits d hd)
  rw [Numeral.text, String.toList_ofList, Numeral.magnitude, List.mem_append, List.mem_append,
    List.mem_append] at h
  rcases h with h | h | h | h
  · exact isNumberChar_of_mem_sign h
  · exact isNumberChar_of_isDigit (n.isDigit_whole c h)
  · exact hfraction c h
  · exact hpower c h

theorem eqIgnoringCase_null {s : String} {c : Char} {cs : List Char} (hs : s.toList = c :: cs)
    (hc : c.toLower ≠ 'n') : eqIgnoringCase s "null" = false := by
  refine Bool.eq_false_iff.mpr fun h => hc ?_
  have hlower := eqIgnoringCase_iff.mp h
  rw [hs] at hlower
  exact (List.cons.inj hlower).1

/-- **A numeral is a number**, unless it begins with the point. -/
theorem ofText_numeral (n : Numeral) (hstart : n.text.toList.head? ≠ some '.') :
    ofText n.text = .ok (.number n.text) := by
  obtain ⟨c, cs, htext, hc⟩ := n.head?_text
  have hfirst : c.isDigit = true ∨ c = '+' ∨ c = '-' := by
    rcases hc with hc | hc | hc | rfl
    · exact .inl hc
    · exact .inr (.inl hc)
    · exact .inr (.inr hc)
    · exact absurd (by rw [htext]; rfl) hstart
  have hlower : c.toLower ≠ 'n' :=
    toLower_of_isNumberChar (isNumberChar_of_mem_text n (htext ▸ List.mem_cons_self))
  have hquote : ¬ (c = '\x27' ∨ c = '"') := by
    rintro (rfl | rfl) <;> rcases hfirst with hc | hc | hc <;> exact absurd hc (by decide)
  have hnumeric : looksNumeric n.text.toList = true :=
    looksNumeric_iff.mpr ⟨⟨c, cs, htext, hfirst⟩, fun d hd => isNumberChar_of_mem_text n hd⟩
  have hunquoted : unquote? n.text.toList = none := by
    rw [htext, unquote?, if_neg fun h => hquote h.1]
  rw [ofText, eqIgnoringCase_null htext hlower, hunquoted, hnumeric]
  rfl

/-- **A text between quotes is taken as it stands there**, with its doubled quotes. -/
theorem ofText_quoteLiteral (content : String) : ofText (Value.quoteLiteral content) =
    .ok (.text (String.ofList (doubled content.toList))) := by
  have htext := Value.toList_quoteLiteral content
  have hunquoted : unquote? (Value.quoteLiteral content).toList =
      some (doubled content.toList) := by
    rw [htext, unquote?, if_pos ⟨.inl rfl, List.getLast?_concat⟩, List.dropLast_concat]
  rw [ofText, eqIgnoringCase_null htext (by decide), hunquoted]
  rfl

/-- **A literal is read as a right side** unless it begins with the point, and what is printed for
it denotes the value with its quotes doubled. -/
theorem ofText_of_denotes {right : String} {v : LiteralValue} (h : Denotes right v)
    (hstart : right.toList.head? ≠ some '.') : ∃ operand, ofText right = .ok operand ∧
      operand ≠ .null ∧ Denotes operand.sql v.requoted := by
  cases v with
  | number q =>
    obtain ⟨n, rfl, rfl⟩ := denotes_number_iff.mp h
    exact ⟨.number n.text, ofText_numeral n hstart, by simp, .number n⟩
  | text content =>
    obtain rfl := denotes_text_iff.mp h
    exact ⟨_, ofText_quoteLiteral content, by simp, denotes_text_iff.mpr rfl⟩

end Operand

/-! ### Literals in conditions -/

namespace JoinCondition

variable {left operator : String} {op : JoinOperator}

/-- **A literal in a condition**: the condition of a path, an operator and a literal can be made
exactly if the literal does not begin with the point, and it prints a literal that denotes the value
with its quotes doubled. That is the same value exactly if it is a number, or a text without quotes.
What is taken for a number is a numeral exactly if it is read as a number. -/
theorem sql_of_literal (hleft : isIdentifierPath left = true)
    (hop : JoinOperator.ofText operator = .ok op) :
    (∀ right v, Denotes right v →
      ((∃ c, ofParts left operator right = .ok c) ↔ right.toList.head? ≠ some '.') ∧
      ∀ c, ofParts left operator right = .ok c → ∃ printed,
        c.sql = .ok (".".intercalate ((piecesOf '.' left).map backticked) ++ " " ++ op.sql ++ " " ++
          printed) ∧
        (∀ w, Denotes printed w ↔ w = v.requoted) ∧ (Denotes printed v ↔ v.IsQuoteFree)) ∧
    ∀ right c s, ofParts left operator right = .ok c → c.right = .number s →
      s = right ∧ ((∃ n : Numeral, n.text = s) ↔ (Decimal.read? s).isSome = true) := by
  constructor
  · intro right v hv
    have hstart {c : JoinCondition} (hc : ofParts left operator right = .ok c) :
        right.toList.head? ≠ some '.' :=
      fun hdot => Operand.ofText_dot_ne_ok hdot (ofParts_eq_ok.mp hc).2.1
    refine ⟨⟨fun ⟨_, hc⟩ => hstart hc, fun hdot => ?_⟩, fun c hc => ?_⟩
    · obtain ⟨operand, hright, hnull, -⟩ := Operand.ofText_of_denotes hv hdot
      exact ⟨⟨left, op, operand⟩,
        ofParts_eq_ok.mpr ⟨hop, hright, hleft, fun h => absurd h hnull, rfl⟩⟩
    · obtain ⟨operand, hright, -, hprinted⟩ := Operand.ofText_of_denotes hv (hstart hc)
      obtain ⟨hop', hright', -⟩ := ofParts_eq_ok.mp hc
      obtain rfl := Except.ok.inj (hop.symm.trans hop')
      obtain rfl := Except.ok.inj (hright.symm.trans hright')
      have hdenotes (w : LiteralValue) : Denotes c.right.sql w ↔ w = v.requoted :=
        ⟨fun hw => hw.unique hprinted, fun h => h ▸ hprinted⟩
      refine ⟨c.right.sql, sql_of_ofParts hc, hdenotes, ?_⟩
      rw [hdenotes, eq_comm, LiteralValue.requoted_eq_self_iff]
  · intro right c s hparts hnumber
    obtain ⟨-, hright, -⟩ := ofParts_eq_ok.mp hparts
    rw [hnumber] at hright
    obtain ⟨rfl, hnumeric⟩ := Operand.eq_of_ofText_number hright
    refine ⟨rfl, ?_, fun hread => Numeral.exists_text_eq (fun d hd => ?_) hread⟩
    · rintro ⟨n, rfl⟩
      rw [n.read?_text]
      rfl
    · exact Operand.toLower_of_isNumberChar ((Operand.looksNumeric_iff.mp hnumeric).2 d hd)

/-- A numeral with a power of ten, and a text with a quote in it. -/
theorem sql_of_literal_rank :
    (∃ c printed, ofParts "c.rank" ">=" "-2e10" = .ok c ∧
      c.sql = .ok ("`c`.`rank` >= " ++ printed) ∧
      ∀ w, Denotes printed w ↔ w = .number ((-2 : Int) * 10 ^ (10 : Int))) ∧
    ∃ c printed, ofParts "c.rank" ">=" "'it''s'" = .ok c ∧
      c.sql = .ok ("`c`.`rank` >= " ++ printed) ∧
      ∀ w, Denotes printed w ↔ w = .text "it''s" := by
  have hop : JoinOperator.ofText ">=" = .ok .gte := by decide +kernel
  have hleft : isIdentifierPath "c.rank" = true := by decide
  let power : PowerOfTen :=
    ⟨'e', .none, ['1', '0'], .inl rfl, by decide, List.all_eq_true.mp rfl⟩
  let rank : Numeral :=
    ⟨.minus, ['2'], none, some power, List.all_eq_true.mp rfl, List.all_eq_true.mp rfl, by decide⟩
  have hnumber : Denotes "-2e10" (.number ((-2 : Int) * 10 ^ (10 : Int))) :=
    Denotes.number rank
  have htext : Denotes "'it''s'" (.text "it's") := denotes_text_iff.mpr (by decide)
  obtain ⟨hmade, hprints⟩ := (sql_of_literal hleft hop).1 "-2e10" _ hnumber
  obtain ⟨hmade', hprints'⟩ := (sql_of_literal hleft hop).1 "'it''s'" _ htext
  obtain ⟨c, hc⟩ := hmade.mpr (by decide)
  obtain ⟨printed, hsql, hdenotes, -⟩ := hprints c hc
  obtain ⟨c', hc'⟩ := hmade'.mpr (by decide)
  obtain ⟨printed', hsql', hdenotes', -⟩ := hprints' c' hc'
  exact ⟨⟨c, printed, hc, hsql, hdenotes⟩, c', printed', hc', hsql', hdenotes'⟩

/-- A text with a quote is printed with two, and a difference is taken for a number. -/
theorem sql_of_quoted_text :
    Denotes "'it''s'" (.text "it's") ∧
      ofParts "a.b" "=" "'it''s'" = .ok ⟨"a.b", .eq, .text "it''s"⟩ ∧
      JoinCondition.sql ⟨"a.b", .eq, .text "it''s"⟩ = .ok "`a`.`b` = 'it''''s'" ∧
      ¬ Denotes "'it''''s'" (.text "it's") ∧
      ofParts "a.b" "=" "1-2" = .ok ⟨"a.b", .eq, .number "1-2"⟩ ∧
      ¬ ∃ n : Numeral, n.text = "1-2" := by
  refine ⟨denotes_text_iff.mpr (by decide), by decide +kernel, by decide +kernel, ?_,
    by decide +kernel, ?_⟩
  · rw [denotes_text_iff]
    decide
  · rintro ⟨n, hn⟩
    have hread := n.read?_text
    have hnone : Decimal.read? "1-2" = none := by decide +kernel
    rw [hn, hnone] at hread
    cases hread

end JoinCondition

end TableQuery
