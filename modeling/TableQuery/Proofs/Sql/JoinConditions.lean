import TableQuery.Sql.JoinCondition
import TableQuery.Proofs.Sql.Names
import TableQuery.Proofs.Text.Words

/-! # Join conditions

A condition of a join compares a path with a right side. What the right side is follows from its
text (`Operand.ofText_cases`), and a condition that is made of three parts prints
(`JoinCondition.sql_of_ofParts`).

Most joins compare a column of one table with a column of another. The condition is read from a text
in which alias and column stand side by side, so what it names is what its two paths begin with
(`JoinCondition.aliases`). For aliases that are identifiers these are the two aliases
(`JoinCondition.mem_aliases`), and for columns that are identifiers too the condition can always be
made and printed (`JoinCondition.columns_eq_ok`, `JoinCondition.exists_sql`). -/

namespace TableQuery

open Outcome

/-- The alias that a path begins with. -/
def headAlias (path : String) : String := (Text.piecesOf '.' path).head?.getD ""

/-- The aliases that a condition names: those that its paths begin with. -/
def JoinCondition.aliases (c : JoinCondition) : List String :=
  match c.right with
  | .path path => [headAlias c.left, headAlias path]
  | _ => [headAlias c.left]

/-! ### Paths of an alias and a column -/

theorem piecesOf_dotted {a : String} (ha : isIdentifier a = true) (column : String) :
    Text.piecesOf '.' (a ++ "." ++ column) = a :: Text.piecesOf '.' column := by
  rw [Text.piecesOf_append rfl, Text.piecesOf_eq_singleton (dot_not_mem_of_isIdentifier ha),
    List.singleton_append]

theorem headAlias_dotted {a : String} (ha : isIdentifier a = true) (column : String) :
    headAlias (a ++ "." ++ column) = a := by
  rw [headAlias, piecesOf_dotted ha]
  rfl

theorem isIdentifierPath_dotted {a column : String} (ha : isIdentifier a = true)
    (hcolumn : isIdentifier column = true) : isIdentifierPath (a ++ "." ++ column) = true := by
  rw [isIdentifierPath_append, isIdentifierPath_of_isIdentifier ha,
    isIdentifierPath_of_isIdentifier hcolumn]
  rfl

/-! ### The right side -/

namespace Operand

theorem unquote?_eq_some {cs inner : List Char} (h : unquote? cs = some inner) :
    ∃ q, (q = '\x27' ∨ q = '"') ∧ cs = q :: (inner ++ [q]) := by
  cases cs with
  | nil => cases h
  | cons q rest =>
    rw [unquote?] at h
    split at h
    · next hquote =>
      cases h
      exact ⟨q, hquote.1, by rw [List.dropLast_append_getLast? q hquote.2]⟩
    · cases h

theorem looksNumeric_iff {cs : List Char} : looksNumeric cs = true ↔
    (∃ d ds, cs = d :: ds ∧ (d.isDigit = true ∨ d = '+' ∨ d = '-')) ∧
      ∀ c ∈ cs, isNumberChar c = true := by
  cases cs with
  | nil => simp [looksNumeric]
  | cons c cs => simp [looksNumeric, or_assoc]

/-- **What a right side is read as**: null, the inner part of a quoted text, a number or a path. -/
theorem ofText_cases {text : String} {operand : Operand} (h : ofText text = .ok operand) :
    (operand = .null ∧ Text.eqIgnoringCase text "null" = true) ∨
    (∃ inner, operand = .text (String.ofList inner) ∧ unquote? text.toList = some inner) ∨
    (operand = .number text ∧ looksNumeric text.toList = true) ∨
    (operand = .path text ∧ isIdentifierPath text = true) := by
  unfold ofText at h
  by_cases hnull : Text.eqIgnoringCase text "null" = true
  · rw [if_pos hnull] at h
    cases h
    exact .inl ⟨rfl, hnull⟩
  rw [if_neg hnull] at h
  split at h
  · next inner hinner =>
    cases h
    exact .inr (.inl ⟨inner, rfl, hinner⟩)
  · by_cases hnumeric : looksNumeric text.toList = true
    · rw [if_pos hnumeric] at h
      cases h
      exact .inr (.inr (.inl ⟨rfl, hnumeric⟩))
    · rw [if_neg hnumeric] at h
      obtain ⟨_, hpath, rfl⟩ := map_eq_ok.mp h
      exact .inr (.inr (.inr ⟨rfl, checkPath_eq_ok.mp hpath⟩))

theorem eq_of_ofText_number {text s : String} (h : ofText text = .ok (.number s)) :
    s = text ∧ looksNumeric text.toList = true := by
  rcases ofText_cases h with ⟨heq, -⟩ | ⟨_, heq, -⟩ | ⟨heq, hnumeric⟩ | ⟨heq, -⟩ <;> cases heq
  exact ⟨rfl, hnumeric⟩

theorem eq_of_ofText {text path : String} (h : ofText text = .ok (.path path)) : path = text := by
  rcases ofText_cases h with ⟨heq, -⟩ | ⟨_, heq, -⟩ | ⟨heq, -⟩ | ⟨heq, -⟩ <;> cases heq
  rfl

theorem isIdentifierPath_of_ofText {text path : String} (h : ofText text = .ok (.path path)) :
    isIdentifierPath path = true := by
  rcases ofText_cases h with ⟨heq, -⟩ | ⟨_, heq, -⟩ | ⟨heq, -⟩ | ⟨heq, hpath⟩ <;> cases heq
  exact hpath

theorem ofText_empty : ofText "" = .error .emptyIdentifier := by
  decide

theorem ofText_dot_ne_ok {text : String} {operand : Operand} (hdot : text.toList.head? = some '.') :
    ofText text ≠ .ok operand := by
  intro h
  obtain ⟨cs, htext⟩ := List.head?_eq_some_iff.mp hdot
  rcases ofText_cases h with ⟨-, hnull⟩ | ⟨inner, -, hquoted⟩ | ⟨-, hnumeric⟩ | ⟨-, hpath⟩
  · have hlower := Text.eqIgnoringCase_iff.mp hnull
    rw [htext] at hlower
    exact absurd (List.cons.inj hlower).1 (by decide)
  · obtain ⟨q, hq, hquoted⟩ := unquote?_eq_some hquoted
    rw [htext] at hquoted
    rcases hq with rfl | rfl <;> exact absurd (List.cons.inj hquoted).1 (by decide)
  · obtain ⟨⟨d, ds, hnumber, hd⟩, -⟩ := looksNumeric_iff.mp hnumeric
    rw [htext] at hnumber
    rw [← (List.cons.inj hnumber).1] at hd
    exact absurd hd (by decide)
  · have hcut : text = "" ++ "." ++ String.ofList cs :=
      String.toList_inj.mp (by simp [String.toList_append, htext])
    rw [hcut, isIdentifierPath_append, Bool.and_eq_true] at hpath
    exact absurd hpath.1 (by decide)

/-- The right side in an SQL text. -/
def sql : Operand → String
  | .path p => ".".intercalate ((Text.piecesOf '.' p).map backticked)
  | .null => "NULL"
  | .number s => s
  | .text s => Value.quoteLiteral s

theorem ofText_dotted {a column : String} (ha : isIdentifier a = true)
    (hcolumn : isIdentifier column = true) :
    ofText (a ++ "." ++ column) = .ok (.path (a ++ "." ++ column)) := by
  obtain ⟨c, cs, hcs, hstart, -⟩ := isIdentifier_iff.mp ha
  have hlist : (a ++ "." ++ column).toList = c :: (cs ++ '.' :: column.toList) := by
    simp [String.toList_append, hcs]
  have hnull : Text.eqIgnoringCase (a ++ "." ++ column) "null" = false := by
    have hdot : '.' ∈ (Text.asciiLower (a ++ "." ++ column)).toList := by
      rw [Text.asciiLower, String.toList_ofList, hlist]
      exact List.mem_map.mpr ⟨'.', by simp, by decide⟩
    rw [Text.eqIgnoringCase, beq_eq_false_iff_ne]
    intro heq
    rw [heq] at hdot
    exact absurd hdot (by decide)
  have hquote : unquote? (a ++ "." ++ column).toList = none := by
    rw [hlist, unquote?, if_neg]
    rintro ⟨rfl | rfl, -⟩ <;> exact absurd hstart (by decide)
  have hnumeric : looksNumeric (a ++ "." ++ column).toList = false := by
    have hsign : c ≠ '+' ∧ c ≠ '-' := by
      constructor <;> rintro rfl <;> exact absurd hstart (by decide)
    rw [hlist, looksNumeric, isDigit_of_isIdentifierStart hstart, beq_eq_false_iff_ne.mpr hsign.1,
      beq_eq_false_iff_ne.mpr hsign.2]
    rfl
  rw [ofText, hnull, hquote, hnumeric]
  exact map_eq_ok.mpr ⟨(), checkPath_eq_ok.mpr (isIdentifierPath_dotted ha hcolumn), rfl⟩

end Operand

namespace JoinCondition

variable {leftAlias leftColumn rightAlias rightColumn : String} {c : JoinCondition}

theorem ofParts_eq_ok {left operator right : String} : ofParts left operator right = .ok c ↔
    JoinOperator.ofText operator = .ok c.op ∧ Operand.ofText right = .ok c.right ∧
      isIdentifierPath left = true ∧ (c.right = .null → c.op.isNullTest = true) ∧
      c.left = left := by
  simp only [ofParts, bind_eq_ok, guard_eq_ok, pure_eq_ok]
  constructor
  · rintro ⟨op, hop, operand, hoperand, _, hleft, hnull, rfl⟩
    exact ⟨hop, hoperand, checkPath_eq_ok.mp hleft,
      fun h => eq_true_of_ne_false fun hop => hnull ⟨h, hop⟩, rfl⟩
  · rintro ⟨hop, hoperand, hleft, hnull, rfl⟩
    refine ⟨c.op, hop, c.right, hoperand, (), checkPath_eq_ok.mpr hleft, ?_, rfl⟩
    rintro ⟨hright, hop⟩
    rw [hnull hright] at hop
    cases hop

/-- **A condition of three parts prints**: the path, the operator and the right side. -/
theorem sql_of_ofParts {left operator right : String} (h : ofParts left operator right = .ok c) :
    c.sql = .ok (".".intercalate ((Text.piecesOf '.' left).map backticked) ++ " " ++ c.op.sql ++
      " " ++ c.right.sql) := by
  obtain ⟨-, hoperand, hleft, hnull, heq⟩ := ofParts_eq_ok.mp h
  rw [sql, heq, quotePath_eq_ok.mpr ⟨hleft, rfl⟩]
  cases hright : c.right with
  | null =>
    have hword : ∀ s : String, s ++ " NULL" = s ++ " " ++ "NULL" := fun s => by
      rw [String.append_assoc]
      rfl
    simp only [hnull hright, Operand.sql, ← hword]
    rfl
  | path path =>
    rw [hright] at hoperand
    simp only [quotePath_eq_ok.mpr ⟨Operand.isIdentifierPath_of_ofText hoperand, rfl⟩]
    rfl
  | number text => rfl
  | text content => rfl

theorem mem_aliases (h : columns leftAlias leftColumn rightAlias rightColumn = .ok c)
    (hleft : isIdentifier leftAlias = true) (hright : isIdentifier rightAlias = true) {a : String}
    (ha : a ∈ c.aliases) : a = leftAlias ∨ a = rightAlias := by
  simp only [columns, ofParts, bind_eq_ok, guard_eq_ok, pure_eq_ok] at h
  obtain ⟨op, -, operand, hoperand, -, -, -, rfl⟩ := h
  rw [aliases] at ha
  split at ha
  · next path hpath =>
    obtain rfl : operand = .path path := hpath
    rw [Operand.eq_of_ofText hoperand, headAlias_dotted hleft, headAlias_dotted hright] at ha
    simpa using ha
  · rw [headAlias_dotted hleft, List.mem_singleton] at ha
    exact .inl ha

/-- **The equality of two columns can be made** if their names are identifiers. -/
theorem columns_eq_ok (hla : isIdentifier leftAlias = true) (hlc : isIdentifier leftColumn = true)
    (hra : isIdentifier rightAlias = true) (hrc : isIdentifier rightColumn = true) :
    columns leftAlias leftColumn rightAlias rightColumn =
      .ok ⟨leftAlias ++ "." ++ leftColumn, .eq, .path (rightAlias ++ "." ++ rightColumn)⟩ := by
  have hop : JoinOperator.ofText "=" = .ok .eq := by decide +kernel
  simp only [columns, ofParts, bind_eq_ok, guard_eq_ok, pure_eq_ok]
  exact ⟨.eq, hop, _, Operand.ofText_dotted hra hrc, (),
    checkPath_eq_ok.mpr (isIdentifierPath_dotted hla hlc), by simp, rfl⟩

theorem exists_sql (hla : isIdentifier leftAlias = true) (hlc : isIdentifier leftColumn = true)
    (hra : isIdentifier rightAlias = true) (hrc : isIdentifier rightColumn = true) :
    ∃ s, JoinCondition.sql ⟨leftAlias ++ "." ++ leftColumn, .eq,
      .path (rightAlias ++ "." ++ rightColumn)⟩ = .ok s := by
  have hleft := quotePath_eq_ok.mpr ⟨isIdentifierPath_dotted hla hlc, rfl⟩
  have hright := quotePath_eq_ok.mpr ⟨isIdentifierPath_dotted hra hrc, rfl⟩
  exact ⟨_, by simp only [sql, bind_eq_ok]; exact ⟨_, hleft, _, hright, pure_eq_ok.mpr rfl⟩⟩

end JoinCondition

end TableQuery
