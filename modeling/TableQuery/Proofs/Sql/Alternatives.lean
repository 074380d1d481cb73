import TableQuery.Sql.Fragment
import TableQuery.Text.Basic
import Mathlib.Data.List.Basic

/-! # The alternatives of a condition

A condition may hold what an author wrote, so it is read as any SQL text is. The text is cut into
tokens: quoted texts, words, parentheses, marks and other characters; CASE and END count as
parentheses too. OR separates the alternatives of a condition and AND the operands of an
alternative, both outside of parentheses only, where the AND after a BETWEEN belongs to the BETWEEN.
A condition holds if all operands of one of its alternatives do, and an operand in parentheses is a
condition itself (`Holds`). Comments, and the signs that some databases have for OR and AND, are
not read as such.

A text is closed if it closes its quotes and parentheses (`Closed`). A closed text in parentheses is
one operand (`alternatives_parens`), and a closed text without an OR outside of its parentheses has
one alternative (`exists_alternative`). -/

namespace TableQuery

/-! ### Tokens -/

/-- A character of a text, or the mark of a parameter. -/
inductive Letter where
  | char (c : Char)
  | mark (param : Param)
deriving DecidableEq

/-- The letters of a text. -/
def Text.letters (s : String) : List Letter := s.toList.map .char

/-- The letters of a piece. -/
def SqlPiece.letters : SqlPiece → List Letter
  | .plain text => Text.letters text
  | .author text => Text.letters text
  | .mark param => [.mark param]

/-- The letters of a fragment. -/
def Fragment.letters (f : Fragment) : List Letter := f.flatMap SqlPiece.letters

/-- A token of a condition. -/
inductive Token where
  | opening
  | closing
  /-- The word CASE. -/
  | caseOpening
  /-- The word END. -/
  | caseClosing
  | and
  | or
  | between
  | word (chars : List Char)
  | quoted (quote : Char) (chars : List Char)
  | symbol (c : Char)
  | mark (param : Param)
deriving DecidableEq

namespace Token

/-- The token of the characters of a word, if there are any. -/
def ofWord (chars : List Char) : List Token :=
  if chars.isEmpty then []
  else
    match Text.asciiLower (String.ofList chars) with
    | "and" => [.and]
    | "or" => [.or]
    | "between" => [.between]
    | "case" => [.caseOpening]
    | "end" => [.caseClosing]
    | _ => [.word chars]

/-- The token of a character that is no part of a word; a blank is none. -/
def ofChar (c : Char) : List Token :=
  if c = '(' then [.opening]
  else if c = ')' then [.closing]
  else if Text.isBlank c then []
  else [.symbol c]

end Token

/-- Characters that begin and end a quoted text. -/
def isQuote (c : Char) : Bool := "'\"`".toList.contains c

/-- Characters of words. A name with dots is one word, so that no part of it is a keyword. -/
def isWordLetter (c : Char) : Bool :=
  c.isAlphanum || c == '_' || c == '.' || c == '$' || c == '@' || 128 ≤ c.toNat

/-- What was begun before a letter. -/
inductive Scan where
  /-- A word, or nothing if it has no characters. -/
  | word (chars : List Char)
  /-- A quoted text, possibly behind a backslash. -/
  | quoted (quote : Char) (chars : List Char) (escaped : Bool)
deriving DecidableEq

namespace Scan

/-- The tokens that a letter ends, and what is begun behind it. -/
def step : Scan → Letter → List Token × Scan
  | .word w, .mark param => (Token.ofWord w ++ [.mark param], .word [])
  | .word w, .char c =>
    if isQuote c then (Token.ofWord w, .quoted c [] false)
    else if isWordLetter c then ([], .word (w ++ [c]))
    else (Token.ofWord w ++ Token.ofChar c, .word [])
  | .quoted quote w _, .mark _ => ([], .quoted quote (w ++ ['?']) false)
  | .quoted quote w escaped, .char c =>
    if escaped then ([], .quoted quote (w ++ [c]) false)
    else if c = quote then ([.quoted quote w], .word [])
    else ([], .quoted quote (w ++ [c]) (c == '\\' && quote != '`'))

/-- The token of what was begun. -/
def finish : Scan → List Token
  | .word w => Token.ofWord w
  | .quoted quote w _ => [.quoted quote w]

/-- Whether no quoted text was begun. -/
def isUnquoted : Scan → Bool
  | .word _ => true
  | .quoted _ _ _ => false

/-- The tokens that letters end, and what is begun behind them. -/
def run : Scan → List Letter → List Token × Scan
  | s, [] => ([], s)
  | s, x :: xs => ((s.step x).1 ++ ((s.step x).2.run xs).1, ((s.step x).2.run xs).2)

theorem run_append (s : Scan) (xs ys : List Letter) : s.run (xs ++ ys) =
    ((s.run xs).1 ++ ((s.run xs).2.run ys).1, ((s.run xs).2.run ys).2) := by
  induction xs generalizing s with
  | nil => rfl
  | cons x xs ih => simp only [List.cons_append, run, ih, List.append_assoc]

end Scan

/-- The tokens of some letters. -/
def tokens (xs : List Letter) : List Token :=
  ((Scan.word []).run xs).1 ++ ((Scan.word []).run xs).2.finish

/-- Letters that end a word before them and stand for some tokens. -/
def Cuts (ds : List Letter) (ts : List Token) : Prop :=
  ∀ w, (Scan.word w).run ds = (Token.ofWord w ++ ts, .word [])

theorem cuts_char {c : Char} (hq : isQuote c = false) (hw : isWordLetter c = false) :
    Cuts [.char c] (Token.ofChar c) := by
  intro w
  simp [Scan.run, Scan.step, hq, hw]

theorem cuts_mark (param : Param) : Cuts [.mark param] [.mark param] := by
  intro w
  simp [Scan.run, Scan.step]

theorem Cuts.append {ds es : List Letter} {ts us : List Token} (hds : Cuts ds ts)
    (hes : Cuts es us) : Cuts (ds ++ es) (ts ++ us) := by
  intro w
  rw [Scan.run_append, hds, hes, List.append_assoc]
  rfl

theorem cuts_quoted {quote : Char} (hq : isQuote quote = true) {cs : List Char}
    (hcs : ∀ c ∈ cs, c ≠ quote ∧ c ≠ '\\') :
    Cuts (.char quote :: cs.map .char ++ [.char quote]) [.quoted quote cs] := by
  have hrun : ∀ w, (Scan.quoted quote w false).run (cs.map .char ++ [.char quote]) =
      ([.quoted quote (w ++ cs)], .word []) := by
    intro w
    induction cs generalizing w with
    | nil => simp [Scan.run, Scan.step]
    | cons c cs ih =>
      obtain ⟨hquote, hslash⟩ := hcs c List.mem_cons_self
      have hstep : (Scan.quoted quote w false).step (.char c) =
          ([], .quoted quote (w ++ [c]) false) := by simp [Scan.step, hquote, hslash]
      rw [List.map_cons, List.cons_append, Scan.run, hstep,
        ih (fun d hd => hcs d (List.mem_cons_of_mem _ hd))]
      simp
  intro w
  have hstep : (Scan.word w).step (.char quote) = (Token.ofWord w, .quoted quote [] false) := by
    simp [Scan.step, hq]
  rw [List.cons_append, Scan.run, hstep, hrun]
  rfl

theorem tokens_append {xs ds : List Letter} {ts : List Token}
    (hxs : ((Scan.word []).run xs).2.isUnquoted = true) (hds : Cuts ds ts) (ys : List Letter) :
    tokens (xs ++ ds ++ ys) = tokens xs ++ ts ++ tokens ys := by
  cases hrun : (Scan.word []).run xs with
  | mk before s =>
    rw [hrun] at hxs
    cases s with
    | quoted quote w escaped => cases hxs
    | word w =>
      simp only [tokens, Scan.run_append, hrun, hds w, Scan.finish, List.append_assoc]

theorem isUnquoted_append {xs ds : List Letter} {ts : List Token}
    (hxs : ((Scan.word []).run xs).2.isUnquoted = true) (hds : Cuts ds ts) (ys : List Letter) :
    ((Scan.word []).run (xs ++ ds ++ ys)).2 = ((Scan.word []).run ys).2 := by
  cases hrun : (Scan.word []).run xs with
  | mk before s =>
    rw [hrun] at hxs
    cases s with
    | quoted quote w escaped => cases hxs
    | word w => simp only [Scan.run_append, hrun, hds w]

/-! ### Parentheses -/

/-- The number of open parentheses behind a token. Nothing is closed that is not open, and unless
`orToo`, there is no OR outside of parentheses. -/
def Token.level (orToo : Bool) (depth : Nat) : Token → Option Nat
  | .opening => some (depth + 1)
  | .caseOpening => some (depth + 1)
  | .closing => if depth = 0 then none else some (depth - 1)
  | .caseClosing => if depth = 0 then none else some (depth - 1)
  | .or => if depth = 0 ∧ orToo = false then none else some depth
  | _ => some depth

/-- The number of open parentheses behind some tokens. -/
def levels (orToo : Bool) : Nat → List Token → Option Nat
  | depth, [] => some depth
  | depth, t :: ts => (t.level orToo depth).bind fun next => levels orToo next ts

theorem levels_append (orToo : Bool) (depth : Nat) (xs ys : List Token) :
    levels orToo depth (xs ++ ys) =
      (levels orToo depth xs).bind fun next => levels orToo next ys := by
  induction xs generalizing depth with
  | nil => rfl
  | cons t xs ih =>
    rw [List.cons_append, levels, levels]
    cases t.level orToo depth with
    | none => rfl
    | some next => exact ih next

theorem Token.level_succ {orToo : Bool} (other : Bool) {t : Token} {depth next : Nat}
    (h : t.level orToo depth = some next) : t.level other (depth + 1) = some (next + 1) := by
  cases t <;> grind [Token.level]

theorem levels_succ {orToo : Bool} (other : Bool) {ts : List Token} {depth next : Nat}
    (h : levels orToo depth ts = some next) : levels other (depth + 1) ts = some (next + 1) := by
  induction ts generalizing depth with
  | nil =>
    cases h
    rfl
  | cons t ts ih =>
    rw [levels, Option.bind_eq_some_iff] at h ⊢
    obtain ⟨d, hd, h⟩ := h
    exact ⟨d + 1, Token.level_succ other hd, ih h⟩

/-- A part without an OR outside of its parentheses is also a part that may have one. -/
theorem levels_mono {orToo : Bool} {ts : List Token} {depth next : Nat}
    (h : levels orToo depth ts = some next) : levels true depth ts = some next := by
  induction ts generalizing depth with
  | nil => exact h
  | cons t ts ih =>
    rw [levels, Option.bind_eq_some_iff] at h ⊢
    obtain ⟨d, hd, h⟩ := h
    exact ⟨d, by cases t <;> grind [Token.level], ih h⟩

theorem levels_parens {orToo : Bool} {ts : List Token} (h : levels orToo 0 ts = some 0)
    (other : Bool) : levels other 0 (.opening :: ts ++ [.closing]) = some 0 := by
  rw [levels_append, levels, Token.level, Option.bind_some, levels_succ other h]
  rfl

/-- Letters that close their quotes and parentheses, unless `orToo` without an OR outside of
parentheses. -/
structure Closed (orToo : Bool) (xs : List Letter) : Prop where
  unquoted : ((Scan.word []).run xs).2.isUnquoted = true
  levels : levels orToo 0 (tokens xs) = some 0

instance (orToo : Bool) (xs : List Letter) : Decidable (Closed orToo xs) :=
  decidable_of_iff (((Scan.word []).run xs).2.isUnquoted = true ∧
    levels orToo 0 (tokens xs) = some 0) ⟨fun h => ⟨h.1, h.2⟩, fun h => ⟨h.1, h.2⟩⟩

namespace Closed

variable {orToo : Bool} {xs ys ds : List Letter} {ts : List Token}

theorem nil : Closed orToo [] := ⟨rfl, rfl⟩

theorem append (hxs : Closed orToo xs) (hds : Cuts ds ts)
    (hts : TableQuery.levels orToo 0 ts = some 0) (hys : Closed orToo ys) :
    Closed orToo (xs ++ ds ++ ys) := by
  constructor
  · rw [isUnquoted_append hxs.unquoted hds]
    exact hys.unquoted
  · rw [tokens_append hxs.unquoted hds, levels_append, levels_append, hxs.levels]
    simp only [Option.bind_some, hts, hys.levels]

theorem run_parens (hxs : Closed orToo xs) :
    ((Scan.word []).run (.char '(' :: xs ++ [.char ')'])).2.isUnquoted = true ∧
      tokens (.char '(' :: xs ++ [.char ')']) = .opening :: tokens xs ++ [.closing] := by
  have hopen : Cuts [.char '('] [.opening] := cuts_char (by decide) (by decide)
  have hclose : Cuts [.char ')'] [.closing] := cuts_char (by decide) (by decide)
  have hin : tokens (.char '(' :: xs) = .opening :: tokens xs := @tokens_append [] _ _ rfl hopen xs
  have hunquoted : ((Scan.word []).run (.char '(' :: xs)).2.isUnquoted = true := by
    have hrun := @isUnquoted_append [] _ _ rfl hopen xs
    exact (congrArg Scan.isUnquoted hrun).trans hxs.unquoted
  have hall := tokens_append hunquoted hclose []
  have hrun := isUnquoted_append hunquoted hclose []
  rw [List.append_nil] at hall hrun
  rw [hall, hrun, hin]
  exact ⟨rfl, List.append_nil _⟩

/-- **Closed letters in parentheses are closed.** -/
theorem parens (hxs : Closed orToo xs) (other : Bool) :
    Closed other (.char '(' :: xs ++ [.char ')']) := by
  obtain ⟨hunquoted, htokens⟩ := hxs.run_parens
  refine ⟨hunquoted, ?_⟩
  rw [htokens]
  exact levels_parens hxs.levels other

theorem mono (hxs : Closed orToo xs) : Closed true xs := ⟨hxs.unquoted, levels_mono hxs.levels⟩

end Closed

/-! ### Alternatives -/

/-- Where a token stands: the number of open parentheses, and of BETWEENs outside of parentheses
that wait for their AND. -/
structure Place where
  depth : Nat
  betweens : Nat

namespace Place

/-- The place behind a token. -/
def next (p : Place) : Token → Place
  | .opening => { p with depth := p.depth + 1 }
  | .caseOpening => { p with depth := p.depth + 1 }
  | .closing => { p with depth := p.depth - 1 }
  | .caseClosing => { p with depth := p.depth - 1 }
  | .between => if p.depth = 0 then { p with betweens := p.betweens + 1 } else p
  | .and => if p.depth = 0 then { p with betweens := p.betweens - 1 } else p
  | _ => p

end Place

/-- Operands of the alternatives of a condition. -/
abbrev Alternatives := List (List (List Token))

namespace Alternatives

/-- The alternatives with a token in front. -/
def extend (t : Token) : Alternatives → Alternatives
  | (operand :: operands) :: rest => ((t :: operand) :: operands) :: rest
  | other => other

/-- The alternatives with an operand in front. -/
def start (operand : List Token) : Alternatives → Alternatives
  | operands :: rest => (operand :: operands) :: rest
  | [] => []

end Alternatives

/-- The operands of the alternatives of a condition: its OR and its AND outside of parentheses
separate them. -/
def alternatives : Place → List Token → Alternatives
  | _, [] => [[[]]]
  | p, t :: ts =>
    if t = .or ∧ p.depth = 0 then [[]] :: alternatives ⟨0, 0⟩ ts
    else if t = .and ∧ p.depth = 0 ∧ p.betweens = 0 then (alternatives p ts).start []
    else (alternatives (p.next t) ts).extend t

/-- The condition that an operand has in parentheses, if it is one in parentheses. -/
def inner? : List Token → Option (List Token)
  | .opening :: rest =>
    if rest.getLast? = some .closing ∧ levels true 0 rest.dropLast = some 0 then
      some rest.dropLast
    else none
  | _ => none

mutual

/-- A condition holds, given which operands without parentheses around them hold: all operands of
one of its alternatives do. -/
inductive Holds (v : List Token → Prop) : List Token → Prop
  | intro {ts : List Token} {operands : List (List Token)}
    (mem : operands ∈ alternatives ⟨0, 0⟩ ts)
    (all : ∀ operand ∈ operands, OperandHolds v operand) : Holds v ts

/-- An operand holds. -/
inductive OperandHolds (v : List Token → Prop) : List Token → Prop
  | leaf {operand : List Token} (leaf : inner? operand = none) (holds : v operand) :
    OperandHolds v operand
  | parens {operand inner : List Token} (parens : inner? operand = some inner)
    (holds : Holds v inner) : OperandHolds v operand

end

/-! ### Operands -/

theorem Alternatives.foldr_extend (ts operand : List Token) (operands : List (List Token))
    (rest : Alternatives) : ts.foldr extend ((operand :: operands) :: rest) =
      ((ts ++ operand) :: operands) :: rest := by
  induction ts with
  | nil => rfl
  | cons t ts ih => rw [List.foldr_cons, ih, extend, List.cons_append]

theorem Place.next_depth {orToo : Bool} {p : Place} {t : Token} {next : Nat}
    (h : t.level orToo p.depth = some next) : (p.next t).depth = next := by
  cases t <;> grind [Token.level, Place.next]

theorem Place.next_inside {t : Token} {depth next : Nat} (h : t.level true depth = some next)
    (betweens : Nat) : (Place.mk (depth + 1) betweens).next t = ⟨next + 1, betweens⟩ := by
  cases t <;> grind [Token.level, Place.next]

theorem alternatives_inside {ts : List Token} {depth next : Nat}
    (h : levels true depth ts = some next) (betweens : Nat) (ys : List Token) :
    alternatives ⟨depth + 1, betweens⟩ (ts ++ ys) =
      ts.foldr Alternatives.extend (alternatives ⟨next + 1, betweens⟩ ys) := by
  induction ts generalizing depth with
  | nil =>
    cases h
    rfl
  | cons t ts ih =>
    rw [levels, Option.bind_eq_some_iff] at h
    obtain ⟨d, hd, h⟩ := h
    rw [List.cons_append, alternatives, if_neg (by simp), if_neg (by simp),
      Place.next_inside hd, ih h, List.foldr_cons]

/-- **What is in parentheses belongs to one operand.** -/
theorem alternatives_parens {inner : List Token} (h : levels true 0 inner = some 0)
    (betweens : Nat) (ys : List Token) :
    alternatives ⟨0, betweens⟩ (.opening :: inner ++ [.closing] ++ ys) =
      (.opening :: inner ++ [.closing] : List Token).foldr Alternatives.extend
        (alternatives ⟨0, betweens⟩ ys) := by
  rw [List.cons_append, List.cons_append, List.append_assoc, alternatives, if_neg (by simp),
    if_neg (by simp)]
  show (alternatives ⟨0 + 1, betweens⟩ _).extend _ = _
  rw [alternatives_inside h, List.singleton_append, alternatives, if_neg (by simp),
    if_neg (by simp), List.foldr_cons, List.foldr_append]
  rfl

/-- **Without an OR outside of parentheses there is one alternative.** -/
theorem exists_alternative {ts : List Token} {p : Place} {next : Nat}
    (h : levels false p.depth ts = some next) : ∃ operands, alternatives p ts = [operands] := by
  induction ts generalizing p with
  | nil => exact ⟨_, rfl⟩
  | cons t ts ih =>
    rw [levels, Option.bind_eq_some_iff] at h
    obtain ⟨d, hd, h⟩ := h
    have hor : ¬ (t = .or ∧ p.depth = 0) := by
      rintro ⟨rfl, hdepth⟩
      simp [Token.level, hdepth] at hd
    rw [alternatives, if_neg hor]
    split_ifs with hand
    · obtain ⟨rfl, -, -⟩ := hand
      cases hd
      obtain ⟨operands, hoperands⟩ := ih h
      exact ⟨[] :: operands, by rw [hoperands]; rfl⟩
    · rw [← Place.next_depth hd] at h
      obtain ⟨operands, hoperands⟩ := ih h
      rw [hoperands]
      cases operands with
      | nil => exact ⟨[], rfl⟩
      | cons operand operands => exact ⟨(t :: operand) :: operands, rfl⟩

theorem alternatives_parens_and {inner rest : List Token} (h : levels true 0 inner = some 0)
    {operands : List (List Token)} (hrest : alternatives ⟨0, 0⟩ rest = [operands]) :
    alternatives ⟨0, 0⟩ (.opening :: inner ++ [.closing] ++ .and :: rest) =
      [(.opening :: inner ++ [.closing]) :: operands] := by
  rw [alternatives_parens h, alternatives, if_neg (by simp), if_pos (by simp), hrest,
    Alternatives.start, Alternatives.foldr_extend, List.append_nil]

theorem inner?_parens {inner : List Token} (h : levels true 0 inner = some 0) :
    inner? (.opening :: inner ++ [.closing]) = some inner := by
  rw [List.cons_append, inner?, List.getLast?_concat, List.dropLast_concat, if_pos ⟨rfl, h⟩]

/-- **An operand of the only alternative holds if the condition does.** -/
theorem Holds.of_mem {v : List Token → Prop} {ts inner : List Token} {operands : List (List Token)}
    (h : Holds v ts) (halternatives : alternatives ⟨0, 0⟩ ts = [operands])
    (hinner : levels true 0 inner = some 0)
    (hmem : (.opening :: inner ++ [.closing]) ∈ operands) : Holds v inner := by
  obtain ⟨hoperands, hall⟩ := h
  rw [halternatives, List.mem_singleton] at hoperands
  subst hoperands
  cases hall _ hmem with
  | leaf hleaf _ =>
    rw [inner?_parens hinner] at hleaf
    cases hleaf
  | parens hparens hholds =>
    rw [inner?_parens hinner] at hparens
    cases hparens
    exact hholds

end TableQuery
