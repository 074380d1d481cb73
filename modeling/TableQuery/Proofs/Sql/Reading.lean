import Mathlib.Data.List.Forall2
import TableQuery.Sql.Predicate

/-! # Reading conditions

A condition of SQL is read from left to right: parentheses first, then AND, then OR, and the AND
after a BETWEEN belongs to the BETWEEN. The text is cut into lexemes, which are read one by one with
a stack of levels, one for each open parenthesis. A level holds what is read of its alternatives, of
the conditions of its current alternative and of its current operand. An operand is a condition in
parentheses or the lexemes of a leaf, which may have parentheses of their own, such as those of a
list. What the table's author wrote is one lexeme.

Lexemes that are read as an operand (`ReadsOperand`) may stand in parentheses or between AND and OR;
a sequence of operands with the same word between each two is a level (`readsLevel_joined`). -/

namespace TableQuery

/-! ### Conditions -/

/-- A condition over leaves. -/
inductive Condition (α : Type) where
  | leaf (a : α)
  | and (left right : Condition α)
  /-- Two conditions of which one has to hold. -/
  | or (left right : Condition α)
deriving DecidableEq, Repr

namespace Condition

variable {α β : Type}

/-- The condition with other leaves. -/
def map (f : α → β) : Condition α → Condition β
  | .leaf a => .leaf (f a)
  | .and left right => .and (left.map f) (right.map f)
  | .or left right => .or (left.map f) (right.map f)

/-- The leaves from left to right. -/
def leaves : Condition α → List α
  | .leaf a => [a]
  | .and left right => left.leaves ++ right.leaves
  | .or left right => left.leaves ++ right.leaves

/-- The truth of the condition, from the truth of its leaves. -/
def eval (v : α → Bool) : Condition α → Bool
  | .leaf a => v a
  | .and left right => left.eval v && right.eval v
  | .or left right => left.eval v || right.eval v

/-- Two conditions under a conjunction. -/
def under : Conjunction → Condition α → Condition α → Condition α
  | .and => .and
  | .or => .or

/-- A condition behind others under a conjunction, if there are others. -/
def behind (conjunction : Conjunction) (before : Option (Condition α)) (c : Condition α) :
    Condition α :=
  before.elim c fun b => under conjunction b c

/-- A sequence of conditions under a conjunction. -/
def joined (conjunction : Conjunction) (first : Condition α) (rest : List (Condition α)) :
    Condition α :=
  rest.foldl (under conjunction) first

theorem map_under (f : α → β) (conjunction : Conjunction) (c d : Condition α) :
    (under conjunction c d).map f = under conjunction (c.map f) (d.map f) := by
  cases conjunction <;> rfl

theorem map_joined (f : α → β) (conjunction : Conjunction) (first : Condition α)
    (rest : List (Condition α)) :
    (joined conjunction first rest).map f =
      joined conjunction (first.map f) (rest.map (map f)) := by
  induction rest generalizing first with
  | nil => rfl
  | cons c rest ih =>
    show (joined conjunction (under conjunction first c) rest).map f = _
    rw [ih, map_under]
    rfl

theorem leaves_joined (conjunction : Conjunction) (first : Condition α)
    (rest : List (Condition α)) :
    (joined conjunction first rest).leaves = first.leaves ++ rest.flatMap leaves := by
  induction rest generalizing first with
  | nil => simp [joined]
  | cons c rest ih =>
    show (joined conjunction (under conjunction first c) rest).leaves = _
    rw [ih, List.flatMap_cons, ← List.append_assoc]
    cases conjunction <;> rfl

end Condition

/-- The truth of a sequence under a conjunction. -/
def Conjunction.truth : Conjunction → List Bool → Bool
  | .and, values => values.all id
  | .or, values => values.any id

theorem Condition.eval_joined {α : Type} (v : α → Bool) (conjunction : Conjunction)
    (first : Condition α) (rest : List (Condition α)) :
    (joined conjunction first rest).eval v =
      conjunction.truth (first.eval v :: rest.map (eval v)) := by
  induction rest generalizing first with
  | nil => cases conjunction <;> simp [joined, Conjunction.truth]
  | cons c rest ih =>
    show (joined conjunction (under conjunction first c) rest).eval v = _
    rw [ih]
    cases conjunction
    · simp [under, eval, Conjunction.truth, Bool.and_assoc]
    · simp [under, eval, Conjunction.truth, Bool.or_assoc]

/-! ### Lexemes -/

/-- A lexeme of a condition. -/
inductive Lexeme where
  | opening
  | closing
  | and
  | or
  | between
  /-- Any other word: characters without a blank or a parenthesis. -/
  | word (text : String)
  | mark (param : Param)
  | author (sql : String)
deriving DecidableEq, Repr

/-- A character of a text, or a piece that is not plain text. -/
inductive Symbol where
  | char (c : Char)
  | mark (param : Param)
  | author (sql : String)

/-- The symbols of a piece. -/
def SqlPiece.symbols : SqlPiece → List Symbol
  | .plain text => text.toList.map .char
  | .author text => [.author text]
  | .mark param => [.mark param]

/-- The symbols of a fragment. -/
def Fragment.symbols (f : Fragment) : List Symbol := f.flatMap SqlPiece.symbols

/-- The lexeme of a word. -/
def Lexeme.ofWord (text : String) : Lexeme :=
  if text = "AND" then .and
  else if text = "OR" then .or
  else if text = "BETWEEN" then .between
  else .word text

/-- The lexeme of the characters of a word, if there are any. -/
def Lexeme.ofChars (word : List Char) : List Lexeme :=
  if word.isEmpty then [] else [.ofWord (String.ofList word)]

/-- A symbol as a character of a word, or as the lexemes that it stands for between two words. -/
def Symbol.role : Symbol → Char ⊕ List Lexeme
  | .char ' ' => .inr []
  | .char '(' => .inr [.opening]
  | .char ')' => .inr [.closing]
  | .char c => .inl c
  | .mark param => .inr [.mark param]
  | .author sql => .inr [.author sql]

/-- The lexemes of symbols behind the characters of a word. -/
def lexemesFrom (word : List Char) : List Symbol → List Lexeme
  | [] => Lexeme.ofChars word
  | s :: rest =>
    match s.role with
    | .inl c => lexemesFrom (word ++ [c]) rest
    | .inr ls => Lexeme.ofChars word ++ ls ++ lexemesFrom [] rest

/-- The lexemes of a fragment. -/
def Fragment.lexemes (f : Fragment) : List Lexeme := lexemesFrom [] f.symbols

section

variable {d : Symbol} {c : Char} {ls : List Lexeme}

theorem lexemesFrom_cons_inl (hd : d.role = .inl c) (word : List Char) (rest : List Symbol) :
    lexemesFrom word (d :: rest) = lexemesFrom (word ++ [c]) rest := by
  simp only [lexemesFrom, hd]

theorem lexemesFrom_cons_inr (hd : d.role = .inr ls) (word : List Char) (rest : List Symbol) :
    lexemesFrom word (d :: rest) = Lexeme.ofChars word ++ ls ++ lexemesFrom [] rest := by
  simp only [lexemesFrom, hd]

/-- Nothing is joined to a word over a symbol between words. -/
theorem lexemesFrom_append (hd : d.role = .inr ls) : ∀ (word : List Char) (xs ys : List Symbol),
    lexemesFrom word (xs ++ d :: ys) = lexemesFrom word xs ++ ls ++ lexemesFrom [] ys
  | word, [], ys => lexemesFrom_cons_inr hd word ys
  | word, x :: xs, ys => by
    rw [List.cons_append]
    cases hx : x.role with
    | inl c => rw [lexemesFrom_cons_inl hx, lexemesFrom_cons_inl hx, lexemesFrom_append hd]
    | inr ls' =>
      rw [lexemesFrom_cons_inr hx, lexemesFrom_cons_inr hx, lexemesFrom_append hd]
      simp only [List.append_assoc]

/-- Characters of words. -/
def isWordChar (c : Char) : Bool := c != ' ' && c != '(' && c != ')'

theorem role_of_isWordChar {c : Char} (hc : isWordChar c = true) :
    (Symbol.char c).role = .inl c := by
  simp only [isWordChar, Bool.and_eq_true, bne_iff_ne] at hc
  unfold Symbol.role
  split <;> simp_all

theorem lexemesFrom_word {cs : List Char} (hcs : ∀ c ∈ cs, isWordChar c = true)
    (word : List Char) (rest : List Symbol) :
    lexemesFrom word (cs.map .char ++ rest) = lexemesFrom (word ++ cs) rest := by
  induction cs generalizing word with
  | nil => simp
  | cons c cs ih =>
    have hc := role_of_isWordChar (hcs c (by simp))
    rw [List.map_cons, List.cons_append, lexemesFrom_cons_inl hc,
      ih fun d hd => hcs d (List.mem_cons_of_mem c hd), List.append_assoc]
    rfl

end

namespace Fragment

theorem lexemes_mark (f : Fragment) (p : Param) (rest : Fragment) :
    (f ++ .mark p :: rest).lexemes = f.lexemes ++ .mark p :: rest.lexemes := by
  have hs : (f ++ .mark p :: rest).symbols = f.symbols ++ .mark p :: rest.symbols := by
    simp [symbols, SqlPiece.symbols]
  have hp : (Symbol.mark p).role = .inr [.mark p] := rfl
  rw [lexemes, hs, lexemesFrom_append hp, List.append_assoc]
  rfl

theorem lexemes_blank (f : Fragment) (left right : String) (rest : Fragment) :
    lexemes (f ++ .plain (left ++ " " ++ right) :: rest) =
      lexemes (f ++ [.plain left]) ++ lexemes (.plain right :: rest) := by
  have hs : symbols (f ++ .plain (left ++ " " ++ right) :: rest) =
      symbols (f ++ [.plain left]) ++ .char ' ' :: symbols (.plain right :: rest) := by
    simp [symbols, SqlPiece.symbols]
  have hb : (Symbol.char ' ').role = .inr [] := rfl
  rw [lexemes, hs, lexemesFrom_append hb, List.append_nil]
  rfl

theorem lexemes_append_empty (f : Fragment) : lexemes (f ++ [.plain ""]) = f.lexemes := by
  simp [lexemes, symbols, SqlPiece.symbols]

theorem lexemes_empty_cons (rest : Fragment) : lexemes (.plain "" :: rest) = rest.lexemes := by
  simp [lexemes, symbols, SqlPiece.symbols]

theorem lexemes_between (f : Fragment) (text : String) (rest : Fragment) :
    (f ++ .plain (" " ++ text ++ " ") :: rest).lexemes =
      f.lexemes ++ (lexemes [.plain text] ++ rest.lexemes) := by
  have hl := lexemes_blank f "" (text ++ " ") rest
  have hr := lexemes_blank [] text "" rest
  rw [lexemes_append_empty] at hl
  rw [lexemes_empty_cons, String.append_empty, List.nil_append, List.nil_append] at hr
  rwa [hr, String.empty_append, ← String.append_assoc] at hl

theorem lexemes_inParens (f g : Fragment) :
    (f ++ inParens g).lexemes = f.lexemes ++ .opening :: (g.lexemes ++ [.closing]) := by
  have hs : (f ++ inParens g).symbols =
      f.symbols ++ .char '(' :: (g.symbols ++ .char ')' :: []) := by
    simp [inParens, symbols, SqlPiece.symbols]
  have ho : (Symbol.char '(').role = .inr [.opening] := rfl
  have hc : (Symbol.char ')').role = .inr [.closing] := rfl
  rw [lexemes, hs, lexemesFrom_append ho, lexemesFrom_append hc]
  simp [lexemes, lexemesFrom, Lexeme.ofChars]

theorem lexemes_joined {sep : String} {x : Lexeme} : ∀ {f : Fragment} {fs : List Fragment},
    (∀ g ∈ f :: fs, ∀ rest : Fragment,
      (g ++ .plain sep :: rest).lexemes = g.lexemes ++ x :: rest.lexemes) →
    (joined sep (f :: fs)).lexemes = f.lexemes ++ fs.flatMap fun g => x :: g.lexemes
  | f, [], _ => by simp [joined]
  | f, g :: fs, h => by
    rw [joined, h f (by simp), lexemes_joined fun e he => h e (List.mem_cons_of_mem f he),
      List.flatMap_cons]
    rfl

end Fragment

/-- The word of a conjunction. -/
def Conjunction.lexeme : Conjunction → Lexeme
  | .and => .and
  | .or => .or

theorem Fragment.lexemes_conjunction (conjunction : Conjunction) (f g : Fragment) :
    (f ++ .plain conjunction.sql :: g).lexemes = f.lexemes ++ conjunction.lexeme :: g.lexemes := by
  cases conjunction with
  | and => exact lexemes_between f "AND" g
  | or => exact lexemes_between f "OR" g

/-! ### The reader -/

/-- What is read of an operand. -/
inductive ReadOperand where
  | missing
  /-- Lexemes of a leaf, the number of parentheses that are open in it, and whether a BETWEEN in it
  still needs its AND. -/
  | leaf (text : List Lexeme) (depth : Nat) (range : Bool)
  | whole (c : Condition (List Lexeme))

namespace ReadOperand

/-- The operand with one more lexeme, if the lexeme belongs to it. -/
def extend? : ReadOperand → Lexeme → Option ReadOperand
  | .missing, .word text => some (.leaf [.word text] 0 false)
  | .missing, .mark param => some (.leaf [.mark param] 0 false)
  | .missing, .author sql => some (.leaf [.author sql] 0 false)
  | .leaf _ 0 _, .closing => none
  | .leaf _ 0 _, .or => none
  | .leaf _ 0 false, .and => none
  | .leaf text 0 true, .and => some (.leaf (text ++ [.and]) 0 false)
  | .leaf text 0 _, .between => some (.leaf (text ++ [.between]) 0 true)
  | .leaf text (depth + 1) range, .closing => some (.leaf (text ++ [.closing]) depth range)
  | .leaf text depth range, .opening => some (.leaf (text ++ [.opening]) (depth + 1) range)
  | .leaf text depth range, x => some (.leaf (text ++ [x]) depth range)
  | _, _ => none

/-- The condition of an operand that is complete. -/
def condition? : ReadOperand → Option (Condition (List Lexeme))
  | .leaf text 0 false => some (.leaf text)
  | .whole c => some c
  | _ => none

end ReadOperand

/-- What is read on a level. -/
structure ReadLevel where
  alternatives : Option (Condition (List Lexeme)) := none
  /-- The conditions of the current alternative before the current operand. -/
  conditions : Option (Condition (List Lexeme)) := none
  operand : ReadOperand := .missing

namespace ReadLevel

/-- The current alternative with the condition of its last operand. -/
def alternative (l : ReadLevel) (c : Condition (List Lexeme)) : Condition (List Lexeme) :=
  .behind .and l.conditions c

/-- All that was read, with the condition of the last operand. -/
def whole (l : ReadLevel) (c : Condition (List Lexeme)) : Condition (List Lexeme) :=
  .behind .or l.alternatives (l.alternative c)

/-- All that was read. -/
def close? (l : ReadLevel) : Option (Condition (List Lexeme)) := l.operand.condition?.map l.whole

/-- The level behind a word that ends an operand. -/
def next? (l : ReadLevel) (conjunction : Conjunction) : Option ReadLevel :=
  l.operand.condition?.map fun c =>
    match conjunction with
    | .and => { l with conditions := some (l.alternative c), operand := .missing }
    | .or => { alternatives := some (l.whole c) }

end ReadLevel

/-- The levels, from the innermost. -/
abbrev ReadLevels := ReadLevel × List ReadLevel

/-- Reads a lexeme that does not belong to the current operand. -/
def readDelimiter : ReadLevels → Lexeme → Option ReadLevels
  | (l, outer), .and => (l.next? .and).map fun l => (l, outer)
  | (l, outer), .or => (l.next? .or).map fun l => (l, outer)
  | (⟨alternatives, conditions, .missing⟩, outer), .opening =>
    some ({ }, ⟨alternatives, conditions, .missing⟩ :: outer)
  | (l, parent :: outer), .closing =>
    l.close?.map fun c => ({ parent with operand := .whole c }, outer)
  | _, _ => none

/-- Reads a lexeme. -/
def readLexeme (s : ReadLevels) (x : Lexeme) : Option ReadLevels :=
  match s.1.operand.extend? x with
  | some o => some ({ s.1 with operand := o }, s.2)
  | none => readDelimiter s x

/-- Reads lexemes one after the other. -/
def readLexemes (s : ReadLevels) (xs : List Lexeme) : Option ReadLevels := xs.foldlM readLexeme s

/-- **The condition of lexemes.** -/
def readCondition (xs : List Lexeme) : Option (Condition (List Lexeme)) :=
  match readLexemes ({ }, []) xs with
  | some (l, []) => l.close?
  | _ => none

example : readCondition (Fragment.lexemes [.plain "a OR b BETWEEN 1 AND 2 AND (c OR d IN (3))"]) =
    some (.or (.leaf [.word "a"])
      (.and (.leaf [.word "b", .between, .word "1", .and, .word "2"])
        (.or (.leaf [.word "c"])
          (.leaf [.word "d", .word "IN", .opening, .word "3", .closing])))) := by
  decide +kernel

theorem readLexemes_cons (s : ReadLevels) (x : Lexeme) (xs : List Lexeme) :
    readLexemes s (x :: xs) = (readLexeme s x).bind fun t => readLexemes t xs :=
  List.foldlM_cons

theorem readLexemes_append (s : ReadLevels) (xs ys : List Lexeme) :
    readLexemes s (xs ++ ys) = (readLexemes s xs).bind fun t => readLexemes t ys :=
  List.foldlM_append

theorem readLexemes_of_extend {o o' : ReadOperand} {xs : List Lexeme}
    (h : xs.foldlM ReadOperand.extend? o = some o') (alternatives conditions : Option _)
    (outer : List ReadLevel) :
    readLexemes (⟨alternatives, conditions, o⟩, outer) xs =
      some (⟨alternatives, conditions, o'⟩, outer) := by
  induction xs generalizing o with
  | nil => cases h; rfl
  | cons x xs ih =>
    obtain ⟨o₁, ho, h⟩ := Option.bind_eq_some_iff.mp (List.foldlM_cons.symm.trans h)
    rw [readLexemes_cons, readLexeme, ho]
    exact ih h

/-! ### What is read as an operand, and what as a level -/

/-- Lexemes that are read as an operand with a condition, on every level. -/
def ReadsOperand (xs : List Lexeme) (c : Condition (List Lexeme)) : Prop :=
  ∃ o : ReadOperand, o.condition? = some c ∧ ∀ alternatives conditions outer,
    readLexemes (⟨alternatives, conditions, .missing⟩, outer) xs =
      some (⟨alternatives, conditions, o⟩, outer)

/-- Lexemes that are read as all of a level, whatever the levels around it. -/
def ReadsLevel (xs : List Lexeme) (c : Condition (List Lexeme)) : Prop :=
  ∃ l : ReadLevel, l.close? = some c ∧ ∀ outer, readLexemes ({ }, outer) xs = some (l, outer)

theorem readsOperand_leaf {xs : List Lexeme}
    (h : xs.foldlM ReadOperand.extend? .missing = some (.leaf xs 0 false)) :
    ReadsOperand xs (.leaf xs) :=
  ⟨.leaf xs 0 false, rfl, readLexemes_of_extend h⟩

namespace ReadOperand

variable {o : ReadOperand} {c : Condition (List Lexeme)}

theorem extend_closing (ho : o.condition? = some c) : o.extend? .closing = none := by
  unfold condition? at ho
  split at ho
  · rfl
  · rfl
  · cases ho

theorem extend_lexeme (ho : o.condition? = some c) (conjunction : Conjunction) :
    o.extend? conjunction.lexeme = none := by
  unfold condition? at ho
  split at ho
  · cases conjunction <;> rfl
  · cases conjunction <;> rfl
  · cases ho

end ReadOperand

theorem readLexeme_conjunction {l : ReadLevel} {c : Condition (List Lexeme)}
    (hl : l.operand.condition? = some c) (conjunction : Conjunction) (outer : List ReadLevel) :
    readLexeme (l, outer) conjunction.lexeme = (l.next? conjunction).map fun l => (l, outer) := by
  rw [readLexeme, ReadOperand.extend_lexeme hl]
  cases conjunction <;> rfl

theorem ReadsLevel.inParens {xs : List Lexeme} {c : Condition (List Lexeme)} (h : ReadsLevel xs c) :
    ReadsOperand (.opening :: (xs ++ [.closing])) c := by
  obtain ⟨l, hl, h⟩ := h
  refine ⟨.whole c, rfl, fun alternatives conditions outer => ?_⟩
  show readLexemes ({ }, ⟨alternatives, conditions, .missing⟩ :: outer) (xs ++ [.closing]) = _
  rw [readLexemes_append, h]
  obtain ⟨c', hc, -⟩ := Option.map_eq_some_iff.mp hl
  rw [Option.bind_some, readLexemes_cons, readLexeme, ReadOperand.extend_closing hc]
  simp [readDelimiter, hl, readLexemes]

namespace ReadLevel

/-- A level with some operands behind it, all of them under one conjunction. -/
def behind (conjunction : Conjunction) (before : Option (Condition (List Lexeme)))
    (o : ReadOperand) : ReadLevel :=
  match conjunction with
  | .and => ⟨none, before, o⟩
  | .or => ⟨before, none, o⟩

variable {conjunction : Conjunction} {before : Option (Condition (List Lexeme))} {o : ReadOperand}
  {c : Condition (List Lexeme)}

theorem close_behind (ho : o.condition? = some c) :
    (behind conjunction before o).close? = some (.behind conjunction before c) := by
  cases conjunction <;>
    simp [behind, close?, ho, whole, alternative, Condition.behind]

theorem next_behind (ho : o.condition? = some c) : (behind conjunction before o).next? conjunction =
    some (behind conjunction (some (.behind conjunction before c)) .missing) := by
  cases conjunction <;>
    simp [behind, next?, ho, whole, alternative, Condition.behind]

theorem operand_behind : (behind conjunction before o).operand = o := by cases conjunction <;> rfl

end ReadLevel

/-- **Operands with the same word between each two are a level.** -/
theorem readsLevel_joined (conjunction : Conjunction) {xs : List Lexeme}
    {c : Condition (List Lexeme)} (hx : ReadsOperand xs c) {parts : List (List Lexeme)}
    {cs : List (Condition (List Lexeme))} (hparts : List.Forall₂ ReadsOperand parts cs) :
    ReadsLevel (xs ++ parts.flatMap fun ys => conjunction.lexeme :: ys)
      (.joined conjunction c cs) := by
  -- any operands may stand before the ones that are read
  have run : ∀ before (o : ReadOperand) (c : Condition (List Lexeme)), o.condition? = some c →
      ∃ l : ReadLevel, l.close? = some (.joined conjunction (.behind conjunction before c) cs) ∧
        ∀ outer, readLexemes (.behind conjunction before o, outer)
          (parts.flatMap fun ys => conjunction.lexeme :: ys) = some (l, outer) := by
    induction hparts with
    | nil =>
      intro before o c ho
      exact ⟨_, ReadLevel.close_behind ho, fun outer => rfl⟩
    | @cons ys d parts cs hy _ ih =>
      intro before o c ho
      obtain ⟨o', ho', hy⟩ := hy
      obtain ⟨l, hl, hrun⟩ := ih (some (.behind conjunction before c)) o' d ho'
      refine ⟨l, hl, fun outer => ?_⟩
      have hread : readLexemes (.behind conjunction (some (.behind conjunction before c)) .missing,
          outer) ys =
            some (.behind conjunction (some (.behind conjunction before c)) o', outer) := by
        cases conjunction <;> exact hy _ _ outer
      have hword : (ReadLevel.behind conjunction before o).operand.condition? = some c := by
        rw [ReadLevel.operand_behind, ho]
      rw [List.flatMap_cons, List.cons_append, readLexemes_cons, readLexeme_conjunction hword,
        ReadLevel.next_behind ho, Option.map_some, Option.bind_some, readLexemes_append, hread]
      exact hrun outer
  obtain ⟨o, ho, hx⟩ := hx
  obtain ⟨l, hl, hrun⟩ := run none o c ho
  refine ⟨l, hl, fun outer => ?_⟩
  have hread : readLexemes ({ }, outer) xs = some (.behind conjunction none o, outer) := by
    cases conjunction <;> exact hx none none outer
  rw [readLexemes_append, hread]
  exact hrun outer

theorem ReadsOperand.readsLevel {xs : List Lexeme} {c : Condition (List Lexeme)}
    (h : ReadsOperand xs c) : ReadsLevel xs c := by
  have := readsLevel_joined .and h .nil
  rwa [List.flatMap_nil, List.append_nil] at this

theorem readCondition_of_readsLevel {xs : List Lexeme} {c : Condition (List Lexeme)}
    (h : ReadsLevel xs c) : readCondition xs = some c := by
  obtain ⟨l, hl, h⟩ := h
  rw [readCondition, h]
  exact hl

end TableQuery
