import TableQuery.Plan.Compiled

/-! # Running queries

An executor runs compiled queries against a state: it gives rows or a single number, or fails. A
script is an executor that answers from two queues and keeps a record of its calls. -/

namespace TableQuery

/-- A computation that changes a state and may fail. -/
abbrev Run (σ α : Type) := ExceptT Failure (StateM σ) α

/-- What runs queries. -/
structure Executor (σ : Type) where
  /-- All rows, each value under its label. -/
  rows : Compiled → Run σ (List Record)
  scalar : Compiled → Run σ Int

/-- Runs a count in the way it was compiled for. A number below zero counts as zero. -/
def Executor.count {σ : Type} (e : Executor σ) (c : CompiledCount) : Run σ Nat :=
  match c.strategy with
  | .scalar => do
    let n ← e.scalar c.query
    pure n.toNat
  | .materializedRows => do
    let rows ← e.rows c.query
    pure rows.length

/-! ### Scripts -/

/-- What is asked of an executor. -/
inductive CallKind where
  | rows
  | scalar
deriving DecidableEq, Repr

/-- A call of an executor. -/
structure Call where
  kind : CallKind
  query : Compiled
deriving DecidableEq, Repr

/-- The answers that are left, and the calls so far. -/
structure Script where
  /-- The answers to calls for rows; a text is a failure. -/
  rows : List (Except String (List Record))
  /-- The answers to calls for numbers; a text is a failure. -/
  scalars : List (Except String Int)
  calls : List Call := []

namespace Script

/-- The answer at the front of a queue; an empty queue fails. -/
def answer {α : Type} (queue : List (Except String α)) (empty : String) : Except Failure α :=
  match queue with
  | [] => .error (.execution empty)
  | .ok value :: _ => .ok value
  | .error text :: _ => .error (.execution text)

/-- The next rows. -/
def nextRows (q : Compiled) (s : Script) : Except Failure (List Record) × Script :=
  (answer s.rows "no rows left", ⟨s.rows.tail, s.scalars, s.calls ++ [⟨.rows, q⟩]⟩)

/-- The next number. -/
def nextScalar (q : Compiled) (s : Script) : Except Failure Int × Script :=
  (answer s.scalars "no scalars left", ⟨s.rows, s.scalars.tail, s.calls ++ [⟨.scalar, q⟩]⟩)

/-- The executor that follows its script. -/
def executor : Executor Script := ⟨nextRows, nextScalar⟩

end Script

end TableQuery
