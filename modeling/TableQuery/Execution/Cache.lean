import TableQuery.Execution.Executor

/-! # Keeping results

A cache in front of an executor keeps the results of queries that ask for it, under their keys. An
entry is live until its lifetime is over; a result of the other kind under the same key is no
answer, and the next result takes its place. Failures are not kept. Time is read from a clock, once
before a look-up and once before an entry is kept. -/

namespace TableQuery

/-- A kept result. -/
inductive Kept where
  | rows (rows : List Record)
  | scalar (value : Int)

/-- The rows of a result. -/
def Kept.rows? : Kept → Option (List Record)
  | .rows records => some records
  | .scalar _ => none

/-- The number of a result. -/
def Kept.scalar? : Kept → Option Int
  | .rows _ => none
  | .scalar value => some value

/-- An entry of the cache. -/
structure CacheEntry where
  kept : Kept
  /-- The time at which the entry is no longer live. -/
  expires : Option Nat

/-- Whether an entry is live at a time. -/
def CacheEntry.isLive (e : CacheEntry) (now : Nat) : Bool := e.expires.all fun at_ => now < at_

/-- The time of each reading of a clock, in nanoseconds. -/
abbrev Clock := Nat → Nat

/-- The nanoseconds of a second. -/
def nanosPerSecond : Nat := 1000000000

/-- The state of a cache. -/
structure CacheState (σ : Type) where
  /-- The state of the executor behind the cache. -/
  inner : σ
  entries : Keyed CacheEntry := []
  readings : Nat := 0

namespace CacheState

variable {σ : Type}

/-- The time, and the state after the clock was read. -/
def readClock (clock : Clock) (s : CacheState σ) : Nat × CacheState σ :=
  (clock s.readings, { s with readings := s.readings + 1 })

/-- The live entry of a key. An entry that is no longer live is dropped. -/
def lookup (clock : Clock) (key : String) (s : CacheState σ) : Option Kept × CacheState σ :=
  let (now, s) := s.readClock clock
  match Keyed.get? s.entries key with
  | some e =>
    if e.isLive now then (some e.kept, s)
    else (none, { s with entries := Keyed.erase s.entries key })
  | none => (none, s)

/-- Keeps a result of a query. Its lifetime has to end at a time that the clock can show: the clock
of a program counts less than `2 ^ 63` seconds, and an end beyond them is fatal there. -/
def store (clock : Clock) (q : Compiled) (kept : Kept) (s : CacheState σ) : CacheState σ :=
  let (now, s) := s.readClock clock
  let expires := q.cache.result.lifetime.map fun seconds => now + seconds * nanosPerSecond
  { s with entries := Keyed.insert q.cacheKey ⟨kept, expires⟩ s.entries }

/-- Drops all entries. -/
def clear (s : CacheState σ) : CacheState σ := { s with entries := [] }

/-- Runs a query behind the cache. -/
def runInner {α : Type} (run : Run σ α) (s : CacheState σ) : Except Failure α × CacheState σ :=
  let (result, inner) := run s.inner
  (result, { s with inner := inner })

/-- Answers from the cache, or runs the query and keeps its result. -/
def fetch {α : Type} (clock : Clock) (read : Kept → Option α) (keep : α → Kept) (run : Run σ α)
    (q : Compiled) (s : CacheState σ) : Except Failure α × CacheState σ :=
  if q.cache.result.enabled then
    let (found, s) := s.lookup clock q.cacheKey
    match found.bind read with
    | some value => (.ok value, s)
    | none =>
      match s.runInner run with
      | (.ok value, s) => (.ok value, s.store clock q (keep value))
      | (.error e, s) => (.error e, s)
  else s.runInner run

end CacheState

/-- The executor with a cache in front. -/
def Executor.cached {σ : Type} (e : Executor σ) (clock : Clock) : Executor (CacheState σ) :=
  ⟨fun q => CacheState.fetch clock Kept.rows? Kept.rows (e.rows q) q,
    fun q => CacheState.fetch clock Kept.scalar? Kept.scalar (e.scalar q) q⟩

end TableQuery
