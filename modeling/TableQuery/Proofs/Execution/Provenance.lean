import TableQuery.Proofs.Execution.Fetch
import Mathlib.Order.Monotone.Defs

/-! # Where a kept result comes from

A run of a cache is a sequence of calls and of requests to drop everything, one after the other. Its
events say which calls reached the executor behind the cache and when the clock was read. They are
taken from a run whose executor keeps a journal, which changes no answer
(`Executor.map_answer_events`).

Every entry of the cache was kept by an event of the run so far, and its key was not renewed since
(`Sourced`); one event preserves this (`Sourced.event`), so it holds along every run
(`sourced_events`). A call that is answered without reaching the executor therefore repeats what the
executor gave to an earlier call (`Executor.cached_provenance`). -/

namespace TableQuery

variable {σ : Type}

/-! ### Runs -/

/-- What is asked of an executor with a cache in front: a call, or to drop all entries. -/
inductive CacheCall where
  | fetch (c : Call)
  | clear
deriving DecidableEq, Repr

/-- The answer, which is nothing for dropping the entries, and the state behind it. -/
def Executor.ask (e : Executor σ) (clock : Clock) (s : CacheState σ) :
    CacheCall → Option (Except Failure Kept) × CacheState σ
  | .fetch c => let (result, s') := (e.cached clock).answer c s; (some result, s')
  | .clear => (none, s.clear)

/-- The answers to a sequence of calls. -/
def Executor.answers (e : Executor σ) (clock : Clock) : CacheState σ → List CacheCall →
    List (Option (Except Failure Kept))
  | _, [] => []
  | s, c :: calls => (e.ask clock s c).1 :: e.answers clock (e.ask clock s c).2 calls

/-- A call with its result. -/
structure Answered where
  call : Call
  result : Except Failure Kept

/-- The executor with a journal of its calls and their results. -/
def Executor.journaled (e : Executor σ) : Executor (σ × List Answered) where
  rows := fun q s =>
    let (r, s') := e.rows q s.1
    (r, s', s.2 ++ [⟨⟨.rows, q⟩, r.map Kept.rows⟩])
  scalar := fun q s =>
    let (r, s') := e.scalar q s.1
    (r, s', s.2 ++ [⟨⟨.scalar, q⟩, r.map Kept.scalar⟩])

/-- What one call of a run came to. -/
structure CacheEvent where
  call : CacheCall
  answer : Option (Except Failure Kept)
  /-- The calls that reached the executor behind the cache. -/
  behind : List Answered
  /-- The times at which the clock was read. -/
  times : List Nat

/-- A call with what it came to, and the state behind it. -/
def Executor.event (e : Executor σ) (clock : Clock) (s : CacheState (σ × List Answered))
    (c : CacheCall) : CacheEvent × CacheState (σ × List Answered) :=
  let (answer, s') := e.journaled.ask clock s c
  (⟨c, answer, s'.inner.2.drop s.inner.2.length,
    (List.range' s.readings (s'.readings - s.readings)).map clock⟩, s')

/-- The events of a run. -/
def Executor.events (e : Executor σ) (clock : Clock) : CacheState (σ × List Answered) →
    List CacheCall → List CacheEvent
  | _, [] => []
  | s, c :: calls => (e.event clock s c).1 :: e.events clock (e.event clock s c).2 calls

/-! ### The journal -/

theorem Executor.answer_journaled (e : Executor σ) (c : Call) (s : σ × List Answered) :
    e.journaled.answer c s = ((e.answer c s.1).1, (e.answer c s.1).2,
      s.2 ++ [⟨c, (e.answer c s.1).1⟩]) := by
  obtain ⟨kind, q⟩ := c
  cases kind <;> rfl

theorem Executor.drop_journaled (e : Executor σ) (c : Call) (s : σ × List Answered) :
    (e.journaled.answer c s).2.2.drop s.2.length = [⟨c, (e.journaled.answer c s).1⟩] := by
  simp [answer_journaled]

namespace CacheState

/-- The state without the journal. -/
def plain (s : CacheState (σ × List Answered)) : CacheState σ := ⟨s.inner.1, s.entries, s.readings⟩

variable {s : CacheState (σ × List Answered)}

theorem lookup_plain (clock : Clock) (key : String) : s.plain.lookup clock key =
    ((s.lookup clock key).1, (s.lookup clock key).2.plain) := by
  rw [lookup_eq, lookup_eq]
  rfl

theorem fetch_plain {α : Type} {run : Run σ α} {journaled : Run (σ × List Answered) α}
    (h : ∀ s, (journaled s).1 = (run s.1).1 ∧ (journaled s).2.1 = (run s.1).2) (clock : Clock)
    (read : Kept → Option α) (keep : α → Kept) (q : Compiled) :
    fetch clock read keep run q s.plain = ((fetch clock read keep journaled q s).1,
      (fetch clock read keep journaled q s).2.plain) := by
  have hrun : ∀ t : CacheState (σ × List Answered), t.plain.runInner run =
      ((t.runInner journaled).1, (t.runInner journaled).2.plain) := fun t =>
    Prod.ext (h t.inner).1.symm
      (congrArg (fun inner => (⟨inner, t.entries, t.readings⟩ : CacheState σ)) (h t.inner).2.symm)
  unfold fetch
  split_ifs
  · simp only [lookup_plain]
    cases (s.lookup clock q.cacheKey).1.bind read with
    | some value => rfl
    | none =>
      simp only [hrun]
      cases (s.lookup clock q.cacheKey).2.runInner journaled with
      | mk result t => cases result <;> rfl
  · exact hrun s

end CacheState

theorem Executor.ask_journaled (e : Executor σ) (clock : Clock)
    (s : CacheState (σ × List Answered)) (c : CacheCall) :
    e.ask clock s.plain c =
      ((e.journaled.ask clock s c).1, (e.journaled.ask clock s c).2.plain) := by
  cases c with
  | clear => rfl
  | fetch c =>
    obtain ⟨kind, q⟩ := c
    cases kind with
    | rows =>
      have hfetch : ∀ t, ((e.journaled.rows q) t).1 = ((e.rows q) t.1).1 ∧
        ((e.journaled.rows q) t).2.1 = ((e.rows q) t.1).2 := fun _ => ⟨rfl, rfl⟩
      simp only [ask, answer, cached, CacheState.fetch_plain hfetch]
    | scalar =>
      have hfetch : ∀ t, ((e.journaled.scalar q) t).1 = ((e.scalar q) t.1).1 ∧
        ((e.journaled.scalar q) t).2.1 = ((e.scalar q) t.1).2 := fun _ => ⟨rfl, rfl⟩
      simp only [ask, answer, cached, CacheState.fetch_plain hfetch]

/-- **A journal changes no answer.** -/
theorem Executor.map_answer_events (e : Executor σ) (clock : Clock) (calls : List CacheCall)
    (s : CacheState (σ × List Answered)) :
    (e.events clock s calls).map CacheEvent.answer = e.answers clock s.plain calls := by
  induction calls generalizing s with
  | nil => rfl
  | cons c calls ih =>
    rw [events, answers, List.map_cons, ih, ask_journaled]
    rfl

theorem Executor.map_call_events (e : Executor σ) (clock : Clock) (calls : List CacheCall)
    (s : CacheState (σ × List Answered)) :
    (e.events clock s calls).map CacheEvent.call = calls := by
  induction calls generalizing s with
  | nil => rfl
  | cons c calls ih => rw [events, List.map_cons, ih, event]

theorem Executor.exists_fetched (e : Executor σ) (clock : Clock)
    (s : CacheState (σ × List Answered)) (c : Call) :
    ∃ answer s', Fetched e.journaled clock c s answer s' ∧
      e.event clock s (.fetch c) = (⟨.fetch c, some answer, s'.inner.2.drop s.inner.2.length,
        (List.range' s.readings (s'.readings - s.readings)).map clock⟩, s') :=
  ⟨_, _, fetched e.journaled clock c s, rfl⟩

/-! ### Where an entry comes from -/

namespace CacheEvent

/-- The event kept an entry: its call asked for the cache, reached the executor, which succeeded,
and the result became the entry. -/
structure Keeps (ev : CacheEvent) (c : Call) (entry : CacheEntry) : Prop where
  call : ev.call = .fetch c
  on : c.query.cache.result.enabled = true
  kind : entry.kept.kind = c.kind
  behind : ev.behind = [⟨c, .ok entry.kept⟩]
  expires : ∃ looked stored, ev.times = [looked, stored] ∧
    entry.expires =
      c.query.cache.result.lifetime.map fun seconds => stored + seconds * nanosPerSecond

/-- An entry that is live at a time was kept less than its lifetime ago. -/
theorem Keeps.exists_times {ev : CacheEvent} {c : Call} {entry : CacheEntry}
    (h : ev.Keeps c entry) {now : Nat} (hlive : entry.isLive now = true) :
    ∃ looked stored, ev.times = [looked, stored] ∧
      ∀ seconds ∈ c.query.cache.result.lifetime, now < stored + seconds * nanosPerSecond := by
  obtain ⟨looked, stored, htimes, hexpires⟩ := h.expires
  refine ⟨looked, stored, htimes, fun seconds hseconds => ?_⟩
  rw [CacheEntry.isLive, hexpires, hseconds, Option.map_some, Option.all_some] at hlive
  exact of_decide_eq_true hlive

/-- The event dropped the entries, or kept a result under a key. -/
def Renews (ev : CacheEvent) (key : String) : Prop :=
  ev.call = .clear ∨ ∃ c kept, ev.call = .fetch c ∧ c.query.cache.result.enabled = true ∧
    c.query.cacheKey = key ∧ ev.behind = [⟨c, .ok kept⟩]

end CacheEvent

/-- An event kept the entry of a key, and the key was not renewed since. -/
def SourcedAt (past : List CacheEvent) (key : String) (entry : CacheEntry) : Prop :=
  ∃ earlier source between c, past = earlier ++ source :: between ∧ source.Keeps c entry ∧
    c.query.cacheKey = key ∧ ∀ ev ∈ between, ¬ ev.Renews key

theorem SourcedAt.concat {past : List CacheEvent} {key : String} {entry : CacheEntry}
    {ev : CacheEvent} (h : SourcedAt past key entry) (hev : ¬ ev.Renews key) :
    SourcedAt (past ++ [ev]) key entry := by
  obtain ⟨earlier, source, between, c, rfl, hkeeps, hkey, hbetween⟩ := h
  refine ⟨earlier, source, between ++ [ev], c, by simp, hkeeps, hkey, fun ev' hev' => ?_⟩
  rcases List.mem_append.mp hev' with hev' | hev'
  · exact hbetween ev' hev'
  · rwa [List.mem_singleton.mp hev']

/-- Every entry was kept by an event, and its key was not renewed since. -/
def Sourced (past : List CacheEvent) (entries : Keyed CacheEntry) : Prop :=
  ∀ key entry, Keyed.get? entries key = some entry → SourcedAt past key entry

/-- **One event.** -/
theorem Sourced.event {e : Executor σ} {clock : Clock} {s : CacheState (σ × List Answered)}
    {past : List CacheEvent} (h : Sourced past s.entries) (c : CacheCall) :
    Sourced (past ++ [(e.event clock s c).1]) (e.event clock s c).2.entries := by
  cases c with
  | clear =>
    intro key entry hget
    cases hget
  | fetch c =>
    obtain ⟨answer, s', hf, hev⟩ := e.exists_fetched clock s c
    rw [hev]
    intro key entry hget
    cases hf with
    | past off =>
      refine (h key entry hget).concat ?_
      rintro (hc | ⟨c', kept, hc, hon, -, -⟩)
      · cases hc
      · cases hc
        rw [off] at hon
        cases hon
    | hit on live kind =>
      refine (h key entry hget).concat ?_
      rintro (hc | ⟨c', kept, hc, -, -, hbehind⟩)
      · cases hc
      · simp at hbehind
    | failed on missed result =>
      refine (h key entry (CacheState.get?_looked hget)).concat ?_
      rintro (hc | ⟨c', kept, hc, -, -, hbehind⟩)
      · cases hc
      · rw [Executor.drop_journaled, result] at hbehind
        cases hbehind
    | @kept kept on missed result kind =>
      have hbehind := e.drop_journaled c s.inner
      rw [result] at hbehind
      have htimes : (List.range' s.readings (s.readings + 2 - s.readings)).map clock =
          [clock s.readings, clock (s.readings + 1)] := by simp [List.range'_succ]
      rw [Keyed.get?_insert] at hget
      split_ifs at hget with hkey
      · cases hget
        exact ⟨past, _, [], c, rfl, ⟨rfl, on, kind, hbehind, _, _, htimes, rfl⟩, hkey.symm,
          List.forall_mem_nil _⟩
      · refine (h key entry (CacheState.get?_looked hget)).concat ?_
        rintro (hc | ⟨c', kept', hc, -, hkey', -⟩)
        · cases hc
        · cases hc
          exact hkey hkey'.symm

/-- **A whole run**: every event of a run is the event of a state whose entries were all kept by
earlier events. -/
theorem sourced_events {e : Executor σ} {clock : Clock} {calls : List CacheCall}
    {s : CacheState (σ × List Answered)} {past before after : List CacheEvent} {ev : CacheEvent}
    (h : Sourced past s.entries) (hsplit : e.events clock s calls = before ++ ev :: after) :
    ∃ s' c, Sourced (past ++ before) s'.entries ∧ ev = (e.event clock s' c).1 := by
  induction calls generalizing s past before with
  | nil => simp [Executor.events] at hsplit
  | cons c calls ih =>
    rw [Executor.events] at hsplit
    cases before with
    | nil =>
      obtain ⟨hev, -⟩ := List.cons.inj hsplit
      exact ⟨s, c, by simpa using h, hev.symm⟩
    | cons first before =>
      obtain ⟨hfirst, hrest⟩ := List.cons.inj hsplit
      obtain ⟨s', c', hs', hev⟩ := ih (h.event c) hrest
      exact ⟨s', c', by simpa [hfirst] using hs', hev⟩

/-! ### Answers from the cache -/

/-- **A call that does not reach the executor repeats a kept result.** -/
theorem exists_keeps {e : Executor σ} {clock : Clock} {s : CacheState (σ × List Answered)}
    {past : List CacheEvent} {c : CacheCall} {asked : Call} (h : Sourced past s.entries)
    (hcall : (e.event clock s c).1.call = .fetch asked)
    (hbehind : (e.event clock s c).1.behind = []) :
    ∃ entry now, asked.query.cache.result.enabled = true ∧ entry.kept.kind = asked.kind ∧
      (e.event clock s c).1.answer = some (.ok entry.kept) ∧
      (e.event clock s c).1.times = [now] ∧ entry.isLive now = true ∧
      SourcedAt past asked.query.cacheKey entry := by
  cases c with
  | clear => cases hcall
  | fetch c =>
    obtain ⟨answer, s', hf, hev⟩ := e.exists_fetched clock s c
    rw [hev] at hcall hbehind ⊢
    cases hcall
    cases hf with
    | past off => cases (e.drop_journaled asked s.inner).symm.trans hbehind
    | @hit entry on live kind =>
      obtain ⟨hget, hlive⟩ := Option.filter_eq_some_iff.mp live
      exact ⟨entry, clock s.readings, on, kind, rfl, by simp, hlive, h _ _ hget⟩
    | failed on missed result => cases (e.drop_journaled asked s.inner).symm.trans hbehind
    | kept on missed result kind => cases (e.drop_journaled asked s.inner).symm.trans hbehind

/-- **Where an answer of the cache comes from.** Take any sequence of calls and of requests to drop
everything, over any executor and any clock that does not go back.

- The events answer as the cache does, with or without the journal, and one event belongs to each
  call.
- A call that is answered without reaching the executor is answered with the value that the executor
  gave to an earlier call of the same kind and key. Both calls ask for the cache; in between,
  nothing was dropped and no other result was kept under the key. If the earlier query sets a
  lifetime, the answer is given strictly before the time of keeping plus this lifetime.
- From whatever state, a call that fails or goes past the cache leaves the live entry of every key
  as it is, at the time of the call and later. -/
theorem Executor.cached_provenance (e : Executor σ) {clock : Clock} (hclock : Monotone clock)
    (inner : σ) (calls : List CacheCall) :
    ((e.events clock ⟨(inner, []), [], 0⟩ calls).map CacheEvent.answer =
        e.answers clock ⟨inner, [], 0⟩ calls ∧
      (e.events clock ⟨(inner, []), [], 0⟩ calls).map CacheEvent.call = calls) ∧
    (∀ before hit after c,
      e.events clock ⟨(inner, []), [], 0⟩ calls = before ++ hit :: after → hit.call = .fetch c →
      hit.behind = [] →
      ∃ earlier source between c' value, before = earlier ++ source :: between ∧
        source.call = .fetch c' ∧ c'.kind = c.kind ∧ c'.query.cacheKey = c.query.cacheKey ∧
        c'.query.cache.result.enabled = true ∧ c.query.cache.result.enabled = true ∧
        source.behind = [⟨c', .ok value⟩] ∧ hit.answer = some (.ok value) ∧
        (∀ ev ∈ between, ¬ ev.Renews c.query.cacheKey) ∧
        ∃ looked stored now, source.times = [looked, stored] ∧ hit.times = [now] ∧
          ∀ seconds ∈ c'.query.cache.result.lifetime, now < stored + seconds * nanosPerSecond) ∧
    ∀ (s : CacheState σ) c, (c.query.cache.result.enabled = false ∨
        ∃ failure, ((e.cached clock).answer c s).1 = .error failure) →
      ∀ key reading, s.readings ≤ reading →
        ((e.cached clock).answer c s).2.live (clock reading) key = s.live (clock reading) key := by
  refine ⟨⟨e.map_answer_events clock calls _, ?_⟩, ?_, ?_⟩
  · exact e.map_call_events clock calls _
  · intro before hit after c hsplit hcall hbehind
    have hempty : Sourced [] [] := fun key entry hget => by cases hget
    obtain ⟨s, asked, hs, rfl⟩ := sourced_events hempty hsplit
    obtain ⟨entry, now, hon, hkind, hanswer, hnow, hlive, hsourced⟩ :=
      exists_keeps hs hcall hbehind
    obtain ⟨earlier, source, between, c', hpast, hkeeps, hkey, hbetween⟩ := hsourced
    obtain ⟨looked, stored, htimes, hlifetime⟩ := hkeeps.exists_times hlive
    exact ⟨earlier, source, between, c', entry.kept, hpast, hkeeps.call,
      hkeeps.kind.symm.trans hkind, hkey, hkeeps.on, hon, hkeeps.behind, hanswer, hbetween, looked,
      stored, now, htimes, hnow, hlifetime⟩
  · intro s c h key reading hreading
    exact live_of_failed_or_past e hclock h key hreading

/-- A clock that is read once a second. -/
def secondsClock : Clock := fun reading => reading * nanosPerSecond

/-- A query whose results are kept for a minute under the key of the numbers of posts. -/
def minuteQuery (sql : String) : Compiled := ⟨sql, [], ⟨false, ⟨true, some 60, some "posts"⟩⟩⟩

/-- The rows of the key give way to a number, which answers another query of the key. -/
theorem Executor.cached_provenance_minute : Monotone secondsClock ∧
    ∃ before hit, Script.executor.events secondsClock ⟨(⟨[.ok []], [.ok 3], []⟩, []), [], 0⟩
        [.fetch ⟨.rows, minuteQuery "SELECT 1"⟩, .fetch ⟨.scalar, minuteQuery "SELECT 2"⟩,
          .fetch ⟨.scalar, minuteQuery "SELECT 3"⟩] = before ++ [hit] ∧
      hit.behind = [] ∧
      ∃ earlier source between c' value, before = earlier ++ source :: between ∧
        source.call = .fetch c' ∧ c'.kind = .scalar ∧ c'.query.cacheKey = "posts" ∧
        source.behind = [⟨c', .ok value⟩] ∧ hit.answer = some (.ok value) := by
  have hmono : Monotone secondsClock := fun i j h => Nat.mul_le_mul_right _ h
  refine ⟨hmono, [_, _], _, rfl, rfl, ?_⟩
  obtain ⟨earlier, source, between, c', value, hbefore, hcall, hkind, hkey, -, -, hbehind, hanswer,
    -⟩ := (Script.executor.cached_provenance hmono ⟨[.ok []], [.ok 3], []⟩
      [.fetch ⟨.rows, minuteQuery "SELECT 1"⟩, .fetch ⟨.scalar, minuteQuery "SELECT 2"⟩,
        .fetch ⟨.scalar, minuteQuery "SELECT 3"⟩]).2.1 [_, _] _ [] _ rfl rfl rfl
  exact ⟨earlier, source, between, c', value, hbefore, hcall, hkind, hkey, hbehind, hanswer⟩

end TableQuery
