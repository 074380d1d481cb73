import TableQuery.Execution.Cache
import TableQuery.Proofs.Keyed

/-! # What a call through a cache comes to

A call for rows and a call for a number go through the cache in the same way, so both are told here
as one call whose result is kept whatever its kind (`Executor.answer`). A call does one of four
things (`fetched`): it goes past the cache if its query does not ask for one; it is answered by the
live entry of its key if that entry is of its kind; otherwise it reaches the executor behind the
cache, which fails or gives a result that becomes the entry. A look-up drops no entry that is still
live (`CacheState.live_looked`). -/

namespace TableQuery

variable {σ : Type}

/-! ### Calls of either kind -/

/-- The kind of call that a result answers. -/
def Kept.kind : Kept → CallKind
  | .rows _ => .rows
  | .scalar _ => .scalar

/-- The result of a call and the state behind it. -/
def Executor.answer (e : Executor σ) (c : Call) (s : σ) : Except Failure Kept × σ :=
  match c.kind with
  | .rows => let (r, s') := e.rows c.query s; (r.map Kept.rows, s')
  | .scalar => let (r, s') := e.scalar c.query s; (r.map Kept.scalar, s')

/-! ### Look-ups -/

theorem CacheEntry.isLive_mono {entry : CacheEntry} {now later : Nat} (h : now ≤ later)
    (hl : entry.isLive later = true) : entry.isLive now = true := by
  obtain ⟨kept, expires⟩ := entry
  cases expires with
  | none => rfl
  | some limit =>
    simp only [isLive, Option.all_some, decide_eq_true_eq] at hl ⊢
    omega

namespace CacheState

/-- The entry of a key, if it is live at a time. -/
def live (s : CacheState σ) (now : Nat) (key : String) : Option CacheEntry :=
  (Keyed.get? s.entries key).filter fun entry => entry.isLive now

/-- The entries that a look-up leaves: one that is no longer live is dropped. -/
def looked (s : CacheState σ) (now : Nat) (key : String) : Keyed CacheEntry :=
  if (s.live now key).isSome then s.entries else Keyed.erase s.entries key

theorem lookup_eq (s : CacheState σ) (clock : Clock) (key : String) : s.lookup clock key =
    ((s.live (clock s.readings) key).map CacheEntry.kept,
      ⟨s.inner, s.looked (clock s.readings) key, s.readings + 1⟩) := by
  unfold lookup looked live readClock
  cases h : Keyed.get? s.entries key with
  | none => simp [h, Keyed.erase_of_get?_eq_none h]
  | some entry => by_cases hl : entry.isLive (clock s.readings) <;> simp [h, hl, Option.filter]

theorem get?_looked {s : CacheState σ} {now : Nat} {key k : String} {entry : CacheEntry}
    (h : Keyed.get? (s.looked now key) k = some entry) : Keyed.get? s.entries k = some entry := by
  unfold looked at h
  split_ifs at h
  · exact h
  · rw [Keyed.get?_erase] at h
    split_ifs at h
    exact h

/-- **A look-up drops no entry that is live then or later.** -/
theorem live_looked {s : CacheState σ} {now later : Nat} (hle : now ≤ later) (key k : String)
    (inner : σ) (readings : Nat) :
    live ⟨inner, s.looked now key, readings⟩ later k = s.live later k := by
  unfold looked
  split_ifs with hlive
  · rfl
  · simp only [live, Keyed.get?_erase]
    split_ifs with hk
    · subst hk
      -- an entry that is live later would have been live at the look-up
      symm
      refine Option.eq_none_iff_forall_ne_some.mpr fun entry he => hlive ?_
      obtain ⟨hget, hl⟩ := Option.filter_eq_some_iff.mp he
      simp [live, hget, CacheEntry.isLive_mono hle hl]
    · rfl

end CacheState

/-! ### The four outcomes -/

/-- What a call through a cache can come to. -/
inductive Fetched (e : Executor σ) (clock : Clock) (c : Call) (s : CacheState σ) :
    Except Failure Kept → CacheState σ → Prop
  | past (off : c.query.cache.result.enabled = false) :
    Fetched e clock c s (e.answer c s.inner).1 ⟨(e.answer c s.inner).2, s.entries, s.readings⟩
  | hit {entry : CacheEntry} (on : c.query.cache.result.enabled = true)
    (live : s.live (clock s.readings) c.query.cacheKey = some entry)
    (kind : entry.kept.kind = c.kind) :
    Fetched e clock c s (.ok entry.kept) ⟨s.inner, s.entries, s.readings + 1⟩
  | failed {failure : Failure} (on : c.query.cache.result.enabled = true)
    (missed : ∀ entry, s.live (clock s.readings) c.query.cacheKey = some entry →
      entry.kept.kind ≠ c.kind)
    (result : (e.answer c s.inner).1 = .error failure) :
    Fetched e clock c s (.error failure)
      ⟨(e.answer c s.inner).2, s.looked (clock s.readings) c.query.cacheKey, s.readings + 1⟩
  | kept {kept : Kept} (on : c.query.cache.result.enabled = true)
    (missed : ∀ entry, s.live (clock s.readings) c.query.cacheKey = some entry →
      entry.kept.kind ≠ c.kind)
    (result : (e.answer c s.inner).1 = .ok kept) (kind : kept.kind = c.kind) :
    Fetched e clock c s (.ok kept)
      ⟨(e.answer c s.inner).2,
        Keyed.insert c.query.cacheKey
          ⟨kept, c.query.cache.result.lifetime.map fun seconds =>
            clock (s.readings + 1) + seconds * nanosPerSecond⟩
          (s.looked (clock s.readings) c.query.cacheKey), s.readings + 2⟩

/-- A fetch whose values are kept as results of the call's kind, and read back from those only. -/
theorem Fetched.of_fetch {α : Type} {e : Executor σ} {clock : Clock} {c : Call} {s : CacheState σ}
    {read : Kept → Option α} {keep : α → Kept} {run : Run σ α}
    (hkind : ∀ value, (keep value).kind = c.kind)
    (hread : ∀ kept, kept.kind = c.kind → ∃ value, read kept = some value ∧ kept = keep value)
    (hother : ∀ kept, kept.kind ≠ c.kind → read kept = none)
    (hrun : e.answer c s.inner = ((run s.inner).1.map keep, (run s.inner).2)) :
    Fetched e clock c s ((CacheState.fetch clock read keep run c.query s).1.map keep)
      (CacheState.fetch clock read keep run c.query s).2 := by
  unfold CacheState.fetch CacheState.runInner
  rw [CacheState.lookup_eq]
  cases hon : c.query.cache.result.enabled with
  | false =>
    have hpast : Fetched e clock c s _ _ := .past hon
    rw [hrun] at hpast
    exact hpast
  | true =>
    simp only [if_true]
    by_cases hlive : ∃ entry, s.live (clock s.readings) c.query.cacheKey = some entry ∧
        entry.kept.kind = c.kind
    · obtain ⟨entry, hlive, hentry⟩ := hlive
      obtain ⟨value, hvalue, hkept⟩ := hread _ hentry
      have hhit : Fetched e clock c s _ _ := .hit hon hlive hentry
      have hlooked : s.looked (clock s.readings) c.query.cacheKey = s.entries := by
        rw [CacheState.looked, hlive]
        rfl
      simp only [hlive, Option.map_some, Option.bind_some, hvalue, hlooked]
      rw [hkept] at hhit
      exact hhit
    · have hmissed : ∀ entry, s.live (clock s.readings) c.query.cacheKey = some entry →
          entry.kept.kind ≠ c.kind := fun entry he hk => hlive ⟨entry, he, hk⟩
      have hnone : ((s.live (clock s.readings) c.query.cacheKey).map CacheEntry.kept).bind read =
          none := by
        cases he : s.live (clock s.readings) c.query.cacheKey with
        | none => rfl
        | some entry => exact hother _ (hmissed entry he)
      simp only [hnone]
      cases hr : run s.inner with
      | mk result inner =>
        rw [hr] at hrun
        cases result with
        | error failure =>
          have hfailed : Fetched e clock c s (.error failure) _ :=
            .failed hon hmissed (by rw [hrun]; rfl)
          rw [hrun] at hfailed
          exact hfailed
        | ok value =>
          have hkept : Fetched e clock c s _ _ :=
            .kept hon hmissed (by rw [hrun]; rfl) (hkind value)
          rw [hrun] at hkept
          exact hkept

/-- **A call through a cache does one of the four things.** -/
theorem fetched (e : Executor σ) (clock : Clock) (c : Call) (s : CacheState σ) :
    Fetched e clock c s ((e.cached clock).answer c s).1 ((e.cached clock).answer c s).2 := by
  obtain ⟨kind, q⟩ := c
  cases kind with
  | rows =>
    refine Fetched.of_fetch (c := ⟨.rows, q⟩) (fun value => rfl) ?_ ?_ rfl
    · rintro (records | value) h
      · exact ⟨records, rfl, rfl⟩
      · cases h
    · rintro (records | value) h
      · exact absurd rfl h
      · rfl
  | scalar =>
    refine Fetched.of_fetch (c := ⟨.scalar, q⟩) (fun value => rfl) ?_ ?_ rfl
    · rintro (records | value) h
      · cases h
      · exact ⟨value, rfl, rfl⟩
    · rintro (records | value) h
      · rfl
      · exact absurd rfl h

/-- **A call that fails or goes past the cache leaves the live entries as they are**, at the time of
its look-up and at every later reading of the clock. -/
theorem live_of_failed_or_past (e : Executor σ) {clock : Clock}
    (hclock : ∀ i j, i ≤ j → clock i ≤ clock j) {c : Call} {s : CacheState σ}
    (h : c.query.cache.result.enabled = false ∨
      ∃ failure, ((e.cached clock).answer c s).1 = .error failure)
    (key : String) {reading : Nat} (hreading : s.readings ≤ reading) :
    ((e.cached clock).answer c s).2.live (clock reading) key = s.live (clock reading) key := by
  have hf := fetched e clock c s
  generalize ((e.cached clock).answer c s).1 = result at h hf
  generalize ((e.cached clock).answer c s).2 = s' at hf
  cases hf with
  | past off => rfl
  | hit on live kind => rfl
  | failed on missed result => exact CacheState.live_looked (hclock _ _ hreading) _ _ _ _
  | kept on missed result kind =>
    rcases h with off | ⟨failure, hfailure⟩
    · rw [off] at on
      cases on
    · cases hfailure

end TableQuery
