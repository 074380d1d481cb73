import TableQuery.Proofs.Execution.Fetch
import TableQuery.Proofs.Hydration.Nested
import TableQuery.Proofs.Plan.Calls

/-! # A cache that changes no response

An executor whose answers depend on nothing but the SQL text and the printed values answers the
requests for the tables of a catalog in the same way with a cache in front, as long as the settings
keep the keys of different queries apart (`Catalog.responses_cached`).

What is carried along a run is that every entry is what the executor answers to some call under its
key (`Catalog.Holds`). One call keeps this and has the answer of the executor alone
(`Catalog.KeysApart.alike_cached`); the calls of a page follow each other, so a page has the same
property (`Alike.fetchPage`), and so has a run of requests (`Catalog.responses_eq`).

The settings are needed. A page that is kept under a given key answers the requests for all other
pages of its table (`Catalog.responses_cached_ne`). -/

namespace TableQuery

variable {σ τ α β : Type}

/-! ### Requests in a row -/

/-- What a client asks of the tables of a catalog. -/
inductive Ask where
  | request (name : String) (request : Request)
  | text (name body : String)

namespace Catalog

/-- The response to a client. -/
def respond (c : Catalog) (e : Executor σ) : Ask → Run σ Reply
  | .request name request => c.handle e name request
  | .text name body => c.handleText e name body

/-- The responses to clients who ask one after the other. After an overflow no one is there to
answer. -/
def responses (c : Catalog) (e : Executor σ) : σ → List Ask → List (Except Failure Reply)
  | _, [] => []
  | s, ask :: asks =>
    match c.respond e ask s with
    | (.ok .overflow, _) => [.ok .overflow]
    | (response, s') => response :: c.responses e s' asks

end Catalog

/-! ### Computations with the same result -/

theorem Run.bind_apply (x : Run σ α) (f : α → Run σ β) (s : σ) : (x >>= f) s =
    match x s with
    | (.ok a, s') => f a s'
    | (.error failure, s') => (.error failure, s') := by
  show (ExceptT.bindCont f (x s).1) (x s).2 = _
  obtain ⟨result, s'⟩ := x s
  cases result <;> rfl

/-! ### Steps of a page -/

/-- The number that a result stands for: how many rows there are, or the number itself, where one
below zero counts as zero. -/
def Kept.number : Kept → Nat
  | .rows records => records.length
  | .scalar value => value.toNat

/-- The rows of a result. -/
def Kept.records : Kept → List Record
  | .rows records => records
  | .scalar _ => []

theorem Executor.rows_eq_answer (e : Executor σ) (q : Compiled) : e.rows q =
    fun s => ((e.answer ⟨.rows, q⟩ s).1.map Kept.records, (e.answer ⟨.rows, q⟩ s).2) := by
  funext s
  show e.rows q s = (((e.rows q s).1.map Kept.rows).map Kept.records, (e.rows q s).2)
  obtain ⟨result, s'⟩ := e.rows q s
  cases result <;> rfl

theorem Executor.count_eq_answer (e : Executor σ) (c : CompiledCount) : e.count c =
    fun s => ((e.answer c.call s).1.map Kept.number, (e.answer c.call s).2) := by
  funext s
  obtain ⟨q, strategy⟩ := c
  cases strategy with
  | scalar =>
    show (e.scalar q >>= fun n => pure n.toNat : Run σ Nat) s =
      (((e.scalar q s).1.map Kept.scalar).map Kept.number, (e.scalar q s).2)
    rw [Run.bind_apply]
    obtain ⟨result, s'⟩ := e.scalar q s
    cases result <;> rfl
  | materializedRows =>
    show (e.rows q >>= fun rows => pure rows.length : Run σ Nat) s =
      (((e.rows q s).1.map Kept.rows).map Kept.number, (e.rows q s).2)
    rw [Run.bind_apply]
    obtain ⟨result, s'⟩ := e.rows q s
    cases result <;> rfl

theorem Executor.fetchPage_of_error (e : Executor σ) {p : Planned} {failure : Failure}
    (h : p.queries = .error failure) : e.fetchPage p = fun s => (.error failure, s) := by
  unfold fetchPage
  rw [h]
  rfl

theorem Executor.fetchPage_of_ok (e : Executor σ) {p : Planned} {queries : PageQueries}
    (h : p.queries = .ok queries) : e.fetchPage p = (do
      let rows ← e.rows queries.page
      if p.plan.hasTree then
        let total ← e.count queries.total
        let filtered ← e.count queries.filtered
        pure (.page ⟨p.request.draw.getD 0, total, filtered, p.plan.hydrate rows⟩)
      else pure .overflow) := by
  unfold fetchPage
  rw [h]
  rfl

/-- Two computations have the same result, from any state of the second and any state of the first
with a property, which the first keeps. -/
def Alike (P : σ → Prop) (x : σ → Except Failure α × σ) (y : τ → Except Failure α × τ) : Prop :=
  ∀ s t, P s → (x s).1 = (y t).1 ∧ P (x s).2

namespace Alike

variable {P : σ → Prop} {e₁ : Executor σ} {e₂ : Executor τ}

theorem result (r : Except Failure α) : Alike P (fun s : σ => (r, s)) fun t : τ => (r, t) :=
  fun _ _ hs => ⟨rfl, hs⟩

theorem bind {x : Run σ α} {y : Run τ α} {f : α → Run σ β} {g : α → Run τ β} (hx : Alike P x y)
    (hf : ∀ a, Alike P (f a) (g a)) : Alike P (x >>= f) (y >>= g) := by
  intro s t hs
  obtain ⟨hr, hs'⟩ := hx s t hs
  rw [Run.bind_apply, Run.bind_apply]
  cases hx : x s with | mk result s'
  cases hy : y t with | mk result' t'
  rw [hx, hy] at hr
  rw [hx] at hs'
  obtain rfl : result = result' := hr
  cases result with
  | error failure => exact ⟨rfl, hs'⟩
  | ok a => exact hf a s' t' hs'

theorem map {x : σ → Except Failure α × σ} {y : τ → Except Failure α × τ} (h : Alike P x y)
    (f : α → β) :
    Alike P (fun s => ((x s).1.map f, (x s).2)) fun t => ((y t).1.map f, (y t).2) :=
  fun s t hs => ⟨congrArg (Except.map f) (h s t hs).1, (h s t hs).2⟩

theorem rows {q : Compiled} (h : Alike P (e₁.answer ⟨.rows, q⟩) (e₂.answer ⟨.rows, q⟩)) :
    Alike P (e₁.rows q) (e₂.rows q) := by
  rw [e₁.rows_eq_answer, e₂.rows_eq_answer]
  exact h.map Kept.records

theorem count {c : CompiledCount} (h : Alike P (e₁.answer c.call) (e₂.answer c.call)) :
    Alike P (e₁.count c) (e₂.count c) := by
  rw [e₁.count_eq_answer, e₂.count_eq_answer]
  exact h.map Kept.number

/-- **A page is alike if its calls are.** -/
theorem fetchPage {p : Planned} (h : ∀ queries, p.queries = .ok queries →
    ∀ call ∈ queries.calls, Alike P (e₁.answer call) (e₂.answer call)) :
    Alike P (e₁.fetchPage p) (e₂.fetchPage p) := by
  cases hq : p.queries with
  | error failure =>
    rw [e₁.fetchPage_of_error hq, e₂.fetchPage_of_error hq]
    exact result (.error failure)
  | ok queries =>
    have hcalls := h queries hq
    simp only [PageQueries.calls, List.forall_mem_cons] at hcalls
    obtain ⟨hpage, htotal, hfiltered, -⟩ := hcalls
    rw [e₁.fetchPage_of_ok hq, e₂.fetchPage_of_ok hq]
    refine bind (rows hpage) fun records => ?_
    cases p.plan.hasTree with
    | true =>
      exact bind (count htotal) fun total => bind (count hfiltered) fun filtered => result (.ok _)
    | false => exact result (.ok Reply.overflow)

/-- **A response is alike if the calls of all requests are.** -/
theorem respond {c : Catalog} (h : ∀ call, c.Makes call → Alike P (e₁.answer call) (e₂.answer call))
    (ask : Ask) : Alike P (c.respond e₁ ask) (c.respond e₂ ask) := by
  have hhandle : ∀ name request, Alike P (c.handle e₁ name request) (c.handle e₂ name request) := by
    intro name request
    unfold Catalog.handle
    cases hp : c.plan name request with
    | error failure => exact result (.error failure)
    | ok p =>
      exact fetchPage fun queries hq call hcall => h call ⟨name, request, p, queries, hp, hq, hcall⟩
  cases ask with
  | request name request => exact hhandle name request
  | text name body =>
    show Alike P (c.handleText e₁ name body) (c.handleText e₂ name body)
    unfold Catalog.handleText
    cases Request.ofText body with
    | error fault => exact result (.error (.decoding fault))
    | ok request => exact hhandle name request

end Alike

/-- **A run of requests**: responses that are alike one by one are the same. -/
theorem Catalog.responses_eq {P : σ → Prop} {c : Catalog} {e₁ : Executor σ} {e₂ : Executor τ}
    (h : ∀ call, c.Makes call → Alike P (e₁.answer call) (e₂.answer call)) :
    ∀ {s : σ} {t : τ} {asks : List Ask}, P s → c.responses e₁ s asks = c.responses e₂ t asks
  | s, t, [], _ => rfl
  | s, t, ask :: asks, hs => by
    obtain ⟨hr, hs'⟩ := Alike.respond h ask s t hs
    unfold responses
    generalize c.respond e₁ ask s = x at hr hs'
    generalize c.respond e₂ ask t = y at hr
    obtain ⟨response, s'⟩ := x
    obtain ⟨response', t'⟩ := y
    obtain rfl : response = response' := hr
    rcases response with failure | page | -
    · exact congrArg _ (responses_eq h hs')
    · exact congrArg _ (responses_eq h hs')
    · rfl

/-! ### Calls through a cache -/

/-- The answers depend on nothing but the SQL text and the printed values. -/
def Executor.IsFixed (e : Executor σ) : Prop :=
  ∀ a b : Call, a.kind = b.kind → a.query.sql = b.query.sql → a.query.shown = b.query.shown →
    ∀ s t, (e.answer a s).1 = (e.answer b t).1

namespace Catalog

variable {c : Catalog} {e : Executor σ}

/-- Every entry of the cache is what the executor answers to a call under its key. -/
def Holds (c : Catalog) (e : Executor σ) (s : CacheState σ) : Prop :=
  ∀ key entry, Keyed.get? s.entries key = some entry → ∃ a, c.Makes a ∧
    a.query.cache.result.enabled = true ∧ a.query.cacheKey = key ∧ a.kind = entry.kept.kind ∧
    ∀ t, (e.answer a t).1 = .ok entry.kept

/-- **One call** through the cache has the answer of the executor alone, and the entries stay what
the executor answers. -/
theorem KeysApart.alike_cached (hc : c.KeysApart) (he : e.IsFixed) (clock : Clock) {a : Call}
    (ha : c.Makes a) : Alike (c.Holds e) ((e.cached clock).answer a) (e.answer a) := by
  intro s t hs
  have hfixed : ∀ u, (e.answer a u).1 = (e.answer a t).1 := fun u => he a a rfl rfl rfl u t
  have hf := fetched e clock a s
  generalize ((e.cached clock).answer a s).1 = r at hf
  generalize ((e.cached clock).answer a s).2 = s' at hf
  cases hf with
  | past off => exact ⟨hfixed _, hs⟩
  | @hit entry on live kind =>
    obtain ⟨hget, -⟩ := Option.filter_eq_some_iff.mp live
    -- the entry was stored for a call with this key, so for one with the same answer
    obtain ⟨b, hb, hon, hkey, hkind, hanswer⟩ := hs _ _ hget
    obtain ⟨hsql, hshown⟩ := hc.query_eq hb ha hon on hkey
    exact ⟨(hanswer t).symm.trans (he b a (hkind.trans kind) hsql hshown t t), hs⟩
  | failed on missed result =>
    exact ⟨result.symm.trans (hfixed _), fun key entry h => hs _ _ (CacheState.get?_looked h)⟩
  | @kept kept on missed result kind =>
    refine ⟨result.symm.trans (hfixed _), fun key entry h => ?_⟩
    rw [Keyed.get?_insert] at h
    split_ifs at h with hkey
    · cases h
      exact ⟨a, ha, on, hkey.symm, kind.symm, fun u => (he a a rfl rfl rfl u _).trans result⟩
    · exact hs _ _ (CacheState.get?_looked h)

/-- **A cache changes no response**: over an executor whose answers depend on nothing but the SQL
text and the printed values, the requests for the tables of a catalog are answered one after the
other as the executor alone answers them. The settings of the tables give no key to kept pages and
no key to two kept counts. It does not matter whether entries expire. -/
theorem responses_cached (hc : c.KeysApart) (he : e.IsFixed) (clock : Clock) (s t : σ)
    (asks : List Ask) : c.responses (e.cached clock) ⟨s, [], 0⟩ asks = c.responses e t asks := by
  refine responses_eq (P := c.Holds e) (fun call hcall => hc.alike_cached he clock hcall) ?_
  intro key entry h
  cases h

/-! ### Posts behind a cache -/

/-- An executor that finds one post, whose identifier is the SQL text. -/
def echo : Executor Unit :=
  ⟨fun q s => (.ok [[("post__id", .str q.sql)]], s), fun _ s => (.ok 1, s)⟩

theorem isFixed_echo : echo.IsFixed := by
  rintro ⟨kind, a⟩ ⟨kind', b⟩ hkind hsql - s t
  obtain rfl : kind = kind' := hkind
  cases kind with
  | rows => exact congrArg (fun sql => Except.ok (Kept.rows [[("post__id", Json.str sql)]])) hsql
  | scalar => rfl

/-- Posts under two names. Pages and counts are kept without end. -/
def keptPosts (pageKey : Option String) : Catalog :=
  let named := fun (name countKey : String) =>
    { name := name
      registry :=
        { schema := [("Post", { name := "Post", table := "posts", identifiers := ["id"] })]
          entity := "Post"
          columns := [Plan.fieldColumn 0 ⟨[], "title", none⟩]
          names := [] }
      settings :=
        { cache := ⟨false, false, ⟨true, none, pageKey⟩, ⟨true, none, some countKey⟩⟩ } }
  (({ defaults := { } } : Catalog).insert (named "posts" "posts_total")).insert
    (named "drafts" "drafts_total")

/-- A request for a page of one post. -/
def pageOf (name : String) (start : Int) : Ask :=
  .request name { start := some start, length := some 1 }

/-- The identifiers of the records of a response. -/
def servedIds : Except Failure Reply → List String
  | .ok (.page page) => page.data.filterMap fun record => Record.text? record "id"
  | _ => []

theorem keysApart_keptPosts : (keptPosts none).KeysApart :=
  ⟨by decide +kernel, by decide +kernel, by decide +kernel⟩

/-- Requests for pages of two tables, one of which is asked for again. -/
def postAsks : List Ask := [pageOf "posts" 0, pageOf "posts" 1, pageOf "drafts" 0, pageOf "posts" 1]

/-- The second request is answered from the executor and the last one from the cache. -/
theorem responses_cached_posts :
    (keptPosts none).KeysApart ∧ echo.IsFixed ∧
    (keptPosts none).responses (echo.cached fun _ => 0) ⟨(), [], 0⟩ postAsks =
      (keptPosts none).responses echo () postAsks ∧
    (((keptPosts none).responses echo () postAsks).map servedIds)[0]? ≠
      (((keptPosts none).responses echo () postAsks).map servedIds)[1]? :=
  ⟨keysApart_keptPosts, isFixed_echo, responses_cached keysApart_keptPosts isFixed_echo _ _ _ _,
    by decide +kernel⟩

/-- Pages that are kept under a key of the table: the second page is answered with the first. -/
theorem responses_cached_ne : echo.IsFixed ∧
    (keptPosts (some "posts")).responses (echo.cached fun _ => 0) ⟨(), [], 0⟩
        [pageOf "posts" 0, pageOf "posts" 1] ≠
      (keptPosts (some "posts")).responses echo () [pageOf "posts" 0, pageOf "posts" 1] := by
  refine ⟨isFixed_echo, fun h => ?_⟩
  have hids :
      ((keptPosts (some "posts")).responses (echo.cached fun _ => 0) ⟨(), [], 0⟩
        [pageOf "posts" 0, pageOf "posts" 1]).map servedIds ≠
      ((keptPosts (some "posts")).responses echo ()
        [pageOf "posts" 0, pageOf "posts" 1]).map servedIds := by decide +kernel
  exact hids (congrArg (List.map servedIds) h)

end Catalog

end TableQuery
