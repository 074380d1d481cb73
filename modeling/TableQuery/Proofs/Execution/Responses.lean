import TableQuery.Proofs.Execution.Provenance
import TableQuery.Proofs.Execution.Transparency
import TableQuery.Proofs.Hydration.Ends
import TableQuery.Proofs.Plan.CountWindows

/-! # What a response comes to

A catalog answers with the table that was put under a name last (`Catalog.table?_after`). A request
is planned and its three queries are compiled before the executor is called; then the page, the
count of all records and the count of those that the searches keep are called for, one after the
other, and a failure ends them.

The calls are taken from a run whose executor keeps a journal, which changes no response
(`Run.Journals`). One call appends itself to the journal (`Run.Journals.answer`), and two steps
append their calls one behind the other (`Run.Journals.bind`). So a page has made its calls in order
or ends with the failure of one of them (`Run.Journals.fetchPage`), and every response comes about
in one of seven ways (`Catalog.respond_served`).

In one of them no one is answered. If a join has the alias of the root, the tree of the records has
no end (`Table.ends_iff`), and the program overflows its stack once it has the rows of the page
(`Catalog.respond_overflow`). -/

namespace TableQuery

open Outcome

variable {σ α β : Type}

/-! ### Results of calls -/

theorem Executor.kind_of_answer {e : Executor σ} {c : Call} {s : σ} {kept : Kept}
    (h : (e.answer c s).1 = .ok kept) : kept.kind = c.kind := by
  obtain ⟨kind, q⟩ := c
  cases kind with
  | rows =>
    obtain ⟨records, -, rfl⟩ := map_eq_ok.mp h
    rfl
  | scalar =>
    obtain ⟨value, -, rfl⟩ := map_eq_ok.mp h
    rfl

/-- The executor gives the results of some calls, one after the other, and is left in a state. -/
inductive Executor.Gives (e : Executor σ) : σ → List Answered → σ → Prop
  | nil (s : σ) : e.Gives s [] s
  | cons {s s' : σ} {later : List Answered} (c : Call) (h : e.Gives (e.answer c s).2 later s') :
    e.Gives s (⟨c, (e.answer c s).1⟩ :: later) s'

theorem Executor.Gives.append {e : Executor σ} {s s' s'' : σ} {answered later : List Answered}
    (h : e.Gives s answered s') (hlater : e.Gives s' later s'') :
    e.Gives s (answered ++ later) s'' := by
  induction h with
  | nil s => exact hlater
  | cons c _ ih => exact .cons c (ih hlater)

/-! ### Runs with a journal -/

/-- Calls were answered one after the other. Either all of them were, and `R` holds of their answers
and the value of the run, or one failed, which ended the run with this failure. -/
inductive Traced (calls : List Call) (R : List Answered → α → Prop) :
    List Answered → Except Failure α → Prop
  | done {answered : List Answered} {a : α} (hcalls : answered.map Answered.call = calls)
    (hok : ∀ b ∈ answered, ∃ kept, b.result = .ok kept) (hvalue : R answered a) :
    Traced calls R answered (.ok a)
  | failed {before : List Answered} {call : Call} {rest : List Call} {failure : Failure}
    (hcalls : before.map Answered.call ++ call :: rest = calls)
    (hok : ∀ b ∈ before, ∃ kept, b.result = .ok kept) :
    Traced calls R (before ++ [⟨call, .error failure⟩]) (.error failure)

namespace Traced

variable {calls rest : List Call} {R : List Answered → α → Prop} {S : List Answered → β → Prop}
  {answered later : List Answered}

theorem single_error (call : Call) (failure : Failure) :
    Traced [call] R [⟨call, .error failure⟩] (.error failure) :=
  @failed α [call] R [] call [] failure rfl (List.forall_mem_nil _)

theorem error {failure : Failure} (h : Traced calls R answered (.error failure)) :
    Traced (calls ++ rest) S answered (.error failure) := by
  cases h with
  | @failed before call left _ hcalls hok =>
    have hsplit : before.map Answered.call ++ call :: (left ++ rest) = calls ++ rest := by
      rw [← hcalls, List.append_assoc, List.cons_append]
    exact .failed hsplit hok

theorem append {a : α} {result : Except Failure β} (h : Traced calls R answered (.ok a))
    (hlater : Traced rest (fun later b => S (answered ++ later) b) later result) :
    Traced (calls ++ rest) S (answered ++ later) result := by
  cases h with
  | done hcalls hok hvalue =>
    cases hlater with
    | done hcalls' hok' hvalue' =>
      refine .done ?_ (List.forall_mem_append.mpr ⟨hok, hok'⟩) hvalue'
      rw [List.map_append, hcalls, hcalls']
    | @failed before call left _ hcalls' hok' =>
      have hsplit : (answered ++ before).map Answered.call ++ call :: left = calls ++ rest := by
        rw [List.map_append, List.append_assoc, hcalls, hcalls']
      rw [← List.append_assoc]
      exact .failed hsplit (List.forall_mem_append.mpr ⟨hok, hok'⟩)

theorem imp {result : Except Failure α} {S : List Answered → α → Prop}
    (h : Traced calls R answered result) (himp : ∀ a, R answered a → S answered a) :
    Traced calls S answered result := by
  cases h with
  | done hcalls hok hvalue => exact .done hcalls hok (himp _ hvalue)
  | failed hcalls hok => exact .failed hcalls hok

theorem value {a : α} (h : Traced calls R answered (.ok a)) : R answered a := by
  cases h with
  | done _ _ hvalue => exact hvalue

end Traced

/-- Over an executor with a journal, a run has the same result and leaves the executor in the same
state. It appends to the journal the calls that it makes, with what the executor gives for them. -/
def Run.Journals (e : Executor σ) (x : Run (σ × List Answered) α) (y : Run σ α)
    (calls : List Call) (R : List Answered → α → Prop) : Prop :=
  ∀ s past, ∃ answered, x (s, past) = ((y s).1, (y s).2, past ++ answered) ∧
    e.Gives s answered (y s).2 ∧ Traced calls R answered (y s).1

namespace Run.Journals

variable {e : Executor σ} {x : Run (σ × List Answered) α} {y : Run σ α} {calls rest : List Call}
  {R : List Answered → α → Prop} {S : List Answered → β → Prop}

theorem pure {a : α} (h : R [] a) :
    Run.Journals e (Pure.pure a : Run (σ × List Answered) α) (Pure.pure a : Run σ α) [] R :=
  fun s past => ⟨[], by rw [List.append_nil]; rfl, .nil s, .done rfl (List.forall_mem_nil _) h⟩

theorem bind {f : α → Run (σ × List Answered) β} {g : α → Run σ β}
    (hx : Run.Journals e x y calls R)
    (hf : ∀ answered a, R answered a →
      Run.Journals e (f a) (g a) rest fun later b => S (answered ++ later) b) :
    Run.Journals e (x >>= f) (y >>= g) (calls ++ rest) S := by
  intro s past
  obtain ⟨answered, hrun, hgives, htrace⟩ := hx s past
  rw [Run.bind_apply, Run.bind_apply, hrun]
  generalize y s = ran at hgives htrace
  obtain ⟨result, s'⟩ := ran
  cases result with
  | error failure => exact ⟨answered, rfl, hgives, htrace.error⟩
  | ok a =>
    obtain ⟨later, hlater, hgives', htrace'⟩ :=
      hf answered a htrace.value s' (past ++ answered)
    refine ⟨answered ++ later, ?_, hgives.append hgives', htrace.append htrace'⟩
    rw [← List.append_assoc]
    exact hlater

theorem answer {c : Call} {read : Kept → α}
    (hx : x = fun t => ((e.journaled.answer c t).1.map read, (e.journaled.answer c t).2))
    (hy : y = fun s => ((e.answer c s).1.map read, (e.answer c s).2)) :
    Run.Journals e x y [c] fun answered a =>
      ∃ kept, kept.kind = c.kind ∧ answered = [⟨c, .ok kept⟩] ∧ a = read kept := by
  intro s past
  simp only [hx, hy, e.answer_journaled]
  refine ⟨[⟨c, (e.answer c s).1⟩], rfl, .cons c (.nil _), ?_⟩
  cases hanswer : (e.answer c s).1 with
  | error failure => exact .single_error c failure
  | ok kept =>
    exact .done rfl (List.forall_mem_singleton.mpr ⟨kept, rfl⟩)
      ⟨kept, e.kind_of_answer hanswer, rfl, rfl⟩

/-- The call for the rows of a page. -/
theorem rows (e : Executor σ) (q : Compiled) :
    Run.Journals e (e.journaled.rows q) (e.rows q) [⟨.rows, q⟩] fun answered records =>
      answered = [⟨⟨.rows, q⟩, .ok (.rows records)⟩] := by
  intro s past
  obtain ⟨answered, hrun, hgives, htrace⟩ :=
    answer (e.journaled.rows_eq_answer q) (e.rows_eq_answer q) s past
  refine ⟨answered, hrun, hgives, htrace.imp fun records h => ?_⟩
  obtain ⟨kept | value, hkind, rfl, rfl⟩ := h
  · rfl
  · cases hkind

/-- **A page whose tree has an end** makes its three calls in order. -/
theorem fetchPage (e : Executor σ) {p : Planned} {queries : PageQueries}
    (h : p.queries = .ok queries) (hends : p.plan.Ends) :
    Run.Journals e (e.journaled.fetchPage p) (e.fetchPage p) queries.calls fun answered reply =>
      ∃ records total filtered, total.kind = queries.total.call.kind ∧
        filtered.kind = queries.filtered.call.kind ∧
        answered = [⟨⟨.rows, queries.page⟩, .ok (.rows records)⟩, ⟨queries.total.call, .ok total⟩,
          ⟨queries.filtered.call, .ok filtered⟩] ∧
        reply = .page ⟨p.request.draw.getD 0, total.number, filtered.number,
          p.plan.hydrate records⟩ := by
  have hcount : ∀ c : CompiledCount, _ := fun c =>
    answer (e.journaled.count_eq_answer c) (e.count_eq_answer c)
  rw [e.fetchPage_of_ok h, e.journaled.fetchPage_of_ok h]
  simp only [Plan.hasTree_iff.mpr hends, if_true]
  refine (rows e queries.page).bind fun _ _ hrows => (hcount queries.total).bind fun _ _ htotal =>
    (hcount queries.filtered).bind fun _ _ hfiltered => ?_
  subst hrows
  obtain ⟨total, htotal, rfl, rfl⟩ := htotal
  obtain ⟨filtered, hfiltered, rfl, rfl⟩ := hfiltered
  exact .pure ⟨_, total, filtered, htotal, hfiltered, rfl, rfl⟩

/-- **A page whose tree has no end** makes one call. -/
theorem fetchPage_overflow (e : Executor σ) {p : Planned} {queries : PageQueries}
    (h : p.queries = .ok queries) (hends : ¬ p.plan.Ends) :
    Run.Journals e (e.journaled.fetchPage p) (e.fetchPage p) [⟨.rows, queries.page⟩]
      fun answered reply =>
        (∃ records, answered = [⟨⟨.rows, queries.page⟩, .ok (.rows records)⟩]) ∧
        reply = .overflow := by
  rw [e.fetchPage_of_ok h, e.journaled.fetchPage_of_ok h]
  simp only [mt Plan.hasTree_iff.mp hends]
  rw [← List.append_nil [_]]
  exact (rows e queries.page).bind fun answered records hrows =>
    .pure ⟨⟨records, by rw [hrows, List.append_nil]⟩, rfl⟩

end Run.Journals

/-! ### Tables that are put into a catalog -/

namespace Catalog

/-- What is done to a catalog. -/
inductive Step where
  | define (name : String) (registry : Registry)
  | insert (t : Table)

/-- The table of a step: a new one starts from the default settings. -/
def Step.table (defaults : TableSettings) : Step → Table
  | .define name registry => { name := name, registry := registry, settings := defaults }
  | .insert t => t

/-- The catalog after a step. -/
def step (c : Catalog) : Step → Catalog
  | .define name registry => c.define name registry
  | .insert t => c.insert t

/-- The catalog after some steps. -/
def after (defaults : TableSettings) (steps : List Step) : Catalog :=
  steps.foldl step { defaults := defaults }

theorem after_concat (defaults : TableSettings) (steps : List Step) (s : Step) :
    after defaults (steps ++ [s]) = (after defaults steps).step s := by
  rw [after, List.foldl_append]
  rfl

/-- The table that was put under a name last. -/
def latest? (defaults : TableSettings) (steps : List Step) (name : String) : Option Table :=
  (steps.map (Step.table defaults)).reverse.find? fun t => t.name = name

theorem table?_step (c : Catalog) (s : Step) (name : String) :
    (c.step s).table? name =
      if (s.table c.defaults).name = name then some (s.table c.defaults) else c.table? name := by
  have hinsert : ∀ t : Table,
      (c.insert t).table? name = if t.name = name then some t else c.table? name := by
    intro t
    rw [table?, insert, Keyed.get?_insert]
    exact if_congr eq_comm rfl rfl
  cases s with
  | define name' registry => exact hinsert _
  | insert t => exact hinsert t

theorem defaults_step (c : Catalog) (s : Step) : (c.step s).defaults = c.defaults := by
  cases s <;> rfl

theorem defaults_after (defaults : TableSettings) (steps : List Step) :
    (after defaults steps).defaults = defaults := by
  induction steps using List.reverseRecOn with
  | nil => rfl
  | append_singleton steps s ih => rw [after_concat, defaults_step, ih]

/-- **A catalog has the table that was put under the name last.** -/
theorem table?_after (defaults : TableSettings) (steps : List Step) (name : String) :
    (after defaults steps).table? name = latest? defaults steps name := by
  induction steps using List.reverseRecOn with
  | nil => rfl
  | append_singleton steps s ih =>
    rw [after_concat, table?_step, defaults_after, ih]
    unfold latest?
    rw [List.map_append, List.reverse_append, List.map_singleton, List.reverse_singleton,
      List.singleton_append, List.find?_cons]
    by_cases hname : (s.table defaults).name = name <;> simp [hname]

end Catalog

/-! ### Planning and compiling -/

/-- A request that is planned for a table. -/
def Table.planned (t : Table) (request : Request) : Except Failure Planned := do
  let planner ← Planner.create t request
  planner.plan

/-- How a table is counted: by rows if it is grouped. -/
def Table.countKind (t : Table) : CallKind := if t.groupBy.isEmpty then .scalar else .rows

/-- One of the three queries does not compile, and those before it do. -/
def Planned.Uncompiled (p : Planned) (failure : Failure) : Prop :=
  p.page = .error failure ∨
  (∃ page, p.page = .ok page) ∧ (p.count false = .error failure ∨
    (∃ total, p.count false = .ok total) ∧ p.count true = .error failure)

/-- The request is planned for the table, and its queries compile. Both counts are read as the table
is grouped. -/
structure Planned.Compiles (p : Planned) (t : Table) (request : Request) (queries : PageQueries) :
    Prop where
  planned : t.planned request = .ok p
  page : p.page = .ok queries.page
  total : p.count false = .ok queries.total
  filtered : p.count true = .ok queries.filtered
  kinds : queries.total.call.kind = t.countKind ∧ queries.filtered.call.kind = t.countKind

theorem Planned.uncompiled_of_queries {p : Planned} {failure : Failure}
    (h : p.queries = .error failure) : p.Uncompiled failure := by
  rcases bind_eq_error.mp h with hpage | ⟨page, hpage, h⟩
  · exact .inl hpage
  rcases bind_eq_error.mp h with htotal | ⟨total, htotal, h⟩
  · exact .inr ⟨⟨page, hpage⟩, .inl htotal⟩
  rcases bind_eq_error.mp h with hfiltered | ⟨filtered, -, h⟩
  · exact .inr ⟨⟨page, hpage⟩, .inr ⟨⟨total, htotal⟩, hfiltered⟩⟩
  · cases h

theorem Planned.kind_call {p : Planned} {filtered : Bool} {c : CompiledCount}
    (h : p.count filtered = .ok c) :
    c.call.kind = if p.base.groupBy.isEmpty then .scalar else .rows := by
  obtain ⟨root, q, f, hq, -, -, -, -, hstrategy⟩ := count_eq_ok h
  have hgroup : (p.countedQuery filtered root q).groupBy = p.base.groupBy :=
    (isCountOf filtered root hq).groupBy
  rw [CompiledCount.call, hstrategy, strategyOf, Query.isGrouped, hgroup]
  cases p.base.groupBy <;> rfl

theorem Planned.compiles_of_queries {p : Planned} {t : Table} {request : Request}
    {queries : PageQueries} (hplanned : t.planned request = .ok p)
    (h : p.queries = .ok queries) : p.Compiles t request queries := by
  simp only [Planned.queries, bind_eq_ok, pure_eq_ok] at h
  obtain ⟨page, hpage, total, htotal, filtered, hfiltered, rfl⟩ := h
  obtain ⟨planner, hcreate, hplan⟩ := bind_eq_ok.mp hplanned
  obtain ⟨root, -, -, -, hbase⟩ := exists_root hcreate hplan
  have hkind : ∀ {filtered c}, p.count filtered = .ok c → c.call.kind = t.countKind := by
    intro filtered c hc
    rw [kind_call hc, hbase]
    rfl
  exact ⟨hplanned, hpage, htotal, hfiltered, hkind htotal, hkind hfiltered⟩

/-! ### Responses -/

namespace Ask

/-- The name of the table that is asked for. -/
def name : Ask → String
  | .request name _ => name
  | .text name _ => name

/-- The request, which is read from its text if it is given as one. -/
def read : Ask → Except Failure Request
  | .request _ asked => .ok asked
  | .text _ body => (Request.ofText body).mapError .decoding

end Ask

/-- What a response comes to, with the table that was put under the name last: the calls that were
made with their results, and the response. -/
inductive Served (t? : Option Table) (ask : Ask) : List Answered → Except Failure Reply → Prop
  | unread {failure : Failure} (hread : ask.read = .error failure) :
    Served t? ask [] (.error failure)
  | unknown {request : Request} (hread : ask.read = .ok request) (htable : t? = none) :
    Served t? ask [] (.error (.config (.unknownTable ask.name)))
  | unplanned {request : Request} {t : Table} {failure : Failure} (hread : ask.read = .ok request)
    (htable : t? = some t) (hplanned : t.planned request = .error failure) :
    Served t? ask [] (.error failure)
  | uncompiled {request : Request} {t : Table} {p : Planned} {failure : Failure}
    (hread : ask.read = .ok request) (htable : t? = some t)
    (hplanned : t.planned request = .ok p) (hcompiled : p.Uncompiled failure) :
    Served t? ask [] (.error failure)
  /-- One of the calls failed. Those before it were answered, and those behind it were not made.
  The counts are not called for if a join has the alias of the root. -/
  | failed {request : Request} {t : Table} {p : Planned} {queries : PageQueries}
    {before : List Answered} {call : Call} {rest : List Call} {failure : Failure}
    (hread : ask.read = .ok request) (htable : t? = some t)
    (hcompiles : p.Compiles t request queries)
    (hcalls : before.map Answered.call ++ call :: rest = queries.calls)
    (hbefore : ∀ b ∈ before, ∃ kept, b.result = .ok kept)
    (hroot : before ≠ [] → p.plan.rootAlias ∉ p.plan.joins.aliases) :
    Served t? ask (before ++ [⟨call, .error failure⟩]) (.error failure)
  | done {request : Request} {t : Table} {p : Planned} {queries : PageQueries}
    {records : List Record} {total filtered : Kept}
    (hread : ask.read = .ok request) (htable : t? = some t)
    (hcompiles : p.Compiles t request queries)
    (hroot : p.plan.rootAlias ∉ p.plan.joins.aliases)
    (hkinds : total.kind = t.countKind ∧ filtered.kind = t.countKind) :
    Served t? ask
      [⟨⟨.rows, queries.page⟩, .ok (.rows records)⟩, ⟨queries.total.call, .ok total⟩,
        ⟨queries.filtered.call, .ok filtered⟩]
      (.ok (.page ⟨request.draw.getD 0, total.number, filtered.number, p.plan.hydrate records⟩))
  /-- The rows of the page have come, and a join has the alias of the root. -/
  | overflow {request : Request} {t : Table} {p : Planned} {queries : PageQueries}
    {records : List Record} (hread : ask.read = .ok request) (htable : t? = some t)
    (hcompiles : p.Compiles t request queries)
    (hroot : p.plan.rootAlias ∈ p.plan.joins.aliases) :
    Served t? ask [⟨⟨.rows, queries.page⟩, .ok (.rows records)⟩] (.ok .overflow)

namespace Catalog

theorem respond_eq (c : Catalog) (e : Executor σ) (ask : Ask) : c.respond e ask =
    match ask.read with
    | .ok request => c.handle e ask.name request
    | .error failure => fun s => (.error failure, s) := by
  cases ask with
  | request name request => rfl
  | text name body =>
    show c.handleText e name body = match (Request.ofText body).mapError Failure.decoding with
      | .ok request => c.handle e name request
      | .error failure => fun s => (.error failure, s)
    unfold handleText
    cases Request.ofText body <;> rfl

theorem plan_eq_planned {c : Catalog} {name : String} {t : Table} (h : c.table? name = some t)
    (request : Request) : c.plan name request = t.planned request := by
  unfold plan
  rw [h]
  rfl

/-- **A request that is planned and whose queries compile**: it comes to the answers of the calls,
unless one of them fails or the tree of the records has no end. -/
theorem fetchPage_served {t : Table} {ask : Ask} {request : Request} {p : Planned}
    {queries : PageQueries} (hread : ask.read = .ok request)
    (hplanned : t.planned request = .ok p) (hqueries : p.queries = .ok queries) (e : Executor σ)
    (s : σ) : ∃ answered,
      e.journaled.fetchPage p (s, []) = ((e.fetchPage p s).1, (e.fetchPage p s).2, answered) ∧
      e.Gives s answered (e.fetchPage p s).2 ∧
      Served (some t) ask answered (e.fetchPage p s).1 := by
  have hcompiles := Planned.compiles_of_queries hplanned hqueries
  obtain ⟨planner, hcreate, hplan⟩ := bind_eq_ok.mp hplanned
  obtain ⟨root, -, htable, -, -⟩ := Planned.exists_root hcreate hplan
  by_cases hends : p.plan.Ends
  · have hroot := (Table.ends_iff htable).mp hends
    obtain ⟨answered, hrun, hgives, htrace⟩ := Run.Journals.fetchPage e hqueries hends s []
    refine ⟨answered, hrun, hgives, ?_⟩
    generalize (e.fetchPage p s).1 = result at htrace ⊢
    cases htrace with
    | failed hcalls hok => exact .failed hread rfl hcompiles hcalls hok fun _ => hroot
    | done _ _ hvalue =>
      obtain ⟨records, total, filtered, htotal, hfiltered, rfl, rfl⟩ := hvalue
      rw [Planned.request_of_plan hcreate hplan]
      exact .done hread rfl hcompiles hroot
        ⟨htotal.trans hcompiles.kinds.1, hfiltered.trans hcompiles.kinds.2⟩
  · have hroot := not_not.mp (mt (Table.ends_iff htable).mpr hends)
    obtain ⟨answered, hrun, hgives, htrace⟩ := Run.Journals.fetchPage_overflow e hqueries hends s []
    refine ⟨answered, hrun, hgives, ?_⟩
    generalize (e.fetchPage p s).1 = result at htrace ⊢
    cases htrace with
    | @failed before call rest failure hcalls hok =>
      -- the only call is the first one
      cases before with
      | nil =>
        obtain ⟨rfl, -⟩ := List.cons.inj hcalls
        have hcalls : [] ++ ⟨.rows, queries.page⟩ :: [queries.total.call, queries.filtered.call] =
            queries.calls := rfl
        exact .failed hread rfl hcompiles hcalls hok fun hne => absurd rfl hne
      | cons b before => simp at hcalls
    | done _ _ hvalue =>
      obtain ⟨⟨records, rfl⟩, rfl⟩ := hvalue
      exact .overflow hread rfl hcompiles hroot

/-- **A request that was read**: it comes to what is served by the table of the name. -/
theorem handle_served {c : Catalog} {e : Executor σ} {ask : Ask} {request : Request}
    (hread : ask.read = .ok request) (s : σ) : ∃ answered,
      c.handle e.journaled ask.name request (s, []) =
        ((c.handle e ask.name request s).1, (c.handle e ask.name request s).2, answered) ∧
      e.Gives s answered (c.handle e ask.name request s).2 ∧
      Served (c.table? ask.name) ask answered (c.handle e ask.name request s).1 := by
  unfold handle
  cases htable : c.table? ask.name with
  | none =>
    have hplan : c.plan ask.name request = .error (.config (.unknownTable ask.name)) := by
      unfold plan
      rw [htable]
    rw [hplan]
    exact ⟨[], rfl, .nil s, .unknown hread rfl⟩
  | some t =>
    rw [plan_eq_planned htable]
    cases hplanned : t.planned request with
    | error failure => exact ⟨[], rfl, .nil s, .unplanned hread rfl hplanned⟩
    | ok p =>
      cases hqueries : p.queries with
      | error failure =>
        have huncompiled := Planned.uncompiled_of_queries hqueries
        simp only [Executor.fetchPage_of_error _ hqueries]
        exact ⟨[], rfl, .nil s, .uncompiled hread rfl hplanned huncompiled⟩
      | ok queries =>
        exact fetchPage_served hread hplanned hqueries e s

/-- **Every response**, for every order of steps, every executor in every state and everything that
is asked. The executor gets the calls that a journal has, which changes nothing else, and these
calls bring it into the state that it is left in. Table, calls and response fit each other
(`Served`):

- The table is the one that was put under the name last.
- There is no call if the request cannot be read or planned, if there is no table, or if one of the
  three queries does not compile. The response is this failure.
- Otherwise the calls are for the page, for the count of all records and for the count of those that
  the searches keep, in this order and as the table is grouped. They end with the first failure, and
  the response is this failure.
- If all calls are answered, the response has the draw of the request, the records of the page and
  the numbers that the counts stand for.
- There are no counts and no response if a join has the alias of the root: the rows of the page make
  the program overflow its stack. -/
theorem respond_served (defaults : TableSettings) (steps : List Step) (e : Executor σ) (s : σ)
    (ask : Ask) : ∃ answered,
      (after defaults steps).respond e.journaled ask (s, []) =
        (((after defaults steps).respond e ask s).1, ((after defaults steps).respond e ask s).2,
          answered) ∧
      e.Gives s answered ((after defaults steps).respond e ask s).2 ∧
      Served (latest? defaults steps ask.name) ask answered
        ((after defaults steps).respond e ask s).1 := by
  rw [respond_eq, respond_eq, ← table?_after]
  cases hread : ask.read with
  | error failure => exact ⟨[], rfl, .nil s, .unread hread⟩
  | ok request => exact handle_served hread s

/-- Posts without columns. -/
def plainPosts : Table := { name := "posts", registry := blogRegistry [], settings := { } }

/-- Posts take the place of grouped posts. -/
def replacedPosts : List Step :=
  [.insert (plainPosts.withGroupBy "post.id"), .define "users" (blogRegistry []),
    .define "posts" (blogRegistry [])]

/-- What comes of asking a script for posts that has no rows and some numbers. -/
def askPosts (scalars : List (Except String Int)) :
    Except Failure Reply × Script × List Answered :=
  (after { } replacedPosts).respond Script.executor.journaled
    (.request "posts" { draw := some 7 }) (⟨[.ok []], scalars, []⟩, [])

/-- The draw and the counts of a response. -/
def servedNumbers (result : Except Failure Reply) : Option (Int × Nat × Nat) :=
  (result.toOption.bind Reply.page?).map fun page => (page.draw, page.total, page.filtered)

theorem exists_page {result : Except Failure Reply} {numbers : Int × Nat × Nat}
    (h : servedNumbers result = some numbers) : ∃ page, result = .ok (.page page) ∧
      (page.draw, page.total, page.filtered) = numbers := by
  rcases result with failure | page | -
  · cases h
  · exact ⟨page, rfl, Option.some.inj h⟩
  · cases h

/-- A number below zero counts as zero. If the count of all records fails, no other call is made. -/
theorem respond_served_posts :
    (∃ answered page, Served (some plainPosts) (.request "posts" { draw := some 7 }) answered
      (.ok (.page page)) ∧ answered.map (fun a => a.call.kind) = [.rows, .scalar, .scalar] ∧
      (page.draw, page.total, page.filtered) = (7, 0, 2)) ∧
    ∃ answered failure, Served (some plainPosts) (.request "posts" { draw := some 7 }) answered
      (.error failure) ∧ answered.map (fun a => a.call.kind) = [.rows, .scalar] := by
  have hserved := fun scalars => respond_served { } replacedPosts Script.executor
    ⟨[.ok []], scalars, []⟩ (.request "posts" { draw := some 7 })
  constructor
  · have hasked : servedNumbers (askPosts [.ok (-3), .ok 2]).1 = some (7, 0, 2) ∧
        (askPosts [.ok (-3), .ok 2]).2.2.map (fun a => a.call.kind) =
          [.rows, .scalar, .scalar] := by decide +kernel
    obtain ⟨answered, hrun, -, hserved⟩ := hserved [.ok (-3), .ok 2]
    rw [askPosts, hrun] at hasked
    obtain ⟨page, hpage, hnumbers⟩ := exists_page hasked.1
    exact ⟨answered, page, hpage ▸ hserved, hasked.2, hnumbers⟩
  · have hasked : (askPosts [.error "gone", .ok 2]).1.toOption.isNone = true ∧
        (askPosts [.error "gone", .ok 2]).2.2.map (fun a => a.call.kind) =
          [.rows, .scalar] := by decide +kernel
    obtain ⟨answered, hrun, -, hserved⟩ := hserved [.error "gone", .ok 2]
    rw [askPosts, hrun] at hasked
    obtain ⟨hnone, hkinds⟩ := hasked
    dsimp only at hnone
    generalize (respond _ _ _ _).1 = result at hserved hnone
    cases result with
    | error failure => exact ⟨answered, failure, hserved, hkinds⟩
    | ok reply => cases hnone

/-- Categories, each with the category above it. -/
def categorySchema : Schema := Schema.ofEntities
  [{ name := "Category", table := "categories", identifiers := ["id"]
     fields := [("id", ⟨none, .integer, false⟩), ("name", ⟨none, .string, false⟩)]
     associations := [("category", .manyToOne "Category" "parent_id")] }]

/-- Categories with the names of the categories above them. -/
def nestedCategories : Table where
  name := "categories"
  registry := .ofColumns categorySchema "Category" [("category.name", .column, .null)]
  settings := { }

/-- What comes of asking a script for categories that has no rows and two numbers. -/
def askCategories : Except Failure Reply × Script × List Answered :=
  (after { } [.insert nestedCategories]).respond Script.executor.journaled
    (.request "categories" { }) (⟨[.ok []], [.ok 0, .ok 0], []⟩, [])

/-- The category above is joined under the alias of the category itself. The request is planned and
its queries compile, but only the rows are called for, and there is no response. -/
theorem respond_overflow : nestedCategories.registry.Built ∧
    (∃ p queries, nestedCategories.planned { } = .ok p ∧ p.queries = .ok queries ∧
      p.plan.rootAlias ∈ p.plan.joins.aliases) ∧
    askCategories.1 = .ok .overflow ∧
    askCategories.2.2.map (fun a => a.call.kind) = [.rows] := by
  obtain ⟨p, hp, hqueries⟩ := exists_ok (x := nestedCategories.planned { })
    (p := fun p => p.queries.toOption.any fun _ => decide (p.plan.rootAlias ∈ p.plan.joins.aliases))
    (by decide +kernel)
  obtain ⟨queries, hqueries, hroot⟩ := exists_ok hqueries
  refine ⟨(Registry.built_ofColumns rfl _).1, ⟨p, queries, hp, hqueries, of_decide_eq_true hroot⟩,
    ?_, by decide +kernel⟩
  obtain ⟨reply, hreply, hpage⟩ := exists_ok (x := askCategories.1)
    (p := fun reply => reply.page?.isNone) (by decide +kernel)
  cases reply with
  | page page => cases hpage
  | overflow => exact hreply

end Catalog

end TableQuery
