import Mathlib.Tactic.SplitIfs
import TableQuery.Search.Filter

/-! # What a search adds

A search value comes to a predicate of one of four forms, all about its target, with the first names
of its naming (`SearchTerm.Gives`). A filter of a table either leaves the search of a column out, or
adds a search expression or a closed range (`Filter.narrow_cases`). What holds of these steps holds
of all filters but those of the author. -/

namespace TableQuery

/-- The predicates that a search value can come to, with the number of names they use. -/
inductive SearchTerm.Gives (term : SearchTerm) (names : Naming) : Predicate → Nat → Prop
  | isNull (negated : Bool) : Gives term names (.isNull term.target negated) 0
  | compare (op : Comparison) (value : Value) :
    Gives term names (.compare term.target op ⟨names 0, value⟩) 1
  | like (negated : Bool) (value : Value) :
    Gives term names (.like term.target negated ⟨names 0, value⟩) 1
  | among (negated : Bool) {values : List Value} (h : values ≠ []) :
    Gives term names (.among term.target negated (named names values)) values.length

namespace SearchTerm

variable {term : SearchTerm} {names : Naming} {p : Predicate}

theorem gives_compare {op : Comparison} (h : (searchCompare term op names).predicate = some p) :
    term.Gives names p (searchCompare term op names).used := by
  unfold searchCompare at h ⊢
  split at h
  · cases h
    exact .compare op _
  · cases h

theorem gives_like {negated : Bool} (h : (searchLike term negated names).predicate = some p) :
    term.Gives names p (searchLike term negated names).used := by
  unfold searchLike at h ⊢
  split at h
  · cases h
    exact .like negated _
  · cases h

theorem gives_among {negated : Bool} (h : (searchAmong term negated names).predicate = some p) :
    term.Gives names p (searchAmong term negated names).used := by
  simp only [searchAmong] at h ⊢
  split_ifs at h ⊢ with hrejected hne
  · cases h
  · cases h
    exact .among negated (by simpa using hne)

/-- **The twelve modes ask in four ways**, whatever the naming: for null, for a member of a list,
for a comparison or for a text pattern. -/
theorem searchExpression_cases (term : SearchTerm) (mode : SearchMode) :
    ((mode = .isNull ∨ mode = .isNotNull) ∧ ∃ negated, ∀ names : Naming,
      searchExpression term mode names = ⟨some (.isNull term.target negated), 0⟩) ∨
    ((mode = .among ∨ mode = .notAmong) ∧ ∃ negated, ∀ names : Naming,
      searchExpression term mode names = searchAmong term negated names) ∨
    (¬ (mode = .among ∨ mode = .notAmong) ∧
      ((∃ op, ∀ names : Naming,
        searchExpression term mode names = searchCompare term op names) ∨
      ∃ negated, ∀ names : Naming,
        searchExpression term mode names = searchLike term negated names)) := by
  cases mode with
  | isNull => exact .inl ⟨.inl rfl, false, fun _ => rfl⟩
  | isNotNull => exact .inl ⟨.inr rfl, true, fun _ => rfl⟩
  | among => exact .inr (.inl ⟨.inl rfl, false, fun _ => rfl⟩)
  | notAmong => exact .inr (.inl ⟨.inr rfl, true, fun _ => rfl⟩)
  | like => exact .inr (.inr ⟨by decide, .inr ⟨false, fun _ => rfl⟩⟩)
  | notLike => exact .inr (.inr ⟨by decide, .inr ⟨true, fun _ => rfl⟩⟩)
  | eq => exact .inr (.inr ⟨by decide, .inl ⟨.eq, fun _ => rfl⟩⟩)
  | neq => exact .inr (.inr ⟨by decide, .inl ⟨.neq, fun _ => rfl⟩⟩)
  | lt => exact .inr (.inr ⟨by decide, .inl ⟨.lt, fun _ => rfl⟩⟩)
  | lte => exact .inr (.inr ⟨by decide, .inl ⟨.lte, fun _ => rfl⟩⟩)
  | gt => exact .inr (.inr ⟨by decide, .inl ⟨.gt, fun _ => rfl⟩⟩)
  | gte => exact .inr (.inr ⟨by decide, .inl ⟨.gte, fun _ => rfl⟩⟩)

/-- **A search expression gives a predicate of one of these forms**, and uses its names. -/
theorem gives_searchExpression {mode : SearchMode}
    (h : (searchExpression term mode names).predicate = some p) :
    term.Gives names p (searchExpression term mode names).used := by
  rcases searchExpression_cases term mode with
    ⟨-, negated, heq⟩ | ⟨-, negated, heq⟩ | ⟨-, ⟨op, heq⟩ | ⟨negated, heq⟩⟩
  · rw [heq] at h ⊢
    cases h
    exact .isNull negated
  · rw [heq] at h ⊢
    exact gives_among h
  · rw [heq] at h ⊢
    exact gives_compare h
  · rw [heq] at h ⊢
    exact gives_like h

end SearchTerm

theorem Group.push_ne_self (g : Group) (p : Predicate) : g.push p ≠ g := by
  intro h
  have hlength := congrArg (fun g : Group => g.items.length) h
  simp [push] at hlength

/-- The filter is not one of the author's. -/
def Filter.IsBuiltIn (f : Filter) : Prop := ∀ s, f ≠ .custom s

instance : DecidablePred Filter.IsBuiltIn
  | .custom s => isFalse fun h => h s rfl
  | .text _ _ | .number _ _ _ _ | .dateRange _ | .boolean _ | .select _ _ _ => isTrue nofun

/-- The search expressions of a filter: the value under the mode of the filter, unless a box for
numbers finds a range in it, or the digit of a switch. -/
inductive Filter.Asks (term : SearchTerm) : Filter → SearchTerm → SearchMode → Prop
  | text (mode : SearchMode) (initial : Option String) : Asks term (.text mode initial) term mode
  | select (mode : SearchMode) (options : Record) (multiple : Bool) :
    Asks term (.select mode options multiple) term mode
  | number (mode : SearchMode) (min max step : Option Binary64)
    (hcut : Text.cutText DateRange.separator term.value = none) :
    Asks term (.number mode min max step) term mode
  | boolean (mode : SearchMode) {digit : String} (hdigit : switchDigit? term.value = some digit) :
    Asks term (.boolean mode) ⟨term.target, digit, some .boolean⟩ mode

theorem Filter.Asks.target_eq {f : Filter} {term term' : SearchTerm} {mode : SearchMode}
    (h : f.Asks term term' mode) : term'.target = term.target := by
  cases h <;> rfl

/-- **A filter that is not the author's leaves the search of a column out or adds a search
expression or a closed range**, for the target of the search. -/
theorem Filter.narrow_cases (f : Filter) (acc : Group) (term : SearchTerm) (counter : Nat) :
    (∃ strategy, f = .custom strategy) ∨ f.narrow acc term counter = (acc, counter) ∨
    (∃ term' mode, f.Asks term term' mode ∧
      f.narrow acc term counter = narrowBy acc term' mode counter) ∨
    ∃ low high, f.narrow acc term counter = narrowBetween acc term.target low high counter := by
  cases f with
  | custom strategy => exact .inl ⟨strategy, rfl⟩
  | text mode initial => exact .inr (.inr (.inl ⟨term, mode, .text mode initial, rfl⟩))
  | select mode options multiple =>
    exact .inr (.inr (.inl ⟨term, mode, .select mode options multiple, rfl⟩))
  | number mode min max step =>
    simp only [narrow, narrowNumber]
    split
    · next hcut => exact .inr (.inr (.inl ⟨term, mode, .number mode min max step hcut, rfl⟩))
    · split
      · exact .inr (.inr (.inr ⟨_, _, rfl⟩))
      · exact .inr (.inl rfl)
  | dateRange initial =>
    simp only [narrow, narrowDates]
    split
    · split
      · exact .inr (.inr (.inr ⟨_, _, rfl⟩))
      · exact .inr (.inl rfl)
    · exact .inr (.inl rfl)
  | boolean mode =>
    simp only [narrow, narrowSwitch]
    split
    · next digit hdigit => exact .inr (.inr (.inl ⟨_, mode, .boolean mode hdigit, rfl⟩))
    · exact .inr (.inl rfl)

end TableQuery
