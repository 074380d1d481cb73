import TableQuery.Proofs.Search.Lists
import TableQuery.Proofs.Search.ParamNames

/-! # The counter of the column searches

The search of a column adds one predicate, with the next numbers of the counter for its parameters,
or changes nothing at all (`Group.AddsOrKeeps`). There is one exception: a list that breaks off
(`SearchTerm.BreaksOff`), because an item of a list is named as soon as it is typed. It adds
nothing, but the items in front of the rejected one have used up their numbers
(`Filter.narrow_counter`). No search uses up more numbers than its text is long, but for two
(`Filter.narrow_le`). -/

namespace TableQuery

/-- From `acc` at `counter` to `acc'` at `counter'`: one more predicate, whose parameters have the
numbers that the counter gave away in between, in order; or no change of either. -/
def Group.AddsOrKeeps (acc : Group) (counter : Nat) (acc' : Group) (counter' : Nat) : Prop :=
  (∃ p : Predicate, acc' = acc.push p ∧ counter' = counter + p.params.length ∧
    p.params.map Param.name = (List.range p.params.length).map fun i => counterName (counter + i)) ∨
  (acc' = acc ∧ counter' = counter)

/-- The type takes the first `n` items of the list in the value, and rejects the next one. -/
def SearchTerm.BreaksOff (term : SearchTerm) (n : Nat) : Prop :=
  ∃ accepted rejected rest, listItems term.value = accepted ++ rejected :: rest ∧
    accepted.length = n ∧ (∀ item ∈ accepted, typedValue? term.type item ≠ none) ∧
    typedValue? term.type rejected = none

/-- The filter reads the value as a list: a box for text or a list to choose from does so if its
mode takes a list, and a box for numbers if the value is no range either. -/
inductive Filter.ReadsList (value : String) : Filter → Prop
  | text {mode : SearchMode} (initial : Option String) (hmode : mode.TakesList) :
    ReadsList value (.text mode initial)
  | select {mode : SearchMode} (options : Record) (multiple : Bool) (hmode : mode.TakesList) :
    ReadsList value (.select mode options multiple)
  | number {mode : SearchMode} (min max step : Option Binary64) (hmode : mode.TakesList)
    (hvalue : ¬ " - ".toList <:+: value.toList) : ReadsList value (.number mode min max step)

/-! ### Lists that break off -/

theorem exists_map_some {type : Option FieldType} {items : List String}
    (h : ∀ item ∈ items, typedValue? type item ≠ none) :
    ∃ values : List Value, items.map (typedValue? type) = values.map some := by
  rcases acceptedItems_cases type items with hall | ⟨accepted, rejected, rest, rfl, -, hrejected⟩
  · exact ⟨_, hall⟩
  · exact absurd hrejected (h rejected (by simp))

theorem SearchMode.TakesList.exists_membership {mode : SearchMode} (h : mode.TakesList) :
    ∃ negated, mode = .membership negated := by
  rcases h with rfl | rfl
  · exact ⟨false, rfl⟩
  · exact ⟨true, rfl⟩

namespace SearchTerm

variable {term : SearchTerm} {mode : SearchMode} {names : Naming} {n : Nat}

theorem BreaksOff.searchExpression_eq (h : term.BreaksOff n) (hmode : mode.TakesList) :
    searchExpression term mode names = ⟨none, n⟩ := by
  obtain ⟨accepted, rejected, rest, hitems, rfl, haccepted, hrejected⟩ := h
  obtain ⟨negated, rfl⟩ := hmode.exists_membership
  obtain ⟨values, hvalues⟩ := exists_map_some haccepted
  rw [searchExpression_membership, searchAmong_of_rejected hitems hvalues hrejected]

theorem BreaksOff.lt_length (h : term.BreaksOff n) : n < (listItems term.value).length := by
  obtain ⟨accepted, rejected, rest, hitems, rfl, -⟩ := h
  rw [hitems, List.length_append, List.length_cons]
  omega

theorem used_of_nothing {negated : Bool} (h : (searchAmong term negated names).predicate = none) :
    (searchAmong term negated names).used = 0 ∨
      term.BreaksOff (searchAmong term negated names).used := by
  rcases acceptedItems_cases term.type (listItems term.value) with
    hall | ⟨accepted, rejected, rest, hitems, hvalues, hrejected⟩
  · by_cases hempty : acceptedItems term.type (listItems term.value) = []
    · rw [hempty, List.map_nil, List.map_eq_nil_iff] at hall
      simp [searchAmong, hall, acceptedItems, Searched.nothing]
    · rw [searchAmong_of_accepted hempty hall] at h
      cases h
  · rw [searchAmong_of_rejected hitems hvalues hrejected]
    exact .inr ⟨accepted, rejected, rest, hitems, rfl, ne_none_of_map_eq hvalues, hrejected⟩

/-- **Only a list that breaks off uses up names for nothing.** -/
theorem used_of_predicate_none (h : (searchExpression term mode names).predicate = none) :
    (searchExpression term mode names).used = 0 ∨
      mode.TakesList ∧ term.BreaksOff (searchExpression term mode names).used := by
  rcases searchExpression_cases term mode with
    ⟨-, negated, heq⟩ | ⟨hmode, negated, heq⟩ | ⟨-, ⟨op, heq⟩ | ⟨negated, heq⟩⟩
  · rw [heq] at h
    cases h
  · rw [heq] at h ⊢
    exact (used_of_nothing h).imp_right fun hbreaks => ⟨hmode, hbreaks⟩
  · rw [heq] at h ⊢
    unfold searchCompare at h ⊢
    split at h
    · cases h
    · exact .inl rfl
  · rw [heq] at h ⊢
    unfold searchLike at h ⊢
    split at h
    · cases h
    · exact .inl rfl

theorem length_params {p : Predicate} (h : (searchExpression term mode names).predicate = some p) :
    p.params.length = (searchExpression term mode names).used := by
  simpa using congrArg List.length (names_searchExpression h)

theorem length_acceptedItems_le (type : Option FieldType) : ∀ items : List String,
    (acceptedItems type items).length ≤ items.length
  | [] => Nat.le_refl _
  | item :: items => by
    unfold acceptedItems
    split
    · exact Nat.succ_le_succ (length_acceptedItems_le type items)
    · exact Nat.zero_le _

theorem length_splitOn_le (c : Char) (cs : List Char) :
    (cs.splitOn c).length ≤ cs.length + 1 := by
  induction cs with
  | nil => simp
  | cons d cs ih =>
    rw [List.splitOn_eq_splitOnP] at ih ⊢
    rw [List.splitOnP_cons_eq_if_modifyHead]
    split_ifs
    · simpa using ih
    · rw [List.length_modifyHead, List.length_cons]
      omega

theorem used_le (term : SearchTerm) (mode : SearchMode) (names : Naming) :
    (searchExpression term mode names).used ≤ term.value.toList.length + 1 := by
  have hitems : (listItems term.value).length ≤ term.value.toList.length + 1 := by
    refine (List.length_filter_le _ _).trans ?_
    rw [List.length_map, Text.piecesOf, List.length_map]
    exact length_splitOn_le ',' _
  have haccepted := length_acceptedItems_le term.type (listItems term.value)
  rcases searchExpression_cases term mode with
    ⟨-, negated, heq⟩ | ⟨-, negated, heq⟩ | ⟨-, ⟨op, heq⟩ | ⟨negated, heq⟩⟩ <;> rw [heq]
  · exact Nat.zero_le _
  · simp only [searchAmong]
    split_ifs
    · exact haccepted.trans hitems
    · exact Nat.zero_le _
    · exact haccepted.trans hitems
  · unfold searchCompare
    split
    · exact Nat.le_add_left _ _
    · exact Nat.zero_le _
  · unfold searchLike
    split
    · exact Nat.le_add_left _ _
    · exact Nat.zero_le _

end SearchTerm

/-! ### One step of the counter -/

theorem Group.not_addsOrKeeps {acc : Group} {counter n : Nat} (hn : n ≠ 0) :
    ¬ AddsOrKeeps acc counter acc (counter + n) := by
  rintro (⟨p, hpush, -⟩ | ⟨-, hcounter⟩)
  · exact acc.push_ne_self p hpush.symm
  · omega

namespace Filter

variable {f : Filter} {acc : Group} {term : SearchTerm} {counter : Nat}

theorem narrowBy_of_breaksOff {mode : SearchMode} {n : Nat} (hmode : mode.TakesList)
    (h : term.BreaksOff n) : narrowBy acc term mode counter = (acc, counter + n) := by
  rw [narrowBy, h.searchExpression_eq hmode]
  rfl

theorem addsOrKeeps_narrowBy {mode : SearchMode}
    (h : mode.TakesList → ∀ n, term.BreaksOff n → n = 0) :
    acc.AddsOrKeeps counter (narrowBy acc term mode counter).1
      (narrowBy acc term mode counter).2 := by
  simp only [narrowBy, Group.pushSearched]
  split
  · next p hp =>
    rw [← SearchTerm.length_params hp]
    refine .inl ⟨p, rfl, rfl, ?_⟩
    rw [names_searchExpression hp, ← SearchTerm.length_params hp]
    rfl
  · next hnone =>
    refine .inr ⟨rfl, ?_⟩
    rcases SearchTerm.used_of_predicate_none hnone with hused | ⟨hmode, hbreaks⟩
    · rw [hused, Nat.add_zero]
    · rw [h hmode _ hbreaks, Nat.add_zero]

theorem addsOrKeeps_narrowBetween (low high : Value) :
    acc.AddsOrKeeps counter (narrowBetween acc term.target low high counter).1
      (narrowBetween acc term.target low high counter).2 :=
  .inl ⟨_, rfl, rfl, rfl⟩

theorem addsOrKeeps_refl : acc.AddsOrKeeps counter acc counter := .inr ⟨rfl, rfl⟩

theorem eq_of_switchDigit {value digit : String} (h : switchDigit? value = some digit) :
    digit = "1" ∨ digit = "0" := by
  unfold switchDigit? at h
  split at h <;> simp_all

theorem breaksOff_switch {digit : String} (h : switchDigit? term.value = some digit) {n : Nat}
    (hbreaks : SearchTerm.BreaksOff ⟨term.target, digit, some .boolean⟩ n) : n = 0 := by
  have hlength : (listItems digit).length = 1 := by
    rcases eq_of_switchDigit h with rfl | rfl <;> decide
  have hlt : n < (listItems digit).length := hbreaks.lt_length
  omega

/-- A list is asked for in the value itself. -/
theorem Asks.readsList {term' : SearchTerm} {mode : SearchMode} (h : f.Asks term term' mode)
    (hmode : mode.TakesList) {n : Nat} (hbreaks : term'.BreaksOff n) :
    n = 0 ∨ f.ReadsList term.value ∧ term' = term := by
  cases h with
  | text _ initial => exact .inr ⟨.text initial hmode, rfl⟩
  | select _ options multiple => exact .inr ⟨.select options multiple hmode, rfl⟩
  | number _ min max step hcut =>
    have hvalue : ¬ " - ".toList <:+: term.value.toList :=
      Text.cutAt_eq_none.mp (Option.map_eq_none_iff.mp hcut)
    exact .inr ⟨.number min max step hmode hvalue, rfl⟩
  | boolean _ hdigit => exact .inl (breaksOff_switch hdigit hbreaks)

/-- **Nothing is used up in vain**, except by a list that breaks off. -/
theorem addsOrKeeps_narrow (hf : f.IsBuiltIn)
    (h : f.ReadsList term.value → ∀ n, term.BreaksOff n → n = 0) :
    acc.AddsOrKeeps counter (f.narrow acc term counter).1 (f.narrow acc term counter).2 := by
  obtain ⟨strategy, heq⟩ | heq | ⟨term', mode, hasks, heq⟩ | ⟨low, high, heq⟩ :=
    f.narrow_cases acc term counter
  · exact absurd heq (hf strategy)
  · exact heq ▸ addsOrKeeps_refl
  · rw [heq]
    refine addsOrKeeps_narrowBy fun hmode n hbreaks => ?_
    rcases hasks.readsList hmode hbreaks with hzero | ⟨hreads, rfl⟩
    · exact hzero
    · exact h hreads n hbreaks
  · exact heq ▸ addsOrKeeps_narrowBetween low high

theorem Asks.length_le {term' : SearchTerm} {mode : SearchMode} (h : f.Asks term term' mode) :
    term'.value.toList.length ≤ term.value.toList.length + 1 := by
  cases h with
  | boolean _ hdigit =>
    have hone : ∀ digit ∈ ["1", "0"], digit.toList.length ≤ 1 := by decide
    exact Nat.le_add_left_of_le (hone _ (by simpa using eq_of_switchDigit hdigit))
  | _ => exact Nat.le_add_right _ _

/-- **How far the counter moves**: by the characters of the value and two at most. -/
theorem narrow_le (hf : f.IsBuiltIn) (acc : Group) (term : SearchTerm) (counter : Nat) :
    (f.narrow acc term counter).2 ≤ counter + (term.value.toList.length + 2) := by
  obtain ⟨strategy, heq⟩ | heq | ⟨term', mode, hasks, heq⟩ | ⟨low, high, heq⟩ :=
    f.narrow_cases acc term counter
  · exact absurd heq (hf strategy)
  · rw [heq]
    exact Nat.le_add_right _ _
  · have hused := SearchTerm.used_le term' mode (counterNames counter)
    have hlength := hasks.length_le
    rw [heq, narrowBy]
    omega
  · rw [heq, narrowBetween]
    omega

theorem ReadsList.exists_narrowBy (h : f.ReadsList term.value) :
    ∃ mode : SearchMode, mode.TakesList ∧
      f.narrow acc term counter = narrowBy acc term mode counter := by
  cases h with
  | text initial hmode => exact ⟨_, hmode, rfl⟩
  | select options multiple hmode => exact ⟨_, hmode, rfl⟩
  | number min max step hmode hvalue =>
    refine ⟨_, hmode, ?_⟩
    have hcut : Text.cutText DateRange.separator term.value = none := by
      rw [Text.cutText, DateRange.separator, Text.cutAt_eq_none.mpr hvalue]
      rfl
    simp only [narrow, narrowNumber, hcut]

/-- **The numbers of one search**: a list that breaks off behind `n` items adds nothing and uses up
`n` numbers. Apart from that, the search of a column adds one predicate with the next numbers for
its parameters, or changes nothing. -/
theorem narrow_counter (hf : f.IsBuiltIn) (acc : Group) (term : SearchTerm) (counter : Nat) :
    (∀ n, f.ReadsList term.value → term.BreaksOff n →
      f.narrow acc term counter = (acc, counter + n)) ∧
    (acc.AddsOrKeeps counter (f.narrow acc term counter).1 (f.narrow acc term counter).2 ↔
      (f.ReadsList term.value → ∀ n, term.BreaksOff n → n = 0)) := by
  have hbroken : ∀ n, f.ReadsList term.value → term.BreaksOff n →
      f.narrow acc term counter = (acc, counter + n) := by
    intro n hlist hbreaks
    obtain ⟨mode, hmode, hnarrow⟩ := hlist.exists_narrowBy
    rw [hnarrow, narrowBy_of_breaksOff hmode hbreaks]
  refine ⟨hbroken, fun hadds hlist n hbreaks => ?_, addsOrKeeps_narrow hf⟩
  rw [hbroken n hlist hbreaks] at hadds
  -- the group has stayed, so the counter has as well
  by_contra hn
  exact Group.not_addsOrKeeps hn hadds

theorem narrow_counter_views :
    IsBuiltIn (.select .notAmong [] true) ∧
      ReadsList "1, 2, many, 3" (.select .notAmong [] true) ∧
      SearchTerm.BreaksOff ⟨.column "post" "views", "1, 2, many, 3", some .integer⟩ 2 ∧
      (Filter.select .notAmong [] true).narrow (Group.all [])
        ⟨.column "post" "views", "1, 2, many, 3", some .integer⟩ 100 = (Group.all [], 102) := by
  have hf : IsBuiltIn (.select .notAmong [] true) := by decide
  have hlist : ReadsList "1, 2, many, 3" (.select .notAmong [] true) := .select [] true (.inr rfl)
  have hbreaks :
      SearchTerm.BreaksOff ⟨.column "post" "views", "1, 2, many, 3", some .integer⟩ 2 :=
    ⟨["1", "2"], "many", ["3"], by decide, rfl, by decide, by decide⟩
  exact ⟨hf, hlist, hbreaks, (narrow_counter hf (Group.all []) _ 100).1 2 hlist hbreaks⟩

/-- A list of a number and a word: the number has used up a name of the counter, and no predicate is
added. -/
theorem narrow_list_breaksOff :
    ¬ (Group.all []).AddsOrKeeps 100
      ((Filter.text .among none).narrow (Group.all [])
        ⟨.column "post" "id", "1,x", some .integer⟩ 100).1
      ((Filter.text .among none).narrow (Group.all [])
        ⟨.column "post" "id", "1,x", some .integer⟩ 100).2 := by
  have hnarrow : (Filter.text .among none).narrow (Group.all [])
      ⟨.column "post" "id", "1,x", some .integer⟩ 100 = (Group.all [], 100 + 1) :=
    narrowBy_of_breaksOff (.inl rfl) ⟨["1"], "x", [], by decide, rfl, by decide, by decide⟩
  rw [hnarrow]
  exact Group.not_addsOrKeeps (by decide)

end Filter

end TableQuery
