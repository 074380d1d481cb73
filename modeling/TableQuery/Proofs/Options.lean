import TableQuery.Options
import TableQuery.Proofs.Keyed
import TableQuery.Proofs.Outcome

/-! # Schemas of options

A schema is built in steps, each of which is about one option (`SchemaStep`). What is known of an
option comes from the steps about it alone, in their order (`OptionSchema.get?_run`), so steps about
different options commute. Options are resolved exactly if nothing unknown is given, nothing
required is left out and every value is accepted (`OptionSchema.Admits`); then each option of the
schema has the value that was given, or its default (`OptionSchema.resolve_eq_ok`). -/

namespace TableQuery

open Outcome

/-! ### Steps -/

/-- A step in which a schema is built. -/
inductive SchemaStep where
  | define (name : String) (default : Json) (kinds : List OptionKind)
  | require (name : String) (kinds : List OptionKind)
  | choices (name : String) (values : List Json)
  | remove (name : String)
  | setDefault (name : String) (default : Json)

namespace SchemaStep

/-- The option that the step is about. -/
def name : SchemaStep → String
  | .define name _ _ => name
  | .require name _ => name
  | .choices name _ => name
  | .remove name => name
  | .setDefault name _ => name

/-- The schema after the step. -/
def apply (s : OptionSchema) : SchemaStep → OptionSchema
  | .define name default kinds => s.define name default kinds
  | .require name kinds => s.require name kinds
  | .choices name values => s.choices name values
  | .remove name => s.remove name
  | .setDefault name default => s.setDefault name default

/-- What is known of the option after the step: two steps add the option or replace it, with no
choices left, one takes it out, and two change it if it is there. -/
def change (spec : Option OptionSpec) : SchemaStep → Option OptionSpec
  | .define _ default kinds => some ⟨default, kinds, false, none⟩
  | .require _ kinds => some ⟨.null, kinds, true, none⟩
  | .choices _ values => spec.map fun spec => { spec with choices := some values }
  | .remove _ => none
  | .setDefault _ default => spec.map fun spec => { spec with default := default }

end SchemaStep

/-- The option takes the value: it is of one of the kinds, if there are any, and unless it is null
it is one of the choices, if there are any. -/
structure OptionSpec.Takes (spec : OptionSpec) (value : Json) : Prop where
  kind : spec.kinds = [] ∨ ∃ kind ∈ spec.kinds, kind.accepts value = true
  choice : value.isNull = false → ∀ values, spec.choices = some values →
    ∃ choice ∈ values, choice.same value = true

namespace OptionSchema

/-- The schema that the steps build. -/
def run (steps : List SchemaStep) : OptionSchema := steps.foldl SchemaStep.apply []

/-- The schema admits the given options: it knows all of them, no required one is left out, and each
option takes the value that is given, or else its default. -/
structure Admits (s : OptionSchema) (given : Record) : Prop where
  known : ∀ name ∈ Keyed.keys given, name ∈ Keyed.keys s
  required : ∀ name spec, Keyed.get? s name = some spec → spec.required = true →
    name ∈ Keyed.keys given
  taken : ∀ name spec, Keyed.get? s name = some spec →
    spec.Takes ((Keyed.get? given name).getD spec.default)

variable {s : OptionSchema}

/-! ### What a step does -/

theorem get?_update (s : OptionSchema) (name : String) (f : OptionSpec → OptionSpec)
    (key : String) : Keyed.get? (s.update name f) key =
      if key = name then (Keyed.get? s name).map f else Keyed.get? s key := by
  unfold update
  split
  · next spec hspec => rw [Keyed.get?_insert, hspec, Option.map_some]
  · next hnone =>
    split_ifs with hkey
    · rw [hkey, hnone, Option.map_none]
    · rfl

theorem get?_apply (s : OptionSchema) (step : SchemaStep) (key : String) :
    Keyed.get? (step.apply s) key =
      if key = step.name then step.change (Keyed.get? s key) else Keyed.get? s key := by
  have hkey : (if key = step.name then step.change (Keyed.get? s key) else Keyed.get? s key) =
      if key = step.name then step.change (Keyed.get? s step.name) else Keyed.get? s key := by
    split_ifs with h
    · rw [h]
    · rfl
  rw [hkey]
  cases step with
  | define name default kinds => exact Keyed.get?_insert _ _ _ _
  | require name kinds => exact Keyed.get?_insert _ _ _ _
  | choices name values => exact get?_update _ _ _ _
  | remove name => exact Keyed.get?_erase _ _ _
  | setDefault name default => exact get?_update _ _ _ _

theorem ascending_update (h : Keyed.Ascending s) (name : String) (f : OptionSpec → OptionSpec) :
    Keyed.Ascending (s.update name f) := by
  unfold update
  split
  · exact h.insert _ _
  · exact h

theorem ascending_apply (h : Keyed.Ascending s) (step : SchemaStep) :
    Keyed.Ascending (step.apply s) := by
  cases step with
  | define name default kinds => exact h.insert _ _
  | require name kinds => exact h.insert _ _
  | choices name values => exact ascending_update h _ _
  | remove name => exact h.erase _
  | setDefault name default => exact ascending_update h _ _

/-! ### What a run does -/

theorem ascending_run (steps : List SchemaStep) : Keyed.Ascending (run steps) :=
  List.foldlRecOn steps SchemaStep.apply List.Pairwise.nil fun _ h step _ => ascending_apply h step

theorem get?_foldl_apply (steps : List SchemaStep) (s : OptionSchema) (name : String) :
    Keyed.get? (steps.foldl SchemaStep.apply s) name =
      (steps.filter fun step => step.name = name).foldl SchemaStep.change (Keyed.get? s name) := by
  induction steps generalizing s with
  | nil => rfl
  | cons step rest ih =>
    rw [List.foldl_cons, ih, get?_apply, List.filter_cons]
    by_cases hname : step.name = name
    · rw [if_pos hname.symm, if_pos (by simpa using hname), List.foldl_cons]
    · rw [if_neg (Ne.symm hname), if_neg (by simpa using hname)]

/-- **What is known of an option comes from the steps about it alone.** -/
theorem get?_run (steps : List SchemaStep) (name : String) : Keyed.get? (run steps) name =
    (steps.filter fun step => step.name = name).foldl SchemaStep.change none :=
  get?_foldl_apply steps [] name

/-- **Steps about different options commute.** -/
theorem run_swap (before after : List SchemaStep) {a b : SchemaStep} (h : a.name ≠ b.name) :
    run (before ++ a :: b :: after) = run (before ++ b :: a :: after) := by
  refine Keyed.Ascending.ext (ascending_run _) (ascending_run _) fun name => ?_
  rw [get?_run, get?_run, List.filter_append, List.filter_append]
  -- at most one of the two steps is about the option
  by_cases ha : a.name = name
  · have hb : b.name ≠ name := fun hb => h (ha.trans hb.symm)
    rw [List.filter_cons_of_pos (by simpa using ha), List.filter_cons_of_neg (by simpa using hb),
      List.filter_cons_of_neg (by simpa using hb), List.filter_cons_of_pos (by simpa using ha)]
  · simp [List.filter_cons, ha]

/-! ### Resolving -/

theorem hasKind_iff {spec : OptionSpec} {value : Json} : hasKind spec value = true ↔
    spec.kinds = [] ∨ ∃ kind ∈ spec.kinds, kind.accepts value = true := by
  simp [hasKind]

theorem isChoice_iff {spec : OptionSpec} {value : Json} : isChoice spec value = true ↔
    (value.isNull = false → ∀ values, spec.choices = some values →
      ∃ choice ∈ values, choice.same value = true) := by
  unfold isChoice
  cases hnull : value.isNull <;> cases hchoices : spec.choices <;> simp

theorem valueOf_eq_ok {given : Record} {name : String} {spec : OptionSpec} {value : Json} :
    valueOf given name spec = .ok value ↔ (spec.required = true → name ∈ Keyed.keys given) ∧
      value = (Keyed.get? given name).getD spec.default := by
  rw [Keyed.mem_keys, valueOf]
  cases Keyed.get? given name with
  | some v => simp only [Option.isSome_some, implies_true, true_and, Option.getD_some,
      Except.ok.injEq, eq_comm]
  | none => cases spec.required <;> simp [eq_comm (a := spec.default)]

theorem resolveEntry_eq_ok {given : Record} {entry : String × OptionSpec} {out : String × Json} :
    resolveEntry given entry = .ok out ↔
      ((entry.2.required = true → entry.1 ∈ Keyed.keys given) ∧
        entry.2.Takes ((Keyed.get? given entry.1).getD entry.2.default)) ∧
      out = (entry.1, (Keyed.get? given entry.1).getD entry.2.default) := by
  unfold resolveEntry
  simp only [bind_eq_ok, guard_eq_ok, pure_eq_ok, valueOf_eq_ok, Bool.not_eq_true',
    Bool.not_eq_false, hasKind_iff, isChoice_iff]
  constructor
  · rintro ⟨_, ⟨hrequired, rfl⟩, hkind, hchoice, rfl⟩
    exact ⟨⟨hrequired, hkind, hchoice⟩, rfl⟩
  · rintro ⟨⟨hrequired, hkind, hchoice⟩, rfl⟩
    exact ⟨_, ⟨hrequired, rfl⟩, hkind, hchoice, rfl⟩

/-- **Resolving gives each option of the schema a value**: the given one, or the default. -/
theorem resolve_eq_ok {given options : Record} : s.resolve given = .ok options ↔
    ((∀ name ∈ Keyed.keys given, name ∈ Keyed.keys s) ∧
      ∀ entry ∈ s, (entry.2.required = true → entry.1 ∈ Keyed.keys given) ∧
        entry.2.Takes ((Keyed.get? given entry.1).getD entry.2.default)) ∧
      options = s.map fun entry => (entry.1, (Keyed.get? given entry.1).getD entry.2.default) := by
  have hknown : (∀ name ∈ Keyed.keys given, name ∈ Keyed.keys s) ↔
      given.find? (fun entry => (Keyed.get? s entry.1).isNone) = none := by
    rw [Keyed.keys, List.forall_mem_map, List.find?_eq_none]
    exact forall₂_congr fun entry _ => by
      rw [Keyed.mem_keys, Option.isSome_iff_ne_none]
      simp
  rw [hknown]
  unfold resolve
  split
  · next entry hentry => simp [hentry]
  · next hnone => simp [hnone, mapM_eq_ok_map fun x y => resolveEntry_eq_ok]

theorem admits_iff (h : Keyed.Ascending s) {given : Record} : s.Admits given ↔
    (∀ name ∈ Keyed.keys given, name ∈ Keyed.keys s) ∧
      ∀ entry ∈ s, (entry.2.required = true → entry.1 ∈ Keyed.keys given) ∧
        entry.2.Takes ((Keyed.get? given entry.1).getD entry.2.default) := by
  constructor
  · rintro ⟨hknown, hrequired, htaken⟩
    refine ⟨hknown, fun entry hentry => ?_⟩
    have hspec : Keyed.get? s entry.1 = some entry.2 := h.get?_of_mem hentry
    exact ⟨hrequired _ _ hspec, htaken _ _ hspec⟩
  · rintro ⟨hknown, hentries⟩
    exact ⟨hknown, fun name spec hspec => (hentries _ (Keyed.mem_of_get? hspec)).1,
      fun name spec hspec => (hentries _ (Keyed.mem_of_get? hspec)).2⟩

/-- **A schema resolves exactly the options that it admits**, whatever steps have built it. Each of
its options then has the value that was given, or its default, and there are no others. What is
known of an option comes from the steps about it alone, so that two steps about different options
may change places. -/
theorem resolve_run (steps : List SchemaStep) (given : Record) :
    ((∃ options, (run steps).resolve given = .ok options) ↔ (run steps).Admits given) ∧
    (∀ options, (run steps).resolve given = .ok options →
      Keyed.keys options = Keyed.keys (run steps) ∧
      ∀ name, Keyed.get? options name = (Keyed.get? (run steps) name).map fun spec =>
        (Keyed.get? given name).getD spec.default) ∧
    (∀ name, Keyed.get? (run steps) name =
      (steps.filter fun step => step.name = name).foldl SchemaStep.change none) ∧
    ∀ before a b after, steps = before ++ a :: b :: after → a.name ≠ b.name →
      run (before ++ b :: a :: after) = run steps := by
  refine ⟨?_, fun options hoptions => ?_, get?_run steps, ?_⟩
  · rw [admits_iff (ascending_run steps)]
    constructor
    · rintro ⟨options, hoptions⟩
      exact (resolve_eq_ok.mp hoptions).1
    · intro hadmits
      exact ⟨_, resolve_eq_ok.mpr ⟨hadmits, rfl⟩⟩
  · obtain ⟨-, rfl⟩ := resolve_eq_ok.mp hoptions
    refine ⟨by simp [Keyed.keys], fun name => ?_⟩
    exact Keyed.get?_map
      (fun name (spec : OptionSpec) => (Keyed.get? given name).getD spec.default) _ _
  · rintro before a b after rfl hname
    exact run_swap before after hname.symm

/-- A schema that starts from shared options, leaves one out, has another default for one and asks
for one more. -/
theorem resolve_run_attributes :
    let steps : List SchemaStep := [.define "title" .null [.null, .string],
      .define "searchable" (.bool true) [.bool], .define "join_type" (.str "left") [.string],
      .choices "join_type" [.str "left", .str "inner"], .remove "searchable",
      .setDefault "join_type" (.str "inner"), .require "attributes" [.object]]
    (run steps).Admits [("attributes", .obj [])] ∧
      (run steps).resolve [("attributes", .obj [])] =
        .ok [("attributes", .obj []), ("join_type", .str "inner"), ("title", .null)] ∧
      Keyed.get? (run steps) "searchable" = none ∧
      run (steps.take 4 ++ [.setDefault "join_type" (.str "inner"), .remove "searchable",
        .require "attributes" [.object]]) = run steps := by
  intro steps
  have hresolved : (run steps).resolve [("attributes", .obj [])] =
      .ok [("attributes", .obj []), ("join_type", .str "inner"), ("title", .null)] := by rfl
  obtain ⟨hadmits, -, hspec, hswap⟩ := resolve_run steps [("attributes", .obj [])]
  exact ⟨hadmits.mp ⟨_, hresolved⟩, hresolved, hspec "searchable",
    hswap (steps.take 4) (.remove "searchable") (.setDefault "join_type" (.str "inner"))
      [.require "attributes" [.object]] rfl (by decide)⟩

end OptionSchema

end TableQuery
