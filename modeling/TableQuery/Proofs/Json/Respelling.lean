import Mathlib.Data.List.Nodup
import TableQuery.Json.Decoder
import TableQuery.Proofs.Outcome

/-! # Values that are written in another way

A decoder respects a relation of written values if it reads from a value what it reads from every
value that is related to it (`Decoder.Respects`). Decoders of lists and records respect what their
parts respect: any items of a list and any members of a record may be written in another way
(`Decoder.Respects.list`, `Decoder.respects_record`). A member that would change nothing may be left
out of a record (`Decoder.record_leaveOut`). -/

namespace TableQuery.Json

open Outcome

/-! ### Other ways to write a value -/

/-- Ways to write a value in place of another. -/
abbrev Respelling := Written → Written → Prop

/-- Both are ways to write one and the same thing. -/
def SameThing {α : Type} (writes : α → Written → Prop) : Respelling :=
  fun w w' => ∃ a, writes a w ∧ writes a w'

/-- Lists whose items are kept or written in another way. -/
inductive SameList (rel : Respelling) : Respelling
  | items {ws ws' : List Written} {finished : Bool}
    (h : List.Forall₂ (fun w w' => w = w' ∨ rel w w') ws ws') :
    SameList rel (.arr ws finished) (.arr ws' finished)

/-- The fields of a record in their order, with the ways to write their values. -/
abbrev FieldTable := List (String × Respelling)

/-- A member is kept, or the value of a field is written in another way. -/
def SameMember (table : FieldTable) (m m' : Option String × Written) : Prop :=
  m = m' ∨ ∃ key rel, (key, rel) ∈ table ∧ m.1 = some key ∧ m'.1 = some key ∧ rel m.2 m'.2

theorem SameMember.of_mem {table : FieldTable} {key : String} {rel : Respelling} {w w' : Written}
    (hentry : (key, rel) ∈ table) (h : rel w w') : SameMember table (some key, w) (some key, w') :=
  .inr ⟨key, rel, hentry, rfl, rfl, h⟩

/-- Values of the fields in their order that are kept or written in another way. -/
inductive SameFields : FieldTable → List Written → List Written → Prop
  | rest {table : FieldTable} (ws : List Written) : SameFields table ws ws
  | field {key : String} {rel : Respelling} {table : FieldTable} {w w' : Written}
    {ws ws' : List Written} (h : w = w' ∨ rel w w') (hrest : SameFields table ws ws') :
    SameFields ((key, rel) :: table) (w :: ws) (w' :: ws')

theorem SameFields.length_eq {table : FieldTable} {ws ws' : List Written}
    (h : SameFields table ws ws') : ws.length = ws'.length := by
  induction h with
  | rest => rfl
  | field _ _ ih => rw [List.length_cons, List.length_cons, ih]

/-- Records whose values are kept or written in another way: objects, and lists of the fields. -/
inductive SameRecord (table : FieldTable) : Respelling
  | members {ms ms' : List (Option String × Written)} {finished : Bool}
    (h : List.Forall₂ (SameMember table) ms ms') :
    SameRecord table (.obj ms finished) (.obj ms' finished)
  | fields {ws ws' : List Written} {finished : Bool} (h : SameFields table ws ws') :
    SameRecord table (.arr ws finished) (.arr ws' finished)

namespace Decoder

variable {α β : Type}

/-! ### Decoders that do not see the difference -/

/-- What the decoder reads from a value, it reads from the values related to it. -/
def Respects (d : Decoder α) (rel : Respelling) : Prop :=
  ∀ w w', rel w w' → ∀ a, d w = .ok a → d w' = .ok a

/-- What reading a field makes of a record does not depend on how its value is written. -/
def Field.Respects (f : Field α) (rel : Respelling) : Prop := ∀ r, Decoder.Respects (f.read r) rel

theorem respects_eq (d : Decoder α) : d.Respects Eq := by
  rintro w _ rfl a h
  exact h

theorem Respects.or_eq {d : Decoder α} {rel : Respelling} (h : d.Respects rel) :
    d.Respects fun w w' => w = w' ∨ rel w w' := by
  rintro w w' (rfl | hrel) a ha
  · exact ha
  · exact h w w' hrel a ha

/-- A decoder that finds the thing that is written does not see how. -/
theorem respects_sameThing {d : Decoder β} {writes : α → Written → Prop} {f : α → Except Fault β}
    (h : ∀ a w, writes a w → d w = f a) : d.Respects (SameThing writes) := by
  rintro w w' ⟨a, hw, hw'⟩ b hb
  rw [h a w' hw', ← h a w hw, hb]

theorem Respects.optional {d : Decoder α} {rel : Respelling} (h : d.Respects rel)
    (hnull : ∀ w w', rel w w' → w ≠ .null ∧ w' ≠ .null) : (optional d).Respects rel := by
  intro w w' hrel a ha
  obtain ⟨hw, hw'⟩ := hnull w w' hrel
  rw [Decoder.optional.eq_2 _ _ hw, map_eq_ok] at ha
  rw [Decoder.optional.eq_2 _ _ hw', map_eq_ok]
  obtain ⟨b, hb, rfl⟩ := ha
  exact ⟨b, h w w' hrel b hb, rfl⟩

/-- Any items of a list may be written in another way. -/
theorem Respects.list {d : Decoder α} {rel : Respelling} (h : d.Respects rel) :
    (list d).Respects (SameList rel) := by
  rintro w w' ⟨hitems⟩ as has
  simp only [Decoder.list, bind_eq_ok] at has ⊢
  obtain ⟨values, hvalues, hfinished⟩ := has
  exact ⟨values, mapM_related h.or_eq hitems hvalues, hfinished⟩

theorem respects_field {name : String} {d : Decoder β} {set : α → β → α} {rel : Respelling}
    (h : d.Respects rel) : (field name d set).Respects rel := by
  intro r w w' hrel r' hr
  obtain ⟨b, hb, rfl⟩ := map_eq_ok.mp hr
  exact map_eq_ok.mpr ⟨b, h w w' hrel b hb, rfl⟩

theorem respects_needed {name : String} {d : Decoder β} {set : α → β → α} {rel : Respelling}
    (h : d.Respects rel) : (needed name d set).Respects rel := by
  have hfield : (field name d set).Respects rel := respects_field h
  exact hfield

/-! ### Records -/

/-- The table has the fields with their names and respects how they are read. -/
structure Fits (fields : List (Field α)) (table : FieldTable) : Prop where
  names : (fields.map Field.name).Nodup
  respects : List.Forall₂ (fun f entry => f.name = entry.1 ∧ f.Respects entry.2) fields table

theorem find?_field {fields : List (Field α)} (hnames : (fields.map Field.name).Nodup) {f : Field α}
    (hf : f ∈ fields) : fields.find? (fun g => g.name == f.name) = some f := by
  have hsome : (fields.find? fun g => g.name == f.name).isSome = true :=
    List.find?_isSome.mpr ⟨f, hf, beq_self_eq_true _⟩
  obtain ⟨g, hg⟩ := Option.isSome_iff_exists.mp hsome
  have hname : g.name = f.name := by simpa using List.find?_some hg
  rw [hg, List.inj_on_of_nodup_map hnames (List.mem_of_find?_eq_some hg) hf hname]

theorem Fits.exists_find? {fields : List (Field α)} {table : FieldTable} (h : Fits fields table)
    {key : String} {rel : Respelling} (hentry : (key, rel) ∈ table) :
    ∃ f, fields.find? (fun g => g.name == key) = some f ∧ f.Respects rel := by
  obtain ⟨f, hf, hname, hrel⟩ := exists_of_mem_right h.respects hentry
  have hfind := find?_field h.names hf
  rw [hname] at hfind
  exact ⟨f, hfind, hrel⟩

/-- **What one member does**: its key is looked up; a member without a field is skipped, and a field
that is read is not read again. -/
theorem memberStep_eq_ok {fields : List (Field α)} {r r' : α} {seen seen' : List String}
    {m : Option String × Written} : memberStep fields (r, seen) m = .ok (r', seen') ↔
      ∃ key, m.1 = some key ∧
        ((fields.find? (fun f => f.name == key) = none ∧ isComplete m.2 = true ∧ r' = r ∧
            seen' = seen) ∨
          ∃ f, fields.find? (fun f => f.name == key) = some f ∧ key ∉ seen ∧
            f.read r m.2 = .ok r' ∧ seen' = key :: seen) := by
  obtain ⟨k, w⟩ := m
  cases k with
  | none => simp [memberStep, Decoder.key, bind, Except.bind]
  | some key =>
    have hkey : Decoder.key (some key) = .ok key := rfl
    simp only [memberStep, hkey, bind_eq_ok, Except.ok.injEq, exists_eq_left', Option.some.injEq]
    cases hfind : fields.find? fun f => f.name == key with
    | none =>
      by_cases hcomplete : isComplete w = true
      · simp [hcomplete, pure_eq_ok]
      · simp [hcomplete]
    | some f =>
      simp only [guard_eq_ok, bind_eq_ok, pure_eq_ok, reduceCtorEq, false_and, false_or,
        Option.some.injEq, exists_eq_left', Prod.mk.injEq, List.contains_iff_mem]
      constructor
      · rintro ⟨hseen, r₁, hread, rfl, rfl⟩
        exact ⟨hseen, hread, rfl⟩
      · rintro ⟨hseen, hread, rfl⟩
        exact ⟨hseen, r', hread, rfl, rfl⟩

theorem record_members_eq_ok {fields : List (Field α)} {start a : α}
    {ms : List (Option String × Written)} {finished : Bool} :
    record fields start (.obj ms finished) = .ok a ↔
      ∃ seen, ms.foldlM (memberStep fields) (start, []) = .ok (a, seen) ∧ finished = true ∧
        ∀ f ∈ fields, f.required = true → f.name ∈ seen := by
  have hcheck (seen : List String) :
      ¬ (!finished || fields.any (fun f => f.required && !seen.contains f.name)) = true ↔
        finished = true ∧ ∀ f ∈ fields, f.required = true → f.name ∈ seen := by
    simp
  simp only [record, bind_eq_ok, guard_eq_ok, pure_eq_ok, hcheck]
  constructor
  · rintro ⟨⟨r, seen⟩, hrun, hend, rfl⟩
    exact ⟨seen, hrun, hend⟩
  · rintro ⟨seen, hrun, hend⟩
    exact ⟨(a, seen), hrun, hend, rfl⟩

theorem Fits.memberStep_eq_ok {fields : List (Field α)} {table : FieldTable} (h : Fits fields table)
    {m m' : Option String × Written} (hm : SameMember table m m') {state state' : α × List String}
    (hstep : memberStep fields state m = .ok state') :
    memberStep fields state m' = .ok state' := by
  rcases hm with rfl | ⟨key, rel, hentry, hkey, hkey', hrel⟩
  · exact hstep
  · obtain ⟨f, hfind, hf⟩ := h.exists_find? hentry
    obtain ⟨key₁, hkey₁, hstep⟩ := Decoder.memberStep_eq_ok.mp hstep
    obtain rfl : key = key₁ := Option.some.inj (hkey.symm.trans hkey₁)
    refine Decoder.memberStep_eq_ok.mpr ⟨key, hkey', .inr ⟨f, hfind, ?_⟩⟩
    rcases hstep with ⟨hnone, -⟩ | ⟨f₁, hfind₁, hseen, hread, hstate⟩
    · rw [hfind] at hnone
      cases hnone
    · rw [hfind] at hfind₁
      cases hfind₁
      exact ⟨hseen, hf state.1 _ _ hrel _ hread, hstate⟩

theorem forall₂_itemStep {fields : List (Field α)} {table : FieldTable}
    (hfields : List.Forall₂ (fun f entry => f.name = entry.1 ∧ f.Respects entry.2) fields table)
    {ws ws' : List Written} (h : SameFields table ws ws') :
    List.Forall₂ (fun item item' => ∀ r a, itemStep r item = .ok a → itemStep r item' = .ok a)
      (fields.zip ws) (fields.zip ws') := by
  induction h generalizing fields with
  | rest ws => exact List.forall₂_same.mpr fun _ _ _ _ h => h
  | field h _ ih =>
    cases hfields with
    | cons hf hfields => exact .cons (fun r => (hf.2 r).or_eq _ _ h) (ih hfields)

/-- **Any values of a record may be written in another way**, if the decoder of each field does not
see the difference. -/
theorem respects_record {fields : List (Field α)} {table : FieldTable} (h : Fits fields table)
    (start : α) : (record fields start).Respects (SameRecord table) := by
  rintro w w' hrel a ha
  cases hrel with
  | members hms =>
    obtain ⟨seen, hrun, hend⟩ := record_members_eq_ok.mp ha
    obtain ⟨_, hrun', rfl⟩ := foldlM_related (R := Eq)
      (fun s _ _ _ s' hs hm hstep => ⟨s', hs ▸ h.memberStep_eq_ok hm hstep, rfl⟩) hms rfl hrun
    exact record_members_eq_ok.mpr ⟨seen, hrun', hend⟩
  | fields hws =>
    simp only [record, bind_eq_ok] at ha ⊢
    obtain ⟨r, hrun, hend⟩ := ha
    obtain ⟨_, hrun', rfl⟩ := foldlM_related (R := Eq)
      (fun s _ _ _ s' hs hitem hstep => ⟨s', hs ▸ hitem s s' hstep, rfl⟩)
      (forall₂_itemStep h.respects hws) rfl hrun
    exact ⟨r, hrun', hws.length_eq ▸ hend⟩

/-! ### Members that are left out -/

/-- The keys are those of the other list and one more. -/
def HasAlso (key : String) (seen seen' : List String) : Prop :=
  ∀ name, name ∈ seen ↔ name = key ∨ name ∈ seen'

theorem HasAlso.cons {key : String} {seen seen' : List String} (h : HasAlso key seen seen')
    (key' : String) : HasAlso key (key' :: seen) (key' :: seen') := by
  intro name
  rw [List.mem_cons, List.mem_cons, h name]
  exact or_left_comm

theorem memberStep_of_hasAlso {fields : List (Field α)} {key : String} {r r' : α}
    {seen₁ seen₁' seen₂ : List String} {m : Option String × Written}
    (hseen : HasAlso key seen₁ seen₂) (h : memberStep fields (r, seen₁) m = .ok (r', seen₁')) :
    ∃ seen₂', memberStep fields (r, seen₂) m = .ok (r', seen₂') ∧ HasAlso key seen₁' seen₂' := by
  obtain ⟨k, hk, ⟨hnone, hcomplete, rfl, rfl⟩ | ⟨f, hfind, hnew, hread, rfl⟩⟩ :=
    memberStep_eq_ok.mp h
  · exact ⟨seen₂, memberStep_eq_ok.mpr ⟨k, hk, .inl ⟨hnone, hcomplete, rfl, rfl⟩⟩, hseen⟩
  · have hnew' : k ∉ seen₂ := fun hmem => hnew ((hseen k).mpr (.inr hmem))
    exact ⟨k :: seen₂, memberStep_eq_ok.mpr ⟨k, hk, .inr ⟨f, hfind, hnew', hread, rfl⟩⟩,
      hseen.cons k⟩

theorem foldlM_of_hasAlso {fields : List (Field α)} {key : String} {r r' : α}
    {seen₁ seen₁' seen₂ : List String} {ms : List (Option String × Written)}
    (hseen : HasAlso key seen₁ seen₂)
    (h : ms.foldlM (memberStep fields) (r, seen₁) = .ok (r', seen₁')) :
    ∃ seen₂', ms.foldlM (memberStep fields) (r, seen₂) = .ok (r', seen₂') ∧
      HasAlso key seen₁' seen₂' := by
  obtain ⟨⟨_, seen₂'⟩, hrun, rfl, hseen'⟩ := foldlM_related
    (R := fun s t => s.1 = t.1 ∧ HasAlso key s.2 t.2) (S := Eq) (g := memberStep fields)
    (t := (r, seen₂)) (by
      rintro ⟨r, seen⟩ ⟨_, seen'⟩ m _ ⟨r', seen''⟩ ⟨rfl, hseen⟩ rfl hstep
      obtain ⟨seen₃, hstep', hseen₃⟩ := memberStep_of_hasAlso hseen hstep
      exact ⟨(r', seen₃), hstep', rfl, hseen₃⟩)
    (List.forall₂_same.mpr fun _ _ => rfl) ⟨rfl, hseen⟩ h
  exact ⟨seen₂', hrun, hseen'⟩

section LeaveOut

variable {fields : List (Field α)} {start a : α} {f : Field α} {w : Written}

/-- As long as a field is not read, reading a value that would change nothing of the default changes
nothing, if other fields leave that as it is. -/
theorem read_of_not_mem (hstart : f.read start w = .ok start)
    (hkeep : ∀ g ∈ fields, g.name ≠ f.name → ∀ r v r', f.read r w = .ok r → g.read r v = .ok r' →
      f.read r' w = .ok r') {ms : List (Option String × Written)} {r : α} {seen : List String}
    (h : ms.foldlM (memberStep fields) (start, []) = .ok (r, seen)) (hunread : f.name ∉ seen) :
    f.read r w = .ok r := by
  refine foldlM_invariant (fun s => f.name ∉ s.2 → f.read s.1 w = .ok s.1) ms (fun m _ => ?_)
    (fun _ => hstart) h hunread
  rintro ⟨r, seen⟩ ⟨r', seen'⟩ hs hstep hunread
  obtain ⟨k, -, ⟨-, -, rfl, rfl⟩ | ⟨g, hfind, -, hread, rfl⟩⟩ := memberStep_eq_ok.mp hstep
  · exact hs hunread
  · rw [List.mem_cons, not_or] at hunread
    have hname : g.name = k := by simpa using List.find?_some hfind
    exact hkeep g (List.mem_of_find?_eq_some hfind) (hname ▸ Ne.symm hunread.1) r m.2 r'
      (hs hunread.2) hread

/-- **A member may be left out** if its field is not required and its value would change nothing. -/
theorem record_leaveOut (hnames : (fields.map Field.name).Nodup) (hf : f ∈ fields)
    (hrequired : f.required = false) (hstart : f.read start w = .ok start)
    (hkeep : ∀ g ∈ fields, g.name ≠ f.name → ∀ r v r', f.read r w = .ok r → g.read r v = .ok r' →
      f.read r' w = .ok r') {before after : List (Option String × Written)} {finished : Bool}
    (h : record fields start (.obj (before ++ (some f.name, w) :: after) finished) = .ok a) :
    record fields start (.obj (before ++ after) finished) = .ok a := by
  obtain ⟨seen, hrun, hfinished, hend⟩ := record_members_eq_ok.mp h
  rw [List.foldlM_append, bind_eq_ok] at hrun
  obtain ⟨⟨r, seen₁⟩, hbefore, hrun⟩ := hrun
  rw [List.foldlM_cons, bind_eq_ok] at hrun
  obtain ⟨⟨r₂, seen₂⟩, hstep, hafter⟩ := hrun
  have hfind := find?_field hnames hf
  obtain ⟨k, hk, hstep⟩ := memberStep_eq_ok.mp hstep
  obtain rfl := Option.some.inj hk
  simp only [hfind, reduceCtorEq, false_and, false_or, Option.some.injEq, exists_eq_left'] at hstep
  obtain ⟨hunread, hread, rfl⟩ := hstep
  rw [read_of_not_mem hstart hkeep hbefore hunread] at hread
  obtain rfl := Except.ok.inj hread
  have hseen : HasAlso f.name (f.name :: seen₁) seen₁ := fun _ => List.mem_cons
  obtain ⟨seen', hafter', hseen'⟩ := foldlM_of_hasAlso hseen hafter
  refine record_members_eq_ok.mpr ⟨seen', ?_, hfinished, fun g hg hg' => ?_⟩
  · rw [List.foldlM_append]
    exact bind_eq_ok.mpr ⟨(r, seen₁), hbefore, hafter'⟩
  · refine ((hseen' g.name).mp (hend g hg hg')).resolve_left fun hname => ?_
    rw [List.inj_on_of_nodup_map hnames hg hf hname, hrequired] at hg'
    cases hg'

end LeaveOut

end Decoder

end TableQuery.Json
