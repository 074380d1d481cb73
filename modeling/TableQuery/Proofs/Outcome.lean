import Mathlib.Data.List.Forall2

/-! # Steps that can fail

What is known of a run that succeeded: a sequence of two steps succeeds iff both do, a step for each
item of a list succeeds iff each does, a property that every step keeps holds at the end of a fold,
and what the steps of a fold append stands there in their order. -/

namespace TableQuery.Outcome

variable {ε α β σ τ : Type}

theorem bind_eq_ok {x : Except ε α} {f : α → Except ε β} {b : β} :
    (x >>= f) = .ok b ↔ ∃ a, x = .ok a ∧ f a = .ok b := by
  cases x with
  | error e => simp [bind, Except.bind]
  | ok a => simp [bind, Except.bind]

theorem bind_eq_error {x : Except ε α} {f : α → Except ε β} {e : ε} :
    (x >>= f) = .error e ↔ x = .error e ∨ ∃ a, x = .ok a ∧ f a = .error e := by
  cases x with
  | error e' => simp [bind, Except.bind]
  | ok a => simp [bind, Except.bind]

theorem map_eq_ok {x : Except ε α} {f : α → β} {b : β} :
    x.map f = .ok b ↔ ∃ a, x = .ok a ∧ b = f a := by
  cases x <;> simp [Except.map, eq_comm]

theorem mapError_eq_ok {δ : Type} {x : Except ε α} {f : ε → δ} {a : α} :
    x.mapError f = .ok a ↔ x = .ok a := by
  cases x <;> simp [Except.mapError]

theorem pure_eq_ok {a b : α} : (pure a : Except ε α) = .ok b ↔ b = a := by
  simp [pure, Except.pure, eq_comm]

theorem throw_bind_ne_ok {e : ε} {f : α → Except ε β} {b : β} : (throw e >>= f) ≠ .ok b := by
  simp [throw, throwThe, MonadExceptOf.throw, bind, Except.bind]

theorem guard_eq_ok {p : Prop} [Decidable p] {e : ε} {f : α → Except ε β} {x : Except ε β} {b : β} :
    (if p then (throw e >>= f) else x) = .ok b ↔ ¬ p ∧ x = .ok b := by
  by_cases h : p
  · simp [h, throw_bind_ne_ok]
  · simp [h]

theorem mapM_eq_ok {f : α → Except ε β} : ∀ {xs : List α} {ys : List β},
    xs.mapM f = .ok ys ↔ List.Forall₂ (fun x y => f x = .ok y) xs ys
  | [], ys => by cases ys <;> simp [pure, Except.pure]
  | x :: xs, ys => by
    rw [List.mapM_cons, bind_eq_ok, List.forall₂_cons_left_iff]
    constructor
    · rintro ⟨y, hy, h⟩
      obtain ⟨ys', hys, h⟩ := bind_eq_ok.mp h
      exact ⟨y, ys', hy, mapM_eq_ok.mp hys, pure_eq_ok.mp h⟩
    · rintro ⟨y, ys', hy, hys, rfl⟩
      exact ⟨y, hy, bind_eq_ok.mpr ⟨ys', mapM_eq_ok.mpr hys, rfl⟩⟩

theorem mapM_eq_ok_map {f : α → Except ε β} {p : α → Prop} {g : α → β}
    (hf : ∀ x y, f x = .ok y ↔ p x ∧ y = g x) {xs : List α} {ys : List β} :
    xs.mapM f = .ok ys ↔ (∀ x ∈ xs, p x) ∧ ys = xs.map g := by
  simp only [mapM_eq_ok, hf, List.forall₂_and_left]
  refine and_congr_right fun _ => ?_
  rw [← List.forall₂_eq_eq_eq, List.forall₂_map_right_iff]
  exact ⟨List.Forall₂.flip, List.Forall₂.flip⟩

theorem forM_eq_ok {f : α → Except ε Unit} : ∀ {xs : List α},
    xs.forM f = .ok () ↔ ∀ x ∈ xs, f x = .ok ()
  | [] => by simp [pure, Except.pure]
  | x :: xs => by
    rw [List.forM_eq_forM, List.forM_cons, bind_eq_ok, List.forall_mem_cons]
    constructor
    · rintro ⟨_, hx, hxs⟩
      exact ⟨hx, forM_eq_ok.mp hxs⟩
    · rintro ⟨hx, hxs⟩
      exact ⟨(), hx, forM_eq_ok.mpr hxs⟩

theorem mapM_map {γ : Type} {f : β → Except ε γ} {f' : α → Except ε γ} {g : α → β} {k : γ → γ} :
    ∀ {xs : List α}, (∀ x ∈ xs, f (g x) = k <$> f' x) →
      (xs.map g).mapM f = List.map k <$> xs.mapM f'
  | [], _ => rfl
  | x :: xs, h => by
    rw [List.map_cons, List.mapM_cons, List.mapM_cons, h x List.mem_cons_self,
      mapM_map fun y hy => h y (List.mem_cons_of_mem x hy)]
    simp only [bind_map_left, map_bind, map_pure, List.map_cons]

theorem exists_bind {x : Except ε α} {f : α → Except ε β} :
    (∃ b, (x >>= f) = .ok b) ↔ ∃ a, x = .ok a ∧ ∃ b, f a = .ok b := by
  simp only [bind_eq_ok]
  exact ⟨fun ⟨b, a, hx, hf⟩ => ⟨a, hx, b, hf⟩, fun ⟨a, hx, b, hf⟩ => ⟨b, a, hx, hf⟩⟩

theorem exists_mapM {f : α → Except ε β} : ∀ {xs : List α},
    (∃ ys, xs.mapM f = .ok ys) ↔ ∀ x ∈ xs, ∃ y, f x = .ok y
  | [] => by simp [pure, Except.pure]
  | x :: xs => by
    rw [List.forall_mem_cons, ← exists_mapM, List.mapM_cons]
    constructor
    · rintro ⟨ys, h⟩
      obtain ⟨y, hy, h⟩ := bind_eq_ok.mp h
      obtain ⟨ys', hys, -⟩ := bind_eq_ok.mp h
      exact ⟨⟨y, hy⟩, ys', hys⟩
    · rintro ⟨⟨y, hy⟩, ys, hys⟩
      exact ⟨y :: ys, bind_eq_ok.mpr ⟨y, hy, bind_eq_ok.mpr ⟨ys, hys, rfl⟩⟩⟩

/-- A check of the result shows that there is one. -/
theorem exists_ok {x : Except ε α} {p : α → Bool} (h : x.toOption.any p = true) :
    ∃ a, x = .ok a ∧ p a = true := by
  cases x with
  | error e => cases h
  | ok a => exact ⟨a, rfl, h⟩

theorem exists_of_mem_right {R : α → β → Prop} {xs : List α} {ys : List β}
    (h : List.Forall₂ R xs ys) {y : β} (hy : y ∈ ys) : ∃ x ∈ xs, R x y := by
  induction h with
  | nil => simp at hy
  | @cons x z xs zs hx _ ih =>
    rcases List.mem_cons.mp hy with rfl | hy
    · exact ⟨x, by simp, hx⟩
    · obtain ⟨x', hx', hr⟩ := ih hy
      exact ⟨x', List.mem_cons_of_mem x hx', hr⟩

theorem exists_append_of_forall₂ {R : α → β → Prop} {xs' : List α} : ∀ {xs : List α} {ys : List β},
    List.Forall₂ R (xs ++ xs') ys →
      ∃ zs zs', List.Forall₂ R xs zs ∧ List.Forall₂ R xs' zs' ∧ ys = zs ++ zs'
  | [], ys, h => ⟨[], ys, .nil, h, rfl⟩
  | _ :: _, _, .cons hx h => by
    obtain ⟨zs, zs', hzs, hzs', rfl⟩ := exists_append_of_forall₂ h
    exact ⟨_ :: zs, zs', .cons hx hzs, hzs', rfl⟩

/-- **A property that every successful step keeps holds after the fold.** -/
theorem foldlM_invariant {f : σ → α → Except ε σ} (P : σ → Prop) :
    ∀ (xs : List α) {s t : σ}, (∀ x ∈ xs, ∀ s t, P s → f s x = .ok t → P t) → P s →
      xs.foldlM f s = .ok t → P t
  | [], s, t, _, hs, h => by
    rw [List.foldlM_nil, pure_eq_ok] at h
    rwa [h]
  | x :: xs, s, t, hf, hs, h => by
    rw [List.foldlM_cons, bind_eq_ok] at h
    obtain ⟨s', hs', h⟩ := h
    exact foldlM_invariant P xs (fun y hy => hf y (List.mem_cons_of_mem x hy))
      (hf x List.mem_cons_self s s' hs hs') h

/-- **If every successful step appends one item that fits its own, a run appends a list of them**
that fit one by one. -/
theorem foldlM_forall₂ {f : σ → α → Except ε σ} {out : σ → List β} {R : α → β → Prop} :
    ∀ {xs : List α} {s t : σ}, xs.foldlM f s = .ok t →
      (∀ s x t, f s x = .ok t → ∃ y, out t = out s ++ [y] ∧ R x y) →
      ∃ ys, out t = out s ++ ys ∧ List.Forall₂ R xs ys
  | [], s, t, h, _ => by
    rw [List.foldlM_nil, pure_eq_ok] at h
    subst h
    exact ⟨[], (List.append_nil _).symm, .nil⟩
  | x :: xs, s, t, h, hstep => by
    rw [List.foldlM_cons, bind_eq_ok] at h
    obtain ⟨s', hs', h⟩ := h
    obtain ⟨y, hy, hx⟩ := hstep s x s' hs'
    obtain ⟨ys, hys, hxs⟩ := foldlM_forall₂ h hstep
    exact ⟨y :: ys, by rw [hys, hy, List.append_assoc, List.singleton_append], .cons hx hxs⟩

/-- **A fold succeeds** if every step does and keeps what the next one needs. -/
theorem exists_foldlM {f : σ → α → Except ε σ} (P : σ → Prop) :
    ∀ (xs : List α) {s : σ}, (∀ x ∈ xs, ∀ s, P s → ∃ t, f s x = .ok t ∧ P t) → P s →
      ∃ t, xs.foldlM f s = .ok t ∧ P t
  | [], s, _, hs => ⟨s, rfl, hs⟩
  | x :: xs, s, hf, hs => by
    obtain ⟨s', hs', hP⟩ := hf x List.mem_cons_self s hs
    obtain ⟨t, ht, hPt⟩ := exists_foldlM P xs (fun y hy => hf y (List.mem_cons_of_mem x hy)) hP
    exact ⟨t, by rw [List.foldlM_cons]; exact bind_eq_ok.mpr ⟨s', hs', ht⟩, hPt⟩

/-- **Two runs over related lists**: if each step of the second succeeds as the first one does, and
keeps the states related, then the second run succeeds as the first one does. -/
theorem foldlM_related {f : σ → α → Except ε σ} {g : τ → β → Except ε τ} {R : σ → τ → Prop}
    {S : α → β → Prop} (hstep : ∀ s t x y s', R s t → S x y → f s x = .ok s' →
      ∃ t', g t y = .ok t' ∧ R s' t') {xs : List α} {ys : List β} (h : List.Forall₂ S xs ys)
    {s s' : σ} {t : τ} (hR : R s t) (hs : xs.foldlM f s = .ok s') :
    ∃ t', ys.foldlM g t = .ok t' ∧ R s' t' := by
  induction h generalizing s t with
  | nil =>
    rw [List.foldlM_nil, pure_eq_ok] at hs
    subst hs
    exact ⟨t, rfl, hR⟩
  | @cons x y xs ys hxy _ ih =>
    rw [List.foldlM_cons, bind_eq_ok] at hs
    obtain ⟨s₁, hs₁, hs⟩ := hs
    obtain ⟨t₁, ht₁, hR₁⟩ := hstep s t x y s₁ hR hxy hs₁
    obtain ⟨t', ht', hR'⟩ := ih hR₁ hs
    exact ⟨t', by rw [List.foldlM_cons]; exact bind_eq_ok.mpr ⟨t₁, ht₁, ht'⟩, hR'⟩

theorem mapM_related {γ : Type} {f : α → Except ε γ} {g : β → Except ε γ} {S : α → β → Prop}
    (hstep : ∀ x y, S x y → ∀ c, f x = .ok c → g y = .ok c) {xs : List α} {ys : List β}
    (h : List.Forall₂ S xs ys) {cs : List γ} (hcs : xs.mapM f = .ok cs) :
    ys.mapM g = .ok cs := by
  rw [mapM_eq_ok] at hcs ⊢
  induction h generalizing cs with
  | nil => cases hcs; exact .nil
  | cons hxy _ ih =>
    cases hcs with
    | cons hc hcs => exact .cons (hstep _ _ hxy _ hc) (ih hcs)

end TableQuery.Outcome
