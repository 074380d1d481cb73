import TableQuery.Proofs.Sql.Alternatives

/-! # Conditions with AND and OR between them

A condition with an OR behind it, and another condition behind that, holds iff one of the two does
(`holds_or`). All that is asked of the first one is that it closes its parentheses. With an AND it
is another matter. The AND must not belong to a BETWEEN of the first condition, so the place behind
the first one has to be free (`Place.behind`). And an OR in one of the two binds weaker than the AND
between them: if the second condition has none, the whole holds only if the first one does
(`Holds.and_left`), and if the first one has none, only if the second one does
(`Holds.and_right`). -/

namespace TableQuery

/-! ### Places -/

namespace Place

/-- The place behind a token, where an OR outside of parentheses begins an alternative. -/
def after (p : Place) (t : Token) : Place :=
  if t = .or ∧ p.depth = 0 then ⟨0, 0⟩ else p.next t

/-- The place behind some tokens. -/
def behind (p : Place) (ts : List Token) : Place := ts.foldl after p

theorem behind_append (p : Place) (ts us : List Token) :
    p.behind (ts ++ us) = (p.behind ts).behind us := List.foldl_append

/-- Inside of parentheses nothing is counted but parentheses. -/
theorem behind_inside {ts : List Token} {depth next : Nat}
    (h : levels true depth ts = some next) (betweens : Nat) :
    behind ⟨depth + 1, betweens⟩ ts = ⟨next + 1, betweens⟩ := by
  induction ts generalizing depth with
  | nil =>
    cases h
    rfl
  | cons t ts ih =>
    rw [levels, Option.bind_eq_some_iff] at h
    obtain ⟨d, hd, h⟩ := h
    rw [behind, List.foldl_cons, after, if_neg (by simp), next_inside hd]
    exact ih h

/-- **Parentheses leave the place as it was.** -/
theorem behind_parens {ts : List Token} (h : levels true 0 ts = some 0) :
    behind ⟨0, 0⟩ (.opening :: ts ++ [.closing]) = ⟨0, 0⟩ := by
  rw [behind_append, behind, List.foldl_cons]
  show behind (behind ⟨0 + 1, 0⟩ ts) [.closing] = _
  rw [behind_inside h]
  rfl

end Place

/-! ### The alternatives of two conditions -/

namespace Alternatives

/-- Alternatives with an AND behind the last one, and others behind the AND: the operands of the
last one and of the first one come together. -/
def conjoin : Alternatives → Alternatives → Alternatives
  | [operands], others :: rest => (operands ++ others) :: rest
  | operands :: as, bs => operands :: conjoin as bs
  | [], bs => bs

variable {as bs : Alternatives} {operands others : List (List Token)}

theorem conjoin_cons (has : as ≠ []) : conjoin (operands :: as) bs = operands :: conjoin as bs := by
  cases as with
  | nil => exact absurd rfl has
  | cons a as => rfl

theorem conjoin_map_head {f : List (List Token) → List (List Token)}
    (hf : ∀ others, f (operands ++ others) = f operands ++ others) :
    ∃ first rest, conjoin (operands :: as) (others :: bs) = first :: rest ∧
      conjoin (f operands :: as) (others :: bs) = f first :: rest := by
  cases as with
  | nil => exact ⟨_, _, rfl, by rw [hf]; rfl⟩
  | cons a as => exact ⟨_, _, rfl, rfl⟩

/-- **An alternative of both** has the operands of one of the first, if there is one behind it. -/
theorem exists_left (h : operands ∈ conjoin as [others]) (has : as ≠ []) :
    ∃ a ∈ as, a ⊆ operands := by
  induction as with
  | nil => exact absurd rfl has
  | cons a as ih =>
    cases as with
    | nil =>
      rw [conjoin, List.mem_singleton] at h
      exact ⟨a, List.mem_cons_self, h ▸ List.subset_append_left a others⟩
    | cons a' as =>
      rw [conjoin_cons (List.cons_ne_nil a' as)] at h
      rcases List.mem_cons.mp h with rfl | h
      · exact ⟨operands, List.mem_cons_self, List.Subset.refl operands⟩
      · obtain ⟨b, hb, hsubset⟩ := ih h (List.cons_ne_nil a' as)
        exact ⟨b, List.mem_cons_of_mem a hb, hsubset⟩

theorem exists_right (h : operands ∈ conjoin [others] bs) (hbs : bs ≠ []) :
    ∃ b ∈ bs, b ⊆ operands := by
  cases bs with
  | nil => exact absurd rfl hbs
  | cons b bs =>
    rcases List.mem_cons.mp h with rfl | h
    · exact ⟨b, List.mem_cons_self, List.subset_append_right others b⟩
    · exact ⟨operands, List.mem_cons_of_mem b h, List.Subset.refl operands⟩

end Alternatives

theorem exists_first (p : Place) (ts : List Token) : ∃ operand operands rest,
    alternatives p ts = (operand :: operands) :: rest := by
  induction ts generalizing p with
  | nil => exact ⟨_, _, _, rfl⟩
  | cons t ts ih =>
    rw [alternatives]
    split_ifs
    · exact ⟨_, _, _, rfl⟩
    · obtain ⟨operand, operands, rest, h⟩ := ih p
      exact ⟨[], _, rest, by rw [h]; rfl⟩
    · obtain ⟨operand, operands, rest, h⟩ := ih (p.next t)
      exact ⟨_, operands, rest, by rw [h]; rfl⟩

theorem alternatives_ne_nil (p : Place) (ts : List Token) : alternatives p ts ≠ [] := by
  obtain ⟨operand, operands, rest, h⟩ := exists_first p ts
  rw [h]
  exact List.cons_ne_nil _ rest

/-- **An OR outside of parentheses separates the alternatives in front of it from the others.** -/
theorem alternatives_or {ts : List Token} {p : Place} (h : levels true p.depth ts = some 0)
    (us : List Token) :
    alternatives p (ts ++ .or :: us) = alternatives p ts ++ alternatives ⟨0, 0⟩ us := by
  induction ts generalizing p with
  | nil =>
    have hdepth : p.depth = 0 := Option.some.inj h
    exact if_pos ⟨rfl, hdepth⟩
  | cons t ts ih =>
    rw [levels, Option.bind_eq_some_iff] at h
    obtain ⟨d, hd, h⟩ := h
    rw [List.cons_append, alternatives, alternatives]
    split_ifs with hor hand
    · obtain ⟨rfl, hdepth⟩ := hor
      have hzero : d = 0 := by simpa [Token.level, hdepth, eq_comm] using hd
      rw [ih (p := ⟨0, 0⟩) (hzero ▸ h)]
      rfl
    · obtain ⟨rfl, -, -⟩ := hand
      obtain rfl : p.depth = d := Option.some.inj hd
      obtain ⟨operand, operands, rest, hfirst⟩ := exists_first p ts
      rw [ih h, hfirst]
      rfl
    · obtain ⟨operand, operands, rest, hfirst⟩ := exists_first (p.next t) ts
      rw [ih (p := p.next t) (Place.next_depth hd ▸ h), hfirst]
      rfl

/-- **An AND at a free place brings the last alternative in front of it and the first one behind it
together.** -/
theorem alternatives_and {ts : List Token} {p : Place} (h : p.behind ts = ⟨0, 0⟩)
    (us : List Token) : alternatives p (ts ++ .and :: us) =
      (alternatives p ts).conjoin (alternatives ⟨0, 0⟩ us) := by
  obtain ⟨operand', operands', rest', hus⟩ := exists_first ⟨0, 0⟩ us
  rw [hus]
  induction ts generalizing p with
  | nil =>
    obtain rfl : p = ⟨0, 0⟩ := h
    have hstart : alternatives ⟨0, 0⟩ (.and :: us) = (alternatives ⟨0, 0⟩ us).start [] :=
      (if_neg (by simp)).trans (if_pos ⟨rfl, rfl, rfl⟩)
    rw [List.nil_append, hstart, hus]
    rfl
  | cons t ts ih =>
    rw [Place.behind, List.foldl_cons, Place.after] at h
    rw [List.cons_append, alternatives, alternatives]
    split_ifs at h ⊢ with hor hand
    · rw [ih h, Alternatives.conjoin_cons (alternatives_ne_nil _ ts)]
    · obtain ⟨rfl, hdepth, hbetweens⟩ := hand
      have hstay : p.next .and = p := by
        cases p
        simp_all [Place.next]
      rw [hstay] at h
      obtain ⟨operand, operands, rest, hfirst⟩ := exists_first p ts
      obtain ⟨first, others, hall, hstarted⟩ := @Alternatives.conjoin_map_head rest rest'
        (operand :: operands) (operand' :: operands') (List.cons []) fun _ => rfl
      rw [ih h, hfirst, hall, Alternatives.start, Alternatives.start, hstarted]
    · obtain ⟨operand, operands, rest, hfirst⟩ := exists_first (p.next t) ts
      rw [ih h, hfirst]
      cases rest <;> rfl

/-! ### What holds -/

section

variable {v : List Token → Prop} {ts us : List Token}

theorem holds_iff : Holds v ts ↔ ∃ operands ∈ alternatives ⟨0, 0⟩ ts,
    ∀ operand ∈ operands, OperandHolds v operand :=
  ⟨fun ⟨hmem, hall⟩ => ⟨_, hmem, hall⟩, fun ⟨_, hmem, hall⟩ => ⟨hmem, hall⟩⟩

/-- **With an OR between them, one of two conditions has to hold.** -/
theorem holds_or (hts : levels true 0 ts = some 0) :
    Holds v (ts ++ .or :: us) ↔ Holds v ts ∨ Holds v us := by
  simp only [holds_iff, alternatives_or (p := ⟨0, 0⟩) hts us, List.mem_append, or_and_right,
    exists_or]

/-- **A condition in parentheses holds iff it holds without them.** -/
theorem holds_parens (hts : levels true 0 ts = some 0) :
    Holds v (.opening :: ts ++ [.closing]) ↔ Holds v ts := by
  have hone : alternatives ⟨0, 0⟩ (.opening :: ts ++ [.closing]) =
      [[.opening :: ts ++ [.closing]]] := by
    have h := alternatives_parens hts 0 []
    rwa [List.append_nil, alternatives, Alternatives.foldr_extend, List.append_nil] at h
  refine ⟨fun h => h.of_mem hone hts List.mem_cons_self, fun h => ?_⟩
  refine .intro (hone ▸ List.mem_cons_self) fun operand hoperand => ?_
  rw [List.mem_singleton.mp hoperand]
  exact .parens (inner?_parens hts) h

/-- **With an AND between them, the first condition has to hold**, if the second one has no OR
outside of its parentheses. -/
theorem Holds.and_left (hts : Place.behind ⟨0, 0⟩ ts = ⟨0, 0⟩) (hus : levels false 0 us = some 0)
    (h : Holds v (ts ++ .and :: us)) : Holds v ts := by
  obtain ⟨others, hothers⟩ := exists_alternative (p := ⟨0, 0⟩) hus
  obtain ⟨hmem, hall⟩ := h
  rw [alternatives_and hts, hothers] at hmem
  obtain ⟨operands, hoperands, hsubset⟩ :=
    Alternatives.exists_left hmem (alternatives_ne_nil ⟨0, 0⟩ ts)
  exact ⟨hoperands, fun operand hoperand => hall operand (hsubset hoperand)⟩

/-- **The second one has to hold**, if the first one has no OR outside of its parentheses. -/
theorem Holds.and_right (hts : Place.behind ⟨0, 0⟩ ts = ⟨0, 0⟩) (hts' : levels false 0 ts = some 0)
    (h : Holds v (ts ++ .and :: us)) : Holds v us := by
  obtain ⟨others, hothers⟩ := exists_alternative (p := ⟨0, 0⟩) hts'
  obtain ⟨hmem, hall⟩ := h
  rw [alternatives_and hts, hothers] at hmem
  obtain ⟨operands, hoperands, hsubset⟩ :=
    Alternatives.exists_right hmem (alternatives_ne_nil ⟨0, 0⟩ us)
  exact ⟨hoperands, fun operand hoperand => hall operand (hsubset hoperand)⟩

/-- **With an AND between them, it is enough that both hold.** -/
theorem Holds.and (hts : Place.behind ⟨0, 0⟩ ts = ⟨0, 0⟩) (hts' : levels false 0 ts = some 0)
    (hus : levels false 0 us = some 0) (ht : Holds v ts) (hu : Holds v us) :
    Holds v (ts ++ .and :: us) := by
  obtain ⟨operands, hoperands⟩ := exists_alternative (p := ⟨0, 0⟩) hts'
  obtain ⟨others, hothers⟩ := exists_alternative (p := ⟨0, 0⟩) hus
  have hall : ∀ operand ∈ operands, OperandHolds v operand := by
    simpa [holds_iff, hoperands] using ht
  have hall' : ∀ operand ∈ others, OperandHolds v operand := by
    simpa [holds_iff, hothers] using hu
  have hboth : alternatives ⟨0, 0⟩ (ts ++ .and :: us) = [operands ++ others] := by
    rw [alternatives_and hts, hoperands, hothers]
    rfl
  refine .intro (hboth ▸ List.mem_cons_self) fun operand hoperand => ?_
  exact (List.mem_append.mp hoperand).elim (hall operand) (hall' operand)

end

end TableQuery
