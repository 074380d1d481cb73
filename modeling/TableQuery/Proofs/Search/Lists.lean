import TableQuery.Proofs.Search.Coercion
import TableQuery.Proofs.Text.Split

/-! # Lists of values

A list is written with commas between its items. There may be blanks around an item, and blank
pieces anywhere (`HoldsItems`); neither makes a difference to the items that are read
(`HoldsItems.listItems_eq`). The items are typed one after the other, up to the first that the type
rejects (`acceptedItems_cases`). A list with a rejected item gives no predicate, and any other list
the predicate with all its values, in order (`SearchTerm.searchExpression_list`). -/

namespace TableQuery

/-! ### Written lists -/

/-- A text that can be an item of a list: not empty, without commas, and without blanks at its
ends. -/
structure IsListItem (item : String) : Prop where
  nonempty : item ≠ ""
  comma : ',' ∉ item.toList
  first : item.toList.head?.any Text.isBlank = false
  last : item.toList.getLast?.any Text.isBlank = false

instance (item : String) : Decidable (IsListItem item) :=
  decidable_of_iff (item ≠ "" ∧ ',' ∉ item.toList ∧ item.toList.head?.any Text.isBlank = false ∧
      item.toList.getLast?.any Text.isBlank = false)
    ⟨fun ⟨h1, h2, h3, h4⟩ => ⟨h1, h2, h3, h4⟩, fun ⟨h1, h2, h3, h4⟩ => ⟨h1, h2, h3, h4⟩⟩

/-- The pieces of a written list with the items: each item with any blanks around it, and any blank
pieces between the items, in front of them and behind them. -/
inductive HoldsItems : List String → List String → Prop
  | nil : HoldsItems [] []
  | blank {piece : String} {pieces items : List String} (hpiece : Text.isBlankText piece = true)
    (h : HoldsItems pieces items) : HoldsItems (piece :: pieces) items
  | item {before after : String} (item : String) {pieces items : List String}
    (hbefore : Text.isBlankText before = true) (hafter : Text.isBlankText after = true)
    (h : HoldsItems pieces items) :
    HoldsItems ((before ++ item ++ after) :: pieces) (item :: items)

theorem IsListItem.trim {item : String} (h : IsListItem item) : Text.trim item = item := by
  have hend : ∀ o : Option Char, o.any Text.isBlank = false → ∀ c ∈ o, Text.isBlank c = false := by
    rintro o ho c rfl
    exact ho
  exact Text.trim_of_ends (hend _ h.first) (hend _ h.last)

theorem comma_not_mem_blank {s : String} (h : Text.isBlankText s = true) : ',' ∉ s.toList :=
  fun hcomma => absurd (List.all_eq_true.mp h _ hcomma) (by decide)

namespace HoldsItems

variable {pieces items : List String}

theorem pieces_ne_nil (h : HoldsItems pieces items) (hne : items ≠ []) : pieces ≠ [] := by
  cases h with
  | nil => exact absurd rfl hne
  | blank => exact List.cons_ne_nil _ _
  | item => exact List.cons_ne_nil _ _

/-- Commas stand only between the pieces. -/
theorem comma_not_mem (h : HoldsItems pieces items) (hitems : ∀ item ∈ items, IsListItem item) :
    ∀ piece ∈ pieces, ',' ∉ piece.toList := by
  induction h with
  | nil => exact fun _ hmem => absurd hmem List.not_mem_nil
  | blank hpiece _ ih => exact List.forall_mem_cons.mpr ⟨comma_not_mem_blank hpiece, ih hitems⟩
  | item item hbefore hafter _ ih =>
    obtain ⟨hitem, hrest⟩ := List.forall_mem_cons.mp hitems
    refine List.forall_mem_cons.mpr ⟨?_, ih hrest⟩
    simp [comma_not_mem_blank hbefore, hitem.comma, comma_not_mem_blank hafter]

/-- What is left of the pieces without blanks around them and without the blank ones. -/
theorem trimmed (h : HoldsItems pieces items) (hitems : ∀ item ∈ items, IsListItem item) :
    (pieces.map Text.trim).filter (fun item => !item.isEmpty) = items := by
  induction h with
  | nil => rfl
  | blank hpiece _ ih =>
    rw [List.map_cons, List.filter_cons_of_neg (by simp [Text.isEmpty_trim, hpiece]), ih hitems]
  | item item hbefore hafter _ ih =>
    obtain ⟨hitem, hrest⟩ := List.forall_mem_cons.mp hitems
    have hnonempty : (!item.isEmpty) = true := by simpa using hitem.nonempty
    rw [List.map_cons, Text.trim_around hbefore hafter, hitem.trim, List.filter_cons,
      if_pos hnonempty, ih hrest]

/-- **The items of a written list** are read back. -/
theorem listItems_eq (h : HoldsItems pieces items) (hne : items ≠ [])
    (hitems : ∀ item ∈ items, IsListItem item) : listItems (",".intercalate pieces) = items := by
  rw [listItems, Text.piecesOf_intercalate rfl (h.pieces_ne_nil hne) (h.comma_not_mem hitems),
    h.trimmed hitems]

end HoldsItems

/-! ### Typed items -/

section Accepted

variable {type : Option FieldType} {items : List String} {values : List Value}

theorem acceptedItems_append (h : items.map (typedValue? type) = values.map some)
    (rest : List String) :
    acceptedItems type (items ++ rest) = values ++ acceptedItems type rest := by
  induction items generalizing values with
  | nil =>
    rw [List.map_eq_nil_iff.mp h.symm]
    rfl
  | cons item items ih =>
    cases values with
    | nil => cases h
    | cons value values =>
      obtain ⟨hitem, hrest⟩ := List.cons.inj h
      rw [List.cons_append, acceptedItems, hitem, List.cons_append]
      simp only [ih hrest]

theorem acceptedItems_of_rejected {item : String} (h : typedValue? type item = none) :
    acceptedItems type (item :: items) = [] := by
  rw [acceptedItems, h]

theorem acceptedItems_cases (type : Option FieldType) (items : List String) :
    items.map (typedValue? type) = (acceptedItems type items).map some ∨
    ∃ accepted rejected rest, items = accepted ++ rejected :: rest ∧
      accepted.map (typedValue? type) = (acceptedItems type items).map some ∧
      typedValue? type rejected = none := by
  induction items with
  | nil => exact .inl rfl
  | cons item items ih =>
    cases hitem : typedValue? type item with
    | none => exact .inr ⟨[], item, items, rfl, by rw [acceptedItems_of_rejected hitem]; rfl, hitem⟩
    | some value =>
      have hcons : acceptedItems type (item :: items) = value :: acceptedItems type items := by
        rw [acceptedItems, hitem]
      rw [hcons, List.map_cons, List.map_cons, hitem]
      rcases ih with hall | ⟨accepted, rejected, rest, rfl, hvalues, hrejected⟩
      · exact .inl (by rw [hall])
      · exact .inr ⟨item :: accepted, rejected, rest, rfl, by rw [List.map_cons, hitem, hvalues],
          hrejected⟩

theorem ne_none_of_map_eq (h : items.map (typedValue? type) = values.map some) :
    ∀ item ∈ items, typedValue? type item ≠ none := by
  intro item hitem hnone
  have hmem : none ∈ values.map some := h ▸ List.mem_map.mpr ⟨item, hitem, hnone⟩
  obtain ⟨value, -, hvalue⟩ := List.mem_map.mp hmem
  cases hvalue

end Accepted

/-! ### Search expressions -/

/-- The mode that looks for a value in the list or, negated, for one that is not in it. -/
def SearchMode.membership (negated : Bool) : SearchMode := if negated then .notAmong else .among

namespace SearchTerm

variable {term : SearchTerm} {names : Naming} {negated : Bool}

theorem searchExpression_membership : searchExpression term (.membership negated) names =
    searchAmong term negated names := by
  cases negated <;> rfl

theorem searchAmong_of_accepted {values : List Value} (hne : values ≠ [])
    (h : (listItems term.value).map (typedValue? term.type) = values.map some) :
    searchAmong term negated names =
      ⟨some (.among term.target negated (named names values)), values.length⟩ := by
  have hvalues : acceptedItems term.type (listItems term.value) = values := by
    have happend := acceptedItems_append h []
    rwa [List.append_nil, acceptedItems, List.append_nil] at happend
  have hlength : (listItems term.value).length = values.length := by
    simpa using congrArg List.length h
  simp only [searchAmong, hvalues, hlength, lt_self_iff_false, if_false, List.isEmpty_iff, hne]

/-- A list with a rejected item gives no predicate, but the items in front of it have used up their
names. -/
theorem searchAmong_of_rejected {accepted rest : List String} {rejected : String}
    {values : List Value} (hitems : listItems term.value = accepted ++ rejected :: rest)
    (haccepted : accepted.map (typedValue? term.type) = values.map some)
    (hrejected : typedValue? term.type rejected = none) :
    searchAmong term negated names = ⟨none, accepted.length⟩ := by
  have hvalues : acceptedItems term.type (listItems term.value) = values := by
    rw [hitems, acceptedItems_append haccepted, acceptedItems_of_rejected hrejected,
      List.append_nil]
  have hlength : accepted.length = values.length := by
    simpa using congrArg List.length haccepted
  have hshort : values.length < (listItems term.value).length := by
    rw [hitems, List.length_append, List.length_cons]
    omega
  simp only [searchAmong, hvalues, hshort, if_true, hlength]

/-- **Lists of values**: however a list is written, membership of it is one predicate with the typed
items, all of them and in order, under the first names; one rejected item, and there is none. -/
theorem searchExpression_list (target : Target) (type : Option FieldType) (negated : Bool)
    (names : Naming) {items pieces : List String} (hne : items ≠ [])
    (hitems : ∀ item ∈ items, IsListItem item) (h : HoldsItems pieces items) :
    (∀ values : List Value, items.map (typedValue? type) = values.map some →
      searchExpression ⟨target, ",".intercalate pieces, type⟩ (.membership negated) names =
        ⟨some (.among target negated (named names values)), values.length⟩) ∧
    ((∃ item ∈ items, typedValue? type item = none) →
      (searchExpression ⟨target, ",".intercalate pieces, type⟩ (.membership negated)
        names).predicate = none) := by
  have hread : listItems (",".intercalate pieces) = items := h.listItems_eq hne hitems
  rw [searchExpression_membership]
  constructor
  · intro values hvalues
    have hvalues_ne : values ≠ [] := by
      rintro rfl
      exact hne (List.map_eq_nil_iff.mp hvalues)
    exact searchAmong_of_accepted hvalues_ne (by rwa [hread])
  · rintro ⟨item, hitem, hnone⟩
    rcases acceptedItems_cases type items with
      hall | ⟨accepted, rejected, rest, hsplit, hvalues, hrejected⟩
    · exact absurd hnone (ne_none_of_map_eq hall item hitem)
    · have hnothing : searchAmong ⟨target, ",".intercalate pieces, type⟩ negated names =
          ⟨none, accepted.length⟩ :=
        searchAmong_of_rejected (hread.trans hsplit) hvalues hrejected
      rw [hnothing]

theorem searchExpression_list_views :
    HoldsItems ["", " " ++ "3" ++ "\t", "  ", "" ++ "-7" ++ ""] ["3", "-7"] ∧
      searchExpression ⟨.column "post" "views", ", 3\t,  ,-7", some .integer⟩ .notAmong
        (counterNames 100) =
        ⟨some (.among (.column "post" "views") true [⟨"p100", .int 3⟩, ⟨"p101", .int (-7)⟩]), 2⟩ ∧
      HoldsItems ["" ++ "3" ++ "", " " ++ "many" ++ ""] ["3", "many"] ∧
      (searchExpression ⟨.column "post" "views", "3, many", some .integer⟩ .among
        (globalNames 2 0)).predicate = none := by
  have hpieces : HoldsItems ["", " " ++ "3" ++ "\t", "  ", "" ++ "-7" ++ ""] ["3", "-7"] :=
    .blank rfl (.item "3" rfl rfl (.blank rfl (.item "-7" rfl rfl .nil)))
  have hvalue : ",".intercalate ["", " " ++ "3" ++ "\t", "  ", "" ++ "-7" ++ ""] =
      ", 3\t,  ,-7" := by decide
  have hlist := (searchExpression_list (.column "post" "views") (some .integer) true
    (counterNames 100) (by decide) (by decide) hpieces).1 [.int 3, .int (-7)] (by decide)
  have hpieces' : HoldsItems ["" ++ "3" ++ "", " " ++ "many" ++ ""] ["3", "many"] :=
    .item "3" rfl rfl (.item "many" rfl rfl .nil)
  have hvalue' : ",".intercalate ["" ++ "3" ++ "", " " ++ "many" ++ ""] = "3, many" := by decide
  have hnothing := (searchExpression_list (.column "post" "views") (some .integer) false
    (globalNames 2 0) (by decide) (by decide) hpieces').2 ⟨"many", by decide, by decide⟩
  rw [hvalue] at hlist
  rw [hvalue'] at hnothing
  exact ⟨hpieces, hlist, hpieces', hnothing⟩

end SearchTerm

end TableQuery
