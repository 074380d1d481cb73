import TableQuery.Proofs.Text.Blank
import TableQuery.Text.Basic

/-! # Words between blanks

A text is blanks, a word, blanks and so on. `Text.blankPieces` gives its words: a blank ends a word
(`Text.blankPieces_append_cons`), and a word of a text is found where it stands
(`Text.blankPieces_eq_cons`). Words are compared without regard to the case of ASCII letters, which
leaves blanks as they are. -/

namespace TableQuery.Text

/-! ### Letter case -/

theorem forall_ascii {p : Char → Bool} (h : ∀ n < 128, p (Char.ofNat n) = true) {c : Char}
    (hc : c.toNat < 128) : p c = true := by
  rw [← Char.ofNat_toNat c]
  exact h _ hc

theorem toUpper_eq_self {c : Char} (h : 128 ≤ c.toNat) : c.toUpper = c := by
  refine dif_neg ?_
  rintro ⟨-, hz⟩
  have hz : c.toNat ≤ 122 := hz
  omega

theorem toLower_eq_self {c : Char} (h : 128 ≤ c.toNat) : c.toLower = c := by
  refine dif_neg ?_
  rintro ⟨-, hz⟩
  have hz : c.toNat ≤ 90 := hz
  omega

theorem toLower_of_isDigit {c : Char} (h : c.isDigit = true) : c.toLower = c := by
  have hnine : c.toNat ≤ 57 := of_decide_eq_true (Bool.and_eq_true_iff.mp h).2
  refine dif_neg ?_
  rintro ⟨hletter, -⟩
  have hletter : 65 ≤ c.toNat := hletter
  omega

theorem lt_of_toLower_eq {c k : Char} (h : c.toLower = k) (hk : k.toNat < 128) : c.toNat < 128 := by
  by_contra hc
  rw [toLower_eq_self (not_lt.mp hc)] at h
  exact hc (h ▸ hk)

/-- What holds of a character that keeps its case, and of ASCII, holds of every character. -/
theorem forall_changed {f : Char → Char} (hf : ∀ c : Char, 128 ≤ c.toNat → f c = c)
    {p : Char → Char → Bool} (hself : ∀ c, p c c = true)
    (hascii : ∀ n < 128, p (Char.ofNat n) (f (Char.ofNat n)) = true) (c : Char) :
    p c (f c) = true := by
  by_cases hc : c.toNat < 128
  · exact forall_ascii (p := fun c => p c (f c)) hascii hc
  · rw [hf c (not_lt.mp hc)]
    exact hself c

theorem toLower_toUpper (c : Char) : c.toUpper.toLower = c.toLower :=
  beq_iff_eq.mp (forall_changed (fun _ => toUpper_eq_self) (p := fun c d => d.toLower == c.toLower)
    (by simp) (by decide +kernel) c)

theorem map_toLower_of_map_toUpper {word upper : List Char} (h : word.map Char.toUpper = upper) :
    word.map Char.toLower = upper.map Char.toLower := by
  rw [← h, List.map_map]
  exact List.map_congr_left fun c _ => (toLower_toUpper c).symm

theorem toUpper_eq_of_not_isUpper {c : Char} (h : c.toUpper.isUpper = false) : c.toUpper = c := by
  have hletter := forall_changed (fun _ => toUpper_eq_self) (p := fun c d => d.isUpper || d == c)
    (by simp) (by decide +kernel) c
  rw [h, Bool.false_or] at hletter
  exact beq_iff_eq.mp hletter

theorem isBlank_toUpper (c : Char) : isBlank c.toUpper = isBlank c :=
  beq_iff_eq.mp (forall_changed (fun _ => toUpper_eq_self) (p := fun c d => isBlank d == isBlank c)
    (by simp) (by decide +kernel) c)

theorem isIdentifierChar_toLower (c : Char) : isIdentifierChar c.toLower = isIdentifierChar c :=
  beq_iff_eq.mp (forall_changed (fun _ => toLower_eq_self)
    (p := fun c d => isIdentifierChar d == isIdentifierChar c) (by simp) (by decide +kernel) c)

theorem eqIgnoringCase_iff {s t : String} :
    eqIgnoringCase s t = true ↔ s.toList.map Char.toLower = t.toList.map Char.toLower := by
  rw [eqIgnoringCase, beq_iff_eq, asciiLower, asciiLower, String.ofList_inj]

/-! ### Words -/

theorem blankPieces_append_cons {c : Char} (hc : isBlank c = true) (before after : List Char) :
    blankPieces (before ++ c :: after) = blankPieces before ++ blankPieces after := by
  rw [blankPieces, List.splitOnP_append_cons before after hc, List.filter_append]
  rfl

theorem blankPieces_blank_append {before : List Char} (h : before.all isBlank = true)
    (cs : List Char) : blankPieces (before ++ cs) = blankPieces cs := by
  induction before with
  | nil => rfl
  | cons c before ih =>
    rw [List.all_cons, Bool.and_eq_true] at h
    rw [List.cons_append, ← ih h.2]
    exact blankPieces_append_cons h.1 [] _

theorem blankPieces_of_all {cs : List Char} (h : cs.all isBlank = true) : blankPieces cs = [] := by
  rw [← List.append_nil cs, blankPieces_blank_append h]
  rfl

theorem blankPieces_append_blank {after : List Char} (h : after.all isBlank = true)
    (cs : List Char) : blankPieces (cs ++ after) = blankPieces cs := by
  cases after with
  | nil => rw [List.append_nil]
  | cons c after =>
    rw [List.all_cons, Bool.and_eq_true] at h
    rw [blankPieces_append_cons h.1, blankPieces_of_all h.2, List.append_nil]

theorem blankPieces_around {before after : List Char} (hbefore : before.all isBlank = true)
    (hafter : after.all isBlank = true) (cs : List Char) :
    blankPieces (before ++ cs ++ after) = blankPieces cs := by
  rw [blankPieces_append_blank hafter, blankPieces_blank_append hbefore]

theorem blankPieces_word_append {word rest : List Char} (hne : word ≠ [])
    (hword : ∀ c ∈ word, isBlank c = false) (hrest : ∀ c ∈ rest.head?, isBlank c = true) :
    blankPieces (word ++ rest) = word :: blankPieces rest := by
  have hone : blankPieces word = [word] := by
    simp [blankPieces, List.splitOnP_eq_singleton hword, hne]
  cases rest with
  | nil => rw [List.append_nil, hone]; rfl
  | cons c rest =>
    have hc := hrest c rfl
    rw [blankPieces_append_cons hc, hone]
    exact congrArg (word :: ·) (blankPieces_append_cons hc [] rest).symm

theorem exists_first_word (cs : List Char) : cs.all isBlank = true ∨ ∃ before word rest,
    cs = before ++ word ++ rest ∧ before.all isBlank = true ∧ word ≠ [] ∧
      (∀ c ∈ word, isBlank c = false) ∧ ∀ c ∈ rest.head?, isBlank c = true := by
  have hcs : cs.takeWhile isBlank ++ trimLeft cs = cs := List.takeWhile_append_dropWhile
  cases htext : trimLeft cs with
  | nil =>
    rw [htext, List.append_nil] at hcs
    exact .inl (hcs ▸ List.all_takeWhile)
  | cons c text =>
    have hsplit : (c :: text).takeWhile (!isBlank ·) ++ (c :: text).dropWhile (!isBlank ·) =
        c :: text := List.takeWhile_append_dropWhile
    refine .inr ⟨cs.takeWhile isBlank, (c :: text).takeWhile (!isBlank ·),
      (c :: text).dropWhile (!isBlank ·), ?_, List.all_takeWhile, ?_,
      fun d hd => ?_, fun d hd => ?_⟩
    · rw [List.append_assoc, hsplit, ← htext, hcs]
    · have hhead := List.head?_dropWhile_not isBlank cs
      rw [← trimLeft, htext] at hhead
      have hc : isBlank c = false := by simpa using hhead
      simp [hc]
    · simpa using List.all_eq_true.mp List.all_takeWhile d hd
    · have hhead := List.head?_dropWhile_not (!isBlank ·) (c :: text)
      rw [hd] at hhead
      simpa using hhead

theorem blankPieces_eq_nil {cs : List Char} : blankPieces cs = [] ↔ cs.all isBlank = true := by
  refine ⟨fun h => ?_, blankPieces_of_all⟩
  obtain hblank | ⟨before, word, rest, rfl, hbefore, hne, hword, hrest⟩ := exists_first_word cs
  · exact hblank
  · rw [List.append_assoc, blankPieces_blank_append hbefore,
      blankPieces_word_append hne hword hrest] at h
    cases h

/-- **Words are found where they stand**: behind some blanks the text begins with its first word,
and behind that the other words are found. -/
theorem blankPieces_eq_cons {cs word : List Char} {words : List (List Char)}
    (h : blankPieces cs = word :: words) : ∃ before rest, cs = before ++ word ++ rest ∧
      before.all isBlank = true ∧ (∀ c ∈ word, isBlank c = false) ∧
      (∀ c ∈ rest.head?, isBlank c = true) ∧ blankPieces rest = words := by
  obtain hblank | ⟨before, word', rest, rfl, hbefore, hne, hword, hrest⟩ := exists_first_word cs
  · rw [blankPieces_of_all hblank] at h
    cases h
  · rw [List.append_assoc, blankPieces_blank_append hbefore,
      blankPieces_word_append hne hword hrest] at h
    obtain ⟨rfl, hwords⟩ := List.cons.inj h
    exact ⟨before, rest, rfl, hbefore, hword, hrest, hwords⟩

theorem blankPieces_eq_singleton {cs word : List Char} (h : blankPieces cs = [word]) :
    ∃ before after, cs = before ++ word ++ after ∧ before.all isBlank = true ∧
      after.all isBlank = true ∧ ∀ c ∈ word, isBlank c = false := by
  obtain ⟨before, after, htext, hbefore, hword, -, hafter⟩ := blankPieces_eq_cons h
  exact ⟨before, after, htext, hbefore, blankPieces_eq_nil.mp hafter, hword⟩

theorem isBlank_of_mem_blankPieces {cs : List Char} : ∀ word ∈ blankPieces cs, ∀ c ∈ word,
    isBlank c = false := by
  induction hwords : blankPieces cs generalizing cs with
  | nil => exact fun _ h => nomatch h
  | cons word words ih =>
    obtain ⟨before, rest, -, -, hword, -, hrest⟩ := blankPieces_eq_cons hwords
    exact List.forall_mem_cons.mpr ⟨hword, ih hrest⟩

theorem blankPieces_map_toUpper (cs : List Char) :
    blankPieces (cs.map Char.toUpper) = (blankPieces cs).map (List.map Char.toUpper) := by
  have hsplit : (cs.map Char.toUpper).splitOnP isBlank =
      (cs.splitOnP isBlank).map (List.map Char.toUpper) := by
    induction cs with
    | nil => rfl
    | cons c cs ih =>
      rw [List.map_cons, List.splitOnP_cons_eq_if_modifyHead, List.splitOnP_cons_eq_if_modifyHead,
        isBlank_toUpper, ih]
      split
      · rfl
      · cases hpieces : cs.splitOnP isBlank with
        | nil => exact absurd hpieces (List.splitOnP_ne_nil isBlank cs)
        | cons piece pieces => rfl
  rw [blankPieces, hsplit, List.filter_map, blankPieces]
  simp [Function.comp_def]

end TableQuery.Text
