import TableQuery.Sql.Identifier
import TableQuery.Sql.Target
import TableQuery.Proofs.Outcome
import TableQuery.Proofs.Text.Blank
import TableQuery.Proofs.Text.Split

/-! # Names between backticks

A name is quoted iff it is an identifier, and a path iff its pieces are, so that it may be cut at
each of its dots (`isIdentifierPath_append`). So a quoted name is made of few characters: identifier
characters, backticks and dots. In particular no quoted name holds a question mark, a blank or a
parenthesis. -/

namespace TableQuery

open Outcome

/-! ### Texts over a class of characters -/

/-- All characters of a text are of a class. -/
def Text.Over (p : Char → Bool) (s : String) : Prop := ∀ c ∈ s.toList, p c = true

namespace Text.Over

variable {p q : Char → Bool} {s t : String}

theorem of_all (h : s.toList.all p = true) : Over p s := List.all_eq_true.mp h

theorem append (hs : Over p s) (ht : Over p t) : Over p (s ++ t) := by
  intro c hc
  rw [String.toList_append, List.mem_append] at hc
  exact hc.elim (hs c) (ht c)

theorem mono (h : ∀ c, p c = true → q c = true) (hs : Over p s) : Over q s :=
  fun c hc => h c (hs c hc)

theorem join {l : List String} (h : ∀ s ∈ l, Over p s) : Over p (String.join l) := by
  intro c hc
  rw [String.toList_join, List.mem_flatMap] at hc
  obtain ⟨s, hs, hc⟩ := hc
  exact h s hs c hc

theorem intercalate {sep : String} (hsep : Over p sep) :
    ∀ {l : List String}, (∀ s ∈ l, Over p s) → Over p (sep.intercalate l)
  | [], _ => by rw [String.intercalate_nil]; intro c hc; simp at hc
  | [s], h => by rw [String.intercalate_singleton]; exact h s (by simp)
  | s :: t :: l, h => by
    rw [String.intercalate_cons_cons]
    refine ((h s (by simp)).append hsep).append (intercalate hsep fun u hu => h u ?_)
    exact List.mem_cons_of_mem s hu

end Text.Over

/-! ### What is quoted -/

theorem isIdentifier_over {name : String} (h : isIdentifier name = true) :
    Text.Over isIdentifierChar name := by
  unfold isIdentifier isIdentifierChars at h
  intro c hc
  split at h
  · cases h
  · next d cs hd =>
    rw [Bool.and_eq_true, List.all_eq_true] at h
    rw [hd, List.mem_cons] at hc
    rcases hc with rfl | hc
    · have := h.1
      simp only [isIdentifierStart, isIdentifierChar, Char.isAlphanum, Bool.or_eq_true] at this ⊢
      tauto
    · exact h.2 c hc

theorem isIdentifier_iff {name : String} : isIdentifier name = true ↔ ∃ c cs,
    name.toList = c :: cs ∧ isIdentifierStart c = true ∧ ∀ d ∈ cs, isIdentifierChar d = true := by
  unfold isIdentifier isIdentifierChars
  cases name.toList with
  | nil => simp
  | cons c cs => simp [List.all_eq_true, and_assoc]

theorem isDigit_of_isIdentifierStart {c : Char} (h : isIdentifierStart c = true) :
    c.isDigit = false := by
  rw [isIdentifierStart, Bool.or_eq_true, beq_iff_eq] at h
  rcases h with h | rfl
  · rw [Bool.eq_false_iff]
    intro hdigit
    -- the letters stand behind the digits
    have hletter : 'A'.val ≤ c.val := by
      rcases Bool.or_eq_true_iff.mp h with hupper | hlower
      · exact (of_decide_eq_true hupper).1
      · exact UInt32.le_trans (by decide) (of_decide_eq_true (Bool.and_eq_true_iff.mp hlower).1)
    have hnine : c.val ≤ '9'.val := of_decide_eq_true (Bool.and_eq_true_iff.mp hdigit).2
    exact absurd (UInt32.le_trans hletter hnine) (by decide)
  · decide

theorem isIdentifier_append {s t : String} (hs : isIdentifier s = true)
    (ht : Text.Over isIdentifierChar t) : isIdentifier (s ++ t) = true := by
  obtain ⟨c, cs, heq, hstart, hrest⟩ := isIdentifier_iff.mp hs
  refine isIdentifier_iff.mpr ⟨c, cs ++ t.toList, by rw [String.toList_append, heq]; rfl, hstart,
    fun d hd => ?_⟩
  exact (List.mem_append.mp hd).elim (hrest d) (ht d)

theorem isIdentifier_intercalate {names : List String} (hne : names ≠ [])
    (h : ∀ name ∈ names, isIdentifier name = true) :
    isIdentifier ("_".intercalate names) = true := by
  cases names with
  | nil => exact absurd rfl hne
  | cons name rest =>
    cases rest with
    | nil => simpa using h name
    | cons next rest =>
      rw [String.intercalate_cons_cons, String.append_assoc]
      refine isIdentifier_append (h name List.mem_cons_self) ?_
      refine Text.Over.append (.of_all (by decide)) (.intercalate (.of_all (by decide)) ?_)
      exact fun s hs => isIdentifier_over (h s (List.mem_cons_of_mem _ hs))

theorem checkSegment_eq_ok {path segment : String} :
    checkSegment path segment = .ok () ↔ isIdentifier segment = true := by
  unfold checkSegment
  by_cases he : segment.isEmpty
  · rw [if_pos he]
    have : segment = "" := by simpa using he
    subst this
    simp [isIdentifier, isIdentifierChars]
  · rw [if_neg he]
    split_ifs with h <;> simp [h]

theorem checkPath_eq_ok {path : String} :
    checkPath path = .ok () ↔ isIdentifierPath path = true := by
  unfold checkPath
  by_cases he : path.isEmpty
  · rw [if_pos he]
    have : path = "" := by simpa using he
    subst this
    simp [isIdentifierPath, Text.piecesOf, isIdentifier, isIdentifierChars]
  · rw [if_neg he, isIdentifierPath, List.all_eq_true, forM_eq_ok]
    exact forall₂_congr fun segment _ => checkSegment_eq_ok

theorem dot_not_mem_of_isIdentifier {name : String} (h : isIdentifier name = true) :
    '.' ∉ name.toList :=
  fun hd => absurd (isIdentifier_over h '.' hd) (by decide)

theorem isIdentifierPath_of_not_mem {name : String} (h : '.' ∉ name.toList) :
    isIdentifierPath name = isIdentifier name := by
  rw [isIdentifierPath, Text.piecesOf_eq_singleton h]
  simp

theorem isIdentifierPath_of_isIdentifier {name : String} (h : isIdentifier name = true) :
    isIdentifierPath name = true := by
  rw [isIdentifierPath_of_not_mem (dot_not_mem_of_isIdentifier h), h]

theorem isIdentifierPath_append (x y : String) :
    isIdentifierPath (x ++ "." ++ y) = (isIdentifierPath x && isIdentifierPath y) := by
  rw [isIdentifierPath, Text.piecesOf_append rfl, List.all_append]
  rfl

theorem isIdentifierPath_over {path : String} (h : isIdentifierPath path = true) :
    Text.Over (fun c => isIdentifierChar c || c == '.') path := by
  have hjoin : ".".intercalate (Text.piecesOf '.' path) = path :=
    Text.intercalate_piecesOf rfl path
  rw [← hjoin]
  refine Text.Over.intercalate (.of_all (by decide)) fun piece hpiece => ?_
  refine (isIdentifier_over (List.all_eq_true.mp h piece hpiece)).mono fun c hc => ?_
  rw [hc, Bool.true_or]

theorem isBlank_of_mem_path {path : String} (h : isIdentifierPath path = true) {c : Char}
    (hc : c ∈ path.toList) : Text.isBlank c = false := by
  rcases Bool.or_eq_true_iff.mp (isIdentifierPath_over h c hc) with hchar | hdot
  · exact Text.isBlank_of_isIdentifierChar hchar
  · rw [beq_iff_eq.mp hdot]
    decide

theorem trim_of_isIdentifierPath {path : String} (h : isIdentifierPath path = true) :
    Text.trim path = path :=
  Text.trim_eq_self fun _ hc => isBlank_of_mem_path h hc

theorem trim_of_isIdentifier {name : String} (h : isIdentifier name = true) :
    Text.trim name = name :=
  trim_of_isIdentifierPath (isIdentifierPath_of_isIdentifier h)

theorem quoteIdentifier_eq_ok {name s : String} :
    quoteIdentifier name = .ok s ↔ isIdentifier name = true ∧ s = backticked name := by
  unfold quoteIdentifier
  rw [bind_eq_ok]
  constructor
  · rintro ⟨_, hp, h⟩
    obtain ⟨hd, h⟩ := guard_eq_ok.mp h
    have hd' : '.' ∉ name.toList := by simpa using hd
    rw [checkPath_eq_ok, isIdentifierPath, Text.piecesOf_eq_singleton hd'] at hp
    exact ⟨by simpa using hp, pure_eq_ok.mp h⟩
  · rintro ⟨h, rfl⟩
    have hd := dot_not_mem_of_isIdentifier h
    exact ⟨(), checkPath_eq_ok.mpr (isIdentifierPath_of_isIdentifier h),
      guard_eq_ok.mpr ⟨by simpa using hd, rfl⟩⟩

theorem quotePath_eq_ok {path s : String} : quotePath path = .ok s ↔
    isIdentifierPath path = true ∧
      s = ".".intercalate ((Text.piecesOf '.' path).map backticked) := by
  unfold quotePath
  rw [bind_eq_ok]
  constructor
  · rintro ⟨_, hp, h⟩
    exact ⟨checkPath_eq_ok.mp hp, pure_eq_ok.mp h⟩
  · rintro ⟨h, rfl⟩
    exact ⟨(), checkPath_eq_ok.mpr h, rfl⟩

/-! ### The characters of quoted names -/

/-- Characters of quoted names and paths. -/
def isQuotedChar (c : Char) : Bool := isIdentifierChar c || c == '`' || c == '.'

theorem backticked_over {name : String} (h : isIdentifier name = true) :
    Text.Over isQuotedChar (backticked name) := by
  have hb : Text.Over isQuotedChar "`" := .of_all (by decide)
  refine (hb.append ((isIdentifier_over h).mono fun c hc => ?_)).append hb
  simp [isQuotedChar, hc]

theorem quoteIdentifier_over {name s : String} (h : quoteIdentifier name = .ok s) :
    Text.Over isQuotedChar s := by
  obtain ⟨hi, rfl⟩ := quoteIdentifier_eq_ok.mp h
  exact backticked_over hi

theorem quotePath_over {path s : String} (h : quotePath path = .ok s) :
    Text.Over isQuotedChar s := by
  obtain ⟨hp, rfl⟩ := quotePath_eq_ok.mp h
  refine Text.Over.intercalate (.of_all (by decide)) fun t ht => ?_
  obtain ⟨name, hn, rfl⟩ := List.mem_map.mp ht
  exact backticked_over (List.all_eq_true.mp hp name hn)

end TableQuery
