import Mathlib.Tactic.SplitIfs
import TableQuery.Decimal.Literal
import TableQuery.Proofs.Text.Blank

/-! # Printed numbers

Printed numbers differ for different numbers, and a number is read from its digits, with or without
zeros in front of them. A printed integer is read back (`Decimal.readInt?_toString`): its first
character is a sign only if the integer is negative. It may have a plus sign in front of it
otherwise (`Decimal.readInt?_plus`). Texts that are read as integers hold no blanks
(`Decimal.trim_of_readInt?`). -/

namespace TableQuery

theorem toDigits_inj {m n : Nat} (h : Nat.toDigits 10 m = Nat.toDigits 10 n) : m = n := by
  rw [← Nat.ofDigitChars_toDigits (b := 10) (n := m) (by decide) (by decide), h,
    Nat.ofDigitChars_toDigits (by decide) (by decide)]

theorem isDigit_of_mem_toDigits {n : Nat} {c : Char} (h : c ∈ Nat.toDigits 10 n) :
    c.isDigit = true :=
  Nat.isDigit_of_mem_toDigits (by decide) (by decide) h

theorem isDigit_of_mem_toString {n : Nat} {c : Char} (h : c ∈ (toString n).toList) :
    c.isDigit = true := by
  rw [Nat.toString_eq_repr, Nat.toList_repr] at h
  exact isDigit_of_mem_toDigits h

theorem toString_inj {m n : Nat} (h : toString m = toString n) : m = n := by
  have hl := congrArg String.toList h
  rw [Nat.toString_eq_repr, Nat.toString_eq_repr, Nat.toList_repr, Nat.toList_repr] at hl
  exact toDigits_inj hl

namespace Decimal

/-! ### Digits -/

theorem digitsValue_toDigits (n : Nat) : digitsValue (Nat.toDigits 10 n) = n :=
  Nat.ofDigitChars_toDigits (by decide) (by decide)

theorem digitsValue_zeros_append (k : Nat) (cs : List Char) :
    digitsValue (List.replicate k '0' ++ cs) = digitsValue cs := by
  induction k with
  | zero => rfl
  | succ k ih => rw [← ih, List.replicate_succ, List.cons_append]; rfl

/-! ### Integers -/

theorem toList_int (i : Int) : (toString i).toList =
    if 0 ≤ i then Nat.toDigits 10 i.toNat else '-' :: Nat.toDigits 10 (-i).toNat := by
  rw [Int.toString_eq_repr, Int.repr_eq_if]
  split_ifs <;> simp

theorem int_inj {i j : Int} (h : toString i = toString j) : i = j := by
  have hchars := congrArg String.toList h
  have hsign : ∀ n : Nat, '-' ∉ Nat.toDigits 10 n := fun n hn =>
    absurd (isDigit_of_mem_toDigits hn) (by decide)
  rw [toList_int, toList_int] at hchars
  split_ifs at hchars with hi hj hj
  · have hnat := toDigits_inj hchars
    omega
  · exact absurd (hchars ▸ List.mem_cons_self) (hsign i.toNat)
  · exact absurd (hchars ▸ List.mem_cons_self) (hsign j.toNat)
  · have hnat := toDigits_inj (List.cons.inj hchars).2
    omega

theorem takeSign_toDigits (n : Nat) :
    takeSign (Nat.toDigits 10 n) = (false, Nat.toDigits 10 n) := by
  unfold takeSign
  split
  · next cs h => exact absurd (isDigit_of_mem_toDigits (h ▸ List.mem_cons_self)) (by decide)
  · next cs h => exact absurd (isDigit_of_mem_toDigits (h ▸ List.mem_cons_self)) (by decide)
  · rfl

theorem all_isDigit_toDigits (n : Nat) :
    ((Nat.toDigits 10 n).isEmpty || !(Nat.toDigits 10 n).all Char.isDigit) = false := by
  have hall : (Nat.toDigits 10 n).all Char.isDigit = true :=
    List.all_eq_true.mpr fun c hc => isDigit_of_mem_toDigits hc
  simp [hall, Nat.toDigits_ne_nil]

/-- **A printed integer is read back.** -/
theorem readInt?_toString (i : Int) : readInt? (toString i) = some i := by
  unfold readInt?
  rw [toList_int]
  by_cases hi : 0 ≤ i
  · rw [if_pos hi, takeSign_toDigits]
    simp only [all_isDigit_toDigits, digitsValue_toDigits, signed, Bool.false_eq_true, if_false]
    rw [Int.toNat_of_nonneg hi]
  · rw [if_neg hi, takeSign]
    simp only [all_isDigit_toDigits, digitsValue_toDigits, signed, Bool.false_eq_true, if_false,
      if_true]
    rw [Int.toNat_of_nonneg (by omega), Int.neg_neg]

theorem readInt?_plus {i : Int} (hi : 0 ≤ i) : readInt? ("+" ++ toString i) = some i := by
  have htext : ("+" ++ toString i).toList = '+' :: Nat.toDigits 10 i.toNat := by
    rw [String.toList_append, toList_int, if_pos hi]
    rfl
  unfold readInt?
  rw [htext, takeSign]
  simp only [all_isDigit_toDigits, digitsValue_toDigits, signed, Bool.false_eq_true, if_false]
  rw [Int.toNat_of_nonneg hi]

theorem readInt64?_toString {i : Int} (h : isInt64 i = true) :
    readInt64? (toString i) = some i := by
  rw [readInt64?, readInt?_toString, Option.filter_some, if_pos h]

theorem mem_takeSign {cs : List Char} {c : Char} (h : c ∈ cs) :
    c = '-' ∨ c = '+' ∨ c ∈ (takeSign cs).2 := by
  unfold takeSign
  split
  · exact (List.mem_cons.mp h).imp_right .inr
  · exact .inr (List.mem_cons.mp h)
  · exact .inr (.inr h)

theorem trim_of_readInt? {s : String} {i : Int} (h : readInt? s = some i) : Text.trim s = s := by
  unfold readInt? at h
  simp only at h
  split_ifs at h with hdigits
  rw [Bool.or_eq_true, not_or, Bool.not_eq_true', Bool.not_eq_false, List.all_eq_true] at hdigits
  refine Text.trim_eq_self fun c hc => ?_
  obtain rfl | rfl | hdigit := mem_takeSign hc
  · decide
  · decide
  · exact Text.isBlank_of_isIdentifierChar (by
      simp [isIdentifierChar, Char.isAlphanum, hdigits.2 c hdigit])

end Decimal

end TableQuery
