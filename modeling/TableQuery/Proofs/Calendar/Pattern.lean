import Mathlib.Data.List.Chain
import TableQuery.Calendar.Pattern
import TableQuery.Proofs.Decimal.Literal
import TableQuery.Proofs.Text.Blank

/-! # Written dates are read back

A moment that is written in a pattern is read back as far as the pattern shows it
(`DatePattern.read_write`). The induction goes over the parts; what it carries is the moment read so
far, which shows what the parts so far show (`DatePattern.readFrom_append`). Numbers are read
greedily, so a part has to end where the next one begins: two digits are read for all numbers but
the year, and a year is as long as its digits (`DatePart.StopsBefore`).

A pattern does not read a text that begins as it does and goes on in another way
(`DatePattern.read_eq_none`). -/

namespace TableQuery

/-! ### Numbers -/

section Padded
variable {width n : Nat}

theorem isDigit_of_mem_padded {c : Char} (h : c ∈ padded width n) : c.isDigit = true := by
  rw [padded, List.mem_append] at h
  rcases h with h | h
  · rw [List.eq_of_mem_replicate h]
    decide
  · exact isDigit_of_mem_toDigits h

theorem padded_ne_nil (width n : Nat) : padded width n ≠ [] := by
  simp [padded, Nat.toDigits_ne_nil]

theorem digitsValue_padded (width n : Nat) : Decimal.digitsValue (padded width n) = n := by
  rw [padded, Decimal.digitsValue_zeros_append, Decimal.digitsValue_toDigits]

theorem length_padded (h : (Nat.toDigits 10 n).length ≤ width) :
    (padded width n).length = width := by
  rw [padded, List.length_append, List.length_replicate]
  omega

theorem length_padded_two (h : n < 100) : (padded 2 n).length = 2 :=
  length_padded ((Nat.length_toDigits_le_iff (by decide) (by decide)).mpr h)

end Padded

theorem not_isBlank_of_isDigit {c : Char} (h : c.isDigit = true) : Text.isBlank c = false :=
  Text.isBlank_of_isIdentifierChar (by simp [isIdentifierChar, Char.isAlphanum, h])

theorem takeNumber_append {width : Nat} {digits rest : List Char} (hne : digits ≠ [])
    (hdigits : ∀ c ∈ digits, c.isDigit = true)
    (hend : digits.length = width ∨
      digits.length ≤ width ∧ ∀ c ∈ rest.head?, c.isDigit = false) :
    takeNumber width (digits ++ rest) = some (Decimal.digitsValue digits, rest) := by
  have htake : ((digits ++ rest).takeWhile Char.isDigit).take width = digits := by
    rw [List.takeWhile_append_of_pos hdigits]
    rcases hend with hlength | ⟨hle, hrest⟩
    · exact List.take_left' hlength
    · have hstop : rest.takeWhile Char.isDigit = [] := by
        cases rest with
        | nil => rfl
        | cons c rest => rw [List.takeWhile_cons_of_neg (by simp [hrest c rfl])]
      rw [hstop, List.append_nil, List.take_of_length_le hle]
  unfold takeNumber
  simp only [htake]
  rw [if_neg (by simpa using hne), List.drop_left]

theorem trimLeft_padded_append (width n : Nat) (rest : List Char) :
    Text.trimLeft (padded width n ++ rest) = padded width n ++ rest := by
  obtain ⟨c, cs, hcs⟩ := List.exists_cons_of_ne_nil (padded_ne_nil width n)
  have hdigit : c.isDigit = true := isDigit_of_mem_padded (hcs ▸ List.mem_cons_self)
  rw [hcs, List.cons_append, Text.trimLeft,
    List.dropWhile_cons_of_neg (by simp [not_isBlank_of_isDigit hdigit])]

theorem takeNumber_padded {n : Nat} (h : n < 100) (rest : List Char) :
    takeNumber 2 (Text.trimLeft (padded 2 n ++ rest)) = some (n, rest) := by
  rw [trimLeft_padded_append, takeNumber_append (padded_ne_nil 2 n)
    (fun c => isDigit_of_mem_padded) (.inl (length_padded_two h)), digitsValue_padded]

/-! ### Years -/

theorem takeYear_padded_append (width n : Nat) (rest : List Char) :
    takeYear (padded width n ++ rest) =
      (takeNumber 4 (padded width n ++ rest)).map fun r => ((r.1 : Int), r.2) := by
  obtain ⟨c, cs, hcs⟩ := List.exists_cons_of_ne_nil (padded_ne_nil width n)
  have hdigit : c.isDigit = true := isDigit_of_mem_padded (hcs ▸ List.mem_cons_self)
  rw [hcs, List.cons_append]
  unfold takeYear
  split
  · next h =>
    obtain ⟨rfl, -⟩ := List.cons.inj h
    exact absurd hdigit (by decide)
  · next h =>
    obtain ⟨rfl, -⟩ := List.cons.inj h
    exact absurd hdigit (by decide)
  · rfl

/-- **A written year is read back**, with and without a sign, if no digit follows. -/
theorem takeYear_writeYear (year : Int) {rest : List Char}
    (hrest : ∀ c ∈ rest.head?, c.isDigit = false) :
    takeYear (writeYear year ++ rest) = some (year, rest) := by
  have hsigned : ∀ n, takeNumber (padded 4 n ++ rest).length (padded 4 n ++ rest) =
      some (n, rest) := by
    intro n
    have hle : (padded 4 n).length ≤ (padded 4 n ++ rest).length := by
      rw [List.length_append]
      omega
    rw [takeNumber_append (padded_ne_nil 4 n) (fun c => isDigit_of_mem_padded)
      (.inr ⟨hle, hrest⟩), digitsValue_padded]
  unfold writeYear
  by_cases hplain : 0 ≤ year ∧ year ≤ 9999
  · have hlength : (padded 4 year.toNat).length = 4 := by
      refine length_padded ((Nat.length_toDigits_le_iff (by decide) (by decide)).mpr ?_)
      show year.toNat < 10000
      omega
    rw [if_pos hplain, takeYear_padded_append, takeNumber_append (padded_ne_nil 4 _)
      (fun c => isDigit_of_mem_padded) (.inl hlength), digitsValue_padded]
    simp only [Option.map_some, Int.toNat_of_nonneg hplain.1]
  · rw [if_neg hplain]
    by_cases hneg : year < 0
    · rw [if_pos hneg, List.cons_append, takeYear, hsigned]
      have hyear : -(year.natAbs : Int) = year := by omega
      simp only [Option.map_some, hyear]
    · rw [if_neg hneg, List.cons_append, takeYear, hsigned]
      have hyear : (year.natAbs : Int) = year := by omega
      simp only [Option.map_some, hyear]

theorem writeYear_eq (year : Int) : ∃ sign : List Char, (sign = [] ∨ sign = ['-'] ∨ sign = ['+']) ∧
    writeYear year = sign ++ padded 4 year.natAbs := by
  unfold writeYear
  by_cases hplain : 0 ≤ year ∧ year ≤ 9999
  · have hyear : year.toNat = year.natAbs := by omega
    exact ⟨[], .inl rfl, by rw [if_pos hplain, hyear]; rfl⟩
  · rw [if_neg hplain]
    by_cases hneg : year < 0
    · exact ⟨['-'], .inr (.inl rfl), by rw [if_pos hneg]; rfl⟩
    · exact ⟨['+'], .inr (.inr rfl), by rw [if_neg hneg]; rfl⟩

/-! ### What a pattern shows -/

/-- A pattern as it is written. -/
def DatePattern.chars (p : DatePattern) (m : Moment) : List Char :=
  p.flatMap fun part => part.write m

/-- What a pattern shows of a moment; what it leaves out is zero. -/
def DatePattern.shown (p : DatePattern) (m : Moment) : Moment where
  date := {
    year := if .year ∈ p then m.date.year else 0
    month := if .month ∈ p then m.date.month else 0
    day := if .day ∈ p then m.date.day else 0 }
  hour := if .hour ∈ p then m.hour else 0
  minute := if .minute ∈ p then m.minute else 0
  second := if .second ∈ p then m.second else 0

theorem DatePattern.toList_write (p : DatePattern) (m : Moment) :
    (p.write m).toList = p.chars m := by
  rw [write, String.toList_ofList, chars]

theorem Moment.bounds_of_isValid {m : Moment} (h : m.isValid = true) :
    m.date.month < 100 ∧ m.date.day < 100 ∧ m.hour < 100 ∧ m.minute < 100 ∧ m.second < 100 := by
  simp only [isValid, Date.isValid, Bool.and_eq_true, decide_eq_true_eq] at h
  obtain ⟨⟨⟨⟨⟨-, hpos⟩, hday⟩, hhour⟩, hminute⟩, hsecond⟩ := h
  have hmonth : m.date.month < 100 ∧ m.date.day < 100 := by
    unfold daysInMonth at hday
    split at hday <;> (try split_ifs at hday) <;> omega
  omega

/-- **A moment is one of the calendar as far as a pattern with its date shows it.** -/
theorem DatePattern.isValid_shown {p : DatePattern} (hyear : .year ∈ p) (hmonth : .month ∈ p)
    (hday : .day ∈ p) {m : Moment} (h : m.isValid = true) : (p.shown m).isValid = true := by
  simp only [Moment.isValid, shown, hyear, hmonth, hday, if_true, Bool.and_eq_true,
    decide_eq_true_eq] at h ⊢
  obtain ⟨⟨⟨hdate, hhour⟩, hminute⟩, hsecond⟩ := h
  refine ⟨⟨⟨hdate, ?_⟩, ?_⟩, ?_⟩ <;> split <;> omega

/-! ### Reading what was written -/

namespace DatePart

/-- The part is written with digits. -/
def isNumber : DatePart → Bool
  | .mark _ | .blank => false
  | _ => true

/-- Nothing of what follows is read with the part: no digit with a year, and no blank with a
blank. -/
def StopsBefore (part : DatePart) (rest : List Char) : Prop :=
  match part with
  | .year => ∀ c ∈ rest.head?, c.isDigit = false
  | .blank => ∀ c ∈ rest.head?, Text.isBlank c = false
  | _ => True

/-- **One part**: it is read back, and the moment then shows it as well. -/
theorem read_write {m : Moment} (hm : m.isValid = true) (done : DatePattern) {part : DatePart}
    {rest : List Char} (hstop : part.StopsBefore rest) :
    part.read (done.shown m) (part.write m ++ rest) =
      some (DatePattern.shown (done ++ [part]) m, rest) := by
  obtain ⟨hmonth, hday, hhour, hminute, hsecond⟩ := Moment.bounds_of_isValid hm
  cases part with
  | year =>
    obtain ⟨sign, hsign, hyear⟩ := writeYear_eq m.date.year
    have htrim : Text.trimLeft (writeYear m.date.year ++ rest) = writeYear m.date.year ++ rest := by
      rw [hyear]
      rcases hsign with rfl | rfl | rfl
      · exact trimLeft_padded_append 4 _ rest
      · rfl
      · rfl
    simp only [read, write, htrim, takeYear_writeYear _ hstop]
    simp [DatePattern.shown]
  | month =>
    simp only [read, write, takeNumber_padded hmonth]
    simp [DatePattern.shown]
  | day =>
    simp only [read, write, takeNumber_padded hday]
    simp [DatePattern.shown]
  | hour =>
    simp only [read, write, takeNumber_padded hhour]
    simp [DatePattern.shown]
  | minute =>
    simp only [read, write, takeNumber_padded hminute]
    simp [DatePattern.shown]
  | second =>
    simp only [read, write, takeNumber_padded hsecond]
    simp [DatePattern.shown]
  | mark c => simp [read, write, DatePattern.shown]
  | blank =>
    have htrim : Text.trimLeft (' ' :: rest) = rest := by
      rw [Text.trimLeft, List.dropWhile_cons_of_pos (by decide)]
      cases rest with
      | nil => rfl
      | cons c rest => rw [List.dropWhile_cons_of_neg (by simp [hstop c rfl])]
    simp [read, write, htrim, DatePattern.shown]

/-- A part may stand in front of another one: it ends where the other begins, and a dash is followed
by a number. -/
def precedes : DatePart → DatePart → Bool
  | .year, .mark c => !c.isDigit
  | .year, next => !next.isNumber
  | .blank, next => next.isNumber
  | .mark c, next => c != '-' || next.isNumber
  | _, _ => true

theorem exists_ends {part : DatePart} (h : part.isNumber = true) (m : Moment) :
    (∃ c cs, part.write m = c :: cs ∧ Text.isBlank c = false) ∧
      ∃ cs c, part.write m = cs ++ [c] ∧ c.isDigit = true := by
  have hpadded : ∀ (sign : List Char) (width n : Nat),
      (sign = [] ∨ sign = ['-'] ∨ sign = ['+']) →
      (∃ c cs, sign ++ padded width n = c :: cs ∧ Text.isBlank c = false) ∧
        ∃ cs c, sign ++ padded width n = cs ++ [c] ∧ c.isDigit = true := by
    intro sign width n hsign
    obtain ⟨d, ds, hfirst⟩ := List.exists_cons_of_ne_nil (padded_ne_nil width n)
    have hdigit : d.isDigit = true := isDigit_of_mem_padded (hfirst ▸ List.mem_cons_self)
    have hlast : (padded width n).dropLast ++ [(padded width n).getLast (padded_ne_nil width n)] =
        padded width n := List.dropLast_append_getLast _
    refine ⟨?_, sign ++ (padded width n).dropLast, _, by rw [List.append_assoc, hlast],
      isDigit_of_mem_padded (List.getLast_mem _)⟩
    rcases hsign with rfl | rfl | rfl
    · exact ⟨d, ds, hfirst, not_isBlank_of_isDigit hdigit⟩
    · exact ⟨'-', _, rfl, by decide⟩
    · exact ⟨'+', _, rfl, by decide⟩
  cases part with
  | year =>
    obtain ⟨sign, hsign, hyear⟩ := writeYear_eq m.date.year
    rw [write, hyear]
    exact hpadded sign 4 _ hsign
  | month => exact hpadded [] 2 _ (.inl rfl)
  | day => exact hpadded [] 2 _ (.inl rfl)
  | hour => exact hpadded [] 2 _ (.inl rfl)
  | minute => exact hpadded [] 2 _ (.inl rfl)
  | second => exact hpadded [] 2 _ (.inl rfl)
  | mark c => cases h
  | blank => cases h

theorem stopsBefore_of_precedes {part next : DatePart} (h : part.precedes next = true) (m : Moment)
    (rest : List Char) : part.StopsBefore (next.write m ++ rest) := by
  cases part with
  | year =>
    cases next with
    | mark c => simpa [StopsBefore, write, precedes] using h
    | blank => simp [StopsBefore, write]
    | _ => cases h
  | blank =>
    obtain ⟨⟨c, cs, hfirst, hblank⟩, -⟩ := exists_ends h m
    simpa [StopsBefore, hfirst] using hblank
  | _ => trivial

end DatePart

namespace DatePattern

/-- The parts of a pattern may stand as they do, the first and the last one are numbers, and there
is a whole date among them. -/
structure IsPlain (p : DatePattern) : Prop where
  chain : List.IsChain (fun part next => DatePart.precedes part next = true) p
  first : ∀ part ∈ p.head?, part.isNumber = true
  last : ∀ part ∈ p.getLast?, part.isNumber = true
  year : .year ∈ p
  month : .month ∈ p
  day : .day ∈ p

instance (p : DatePattern) : Decidable p.IsPlain :=
  decidable_of_iff
    (List.IsChain (fun part next => DatePart.precedes part next = true) p ∧
      (∀ part ∈ p.head?, part.isNumber = true) ∧ (∀ part ∈ p.getLast?, part.isNumber = true) ∧
      .year ∈ p ∧ .month ∈ p ∧ .day ∈ p)
    ⟨fun ⟨hchain, hfirst, hlast, hyear, hmonth, hday⟩ =>
      ⟨hchain, hfirst, hlast, hyear, hmonth, hday⟩,
    fun ⟨hchain, hfirst, hlast, hyear, hmonth, hday⟩ =>
      ⟨hchain, hfirst, hlast, hyear, hmonth, hday⟩⟩

theorem chars_cons (part : DatePart) (p : DatePattern) (m : Moment) :
    chars (part :: p) m = part.write m ++ p.chars m := List.flatMap_cons

theorem chars_append (p q : DatePattern) (m : Moment) :
    chars (p ++ q) m = p.chars m ++ q.chars m := List.flatMap_append

variable {p q parts : DatePattern} {m : Moment} {rest : List Char}

/-- **Some parts of a pattern**, read back in front of the others. -/
theorem readFrom_append (hm : m.isValid = true)
    (hchain : List.IsChain (fun part next => DatePart.precedes part next = true) p)
    (hlast : ∀ part ∈ p.getLast?, part.StopsBefore rest) (done parts : DatePattern) :
    readFrom (p ++ parts) (done.shown m) (p.chars m ++ rest) =
      readFrom parts (shown (done ++ p) m) rest := by
  induction p generalizing done with
  | nil => rw [List.append_nil]; rfl
  | cons part p ih =>
    have hstop : part.StopsBefore (chars p m ++ rest) := by
      cases p with
      | nil => exact hlast part rfl
      | cons next p =>
        rw [chars_cons, List.append_assoc]
        exact DatePart.stopsBefore_of_precedes (List.isChain_cons_cons.mp hchain).1 m _
    have hrest : ∀ part' ∈ p.getLast?, part'.StopsBefore rest := fun part' hpart' =>
      hlast part' (by rw [List.getLast?_cons, Option.mem_def.mp hpart']; rfl)
    rw [List.cons_append, readFrom, chars_cons, List.append_assoc,
      DatePart.read_write hm done hstop]
    simp only
    rw [ih hchain.of_cons hrest, List.append_assoc, List.singleton_append]

/-- **A written moment is read back as far as the pattern shows it.** -/
theorem read_write (hp : p.IsPlain) (hm : m.isValid = true) :
    p.read (p.write m) = some (p.shown m) := by
  have hlast : ∀ part ∈ p.getLast?, part.StopsBefore [] := by
    intro part hpart
    cases part <;> simp [DatePart.StopsBefore]
  have hread := readFrom_append hm hp.chain hlast [] []
  rw [List.append_nil, List.append_nil, List.nil_append] at hread
  rw [read, toList_write]
  have hstart : (⟨⟨0, 0, 0⟩, 0, 0, 0⟩ : Moment) = shown [] m := rfl
  rw [hstart, hread, readFrom]
  simp [isValid_shown hp.year hp.month hp.day hm]

/-- **A text is not read** that begins as the pattern does and goes on in another way. -/
theorem read_eq_none (hm : m.isValid = true)
    (hchain : List.IsChain (fun part next => DatePart.precedes part next = true) p)
    (hlast : ∀ part ∈ p.getLast?, part.StopsBefore rest)
    (hnone : readFrom parts (p.shown m) rest = none) {s : String}
    (hs : s.toList = p.chars m ++ rest) : read (p ++ parts) s = none := by
  have hread := readFrom_append hm hchain hlast [] parts
  rw [List.nil_append, hnone] at hread
  have hstart : (⟨⟨0, 0, 0⟩, 0, 0, 0⟩ : Moment) = shown [] m := rfl
  rw [read, hs, hstart, hread]
  rfl

theorem readFrom_year_eq_none {n : Nat} (hn : n < 100) {c d : Char} (hdigit : d.isDigit = false)
    (hne : d ≠ c) (p : DatePattern) (start : Moment) (rest : List Char) :
    readFrom (.year :: .mark c :: p) start (padded 2 n ++ d :: rest) = none := by
  have hlength : (padded 2 n).length ≤ 4 := by rw [length_padded_two hn]; decide
  have hyear : takeYear (padded 2 n ++ d :: rest) = some ((n : Int), d :: rest) := by
    rw [takeYear_padded_append, takeNumber_append (padded_ne_nil 2 n)
      (fun c => isDigit_of_mem_padded) (.inr ⟨hlength, by simpa using hdigit⟩), digitsValue_padded]
    rfl
  simp only [readFrom, DatePart.read, trimLeft_padded_append, hyear, Option.map_some, if_neg hne]

theorem readFrom_month_eq_none {n : Nat} (hn : n < 100) {c d : Char} (hne : d ≠ c)
    (p : DatePattern) (start : Moment) (rest : List Char) :
    readFrom (.month :: .mark c :: p) start (padded 2 n ++ d :: rest) = none := by
  simp only [readFrom, DatePart.read, takeNumber_padded hn, Option.map_some, if_neg hne]

theorem trim_write (hp : p.IsPlain) (m : Moment) : Text.trim (p.write m) = p.write m := by
  refine Text.trim_of_ends (fun c hc => ?_) fun c hc => ?_
  · rw [toList_write] at hc
    cases p with
    | nil => cases hc
    | cons part p =>
      obtain ⟨⟨d, ds, hfirst, hblank⟩, -⟩ := DatePart.exists_ends (hp.first part rfl) m
      rw [chars_cons, hfirst] at hc
      cases hc
      exact hblank
  · rw [toList_write] at hc
    rcases List.eq_nil_or_concat' p with rfl | ⟨p', part, rfl⟩
    · cases hc
    · have hnumber : part.isNumber = true := hp.last part (by simp)
      obtain ⟨-, ds, d, hlast, hdigit⟩ := DatePart.exists_ends hnumber m
      rw [chars_append, chars_cons, hlast] at hc
      have hcd : d = c := by simpa [chars] using hc
      rw [← hcd]
      exact not_isBlank_of_isDigit hdigit

end DatePattern

end TableQuery
