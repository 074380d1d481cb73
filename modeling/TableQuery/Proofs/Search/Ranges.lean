import TableQuery.Proofs.Calendar.Pattern
import TableQuery.Proofs.Search.Coercion
import TableQuery.Proofs.Search.ParamNames
import TableQuery.Proofs.Text.Split

/-! # Ranges of numbers and of dates

The sides of a range stand around the first ` - ` of a text. Dashes also stand in front of negative
numbers and in dates, but never in front of a space there (`Text.DashesBound`), so that the first
` - ` is the one between the sides (`DateRange.cutText_separator`).

* A number filter over integers takes two printed integers of 64 bits as a range, and nothing else
  with a ` - ` in it (`Filter.narrow_numberRange`).
* A date filter takes two written dates as a range, each in one of six patterns, and leaves out a
  text whose first two parts are not both dates (`Filter.narrow_dateRange`). No pattern reads a date
  that is written in one of the patterns behind it (`DateRange.findSome?_write`). -/

namespace TableQuery

/-! ### The two sides -/

namespace Text

/-- No dash of the text stands in front of a space, nor does one at its end when a space follows. -/
def DashesBound (cs : List Char) : Prop :=
  List.IsChain (fun c d => c = '-' → d ≠ ' ') (cs ++ [' '])

variable {cs ds : List Char}

theorem dashesBound_of_not_mem (h : '-' ∉ cs) : DashesBound cs := by
  unfold DashesBound
  induction cs with
  | nil => exact List.isChain_singleton _
  | cons c cs ih =>
    rw [List.mem_cons, not_or] at h
    refine (ih h.2).cons fun d _ hc => ?_
    exact absurd hc.symm h.1

theorem DashesBound.append (hcs : DashesBound cs) (hds : DashesBound ds) :
    DashesBound (cs ++ ds) := by
  unfold DashesBound at hcs hds ⊢
  rw [List.append_assoc]
  refine hcs.left_of_append.append hds fun c hc d _ hdash => ?_
  exact absurd rfl ((List.isChain_append.mp hcs).2.2 c hc ' ' rfl hdash)

theorem DashesBound.dash (hcs : DashesBound cs) {c : Char} {rest : List Char} (h : cs = c :: rest)
    (hc : c ≠ ' ') : DashesBound ('-' :: cs) := by
  subst h
  refine List.IsChain.cons hcs fun d hd _ => ?_
  cases hd
  exact hc

theorem dashesBound_digits (h : ∀ c ∈ cs, c.isDigit = true) : DashesBound cs :=
  dashesBound_of_not_mem fun hdash => absurd (h _ hdash) (by decide)

theorem dashesBound_dash_digits (hne : cs ≠ []) (h : ∀ c ∈ cs, c.isDigit = true) :
    DashesBound ('-' :: cs) := by
  obtain ⟨c, rest, rfl⟩ := List.exists_cons_of_ne_nil hne
  refine (dashesBound_digits h).dash rfl ?_
  rintro rfl
  exact absurd (h _ List.mem_cons_self) (by decide)

/-- **The first separator** of a text is behind the dashes that are bound. -/
theorem cutAt_of_dashesBound (hcs : DashesBound cs) (rest : List Char) :
    cutAt [' ', '-', ' '] (cs ++ [' ', '-', ' '] ++ rest) = some (cs, rest) := by
  refine cutAt_eq_some.mpr ⟨rfl, fun l h htext => ?_⟩
  rw [List.append_assoc, List.append_assoc] at htext
  rcases List.append_eq_append_iff.mp htext with ⟨between, rfl, -⟩ | ⟨between, rfl, hbetween⟩
  · rw [List.length_append]
    omega
  · -- an occurrence that begins within the side has its dash in front of a space
    cases between with
    | nil => rw [List.append_nil]
    | cons first between =>
      cases between with
      | nil => simp at hbetween
      | cons second between =>
        simp only [List.cons_append, List.nil_append, List.cons.injEq] at hbetween
        obtain ⟨-, hsecond, hbehind⟩ := hbetween
        subst hsecond
        have hchain : List.IsChain (fun c d => c = '-' → d ≠ ' ') ('-' :: (between ++ [' '])) := by
          have hside : l ++ first :: '-' :: between ++ [' '] =
              (l ++ [first]) ++ ('-' :: (between ++ [' '])) := by simp
          rw [DashesBound, hside] at hcs
          exact hcs.right_of_append
        have hhead : ' ' ∈ (between ++ [' ']).head? := by
          cases between with
          | nil => rfl
          | cons third between =>
            rw [List.cons_append, List.cons.injEq] at hbehind
            rw [← hbehind.1]
            rfl
        exact absurd rfl (hchain.rel_head? hhead rfl)

theorem DashesBound.not_isInfix (hcs : DashesBound cs) : ¬ [' ', '-', ' '] <:+: cs := by
  rintro ⟨l, rest, rfl⟩
  have hdash : ['-', ' '] <:+: l ++ [' ', '-', ' '] ++ rest ++ [' '] :=
    ⟨l ++ [' '], rest ++ [' '], by simp⟩
  have hchain : List.IsChain (fun c d => c = '-' → d ≠ ' ') ['-', ' '] :=
    List.IsChain.infix hcs hdash
  exact absurd rfl (hchain.rel_head? rfl rfl)

end Text

theorem DateRange.toList_separator : separator.toList = [' ', '-', ' '] := rfl

theorem DateRange.cutText_separator {low : String} (h : Text.DashesBound low.toList)
    (high : String) : Text.cutText separator (low ++ separator ++ high) = some (low, high) := by
  rw [Text.cutText, String.toList_append, String.toList_append, toList_separator,
    Text.cutAt_of_dashesBound h, Option.map_some, String.ofList_toList, String.ofList_toList]

/-- The group with a closed range at its end, whose bounds have the next two names of the
counter. -/
def Group.pushRange (acc : Group) (target : Target) (low high : Value) (counter : Nat) :
    Group × Nat :=
  (acc.push (.between target ⟨counterName counter, low⟩ ⟨counterName (counter + 1), high⟩),
    counter + 2)

theorem Filter.narrowBetween_eq (acc : Group) (target : Target) (low high : Value)
    (counter : Nat) :
    narrowBetween acc target low high counter = acc.pushRange target low high counter := rfl

/-! ### Integers -/

/-- **Integer literals** are the printed integers of 64 bits. -/
theorem isIntegerLiteral_iff {s : String} :
    isIntegerLiteral s = true ↔ ∃ i, Decimal.isInt64 i = true ∧ toString i = s := by
  unfold isIntegerLiteral
  constructor
  · intro h
    split at h
    · next i hi =>
      exact ⟨i, (Option.filter_eq_some_iff.mp hi).2, beq_iff_eq.mp h⟩
    · cases h
  · rintro ⟨i, hi, rfl⟩
    rw [Decimal.readInt64?_toString hi]
    exact beq_self_eq_true _

/-- **What an integral type takes**: printed integers of 64 bits. -/
theorem typedValue?_eq_some_of_isIntegral {type : FieldType} (htype : type.isIntegral = true)
    {s : String} {v : Value} : typedValue? (some type) s = some v ↔
      ∃ i, Decimal.isInt64 i = true ∧ (Value.int i).display = s ∧ v = .int i := by
  simp only [typedValue?, FieldType.isFloating_of_isIntegral htype, htype, Bool.false_eq_true,
    if_false, if_true]
  constructor
  · intro h
    split_ifs at h with hliteral
    obtain ⟨i, hi, rfl⟩ := isIntegerLiteral_iff.mp hliteral
    rw [Decimal.readInt64?_toString hi] at h
    exact ⟨i, hi, rfl, (Option.some.inj h).symm⟩
  · rintro ⟨i, hi, rfl, rfl⟩
    rw [Value.display, if_pos (isIntegerLiteral_iff.mpr ⟨i, hi, rfl⟩),
      Decimal.readInt64?_toString hi, Option.map_some]

theorem dashesBound_int (i : Int) : Text.DashesBound (toString i).toList := by
  rw [Decimal.toList_int]
  by_cases hi : 0 ≤ i
  · rw [if_pos hi]
    exact Text.dashesBound_digits fun _ => isDigit_of_mem_toDigits
  · rw [if_neg hi]
    exact Text.dashesBound_dash_digits Nat.toDigits_ne_nil fun _ => isDigit_of_mem_toDigits

theorem dashesBound_blank {s : String} (h : Text.isBlankText s = true) :
    Text.DashesBound s.toList :=
  Text.dashesBound_of_not_mem fun hdash => absurd (List.all_eq_true.mp h _ hdash) (by decide)

theorem trim_int (i : Int) : Text.trim (toString i) = toString i :=
  Decimal.trim_of_readInt? (Decimal.readInt?_toString i)

section Around

variable {before behind : String} (hbefore : Text.isBlankText before = true)
  (hbehind : Text.isBlankText behind = true)
include hbefore hbehind

theorem dashesBound_around_int (i : Int) :
    Text.DashesBound (before ++ toString i ++ behind).toList := by
  rw [String.toList_append, String.toList_append]
  exact ((dashesBound_blank hbefore).append (dashesBound_int i)).append (dashesBound_blank hbehind)

theorem typedValue?_trim_around {type : FieldType} (htype : type.isIntegral = true) {i : Int}
    (hi : Decimal.isInt64 i = true) :
    typedValue? (some type) (Text.trim (before ++ toString i ++ behind)) = some (.int i) := by
  rw [Text.trim_around hbefore hbehind, trim_int]
  exact (typedValue?_eq_some_of_isIntegral htype).mpr ⟨i, hi, rfl, rfl⟩

end Around

/-- **Ranges of integers**: two printed integers of 64 bits with ` - ` between them, and blanks
around them, are a range. Any text that contains ` - ` is either such a range, whose bounds print as
what stands around the first ` - `, or is left out. -/
theorem Filter.narrow_numberRange (mode : SearchMode) (min max step : Option Binary64)
    {type : FieldType} (htype : type.isIntegral = true) (acc : Group) (target : Target)
    (counter : Nat) :
    (∀ a b : Int, Decimal.isInt64 a = true → Decimal.isInt64 b = true →
      ∀ before behind before' behind' : String,
      (∀ s ∈ [before, behind, before', behind'], Text.isBlankText s = true) →
        (Filter.number mode min max step).narrow acc
          ⟨target, before ++ toString a ++ behind ++ " - " ++ (before' ++ toString b ++ behind'),
            some type⟩ counter = acc.pushRange target (.int a) (.int b) counter) ∧
    ∀ value : String, " - ".toList <:+: value.toList → ∃ low high : String,
      Text.IsFirstCut " - ".toList low.toList high.toList value.toList ∧
      ((∃ a b : Int, Decimal.isInt64 a = true ∧ Decimal.isInt64 b = true ∧
          (Value.int a).display = Text.trim low ∧ (Value.int b).display = Text.trim high ∧
          (Filter.number mode min max step).narrow acc ⟨target, value, some type⟩ counter =
            acc.pushRange target (.int a) (.int b) counter) ∨
        (Filter.number mode min max step).narrow acc ⟨target, value, some type⟩ counter =
          (acc, counter)) := by
  constructor
  · intro a b ha hb before behind before' behind' hblank
    obtain ⟨hbefore, hbehind, hbefore', hbehind', -⟩ :
        Text.isBlankText before = true ∧ Text.isBlankText behind = true ∧
          Text.isBlankText before' = true ∧ Text.isBlankText behind' = true ∧ True := by
      simpa using hblank
    have hcut := DateRange.cutText_separator (dashesBound_around_int hbefore hbehind a)
      (before' ++ toString b ++ behind')
    have hlow := typedValue?_trim_around hbefore hbehind htype ha
    have hhigh := typedValue?_trim_around hbefore' hbehind' htype hb
    rw [DateRange.separator] at hcut
    simp only [narrow, narrowNumber, DateRange.separator, hcut, Option.getD_some, hlow, hhigh,
      narrowBetween_eq]
  · intro value hvalue
    obtain ⟨⟨low, high⟩, hsides⟩ := Text.exists_cutAt hvalue
    refine ⟨String.ofList low, String.ofList high, ?_, ?_⟩
    · have hfirst := Text.cutAt_eq_some.mp hsides
      rwa [String.toList_ofList (l := low), String.toList_ofList (l := high)]
    · have hcut : Text.cutText DateRange.separator value =
          some (String.ofList low, String.ofList high) := by
        rw [Text.cutText, DateRange.separator, hsides]
        rfl
      simp only [narrow, narrowNumber, hcut, Option.getD_some]
      split
      · next hlow hhigh =>
        obtain ⟨a, ha, hprint, rfl⟩ := (typedValue?_eq_some_of_isIntegral htype).mp hlow
        obtain ⟨b, hb, hprint', rfl⟩ := (typedValue?_eq_some_of_isIntegral htype).mp hhigh
        exact .inl ⟨a, b, ha, hb, hprint, hprint', narrowBetween_eq ..⟩
      · exact .inr rfl

theorem Filter.narrow_numberRange_extremes :
    FieldType.bigint.isIntegral = true ∧ Decimal.isInt64 Decimal.minInt64 = true ∧
      Decimal.isInt64 Decimal.maxInt64 = true ∧
      (Filter.number .eq none none none).narrow (Group.all [])
        ⟨.column "post" "views", " -9223372036854775808  -  9223372036854775807",
          some .bigint⟩ 100 =
        (Group.all []).pushRange (.column "post" "views") (.int Decimal.minInt64)
          (.int Decimal.maxInt64) 100 := by
  have hvalue : " " ++ toString Decimal.minInt64 ++ " " ++ " - " ++
      (" " ++ toString Decimal.maxInt64 ++ "") =
      " -9223372036854775808  -  9223372036854775807" := by decide
  have hbigint : FieldType.bigint.isIntegral = true := rfl
  have hrange := (Filter.narrow_numberRange .eq none none none hbigint (Group.all [])
    (.column "post" "views") 100).1 Decimal.minInt64 Decimal.maxInt64 (by decide) (by decide)
    " " " " " " "" (by decide)
  rw [hvalue] at hrange
  exact ⟨hbigint, by decide, by decide, hrange⟩

/-! ### Dates -/

namespace DateRange

theorem isPlain_of_mem_patterns : ∀ p ∈ patterns, p.IsPlain := by decide

/-- A text that begins with a date as it is written first of all is not read by a pattern that goes
on in another way. -/
theorem read_isoDate_eq_none {m : Moment} (hm : m.isValid = true) {parts : DatePattern}
    {rest : List Char} (hnone : parts.readFrom (DatePattern.isoDate.shown m) rest = none)
    {s : String} (hs : s.toList = DatePattern.isoDate.chars m ++ rest) :
    DatePattern.read (DatePattern.isoDate ++ parts) s = none := by
  refine DatePattern.read_eq_none hm (by decide) (fun part hpart => ?_) hnone hs
  cases hpart
  trivial

theorem read_year_eq_none {n : Nat} (hn : n < 100) {d : Char} (hdigit : d.isDigit = false)
    (hne : d ≠ '-') {parts : DatePattern} {rest : List Char} {s : String}
    (hs : s.toList = padded 2 n ++ d :: rest) :
    DatePattern.read (DatePattern.isoDate ++ parts) s = none := by
  rw [DatePattern.read, hs]
  show (DatePattern.readFrom (.year :: .mark '-' :: _) _ _).filter _ = none
  rw [DatePattern.readFrom_year_eq_none hn hdigit hne]
  rfl

open DatePattern in
/-- **The first pattern that reads a written date** is the one in which it is written. -/
theorem findSome?_write {p : DatePattern} (hp : p ∈ patterns) {m : Moment}
    (hm : m.isValid = true) :
    patterns.findSome? (fun q => q.read (p.write m)) = some (p.shown m) := by
  have hread := read_write (isPlain_of_mem_patterns p hp) hm
  obtain ⟨hmonth, hday, -⟩ := Moment.bounds_of_isValid hm
  simp only [patterns, List.mem_cons, List.not_mem_nil, or_false] at hp ⊢
  rcases hp with rfl | rfl | rfl | rfl | rfl | rfl
  · simp only [List.findSome?_cons, hread]
  · have hchars : (joined.write m).toList = isoDate.chars m ++ 'T' :: toSecond.chars m :=
      (toList_write joined m).trans (chars_append isoDate (.mark 'T' :: toSecond) m)
    have hstandard : standard.read (joined.write m) = none := read_isoDate_eq_none hm rfl hchars
    simp only [List.findSome?_cons, hstandard, hread]
  · have hchars : (withoutSeconds.write m).toList = withoutSeconds.chars m ++ [] := by
      rw [toList_write, List.append_nil]
    have hdate : (withoutSeconds.write m).toList = isoDate.chars m ++ ' ' :: toMinute.chars m :=
      (toList_write withoutSeconds m).trans (chars_append isoDate (.blank :: toMinute) m)
    have hsecond : DatePattern.read (withoutSeconds ++ [.mark ':', .second])
        (withoutSeconds.write m) = none :=
      read_eq_none hm (by decide) (fun part hpart => by cases hpart; trivial) rfl hchars
    have hstandard : standard.read (withoutSeconds.write m) = none := hsecond
    have hjoined : joined.read (withoutSeconds.write m) = none :=
      read_isoDate_eq_none hm (by simp [readFrom, DatePart.read]) hdate
    simp only [List.findSome?_cons, hstandard, hjoined, hread]
  · have hchars : (isoDate.write m).toList = isoDate.chars m ++ [] := by
      rw [toList_write, List.append_nil]
    have hstandard : standard.read (isoDate.write m) = none := read_isoDate_eq_none hm rfl hchars
    have hjoined : joined.read (isoDate.write m) = none := read_isoDate_eq_none hm rfl hchars
    have hminute : withoutSeconds.read (isoDate.write m) = none :=
      read_isoDate_eq_none hm rfl hchars
    simp only [List.findSome?_cons, hstandard, hjoined, hminute, hread]
  · have hchars : (slashDate.write m).toList =
        padded 2 m.date.month ++ '/' :: chars [.day, .mark '/', .year] m := toList_write slashDate m
    have hyear : ∀ parts, DatePattern.read (isoDate ++ parts) (slashDate.write m) = none :=
      fun parts => read_year_eq_none hmonth (by decide) (by decide) hchars
    have hdate : isoDate.read (slashDate.write m) = none := hyear []
    simp only [List.findSome?_cons, standard, joined, withoutSeconds, hyear, hdate, hread]
  · have hchars : (dottedDate.write m).toList =
        padded 2 m.date.day ++ '.' :: chars [.month, .mark '.', .year] m :=
      toList_write dottedDate m
    have hyear : ∀ parts, DatePattern.read (isoDate ++ parts) (dottedDate.write m) = none :=
      fun parts => read_year_eq_none hday (by decide) (by decide) hchars
    have hdate : isoDate.read (dottedDate.write m) = none := hyear []
    have hslash : slashDate.read (dottedDate.write m) = none := by
      rw [DatePattern.read, hchars, slashDate, readFrom_month_eq_none hday (by decide)]
      rfl
    simp only [List.findSome?_cons, standard, joined, withoutSeconds, hyear, hdate, hslash, hread]

theorem readSide_write {p : DatePattern} (hp : p ∈ patterns) {m : Moment} (hm : m.isValid = true) :
    readSide (Text.trim (p.write m)) = .ok (p.shown m) := by
  rw [DatePattern.trim_write (isPlain_of_mem_patterns p hp), readSide, findSome?_write hp hm]

theorem dashesBound_padded (width n : Nat) : Text.DashesBound (padded width n) :=
  Text.dashesBound_digits fun _ => isDigit_of_mem_padded

theorem dashesBound_year (year : Int) : Text.DashesBound (writeYear year) := by
  obtain ⟨sign, hsign, hyear⟩ := writeYear_eq year
  rw [hyear]
  rcases hsign with rfl | rfl | rfl
  · exact dashesBound_padded 4 _
  · exact Text.dashesBound_dash_digits (padded_ne_nil 4 _) fun _ => isDigit_of_mem_padded
  · exact Text.DashesBound.append (Text.dashesBound_of_not_mem (by decide)) (dashesBound_padded 4 _)

theorem dashesBound_chars {p : DatePattern}
    (hchain : List.IsChain (fun part next => DatePart.precedes part next = true) p)
    (hlast : ∀ part ∈ p.getLast?, part.isNumber = true) (m : Moment) :
    Text.DashesBound (p.chars m) := by
  induction p with
  | nil => exact List.isChain_singleton _
  | cons part p ih =>
    have hp : Text.DashesBound (DatePattern.chars p m) := ih hchain.of_cons fun part' hpart' =>
      hlast part' (by rw [List.getLast?_cons, Option.mem_def.mp hpart']; rfl)
    rw [DatePattern.chars_cons]
    cases part with
    | mark c =>
      by_cases hc : c = '-'
      · cases p with
        | nil => cases hlast _ rfl
        | cons next p =>
          have hnumber : next.isNumber = true := by
            simpa [DatePart.precedes, hc] using (List.isChain_cons_cons.mp hchain).1
          obtain ⟨⟨d, ds, hfirst, hblank⟩, -⟩ := DatePart.exists_ends hnumber m
          have hspace : d ≠ ' ' := by
            rintro rfl
            exact absurd hblank (by decide)
          have hrest : DatePattern.chars (next :: p) m = d :: (ds ++ DatePattern.chars p m) := by
            rw [DatePattern.chars_cons, hfirst, List.cons_append]
          rw [hc]
          exact hp.dash hrest hspace
      · refine Text.DashesBound.append (Text.dashesBound_of_not_mem ?_) hp
        simpa [DatePart.write] using Ne.symm hc
    | blank =>
      exact Text.DashesBound.append (Text.dashesBound_of_not_mem (by simp [DatePart.write])) hp
    | year => exact (dashesBound_year m.date.year).append hp
    | _ => exact (dashesBound_padded _ _).append hp

theorem sides?_write {p q : DatePattern} (hp : p ∈ patterns) (hq : q ∈ patterns)
    (first second : Moment) {tail : String}
    (htail : tail = "" ∨ ∃ more, tail = separator ++ more) :
    sides? (p.write first ++ separator ++ (q.write second ++ tail)) =
      some (p.write first, q.write second) := by
  have hbound : ∀ p ∈ patterns, ∀ m, Text.DashesBound (p.write m).toList := by
    intro p hp m
    have hplain := isPlain_of_mem_patterns p hp
    rw [DatePattern.toList_write]
    exact dashesBound_chars hplain.chain hplain.last m
  rw [sides?, cutText_separator (hbound p hp first)]
  rcases htail with rfl | ⟨more, rfl⟩
  · have hnone : Text.cutText separator (q.write second) = none := by
      rw [Text.cutText, toList_separator, Text.cutAt_eq_none.mpr (hbound q hq second).not_isInfix]
      rfl
    simp only [Option.map_some, String.append_empty, hnone]
  · rw [← String.append_assoc]
    simp only [Option.map_some, cutText_separator (hbound q hq second)]

/-- One of the patterns reads the text, without the blanks around it. -/
def Accepts (part : String) : Prop := ∃ p ∈ patterns, (p.read (Text.trim part)).isSome = true

instance (part : String) : Decidable (Accepts part) :=
  inferInstanceAs (Decidable (∃ p ∈ patterns, (p.read (Text.trim part)).isSome = true))

theorem accepts_of_readSide {part : String} {m : Moment}
    (h : readSide (Text.trim part) = .ok m) : Accepts part := by
  unfold readSide at h
  split at h
  · next m' hm' =>
    obtain ⟨p, hp, hread⟩ := List.exists_of_findSome?_eq_some hm'
    exact ⟨p, hp, by rw [hread]; rfl⟩
  · cases h

theorem eq_of_sides? {s low high : String} {parts : List (List Char)}
    (hparts : Text.IsSplit separator.toList s.toList parts) (h : sides? s = some (low, high)) :
    ∃ more, parts = low.toList :: high.toList :: more := by
  rw [sides?, Text.cutText] at h
  cases hparts with
  | last hnone =>
    rw [Text.cutAt_eq_none.mpr hnone] at h
    cases h
  | cut hcut hrest =>
    rw [Text.cutAt_eq_some.mpr hcut] at h
    simp only [Option.map_some, Text.cutText, String.toList_ofList] at h
    cases hrest with
    | last hnone =>
      rw [Text.cutAt_eq_none.mpr hnone] at h
      cases h
      exact ⟨[], by simp⟩
    | @cut _ _ _ more hcut' hmore =>
      rw [Text.cutAt_eq_some.mpr hcut'] at h
      cases h
      exact ⟨more, by simp⟩

/-- **The first two parts of a range are dates.** -/
theorem accepts_of_read {s : String} {range : Moment × Moment} {parts : List (List Char)}
    (hparts : Text.IsSplit separator.toList s.toList parts) (h : read s = .ok range) :
    ∃ low high more, parts = low :: high :: more ∧ Accepts (String.ofList low) ∧
      Accepts (String.ofList high) := by
  unfold read at h
  split at h
  · cases h
  · next low high hsides =>
    obtain ⟨start, hstart, h⟩ := Outcome.bind_eq_ok.mp h
    obtain ⟨stop, hstop, -⟩ := Outcome.bind_eq_ok.mp h
    obtain ⟨more, rfl⟩ := eq_of_sides? hparts hsides
    refine ⟨low.toList, high.toList, more, rfl, ?_, ?_⟩
    · rw [String.ofList_toList]
      exact accepts_of_readSide hstart
    · rw [String.ofList_toList]
      exact accepts_of_readSide hstop

end DateRange

/-- **Ranges of dates**: two moments of the calendar, each written in one of the patterns, with
` - ` between them and any more parts behind them, are a range from the first moment, as far as its
pattern shows it, to the last second of the second date. A text whose first two parts are not both
dates is left out. -/
theorem Filter.narrow_dateRange (initial : Option String) (acc : Group) (target : Target)
    (type : Option FieldType) (counter : Nat) :
    (∀ first second : Moment, first.isValid = true → second.isValid = true →
      ∀ p ∈ DateRange.patterns, ∀ q ∈ DateRange.patterns, ∀ tail : String,
      (tail = "" ∨ ∃ more, tail = " - " ++ more) →
        (Filter.dateRange initial).narrow acc
          ⟨target, p.write first ++ " - " ++ (q.write second ++ tail), type⟩ counter =
          acc.pushRange target (.moment (p.shown first)) (.moment second.date.lastSecond) counter) ∧
    ∀ value : String, ∃ parts, Text.IsSplit " - ".toList value.toList parts ∧
      ((¬ ∃ low high more, parts = low :: high :: more ∧ DateRange.Accepts (String.ofList low) ∧
          DateRange.Accepts (String.ofList high)) →
        (Filter.dateRange initial).narrow acc ⟨target, value, type⟩ counter = (acc, counter)) := by
  constructor
  · intro first second hfirst hsecond p hp q hq tail htail
    have hdash :
        (p.write first ++ " - " ++ (q.write second ++ tail)).toList.contains '-' = true := by
      simp
    have hdate : (q.shown second).date = second.date := by
      have hplain := DateRange.isPlain_of_mem_patterns q hq
      simp [DatePattern.shown, hplain.year, hplain.month, hplain.day]
    have hread : DateRange.read (p.write first ++ " - " ++ (q.write second ++ tail)) =
        .ok (p.shown first, second.date.lastSecond) := by
      have hsides := DateRange.sides?_write hp hq first second htail
      rw [DateRange.separator] at hsides
      rw [DateRange.read, hsides]
      simp only [DateRange.readSide_write hp hfirst, DateRange.readSide_write hq hsecond]
      rw [← hdate]
      rfl
    simp only [narrow, narrowDates, hdash, if_true, hread, narrowBetween_eq]
  · intro value
    have hseparator : " - ".toList ≠ [] := by decide
    obtain ⟨parts, hparts, -⟩ := Text.existsUnique_isSplit hseparator value.toList
    refine ⟨parts, hparts, fun hnot => ?_⟩
    simp only [narrow, narrowDates]
    split
    · split
      · next hread => exact absurd (DateRange.accepts_of_read hparts hread) hnot
      · rfl
    · rfl

theorem Filter.narrow_dateRange_ancient :
    Moment.isValid ⟨⟨-44, 3, 15⟩, 11, 30, 59⟩ = true ∧
      Moment.isValid ⟨⟨262142, 12, 31⟩, 8, 0, 0⟩ = true ∧
      (Filter.dateRange none).narrow (Group.all [])
        ⟨.column "event" "at", "-0044-03-15 11:30 - 31.12.+262142 - tomorrow", none⟩ 100 =
        (Group.all []).pushRange (.column "event" "at") (.moment ⟨⟨-44, 3, 15⟩, 11, 30, 0⟩)
          (.moment ⟨⟨262142, 12, 31⟩, 23, 59, 59⟩) 100 := by
  have hvalue : DatePattern.withoutSeconds.write ⟨⟨-44, 3, 15⟩, 11, 30, 59⟩ ++ " - " ++
      (DatePattern.dottedDate.write ⟨⟨262142, 12, 31⟩, 8, 0, 0⟩ ++ (" - " ++ "tomorrow")) =
      "-0044-03-15 11:30 - 31.12.+262142 - tomorrow" := by decide
  have hrange := (Filter.narrow_dateRange none (Group.all []) (.column "event" "at") none 100).1
    ⟨⟨-44, 3, 15⟩, 11, 30, 59⟩ ⟨⟨262142, 12, 31⟩, 8, 0, 0⟩ (by decide) (by decide)
    .withoutSeconds (by decide) .dottedDate (by decide) (" - " ++ "tomorrow") (.inr ⟨_, rfl⟩)
  rw [hvalue] at hrange
  exact ⟨by decide, by decide, hrange⟩

end TableQuery
