import Mathlib.Algebra.Field.Rat
import Mathlib.Tactic.SplitIfs
import TableQuery.Decimal.Literal
import TableQuery.Sql.Value
import TableQuery.Proofs.Text.Words

/-! # Literals of SQL

A literal of SQL is a numeral, or a text between quotes in which every quote is written twice
(`Denotes`). A literal denotes one value only (`Denotes.unique`): a text is found again from its
doubled quotes (`quoted_iff`), and the parts of a numeral from where its digits end
(`Numeral.value_eq_of_text_eq`). A numeral is also a number of the texts that are searched for, with
the same digits and the same power of ten (`Numeral.read?_text`); conversely, what is read as a
number without being a word is a numeral (`Numeral.exists_text_eq`). -/

namespace TableQuery

/-! ### Texts between quotes -/

/-- A text with every quote written twice. -/
def doubled (cs : List Char) : List Char := Text.replaceChar '\x27' ['\x27', '\x27'] cs

theorem doubled_cons (c : Char) (cs : List Char) :
    doubled (c :: cs) = (if c = '\x27' then ['\x27', '\x27'] else [c]) ++ doubled cs := rfl

theorem doubled_of_not_mem {cs : List Char} (h : '\x27' ∉ cs) : doubled cs = cs := by
  induction cs with
  | nil => rfl
  | cons c cs ih =>
    rw [List.mem_cons, not_or] at h
    rw [doubled_cons, if_neg (Ne.symm h.1), ih h.2, List.singleton_append]

theorem doubled_inj : ∀ {cs ds : List Char}, doubled cs = doubled ds → cs = ds
  | [], [], _ => rfl
  | [], d :: ds, h => by
    rw [doubled_cons] at h
    split_ifs at h <;> simp [doubled, Text.replaceChar] at h
  | c :: cs, [], h => by
    rw [doubled_cons] at h
    split_ifs at h <;> simp [doubled, Text.replaceChar] at h
  | c :: cs, d :: ds, h => by
    rw [doubled_cons, doubled_cons] at h
    split_ifs at h with hc hd hd
    · rw [hc, hd, doubled_inj (List.append_cancel_left h)]
    · exact absurd (List.cons.inj h).1.symm hd
    · exact absurd (List.cons.inj h).1 hc
    · obtain ⟨rfl, hrest⟩ := List.cons.inj h
      rw [doubled_inj hrest]

/-- What stands between the quotes of a literal, and the text that it stands for. -/
inductive Quoted : List Char → List Char → Prop
  | nil : Quoted [] []
  | char {c : Char} {body content : List Char} (hc : c ≠ '\x27') (h : Quoted body content) :
      Quoted (c :: body) (c :: content)
  | quote {body content : List Char} (h : Quoted body content) :
      Quoted ('\x27' :: '\x27' :: body) ('\x27' :: content)

theorem quoted_doubled : ∀ content : List Char, Quoted (doubled content) content
  | [] => .nil
  | c :: content => by
    rw [doubled_cons]
    split_ifs with hc
    · exact hc ▸ .quote (quoted_doubled content)
    · exact .char hc (quoted_doubled content)

theorem quoted_iff {body content : List Char} : Quoted body content ↔ body = doubled content := by
  refine ⟨fun h => ?_, fun h => h ▸ quoted_doubled content⟩
  induction h with
  | nil => rfl
  | char hc _ ih => rw [doubled_cons, if_neg hc, ih, List.singleton_append]
  | quote _ ih => rw [doubled_cons, if_pos rfl, ih, List.cons_append, List.singleton_append]

namespace Value

theorem toList_quoteLiteral (s : String) :
    (Value.quoteLiteral s).toList = '\x27' :: (doubled s.toList ++ ['\x27']) := by
  rw [quoteLiteral, String.toList_ofList, doubled, List.cons_append]

theorem quoteLiteral_inj {s t : String} (h : quoteLiteral s = quoteLiteral t) : s = t := by
  have hchars := congrArg String.toList h
  rw [toList_quoteLiteral, toList_quoteLiteral] at hchars
  exact String.toList_inj.mp (doubled_inj (List.append_cancel_right (List.cons.inj hchars).2))

end Value

/-! ### Numerals -/

/-- What stands in front of a numeral. -/
inductive Sign where
  | none
  | plus
  | minus
deriving DecidableEq

namespace Sign

/-- The sign in a text. -/
def chars : Sign → List Char
  | .none => []
  | .plus => ['+']
  | .minus => ['-']

/-- The minus. -/
def isMinus : Sign → Bool
  | .minus => true
  | _ => false

end Sign

/-- A power of ten behind a numeral. -/
structure PowerOfTen where
  mark : Char
  sign : Sign
  digits : List Char
  mark_eq : mark = 'e' ∨ mark = 'E'
  digits_ne_nil : digits ≠ []
  isDigit_digits : ∀ c ∈ digits, c.isDigit = true

namespace PowerOfTen

/-- The power in a text. -/
def chars (p : PowerOfTen) : List Char := p.mark :: (p.sign.chars ++ p.digits)

/-- The exponent. -/
def exponent (p : PowerOfTen) : Int := Decimal.signed p.sign.isMinus (Decimal.digitsValue p.digits)

end PowerOfTen

/-- A numeral: an optional sign, digits around an optional point, and an optional power of ten. -/
structure Numeral where
  sign : Sign
  whole : List Char
  /-- The digits behind the point. -/
  fraction : Option (List Char)
  power : Option PowerOfTen
  isDigit_whole : ∀ c ∈ whole, c.isDigit = true
  isDigit_fraction : ∀ c ∈ fraction.getD [], c.isDigit = true
  /-- A digit stands on either side of the point. -/
  digits_ne_nil : whole ++ fraction.getD [] ≠ []

namespace Numeral

/-- All digits in front of the power of ten. -/
def digits (n : Numeral) : List Char := n.whole ++ n.fraction.getD []

/-- The power of ten that the digits are scaled by, if they are read as a whole number. -/
def scale (n : Numeral) : Int :=
  (n.power.map PowerOfTen.exponent).getD 0 - (n.fraction.getD []).length

/-- The number that the numeral stands for. -/
def value (n : Numeral) : ℚ :=
  (Decimal.signed n.sign.isMinus (Decimal.digitsValue n.digits) : ℚ) * 10 ^ n.scale

/-- The power of ten in a text. -/
def powerChars (n : Numeral) : List Char := (n.power.map PowerOfTen.chars).getD []

/-- The point and what stands behind it. -/
def fractionChars (n : Numeral) : List Char := (n.fraction.map ('.' :: ·)).getD []

/-- The numeral without its sign. -/
def magnitude (n : Numeral) : List Char := n.whole ++ (n.fractionChars ++ n.powerChars)

/-- The text of the numeral. -/
def text (n : Numeral) : String := String.ofList (n.sign.chars ++ n.magnitude)

end Numeral

/-! ### Reading numerals -/

theorem takeWhile_isDigit_append {xs ys : List Char} (hx : ∀ c ∈ xs, c.isDigit = true)
    (hy : ∀ c ∈ ys.head?, c.isDigit = false) :
    (xs ++ ys).takeWhile Char.isDigit = xs ∧ (xs ++ ys).dropWhile Char.isDigit = ys := by
  rw [List.takeWhile_append_of_pos hx, List.dropWhile_append_of_pos hx]
  cases ys with
  | nil => simp
  | cons c ys =>
    have hc : ¬ c.isDigit = true := by simp [hy c rfl]
    rw [List.takeWhile_cons_of_neg hc, List.dropWhile_cons_of_neg hc, List.append_nil]
    exact ⟨rfl, rfl⟩

theorem takeSign_append (sign : Sign) {cs : List Char}
    (h : ∀ c ∈ cs.head?, c.isDigit = true ∨ c = '.') :
    Decimal.takeSign (sign.chars ++ cs) = (sign.isMinus, cs) := by
  cases sign with
  | none =>
    rw [Sign.chars, List.nil_append]
    unfold Decimal.takeSign
    split
    · exact absurd (h '-' rfl) (by decide)
    · exact absurd (h '+' rfl) (by decide)
    · rfl
  | plus => rfl
  | minus => rfl

theorem exists_takeSign (cs : List Char) : ∃ sign : Sign, ∃ rest, cs = sign.chars ++ rest ∧
    Decimal.takeSign cs = (sign.isMinus, rest) := by
  unfold Decimal.takeSign
  split
  · exact ⟨.minus, _, rfl, rfl⟩
  · exact ⟨.plus, _, rfl, rfl⟩
  · exact ⟨.none, _, rfl, rfl⟩

namespace PowerOfTen

theorem readPower?_chars (p : PowerOfTen) : Decimal.readPower? p.chars = some p.exponent := by
  have hhead : ∀ c ∈ p.digits.head?, c.isDigit = true ∨ c = '.' := fun c hc =>
    .inl (p.isDigit_digits c (List.mem_of_mem_head? hc))
  have hall : p.digits.all Char.isDigit = true := List.all_eq_true.mpr p.isDigit_digits
  have hne : p.digits.isEmpty = false := by simpa using p.digits_ne_nil
  rw [chars, Decimal.readPower?, if_pos p.mark_eq, takeSign_append p.sign hhead]
  simp [hne, hall, exponent]

theorem exists_of_readPower? {cs : List Char} {e : Int} (h : Decimal.readPower? cs = some e) :
    cs = [] ∨ ∃ p : PowerOfTen, cs = p.chars := by
  cases cs with
  | nil => exact .inl rfl
  | cons c cs =>
    rw [Decimal.readPower?] at h
    obtain ⟨sign, rest, rfl, hsign⟩ := exists_takeSign cs
    split_ifs at h with hmark
    rw [hsign] at h
    dsimp only at h
    split_ifs at h with hdigits
    rw [Bool.or_eq_true, not_or, List.isEmpty_iff, Bool.not_eq_true', Bool.not_eq_false,
      List.all_eq_true] at hdigits
    exact .inr ⟨⟨c, sign, rest, hmark, hdigits.1, hdigits.2⟩, rfl⟩

end PowerOfTen

namespace Numeral

variable (n : Numeral)

theorem head?_powerChars : ∀ c ∈ n.powerChars.head?, c = 'e' ∨ c = 'E' := by
  rw [powerChars]
  cases n.power with
  | none => exact fun c hc => nomatch hc
  | some p =>
    intro c hc
    cases hc
    exact p.mark_eq

theorem isDigit_of_head?_powerChars : ∀ c ∈ n.powerChars.head?, c.isDigit = false := by
  intro c hc
  rcases n.head?_powerChars c hc with rfl | rfl <;> decide

theorem isDigit_of_head?_rest :
    ∀ c ∈ (n.fractionChars ++ n.powerChars).head?, c.isDigit = false := by
  rw [fractionChars]
  cases n.fraction with
  | none => exact n.isDigit_of_head?_powerChars
  | some f =>
    intro c hc
    cases hc
    decide

theorem head?_magnitude : ∃ c cs, n.magnitude = c :: cs ∧ (c.isDigit = true ∨ c = '.') := by
  cases hwhole : n.whole with
  | cons c cs =>
    refine ⟨c, cs ++ (n.fractionChars ++ n.powerChars), ?_, .inl (n.isDigit_whole c ?_)⟩
    · rw [magnitude, hwhole, List.cons_append]
    · rw [hwhole]
      exact List.mem_cons_self
  | nil =>
    cases hfraction : n.fraction with
    | none => exact absurd n.digits_ne_nil (by simp [hwhole, hfraction])
    | some f =>
      refine ⟨'.', f ++ n.powerChars, ?_, .inr rfl⟩
      simp [magnitude, hwhole, fractionChars, hfraction]

theorem head?_text : ∃ c cs, n.text.toList = c :: cs ∧
    (c.isDigit = true ∨ c = '+' ∨ c = '-' ∨ c = '.') := by
  rw [text, String.toList_ofList]
  cases n.sign with
  | none =>
    obtain ⟨c, cs, hmagnitude, hc⟩ := n.head?_magnitude
    exact ⟨c, cs, hmagnitude, hc.imp_right fun hdot => .inr (.inr hdot)⟩
  | plus => exact ⟨'+', n.magnitude, rfl, .inr (.inl rfl)⟩
  | minus => exact ⟨'-', n.magnitude, rfl, .inr (.inr (.inl rfl))⟩

theorem takeSign_text : Decimal.takeSign n.text.toList = (n.sign.isMinus, n.magnitude) := by
  obtain ⟨c, cs, hmagnitude, hc⟩ := n.head?_magnitude
  rw [text, String.toList_ofList, takeSign_append]
  rw [hmagnitude]
  intro d hd
  cases hd
  exact hc

theorem readPower?_powerChars :
    Decimal.readPower? n.powerChars = some ((n.power.map PowerOfTen.exponent).getD 0) := by
  rw [powerChars]
  cases n.power with
  | none => rfl
  | some p => exact p.readPower?_chars

theorem asciiLower_magnitude_ne {word : String}
    (hword : word.toList.head?.any (fun c => c.isDigit || c == '.') = false) :
    Text.asciiLower (String.ofList n.magnitude) ≠ word := by
  rintro rfl
  obtain ⟨c, cs, hmagnitude, hc⟩ := n.head?_magnitude
  rw [Text.asciiLower, String.toList_ofList, String.toList_ofList, hmagnitude, List.map_cons,
    List.head?_cons, Option.any_some] at hword
  rcases hc with hc | rfl
  · rw [Text.toLower_of_isDigit hc, hc] at hword
    cases hword
  · exact absurd hword (by decide)

/-- **A numeral is read as a number**, with its digits and its power of ten. -/
theorem read?_text : Decimal.read? n.text = some (Decimal.nearestScaled n.sign.isMinus
    (Decimal.digitsValue n.digits) n.digits.length n.scale) := by
  obtain ⟨hwhole, hrest⟩ := takeWhile_isDigit_append n.isDigit_whole n.isDigit_of_head?_rest
  have hinf : Text.asciiLower (String.ofList n.magnitude) ≠ "inf" ∧
      Text.asciiLower (String.ofList n.magnitude) ≠ "infinity" ∧
      Text.asciiLower (String.ofList n.magnitude) ≠ "nan" :=
    ⟨n.asciiLower_magnitude_ne (by decide), n.asciiLower_magnitude_ne (by decide),
      n.asciiLower_magnitude_ne (by decide)⟩
  have hdigits : ¬ (n.whole ++ n.fraction.getD []).isEmpty = true := by
    simpa using n.digits_ne_nil
  have hpower := n.readPower?_powerChars
  rw [Decimal.read?, takeSign_text]
  dsimp only
  rw [Decimal.readMagnitude?]
  dsimp only
  rw [if_neg (not_or.mpr ⟨hinf.1, hinf.2.1⟩), if_neg hinf.2.2, magnitude, hwhole, hrest]
  cases hfraction : n.fraction with
  | some f =>
    have hf : ∀ c ∈ f, c.isDigit = true := by simpa [hfraction] using n.isDigit_fraction
    obtain ⟨htake, hdrop⟩ := takeWhile_isDigit_append hf n.isDigit_of_head?_powerChars
    rw [hfraction, Option.getD_some] at hdigits
    simp only [fractionChars, hfraction, Option.map_some, Option.getD_some, List.cons_append, htake,
      hdrop, hpower, if_neg hdigits, digits, scale]
  | none =>
    rw [hfraction, Option.getD_none, List.append_nil] at hdigits
    simp only [fractionChars, hfraction, Option.map_none, Option.getD_none, List.nil_append]
    split
    · next r heq => exact absurd (n.head?_powerChars '.' (by rw [heq]; rfl)) (by decide)
    · simp only [List.append_nil, if_neg hdigits, hpower, digits, scale, hfraction,
        Option.getD_none, Option.map_some]

theorem parts_eq_of_rest_eq {n m : Numeral}
    (h : n.fractionChars ++ n.powerChars = m.fractionChars ++ m.powerChars) :
    n.fraction = m.fraction ∧ n.powerChars = m.powerChars := by
  rw [fractionChars, fractionChars] at h
  cases hn : n.fraction with
  | none =>
    cases hm : m.fraction with
    | none => exact ⟨rfl, by simpa [hn, hm] using h⟩
    | some f =>
      rw [hn, hm] at h
      -- the power of ten of one numeral would begin with the point of the other
      exact absurd (n.head?_powerChars '.' (by simpa using congrArg List.head? h)) (by decide)
  | some f =>
    cases hm : m.fraction with
    | none =>
      rw [hn, hm] at h
      exact absurd (m.head?_powerChars '.' (by simpa using congrArg List.head? h.symm))
        (by decide)
    | some f' =>
      have hf : ∀ c ∈ f, c.isDigit = true := by simpa [hn] using n.isDigit_fraction
      have hf' : ∀ c ∈ f', c.isDigit = true := by simpa [hm] using m.isDigit_fraction
      obtain ⟨htake, hdrop⟩ := takeWhile_isDigit_append hf n.isDigit_of_head?_powerChars
      obtain ⟨htake', hdrop'⟩ := takeWhile_isDigit_append hf' m.isDigit_of_head?_powerChars
      rw [hn, hm] at h
      have heq : f ++ n.powerChars = f' ++ m.powerChars := (List.cons.inj h).2
      exact ⟨congrArg some (by rw [← htake, heq, htake']), by rw [← hdrop, heq, hdrop']⟩

/-- **The parts of a numeral are found again**, so that a text stands for one number only. -/
theorem value_eq_of_text_eq {n m : Numeral} (h : n.text = m.text) : n.value = m.value := by
  have hsign := m.takeSign_text
  rw [← h, n.takeSign_text] at hsign
  obtain ⟨hminus, hmagnitude⟩ := Prod.mk.inj hsign
  obtain ⟨hwhole, hrest⟩ := takeWhile_isDigit_append n.isDigit_whole n.isDigit_of_head?_rest
  obtain ⟨hwhole', hrest'⟩ := takeWhile_isDigit_append m.isDigit_whole m.isDigit_of_head?_rest
  rw [magnitude, magnitude] at hmagnitude
  rw [hmagnitude, hwhole'] at hwhole
  rw [hmagnitude, hrest'] at hrest
  have hparts := parts_eq_of_rest_eq hrest.symm
  have hexponent : (n.power.map PowerOfTen.exponent).getD 0 =
      (m.power.map PowerOfTen.exponent).getD 0 := by
    have hpower := n.readPower?_powerChars
    rw [hparts.2, m.readPower?_powerChars] at hpower
    exact (Option.some.inj hpower).symm
  rw [value, value, hminus, digits, digits, scale, scale, hexponent, ← hwhole, hparts.1]

theorem exists_of_readPower? (sign : Sign) {whole rest : List Char}
    (hwhole : ∀ c ∈ whole, c.isDigit = true) (fraction : Option (List Char))
    (hfraction : ∀ c ∈ fraction.getD [], c.isDigit = true)
    (hne : whole ++ fraction.getD [] ≠ []) (h : (Decimal.readPower? rest).isSome = true) :
    ∃ n : Numeral, n.text =
      String.ofList (sign.chars ++ (whole ++ ((fraction.map ('.' :: ·)).getD [] ++ rest))) := by
  obtain ⟨e, he⟩ := Option.isSome_iff_exists.mp h
  rcases PowerOfTen.exists_of_readPower? he with rfl | ⟨p, rfl⟩
  · exact ⟨⟨sign, whole, fraction, none, hwhole, hfraction, hne⟩, rfl⟩
  · exact ⟨⟨sign, whole, fraction, some p, hwhole, hfraction, hne⟩, rfl⟩

theorem asciiLower_ne {cs : List Char} (h : ∀ c ∈ cs, c.toLower ≠ 'n') {word : String}
    (hmem : 'n' ∈ word.toList) : Text.asciiLower (String.ofList cs) ≠ word := by
  rintro rfl
  rw [Text.asciiLower, String.toList_ofList, String.toList_ofList] at hmem
  obtain ⟨c, hc, hlower⟩ := List.mem_map.mp hmem
  exact h c hc hlower

/-- **What is read as a number, and is no word, is a numeral.** -/
theorem exists_text_eq {s : String} (hword : ∀ c ∈ s.toList, c.toLower ≠ 'n')
    (h : (Decimal.read? s).isSome = true) : ∃ n : Numeral, n.text = s := by
  obtain ⟨sign, cs, hs, hsign⟩ := exists_takeSign s.toList
  have hcs : ∀ c ∈ cs, c.toLower ≠ 'n' := fun c hc => hword c (by simp [hs, hc])
  rw [Decimal.read?, hsign] at h
  dsimp only at h
  rw [Decimal.readMagnitude?] at h
  dsimp only at h
  have hinf : ¬ (Text.asciiLower (String.ofList cs) = "inf" ∨
      Text.asciiLower (String.ofList cs) = "infinity") :=
    not_or.mpr ⟨asciiLower_ne hcs (by decide), asciiLower_ne hcs (by decide)⟩
  rw [if_neg hinf, if_neg (asciiLower_ne hcs (by decide))] at h
  have hjoin : cs.takeWhile Char.isDigit ++ cs.dropWhile Char.isDigit = cs :=
    List.takeWhile_append_dropWhile
  have hwhole : ∀ c ∈ cs.takeWhile Char.isDigit, c.isDigit = true :=
    List.all_eq_true.mp List.all_takeWhile
  have hs' : String.ofList (sign.chars ++ cs) = s := by rw [← hs, String.ofList_toList]
  split at h
  · next rest hdrop =>
    have hrest : rest.takeWhile Char.isDigit ++ rest.dropWhile Char.isDigit = rest :=
      List.takeWhile_append_dropWhile
    rw [← hs', ← hjoin, hdrop, ← hrest]
    split at h
    · cases h
    · next hdigits =>
      rw [Option.isSome_map] at h
      exact exists_of_readPower? sign hwhole (some _) (List.all_eq_true.mp List.all_takeWhile)
        (by simpa using hdigits) h
  · rw [← hs', ← hjoin]
    split at h
    · cases h
    · next hdigits =>
      rw [Option.isSome_map] at h
      exact exists_of_readPower? sign hwhole none (by simp) (by simpa using hdigits) h

end Numeral

/-! ### What a literal denotes -/

/-- The value of a literal. -/
inductive LiteralValue where
  | number (value : ℚ)
  | text (content : String)

/-- **The value that a literal denotes.** -/
inductive Denotes : String → LiteralValue → Prop
  | number (n : Numeral) : Denotes n.text (.number n.value)
  | text {body content : List Char} (h : Quoted body content) :
      Denotes (String.ofList ('\x27' :: (body ++ ['\x27']))) (.text (String.ofList content))

theorem denotes_text_iff {s content : String} :
    Denotes s (.text content) ↔ s = Value.quoteLiteral content := by
  constructor
  · rintro ⟨⟩
    next body content h =>
    rw [quoted_iff.mp h]
    exact String.toList_inj.mp (by rw [Value.toList_quoteLiteral]; simp)
  · rintro rfl
    have h := Denotes.text (quoted_doubled content.toList)
    rwa [String.ofList_toList, ← Value.toList_quoteLiteral, String.ofList_toList] at h

theorem denotes_number_iff {s : String} {q : ℚ} :
    Denotes s (.number q) ↔ ∃ n : Numeral, n.text = s ∧ n.value = q := by
  constructor
  · rintro ⟨n⟩
    exact ⟨n, rfl, rfl⟩
  · rintro ⟨n, rfl, rfl⟩
    exact .number n

/-- A numeral does not begin with a quote. -/
theorem Numeral.text_ne_quoteLiteral (n : Numeral) (content : String) :
    n.text ≠ Value.quoteLiteral content := by
  intro heq
  obtain ⟨c, cs, htext, hc⟩ := n.head?_text
  rw [heq, Value.toList_quoteLiteral] at htext
  obtain ⟨rfl, -⟩ := List.cons.inj htext
  rcases hc with hc | hc | hc | hc <;> exact absurd hc (by decide)

/-- **A literal denotes one value only.** -/
theorem Denotes.unique {s : String} {v w : LiteralValue} (hv : Denotes s v) (hw : Denotes s w) :
    v = w := by
  cases v with
  | number q =>
    obtain ⟨n, rfl, rfl⟩ := denotes_number_iff.mp hv
    cases w with
    | number q' =>
      obtain ⟨m, htext, rfl⟩ := denotes_number_iff.mp hw
      rw [Numeral.value_eq_of_text_eq htext]
    | text content => exact absurd (denotes_text_iff.mp hw) (n.text_ne_quoteLiteral content)
  | text content =>
    rw [denotes_text_iff] at hv
    cases w with
    | number q =>
      obtain ⟨n, htext, -⟩ := denotes_number_iff.mp hw
      exact absurd (htext.trans hv) (n.text_ne_quoteLiteral content)
    | text content' => rw [Value.quoteLiteral_inj (hv.symm.trans (denotes_text_iff.mp hw))]

end TableQuery
