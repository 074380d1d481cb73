import TableQuery.Proofs.Decimal.Literal
import TableQuery.Proofs.Json.Respelling
import TableQuery.Proofs.Text.Words
import TableQuery.Request

/-! # Requests that are written in another way

A client may write the scalars of a request in several ways: an integer as a number or a text, a
truth value as a word or a number, a search text as what prints as that text, and a direction in any
case. Each scalar is read as the same value in all of them (`Scalar.WritesInt.decodeInt_eq` and the
like), and upwards is read where a direction is left out (`OrderRequest.respects_respelled`). So a
request that is read stays the same one if any of its scalars are written in another way
(`Request.decode_respelled`). -/

namespace TableQuery

open Json Decoder Outcome

/-! ### Ways to write a scalar -/

namespace Scalar

/-- An integer of 64 bits is a number, or a text with blanks around it, and with a plus sign in
front of it if it is not negative. -/
inductive WritesInt : Int → Written → Prop
  | number {i : Int} (hi : Decimal.isInt64 i = true) : WritesInt i (.num (some (.int i)))
  | text {i : Int} {sign text : String} (hi : Decimal.isInt64 i = true)
    (hsign : sign = "" ∨ sign = "+" ∧ 0 ≤ i) (htext : Text.IsPadded (sign ++ toString i) text) :
    WritesInt i (.str (some text))

/-- The forms of a truth value. -/
def boolForms : Bool → List Written
  | true => [.bool true, .str (some "true"), .num (some (.int 1)), .str (some "1")]
  | false => [.bool false, .str (some "false"), .num (some (.int 0)), .str (some "0"), .null]

/-- A truth value is one of its forms. -/
def WritesBool (b : Bool) (w : Written) : Prop := w ∈ boolForms b

/-- A search text is itself, or an integer or a truth value that prints as the text, and an empty
one is null. -/
inductive WritesText : String → Written → Prop
  | text (s : String) : WritesText s (.str (some s))
  | int {i : Int} (hi : Decimal.isInt64 i = true) : WritesText (toString i) (.num (some (.int i)))
  | bool (b : Bool) : WritesText (toString b) (.bool b)
  | null : WritesText "" .null

/-- A direction is its word in any case with blanks around it, and upwards is null. -/
inductive WritesDirection : Direction → Written → Prop
  | word {d : Direction} {word text : String} (hword : Text.eqIgnoringCase word d.name = true)
    (htext : Text.IsPadded word text) : WritesDirection d (.str (some text))
  | null : WritesDirection .asc .null

/-! ### Scalars are read the same -/

theorem readInt?_of_signed {i : Int} {sign text : String} (hsign : sign = "" ∨ sign = "+" ∧ 0 ≤ i)
    (htext : Text.IsPadded (sign ++ toString i) text) :
    Decimal.readInt? (Text.trim text) = some i := by
  have hread : Decimal.readInt? (sign ++ toString i) = some i := by
    rcases hsign with rfl | ⟨rfl, hi⟩
    · rw [String.empty_append, Decimal.readInt?_toString]
    · exact Decimal.readInt?_plus hi
  rw [(Text.isPadded_iff (Decimal.trim_of_readInt? hread)).mp htext, hread]

theorem WritesInt.exists_decode {i : Int} {w : Written} (h : WritesInt i w) :
    ∃ s, decode w = .ok s ∧ s.asInt? = some i := by
  cases h with
  | number hi => exact ⟨.int i, by rw [decode, if_pos hi], rfl⟩
  | @text _ text hi hsign htext =>
    refine ⟨.text text, rfl, ?_⟩
    rw [asInt?, Decimal.readInt64?, readInt?_of_signed hsign htext, Option.filter_some, if_pos hi]

theorem WritesInt.decodeInt_eq {i : Int} {w : Written} (h : WritesInt i w) :
    decodeInt w = .ok (some i) := by
  obtain ⟨s, hs, hi⟩ := h.exists_decode
  rw [decodeInt, hs, Except.map, hi]

theorem WritesInt.decodeColumn_eq {i : Int} {w : Written} (h : WritesInt i w) :
    decodeColumn w = if 0 ≤ i then .ok i.toNat else .error .notAColumn := by
  obtain ⟨s, hs, hi⟩ := h.exists_decode
  rw [decodeColumn, hs, Except.bind, asColumn, hi]

theorem WritesBool.decodeBool_eq {b : Bool} {w : Written} (h : WritesBool b w) :
    decodeBool w = .ok b := by
  cases b with
  | true =>
    simp only [WritesBool, boolForms, List.mem_cons, List.not_mem_nil, or_false] at h
    rcases h with rfl | rfl | rfl | rfl <;> decide
  | false =>
    simp only [WritesBool, boolForms, List.mem_cons, List.not_mem_nil, or_false] at h
    rcases h with rfl | rfl | rfl | rfl | rfl <;> decide

theorem WritesText.decodeText_eq {s : String} {w : Written} (h : WritesText s w) :
    decodeText w = .ok s := by
  cases h with
  | text => rfl
  | int hi => rw [decodeText, decode, if_pos hi]; rfl
  | bool b => cases b <;> rfl
  | null => rfl

theorem trim_of_eqIgnoringCase {d : Direction} {word : String}
    (h : Text.eqIgnoringCase word d.name = true) : Text.trim word = word := by
  have hname : (d.name.toList.map Char.toLower).all isIdentifierChar = true := by
    cases d <;> decide
  rw [← Text.eqIgnoringCase_iff.mp h, List.all_eq_true, List.forall_mem_map] at hname
  refine Text.trim_eq_self fun c hc => Text.isBlank_of_isIdentifierChar ?_
  rw [← Text.isIdentifierChar_toLower, hname c hc]

theorem asDirection_of_eqIgnoringCase {d : Direction} {text : String}
    (h : Text.eqIgnoringCase (Text.trim text) d.name = true) :
    asDirection (.text text) = .ok d := by
  rw [Text.eqIgnoringCase, beq_iff_eq] at h
  rw [asDirection, Text.eqIgnoringCase, Text.eqIgnoringCase, h]
  cases d <;> decide

theorem WritesDirection.decodeDirection_eq {d : Direction} {w : Written}
    (h : WritesDirection d w) : decodeDirection w = .ok d := by
  cases h with
  | word hword htext =>
    rw [← (Text.isPadded_iff (trim_of_eqIgnoringCase hword)).mp htext] at hword
    rw [decodeDirection, decode, Except.bind]
    exact asDirection_of_eqIgnoringCase hword
  | null => rfl

/-- Other ways to write an integer. -/
abbrev SameInt : Respelling := SameThing WritesInt

/-- Other ways to write a truth value. -/
abbrev SameBool : Respelling := SameThing WritesBool

/-- Other ways to write a search text. -/
abbrev SameText : Respelling := SameThing WritesText

/-- Other ways to write a direction. -/
abbrev SameDirection : Respelling := SameThing WritesDirection

theorem respects_int : Respects decodeInt SameInt :=
  respects_sameThing fun _ _ h => h.decodeInt_eq

theorem respects_column : Respects decodeColumn SameInt :=
  respects_sameThing fun _ _ h => h.decodeColumn_eq

theorem respects_bool : Respects decodeBool SameBool :=
  respects_sameThing fun _ _ h => h.decodeBool_eq

theorem respects_text : Respects decodeText SameText :=
  respects_sameThing fun _ _ h => h.decodeText_eq

theorem respects_direction : Respects decodeDirection SameDirection :=
  respects_sameThing fun _ _ h => h.decodeDirection_eq

end Scalar

open Scalar

/-! ### Ways to write a request -/

/-- Other ways to write a search text with its flag. -/
def SearchBox.Respelled : Respelling := SameRecord [("value", SameText), ("regex", SameBool)]

/-- Other ways to write what a client says about a column. -/
def RequestColumn.Respelled : Respelling :=
  SameRecord [("data", Eq), ("name", Eq), ("searchable", SameBool), ("orderable", SameBool),
    ("search", SearchBox.Respelled)]

namespace OrderRequest

/-- The fields of a term of the order. -/
def fieldTable : FieldTable := [("column", SameInt), ("dir", SameDirection)]

/-- Other ways to write a term of the order; upwards may be left out. -/
inductive Respelled : Respelling
  | fields {w w' : Written} (h : SameRecord fieldTable w w') : Respelled w w'
  | withoutMember {before after : List (Option String × Written)} {d w' : Written}
    {finished : Bool} (hd : WritesDirection .asc d)
    (h : SameRecord fieldTable (.obj (before ++ after) finished) w') :
    Respelled (.obj (before ++ (some "dir", d) :: after) finished) w'
  | withoutItem {c d w' : Written} {finished : Bool} (hd : WritesDirection .asc d)
    (h : SameRecord fieldTable (.arr [c] finished) w') : Respelled (.arr [c, d] finished) w'

end OrderRequest

/-- Other ways to write a request: any of its scalars may be written in another way. -/
def Request.Respelled : Respelling :=
  SameRecord [("draw", SameInt), ("start", SameInt), ("length", SameInt),
    ("search", SearchBox.Respelled), ("columns", SameList RequestColumn.Respelled),
    ("order", SameList OrderRequest.Respelled)]

/-! ### Requests are read the same -/

theorem SearchBox.respects_respelled : Respects decode Respelled :=
  respects_record ⟨by decide, .cons ⟨rfl, respects_field respects_text⟩
    (.cons ⟨rfl, respects_field respects_bool⟩ .nil)⟩ _

theorem RequestColumn.respects_respelled (limit : Option Nat) :
    Respects (decode limit) Respelled :=
  respects_record ⟨by simp [field], .cons ⟨rfl, respects_field (respects_eq _)⟩
    (.cons ⟨rfl, respects_field (respects_eq _)⟩ (.cons ⟨rfl, respects_field respects_bool⟩
      (.cons ⟨rfl, respects_field respects_bool⟩
        (.cons ⟨rfl, respects_field SearchBox.respects_respelled⟩ .nil))))⟩ _

namespace OrderRequest

theorem respects_record : Respects decode (SameRecord fieldTable) :=
  Decoder.respects_record ⟨by decide, .cons ⟨rfl, respects_needed respects_column⟩
    (.cons ⟨rfl, respects_field respects_direction⟩ .nil)⟩ _

/-- The direction of a term. -/
def directionField : Decoder.Field OrderRequest :=
  field "dir" decodeDirection fun o v => { o with direction := v }

theorem read_directionField {d : Written} (hd : WritesDirection .asc d) {o : OrderRequest} :
    directionField.read o d = .ok o ↔ o.direction = .asc := by
  simp only [directionField, field, hd.decodeDirection_eq, Except.map, Except.ok.injEq]
  exact ⟨fun h => h ▸ rfl, fun h => h ▸ rfl⟩

/-- Upwards is read where a direction is left out. -/
theorem decode_withoutMember {before after : List (Option String × Written)} {d : Written}
    {finished : Bool} (hd : WritesDirection .asc d) {o : OrderRequest}
    (h : decode (.obj (before ++ (some "dir", d) :: after) finished) = .ok o) :
    decode (.obj (before ++ after) finished) = .ok o := by
  refine record_leaveOut (f := directionField) (by decide)
    (List.mem_cons_of_mem _ List.mem_cons_self) rfl ((read_directionField hd).mpr rfl) ?_ h
  -- the other field is the position of the column, which leaves the direction as it is
  intro g hg hname o v o' ho hcolumn
  rw [read_directionField hd] at ho ⊢
  rcases List.mem_cons.mp hg with rfl | hg
  · obtain ⟨n, -, rfl⟩ := map_eq_ok.mp hcolumn
    exact ho
  · exact absurd (congrArg Field.name (List.mem_singleton.mp hg)) hname

theorem decode_withoutItem {c d : Written} {finished : Bool} (hd : WritesDirection .asc d)
    {o : OrderRequest} (h : decode (.arr [c, d] finished) = .ok o) :
    decode (.arr [c] finished) = .ok o := by
  simp only [decode, record, List.zip_cons_cons, List.zip_nil_right, List.foldlM_cons,
    List.foldlM_nil, itemStep, bind_eq_ok, pure_eq_ok, guard_eq_ok] at h ⊢
  obtain ⟨o₂, ⟨o₁, hcolumn, _, hdirection, rfl⟩, hend, rfl⟩ := h
  have hup : o₁.direction = .asc := by
    obtain ⟨n, -, rfl⟩ := map_eq_ok.mp hcolumn
    rfl
  have hsame := hdirection.symm.trans ((read_directionField hd).mpr hup)
  obtain rfl := Except.ok.inj hsame
  exact ⟨_, ⟨_, hcolumn, rfl⟩, by simpa [field] using hend, rfl⟩

theorem respects_respelled : Respects decode Respelled := by
  intro w w' hrel o ho
  cases hrel with
  | fields h => exact respects_record _ _ h o ho
  | withoutMember hd h => exact respects_record _ _ h o (decode_withoutMember hd ho)
  | withoutItem hd h => exact respects_record _ _ h o (decode_withoutItem hd ho)

end OrderRequest

namespace Request

theorem respects_respelled (limit : Option Nat) : Respects (decode limit) Respelled := by
  have hnull (w w' : Written) (h : SearchBox.Respelled w w') : w ≠ .null ∧ w' ≠ .null := by
    cases h <;> exact ⟨nofun, nofun⟩
  exact respects_record ⟨by simp [field], .cons ⟨rfl, respects_field respects_int⟩
    (.cons ⟨rfl, respects_field respects_int⟩ (.cons ⟨rfl, respects_field respects_int⟩
      (.cons ⟨rfl, respects_field (SearchBox.respects_respelled.optional hnull)⟩
        (.cons ⟨rfl, respects_field (RequestColumn.respects_respelled limit).list⟩
          (.cons ⟨rfl, respects_field OrderRequest.respects_respelled.list⟩ .nil)))))⟩ _

/-- **A request does not depend on how its scalars are written**: what is read as a request is read
as the same one if any of its scalars are written in another way, as a value and as a text. -/
theorem decode_respelled {w w' : Written} (h : Respelled w w') :
    (∀ limit r, decode limit w = .ok r → decode limit w' = .ok r) ∧
    (∀ j j' : Json, Written.ofJson j = w → Written.ofJson j' = w' →
      ∀ r, ofJson j = .ok r → ofJson j' = .ok r) ∧
    ∀ s s' : String, Written.read s = (w, true) → Written.read s' = (w', true) →
      ∀ r, ofText s = .ok r → ofText s' = .ok r := by
  have hdecode := fun limit => respects_respelled limit w w' h
  refine ⟨hdecode, ?_, ?_⟩
  · rintro j j' rfl rfl
    exact hdecode none
  · intro s s' hs hs' r
    simp only [ofText, runText, hs, hs', if_true, bind_pure]
    exact hdecode _ r

/-- A request of a client that writes numbers and words. -/
def numericRequest : Json :=
  .obj [("columns", .arr [.obj [("searchable", .bool true)]]), ("draw", .int 3),
    ("length", .int (-1)), ("order", .arr [.obj [("column", .int 0), ("dir", .str "asc")]]),
    ("search", .obj [("regex", .bool false), ("value", .int 5)]), ("start", .int 20)]

/-- The request of a client that writes texts, and no direction. -/
def textualRequest : Json :=
  .obj [("columns", .arr [.obj [("searchable", .str "1")]]), ("draw", .str " +3"),
    ("length", .str "-1"), ("order", .arr [.obj [("column", .str "0")]]),
    ("search", .obj [("regex", .null), ("value", .str "5")]), ("start", .str "20 ")]

theorem respelled_textualRequest :
    Respelled (Written.ofJson numericRequest) (Written.ofJson textualRequest) := by
  have hint {i : Int} {sign text : String} (hi : Decimal.isInt64 i = true)
      (hsign : sign = "" ∨ sign = "+" ∧ 0 ≤ i) (htext : Text.IsPadded (sign ++ toString i) text) :
      SameInt (.num (some (.int i))) (.str (some text)) :=
    ⟨i, .number hi, .text hi hsign htext⟩
  have hposition : SameInt (.num (some (.int 0))) (.str (some "0")) :=
    hint (by decide) (.inl rfl) ⟨"", "", rfl, rfl, by decide⟩
  have hdraw : SameInt (.num (some (.int 3))) (.str (some " +3")) :=
    hint (by decide) (.inr ⟨rfl, by decide⟩) ⟨" ", "", rfl, rfl, by decide⟩
  have hlength : SameInt (.num (some (.int (-1)))) (.str (some "-1")) :=
    hint (by decide) (.inl rfl) ⟨"", "", rfl, rfl, by decide⟩
  have hstart : SameInt (.num (some (.int 20))) (.str (some "20 ")) :=
    hint (by decide) (.inl rfl) ⟨"", " ", rfl, rfl, by decide⟩
  have hsearchable : SameBool (.bool true) (.str (some "1")) :=
    ⟨true, by simp [WritesBool, boolForms]⟩
  have hregex : SameBool (.bool false) .null := ⟨false, by simp [WritesBool, boolForms]⟩
  have hvalue : SameText (.num (some (.int 5))) (.str (some "5")) :=
    ⟨"5", .int (i := 5) (by decide), .text "5"⟩
  have hword : Text.eqIgnoringCase "asc" Direction.asc.name = true := by decide
  have hasc : WritesDirection .asc (.str (some "asc")) :=
    .word hword ⟨"", "", rfl, rfl, by decide⟩
  have hterm : OrderRequest.Respelled
      (.obj ([(some "column", .num (some (.int 0)))] ++ [(some "dir", .str (some "asc"))]) true)
      (.obj [(some "column", .str (some "0"))] true) :=
    .withoutMember hasc (.members (.cons (.of_mem List.mem_cons_self hposition) .nil))
  have hcolumns : SameList RequestColumn.Respelled
      (Written.ofJson (.arr [.obj [("searchable", .bool true)]]))
      (Written.ofJson (.arr [.obj [("searchable", .str "1")]])) :=
    .items (.cons (.inr (.members (.cons (.of_mem (by simp) hsearchable) .nil))) .nil)
  have horder : SameList OrderRequest.Respelled
      (Written.ofJson (.arr [.obj [("column", .int 0), ("dir", .str "asc")]]))
      (Written.ofJson (.arr [.obj [("column", .str "0")]])) :=
    .items (.cons (.inr hterm) .nil)
  have hsearch : SearchBox.Respelled
      (Written.ofJson (.obj [("regex", .bool false), ("value", .int 5)]))
      (Written.ofJson (.obj [("regex", .null), ("value", .str "5")])) :=
    .members (.cons (.of_mem (by simp) hregex) (.cons (.of_mem (by simp) hvalue) .nil))
  exact .members (.cons (.of_mem (by simp) hcolumns) (.cons (.of_mem (by simp) hdraw)
    (.cons (.of_mem (by simp) hlength) (.cons (.of_mem (by simp) horder)
      (.cons (.of_mem (by simp) hsearch) (.cons (.of_mem (by simp) hstart) .nil))))))

/-- Both clients ask for the same. -/
theorem decode_respelled_texts :
    Respelled (Written.ofJson numericRequest) (Written.ofJson textualRequest) ∧
      ofJson numericRequest = .ok
        { draw := some 3, start := some 20, length := some (-1), search := some ⟨"5", false⟩
          columns := [{ searchable := true }], order := [⟨0, .asc⟩] } ∧
      ofJson textualRequest = ofJson numericRequest := by
  have hread : ofJson numericRequest = .ok
      { draw := some 3, start := some 20, length := some (-1), search := some ⟨"5", false⟩
        columns := [{ searchable := true }], order := [⟨0, .asc⟩] } := rfl
  refine ⟨respelled_textualRequest, hread, ?_⟩
  rw [hread]
  exact (decode_respelled respelled_textualRequest).2.1 _ _ rfl rfl _ hread

end Request

end TableQuery
