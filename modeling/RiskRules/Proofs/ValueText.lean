import RiskRules.Proofs.JsonText
import RiskRules.Proofs.Timestamps
import RiskRules.Value.Document

/-!
Values written as JSON text and read again. A value that can be written is read back exactly if its
document opens no more brackets than a text may nest and every binary64 number in it is what its own
text reads as (`Value.ofJson?_through_iff`). Neither is looked at when a value is written.
-/

namespace RiskRules

namespace Json

/-! ### Gaps -/

mutual

/-- A value is readable exactly if it has no gap. -/
theorem readable_iff : ∀ {j : Json}, j.readable = true ↔ j.gaps = []
  | .unreadable _ => by simp [readable, gaps]
  | .array items => by rw [readable, gaps, readableItems_iff]
  | .object members => by rw [readable, gaps, readableMembers_iff_gaps]
  | .null | .bool _ | .int _ | .float _ | .string _ => by simp [readable, gaps]

theorem readableItems_iff : ∀ {items : List Json},
    readableItems items = true ↔ gapsOfItems items = []
  | [] => by simp [readableItems, gapsOfItems]
  | item :: rest => by
    rw [readableItems, gapsOfItems, Bool.and_eq_true, List.append_eq_nil_iff, readable_iff,
      readableItems_iff]

theorem readableMembers_iff_gaps : ∀ {members : List (String × Json)},
    readableMembers members = true ↔ gapsOfMembers members = []
  | [] => by simp [readableMembers, gapsOfMembers]
  | (_, value) :: rest => by
    rw [readableMembers, gapsOfMembers, Bool.and_eq_true, List.append_eq_nil_iff, readable_iff,
      readableMembers_iff_gaps]

end

/-- A document is written exactly if it has no gap, and then as it is. -/
theorem written_eq_ok_iff {j made : Json} :
    j.written = .ok made ↔ j.readable = true ∧ made = j := by
  rw [written, readable_iff]
  cases j.gaps <;> simp [eq_comm]

/-! ### Through a text -/

/-- What the text of a value reads as where so many levels of brackets may open. -/
def through (levels : Nat) (j : Json) : Option Json :=
  (reread j).map (cut levels)

/-- What the texts of items read as where so many levels of brackets may open. -/
def throughItems (levels : Nat) (items : List Json) : Option (List Json) :=
  (rereadItems items).map (cutItems levels)

/-- What the texts of members read as where so many levels of brackets may open. -/
def throughMembers (levels : Nat) (members : List (String × Json)) :
    Option (List (String × Json)) :=
  (rereadMembers members).map (cutMembers levels)

theorem parse_compact_eq_through (j : Json) : parse (compact j) = through nestingLimit j :=
  parse_compact j

variable {levels : Nat}

/-! A value without parts opens no bracket. -/

theorem cut_bool (b : Bool) : cut levels (.bool b) = .bool b := by cases levels <;> rfl

theorem cut_int (n : Int) : cut levels (.int n) = .int n := by cases levels <;> rfl

theorem cut_string (s : String) : cut levels (.string s) = .string s := by cases levels <;> rfl

@[simp] theorem through_bool (b : Bool) : through levels (.bool b) = some (.bool b) :=
  congrArg some (cut_bool b)

@[simp] theorem through_string (s : String) : through levels (.string s) = some (.string s) :=
  congrArg some (cut_string s)

theorem through_int {n : Int} (least : -0x8000000000000000 ≤ n)
    (greatest : n < 0x10000000000000000) : through levels (.int n) = some (.int n) := by
  rw [through, reread, ofNumberText_intText least greatest, Option.map_some, cut_int]

@[simp] theorem through_int64 (i : Int64) :
    through levels (.int i.toInt) = some (.int i.toInt) := by
  have least := Int64.le_toInt i
  have greatest := Int64.toInt_lt i
  exact through_int (by omega) (by omega)

theorem through_array (items : List Json) :
    through (levels + 1) (.array items) = (throughItems levels items).map .array := by
  simp [through, throughItems, reread, cut, Option.map_map, Function.comp_def]

theorem through_object (members : List (String × Json)) :
    through (levels + 1) (.object members) = (throughMembers levels members).map .object := by
  simp [through, throughMembers, reread, cut, Option.map_map, Function.comp_def]

/-- Where no bracket may open, whoever cannot use an unreadable part gets nothing. -/
theorem through_zero_array {α : Type} (items : List Json) {f : Json → Option α}
    (useless : f (.unreadable .unread) = none) : (through 0 (.array items)).bind f = none := by
  cases read : rereadItems items <;> simp [through, reread, read, cut, useless]

theorem through_zero_object {α : Type} (members : List (String × Json)) {f : Json → Option α}
    (useless : f (.unreadable .unread) = none) : (through 0 (.object members)).bind f = none := by
  cases read : rereadMembers members <;> simp [through, reread, read, cut, useless]

@[simp] theorem throughItems_nil : throughItems levels [] = some [] := rfl

theorem throughItems_cons (item : Json) (rest : List Json) :
    throughItems levels (item :: rest)
      = (through levels item).bind fun value => (throughItems levels rest).map (value :: ·) := by
  cases first : reread item <;> cases later : rereadItems rest <;>
    simp [through, throughItems, rereadItems, first, later, cutItems]

@[simp] theorem throughMembers_nil : throughMembers levels [] = some [] := rfl

theorem throughMembers_cons (key : String) (value : Json) (rest : List (String × Json)) :
    throughMembers levels ((key, value) :: rest)
      = (through levels value).bind fun value =>
          (throughMembers levels rest).map ((key, value) :: ·) := by
  cases first : reread value <;> cases later : rereadMembers rest <;>
    simp [through, throughMembers, rereadMembers, first, later, cutMembers]

end Json

namespace Value

open Json (through throughItems throughMembers)

/-! ### What a text keeps of a value -/

mutual

/-- Every binary64 number in the value is what its text reads as. -/
def KeptByText : Value → Prop
  | .float x => (Json.ofNumberText (Json.floatText x)).bind Json.toFloat? = some x
  | .list items => KeptByTextItems items
  | _ => True

/-- Every binary64 number in the values is what its text reads as. -/
def KeptByTextItems : List Value → Prop
  | [] => True
  | item :: rest => KeptByText item ∧ KeptByTextItems rest

end

/-! ### Typed values -/

@[simp] theorem reading_json (j : Json) : (reading j).json = j := by
  cases j <;> simp [reading]

theorem ofJson?_tagged (kind : Kind) (content : Json) :
    ofJson? (tagged kind content) = match kind with
      | .list => (reading content).items.map .list
      | kind => ofContent? kind content := by
  cases kind <;>
    simp [ofJson?, tagged, reading, readingMembers, ofTypedMembers?, ofTyped?, Json.toLabel?,
      Kind.name, Kind.ofName?]

/-- A content is read as what its text reads as, one level of brackets further in. -/
theorem through_tagged (levels : Nat) (kind : Kind) (content : Json) :
    through (levels + 1) (tagged kind content) = (through levels content).map (tagged kind) := by
  rw [tagged, Json.through_object, Json.throughMembers_cons, Json.through_string,
    Option.bind_some, Json.throughMembers_cons]
  cases through levels content <;> rfl

theorem ofJson?_unreadable : ofJson? (.unreadable .unread) = none := rfl

theorem nesting_tagged (kind : Kind) (content : Json) :
    (tagged kind content).nesting = content.nesting + 1 := by
  simp [tagged, Json.nesting, Json.nestingMembers]

/-- A value that is no list is read back if its own bracket may open and its content is read
back inside. -/
theorem through_tagged_iff {v : Value} {kind : Kind} (other : kind ≠ .list) (content : Json)
    (levels : Nat) : (through levels (tagged kind content)).bind ofJson? = some v
      ↔ 1 ≤ levels ∧ (through (levels - 1) content).bind (ofContent? kind) = some v := by
  cases levels with
  | zero =>
    have nothing := Json.through_zero_object (f := ofJson?)
      [("type", .string kind.name), ("value", content)] ofJson?_unreadable
    simp [tagged, nothing]
  | succ levels =>
    have read : ∀ j, ofJson? (tagged kind j) = ofContent? kind j := by
      intro j
      rw [ofJson?_tagged]
      cases kind <;> first | rfl | exact absurd rfl other
    rw [through_tagged, Option.bind_map]
    simp [read]

theorem toFloat?_cut (levels : Nat) (j : Json) : (j.cut levels).toFloat? = j.toFloat? := by
  cases levels <;> cases j <;> rfl

/-- A binary64 number is read back if its own text reads as it. -/
theorem float_through_iff {x : Float} (finite : isFinite x = true) (levels : Nat) :
    (through levels (.float x)).bind (ofContent? .float) = some (.float x)
      ↔ (Value.float x).KeptByText := by
  rw [through, Json.reread, if_pos finite, KeptByText, Option.bind_map]
  cases Json.ofNumberText (Json.floatText x) with
  | none => simp
  | some j => simp [ofContent?, toFloat?_cut]

theorem toInt64?_toInt (i : Int64) : (Json.int i.toInt).toInt64? = some i := by
  have greatest := Int64.toInt_lt i
  have below : i.toInt < 0x8000000000000000 := by omega
  simp [Json.toInt64?, below]

theorem ofJson?_score (s : ScoreResult) : ScoreResult.ofJson? s.toJson = some s := by
  simp [ScoreResult.ofJson?, ScoreResult.toJson, Json.fields?, Json.Fields.ofMembers?,
    Json.Fields.required, Keyed.firstRepeat, Keyed.get?, Json.toBool?, toInt64?_toInt]

/-- A score opens one bracket. -/
theorem score_through_iff (s : ScoreResult) (levels : Nat) :
    (through levels s.toJson).bind (ofContent? .score) = some (.score s) ↔ 1 ≤ levels := by
  cases levels with
  | zero =>
    have nothing := Json.through_zero_object (f := ofContent? .score)
      [("triggered", .bool s.triggered), ("modifier", .int s.modifier.toInt),
        ("floor", .int s.floor.toInt)] rfl
    simp [ScoreResult.toJson, nothing]
  | succ levels =>
    have same : through (levels + 1) s.toJson = some s.toJson := by
      simp [ScoreResult.toJson, Json.through_object, Json.throughMembers_cons]
    simp [same, ofContent?, ofJson?_score]

/-- A timestamp that can be written is read back. -/
theorem timestamp_through {t : Timestamp} (readable : t.toJson.readable = true) (levels : Nat) :
    t.toJson.nesting = 0 ∧
      (through levels t.toJson).bind (ofContent? .timestamp) = some (.timestamp t) := by
  -- An equation lemma of `toJson` would take the calendar apart.
  delta Timestamp.toJson at readable ⊢
  cases written : Rfc3339.render t with
  | error e =>
    rw [written] at readable
    cases readable
  | ok text =>
    have read := Rfc3339.parse_of_render written
    simp [Json.nesting, ofContent?, Timestamp.ofJson?, read, Except.toOption]

theorem readable_tagged (kind : Kind) (content : Json) :
    (tagged kind content).readable = content.readable := by
  simp [tagged, Json.readable, Json.readableMembers]

/-! ### Lists -/

theorem mapM_reading (items : List Json) :
    (readingItems items).mapM Reading.value = items.mapM ofJson? := by
  induction items with
  | nil => rfl
  | cons item rest ih => simp [readingItems, ofJson?, ih]

/-- Items are read one after the other. -/
theorem throughItems_bind_cons {α : Type} (levels : Nat) (read : Json → Option α) (item : Json)
    (rest : List Json) : (throughItems levels (item :: rest)).bind (·.mapM read)
      = ((through levels item).bind read).bind fun value =>
          ((throughItems levels rest).bind (·.mapM read)).map (value :: ·) := by
  rw [Json.throughItems_cons]
  cases through levels item with
  | none => rfl
  | some j =>
    cases throughItems levels rest with
    | none => cases first : read j <;> simp [first]
    | some js =>
      cases first : read j <;> cases later : js.mapM read <;> simp [first, later]

/-- A list opens a bracket of its own inside that of its type. -/
theorem list_through_iff {items : List Value} (contents : List Json) (levels : Nat) :
    (through levels (tagged .list (.array contents))).bind ofJson? = some (.list items)
      ↔ 2 ≤ levels ∧
        (throughItems (levels - 2) contents).bind (·.mapM ofJson?) = some items := by
  match levels with
  | 0 =>
    have nothing := Json.through_zero_object (f := ofJson?)
      [("type", .string Kind.list.name), ("value", .array contents)] ofJson?_unreadable
    simp [tagged, nothing]
  | 1 =>
    have nothing := Json.through_zero_array (f := fun j => ofJson? (tagged .list j)) contents rfl
    rw [through_tagged, Option.bind_map]
    simp only [Function.comp_def, nothing]
    simp
  | levels + 2 =>
    rw [through_tagged, Json.through_array, Option.bind_map, Option.bind_map]
    have read : ∀ contents, ofJson? (tagged .list (.array contents))
        = (contents.mapM ofJson?).map .list := by
      intro contents
      rw [ofJson?_tagged, reading, mapM_reading]
    cases kept : throughItems levels contents with
    | none => simp [kept]
    | some contents => simp [kept, read]

mutual

/-- A value that can be written is read back exactly if no bracket of its document opens too deep
and its text keeps its binary64 numbers. -/
theorem ofJson?_through_iff (levels : Nat) : ∀ v : Value, v.allFinite = true →
    v.toJson.readable = true →
    ((through levels v.toJson).bind ofJson? = some v
      ↔ v.toJson.nesting ≤ levels ∧ v.KeptByText)
  | .null, _, _ => by
    cases levels with
    | zero =>
      have nothing := Json.through_zero_object (f := ofJson?)
        [("type", .string Kind.null.name)] ofJson?_unreadable
      simp [toJson, nothing, Json.nesting]
    | succ levels =>
      simp [toJson, Json.through_object, Json.throughMembers_cons, KeptByText, Json.nesting,
        Json.nestingMembers, ofJson?, reading, readingMembers, ofTypedMembers?, ofType?,
        Json.toLabel?, Kind.name, Kind.ofName?]
  | .bool b, _, _ => by
    rw [toJson, through_tagged_iff (by decide), nesting_tagged]
    simp [KeptByText, ofContent?, Json.toBool?, Json.nesting]
  | .int i, _, _ => by
    rw [toJson, through_tagged_iff (by decide), nesting_tagged]
    simp [KeptByText, ofContent?, toInt64?_toInt, Json.nesting]
  | .float x, finite, _ => by
    have finite : isFinite x = true := finite
    rw [toJson, if_pos finite, through_tagged_iff (by decide), nesting_tagged,
      float_through_iff finite]
    simp [Json.nesting]
  | .string s, _, _ => by
    rw [toJson, through_tagged_iff (by decide), nesting_tagged]
    simp [KeptByText, ofContent?, Json.toString?, Json.nesting]
  | .timestamp t, _, readable => by
    rw [toJson, readable_tagged] at readable
    obtain ⟨flat, read⟩ := timestamp_through readable (levels - 1)
    rw [toJson, through_tagged_iff (by decide), nesting_tagged, flat, read]
    simp [KeptByText]
  | .list items, finite, readable => by
    rw [toJson, readable_tagged] at readable
    have each := mapM_ofJson?_through_iff (levels - 2) items finite readable
    rw [toJson, list_through_iff, each, nesting_tagged, Json.nesting, KeptByText]
    constructor
    · rintro ⟨two, nested, kept⟩
      exact ⟨by omega, kept⟩
    · rintro ⟨nested, kept⟩
      exact ⟨by omega, by omega, kept⟩
  | .score s, _, _ => by
    rw [toJson, through_tagged_iff (by decide), nesting_tagged, score_through_iff]
    simp [KeptByText, ScoreResult.toJson, Json.nesting, Json.nestingMembers]
    omega

/-- So are values, each of them. -/
theorem mapM_ofJson?_through_iff (levels : Nat) : ∀ items : List Value,
    allFiniteItems items = true → Json.readableItems (toJsonItems items) = true →
    ((throughItems levels (toJsonItems items)).bind (·.mapM ofJson?) = some items
      ↔ Json.nestingItems (toJsonItems items) ≤ levels ∧ KeptByTextItems items)
  | [], _, _ => by
    simp [toJsonItems, Json.nestingItems, KeptByTextItems]
  | item :: rest, finite, readable => by
    rw [allFiniteItems, Bool.and_eq_true] at finite
    rw [toJsonItems, Json.readableItems, Bool.and_eq_true] at readable
    have first := ofJson?_through_iff levels item finite.1 readable.1
    have later := mapM_ofJson?_through_iff levels rest finite.2 readable.2
    have both : (throughItems levels (toJsonItems (item :: rest))).bind (·.mapM ofJson?)
          = some (item :: rest)
        ↔ (through levels item.toJson).bind ofJson? = some item ∧
          (throughItems levels (toJsonItems rest)).bind (·.mapM ofJson?) = some rest := by
      rw [toJsonItems, throughItems_bind_cons]
      simp [Option.bind_eq_some_iff]
    rw [both, first, later, toJsonItems, Json.nestingItems, KeptByTextItems]
    constructor
    · rintro ⟨⟨low, kept⟩, low_later, kept_later⟩
      exact ⟨by omega, kept, kept_later⟩
    · rintro ⟨low, kept, kept_later⟩
      exact ⟨⟨by omega, kept⟩, by omega, kept_later⟩

end

end Value

end RiskRules
