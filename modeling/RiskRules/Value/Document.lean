import RiskRules.Time.Rfc3339
import RiskRules.Json.Fields
import RiskRules.Value

/-!
Values in JSON. A typed value names its type beside its content, so that a timestamp never turns
into a text nor an integer into a binary64 number. A plain JSON value is read by its shape alone;
objects have no counterpart.
-/

namespace RiskRules

/-! ### Writing -/

/-- The text of a timestamp, or a gap if it cannot be written. -/
def Timestamp.toJson (t : Timestamp) : Json :=
  match Rfc3339.render t with
  | .ok text => .string text
  | .error failure => .unreadable (.unwritten failure)

/-- The document itself, unless a timestamp in it could not be written; the first is reported. -/
def Json.written (j : Json) : Except Gap Json :=
  match j.gaps with
  | [] => .ok j
  | gap :: _ => .error gap

/-- A score as an object. -/
def ScoreResult.toJson (s : ScoreResult) : Json :=
  .object [("triggered", .bool s.triggered), ("modifier", .int s.modifier.toInt),
    ("floor", .int s.floor.toInt)]

namespace Value

/-- A value under the name of its kind. -/
def tagged (kind : Kind) (content : Json) : Json :=
  .object [("type", .string kind.name), ("value", content)]

mutual

/-- The typed form of a value. -/
def toJson : Value → Json
  | .null => .object [("type", .string Kind.null.name)]
  | .bool b => tagged .bool (.bool b)
  | .int i => tagged .int (.int i.toInt)
  | .float x => tagged .float (if isFinite x then .float x else .null)
  | .string s => tagged .string (.string s)
  | .timestamp t => tagged .timestamp t.toJson
  | .list items => tagged .list (.array (toJsonItems items))
  | .score s => tagged .score s.toJson

/-- The typed forms of values. -/
def toJsonItems : List Value → List Json
  | [] => []
  | item :: rest => toJson item :: toJsonItems rest

end

/-! ### Reading the typed form -/

/-- The kind of a name. -/
def Kind.ofName? : String → Option Kind
  | "null" => some .null
  | "bool" => some .bool
  | "int" => some .int
  | "float" => some .float
  | "string" => some .string
  | "timestamp" => some .timestamp
  | "list" => some .list
  | "score" => some .score
  | _ => none

end Value

/-- Reads a score. -/
def ScoreResult.ofJson? (j : Json) : Option ScoreResult := do
  let f ← j.fields? ["triggered", "modifier", "floor"]
  return ⟨← f.required "triggered" Json.toBool?, ← f.required "modifier" Json.toInt64?,
    ← f.required "floor" Json.toInt64?⟩

/-- Reads a timestamp text. -/
def Timestamp.ofJson? : Json → Option Timestamp
  | .string s => (Rfc3339.parse s).toOption
  | _ => none

namespace Value

/-- Reads the content of any kind but a list. -/
def ofContent? (kind : Kind) (content : Json) : Option Value :=
  match kind with
  | .null =>
    match content with
    | .null => some .null
    | _ => none
  | .bool => content.toBool?.map .bool
  | .int => content.toInt64?.map .int
  | .float => content.toFloat?.map .float
  | .string => content.toString?.map .string
  | .timestamp => (Timestamp.ofJson? content).map .timestamp
  | .list => none
  | .score => (ScoreResult.ofJson? content).map .score

/-- A JSON value and what it reads as: a typed value, a list of typed values. -/
structure Reading where
  json : Json
  value : Option Value
  items : Option (List Value)

/-- The value of a kind and a content. -/
def ofTyped? (type content : Reading) : Option Value := do
  match ← type.json.toLabel?.bind Kind.ofName? with
  | .list => content.items.map .list
  | kind => ofContent? kind content.json

/-- The value of a kind without a content: only the null value has none. -/
def ofType? (type : Reading) : Option Value := do
  match ← type.json.toLabel?.bind Kind.ofName? with
  | .null => some .null
  | _ => none

/-- The value of an object with a type and a content. Members of other names count for nothing; a
content that stands before its type must be readable throughout. -/
def ofTypedMembers? (members : List (String × Reading)) : Option Value :=
  match members.filter fun member => member.1 == "type" || member.1 == "value" with
  | [(first, a)] => if first == "type" then ofType? a else none
  | [(first, a), (second, b)] =>
    if first == "type" && second == "value" then ofTyped? a b
    else if first == "value" && second == "type" && a.json.readable then ofTyped? b a
    else none
  | _ => none

/-- The value of an array of a type and a content. -/
def ofTypedItems? : List Reading → Option Value
  | [type, content] => ofTyped? type content
  | _ => none

mutual

/-- Reads a JSON value in both ways. -/
def reading : Json → Reading
  | .array items =>
    let readings := readingItems items
    ⟨.array items, ofTypedItems? readings, readings.mapM Reading.value⟩
  | .object members => ⟨.object members, ofTypedMembers? (readingMembers members), none⟩
  | leaf => ⟨leaf, none, none⟩

/-- Reads items in both ways. -/
def readingItems : List Json → List Reading
  | [] => []
  | item :: rest => reading item :: readingItems rest

/-- Reads members in both ways. -/
def readingMembers : List (String × Json) → List (String × Reading)
  | [] => []
  | (key, value) :: rest => (key, reading value) :: readingMembers rest

end

/-- Reads a typed value. -/
def ofJson? (j : Json) : Option Value :=
  (reading j).value

/-! ### Reading by shape -/

/-- Why a JSON value has no counterpart. -/
inductive ConversionError where
  | object
  | numberOutOfRange
  deriving DecidableEq, Repr

/-- The text of a failed conversion. -/
def ConversionError.message : ConversionError → String
  | .object => "json objects cannot be converted into a value"
  | .numberOutOfRange => "json number is out of range"

mutual

/-- The value of the same shape: a whole number within 64 bits is an integer, any other number is
binary64. -/
def ofPlain : Json → Except ConversionError Value
  | .null => .ok .null
  | .bool b => .ok (.bool b)
  | .int n =>
    .ok (if n < 0x8000000000000000 then .int (Int64.ofInt n) else .float (Json.floatOfInt n))
  | .float x => .ok (.float x)
  | .string s => .ok (.string s)
  | .array items => return .list (← ofPlainItems items)
  | .object _ => .error .object
  | .unreadable _ => .error .numberOutOfRange

/-- The values of the same shapes. -/
def ofPlainItems : List Json → Except ConversionError (List Value)
  | [] => .ok []
  | item :: rest => return (← ofPlain item) :: (← ofPlainItems rest)

end

end Value

end RiskRules
