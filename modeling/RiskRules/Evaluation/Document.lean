import RiskRules.Evaluation
import RiskRules.Value.Document

/-!
Evaluation records in JSON. An error is an object tagged with its kind; a failed lookup is tagged
twice, with the kind `environment` and with what went wrong in the environment.
-/

namespace RiskRules

/-! ### Writing errors -/

/-- The label of a kind of lookup. -/
def LookupKind.key : LookupKind → String
  | .payloadField => "payload_field"
  | .list => "list"
  | .relatedField => "related_field"
  | .variable => "variable"

/-- The members of a failed lookup. -/
def EnvironmentError.members : EnvironmentError → List (String × Json)
  | .notFound lookup name =>
    [("error", .string "not_found"), ("lookup", .string lookup.key), ("name", .string name)]
  | .invalidValue lookup name reason =>
    [("error", .string "invalid_value"), ("lookup", .string lookup.key), ("name", .string name),
      ("reason", .string reason)]
  | .unavailable message => [("error", .string "unavailable"), ("message", .string message)]

namespace EvaluationError

/-- The label of the kind of an error. -/
def key : EvaluationError → String
  | .typeMismatch .. => "type_mismatch"
  | .nullValue .. => "null_value"
  | .divisionByZero => "division_by_zero"
  | .overflow .. => "overflow"
  | .invalidArgument .. => "invalid_argument"
  | .argumentFailed .. => "argument_failed"
  | .environment .. => "environment"
  | .unsupportedFunction .. => "unsupported_function"
  | .tooDeep .. => "too_deep"

/-- The members of an error apart from its kind. -/
def members : EvaluationError → List (String × Json)
  | .typeMismatch func expected found =>
    [("function", .string func.name), ("expected", .string expected), ("found", .string found)]
  | .nullValue func argument =>
    [("function", .string func.name), ("argument", .string argument)]
  | .divisionByZero => []
  | .overflow func => [("function", .string func.name)]
  | .invalidArgument func argument reason =>
    [("function", .string func.name), ("argument", .string argument), ("reason", .string reason)]
  | .argumentFailed func argument =>
    [("function", .string func.name), ("argument", .string argument)]
  | .environment e => e.members
  | .unsupportedFunction func => [("function", .string func.name)]
  | .tooDeep limit => [("max_depth", .int limit)]

/-- The document of an error. -/
def toJson (e : EvaluationError) : Json :=
  .object (("kind", .string e.key) :: e.members)

end EvaluationError

/-! ### Reading errors -/

/-- Reads a function by its name. -/
def Func.ofJson? (j : Json) : Option Func :=
  j.toLabel?.bind Func.ofName?

/-- Reads a kind of lookup. -/
def LookupKind.ofJson? (j : Json) : Option LookupKind := do
  match ← j.toLabel? with
  | "payload_field" => some .payloadField
  | "list" => some .list
  | "related_field" => some .relatedField
  | "variable" => some .variable
  | _ => none

/-- Reads a failed lookup; its tag may also be given by number. -/
def EnvironmentError.ofJson? (j : Json) : Option EnvironmentError := do
  let (tag, content) ← j.tagged? "error"
  let label ←
    match tag with
    | .string label => some label
    | .int n => ["not_found", "invalid_value", "unavailable"][n.toNat]?
    | _ => none
  match label with
  | "not_found" =>
    let f ← content.fields? ["lookup", "name"]
    return .notFound (← f.required "lookup" LookupKind.ofJson?)
      (← f.required "name" Json.toString?)
  | "invalid_value" =>
    let f ← content.fields? ["lookup", "name", "reason"]
    return .invalidValue (← f.required "lookup" LookupKind.ofJson?)
      (← f.required "name" Json.toString?) (← f.required "reason" Json.toString?)
  | "unavailable" =>
    let f ← content.fields? ["message"]
    return .unavailable (← f.required "message" Json.toString?)
  | _ => none

namespace EvaluationError

/-- Reads the fields of an error of a kind. -/
def ofContent? (kind : String) (content : Json) : Option EvaluationError := do
  let func (f : Json.Fields Json) := f.required "function" Func.ofJson?
  let text (f : Json.Fields Json) (name : String) := f.required name Json.toString?
  match kind with
  | "type_mismatch" =>
    let f ← content.fields? ["function", "expected", "found"]
    return .typeMismatch (← func f) (← text f "expected") (← text f "found")
  | "null_value" =>
    let f ← content.fields? ["function", "argument"]
    return .nullValue (← func f) (← text f "argument")
  | "division_by_zero" => return .divisionByZero
  | "overflow" => return .overflow (← func (← content.fields? ["function"]))
  | "invalid_argument" =>
    let f ← content.fields? ["function", "argument", "reason"]
    return .invalidArgument (← func f) (← text f "argument") (← text f "reason")
  | "argument_failed" =>
    let f ← content.fields? ["function", "argument"]
    return .argumentFailed (← func f) (← text f "argument")
  | "environment" => return .environment (← EnvironmentError.ofJson? content)
  | "unsupported_function" =>
    return .unsupportedFunction (← func (← content.fields? ["function"]))
  | "too_deep" =>
    let f ← content.fields? ["max_depth"]
    return .tooDeep (← f.required "max_depth" Json.toCount?)
  | _ => none

/-- Reads an error. -/
def ofJson? (j : Json) : Option EvaluationError := do
  let (kind, content) ← j.tagged? "kind"
  ofContent? (← kind.toString?) content

end EvaluationError

namespace Evaluation

/-! ### Writing records -/

/-- A value, or null. -/
def valueOrNull : Option Value → Json
  | none => .null
  | some value => value.toJson

mutual

/-- The document of a record. -/
def toJson : Evaluation → Json
  | ⟨func, value, error, children, named⟩ =>
    let items := toJsonAll children
    let members := toJsonNamed named
    .object <|
      [("function", .string func.name), ("return_value", valueOrNull value),
        ("error", (error.map EvaluationError.toJson).getD .null)]
        ++ (if items.isEmpty then [] else [("children", .array items)])
        ++ (if members.isEmpty then [] else [("named_children", .object members)])

/-- The documents of records. -/
def toJsonAll : List Evaluation → List Json
  | [] => []
  | e :: rest => toJson e :: toJsonAll rest

/-- The documents of named records. -/
def toJsonNamed : List (String × Evaluation) → List (String × Json)
  | [] => []
  | (name, e) :: rest => (name, toJson e) :: toJsonNamed rest

end

/-! ### Reading records -/

/-- A JSON value and what it reads as: a record, a list of records, records by name. -/
structure Reading where
  json : Json
  record : Option Evaluation
  items : Option (List Evaluation)
  named : Option (List (String × Evaluation))

/-- The record of its fields. -/
def ofFields? (f : Json.Fields Reading) : Option Evaluation := do
  return ⟨← f.required "function" (Func.ofJson? ·.json),
    ← f.optional "return_value" none (·.json.toOption? Value.ofJson?),
    ← f.optional "error" none (·.json.toOption? EvaluationError.ofJson?),
    ← f.default "children" [] Reading.items,
    ← f.default "named_children" [] Reading.named⟩

/-- The names of the fields of a record. -/
def fieldNames : List String :=
  ["function", "return_value", "error", "children", "named_children"]

mutual

/-- Reads a JSON value in all ways. -/
def reading : Json → Reading
  | .array items =>
    let readings := readingItems items
    ⟨.array items, (Json.Fields.ofItems? fieldNames readings).bind ofFields?,
      readings.mapM Reading.record, none⟩
  | .object members =>
    let readings := readingMembers members
    ⟨.object members, (Json.Fields.ofMembers? fieldNames false readings).bind ofFields?, none,
      (readings.mapM fun (m : String × Reading) => m.2.record.map (m.1, ·)).map
        Keyed.ofList⟩
  | leaf => ⟨leaf, none, none, none⟩

/-- Reads items in all ways. -/
def readingItems : List Json → List Reading
  | [] => []
  | item :: rest => reading item :: readingItems rest

/-- Reads members in all ways. -/
def readingMembers : List (String × Json) → List (String × Reading)
  | [] => []
  | (key, value) :: rest => (key, reading value) :: readingMembers rest

end

/-- Reads a record. -/
def ofJson? (j : Json) : Option Evaluation :=
  (reading j).record

end Evaluation

end RiskRules
