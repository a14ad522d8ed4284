import RiskRules.Keyed
import RiskRules.Value.Document

/-!
Where expressions look things up. An `Environment` answers four kinds of lookup, each with a value,
an error, or a fault that breaks the evaluation off. `Facts` are an environment held in memory, read
from JSON documents or filled in piece by piece.
-/

namespace RiskRules

/-! ### Lookups and their failures -/

/-- The kinds of lookup. -/
inductive LookupKind where
  | payloadField | list | relatedField | variable
  deriving DecidableEq, Repr

/-- The name of a kind of lookup in messages. -/
def LookupKind.label : LookupKind → String
  | .payloadField => "payload field"
  | .list => "list"
  | .relatedField => "related field"
  | .variable => "variable"

/-- Why a lookup has no value. -/
inductive EnvironmentError where
  | notFound (lookup : LookupKind) (name : String)
  | invalidValue (lookup : LookupKind) (name reason : String)
  | unavailable (message : String)
  deriving DecidableEq, Repr

/-- The text of a failed lookup. -/
def EnvironmentError.message : EnvironmentError → String
  | .notFound lookup name => lookup.label ++ " `" ++ name ++ "` not found"
  | .invalidValue lookup name reason =>
    lookup.label ++ " `" ++ name ++ "` is invalid: " ++ reason
  | .unavailable message => "environment unavailable: " ++ message

/-- What broke an evaluation off: a text, or nothing that can be told. -/
structure Fault where
  text : Option String
  deriving DecidableEq, Repr

/-- The text of a fault. -/
def Fault.message (f : Fault) : String :=
  f.text.getD "non-string panic payload"

/-- Why a computation has no value: an error that it reports, or a fault that passes through it. -/
inductive Halt (ε : Type) where
  | error (e : ε)
  | fault (f : Fault)
  deriving DecidableEq, Repr

/-- Something that answers lookups. -/
structure Environment where
  payloadField : String → Except (Halt EnvironmentError) Value
  listItems : String → Except (Halt EnvironmentError) (List Value)
  relatedField : String → String → List String → Except (Halt EnvironmentError) Value
  variableValue : String → Except (Halt EnvironmentError) Value

/-! ### Facts in memory -/

/-- A field of a table reached along a path of links. -/
structure RelatedKey where
  table : String
  path : List String
  field : String
  deriving DecidableEq, Repr

/-- What is known about an entity. -/
structure Facts where
  payload : List (String × Value)
  lists : List (String × List Value)
  related : List (RelatedKey × Value)
  values : List (String × Value)

namespace Facts

/-- Nothing known. -/
def empty : Facts :=
  ⟨[], [], [], []⟩

/-- Sets a payload field. -/
def withPayload (facts : Facts) (name : String) (value : Value) : Facts :=
  { facts with payload := Keyed.insert name value facts.payload }

/-- Sets a list. -/
def withList (facts : Facts) (name : String) (values : List Value) : Facts :=
  { facts with lists := Keyed.insert name values facts.lists }

/-- Sets a related field. -/
def withRelated (facts : Facts) (key : RelatedKey) (value : Value) : Facts :=
  { facts with related := (key, value) :: facts.related }

/-- Sets a variable. -/
def withVariable (facts : Facts) (name : String) (value : Value) : Facts :=
  { facts with values := Keyed.insert name value facts.values }

/-- The answer to a lookup that finds a value or not. -/
def answer {α : Type} (lookup : LookupKind) (name : String) :
    Option α → Except (Halt EnvironmentError) α
  | some value => .ok value
  | none => .error (.error (.notFound lookup name))

/-- The environment that knows the facts and nothing else. -/
def toEnvironment (facts : Facts) : Environment where
  payloadField name := answer .payloadField name (Keyed.get? name facts.payload)
  listItems name := answer .list name (Keyed.get? name facts.lists)
  relatedField table field path :=
    answer .relatedField (table ++ "." ++ field) (facts.related.lookup ⟨table, path, field⟩)
  variableValue name := answer .variable name (Keyed.get? name facts.values)

/-! ### Facts from JSON -/

/-- Puts the members of an object into the facts, in ascending order of their keys; the first that
does not fit is reported. -/
def addEach (take : Facts → String → Json → Except EnvironmentError Facts) :
    Facts → List (String × Json) → Except EnvironmentError Facts
  | facts, [] => .ok facts
  | facts, (key, value) :: rest =>
    match take facts key value with
    | .ok facts => addEach take facts rest
    | .error e => .error e

/-- Takes a payload field from a JSON value. -/
def takePayload (facts : Facts) (key : String) (j : Json) : Except EnvironmentError Facts :=
  match Value.ofPlain j with
  | .ok value => .ok (facts.withPayload key value)
  | .error e => .error (.invalidValue .payloadField key e.message)

/-- Takes a list from a JSON array. -/
def takeList (facts : Facts) (key : String) (j : Json) : Except EnvironmentError Facts :=
  match Value.ofPlain j with
  | .ok (.list values) => .ok (facts.withList key values)
  | .ok _ => .error (.invalidValue .list key "list contents must be a json array")
  | .error e => .error (.invalidValue .list key e.message)

/-- Facts whose payload is a JSON object. -/
def ofPayload : Json → Except EnvironmentError Facts
  | .object members => addEach takePayload empty (Keyed.ofList members)
  | _ => .error (.invalidValue .payloadField "$" "payload must be a json object")

/-- Adds the lists of a JSON object. -/
def addLists (facts : Facts) : Json → Except EnvironmentError Facts
  | .object members => addEach takeList facts (Keyed.ofList members)
  | _ => .error (.invalidValue .list "$" "lists must be a json object")

end Facts

end RiskRules
