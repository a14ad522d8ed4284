import RiskRules.Outline
import RiskRules.Value.Document

/-!
Tree documents: a node is an object with a name, for constants a value, and its children, listed
and named, where there are any. No other member is allowed.
-/

namespace RiskRules.Outline

/-! ### Writing -/

/-- The value of a constant as a member. -/
def literalMember : Option Value → List (String × Json)
  | none => []
  | some value => [("constant", value.toJson)]

mutual

/-- The document of a node. -/
def toJson : Outline → Json
  | ⟨tag, literal, children, named⟩ =>
    let items := toJsonAll children
    let members := toJsonNamed named
    .object <|
      ("name", .string tag) :: literalMember literal
        ++ (if items.isEmpty then [] else [("children", .array items)])
        ++ (if members.isEmpty then [] else [("named_children", .object members)])

/-- The documents of nodes. -/
def toJsonAll : List Outline → List Json
  | [] => []
  | outline :: rest => toJson outline :: toJsonAll rest

/-- The documents of named nodes. -/
def toJsonNamed : List (String × Outline) → List (String × Json)
  | [] => []
  | (name, outline) :: rest => (name, toJson outline) :: toJsonNamed rest

end

/-! ### Reading -/

/-- A JSON value and what it reads as: a node, a list of nodes, nodes by name. -/
structure Reading where
  json : Json
  node : Option Outline
  items : Option (List Outline)
  named : Option (List (String × Outline))

/-- The node of its fields. -/
def ofFields? (f : Json.Fields Reading) : Option Outline := do
  return ⟨← f.required "name" (·.json.toString?),
    ← f.default "constant" none (·.json.toOption? Value.ofJson?),
    ← f.default "children" [] Reading.items,
    ← f.default "named_children" [] Reading.named⟩

/-- The names of the fields of a node. -/
def fieldNames : List String :=
  ["name", "constant", "children", "named_children"]

mutual

/-- Reads a JSON value in all ways. -/
def reading : Json → Reading
  | .array items =>
    let readings := readingItems items
    ⟨.array items, (Json.Fields.ofItems? fieldNames readings).bind ofFields?,
      readings.mapM Reading.node, none⟩
  | .object members =>
    let readings := readingMembers members
    ⟨.object members, (Json.Fields.ofMembers? fieldNames true readings).bind ofFields?, none,
      (readings.mapM fun (m : String × Reading) => m.2.node.map (m.1, ·)).map Keyed.ofList⟩
  | leaf => ⟨leaf, none, none, none⟩

/-- Reads items in all ways. -/
def readingItems : List Json → List Reading
  | [] => []
  | item :: rest => reading item :: readingItems rest

/-- Reads members in all ways. -/
def readingMembers : List (String × Json) → List (String × Reading)
  | [] => []
  | (key, value) :: rest => (key, reading value) :: readingMembers rest

end

/-- Reads a node document. -/
def ofJson? (j : Json) : Option Outline :=
  (reading j).node

end RiskRules.Outline
