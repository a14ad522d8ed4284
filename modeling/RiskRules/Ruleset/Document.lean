import RiskRules.Outline.Document
import RiskRules.Ruleset.Definition

/-!
Ruleset definitions, indexes and their states in JSON. A ruleset document may leave out its version
(1), status (committed), thresholds, cooldown and rules, and a rule its description.
-/

namespace RiskRules

/-! ### Indexes -/

namespace IndexSpec

/-- The document of an index. -/
def toJson (i : IndexSpec) : Json :=
  .object [("table", .string i.table), ("field", .string i.field)]

/-- Reads an index. -/
def ofJson? (j : Json) : Option IndexSpec := do
  let f ← j.fields? ["table", "field"]
  return ⟨← f.required "table" Json.toString?, ← f.required "field" Json.toString?⟩

end IndexSpec

/-- Reads the state of an index. -/
def IndexState.ofJson? (j : Json) : Option IndexState := do
  match ← j.toLabel? with
  | "ready" => some .ready
  | "pending" => some .pending
  | "missing" => some .missing
  | _ => none

/-- Reads the status of a ruleset. -/
def RulesetStatus.ofJson? (j : Json) : Option RulesetStatus := do
  match ← j.toLabel? with
  | "draft" => some .draft
  | "committed" => some .committed
  | _ => none

/-! ### Rules -/

namespace Rule.Definition

/-- The document of a rule. -/
def toJson (d : Rule.Definition) : Json :=
  .object [("stable_id", .string d.stableId), ("name", .string d.name),
    ("description", .string d.description), ("ast", d.body.toJson)]

/-- Reads a rule. -/
def ofJson? (j : Json) : Option Rule.Definition := do
  let f ← j.fields? ["stable_id", "name", "description", "ast"]
  return ⟨← f.required "stable_id" Json.toString?, ← f.required "name" Json.toString?,
    ← f.default "description" "" Json.toString?, ← f.required "ast" Outline.ofJson?⟩

end Rule.Definition

/-! ### Rulesets -/

namespace Ruleset.Definition

/-- The document of a ruleset. -/
def toJson (d : Definition) : Json :=
  .object [("organization_id", .string d.key.organization),
    ("entity_type", .string d.key.entityType), ("version", .int d.version.toNat),
    ("status", .string d.status.label), ("name", .string d.name),
    ("thresholds", .array (d.thresholds.map fun t => .int t.toInt)),
    ("cooldown_seconds", .int d.cooldownSeconds.toNat),
    ("rules", .array (d.rules.map Rule.Definition.toJson))]

/-- The names of the fields of a ruleset. -/
def fieldNames : List String :=
  ["organization_id", "entity_type", "version", "status", "name", "thresholds",
    "cooldown_seconds", "rules"]

/-- Reads a ruleset. -/
def ofJson? (j : Json) : Option Definition := do
  let f ← j.fields? fieldNames
  let organization ← f.required "organization_id" Json.toString?
  let entityType ← f.required "entity_type" Json.toString?
  let version ← f.default "version" 1 Json.toUInt32?
  let status ← f.default "status" .committed RulesetStatus.ofJson?
  let name ← f.required "name" Json.toString?
  let thresholds ← f.default "thresholds" [] (·.toList? Json.toInt64?)
  let cooldown ← f.default "cooldown_seconds" 0 Json.toUInt64?
  let rules ← f.default "rules" [] (·.toList? Rule.Definition.ofJson?)
  return ⟨⟨organization, entityType⟩, version, status, name, thresholds, cooldown, rules⟩

end Ruleset.Definition

end RiskRules
