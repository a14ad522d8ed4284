import RiskRules.Evaluation.Document
import RiskRules.Outline.Document
import RiskRules.Scenario

/-!
Scenario definitions and records in JSON. A scenario document may leave out its version in use, a
version its rules, and a rule its description.
-/

namespace RiskRules.Scenario

/-! ### Definitions -/

namespace Rule.Definition

/-- The document of a rule. -/
def toJson (d : Rule.Definition) : Json :=
  .object [("rule_id", .string d.id), ("name", .string d.name),
    ("description", .string d.description), ("formula", d.formula.toJson),
    ("score_modifier", .int d.modifier.toInt)]

/-- Reads a rule. -/
def ofJson? (j : Json) : Option Rule.Definition := do
  let f ← j.fields? ["rule_id", "name", "description", "formula", "score_modifier"]
  return ⟨← f.required "rule_id" Json.toString?, ← f.required "name" Json.toString?,
    ← f.default "description" "" Json.toString?, ← f.required "formula" Outline.ofJson?,
    ← f.required "score_modifier" Json.toInt64?⟩

end Rule.Definition

namespace Iteration.Definition

/-- The document of a version. -/
def toJson (d : Iteration.Definition) : Json :=
  .object [("iteration_id", .string d.id), ("version", .int d.version.toNat),
    ("trigger_object_type", .string d.objectType), ("trigger", d.trigger.toJson),
    ("rules", .array (d.rules.map Rule.Definition.toJson)),
    ("review_threshold", .int d.review.toInt), ("reject_threshold", .int d.reject.toInt)]

/-- Reads a version. -/
def ofJson? (j : Json) : Option Iteration.Definition := do
  let f ← j.fields? ["iteration_id", "version", "trigger_object_type", "trigger", "rules",
    "review_threshold", "reject_threshold"]
  return ⟨← f.required "iteration_id" Json.toString?, ← f.required "version" Json.toUInt32?,
    ← f.required "trigger_object_type" Json.toString?, ← f.required "trigger" Outline.ofJson?,
    ← f.default "rules" [] (·.toList? Rule.Definition.ofJson?),
    ← f.required "review_threshold" Json.toInt64?,
    ← f.required "reject_threshold" Json.toInt64?⟩

end Iteration.Definition

/-- The document of a version, or null. -/
def liveJson : Option Iteration.Definition → Json
  | none => .null
  | some iteration => iteration.toJson

namespace Definition

/-- The document of a scenario. -/
def toJson (d : Definition) : Json :=
  .object [("scenario_id", .string d.id), ("organization_id", .string d.organization),
    ("name", .string d.name), ("live_iteration", liveJson d.live)]

/-- Reads a scenario. -/
def ofJson? (j : Json) : Option Definition := do
  let f ← j.fields? ["scenario_id", "organization_id", "name", "live_iteration"]
  return ⟨← f.required "scenario_id" Json.toString?,
    ← f.required "organization_id" Json.toString?, ← f.required "name" Json.toString?,
    ← f.default "live_iteration" none (·.toOption? Iteration.Definition.ofJson?)⟩

end Definition

/-! ### Records -/

/-- The document of a rule's record. -/
def RuleRecord.toJson (r : RuleRecord) : Json :=
  .object [("rule_id", .string r.id), ("name", .string r.name),
    ("outcome", .string r.outcome.label), ("score_modifier", .int r.modifier.toInt),
    ("error", (r.error.map EvaluationError.toJson).getD .null),
    ("evaluation", r.evaluation.toJson)]

/-- The document of a record. -/
def Record.toJson (r : Record) : Json :=
  .object [("scenario_id", .string r.scenario), ("iteration_id", .string r.iteration),
    ("version", .int r.version.toNat), ("trigger_evaluation", r.trigger.toJson),
    ("rules", .array (r.rules.map RuleRecord.toJson)), ("score", .int r.score.toInt),
    ("outcome", .string r.outcome.label)]

end RiskRules.Scenario
