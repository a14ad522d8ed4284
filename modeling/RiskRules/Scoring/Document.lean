import RiskRules.Evaluation.Document
import RiskRules.Scoring

/-!
Scoring records in JSON.
-/

namespace RiskRules

namespace RuleScore

/-- The document of a rule's score. -/
def toJson (s : RuleScore) : Json :=
  .object [("stable_id", .string s.stableId), ("name", .string s.name),
    ("result", s.result.toJson), ("evaluation", s.evaluation.toJson)]

/-- Reads a rule's score. -/
def ofJson? (j : Json) : Option RuleScore := do
  let f ← j.fields? ["stable_id", "name", "result", "evaluation"]
  return ⟨← f.required "stable_id" Json.toString?, ← f.required "name" Json.toString?,
    ← f.required "result" ScoreResult.ofJson?, ← f.required "evaluation" Evaluation.ofJson?⟩

end RuleScore

namespace ScoringRecord

/-- The document of a scoring record. -/
def toJson (s : ScoringRecord) : Json :=
  .object [("modifier", .int s.modifier.toInt), ("floor", .int s.floor.toInt),
    ("score", .int s.score.toInt), ("rules", .array (s.rules.map RuleScore.toJson))]

/-- Reads a scoring record. -/
def ofJson? (j : Json) : Option ScoringRecord := do
  let f ← j.fields? ["modifier", "floor", "score", "rules"]
  return ⟨← f.required "modifier" Json.toInt64?, ← f.required "floor" Json.toInt64?,
    ← f.required "score" Json.toInt64?, ← f.required "rules" (·.toList? RuleScore.ofJson?)⟩

end ScoringRecord

end RiskRules
