import RiskRules.Evaluator
import RiskRules.Ruleset

/-!
Scoring: every rule of a ruleset is evaluated, in order, and must yield a score; the modifiers of
those that triggered are summed, kept within 64 bits, and the thresholds that the sum has reached
give the score, raised to the greatest floor.
-/

namespace RiskRules

/-! ### From a modifier to a score -/

namespace Scoring

/-- One more than the number of thresholds in front of the first that exceeds the modifier. -/
def discretize (modifier : Int64) (thresholds : List Int64) : Int64 :=
  Signed64.clamp (thresholds.findIdx (fun t => decide (modifier < t)) + 1)

/-- The score of a modifier, no less than the floor. -/
def finalScore (modifier floor : Int64) (thresholds : List Int64) : Int64 :=
  max (discretize modifier thresholds) floor

end Scoring

/-! ### Records -/

/-- What a rule came to. -/
structure RuleScore where
  stableId : String
  name : String
  result : ScoreResult
  evaluation : Evaluation

/-- What a ruleset came to. -/
structure ScoringRecord where
  modifier : Int64
  floor : Int64
  score : Int64
  rules : List RuleScore

/-- Why a ruleset has no score. -/
inductive ScoringError where
  | ruleEvaluation (stableId : String) (e : EvaluationError)
  | internalFailure (fault : Fault)
  deriving DecidableEq, Repr

/-- The text of a failed scoring. -/
def ScoringError.message : ScoringError → String
  | .ruleEvaluation stableId e => "rule " ++ stableId ++ " failed to evaluate: " ++ e.message
  | .internalFailure fault => "internal evaluation failure: " ++ fault.message

namespace Scoring

/-! ### Execution -/

/-- The score in a record. -/
def scoreOf (e : Evaluation) : Except EvaluationError ScoreResult :=
  match e.outcome with
  | .ok (.score s) => .ok s
  | .ok other => .error (.typeMismatch e.func "score" other.kind.name)
  | .error error => .error error

/-- Scores one rule. -/
def scoreRule (r : Registry) (env : Environment) (rule : Rule) : Except ScoringError RuleScore :=
  match Evaluator.evaluate r env rule.body with
  | .error fault => .error (.internalFailure fault)
  | .ok evaluation =>
    match scoreOf evaluation with
    | .error e => .error (.ruleEvaluation rule.stableId e)
    | .ok result => .ok ⟨rule.stableId, rule.name, result, evaluation⟩

/-- Adds the modifier of a score that triggered. -/
def addModifier (sum : Int64) (s : ScoreResult) : Int64 :=
  if s.triggered then Signed64.addClamped sum s.modifier else sum

/-- Raises the floor to that of a score that triggered. -/
def raiseFloor (floor : Int64) (s : ScoreResult) : Int64 :=
  if s.triggered then max floor s.floor else floor

/-- Puts the scores of the rules together. -/
def total (thresholds : List Int64) (rules : List RuleScore) : ScoringRecord :=
  let results := rules.map RuleScore.result
  let modifier := results.foldl addModifier 0
  let floor := results.foldl raiseFloor 0
  ⟨modifier, floor, finalScore modifier floor thresholds, rules⟩

/-- Scores a ruleset; the first rule without a score is reported. -/
def execute (r : Registry) (env : Environment) (ruleset : Ruleset) :
    Except ScoringError ScoringRecord :=
  match ruleset.rules.mapM (scoreRule r env) with
  | .ok rules => .ok (total ruleset.thresholds rules)
  | .error e => .error e

end Scoring

end RiskRules
