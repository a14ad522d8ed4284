import RiskRules.Evaluator
import RiskRules.Ruleset.Definition

/-!
Scenarios: a trigger decides whether a record is looked at, boolean rules that hit add their
modifiers, and two thresholds turn the sum into an outcome. A rule that fails counts as not hit and
stops nothing; a trigger that fails stops everything.
-/

namespace RiskRules

/-! ### Outcomes -/

/-- What is to happen with a record. -/
inductive Outcome where
  | approve | review | reject
  deriving DecidableEq, Repr

/-- The label of an outcome. -/
def Outcome.label : Outcome → String
  | .approve => "approve"
  | .review => "review"
  | .reject => "reject"

/-- The scores from which on a record is reviewed and rejected. -/
structure OutcomeThresholds where
  review : Int64
  reject : Int64
  review_le_reject : review ≤ reject

namespace OutcomeThresholds

/-- Two thresholds, if the one for review does not exceed the one for rejection. -/
def of (review reject : Int64) : Except OutcomeThresholdsError OutcomeThresholds :=
  if h : review ≤ reject then .ok ⟨review, reject, h⟩ else .error ⟨review, reject⟩

/-- The outcome of a score. -/
def outcome (t : OutcomeThresholds) (score : Int64) : Outcome :=
  if t.reject ≤ score then .reject
  else if t.review ≤ score then .review
  else .approve

end OutcomeThresholds

/-! ### Scenarios -/

namespace Scenario

/-- A rule of a scenario. -/
structure Rule where
  id : String
  name : String
  description : String
  formula : Node
  modifier : Int64

/-- A version of a scenario. -/
structure Iteration where
  id : String
  version : UInt32
  objectType : String
  trigger : Node
  rules : List Rule
  thresholds : OutcomeThresholds

end Scenario

/-- A scenario and the version of it that is in use. -/
structure Scenario where
  id : String
  organization : String
  name : String
  live : Option Scenario.Iteration

namespace Scenario

/-! ### Definitions -/

/-- A rule as described. -/
structure Rule.Definition where
  id : String
  name : String
  description : String
  formula : Outline
  modifier : Int64

/-- A version as described. -/
structure Iteration.Definition where
  id : String
  version : UInt32
  objectType : String
  trigger : Outline
  rules : List Rule.Definition
  review : Int64
  reject : Int64

/-- A scenario as described. -/
structure Definition where
  id : String
  organization : String
  name : String
  live : Option Iteration.Definition

/-- Builds a rule. -/
def Rule.Definition.build (r : Registry) (d : Rule.Definition) : Except DefinitionError Rule :=
  match r.decodeIn (.rule d.id) d.formula with
  | .ok formula => .ok ⟨d.id, d.name, d.description, formula, d.modifier⟩
  | .error e => .error e

/-- Builds a version: its thresholds, then its trigger, then its rules in order. -/
def Iteration.Definition.build (r : Registry) (d : Iteration.Definition) :
    Except DefinitionError Iteration := do
  let thresholds ←
    match OutcomeThresholds.of d.review d.reject with
    | .ok thresholds => pure thresholds
    | .error e => .error (.outcomeThresholds e)
  let trigger ← r.decodeIn .trigger d.trigger
  let rules ← d.rules.mapM (Rule.Definition.build r)
  return ⟨d.id, d.version, d.objectType, trigger, rules, thresholds⟩

/-- Builds a scenario. -/
def Definition.build (r : Registry) (d : Definition) : Except DefinitionError Scenario :=
  match d.live with
  | none => .ok ⟨d.id, d.organization, d.name, none⟩
  | some iteration =>
    match iteration.build r with
    | .ok live => .ok ⟨d.id, d.organization, d.name, some live⟩
    | .error e => .error e

/-! ### Records -/

/-- What a rule came to. -/
inductive RuleOutcome where
  | hit | noHit | error
  deriving DecidableEq, Repr

/-- The label of what a rule came to. -/
def RuleOutcome.label : RuleOutcome → String
  | .hit => "hit"
  | .noHit => "no_hit"
  | .error => "error"

/-- The record of a rule. -/
structure RuleRecord where
  id : String
  name : String
  outcome : RuleOutcome
  modifier : Int64
  error : Option EvaluationError
  evaluation : Evaluation

/-- The record of a scenario. -/
structure Record where
  scenario : String
  iteration : String
  version : UInt32
  trigger : Evaluation
  rules : List RuleRecord
  score : Int64
  outcome : Outcome

/-- Why a scenario has no outcome. -/
inductive Failure where
  | noLiveVersion (scenario : String)
  | typeMismatch (expected actual : String)
  | triggerNotMatched
  | triggerEvaluation (e : EvaluationError) (evaluation : Evaluation)
  | internalFailure (fault : Fault)

/-- The text of a failure. -/
def Failure.message : Failure → String
  | .noLiveVersion scenario => "scenario " ++ scenario ++ " has no live iteration"
  | .typeMismatch expected actual =>
    "record type " ++ actual ++ " does not match trigger type " ++ expected
  | .triggerNotMatched => "trigger condition did not match"
  | .triggerEvaluation e _ => "trigger evaluation failed: " ++ e.message
  | .internalFailure fault => "internal evaluation failure: " ++ fault.message

/-! ### Execution -/

/-- The truth value in a record. -/
def truthOf (e : Evaluation) : Except EvaluationError Bool :=
  match e.outcome with
  | .ok (.bool b) => .ok b
  | .ok other => .error (.typeMismatch e.func "bool" other.kind.name)
  | .error error => .error error

/-- The record of a rule from the evaluation of its formula. -/
def Rule.judge (rule : Rule) (e : Evaluation) : RuleRecord :=
  match truthOf e with
  | .ok true => ⟨rule.id, rule.name, .hit, rule.modifier, none, e⟩
  | .ok false => ⟨rule.id, rule.name, .noHit, 0, none, e⟩
  | .error error => ⟨rule.id, rule.name, .error, 0, some error, e⟩

/-- Evaluates a rule. -/
def Rule.run (r : Registry) (env : Environment) (rule : Rule) : Except Failure RuleRecord :=
  match Evaluator.evaluate r env rule.formula with
  | .ok e => .ok (rule.judge e)
  | .error fault => .error (.internalFailure fault)

/-- Evaluates the trigger of a version, which must be true. -/
def Iteration.checkTrigger (r : Registry) (env : Environment) (iteration : Iteration) :
    Except Failure Evaluation :=
  match Evaluator.evaluate r env iteration.trigger with
  | .error fault => .error (.internalFailure fault)
  | .ok e =>
    match truthOf e with
    | .ok true => .ok e
    | .ok false => .error .triggerNotMatched
    | .error error => .error (.triggerEvaluation error e)

/-- Evaluates the trigger and then every rule of a version. -/
def Iteration.run (r : Registry) (env : Environment) (scenario : String)
    (iteration : Iteration) : Except Failure Record := do
  let trigger ← iteration.checkTrigger r env
  let rules ← iteration.rules.mapM (Rule.run r env)
  let score := (rules.map RuleRecord.modifier).foldl Signed64.addClamped 0
  return ⟨scenario, iteration.id, iteration.version, trigger, rules, score,
    iteration.thresholds.outcome score⟩

/-- Evaluates the version of a scenario that is in use for a record of a type. -/
def run (r : Registry) (env : Environment) (objectType : String) (scenario : Scenario) :
    Except Failure Record :=
  match scenario.live with
  | none => .error (.noLiveVersion scenario.id)
  | some iteration =>
    if objectType ≠ iteration.objectType then
      .error (.typeMismatch iteration.objectType objectType)
    else iteration.run r env scenario.id

end Scenario

end RiskRules
