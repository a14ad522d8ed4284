import RiskRules.Outline
import RiskRules.Ruleset

/-!
Ruleset definitions: rulesets as documents describe them, with outlines for bodies and a cooldown in
whole seconds. `Ruleset.Definition.build` checks thresholds and bodies against a registry;
`Ruleset.Definition.ofRuleset` describes a ruleset.
-/

namespace RiskRules

/-! ### Errors -/

/-- Why the thresholds of outcomes cannot be used: the one for review exceeds the one for
rejection. -/
structure OutcomeThresholdsError where
  review : Int64
  reject : Int64
  deriving DecidableEq

/-- The text of unusable outcome thresholds. -/
def OutcomeThresholdsError.message (e : OutcomeThresholdsError) : String :=
  "review threshold " ++ toString e.review.toInt ++ " exceeds reject threshold "
    ++ toString e.reject.toInt

/-- Where in a definition a tree stands. -/
inductive TreePlace where
  | trigger
  | rule (id : String)
  deriving DecidableEq, Repr

/-- The text of a place. -/
def TreePlace.text : TreePlace → String
  | .trigger => "trigger"
  | .rule id => "rule " ++ id

/-- Why a definition cannot be built. -/
inductive DefinitionError where
  | malformed (place : TreePlace) (e : MalformedTree)
  | outcomeThresholds (e : OutcomeThresholdsError)
  | thresholds (e : ThresholdsError)
  deriving DecidableEq

/-- The text of a definition that cannot be built. -/
def DefinitionError.message : DefinitionError → String
  | .malformed place e => place.text ++ ": " ++ e.message
  | .outcomeThresholds e => e.message
  | .thresholds e => e.message

/-- Decodes a tree of a definition. -/
def Registry.decodeIn (r : Registry) (place : TreePlace) (outline : Outline) :
    Except DefinitionError Node :=
  match r.decode outline with
  | .ok node => .ok node
  | .error e => .error (.malformed place e)

/-! ### Definitions -/

/-- A rule as described. -/
structure Rule.Definition where
  stableId : String
  name : String
  description : String
  body : Outline

/-- A ruleset as described. -/
structure Ruleset.Definition where
  key : PairKey
  version : UInt32
  status : RulesetStatus
  name : String
  thresholds : List Int64
  cooldownSeconds : UInt64
  rules : List Rule.Definition

/-- Builds a rule. -/
def Rule.Definition.build (r : Registry) (d : Rule.Definition) : Except DefinitionError Rule :=
  match r.decodeIn (.rule d.stableId) d.body with
  | .ok body => .ok ⟨d.stableId, d.name, d.description, body⟩
  | .error e => .error e

/-- Describes a rule. -/
def Rule.Definition.ofRule (rule : Rule) : Rule.Definition :=
  ⟨rule.stableId, rule.name, rule.description, .ofNode rule.body⟩

namespace Ruleset.Definition

/-- Builds a ruleset: its thresholds first, then its rules in order. -/
def build (r : Registry) (d : Definition) : Except DefinitionError Ruleset :=
  match Thresholds.check d.thresholds Thresholds.maxCount with
  | .error e => .error (.thresholds e)
  | .ok () =>
    match d.rules.mapM (Rule.Definition.build r) with
    | .error e => .error e
    | .ok rules =>
      .ok ⟨d.key, d.version, d.status, d.name, d.thresholds, .ofSeconds d.cooldownSeconds, rules⟩

/-- Describes a ruleset; a fraction of a second of its cooldown is left out. -/
def ofRuleset (r : Ruleset) : Definition :=
  ⟨r.key, r.version, r.status, r.name, r.thresholds, r.cooldown.seconds,
    r.rules.map Rule.Definition.ofRule⟩

end Ruleset.Definition

end RiskRules
