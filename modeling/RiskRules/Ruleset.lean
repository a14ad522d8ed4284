import RiskRules.Duration
import RiskRules.Number.Signed64
import RiskRules.Keyed
import RiskRules.Node

/-!
Rulesets: the scoring rules of one kind of entity in one organization, with the thresholds that turn
the sum of their modifiers into a score. A rule's tree is a score computation, or a switch over
score computations (`Ruleset.checkShape`); the indexes that a ruleset needs are those of the table
fields that its rules name (`Ruleset.requiredIndexes`).
-/

namespace RiskRules

/-! ### Identifiers -/

/-- An organization and a kind of entity, which together have one ruleset in use. -/
structure PairKey where
  organization : String
  entityType : String
  deriving DecidableEq, Repr

/-- The text of a pair. -/
def PairKey.text (key : PairKey) : String :=
  key.organization ++ "/" ++ key.entityType

/-! ### Rules and rulesets -/

/-- Whether a ruleset is being prepared or in use. -/
inductive RulesetStatus where
  | draft | committed
  deriving DecidableEq, Repr

/-- The label of a status. -/
def RulesetStatus.label : RulesetStatus → String
  | .draft => "draft"
  | .committed => "committed"

/-- A scoring rule. -/
structure Rule where
  stableId : String
  name : String
  description : String
  body : Node

/-- The scoring rules of a kind of entity. -/
structure Ruleset where
  key : PairKey
  version : UInt32
  status : RulesetStatus
  name : String
  thresholds : List Int64
  cooldown : Duration
  rules : List Rule

namespace Ruleset

/-- The greatest score that thresholds give. -/
def maxScoreOf (thresholds : List Int64) : Int64 :=
  Signed64.clamp (thresholds.length + 1)

/-- The greatest score that the rules can give without a floor. -/
def maxScore (r : Ruleset) : Int64 :=
  maxScoreOf r.thresholds

/-- The first rule of an id. -/
def rule? (r : Ruleset) (stableId : String) : Option Rule :=
  r.rules.find? fun rule => rule.stableId == stableId

end Ruleset

/-! ### Thresholds -/

/-- Why thresholds cannot be used. -/
inductive ThresholdsError where
  | tooMany (count max : Nat)
  | notAscending (previous next : Int64)
  deriving DecidableEq, Repr

/-- The text of unusable thresholds. -/
def ThresholdsError.message : ThresholdsError → String
  | .tooMany count max =>
    "too many thresholds: " ++ toString count ++ " (max " ++ toString max ++ ")"
  | .notAscending previous next =>
    "thresholds must be strictly ascending: " ++ toString previous.toInt ++ " is followed by "
      ++ toString next.toInt

namespace Thresholds

/-- The most thresholds that any ruleset has. -/
def maxCount : Nat := 1024

/-- The first neighbours that do not ascend. -/
def firstDescent? : List Int64 → Option (Int64 × Int64)
  | a :: b :: rest => if b ≤ a then some (a, b) else firstDescent? (b :: rest)
  | _ => none

/-- Thresholds are few enough and ascend strictly. -/
def check (thresholds : List Int64) (max : Nat) : Except ThresholdsError Unit :=
  if max < thresholds.length then .error (.tooMany thresholds.length max)
  else
    match firstDescent? thresholds with
    | some (previous, next) => .error (.notAscending previous next)
    | none => .ok ()

end Thresholds

/-! ### Indexes -/

/-- A field of a table that is looked up by index. -/
structure IndexSpec where
  table : String
  field : String
  deriving DecidableEq, Repr

/-- The state of an index. -/
inductive IndexState where
  | ready | pending | missing
  deriving DecidableEq, Repr

/-- The label of a state. -/
def IndexState.label : IndexState → String
  | .ready => "ready"
  | .pending => "pending"
  | .missing => "missing"

namespace IndexSpec

/-- The text of an index. -/
def text (i : IndexSpec) : String :=
  i.table ++ "." ++ i.field

/-- Ascending by table, then by field. -/
def before (a b : IndexSpec) : Bool :=
  a.table < b.table || (a.table == b.table && a.field < b.field)

/-- Puts an index in its place among others, once. -/
def insert (i : IndexSpec) : List IndexSpec → List IndexSpec
  | [] => [i]
  | j :: rest =>
    if i = j then j :: rest
    else if i.before j then i :: j :: rest
    else j :: insert i rest

/-- The literal text of a named child. -/
def literal? (node : Node) (name : String) : Option String :=
  (Keyed.get? name node.named).bind fun child => child.literal.bind Value.string?

/-- The index of a table lookup whose table and field are literal. -/
def ofNode? (node : Node) : Option IndexSpec :=
  if node.func = .databaseAccess then
    match literal? node "tableName", literal? node "fieldName" with
    | some table, some field => some ⟨table, field⟩
    | _, _ => none
  else none

/-- The indexes of all table lookups in a tree, added to others. -/
def collect (node : Node) (indexes : List IndexSpec) : List IndexSpec :=
  (node.walk.filterMap ofNode?).foldl (fun sorted i => insert i sorted) indexes

end IndexSpec

/-- The indexes that the rules need, in ascending order. -/
def Ruleset.requiredIndexes (r : Ruleset) : List IndexSpec :=
  r.rules.foldl (fun indexes rule => IndexSpec.collect rule.body indexes) []

/-! ### Shapes of rules -/

/-- Why a tree is no scoring rule. -/
inductive ShapeError where
  | invalidRoot (func : Func)
  | emptySwitch
  | invalidSwitchChild (index : Nat) (func : Func)
  deriving DecidableEq, Repr

/-- The text of a wrong shape. -/
def ShapeError.message : ShapeError → String
  | .invalidRoot func => "rule root must be ScoreComputation or Switch, found " ++ func.name
  | .emptySwitch => "Switch rule must have at least one child"
  | .invalidSwitchChild index func =>
    "Switch child #" ++ toString index ++ " must be ScoreComputation, found " ++ func.name

namespace Ruleset

/-- All branches from an index on are score computations. -/
def checkBranches (index : Nat) : List Node → Except ShapeError Unit
  | [] => .ok ()
  | branch :: rest =>
    if branch.func = .scoreComputation then checkBranches (index + 1) rest
    else .error (.invalidSwitchChild index branch.func)

/-- A rule is a score computation, or a switch over at least one. -/
def checkShape (body : Node) : Except ShapeError Unit :=
  match body.func with
  | .scoreComputation => .ok ()
  | .switch =>
    if body.children.isEmpty then .error .emptySwitch else checkBranches 0 body.children
  | func => .error (.invalidRoot func)

end Ruleset

end RiskRules
