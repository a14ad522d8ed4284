import RiskRules.World

/-!
The way of a ruleset into use. A request becomes the draft of its pair, one version above the
committed ruleset; preparing it asks for the indexes that it needs and that nobody has asked for;
once all are ready it can be committed. Index creation is queued before an index is marked as
pending, so that none is pending without a job.
-/

namespace RiskRules

/-! ### Requests -/

/-- A rule as requested. Without a body it takes over that of the committed rule of its id; without
an id it gets a fresh one. -/
structure RuleRequest where
  stableId : Option String
  name : String
  description : String
  body : Option Node

/-- A ruleset as requested. -/
structure RulesetRequest where
  key : PairKey
  name : String
  thresholds : List Int64
  cooldown : Duration
  rules : List RuleRequest

/-- What there is to know about a draft whose indexes are ready. -/
structure PreparationReport where
  key : PairKey
  version : UInt32
  indexes : List IndexSpec
  deriving DecidableEq, Repr

/-! ### Errors -/

/-- What is wrong with a request. -/
inductive RequestError where
  | thresholds (e : ThresholdsError)
  | versionsExhausted
  | nothingToCopy (stableId : String)
  | neitherBodyNorId (name : String)
  | shape (stableId : String) (e : ShapeError)
  | duplicateId (stableId : String)
  deriving DecidableEq, Repr

/-- The text of a wrong request. -/
def RequestError.message : RequestError → String
  | .thresholds e => e.message
  | .versionsExhausted => "ruleset version space exhausted"
  | .nothingToCopy stableId =>
    "rule " ++ stableId ++ " has no body and no committed rule to copy from"
  | .neitherBodyNorId name => "rule `" ++ name ++ "` needs a body or a stable id"
  | .shape stableId e => "rule " ++ stableId ++ ": " ++ e.message
  | .duplicateId stableId => "duplicate rule stable id " ++ stableId

/-- Why a step of the workflow was not taken. -/
inductive WorkflowError where
  | badRequest (e : RequestError)
  | noDraft (key : PairKey)
  | notReady (pending : List IndexSpec)
  | store (e : StoreError)
  | queue (e : QueueError)
  deriving DecidableEq, Repr

/-- The text of a step not taken. -/
def WorkflowError.message : WorkflowError → String
  | .badRequest e => "bad parameter: " ++ e.message
  | .noDraft key => "no draft ruleset for " ++ key.text
  | .notReady pending =>
    "ruleset is not ready: " ++ toString pending.length ++ " index(es) not ready"
  | .store e => e.message
  | .queue e => e.message

namespace Workflow

variable {σ : Type}

/-! ### Creating -/

/-- The version after the committed one, starting at 1. -/
def nextVersion : Option Ruleset → Except RequestError UInt32
  | none => .ok 1
  | some committed =>
    if committed.version.toNat + 1 < 0x100000000 then .ok (committed.version + 1)
    else .error .versionsExhausted

/-- The id and body of a requested rule. -/
def idAndBody (committed : Option Ruleset) (request : RuleRequest) :
    Action (World σ) RequestError (String × Node) :=
  match request.stableId, request.body with
  | some stableId, some body => Action.give (stableId, body)
  | none, some body => do return (← World.drawId, body)
  | some stableId, none =>
    match committed.bind (·.rule? stableId) with
    | some rule => Action.give (stableId, rule.body)
    | none => Action.fail (.nothingToCopy stableId)
  | none, none => Action.fail (.neitherBodyNorId request.name)

/-- A requested rule, if its body has the shape of one. -/
def resolve (committed : Option Ruleset) (request : RuleRequest) :
    Action (World σ) RequestError Rule := do
  let (stableId, body) ← idAndBody committed request
  Action.ofExcept (.shape stableId) (Ruleset.checkShape body)
  return ⟨stableId, request.name, request.description, body⟩

/-- The requested rules in order, no id of which may be among those seen. -/
def resolveAll (committed : Option Ruleset) (seen : List String) :
    List RuleRequest → Action (World σ) RequestError (List Rule)
  | [] => Action.give []
  | request :: rest => do
    let rule ← resolve committed request
    if rule.stableId ∈ seen then Action.fail (.duplicateId rule.stableId)
    else
      let later ← resolveAll committed (rule.stableId :: seen) rest
      return rule :: later

/-- Makes a request the draft of its pair. -/
def create (b : Backend σ) (maxThresholds : Nat) (request : RulesetRequest) :
    Action (World σ) WorkflowError Ruleset := do
  Action.ofExcept (WorkflowError.badRequest ∘ .thresholds)
    (Thresholds.check request.thresholds (min maxThresholds Thresholds.maxCount))
  let committed ← (World.committed b request.key).restate .store
  let version ← Action.ofExcept .badRequest (nextVersion committed)
  let rules ← (resolveAll committed [] request.rules).restate .badRequest
  let ruleset : Ruleset := ⟨request.key, version, .draft, request.name, request.thresholds,
    request.cooldown, rules⟩
  (World.replaceDraft b ruleset).restate .store
  return ruleset

/-! ### Preparing and committing -/

/-- The draft of a pair. -/
def requireDraft (b : Backend σ) (key : PairKey) : Action (World σ) WorkflowError Ruleset := do
  match ← (World.draft b key).restate .store with
  | some draft => return draft
  | none => Action.fail (.noDraft key)

/-- The indexes that a ruleset needs and that are not ready, with their states. -/
def notReady (b : Backend σ) (organization : String) (required : List IndexSpec) :
    Action (World σ) WorkflowError (List (IndexSpec × IndexState)) :=
  if required.isEmpty then Action.give []
  else do
    let states ← (World.indexStates b organization required).restate .store
    if states.length ≠ required.length then
      Action.fail (.store (.invalid ("index catalog returned " ++ toString states.length
        ++ " states for " ++ toString required.length ++ " indexes")))
    else return (required.zip states).filter fun entry => entry.2 != .ready

/-- Asks for the indexes that are missing: a job first, then the mark. -/
def requestIndexes (b : Backend σ) (organization : String) (missing : List IndexSpec) :
    Action (World σ) WorkflowError Unit :=
  if missing.isEmpty then Action.give ()
  else do
    (World.enqueue (.createIndexes organization missing)).restate .queue
    (World.markPending b organization missing).restate .store

/-- Prepares the draft of a pair for being committed. -/
def prepare (b : Backend σ) (key : PairKey) :
    Action (World σ) WorkflowError PreparationReport := do
  let draft ← requireDraft b key
  let required := draft.requiredIndexes
  let blocking ← notReady b key.organization required
  requestIndexes b key.organization
    ((blocking.filter fun entry => entry.2 == .missing).map Prod.fst)
  if blocking.isEmpty then return ⟨key, draft.version, required⟩
  else Action.fail (.notReady (blocking.map Prod.fst))

/-- Commits the draft of a pair. -/
def commit (b : Backend σ) (key : PairKey) : Action (World σ) WorkflowError Ruleset := do
  let draft ← requireDraft b key
  let blocking ← notReady b key.organization draft.requiredIndexes
  if blocking.isEmpty then (World.commitDraft b key).restate .store
  else Action.fail (.notReady (blocking.map Prod.fst))

/-! ### Reading -/

/-- The draft or committed ruleset of a pair. -/
def get (b : Backend σ) (key : PairKey) :
    RulesetStatus → Action (World σ) WorkflowError (Option Ruleset)
  | .draft => (World.draft b key).restate .store
  | .committed => (World.committed b key).restate .store

/-- The rulesets of an organization. -/
def list (b : Backend σ) (organization : String) :
    Action (World σ) WorkflowError (List Ruleset) :=
  (World.list b organization).restate .store

end Workflow

end RiskRules
