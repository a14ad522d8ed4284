import RiskRules.Scoring
import RiskRules.World

/-!
The life of a score. A score is computed when it is first asked for and again once it is stale,
either at once or by a queued job; one that was set by hand stays until its deadline. While a
recomputation fails, the stale score goes on being served.
-/

namespace RiskRules

/-! ### Policies -/

/-- How scores are kept fresh: who may override them, with which functions rulesets are evaluated,
how long a score lasts unless its ruleset says otherwise, and whether stale ones may be recomputed
by queued jobs. -/
structure LifecycleConfig where
  registry : Registry
  allowed : List String
  defaultRefresh : Duration
  backgroundRefresh : Bool

/-- How fresh a score is asked for: a window of its own, and whether a job may do the work. -/
structure RefreshPolicy where
  window : Option Duration
  background : Bool
  deriving DecidableEq

/-! ### Errors -/

/-- Why there is no score. -/
inductive LifecycleError where
  | noCommittedRuleset (key : PairKey)
  | notFound (entity : EntityRef)
  | forbidden (e : AuthorizationError)
  | outOfRange (score max : Int64)
  | scoring (e : ScoringError)
  | store (e : StoreError)
  | queue (e : QueueError)
  | data (text : String)
  deriving DecidableEq, Repr

/-- The text of a missing score. -/
def LifecycleError.message : LifecycleError → String
  | .noCommittedRuleset key => "no committed ruleset for " ++ key.text
  | .notFound entity => "entity " ++ entity.text ++ " not found"
  | .forbidden e => "forbidden: " ++ e.message
  | .outOfRange score max =>
    "bad parameter: score " ++ toString score.toInt ++ " is outside 1..=" ++ toString max.toInt
  | .scoring e => e.message
  | .store e => e.message
  | .queue e => e.message
  | .data text => (DataError.source text).message

/-- Missing data of an entity as the lifecycle reports it. -/
def LifecycleError.ofData : DataError → LifecycleError
  | .notFound entity => .notFound entity
  | .source text => .data text

namespace Lifecycle

variable {σ : Type}

/-! ### Computing -/

/-- The committed ruleset of an entity. -/
def requireRuleset (b : Backend σ) (entity : EntityRef) :
    Action (World σ) LifecycleError Ruleset := do
  match ← (World.committed b entity.key).restate .store with
  | some ruleset => return ruleset
  | none => Action.fail (.noCommittedRuleset entity.key)

/-- Computes a score from the committed ruleset and adds it. -/
def refresh (b : Backend σ) (c : LifecycleConfig) (entity : EntityRef) :
    Action (World σ) LifecycleError Score := do
  let ruleset ← requireRuleset b entity
  let env ← (World.environmentFor entity).restate .ofData
  let record ← Action.ofExcept .scoring (Scoring.execute c.registry env ruleset)
  let id ← World.drawId
  let now ← Action.view World.now
  (World.insertScore b ⟨id, entity, record.score, .ruleset, some ruleset.version, none, none, now,
    true⟩).restate .store

/-! ### Staleness -/

/-- How long scores of an entity last: the cooldown of its ruleset, or the default if there is none
or it is zero. -/
def rulesetWindow (b : Backend σ) (c : LifecycleConfig) (entity : EntityRef) :
    Action (World σ) LifecycleError Duration := do
  match ← (World.committed b entity.key).restate .store with
  | some ruleset => return if ruleset.cooldown.isZero then c.defaultRefresh else ruleset.cooldown
  | none => return c.defaultRefresh

/-- A score made at one time has outlived a window at another. A window beyond 63 bits of seconds is
never outlived. -/
def outlived (createdAt now : Timestamp) (window : Duration) : Bool :=
  decide (window.seconds.toNat < 0x8000000000000000)
    && decide ((window.toNanos : Int) < now.instant - createdAt.instant)

/-- A score is stale: from its deadline on if it has one; never if it was set by hand without one;
else once it has outlived its window. -/
def isStale (b : Backend σ) (c : LifecycleConfig) (policy : RefreshPolicy) (now : Timestamp)
    (score : Score) : Action (World σ) LifecycleError Bool :=
  match score.staleAt with
  | some deadline => Action.give (decide (deadline.instant ≤ now.instant))
  | none =>
    if score.source = .override then Action.give false
    else
      match policy.window with
      | some window => Action.give (outlived score.createdAt now window)
      | none => do return outlived score.createdAt now (← rulesetWindow b c score.entity)

/-! ### Serving -/

/-- Serves a stale score: a job recomputes it later, or it is recomputed at once and served as it is
if that fails. -/
def serveStale (b : Backend σ) (c : LifecycleConfig) (policy : RefreshPolicy) (entity : EntityRef)
    (current : Score) : Action (World σ) LifecycleError Score :=
  if policy.background && c.backgroundRefresh then do
    (World.enqueue (.recomputeScore entity)).restate .queue
    return current
  else do
    match ← (refresh b c entity).attempt with
    | .ok computed => return computed
    | .error _ => return current

/-- The score of an entity, computed if there is none. -/
def getActive (b : Backend σ) (c : LifecycleConfig) (policy : RefreshPolicy)
    (entity : EntityRef) : Action (World σ) LifecycleError Score := do
  match ← (World.currentScore b entity).restate .store with
  | none => refresh b c entity
  | some current =>
    let now ← Action.view World.now
    if ← isStale b c policy now current then serveStale b c policy entity current
    else return current

/-- The scores of an entity, newest first. -/
def history (b : Backend σ) (entity : EntityRef) :
    Action (World σ) LifecycleError (List Score) :=
  (World.history b entity).restate .store

/-! ### Overriding -/

/-- Sets the score of an entity by hand. -/
def override (b : Backend σ) (c : LifecycleConfig) (actor : String) (entity : EntityRef)
    (score : Int64) (staleAt : Option Timestamp) : Action (World σ) LifecycleError Score := do
  (World.authorize c.allowed actor).restate .forbidden
  let known ← (World.entityExists entity).restate .ofData
  if !known then Action.fail (.notFound entity)
  else
    let ruleset ← requireRuleset b entity
    if score < 1 ∨ ruleset.maxScore < score then
      Action.fail (.outOfRange score ruleset.maxScore)
    else
      let id ← World.drawId
      let now ← Action.view World.now
      (World.insertScore b ⟨id, entity, score, .override, some ruleset.version, some actor,
        staleAt, now, true⟩).restate .store

/-! ### Jobs -/

/-- Does a job: recomputes a score, or marks created indexes as ready. -/
def work (b : Backend σ) (c : LifecycleConfig) :
    Job → Action (World σ) LifecycleError (Option Score)
  | .recomputeScore entity => do return some (← refresh b c entity)
  | .createIndexes organization indexes => do
    (World.markReady b organization indexes).restate .store
    return none

end Lifecycle

end RiskRules
