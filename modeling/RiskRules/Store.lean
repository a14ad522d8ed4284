import RiskRules.Action
import RiskRules.Score

/-!
What a store of rulesets, scores and index states offers. For each organization and kind of entity
there is room for one draft and one committed ruleset; an entity's scores are kept newest first, at
most one of them current.
-/

namespace RiskRules

/-- Why a store did not do what it was asked. -/
inductive StoreError where
  | io (text : String)
  | corrupt (text : String)
  | invalid (text : String)
  | store (text : String)
  deriving DecidableEq, Repr

namespace StoreError

/-- The text of a store's failure. -/
def message : StoreError → String
  | .io text => "store io error: " ++ text
  | .corrupt text => "store corruption: " ++ text
  | .invalid text => "store invalid request: " ++ text
  | .store text => "store error: " ++ text

/-- What the store itself said. -/
def text : StoreError → String
  | .io text => text
  | .corrupt text => text
  | .invalid text => text
  | .store text => text

/-- Only drafts are replaced. -/
def notADraft : StoreError :=
  .invalid "only draft rulesets can be replaced"

/-- There is no draft to commit. -/
def noDraft (key : PairKey) : StoreError :=
  .invalid ("no draft ruleset for " ++ key.text)

end StoreError

/-- A ruleset goes before another: by kind of entity, a draft before a committed one. -/
def Ruleset.listedBefore (a b : Ruleset) : Bool :=
  a.key.entityType < b.key.entityType
    || (a.key.entityType == b.key.entityType && (a.status == .draft || b.status == .committed))

/-- The operations of a store kept in a state of some type. -/
structure Backend (σ : Type) where
  committed : PairKey → Action σ StoreError (Option Ruleset)
  draft : PairKey → Action σ StoreError (Option Ruleset)
  list : String → Action σ StoreError (List Ruleset)
  replaceDraft : Ruleset → Action σ StoreError Unit
  commitDraft : PairKey → Action σ StoreError Ruleset
  currentScore : EntityRef → Action σ StoreError (Option Score)
  history : EntityRef → Action σ StoreError (List Score)
  insertScore : Score → Action σ StoreError Score
  indexStates : String → List IndexSpec → Action σ StoreError (List IndexState)
  markPending : String → List IndexSpec → Action σ StoreError Unit
  markReady : String → List IndexSpec → Action σ StoreError Unit

end RiskRules
