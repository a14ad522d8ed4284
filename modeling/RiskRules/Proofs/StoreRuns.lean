import RiskRules.Proofs.Action
import RiskRules.Store

/-!
Operations of a store as data. `StoreOp.run` does one on any kind of store and gives its answer, and
`StoreOp.answers` does one after the other and gives what each of them answered, whether or not
those before it failed.
-/

namespace RiskRules

/-! ### Operations and answers -/

/-- An operation of a store. -/
inductive StoreOp where
  | committed (key : PairKey)
  | draft (key : PairKey)
  | list (organization : String)
  | replaceDraft (ruleset : Ruleset)
  | commitDraft (key : PairKey)
  | currentScore (entity : EntityRef)
  | history (entity : EntityRef)
  | insertScore (score : Score)
  | indexStates (organization : String) (indexes : List IndexSpec)
  | markPending (organization : String) (indexes : List IndexSpec)
  | markReady (organization : String) (indexes : List IndexSpec)

/-- What an operation gives if it does not fail. -/
inductive StoreAnswer where
  | slot (found : Option Ruleset)
  | rulesets (listed : List Ruleset)
  | ruleset (committed : Ruleset)
  | current (found : Option Score)
  | scores (listed : List Score)
  | score (stored : Score)
  | states (states : List IndexState)
  | done

namespace StoreOp

variable {σ : Type}

/-- Does an operation on a store. -/
def run (b : Backend σ) : StoreOp → Action σ StoreError StoreAnswer
  | .committed key => .slot <$> b.committed key
  | .draft key => .slot <$> b.draft key
  | .list organization => .rulesets <$> b.list organization
  | .replaceDraft ruleset => (fun _ => .done) <$> b.replaceDraft ruleset
  | .commitDraft key => .ruleset <$> b.commitDraft key
  | .currentScore entity => .current <$> b.currentScore entity
  | .history entity => .scores <$> b.history entity
  | .insertScore score => .score <$> b.insertScore score
  | .indexStates organization indexes => .states <$> b.indexStates organization indexes
  | .markPending organization indexes => (fun _ => .done) <$> b.markPending organization indexes
  | .markReady organization indexes => (fun _ => .done) <$> b.markReady organization indexes

/-- The answers to operations done one after the other. -/
def answers (b : Backend σ) : List StoreOp → σ → List (Except StoreError StoreAnswer)
  | [], _ => []
  | op :: rest, s => (op.run b s).1 :: answers b rest (op.run b s).2

/-- A write that puts rows in the place of others. -/
def IsWrite : StoreOp → Prop
  | .replaceDraft _ | .commitDraft _ | .insertScore _ => True
  | _ => False

/-- The id of the score that an operation adds. -/
def addedId? : StoreOp → Option String
  | .insertScore score => some score.id
  | _ => none

end StoreOp

end RiskRules
