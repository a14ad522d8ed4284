import RiskRules.Slots
import RiskRules.Store

/-!
A store in memory: slots for drafts and committed rulesets, a history for each entity, and the
indexes that are pending or ready.
-/

namespace RiskRules

/-- The contents of a store in memory. Histories stand newest first. -/
structure Memory where
  drafts : List (PairKey × Ruleset)
  committed : List (PairKey × Ruleset)
  scores : List (EntityRef × List Score)
  indexes : List ((String × IndexSpec) × IndexState)

namespace Memory

/-- A store with nothing in it. -/
def empty : Memory :=
  ⟨[], [], [], []⟩

/-! ### Rulesets -/

/-- The rulesets of an organization, in the order of listing. -/
def list (m : Memory) (organization : String) : List Ruleset :=
  (((m.drafts ++ m.committed).filter fun slot => slot.1.organization == organization).map
    Prod.snd).mergeSort Ruleset.listedBefore

/-- Puts a draft in the place of the one before. -/
def replaceDraft (ruleset : Ruleset) : Action Memory StoreError Unit :=
  fun m =>
    if ruleset.status = .draft then
      (.ok (), { m with drafts := Slots.put ruleset.key ruleset m.drafts })
    else (.error .notADraft, m)

/-- Moves a draft to the place of the committed ruleset. -/
def commitDraft (key : PairKey) : Action Memory StoreError Ruleset :=
  fun m =>
    match Slots.get? key m.drafts with
    | none => (.error (.noDraft key), m)
    | some draft =>
      let ruleset := { draft with status := .committed }
      (.ok ruleset, { m with
        drafts := Slots.remove key m.drafts
        committed := Slots.put key ruleset m.committed })

/-! ### Scores -/

/-- The scores of an entity, newest first. -/
def history (m : Memory) (entity : EntityRef) : List Score :=
  (Slots.get? entity m.scores).getD []

/-- The newest current score of an entity. -/
def currentScore (m : Memory) (entity : EntityRef) : Option Score :=
  (m.history entity).find? Score.isCurrent

/-- Puts a score in front of its entity's history as the only current one. -/
def insertScore (score : Score) : Action Memory StoreError Score :=
  fun m =>
    let stored := { score with isCurrent := true }
    let earlier := (m.history score.entity).map fun s => { s with isCurrent := false }
    (.ok stored, { m with scores := Slots.put score.entity (stored :: earlier) m.scores })

/-! ### Indexes -/

/-- The state of an index; one never marked is missing. -/
def indexState (m : Memory) (organization : String) (index : IndexSpec) : IndexState :=
  (Slots.get? (organization, index) m.indexes).getD .missing

/-- Marks a missing index as pending. -/
def markPending (organization : String) (m : Memory) (index : IndexSpec) : Memory :=
  if m.indexState organization index = .missing then
    { m with indexes := Slots.put (organization, index) .pending m.indexes }
  else m

/-- Marks an index as ready. -/
def markReady (organization : String) (m : Memory) (index : IndexSpec) : Memory :=
  { m with indexes := Slots.put (organization, index) .ready m.indexes }

/-! ### The backend -/

/-- The operations of a store in memory. -/
def backend : Backend Memory where
  committed key := Action.view fun m => Slots.get? key m.committed
  draft key := Action.view fun m => Slots.get? key m.drafts
  list organization := Action.view (·.list organization)
  replaceDraft := replaceDraft
  commitDraft := commitDraft
  currentScore entity := Action.view (·.currentScore entity)
  history entity := Action.view (·.history entity)
  insertScore := insertScore
  indexStates organization indexes :=
    Action.view fun m => indexes.map (m.indexState organization)
  markPending organization indexes :=
    Action.update fun m => indexes.foldl (markPending organization) m
  markReady organization indexes :=
    Action.update fun m => indexes.foldl (markReady organization) m

end Memory

end RiskRules
