import RiskRules.Environment
import RiskRules.Slots
import RiskRules.Store

/-!
The world that rulesets and scores live in: a store, a queue of jobs, the data of entities, a clock,
a supply of fresh ids, and failures planned for calls to come. A planned failure takes the place of
the call it is planned for and is then used up; the call itself does nothing. Calls come one after
the other: threads, their locks and the wall clock are not modelled.
-/

namespace RiskRules

/-! ### Calls -/

/-- The calls for which failures can be planned. -/
inductive Call where
  | committedRuleset | draftRuleset | listRulesets | replaceDraft | commitDraft
  | currentScore | scoreHistory | insertScore
  | indexStates | markPending | markReady
  | authorize | entityExists | environmentFor
  deriving DecidableEq, Repr

/-- A failure planned for the next call of a kind. -/
structure PlannedFailure where
  call : Call
  error : StoreError
  deriving DecidableEq, Repr

/-- Takes the first failure planned for a call out of a plan. -/
def PlannedFailure.take? (call : Call) :
    List PlannedFailure → Option (StoreError × List PlannedFailure)
  | [] => none
  | p :: rest =>
    if p.call = call then some (p.error, rest)
    else (take? call rest).map fun (error, rest) => (error, p :: rest)

/-! ### Failures of the other parties -/

/-- The queue did not take a job. -/
structure QueueError where
  text : String
  deriving DecidableEq, Repr

/-- The text of a queue's failure. -/
def QueueError.message (e : QueueError) : String :=
  "task queue error: " ++ e.text

/-- Why an actor may not override a score. -/
inductive AuthorizationError where
  | denied (actor : String)
  | failed (text : String)
  deriving DecidableEq, Repr

/-- The text of a refused authorization. -/
def AuthorizationError.message : AuthorizationError → String
  | .denied actor => "actor " ++ actor ++ " is not allowed to override score"
  | .failed text => "authorization check failed: " ++ text

/-- Why the data of an entity cannot be had. -/
inductive DataError where
  | notFound (entity : EntityRef)
  | source (text : String)
  deriving DecidableEq, Repr

/-- The text of missing data. -/
def DataError.message : DataError → String
  | .notFound entity => "entity not found: " ++ entity.text
  | .source text => "entity data error: " ++ text

/-! ### The world -/

/-- A world around a store. Jobs stand oldest first; `shortAnswers` counts the answers about index
states that will lack their last item; `drawn` counts the ids drawn. `lookups` counts the
environments handed out without an end; a counter of 64 bits that stays at its greatest value shows
the same in every run of fewer than `2^64` lookups. -/
structure World (σ : Type) where
  store : σ
  jobs : List Job
  refusal : Option String
  entities : List (EntityRef × Environment)
  lookups : Nat
  now : Timestamp
  ids : Nat → String
  drawn : Nat
  planned : List PlannedFailure
  shortAnswers : Nat

namespace World

variable {σ ε α : Type}

/-- A world in which nothing has happened. -/
def fresh (store : σ) (now : Timestamp) (ids : Nat → String) : World σ :=
  { store, jobs := [], refusal := none, entities := [], lookups := 0, now, ids, drawn := 0,
    planned := [], shortAnswers := 0 }

/-! ### The store -/

/-- Calls the store, unless a failure is planned for the call. -/
def call (c : Call) (op : Action σ StoreError α) : Action (World σ) StoreError α :=
  fun w =>
    match PlannedFailure.take? c w.planned with
    | some (error, planned) => (.error error, { w with planned })
    | none =>
      match op w.store with
      | (r, store) => (r, { w with store })

/-- The committed ruleset of a pair. -/
def committed (b : Backend σ) (key : PairKey) : Action (World σ) StoreError (Option Ruleset) :=
  call .committedRuleset (b.committed key)

/-- The draft of a pair. -/
def draft (b : Backend σ) (key : PairKey) : Action (World σ) StoreError (Option Ruleset) :=
  call .draftRuleset (b.draft key)

/-- The rulesets of an organization. -/
def list (b : Backend σ) (organization : String) : Action (World σ) StoreError (List Ruleset) :=
  call .listRulesets (b.list organization)

/-- Puts a draft in the place of the one before. -/
def replaceDraft (b : Backend σ) (ruleset : Ruleset) : Action (World σ) StoreError Unit :=
  call .replaceDraft (b.replaceDraft ruleset)

/-- Moves a draft to the place of the committed ruleset. -/
def commitDraft (b : Backend σ) (key : PairKey) : Action (World σ) StoreError Ruleset :=
  call .commitDraft (b.commitDraft key)

/-- The current score of an entity. -/
def currentScore (b : Backend σ) (entity : EntityRef) :
    Action (World σ) StoreError (Option Score) :=
  call .currentScore (b.currentScore entity)

/-- The scores of an entity, newest first. -/
def history (b : Backend σ) (entity : EntityRef) : Action (World σ) StoreError (List Score) :=
  call .scoreHistory (b.history entity)

/-- Adds a score as the current one of its entity. -/
def insertScore (b : Backend σ) (score : Score) : Action (World σ) StoreError Score :=
  call .insertScore (b.insertScore score)

/-- The states of indexes; the last is left out if an answer is to be short. -/
def indexStates (b : Backend σ) (organization : String) (indexes : List IndexSpec) :
    Action (World σ) StoreError (List IndexState) :=
  fun w =>
    match call .indexStates (b.indexStates organization indexes) w with
    | (r, after) =>
      if w.shortAnswers = 0 then (r, after)
      else (r.map List.dropLast, { after with shortAnswers := after.shortAnswers - 1 })

/-- Marks indexes as pending. -/
def markPending (b : Backend σ) (organization : String) (indexes : List IndexSpec) :
    Action (World σ) StoreError Unit :=
  call .markPending (b.markPending organization indexes)

/-- Marks indexes as ready. -/
def markReady (b : Backend σ) (organization : String) (indexes : List IndexSpec) :
    Action (World σ) StoreError Unit :=
  call .markReady (b.markReady organization indexes)

/-! ### The other parties -/

/-- Draws a fresh id. -/
def drawId : Action (World σ) ε String :=
  fun w => (.ok (w.ids w.drawn), { w with drawn := w.drawn + 1 })

/-- Puts a job at the end of the queue. -/
def enqueue (job : Job) : Action (World σ) QueueError Unit :=
  fun w =>
    match w.refusal with
    | some text => (.error ⟨text⟩, w)
    | none => (.ok (), { w with jobs := w.jobs ++ [job] })

/-- Takes all jobs out of the queue. -/
def drain : Action (World σ) ε (List Job) :=
  fun w => (.ok w.jobs, { w with jobs := [] })

/-- Lets an actor override scores if it is one of those allowed. -/
def authorize (allowed : List String) (actor : String) :
    Action (World σ) AuthorizationError Unit :=
  fun w =>
    match PlannedFailure.take? .authorize w.planned with
    | some (error, planned) => (.error (.failed error.text), { w with planned })
    | none => (if actor ∈ allowed then .ok () else .error (.denied actor), w)

/-- There is data of an entity. -/
def entityExists (entity : EntityRef) : Action (World σ) DataError Bool :=
  fun w =>
    match PlannedFailure.take? .entityExists w.planned with
    | some (error, planned) => (.error (.source error.text), { w with planned })
    | none => (.ok (Slots.get? entity w.entities).isSome, w)

/-- The environment of an entity, and one more lookup counted. -/
def environmentFor (entity : EntityRef) : Action (World σ) DataError Environment :=
  fun w =>
    match PlannedFailure.take? .environmentFor w.planned with
    | some (error, planned) => (.error (.source error.text), { w with planned })
    | none =>
      match Slots.get? entity w.entities with
      | none => (.error (.notFound entity), w)
      | some env => (.ok env, { w with lookups := w.lookups + 1 })

/-- Sets the data of an entity. -/
def putEntity (entity : EntityRef) (env : Environment) (w : World σ) : World σ :=
  { w with entities := Slots.put entity env w.entities }

/-- Moves the clock. -/
def advance (nanos : Int) (w : World σ) : World σ :=
  { w with now := w.now.advance nanos }

/-- Plans a failure for the next call of a kind, after those already planned. -/
def plan (failure : PlannedFailure) (w : World σ) : World σ :=
  { w with planned := w.planned ++ [failure] }

end World

end RiskRules
