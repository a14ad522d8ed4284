import RiskRules.Proofs.Lifecycle
import RiskRules.Proofs.Workflow

/-!
Sessions: requests about rulesets and scores, workers, marks on indexes, changes of data, of the
clock and of what fails, in any order over one world with a store in memory. A step is an action on
the world whatever comes of it; `run` takes steps one after the other, and `occurrences` counts
those of a run that are events of a kind. A step keeps every part of the world that the changes it
can make keep (`Session.after_keeps`).
-/

namespace RiskRules.Session

/-! ### Steps -/

/-- How rulesets and scores are handled. -/
structure Settings where
  maxThresholds : Nat
  lifecycle : LifecycleConfig

/-- What can happen in a session. A worker takes the job at a position of the queue. -/
inductive Step where
  | create (request : RulesetRequest)
  | prepare (key : PairKey)
  | commit (key : PairKey)
  | get (key : PairKey) (status : RulesetStatus)
  | list (organization : String)
  | getActive (policy : RefreshPolicy) (entity : EntityRef)
  | refresh (entity : EntityRef)
  | override (actor : String) (entity : EntityRef) (score : Int64) (staleAt : Option Timestamp)
  | history (entity : EntityRef)
  | work (position : Nat)
  | markPending (organization : String) (indexes : List IndexSpec)
  | markReady (organization : String) (indexes : List IndexSpec)
  | putEntity (entity : EntityRef) (env : Environment)
  | advance (nanos : Int)
  | setClock (now : Timestamp)
  | plan (failure : PlannedFailure)
  | refuse (text : Option String)

/-- Takes the job at a position out of the queue. -/
def takeJob? (position : Nat) (w : World Memory) : Option (Job × World Memory) :=
  w.jobs[position]?.map fun job => (job, { w with jobs := w.jobs.eraseIdx position })

/-- The world after a step. -/
def Step.after (c : Settings) (w : World Memory) : Step → World Memory
  | .create request => (Workflow.create Memory.backend c.maxThresholds request w).2
  | .prepare key => (Workflow.prepare Memory.backend key w).2
  | .commit key => (Workflow.commit Memory.backend key w).2
  | .get key status => (Workflow.get Memory.backend key status w).2
  | .list organization => (Workflow.list Memory.backend organization w).2
  | .getActive policy entity =>
    (Lifecycle.getActive Memory.backend c.lifecycle policy entity w).2
  | .refresh entity => (Lifecycle.refresh Memory.backend c.lifecycle entity w).2
  | .override actor entity score staleAt =>
    (Lifecycle.override Memory.backend c.lifecycle actor entity score staleAt w).2
  | .history entity => (Lifecycle.history Memory.backend entity w).2
  | .work position =>
    match takeJob? position w with
    | none => w
    | some (job, w) => (Lifecycle.work Memory.backend c.lifecycle job w).2
  | .markPending organization indexes =>
    (World.markPending Memory.backend organization indexes w).2
  | .markReady organization indexes => (World.markReady Memory.backend organization indexes w).2
  | .putEntity entity env => w.putEntity entity env
  | .advance nanos => w.advance nanos
  | .setClock now => { w with now }
  | .plan failure => w.plan failure
  | .refuse text => { w with refusal := text }

/-! ### Runs -/

/-- The world after steps. -/
def run (c : Settings) : List Step → World Memory → World Memory
  | [], w => w
  | step :: rest, w => run c rest (step.after c w)

/-- How many steps of a run are events of a kind, each judged in the world that it is taken in. -/
def occurrences (c : Settings) (event : Step → World Memory → Bool) :
    List Step → World Memory → Nat
  | [], _ => 0
  | step :: rest, w => (event step w).toNat + occurrences c event rest (step.after c w)

theorem occurrences_cons_eq_zero_iff {c : Settings} {event : Step → World Memory → Bool}
    {step : Step} {rest : List Step} {w : World Memory} :
    occurrences c event (step :: rest) w = 0 ↔
      event step w = false ∧ occurrences c event rest (step.after c w) = 0 := by
  rw [occurrences, Nat.add_eq_zero_iff]
  cases event step w <;> simp

/-! ### Events -/

/-- The step commits a ruleset of a pair. -/
def commits (key : PairKey) : Step → World Memory → Bool
  | .commit k, w => decide (k = key) && (Workflow.commit Memory.backend k w).1.isOk
  | _, _ => false

/-- The step sets the score of an entity by hand. -/
def overrides (c : Settings) (entity : EntityRef) : Step → World Memory → Bool
  | .override actor e score staleAt, w => decide (e = entity) &&
      (Lifecycle.override Memory.backend c.lifecycle actor e score staleAt w).1.isOk
  | _, _ => false

/-- Recomputing a score succeeds, and it is the score of the entity. -/
def refreshes (c : Settings) (entity other : EntityRef) (w : World Memory) : Bool :=
  decide (other = entity) && (Lifecycle.refresh Memory.backend c.lifecycle other w).1.isOk

/-- The step recomputes the score of an entity whatever its current score is: at once, or as the job
that a worker takes. -/
def recomputes (c : Settings) (entity : EntityRef) : Step → World Memory → Bool
  | .refresh other, w => refreshes c entity other w
  | .work position, w =>
    match takeJob? position w with
    | some (.recomputeScore other, w) => refreshes c entity other w
    | _ => false
  | _, _ => false

/-! ### What steps leave alone -/

theorem takeJob?_keeps {position : Nat} {w rest : World Memory} {job : Job}
    (taken : takeJob? position w = some (job, rest)) : rest.store = w.store := by
  obtain ⟨_, _, same⟩ := Option.map_eq_some_iff.mp taken
  obtain ⟨-, rfl⟩ := Prod.mk.inj same
  rfl

/-- The changes of a world besides those that reading makes. -/
inductive Write where
  | replaceDraft (ruleset : Ruleset)
  | commitDraft (key : PairKey)
  | insertScore (score : Score)
  | markPending (organization : String) (index : IndexSpec)
  | markReady (organization : String) (index : IndexSpec)
  | enqueue (job : Job)
  | takeJob (position : Nat)
  | putEntity (entity : EntityRef) (env : Environment)
  | advance (nanos : Int)
  | setClock (now : Timestamp)
  | refuse (text : Option String)

/-- The world after a change. -/
def Write.apply (w : World Memory) : Write → World Memory
  | .replaceDraft ruleset => { w with store := (Memory.replaceDraft ruleset w.store).2 }
  | .commitDraft key => { w with store := (Memory.commitDraft key w.store).2 }
  | .insertScore score => { w with store := (Memory.insertScore score w.store).2 }
  | .markPending organization i => { w with store := Memory.markPending organization w.store i }
  | .markReady organization i => { w with store := Memory.markReady organization w.store i }
  | .enqueue job => { w with jobs := w.jobs ++ [job] }
  | .takeJob position => { w with jobs := w.jobs.eraseIdx position }
  | .putEntity entity env => w.putEntity entity env
  | .advance nanos => w.advance nanos
  | .setClock now => { w with now }
  | .refuse refusal => { w with refusal }

/-- The changes that a step can make. -/
def Step.Makes : Step → Write → Prop
  | .create request, .replaceDraft ruleset => ruleset.key = request.key
  | .prepare key, .enqueue job => ∃ indexes, job = .createIndexes key.organization indexes
  | .prepare key, .markPending organization _ => organization = key.organization
  | .commit key, .commitDraft other => other = key
  | .getActive _ entity, .enqueue job => job = .recomputeScore entity
  | .getActive _ entity, .insertScore score => score.entity = entity
  | .refresh entity, .insertScore score => score.entity = entity
  | .override _ entity _ _, .insertScore score => score.entity = entity
  | .work position, .takeJob taken => taken = position
  | .work _, .insertScore _ => True
  | .work _, .markReady _ _ => True
  | .markPending organization _, .markPending other _ => other = organization
  | .markReady organization _, .markReady other _ => other = organization
  | .putEntity entity env, write => write = .putEntity entity env
  | .advance nanos, write => write = .advance nanos
  | .setClock now, write => write = .setClock now
  | .refuse text, write => write = .refuse text
  | _, _ => False

/-- A step keeps what the changes that it can make keep. -/
theorem after_keeps {γ : Type} {part : World Memory → γ} (quiet : World.Quiet part) (c : Settings)
    {step : Step} (spared : ∀ write, step.Makes write → ∀ w, part (write.apply w) = part w)
    (w : World Memory) : part (step.after c w) = part w := by
  cases step with
  | create request =>
    exact Workflow.create_keeps quiet (fun w r same => spared (.replaceDraft r) same w) w
  | prepare key =>
    exact Workflow.prepare_keeps quiet (fun w indexes => spared (.enqueue _) ⟨indexes, rfl⟩ w)
      (fun w i => spared (.markPending _ i) rfl w) w
  | commit key => exact Workflow.commit_keeps quiet (spared (.commitDraft key) rfl) w
  | get key status => exact Workflow.get_keeps quiet w
  | list organization => exact Workflow.list_keeps quiet w
  | getActive policy entity =>
    exact Lifecycle.getActive_keeps quiet (fun w s same => spared (.insertScore s) same w)
      (spared (.enqueue _) rfl) w
  | refresh entity =>
    exact Lifecycle.refresh_keeps quiet (fun w s same => spared (.insertScore s) same w) w
  | override actor entity score staleAt =>
    exact Lifecycle.override_keeps quiet (fun w s same => spared (.insertScore s) same w) w
  | history entity => exact Lifecycle.history_keeps quiet w
  | work position =>
    rw [Step.after]
    split
    · rfl
    · rename_i job rest taken
      obtain ⟨_, _, same⟩ := Option.map_eq_some_iff.mp taken
      obtain ⟨-, rfl⟩ := Prod.mk.inj same
      refine Eq.trans ?_ (spared (.takeJob position) rfl w)
      cases job with
      | recomputeScore entity =>
        exact Lifecycle.work_recomputeScore_keeps quiet
          (fun w s _ => spared (.insertScore s) trivial w) _
      | createIndexes organization indexes =>
        exact Lifecycle.work_createIndexes_keeps quiet
          (fun w i => spared (.markReady organization i) trivial w) _
  | markPending organization indexes =>
    exact World.call_keeps quiet
      (World.foldl_marks (fun w i => spared (.markPending _ i) rfl w) indexes) w
  | markReady organization indexes =>
    exact World.call_keeps quiet
      (World.foldl_marks (fun w i => spared (.markReady _ i) rfl w) indexes) w
  | plan failure => exact quiet w _ w.shortAnswers w.drawn w.lookups
  | putEntity entity env => exact spared (.putEntity entity env) rfl w
  | advance nanos => exact spared (.advance nanos) rfl w
  | setClock now => exact spared (.setClock now) rfl w
  | refuse text => exact spared (.refuse text) rfl w

/-- The steps that can change rulesets. -/
def Step.writesRulesets : Step → Bool
  | .create _ | .commit _ => true
  | _ => false

/-- The steps that can change scores. -/
def Step.writesScores : Step → Bool
  | .getActive _ _ | .refresh _ | .override _ _ _ _ | .work _ => true
  | _ => false

/-- The steps that can change index states. -/
def Step.writesIndexes : Step → Bool
  | .prepare _ | .work _ | .markPending _ _ | .markReady _ _ => true
  | _ => false

/-- The steps that can change the queue. -/
def Step.writesJobs : Step → Bool
  | .prepare _ | .getActive _ _ | .work _ => true
  | _ => false

theorem after_rulesets (c : Settings) (w : World Memory) {step : Step}
    (reads : step.writesRulesets = false) :
    (step.after c w).store.rulesets = w.store.rulesets := by
  refine after_keeps (World.quiet_of_store Memory.rulesets) c (fun write made w => ?_) w
  cases write with
  | replaceDraft | commitDraft => cases step <;> simp_all [Step.Makes, Step.writesRulesets]
  | markPending organization i =>
    rw [Write.apply, Memory.markPending_eq]
    rfl
  | _ => rfl

theorem after_scores (c : Settings) (w : World Memory) {step : Step}
    (reads : step.writesScores = false) : (step.after c w).store.scores = w.store.scores := by
  refine after_keeps (World.quiet_of_store Memory.scores) c (fun write made w => ?_) w
  cases write with
  | insertScore => cases step <;> simp_all [Step.Makes, Step.writesScores]
  | replaceDraft ruleset => rw [Write.apply, Memory.replaceDraft_eq]
  | commitDraft key => rw [Write.apply, Memory.commitDraft_eq]
  | markPending organization i => rw [Write.apply, Memory.markPending_eq]
  | _ => rfl

theorem after_indexes (c : Settings) (w : World Memory) {step : Step}
    (reads : step.writesIndexes = false) :
    (step.after c w).store.indexes = w.store.indexes := by
  refine after_keeps (World.quiet_of_store Memory.indexes) c (fun write made w => ?_) w
  cases write with
  | markPending | markReady => cases step <;> simp_all [Step.Makes, Step.writesIndexes]
  | replaceDraft ruleset => rw [Write.apply, Memory.replaceDraft_eq]
  | commitDraft key => rw [Write.apply, Memory.commitDraft_eq]
  | _ => rfl

theorem after_jobs (c : Settings) (w : World Memory) {step : Step}
    (reads : step.writesJobs = false) : (step.after c w).jobs = w.jobs := by
  refine after_keeps World.quiet_jobs c (fun write made w => ?_) w
  cases write with
  | enqueue | takeJob => cases step <;> simp_all [Step.Makes, Step.writesJobs]
  | _ => rfl

/-! ### A small session -/

namespace Sample

/-- The pair of the session. -/
def pair : PairKey :=
  ⟨"acme", "account"⟩

/-- An entity of the pair. -/
def entity : EntityRef :=
  ⟨"acme", "account", "a-1"⟩

/-- A rule that always triggers. -/
def body : Node :=
  .make .scoreComputation none [] [("condition", .make .constant (some (.bool true)) [] []),
    ("modifier", .make .constant (some (.int 20)) [] [])]

/-- A request for a ruleset of that rule alone, with an id to be drawn. -/
def request : RulesetRequest :=
  ⟨pair, "first", [0, 10], .ofSeconds 0, [⟨none, "large", "", some body⟩]⟩

/-- Scores that last an hour and that one actor may override. -/
def settings : Settings :=
  ⟨32, ⟨.standard, ["analyst"], .ofSeconds 3600, true⟩⟩

/-- A world with an empty store. -/
def world : World Memory :=
  .fresh .empty .epoch fun n => "id-" ++ toString n

end Sample

end RiskRules.Session
