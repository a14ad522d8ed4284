import RiskRules.Proofs.Session

/-!
Asking for a score, row by row. Where no call fails, recomputing ends in one of four ways
(`Lifecycle.Recomputation`), a score is stale or not by its own deadline or by the age that its
window allows (`Lifecycle.Stale`), and asking for a score gives one answer and has one effect in
each case: nothing, one score in front of the history, or one job at the end of the queue
(`Lifecycle.getActive_decided`).
-/

namespace RiskRules

namespace Lifecycle

open World

variable {c : LifecycleConfig} {policy : RefreshPolicy} {entity : EntityRef} {w : World Memory}

/-! ### Recomputing -/

/-- The ways in which recomputing a score ends if no call fails. -/
inductive Recomputation (c : LifecycleConfig) (entity : EntityRef) (w : World Memory) :
    Except LifecycleError Score × World Memory → Prop
  | noRuleset (uncommitted : Slots.get? entity.key w.store.committed = none) :
    Recomputation c entity w (.error (.noCommittedRuleset entity.key), w)
  | noData {ruleset : Ruleset} (committed : Slots.get? entity.key w.store.committed = some ruleset)
    (unknown : Slots.get? entity w.entities = none) :
    Recomputation c entity w (.error (.notFound entity), w)
  | noScore {ruleset : Ruleset} {env : Environment} {e : ScoringError}
    (committed : Slots.get? entity.key w.store.committed = some ruleset)
    (known : Slots.get? entity w.entities = some env)
    (failed : Scoring.execute c.registry env ruleset = .error e) :
    Recomputation c entity w (.error (.scoring e), { w with lookups := w.lookups + 1 })
  | added {ruleset : Ruleset} {env : Environment} {record : ScoringRecord} {score : Score}
    (committed : Slots.get? entity.key w.store.committed = some ruleset)
    (known : Slots.get? entity w.entities = some env)
    (executed : Scoring.execute c.registry env ruleset = .ok record)
    (made : score = ⟨w.ids w.drawn, entity, record.score, .ruleset, some ruleset.version, none,
      none, w.now, true⟩) :
    Recomputation c entity w (.ok score, { w with
      store := (Memory.insertScore score w.store).2
      lookups := w.lookups + 1
      drawn := w.drawn + 1 })

theorem requireRuleset_of_unfailing (unfailing : w.planned = []) :
    requireRuleset Memory.backend entity w = match Slots.get? entity.key w.store.committed with
      | some ruleset => (.ok ruleset, w)
      | none => (.error (.noCommittedRuleset entity.key), w) := by
  have read : (World.committed Memory.backend entity.key).restate LifecycleError.store w =
      (.ok (Slots.get? entity.key w.store.committed), w) :=
    Action.restate_eq_ok_iff.mpr (read_of_unplanned (take?_of_unfailing unfailing _))
  rw [requireRuleset, Action.bind_apply, read]
  cases Slots.get? entity.key w.store.committed <;> rfl

theorem addScore_of_unfailing (unfailing : w.planned = []) (make : String → Timestamp → Score) :
    ∃ score after, addScore make w = (.ok score, after) :=
  ⟨_, _, Action.restate_eq_ok_iff.mpr (call_of_unplanned (take?_of_unfailing unfailing _))⟩

/-- Where no call fails, recomputing ends in one of the ways described. -/
theorem recomputation (c : LifecycleConfig) (entity : EntityRef) (unfailing : w.planned = []) :
    Recomputation c entity w (refresh Memory.backend c entity w) := by
  rw [refresh, Action.bind_apply, requireRuleset_of_unfailing unfailing]
  cases committed : Slots.get? entity.key w.store.committed with
  | none => exact .noRuleset committed
  | some ruleset =>
    simp only
    rw [Action.bind_apply, Action.restate, environmentFor_of_unfailing unfailing]
    cases known : Slots.get? entity w.entities with
    | none => exact .noData committed known
    | some env =>
      simp only
      cases executed : Scoring.execute c.registry env ruleset with
      | error e => exact .noScore committed known executed
      | ok record =>
        obtain ⟨score, after, added⟩ := addScore_of_unfailing
          (w := { w with lookups := w.lookups + 1 }) unfailing fun id now =>
            ⟨id, entity, record.score, .ruleset, some ruleset.version, none, none, now, true⟩
        obtain ⟨made, rfl⟩ := eq_of_addScore (fun _ _ => rfl) added
        exact (congrArg (Recomputation c entity w) added).mpr
          (.added committed known executed made)

/-- A score has been computed and added for an entity, and nothing else has happened to the world
but that a lookup has been counted and an id drawn. -/
structure Added (entity : EntityRef) (score : Score) (w after : World Memory) : Prop where
  prepended : Memory.Prepended entity score w.store after.store
  rest : after = { w with
    store := after.store
    lookups := w.lookups + 1
    drawn := w.drawn + 1 }

/-- How many lookups a failed recomputation has made: one if it got as far as evaluating rules. -/
def lookupsOf : LifecycleError → Nat
  | .scoring _ => 1
  | _ => 0

/-- Where no call fails, recomputing adds one score, or changes nothing but the count of lookups. -/
theorem refresh_cases (c : LifecycleConfig) (entity : EntityRef) (unfailing : w.planned = []) :
    (∃ score after, refresh Memory.backend c entity w = (.ok score, after) ∧
      Added entity score w after) ∨
    ∃ e, refresh Memory.backend c entity w =
      (.error e, { w with lookups := w.lookups + lookupsOf e }) := by
  have outcome := recomputation c entity unfailing
  generalize refresh Memory.backend c entity w = result at outcome
  cases outcome with
  | noRuleset | noData | noScore => exact .inr ⟨_, rfl⟩
  | added committed known executed made =>
    subst made
    exact .inl ⟨_, _, rfl, Memory.prepended_insertScore rfl rfl, rfl⟩

/-! ### Staleness -/

/-- How long scores of an entity last: the cooldown of its committed ruleset, or the default if
there is none or it is zero. -/
def lifetime (c : LifecycleConfig) (m : Memory) (entity : EntityRef) : Duration :=
  (((Slots.get? entity.key m.committed).map Ruleset.cooldown).filter fun cooldown =>
    !cooldown.isZero).getD c.defaultRefresh

/-- A score is stale from its deadline on; a computed one without a deadline once it has outlived
the window that was asked for, or else its lifetime. -/
def Stale (c : LifecycleConfig) (policy : RefreshPolicy) (m : Memory) (now : Timestamp)
    (score : Score) : Prop :=
  (∃ deadline, score.staleAt = some deadline ∧ deadline.instant ≤ now.instant) ∨
    score.staleAt = none ∧ score.source = .ruleset ∧
      outlived score.createdAt now (policy.window.getD (lifetime c m score.entity)) = true

theorem rulesetWindow_of_unfailing (unfailing : w.planned = []) :
    rulesetWindow Memory.backend c entity w = (.ok (lifetime c w.store entity), w) := by
  have read : (World.committed Memory.backend entity.key).restate LifecycleError.store w =
      (.ok (Slots.get? entity.key w.store.committed), w) :=
    Action.restate_eq_ok_iff.mpr (read_of_unplanned (take?_of_unfailing unfailing _))
  rw [rulesetWindow, Action.bind_apply, read, lifetime]
  cases Slots.get? entity.key w.store.committed with
  | none => rfl
  | some ruleset =>
    cases zero : ruleset.cooldown.isZero <;> simp [zero, Option.filter, Action.pure_apply]

theorem windowFor_of_unfailing (unfailing : w.planned = []) :
    windowFor Memory.backend c policy entity w =
      (.ok (policy.window.getD (lifetime c w.store entity)), w) := by
  rw [windowFor]
  cases policy.window with
  | some window => rfl
  | none => exact rulesetWindow_of_unfailing unfailing

/-- Where no call fails, a score is judged to be stale exactly if it is, and nothing changes. -/
theorem isStale_of_unfailing (c : LifecycleConfig) (policy : RefreshPolicy) (now : Timestamp)
    (score : Score) (unfailing : w.planned = []) :
    ∃ stale, isStale Memory.backend c policy now score w = (.ok stale, w) ∧
      (stale = true ↔ Stale c policy w.store now score) := by
  rw [Stale]
  cases deadline : score.staleAt with
  | some _ => exact ⟨_, isStale_of_deadline deadline, by simp⟩
  | none =>
    cases source : score.source with
    | override => exact ⟨_, isStale_of_override deadline source, by simp⟩
    | ruleset =>
      refine ⟨outlived score.createdAt now (policy.window.getD (lifetime c w.store score.entity)), ?_,
        by simp⟩
      rw [isStale_of_computed deadline source, Action.map_apply, windowFor_of_unfailing unfailing]
      rfl

/-! ### Serving -/

/-- Where no call fails and there is no current score, one is computed. -/
theorem getActive_of_missing (unfailing : w.planned = [])
    (missing : w.store.currentScore entity = none) :
    getActive Memory.backend c policy entity w = refresh Memory.backend c entity w := by
  have read : (World.currentScore Memory.backend entity).restate LifecycleError.store w =
      (.ok none, w) :=
    Action.restate_eq_ok_iff.mpr (missing ▸ read_of_unplanned (take?_of_unfailing unfailing _))
  rw [getActive, Action.bind_apply, read]

/-- Where no call fails, a current score is given as it is unless it is stale. -/
theorem getActive_of_current (unfailing : w.planned = []) {current : Score}
    (held : w.store.currentScore entity = some current) :
    (¬Stale c policy w.store w.now current ∧
      getActive Memory.backend c policy entity w = (.ok current, w)) ∨
    Stale c policy w.store w.now current ∧ getActive Memory.backend c policy entity w =
      serveStale Memory.backend c policy entity current w := by
  have read : (World.currentScore Memory.backend entity).restate LifecycleError.store w =
      (.ok (some current), w) :=
    Action.restate_eq_ok_iff.mpr (held ▸ read_of_unplanned (take?_of_unfailing unfailing _))
  obtain ⟨stale, judged, stale_iff⟩ := isStale_of_unfailing c policy w.now current unfailing
  rw [← stale_iff, getActive, Action.bind_apply, read]
  simp only
  rw [Action.bind_apply, Action.view]
  simp only
  rw [Action.bind_apply, judged]
  cases stale with
  | false => exact .inl ⟨Bool.false_ne_true, rfl⟩
  | true => exact .inr ⟨rfl, rfl⟩

/-- A stale score that a job may recompute is served while the job waits. -/
theorem serveStale_queued {current : Score}
    (by_job : (policy.background && c.backgroundRefresh) = true) (taken : w.refusal = none) :
    serveStale Memory.backend c policy entity current w =
      (.ok current, { w with jobs := w.jobs ++ [.recomputeScore entity] }) := by
  rw [serveStale, if_pos by_job, Action.bind_apply, Action.restate, enqueue_of_taken _ taken]
  rfl

/-- A stale score that a job may recompute is not served if the queue refuses the job. -/
theorem serveStale_refused {current : Score} {text : String}
    (by_job : (policy.background && c.backgroundRefresh) = true) (full : w.refusal = some text) :
    serveStale Memory.backend c policy entity current w = (.error (.queue ⟨text⟩), w) := by
  rw [serveStale, if_pos by_job, Action.bind_apply, Action.restate, enqueue_of_refused _ full]

/-- A stale score that no job may recompute gives way to a new one, unless there is none. -/
theorem serveStale_at_once {current : Score}
    (at_once : (policy.background && c.backgroundRefresh) = false) :
    serveStale Memory.backend c policy entity current w =
      (match refresh Memory.backend c entity w with
      | (.ok score, after) => (.ok score, after)
      | (.error _, after) => (.ok current, after)) := by
  rw [serveStale, if_neg (by simp [at_once]), Action.bind_apply, Action.attempt]
  cases refresh Memory.backend c entity w with
  | mk result after => cases result <;> rfl

/-- The decision table of asking for a score: what it gives and the world after it. No two rows
hold together. -/
inductive Served (c : LifecycleConfig) (policy : RefreshPolicy) (entity : EntityRef)
    (w : World Memory) : Except LifecycleError Score → World Memory → Prop
  | computed {score : Score} {after : World Memory}
    (missing : w.store.currentScore entity = none)
    (ran : refresh Memory.backend c entity w = (.ok score, after))
    (added : Added entity score w after) : Served c policy entity w (.ok score) after
  | failed {e : LifecycleError} {after : World Memory}
    (missing : w.store.currentScore entity = none)
    (ran : refresh Memory.backend c entity w = (.error e, after))
    (unchanged : after = { w with lookups := w.lookups + lookupsOf e }) :
    Served c policy entity w (.error e) after
  | fresh {current : Score} (held : w.store.currentScore entity = some current)
    (fresh : ¬Stale c policy w.store w.now current) : Served c policy entity w (.ok current) w
  | queued {current : Score} (held : w.store.currentScore entity = some current)
    (stale : Stale c policy w.store w.now current)
    (by_job : (policy.background && c.backgroundRefresh) = true) (taken : w.refusal = none) :
    Served c policy entity w (.ok current) { w with jobs := w.jobs ++ [.recomputeScore entity] }
  | refused {current : Score} {text : String}
    (held : w.store.currentScore entity = some current)
    (stale : Stale c policy w.store w.now current)
    (by_job : (policy.background && c.backgroundRefresh) = true) (full : w.refusal = some text) :
    Served c policy entity w (.error (.queue ⟨text⟩)) w
  | renewed {current score : Score} {after : World Memory}
    (held : w.store.currentScore entity = some current)
    (stale : Stale c policy w.store w.now current)
    (at_once : (policy.background && c.backgroundRefresh) = false)
    (ran : refresh Memory.backend c entity w = (.ok score, after))
    (added : Added entity score w after) : Served c policy entity w (.ok score) after
  | outdated {current : Score} {e : LifecycleError} {after : World Memory}
    (held : w.store.currentScore entity = some current)
    (stale : Stale c policy w.store w.now current)
    (at_once : (policy.background && c.backgroundRefresh) = false)
    (ran : refresh Memory.backend c entity w = (.error e, after))
    (unchanged : after = { w with lookups := w.lookups + lookupsOf e }) :
    Served c policy entity w (.ok current) after

theorem served_of_missing (unfailing : w.planned = [])
    (missing : w.store.currentScore entity = none) :
    Served c policy entity w (getActive Memory.backend c policy entity w).1
      (getActive Memory.backend c policy entity w).2 := by
  rw [getActive_of_missing unfailing missing]
  rcases refresh_cases c entity unfailing with ⟨score, after, ran, added⟩ | ⟨e, ran⟩
  · rw [ran]
    exact .computed missing ran added
  · rw [ran]
    exact .failed missing ran rfl

theorem served_of_stale (unfailing : w.planned = []) {current : Score}
    (held : w.store.currentScore entity = some current)
    (stale : Stale c policy w.store w.now current) :
    Served c policy entity w (serveStale Memory.backend c policy entity current w).1
      (serveStale Memory.backend c policy entity current w).2 := by
  cases by_job : policy.background && c.backgroundRefresh with
  | true =>
    cases refusal : w.refusal with
    | none =>
      rw [serveStale_queued by_job refusal]
      exact .queued held stale by_job refusal
    | some text =>
      rw [serveStale_refused by_job refusal]
      exact .refused held stale by_job refusal
  | false =>
    rw [serveStale_at_once by_job]
    rcases refresh_cases c entity unfailing with ⟨score, after, ran, added⟩ | ⟨e, ran⟩
    · rw [ran]
      exact .renewed held stale by_job ran added
    · rw [ran]
      exact .outdated held stale by_job ran rfl

variable {r : Except LifecycleError Score} {after : World Memory}

/-- No row both queues a job and adds a score. -/
theorem Served.one_effect (served : Served c policy entity w r after) :
    after.jobs = w.jobs ∨ after.store = w.store := by
  cases served with
  | computed _ _ added | renewed _ _ _ _ added => exact .inl (added.rest ▸ rfl)
  | failed _ _ unchanged | outdated _ _ _ _ unchanged => exact .inl (unchanged ▸ rfl)
  | fresh | queued | refused => exact .inr rfl

/-- With a current score only the queue can fail. -/
theorem Served.answered (served : Served c policy entity w r after) {current : Score}
    (held : w.store.currentScore entity = some current)
    (at_once : (policy.background && c.backgroundRefresh) = false) : ∃ score, r = .ok score := by
  cases served with
  | failed missing => rw [missing] at held; cases held
  | refused _ _ by_job => rw [by_job] at at_once; cases at_once
  | computed | fresh | queued | renewed | outdated => exact ⟨_, rfl⟩

/-- **The decision table of asking for a score.** Where no call fails, and whatever the state of the
store, the queue, the data and the clock, asking for a score does what a row of the table says; it
never both queues a job and adds a score, and with a current score that no job may recompute it
never fails. -/
theorem getActive_decided (c : LifecycleConfig) (policy : RefreshPolicy) (entity : EntityRef)
    (unfailing : w.planned = [])
    (ran : getActive Memory.backend c policy entity w = (r, after)) :
    Served c policy entity w r after ∧ (after.jobs = w.jobs ∨ after.store = w.store) ∧
      ∀ current, w.store.currentScore entity = some current →
        (policy.background && c.backgroundRefresh) = false → ∃ score, r = .ok score := by
  have served : Served c policy entity w (getActive Memory.backend c policy entity w).1
      (getActive Memory.backend c policy entity w).2 := by
    cases held : w.store.currentScore entity with
    | none => exact served_of_missing unfailing held
    | some current =>
      rcases getActive_of_current (c := c) unfailing held
        with ⟨fresh, given⟩ | ⟨stale, given⟩
      · rw [given]
        exact .fresh held fresh
      · rw [given]
        exact served_of_stale unfailing held stale
  rw [ran] at served
  exact ⟨served, served.one_effect, fun current held at_once => served.answered held at_once⟩

end Lifecycle

namespace Session

/-! ### Failed computations -/

namespace Sample

/-- A request for a ruleset of one rule, that fails unless a field of the payload is known. -/
def payloadRequest : RulesetRequest :=
  { request with
    rules := [⟨some "flagged", "flagged", "", some (.make .scoreComputation none []
      [("condition", .make .payload none []
        [("fieldName", .make .constant (some (.string "flagged")) [] [])]),
        ("modifier", .make .constant (some (.int 20)) [] [])])⟩] }

/-- The ruleset is in use, and nothing is known of the entity but that it exists. -/
def unknownField : List Step :=
  [.create payloadRequest, .commit pair, .putEntity entity Facts.empty.toEnvironment]

/-- The entity has been scored when the field was known; now it is not, and the score is stale. -/
def forgottenField : List Step :=
  [.create payloadRequest, .commit pair,
    .putEntity entity (Facts.empty.withPayload "flagged" (.bool true)).toEnvironment,
    .getActive ⟨none, false⟩ entity, .advance 3601000000000,
    .putEntity entity Facts.empty.toEnvironment]

end Sample

/-- The stale score is served where it cannot be computed again, and only the lookup is counted. -/
theorem getActive_decided_forgotten : ∃ w current after,
    w = run Sample.settings Sample.forgottenField Sample.world ∧ w.planned = [] ∧
    w.store.currentScore Sample.entity = some current ∧
    Lifecycle.getActive Memory.backend Sample.settings.lifecycle ⟨none, false⟩ Sample.entity w
      = (.ok current, after) ∧
    Lifecycle.Served Sample.settings.lifecycle ⟨none, false⟩ Sample.entity w (.ok current) after ∧
    after.store = w.store ∧ after.jobs = w.jobs ∧ w.lookups = 1 ∧ after.lookups = 2 := by
  refine ⟨_, _, _, rfl, rfl, rfl, rfl, ?_, rfl, rfl, rfl, rfl⟩
  exact (Lifecycle.getActive_decided Sample.settings.lifecycle ⟨none, false⟩ Sample.entity
    (w := run Sample.settings Sample.forgottenField Sample.world) rfl rfl).1

/-- **A failed first computation that changes something.** Without a current score, asking for one
fails as the rule fails, and yet the world is another one: the lookup has been counted. -/
theorem failed_first_score_counted : ∃ w e after,
    w = run Sample.settings Sample.unknownField Sample.world ∧ w.planned = [] ∧
    w.store.currentScore Sample.entity = none ∧
    Lifecycle.getActive Memory.backend Sample.settings.lifecycle ⟨none, false⟩ Sample.entity w
      = (.error e, after) ∧ w.lookups = 0 ∧ after.lookups = 1 ∧ after ≠ w := by
  refine ⟨_, _, _, rfl, rfl, rfl, rfl, rfl, rfl, fun same => ?_⟩
  have counted : (1 : Nat) = 0 := congrArg World.lookups same
  cases counted

end Session

end RiskRules
