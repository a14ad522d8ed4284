import RiskRules.Lifecycle
import RiskRules.Proofs.Calls
import RiskRules.Proofs.Staleness

/-!
What the requests about scores do to a store in memory. Recomputing and overriding put one score in
front of an entity's history, and what they have read decides which (`Lifecycle.eq_of_refresh`,
`Lifecycle.eq_of_override`); asking for a score recomputes it or gives the current one
(`Lifecycle.refresh_of_getActive`); when they fail they have changed nothing in the store. A current
score that was set by hand without a deadline is given as it is (`Lifecycle.getActive_of_kept`).
-/

namespace RiskRules

/-! ### Kinds of scores -/

/-- A score computed from a ruleset: without a deadline, and the current one. -/
structure Score.Computed (entity : EntityRef) (s : Score) : Prop where
  entity_eq : s.entity = entity
  source : s.source = .ruleset
  staleAt : s.staleAt = none
  isCurrent : s.isCurrent = true

/-- A score set by hand: with the deadline that was asked for, and the current one. -/
structure Score.SetByHand (entity : EntityRef) (staleAt : Option Timestamp) (s : Score) : Prop where
  entity_eq : s.entity = entity
  source : s.source = .override
  staleAt_eq : s.staleAt = staleAt
  isCurrent : s.isCurrent = true

namespace Lifecycle

open World

variable {γ : Type} {c : LifecycleConfig} {policy : RefreshPolicy} {entity : EntityRef}
  {w after : World Memory} {part : World Memory → γ}

/-! ### Computing -/

theorem requireRuleset_keeps (quiet : Quiet part) :
    (requireRuleset Memory.backend entity).Keeps part := by
  refine (read_keeps quiet).restate.bind fun ruleset => ?_
  cases ruleset with
  | none => exact Action.keeps_fail _
  | some ruleset => exact Action.keeps_pure _

theorem eq_of_requireRuleset {ruleset : Ruleset}
    (ran : requireRuleset Memory.backend entity w = (.ok ruleset, after)) :
    Slots.get? entity.key w.store.committed = some ruleset ∧ after = w := by
  obtain ⟨found, w₁, read, given⟩ := Action.bind_eq_ok_iff.mp ran
  obtain ⟨held, rfl⟩ := eq_of_read (Action.restate_eq_ok_iff.mp read)
  cases found with
  | none => cases given
  | some found =>
    cases given
    exact ⟨held.symm, rfl⟩

/-- The end of a request that adds a score, made from a drawn id and the time of the clock. -/
def addScore (make : String → Timestamp → Score) : Action (World Memory) LifecycleError Score := do
  let id ← World.drawId
  let now ← Action.view World.now
  (World.insertScore Memory.backend (make id now)).restate LifecycleError.store

theorem addScore_atomic {make : String → Timestamp → Score} : (addScore make).Atomic World.store :=
  (drawId_keeps quiet_store).bind_atomic fun _ => (Action.keeps_view _ _).bind_atomic fun _ =>
    insertScore_atomic.restate

theorem addScore_keeps (quiet : Quiet part) {make : String → Timestamp → Score}
    (owned : ∀ id now, (make id now).entity = entity)
    (inserts : ∀ w score, score.entity = entity →
      part { w with store := (Memory.insertScore score w.store).2 } = part w) :
    (addScore make).Keeps part :=
  (drawId_keeps quiet).bind fun id => (Action.keeps_view _ _).bind fun now =>
    (call_keeps quiet fun w => inserts w _ (owned id now)).restate

theorem eq_of_addScore {make : String → Timestamp → Score} {score : Score}
    (current : ∀ id now, (make id now).isCurrent = true)
    (ran : addScore make w = (.ok score, after)) :
    score = make (w.ids w.drawn) w.now ∧ after = { w with
      store := (Memory.insertScore score w.store).2
      drawn := w.drawn + 1 } := by
  -- Neither drawing an id nor reading the clock fails or touches the store.
  have insertion : (World.insertScore Memory.backend (make (w.ids w.drawn) w.now)).restate
      LifecycleError.store { w with drawn := w.drawn + 1 } = (.ok score, after) := ran
  obtain ⟨given, added⟩ := eq_of_insertScore (Action.restate_eq_ok_iff.mp insertion)
  have as_made : score = make (w.ids w.drawn) w.now := by
    rw [given, ← current (w.ids w.drawn) w.now]
  rw [← as_made] at added
  exact ⟨as_made, added⟩

/-- Recomputing that fails leaves the store alone. -/
theorem refresh_atomic : (refresh Memory.backend c entity).Atomic World.store :=
  (requireRuleset_keeps quiet_store).bind_atomic fun _ =>
    (environmentFor_keeps quiet_store entity).restate.bind_atomic fun _ =>
      (Action.keeps_ofExcept _ _ _).bind_atomic fun _ => addScore_atomic

/-- Recomputing keeps what a score of the entity keeps. -/
theorem refresh_keeps (quiet : Quiet part)
    (inserts : ∀ w score, score.entity = entity →
      part { w with store := (Memory.insertScore score w.store).2 } = part w) :
    (refresh Memory.backend c entity).Keeps part :=
  (requireRuleset_keeps quiet).bind fun _ => (environmentFor_keeps quiet entity).restate.bind
    fun _ => (Action.keeps_ofExcept _ _ _).bind fun _ => addScore_keeps quiet (fun _ _ => rfl) inserts

/-- **What recomputing has done.** It has looked up the data of the entity, evaluated the committed
ruleset on them, and put what that came to in front of the entity's history. -/
theorem eq_of_refresh {score : Score}
    (ran : refresh Memory.backend c entity w = (.ok score, after)) :
    ∃ ruleset env record, Slots.get? entity.key w.store.committed = some ruleset ∧
      Slots.get? entity w.entities = some env ∧
      Scoring.execute c.registry env ruleset = .ok record ∧
      score = ⟨w.ids w.drawn, entity, record.score, .ruleset, some ruleset.version, none, none,
        w.now, true⟩ ∧
      after = { w with
        store := (Memory.insertScore score w.store).2
        lookups := w.lookups + 1
        drawn := w.drawn + 1 } := by
  obtain ⟨ruleset, w₁, required, ran⟩ := Action.bind_eq_ok_iff.mp ran
  obtain ⟨env, w₂, looked_up, ran⟩ := Action.bind_eq_ok_iff.mp ran
  obtain ⟨record, w₃, scored, ran⟩ := Action.bind_eq_ok_iff.mp ran
  obtain ⟨committed, rfl⟩ := eq_of_requireRuleset required
  obtain ⟨known, rfl⟩ := eq_of_environmentFor (Action.restate_eq_ok_iff.mp looked_up)
  obtain ⟨executed, rfl⟩ := Action.ofExcept_eq_ok_iff.mp scored
  obtain ⟨given, rfl⟩ := eq_of_addScore (fun _ _ => rfl) ran
  exact ⟨ruleset, env, record, committed, known, executed, given, rfl⟩

/-- **What recomputing does.** It puts a score from the ruleset in front of the entity's history. -/
theorem store_of_refresh {score : Score}
    (ran : refresh Memory.backend c entity w = (.ok score, after)) :
    score.Computed entity ∧ after.store = (Memory.insertScore score w.store).2 := by
  obtain ⟨ruleset, env, record, -, -, -, rfl, rfl⟩ := eq_of_refresh ran
  exact ⟨⟨rfl, rfl, rfl, rfl⟩, rfl⟩

/-! ### Overriding -/

section Overriding

variable {actor : String} {value : Int64} {staleAt : Option Timestamp}

/-- Overriding that fails leaves the store alone. -/
theorem override_atomic :
    (override Memory.backend c actor entity value staleAt).Atomic World.store := by
  refine (authorize_keeps quiet_store c.allowed actor).restate.bind_atomic fun _ => ?_
  refine (entityExists_keeps quiet_store entity).restate.bind_atomic fun known => ?_
  split
  · exact (Action.keeps_fail _).atomic
  · refine (requireRuleset_keeps quiet_store).bind_atomic fun ruleset => ?_
    split
    · exact (Action.keeps_fail _).atomic
    · exact addScore_atomic

/-- Overriding keeps what a score of the entity keeps. -/
theorem override_keeps (quiet : Quiet part)
    (inserts : ∀ w score, score.entity = entity →
      part { w with store := (Memory.insertScore score w.store).2 } = part w) :
    (override Memory.backend c actor entity value staleAt).Keeps part := by
  refine (authorize_keeps quiet c.allowed actor).restate.bind fun _ => ?_
  refine (entityExists_keeps quiet entity).restate.bind fun known => ?_
  split
  · exact Action.keeps_fail _
  · refine (requireRuleset_keeps quiet).bind fun ruleset => ?_
    split
    · exact Action.keeps_fail _
    · exact addScore_keeps quiet (fun _ _ => rfl) inserts

/-- **What overriding has done.** An actor who may has put a score that the committed ruleset can
give in front of the history of a known entity. -/
theorem eq_of_override {score : Score}
    (ran : override Memory.backend c actor entity value staleAt w = (.ok score, after)) :
    actor ∈ c.allowed ∧ (Slots.get? entity w.entities).isSome ∧
      ∃ ruleset, Slots.get? entity.key w.store.committed = some ruleset ∧
        1 ≤ value ∧ value ≤ ruleset.maxScore ∧
        score = ⟨w.ids w.drawn, entity, value, .override, some ruleset.version, some actor, staleAt,
          w.now, true⟩ ∧
        after = { w with
          store := (Memory.insertScore score w.store).2
          drawn := w.drawn + 1 } := by
  obtain ⟨_, w₁, authorized, asking⟩ := Action.bind_eq_ok_iff.mp ran
  obtain ⟨known, w₂, asked, adding⟩ := Action.bind_eq_ok_iff.mp asking
  obtain ⟨allowed, rfl⟩ := eq_of_authorize (Action.restate_eq_ok_iff.mp authorized)
  obtain ⟨found, rfl⟩ := eq_of_entityExists (Action.restate_eq_ok_iff.mp asked)
  split at adding
  · cases adding
  · rename_i has_data
    obtain ⟨ruleset, w₃, required, setting⟩ := Action.bind_eq_ok_iff.mp adding
    obtain ⟨committed, rfl⟩ := eq_of_requireRuleset required
    split at setting
    · cases setting
    · rename_i in_range
      obtain ⟨low, high⟩ := not_or.mp in_range
      obtain ⟨given, rfl⟩ := eq_of_addScore (fun _ _ => rfl) setting
      refine ⟨allowed, ?_, ruleset, committed, Int64.not_lt.mp low, Int64.not_lt.mp high, given, rfl⟩
      rw [← found]
      simpa using has_data

/-- **What overriding does.** It puts the score set by hand in front of the entity's history. -/
theorem store_of_override {score : Score}
    (ran : override Memory.backend c actor entity value staleAt w = (.ok score, after)) :
    score.SetByHand entity staleAt ∧ after.store = (Memory.insertScore score w.store).2 := by
  obtain ⟨-, -, ruleset, -, -, -, rfl, rfl⟩ := eq_of_override ran
  exact ⟨⟨rfl, rfl, rfl, rfl⟩, rfl⟩

end Overriding

/-! ### Serving -/

theorem isStale_keeps (quiet : Quiet part) {now : Timestamp} {score : Score} :
    (isStale Memory.backend c policy now score).Keeps part := by
  unfold isStale
  split
  · exact Action.keeps_give _
  · split
    · exact Action.keeps_give _
    · split
      · exact Action.keeps_give _
      · refine Action.Keeps.bind ?_ fun _ => Action.keeps_pure _
        refine (read_keeps quiet).restate.bind fun ruleset => ?_
        cases ruleset <;> exact Action.keeps_pure _

/-- Serving a stale score that fails leaves the store alone. -/
theorem serveStale_atomic {current : Score} :
    (serveStale Memory.backend c policy entity current).Atomic World.store := by
  unfold serveStale
  split
  · exact ((enqueue_keeps fun _ => rfl).restate.bind fun _ => Action.keeps_pure _).atomic
  · intro w e after ran
    rcases Action.bind_cases ran with ⟨attempted, w₁, -, ran⟩ | ⟨_, tried, -⟩
    · cases attempted <;> cases ran
    · obtain ⟨_, -, failed⟩ := Action.attempt_cases tried
      cases failed

/-- Serving a stale score keeps what a job for the entity and a score of it keep. -/
theorem serveStale_keeps (quiet : Quiet part) {current : Score}
    (inserts : ∀ w score, score.entity = entity →
      part { w with store := (Memory.insertScore score w.store).2 } = part w)
    (queues : ∀ w, part { w with jobs := w.jobs ++ [.recomputeScore entity] } = part w) :
    (serveStale Memory.backend c policy entity current).Keeps part := by
  unfold serveStale
  split
  · exact (enqueue_keeps queues).restate.bind fun _ => Action.keeps_pure _
  · refine Action.Keeps.bind (refresh_keeps quiet inserts) fun attempted => ?_
    cases attempted <;> exact Action.keeps_pure _

/-- Serving a stale score queues a job for its entity or no job. -/
theorem jobs_of_serveStale {current : Score} {r : Except LifecycleError Score}
    (ran : serveStale Memory.backend c policy entity current w = (r, after)) :
    after.jobs = w.jobs ∨ after.jobs = w.jobs ++ [.recomputeScore entity] := by
  unfold serveStale at ran
  split at ran
  · rw [Action.bind_apply, Action.restate] at ran
    cases refusal : w.refusal with
    | none =>
      rw [enqueue_of_taken _ refusal] at ran
      cases ran
      exact .inr rfl
    | some text =>
      rw [enqueue_of_refused _ refusal] at ran
      cases ran
      exact .inl rfl
  · have keeps : (refresh Memory.backend c entity).attempt.Keeps World.jobs :=
      refresh_keeps quiet_jobs fun _ _ _ => rfl
    refine .inl ((keeps.bind fun attempted => ?_).after ran)
    cases attempted <;> exact Action.keeps_pure _

/-- A stale score is served as it is, or a recomputed one in its place. -/
theorem refresh_of_serveStale {current score : Score}
    (ran : serveStale Memory.backend c policy entity current w = (.ok score, after)) :
    refresh Memory.backend c entity w = (.ok score, after) ∨
      score = current ∧ after.store = w.store := by
  unfold serveStale at ran
  split at ran
  · obtain ⟨_, w₁, queued, ran⟩ := Action.bind_eq_ok_iff.mp ran
    cases ran
    exact .inr ⟨rfl, (enqueue_keeps fun _ => rfl).restate.after queued⟩
  · obtain ⟨attempted, w₁, tried, ran⟩ := Action.bind_eq_ok_iff.mp ran
    obtain ⟨result, refreshed, same⟩ := Action.attempt_cases tried
    obtain rfl := Except.ok.inj same
    cases attempted with
    | ok computed =>
      cases ran
      exact .inl refreshed
    | error e =>
      cases ran
      exact .inr ⟨rfl, refresh_atomic refreshed⟩

/-- Asking for a score that fails leaves the store alone. -/
theorem getActive_atomic : (getActive Memory.backend c policy entity).Atomic World.store := by
  refine (read_keeps quiet_store).restate.bind_atomic fun found => ?_
  cases found with
  | none => exact refresh_atomic
  | some current =>
    refine (Action.keeps_view _ _).bind_atomic fun now => ?_
    refine (isStale_keeps quiet_store).bind_atomic fun stale => ?_
    split
    · exact serveStale_atomic
    · exact (Action.keeps_pure _).atomic

/-- Asking for a score keeps what a job for the entity and a score of it keep. -/
theorem getActive_keeps (quiet : Quiet part)
    (inserts : ∀ w score, score.entity = entity →
      part { w with store := (Memory.insertScore score w.store).2 } = part w)
    (queues : ∀ w, part { w with jobs := w.jobs ++ [.recomputeScore entity] } = part w) :
    (getActive Memory.backend c policy entity).Keeps part := by
  refine (read_keeps quiet).restate.bind fun found => ?_
  cases found with
  | none => exact refresh_keeps quiet inserts
  | some current =>
    refine (Action.keeps_view _ _).bind fun now => (isStale_keeps quiet).bind fun stale => ?_
    split
    · exact serveStale_keeps quiet inserts queues
    · exact Action.keeps_pure _

/-- Asking for a score queues a job for its entity or no job. -/
theorem jobs_of_getActive {r : Except LifecycleError Score}
    (ran : getActive Memory.backend c policy entity w = (r, after)) :
    after.jobs = w.jobs ∨ after.jobs = w.jobs ++ [.recomputeScore entity] := by
  rcases Action.bind_cases ran with ⟨found, w₁, read, asking⟩ | ⟨_, failed, -⟩
  · rw [← (read_keeps quiet_jobs).restate.after read]
    cases found with
    | none => exact .inl ((refresh_keeps quiet_jobs fun _ _ _ => rfl).after asking)
    | some current =>
      rcases Action.bind_cases asking with ⟨now, w₂, viewed, judging⟩ | ⟨_, viewed, -⟩
      · cases viewed
        rcases Action.bind_cases judging with ⟨stale, w₃, judged, serving⟩ | ⟨_, failed, -⟩
        · rw [← (isStale_keeps quiet_jobs).after judged]
          split at serving
          · exact jobs_of_serveStale serving
          · cases serving
            exact .inl rfl
        · exact .inl ((isStale_keeps quiet_jobs).after failed)
      · cases viewed
  · exact .inl ((read_keeps quiet_jobs).restate.after failed)

/-- Asking for a score recomputes it in a world with the same store, or gives the current one and
leaves the store alone. -/
theorem refresh_of_getActive {score : Score}
    (ran : getActive Memory.backend c policy entity w = (.ok score, after)) :
    (∃ w₁, w₁.store = w.store ∧ refresh Memory.backend c entity w₁ = (.ok score, after)) ∨
      w.store.currentScore entity = some score ∧ after.store = w.store := by
  obtain ⟨found, w₁, read, ran⟩ := Action.bind_eq_ok_iff.mp ran
  obtain ⟨rfl, rfl⟩ := eq_of_read (Action.restate_eq_ok_iff.mp read)
  cases held : w₁.store.currentScore entity with
  | none =>
    rw [held] at ran
    exact .inl ⟨w₁, rfl, ran⟩
  | some current =>
    rw [held] at ran
    obtain ⟨now, w₂, viewed, ran⟩ := Action.bind_eq_ok_iff.mp ran
    obtain ⟨stale, w₃, judged, ran⟩ := Action.bind_eq_ok_iff.mp ran
    rw [← (Action.keeps_view World.store _).after viewed,
      ← (isStale_keeps quiet_store).after judged]
    split at ran
    · rcases refresh_of_serveStale ran with refreshed | ⟨rfl, kept⟩
      · exact .inl ⟨w₃, rfl, refreshed⟩
      · exact .inr ⟨rfl, kept⟩
    · cases ran
      exact .inr ⟨rfl, rfl⟩

/-- **What asking for a score does.** It puts a score from the ruleset in front of the entity's
history and gives it, or leaves the store alone and gives the current score. -/
theorem store_of_getActive {score : Score}
    (ran : getActive Memory.backend c policy entity w = (.ok score, after)) :
    (score.Computed entity ∧ after.store = (Memory.insertScore score w.store).2) ∨
      w.store.currentScore entity = some score ∧ after.store = w.store := by
  refine (refresh_of_getActive ran).imp_left ?_
  rintro ⟨w₁, same, refreshed⟩
  rw [← same]
  exact store_of_refresh refreshed

/-- A current score that is judged not to be stale is given as it is, and nothing changes. -/
theorem getActive_of_lasting {current : Score} (held : w.store.currentScore entity = some current)
    (unplanned : PlannedFailure.take? .currentScore w.planned = none)
    (lasting : isStale Memory.backend c policy w.now current w = (.ok false, w)) :
    getActive Memory.backend c policy entity w = (.ok current, w) := by
  have read : (World.currentScore Memory.backend entity).restate LifecycleError.store w =
      (.ok (some current), w) :=
    Action.restate_eq_ok_iff.mpr (held ▸ read_of_unplanned unplanned)
  rw [getActive, Action.bind_apply, read]
  simp only
  rw [Action.bind_apply, Action.view]
  simp only
  rw [Action.bind_apply, lasting]
  rfl

/-- A current score that was set by hand without a deadline is given as it is under every policy,
and nothing changes. -/
theorem getActive_of_kept {kept : Score} (current : w.store.currentScore entity = some kept)
    (by_hand : kept.source = .override) (no_deadline : kept.staleAt = none)
    (unplanned : PlannedFailure.take? .currentScore w.planned = none) :
    getActive Memory.backend c policy entity w = (.ok kept, w) :=
  getActive_of_lasting current unplanned (isStale_of_override no_deadline by_hand)

/-- Asking for a score that was set by hand without a deadline adds none, also when it fails. -/
theorem getActive_keeps_kept {kept : Score} (current : w.store.currentScore entity = some kept)
    (by_hand : kept.source = .override) (no_deadline : kept.staleAt = none) :
    (getActive Memory.backend c policy entity w).2.store = w.store := by
  cases taken : PlannedFailure.take? .currentScore w.planned with
  | none => rw [getActive_of_kept current by_hand no_deadline taken]
  | some planned =>
    have failed : World.currentScore Memory.backend entity w =
        (.error planned.1, { w with planned := planned.2 }) := by
      rw [World.currentScore, call, taken]
    rw [getActive, Action.bind_apply, Action.restate, failed]

/-! ### Jobs -/

/-- A worker that recomputes a score does what recomputing it does. -/
theorem work_recomputeScore_snd :
    (work Memory.backend c (.recomputeScore entity) w).2 =
      (refresh Memory.backend c entity w).2 :=
  Action.snd_bind_pure _ _ _

/-- A worker that creates indexes marks them as ready. -/
theorem work_createIndexes_snd {organization : String} {indexes : List IndexSpec} :
    (work Memory.backend c (.createIndexes organization indexes) w).2 =
      (World.markReady Memory.backend organization indexes w).2 :=
  (Action.snd_bind_pure _ _ _).trans (Action.snd_restate _ _ _)

theorem work_recomputeScore_keeps (quiet : Quiet part)
    (inserts : ∀ w score, score.entity = entity →
      part { w with store := (Memory.insertScore score w.store).2 } = part w) :
    (work Memory.backend c (.recomputeScore entity)).Keeps part :=
  (refresh_keeps quiet inserts).bind fun _ => Action.keeps_pure _

/-- Creating indexes keeps what marks of their organization keep. -/
theorem work_createIndexes_keeps (quiet : Quiet part) {organization : String}
    (marks : ∀ w i, part { w with store := Memory.markReady organization w.store i } = part w)
    {indexes : List IndexSpec} :
    (work Memory.backend c (.createIndexes organization indexes)).Keeps part :=
  Action.Keeps.bind (call_keeps quiet (foldl_marks marks indexes)).restate fun _ =>
    Action.keeps_pure _

/-! ### Reading -/

theorem history_keeps (quiet : Quiet part) : (history Memory.backend entity).Keeps part :=
  (read_keeps quiet).restate

end Lifecycle

end RiskRules
