import RiskRules.Proofs.Histories
import RiskRules.Proofs.Serving

/-!
Setting a score by hand, check by check. Where no call fails, the actor is looked at first, then the
entity, then its committed ruleset, and the score itself last; the first check that is not passed
decides the answer, and then nothing has changed (`Lifecycle.Overriding`). A request that passes all
of them makes a new current score, and that score is given until its deadline, or for good if it has
none, as long as the entity is not given another one (`Session.override_decided`).
-/

namespace RiskRules

/-! ### Scores in range -/

namespace Ruleset

/-- The scores that may be set by hand: from 1 to one more than there are thresholds. -/
def Allows (ruleset : Ruleset) (value : Int64) : Prop :=
  1 ≤ value.toInt ∧ value.toInt ≤ ruleset.thresholds.length + 1

instance (ruleset : Ruleset) (value : Int64) : Decidable (ruleset.Allows value) := by
  unfold Allows; infer_instance

theorem le_maxScore_iff (ruleset : Ruleset) (value : Int64) :
    value ≤ ruleset.maxScore ↔ value.toInt ≤ ruleset.thresholds.length + 1 := by
  have least_le := Signed64.least_le_toInt value
  have le_greatest := Signed64.toInt_le_greatest value
  have beyond_least : Signed64.least < 0 := by decide
  rw [Int64.le_iff_toInt_le, maxScore, maxScoreOf, Signed64.toInt_clamp]
  -- With more thresholds than words can count, every word is in range.
  split
  · omega
  · split <;> omega

theorem not_allows_iff (ruleset : Ruleset) (value : Int64) :
    ¬ruleset.Allows value ↔ value < 1 ∨ ruleset.maxScore < value := by
  rw [← Int64.not_le, ← Int64.not_le, le_maxScore_iff, Int64.le_iff_toInt_le]
  exact Classical.not_and_iff_not_or_not

end Ruleset

namespace Lifecycle

open World

variable {c : LifecycleConfig} {policy : RefreshPolicy} {actor : String} {entity : EntityRef}
  {value : Int64} {staleAt : Option Timestamp} {w : World Memory}

/-! ### The checks -/

/-- The decision table of setting a score by hand: what it gives, and the world after it. Each row
needs the checks before its own to be passed, so that no two rows hold together. -/
inductive Overriding (c : LifecycleConfig) (actor : String) (entity : EntityRef) (value : Int64)
    (staleAt : Option Timestamp) (w : World Memory) :
    Except LifecycleError Score × World Memory → Prop
  | forbidden (barred : actor ∉ c.allowed) :
    Overriding c actor entity value staleAt w (.error (.forbidden (.denied actor)), w)
  | notFound (allowed : actor ∈ c.allowed) (unknown : Slots.get? entity w.entities = none) :
    Overriding c actor entity value staleAt w (.error (.notFound entity), w)
  | noRuleset {env : Environment} (allowed : actor ∈ c.allowed)
    (known : Slots.get? entity w.entities = some env)
    (uncommitted : Slots.get? entity.key w.store.committed = none) :
    Overriding c actor entity value staleAt w (.error (.noCommittedRuleset entity.key), w)
  | outOfRange {env : Environment} {ruleset : Ruleset} (allowed : actor ∈ c.allowed)
    (known : Slots.get? entity w.entities = some env)
    (committed : Slots.get? entity.key w.store.committed = some ruleset)
    (outside : ¬ruleset.Allows value) :
    Overriding c actor entity value staleAt w (.error (.outOfRange value ruleset.maxScore), w)
  | set {env : Environment} {ruleset : Ruleset} {score : Score} (allowed : actor ∈ c.allowed)
    (known : Slots.get? entity w.entities = some env)
    (committed : Slots.get? entity.key w.store.committed = some ruleset)
    (inside : ruleset.Allows value)
    (made : score = ⟨w.ids w.drawn, entity, value, .override, some ruleset.version, some actor,
      staleAt, w.now, true⟩) :
    Overriding c actor entity value staleAt w (.ok score, { w with
      store := (Memory.insertScore score w.store).2
      drawn := w.drawn + 1 })

/-- Where no call fails, setting a score by hand ends as a row of the table says. -/
theorem overriding (c : LifecycleConfig) (actor : String) (entity : EntityRef) (value : Int64)
    (staleAt : Option Timestamp) (unfailing : w.planned = []) :
    Overriding c actor entity value staleAt w
      (override Memory.backend c actor entity value staleAt w) := by
  rw [override, Action.bind_apply, Action.restate, authorize_of_unfailing unfailing]
  by_cases allowed : actor ∈ c.allowed
  · rw [if_pos allowed]
    simp only
    rw [Action.bind_apply, Action.restate, entityExists_of_unfailing unfailing]
    cases known : Slots.get? entity w.entities with
    | none => exact .notFound allowed known
    | some env =>
      simp only [Option.isSome_some, Bool.not_true, Bool.false_eq_true, if_false]
      rw [Action.bind_apply, requireRuleset_of_unfailing unfailing]
      cases committed : Slots.get? entity.key w.store.committed with
      | none => exact .noRuleset allowed known committed
      | some ruleset =>
        simp only
        by_cases inside : ruleset.Allows value
        · have in_range := not_not_intro inside
          rw [ruleset.not_allows_iff] at in_range
          rw [if_neg in_range]
          obtain ⟨score, after, added⟩ := addScore_of_unfailing unfailing fun id now =>
            ⟨id, entity, value, .override, some ruleset.version, some actor, staleAt, now, true⟩
          obtain ⟨made, rfl⟩ := eq_of_addScore (fun _ _ => rfl) added
          exact (congrArg (Overriding c actor entity value staleAt w) added).mpr
            (.set allowed known committed inside made)
        · rw [if_pos ((ruleset.not_allows_iff value).mp inside)]
          exact .outOfRange allowed known committed inside
  · rw [if_neg allowed]
    exact .forbidden allowed

/-! ### Before the deadline -/

/-- A current score that was set by hand is given under every policy before its deadline, and at any
time if it has none; nothing changes. -/
theorem getActive_of_unexpired {score : Score} (current : w.store.currentScore entity = some score)
    (by_hand : score.source = .override)
    (unexpired : ∀ deadline, score.staleAt = some deadline → w.now.instant < deadline.instant)
    (unplanned : PlannedFailure.take? .currentScore w.planned = none) :
    getActive Memory.backend c policy entity w = (.ok score, w) := by
  cases until_then : score.staleAt with
  | none => exact getActive_of_kept current by_hand until_then unplanned
  | some deadline =>
    have early : ¬deadline.instant ≤ w.now.instant := Int.not_le.mpr (unexpired deadline until_then)
    refine getActive_of_lasting current unplanned ?_
    rw [isStale_of_deadline until_then, decide_eq_false early]

end Lifecycle

namespace Session

/-! ### Entities that are given no other score -/

section Runs

variable {c : Settings} {entity : EntityRef} {w : World Memory} {step : Step}

/-- The step puts a score in front of the history of an entity. -/
def adds (c : Settings) (entity : EntityRef) (step : Step) (w : World Memory) : Bool :=
  decide ((w.store.history entity).length < ((step.after c w).store.history entity).length)

/-- The step: where it puts no score in front of the history of an entity, the history stays. -/
theorem history_after (none_added : adds c entity step w = false) :
    (step.after c w).store.history entity = w.store.history entity := by
  rcases scores_after_cases c w step with same | ⟨score, admitted, added⟩
  · rw [Memory.history, Memory.history, same]
  · have prepended := Memory.prepended_insertScore (m := w.store) rfl admitted.1
    rw [← added] at prepended
    by_cases owned : entity = score.entity
    · subst owned
      rw [adds, prepended.history, List.length_cons, List.length_map] at none_added
      simp at none_added
    · exact prepended.others entity owned

theorem history_run {steps : List Step} (none_added : occurrences c (adds c entity) steps w = 0) :
    (run c steps w).store.history entity = w.store.history entity := by
  induction steps generalizing w with
  | nil => rfl
  | cons step rest ih =>
    obtain ⟨here, later⟩ := occurrences_cons_eq_zero_iff.mp none_added
    exact (ih later).trans (history_after here)

end Runs

/-! ### Requests to set a score by hand -/

/-- **Setting a score by hand.** In every state of a store in memory whose calls do not fail, it
succeeds exactly for an actor who may, an entity that has data, a pair with a committed ruleset and a
score from 1 to one more than the thresholds of that ruleset. Otherwise the answer is that of the
first of these that does not hold, in this order and whatever else does not, and the world is as it
was. The score that is set is the new current one, with the actor, the deadline, the version of the
ruleset and the time; and however many steps are taken that do not give the entity another score, it
is given under every policy at every time before its deadline, or at every time if it has none. -/
theorem override_decided (c : Settings) {w after : World Memory} (unfailing : w.planned = [])
    (actor : String) (entity : EntityRef) (value : Int64) (staleAt : Option Timestamp)
    {r : Except LifecycleError Score}
    (ran : Lifecycle.override Memory.backend c.lifecycle actor entity value staleAt w =
      (r, after)) :
    (r = .error (.forbidden (.denied actor)) ↔ actor ∉ c.lifecycle.allowed) ∧
    (r = .error (.notFound entity) ↔
      actor ∈ c.lifecycle.allowed ∧ Slots.get? entity w.entities = none) ∧
    (r = .error (.noCommittedRuleset entity.key) ↔
      actor ∈ c.lifecycle.allowed ∧ (Slots.get? entity w.entities).isSome ∧
        Slots.get? entity.key w.store.committed = none) ∧
    (∀ max, r = .error (.outOfRange value max) ↔
      actor ∈ c.lifecycle.allowed ∧ (Slots.get? entity w.entities).isSome ∧
        ∃ ruleset, Slots.get? entity.key w.store.committed = some ruleset ∧
          ¬ruleset.Allows value ∧ max = ruleset.maxScore) ∧
    ((∃ score, r = .ok score) ↔
      actor ∈ c.lifecycle.allowed ∧ (Slots.get? entity w.entities).isSome ∧
        ∃ ruleset, Slots.get? entity.key w.store.committed = some ruleset ∧
          ruleset.Allows value) ∧
    (∀ e, r = .error e → after = w) ∧
    ∀ score, r = .ok score →
      (∃ ruleset, Slots.get? entity.key w.store.committed = some ruleset ∧
        score = ⟨w.ids w.drawn, entity, value, .override, some ruleset.version, some actor, staleAt,
          w.now, true⟩) ∧
      after.store.currentScore entity = some score ∧
      ∀ steps, occurrences c (adds c entity) steps after = 0 →
        PlannedFailure.take? .currentScore (run c steps after).planned = none →
        (∀ deadline, staleAt = some deadline →
          (run c steps after).now.instant < deadline.instant) →
        ∀ policy, Lifecycle.getActive Memory.backend c.lifecycle policy entity (run c steps after) =
          (.ok score, run c steps after) := by
  have outcome := Lifecycle.overriding c.lifecycle actor entity value staleAt unfailing
  rw [ran] at outcome
  cases outcome with
  | forbidden barred => simp [barred]
  | notFound allowed unknown => simp [allowed, unknown]
  | noRuleset allowed known uncommitted => simp [allowed, known, uncommitted]
  | outOfRange allowed known committed outside =>
    simp [allowed, known, committed, outside, eq_comm]
  | @set _ _ score allowed known committed inside made =>
    have by_hand : score.SetByHand entity staleAt := by
      rw [made]
      exact ⟨rfl, rfl, rfl, rfl⟩
    have current := Memory.currentScore_of_inserted (m := w.store) by_hand.entity_eq
      by_hand.isCurrent rfl entity
    rw [if_pos rfl] at current
    refine ⟨by simp [allowed], by simp [known], by simp [committed], ?_, ?_, ?_, ?_⟩
    · simp [committed, inside]
    · simp [allowed, known, committed, inside]
    · intro e failed
      cases failed
    · rintro _ ⟨⟩
      refine ⟨⟨_, committed, made⟩, current, ?_⟩
      intro steps none_added unplanned early policy
      have same := history_run none_added
      apply Lifecycle.getActive_of_unexpired
      · rw [Memory.currentScore, same]
        exact current
      · exact by_hand.source
      · rw [by_hand.staleAt_eq]
        exact early
      · exact unplanned

namespace Sample

/-- An entity that can be scored. -/
def scorable : List Step :=
  [.create request, .commit pair, .putEntity entity Facts.empty.toEnvironment]

/-- An entity that is not known. -/
def stranger : EntityRef :=
  { entity with entityId := "a-2" }

/-- Ten minutes after the epoch. -/
def deadline : Timestamp :=
  Timestamp.epoch.advance (600 * Timestamp.second)

/-- A ruleset with more thresholds is committed, and the last second before the deadline begins. -/
def untilDeadline : List Step :=
  [.create { request with thresholds := [0, 5, 10] }, .commit pair,
    .advance (599 * Timestamp.second), .getActive ⟨some (.ofSeconds 0), false⟩ entity]

/-- A request to set a score by hand. -/
def setting (actor : String) (entity : EntityRef) (value : Int64) (staleAt : Option Timestamp) :
    Except LifecycleError Score × World Memory :=
  Lifecycle.override Memory.backend settings.lifecycle actor entity value staleAt
    (run settings scorable world)

end Sample

/-- An actor who may not learns nothing of an unknown entity; a score above the range is refused; and
one within it is given until the last second before its deadline, also by a request that no computed
score would satisfy. -/
theorem override_decided_before_deadline : ∃ score after,
    (Sample.setting "intruder" Sample.stranger 9 none).1 =
      .error (.forbidden (.denied "intruder")) ∧
    (Sample.setting "analyst" Sample.stranger 9 none).1 = .error (.notFound Sample.stranger) ∧
    (Sample.setting "analyst" Sample.entity 4 none).1 = .error (.outOfRange 4 3) ∧
    Sample.setting "analyst" Sample.entity 3 (some Sample.deadline) = (.ok score, after) ∧
    Lifecycle.getActive Memory.backend Sample.settings.lifecycle ⟨some (.ofSeconds 0), false⟩
      Sample.entity (run Sample.settings Sample.untilDeadline after) =
      (.ok score, run Sample.settings Sample.untilDeadline after) := by
  have barred := override_decided Sample.settings rfl "intruder" Sample.stranger 9 none
    (w := run Sample.settings Sample.scorable Sample.world) rfl
  have unknown := override_decided Sample.settings rfl "analyst" Sample.stranger 9 none
    (w := run Sample.settings Sample.scorable Sample.world) rfl
  have beyond := override_decided Sample.settings rfl "analyst" Sample.entity 4 none
    (w := run Sample.settings Sample.scorable Sample.world) rfl
  have set := override_decided Sample.settings rfl "analyst" Sample.entity 3 (some Sample.deadline)
    (w := run Sample.settings Sample.scorable Sample.world) rfl
  refine ⟨_, _, barred.1.mpr (by decide), unknown.2.1.mpr (by decide), ?_, rfl, ?_⟩
  · exact (beyond.2.2.2.1 3).mpr ⟨by decide, rfl, _, rfl, by decide, rfl⟩
  · obtain ⟨-, -, given⟩ := set.2.2.2.2.2.2 _ rfl
    exact given Sample.untilDeadline rfl rfl (by rintro _ ⟨⟩; decide) _

end Session

end RiskRules
