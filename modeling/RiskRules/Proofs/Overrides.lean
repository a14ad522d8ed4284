import RiskRules.Proofs.Session

/-!
How long a score that was set by hand without a deadline stays. Asking for it leaves it in place
under every policy and at every time, and so does everything else but setting the score by hand
again and recomputing it outright, as a worker does whose job was queued while an earlier score was
stale. So it is given until then exactly when no recomputation has succeeded
(`Session.override_given_iff`), and a queued one does replace it
(`Session.override_lost_to_queued_job`).
-/

namespace RiskRules.Session

variable {c : Settings} {w : World Memory} {entity : EntityRef}

/-! ### One step -/

/-- Recomputing a score makes the computed one current where it is that of the entity, and leaves
the entity's current score alone otherwise. -/
theorem currentScore_refresh_cases (other : EntityRef) (w : World Memory) :
    (refreshes c entity other w = false ∧
      (Lifecycle.refresh Memory.backend c.lifecycle other w).2.store.currentScore entity =
        w.store.currentScore entity) ∨
    refreshes c entity other w = true ∧ ∃ s, s.Computed entity ∧
      (Lifecycle.refresh Memory.backend c.lifecycle other w).2.store.currentScore entity =
        some s := by
  rw [refreshes]
  cases ran : Lifecycle.refresh Memory.backend c.lifecycle other w with
  | mk r after =>
    cases r with
    | ok s =>
      obtain ⟨computed, added⟩ := Lifecycle.store_of_refresh ran
      have current := Memory.currentScore_of_inserted computed.entity_eq computed.isCurrent added
      by_cases asked : other = entity
      · subst asked
        exact .inr ⟨by simp, s, computed, (current other).trans (if_pos rfl)⟩
      · exact .inl ⟨by simp [asked], (current entity).trans (if_neg asked)⟩
    | error e => exact .inl ⟨by simp, by rw [Lifecycle.refresh_atomic ran]⟩

/-- What a step does to the current score of an entity that it does not set by hand: nothing, or it
computes a new one, either outright or because it was asked for. -/
theorem currentScore_after_cases (step : Step) (not_set : overrides c entity step w = false) :
    (recomputes c entity step w = false ∧
      (step.after c w).store.currentScore entity = w.store.currentScore entity) ∨
    (recomputes c entity step w = true ∨ ∃ policy, step = .getActive policy entity) ∧
      ∃ s, s.Computed entity ∧ (step.after c w).store.currentScore entity = some s := by
  cases step with
  | refresh other => exact (currentScore_refresh_cases other w).imp_right (And.imp_left .inl)
  | work position =>
    simp only [recomputes, Step.after]
    cases taken : takeJob? position w with
    | none => exact .inl ⟨rfl, rfl⟩
    | some job =>
      obtain ⟨job, rest⟩ := job
      rw [← takeJob?_keeps taken]
      cases job with
      | recomputeScore other =>
        simp only [Lifecycle.work_recomputeScore_snd]
        exact (currentScore_refresh_cases other rest).imp_right (And.imp_left .inl)
      | createIndexes organization indexes =>
        refine .inl ⟨rfl, Memory.currentScore_of_scores ?_ entity⟩
        exact Lifecycle.work_createIndexes_keeps (World.quiet_of_store Memory.scores)
          (fun _ _ => rfl) rest
  | getActive policy other =>
    cases ran : Lifecycle.getActive Memory.backend c.lifecycle policy other w with
    | mk r after =>
      rw [Step.after, ran]
      cases r with
      | ok s =>
        rcases Lifecycle.store_of_getActive ran with ⟨computed, added⟩ | ⟨-, kept⟩
        · have current :=
            Memory.currentScore_of_inserted computed.entity_eq computed.isCurrent added
          by_cases asked : other = entity
          · subst asked
            exact .inr ⟨.inr ⟨policy, rfl⟩, s, computed, (current other).trans (if_pos rfl)⟩
          · exact .inl ⟨rfl, (current entity).trans (if_neg asked)⟩
        · exact .inl ⟨rfl, by rw [kept]⟩
      | error e => exact .inl ⟨rfl, by rw [Lifecycle.getActive_atomic ran]⟩
  | override actor other value staleAt =>
    cases ran : Lifecycle.override Memory.backend c.lifecycle actor other value staleAt w with
    | mk r after =>
      rw [Step.after, ran]
      cases r with
      | ok s =>
        obtain ⟨set, added⟩ := Lifecycle.store_of_override ran
        have current := Memory.currentScore_of_inserted set.entity_eq set.isCurrent added entity
        have different : other ≠ entity := by
          rintro rfl
          simp [overrides, ran] at not_set
        exact .inl ⟨rfl, current.trans (if_neg different)⟩
      | error e => exact .inl ⟨rfl, by rw [Lifecycle.override_atomic ran]⟩
  | _ => exact .inl ⟨rfl, Memory.currentScore_of_scores (after_scores c w rfl) entity⟩

/-! ### Runs -/

section Runs

variable {kept : Score} {step : Step}

/-- The step: a score set by hand without a deadline stays current unless the step sets another or
recomputes it outright. -/
theorem kept_after (current : w.store.currentScore entity = some kept)
    (by_hand : kept.source = .override) (no_deadline : kept.staleAt = none)
    (not_set : overrides c entity step w = false)
    (not_recomputed : recomputes c entity step w = false) :
    (step.after c w).store.currentScore entity = some kept := by
  rcases currentScore_after_cases step not_set with ⟨-, same⟩ | ⟨recomputed | ⟨policy, rfl⟩, -⟩
  · rw [same, current]
  · exact absurd recomputed (Bool.eq_false_iff.mp not_recomputed)
  · rw [Step.after, Lifecycle.getActive_keeps_kept current by_hand no_deadline, current]

/-- The step: a computed score stays current or gives way to a computed one, unless the step sets
one by hand; after recomputing the current score is a computed one whatever it was. -/
theorem computed_after
    (computed : recomputes c entity step w = true ∨
      ∃ s, s.Computed entity ∧ w.store.currentScore entity = some s)
    (not_set : overrides c entity step w = false) :
    ∃ s, s.Computed entity ∧ (step.after c w).store.currentScore entity = some s := by
  rcases currentScore_after_cases step not_set with ⟨not_recomputed, same⟩ | ⟨-, now_computed⟩
  · rcases computed with recomputed | ⟨s, computed, current⟩
    · exact absurd recomputed (Bool.eq_false_iff.mp not_recomputed)
    · exact ⟨s, computed, same.trans current⟩
  · exact now_computed

theorem kept_run (current : w.store.currentScore entity = some kept)
    (by_hand : kept.source = .override) (no_deadline : kept.staleAt = none) {steps : List Step}
    (none_set : occurrences c (overrides c entity) steps w = 0)
    (none_recomputed : occurrences c (recomputes c entity) steps w = 0) :
    (run c steps w).store.currentScore entity = some kept := by
  induction steps generalizing w with
  | nil => exact current
  | cons step rest ih =>
    obtain ⟨not_set, none_set⟩ := occurrences_cons_eq_zero_iff.mp none_set
    obtain ⟨not_recomputed, none_recomputed⟩ := occurrences_cons_eq_zero_iff.mp none_recomputed
    exact ih (kept_after current by_hand no_deadline not_set not_recomputed) none_set
      none_recomputed

theorem computed_run {steps : List Step}
    (computed : occurrences c (recomputes c entity) steps w ≠ 0 ∨
      ∃ s, s.Computed entity ∧ w.store.currentScore entity = some s)
    (none_set : occurrences c (overrides c entity) steps w = 0) :
    ∃ s, s.Computed entity ∧ (run c steps w).store.currentScore entity = some s := by
  induction steps generalizing w with
  | nil => exact computed.resolve_left fun some_recomputed => some_recomputed rfl
  | cons step rest ih =>
    obtain ⟨not_set, none_set⟩ := occurrences_cons_eq_zero_iff.mp none_set
    refine ih ?_ none_set
    rcases computed with some_recomputed | computed
    · by_cases now : recomputes c entity step w = true
      · exact .inr (computed_after (.inl now) not_set)
      · refine .inl fun none_later => some_recomputed ?_
        exact occurrences_cons_eq_zero_iff.mpr ⟨Bool.eq_false_iff.mpr now, none_later⟩
    · exact .inr (computed_after (.inr computed) not_set)

end Runs

/-- **How long an override lasts.** Once a score has been set by hand without a deadline, and until
the score of the entity is set by hand again, asking for the score under any policy gives that very
score exactly when no recomputation of it has succeeded since. -/
theorem override_given_iff (c : Settings) {w after : World Memory} {actor : String}
    {entity : EntityRef} {value : Int64} {kept : Score}
    (set : Lifecycle.override Memory.backend c.lifecycle actor entity value none w =
      (.ok kept, after))
    (steps : List Step) (none_set : occurrences c (overrides c entity) steps after = 0)
    (policy : RefreshPolicy)
    (readable : PlannedFailure.take? .currentScore (run c steps after).planned = none) :
    (Lifecycle.getActive Memory.backend c.lifecycle policy entity (run c steps after)).1 =
      .ok kept ↔ occurrences c (recomputes c entity) steps after = 0 := by
  obtain ⟨by_hand, added⟩ := Lifecycle.store_of_override set
  have current : after.store.currentScore entity = some kept :=
    (Memory.currentScore_of_inserted by_hand.entity_eq by_hand.isCurrent added entity).trans
      (if_pos rfl)
  constructor
  · intro still_given
    by_contra some_recomputed
    obtain ⟨s, computed, now_current⟩ := computed_run (.inl some_recomputed) none_set
    cases ran :
      Lifecycle.getActive Memory.backend c.lifecycle policy entity (run c steps after) with
    | mk r last =>
      rw [ran] at still_given
      obtain rfl : r = .ok kept := still_given
      have from_ruleset : kept.source = .ruleset := by
        rcases Lifecycle.store_of_getActive ran with ⟨recomputed, -⟩ | ⟨found, -⟩
        · exact recomputed.source
        · rw [← Option.some.inj (now_current.symm.trans found)]
          exact computed.source
      rw [by_hand.source] at from_ruleset
      cases from_ruleset
  · intro none_recomputed
    have still := kept_run current by_hand.source by_hand.staleAt_eq none_set none_recomputed
    rw [Lifecycle.getActive_of_kept still by_hand.source by_hand.staleAt_eq readable]

/-- An entity is scored, and its score is asked for again once it is stale, so that a job is queued
that will recompute it. -/
def Sample.staleRead : List Step :=
  [.create Sample.request, .commit Sample.pair,
    .putEntity Sample.entity Facts.empty.toEnvironment, .getActive ⟨none, true⟩ Sample.entity,
    .advance 3601000000000, .getActive ⟨none, true⟩ Sample.entity]

/-- An analyst sets the score by hand while the job is queued. -/
def Sample.overridden : Except LifecycleError Score × World Memory :=
  Lifecycle.override Memory.backend Sample.settings.lifecycle "analyst" Sample.entity 1 none
    (run Sample.settings Sample.staleRead Sample.world)

/-- The override is given after a year in which nobody takes the job, and is not once it has been
taken. -/
theorem override_given_iff_untaken : ∃ kept after, Sample.overridden = (.ok kept, after) ∧
    (Lifecycle.getActive Memory.backend Sample.settings.lifecycle ⟨none, true⟩ Sample.entity
      (run Sample.settings [.advance 31536000000000000, .getActive ⟨none, false⟩ Sample.entity]
        after)).1 = .ok kept ∧
    (Lifecycle.getActive Memory.backend Sample.settings.lifecycle ⟨none, true⟩ Sample.entity
      (run Sample.settings [.advance 31536000000000000, .work 0] after)).1 ≠ .ok kept := by
  have set : Sample.overridden = (.ok _, _) := rfl
  refine ⟨_, _, set, ?_, ?_⟩
  · exact (override_given_iff Sample.settings set _ rfl _ rfl).mpr rfl
  · exact (override_given_iff Sample.settings set _ rfl _ rfl).not.mpr (by decide)

/-- **An override lost to a queued job.** The job that was queued while the score was stale is taken
after the score has been set by hand: the score given from then on is that of the job. -/
theorem override_lost_to_queued_job : ∃ kept after served,
    (run Sample.settings Sample.staleRead Sample.world).jobs = [.recomputeScore Sample.entity] ∧
    Sample.overridden = (.ok kept, after) ∧
    occurrences Sample.settings (overrides Sample.settings Sample.entity) [.work 0] after = 0 ∧
    (Lifecycle.getActive Memory.backend Sample.settings.lifecycle ⟨none, true⟩ Sample.entity
      (run Sample.settings [.work 0] after)).1 = .ok served ∧
    kept.score = 1 ∧ kept.source = .override ∧ kept.staleAt = none ∧
    served.score = 3 ∧ served.source = .ruleset ∧ served ≠ kept := by
  refine ⟨_, _, _, rfl, rfl, rfl, rfl, rfl, rfl, rfl, rfl, rfl, ?_⟩
  decide

end RiskRules.Session
