import RiskRules.Proofs.Serving

/-!
Asking for a score twice. What a request that no job may take over gives is a score just computed,
one that is not stale, or a stale one that cannot be recomputed. None of the three is other than it
was as long as nothing changes that the score of the entity depends on (`Lifecycle.Undisturbed`): a
score just computed has no age that a window could be shorter than, and recomputing fails again as
it has failed. So the same is given again, and nothing is written (`Lifecycle.Served.again`).
However many steps are taken that can change none of this, they do not disturb the score
(`Session.undisturbed_of_run`).
-/

namespace RiskRules

namespace Lifecycle

open World

variable {c : LifecycleConfig} {policy : RefreshPolicy} {entity : EntityRef}
  {w later after : World Memory} {score : Score}

/-! ### Worlds that an entity's score does not tell apart -/

/-- In the later world nothing has changed of what the score of an entity depends on: the clock, its
current score, its data, and the rulesets that are committed for it and for the holder of that
score, who is the entity itself wherever scores were added by requests. -/
structure Undisturbed (entity : EntityRef) (w later : World Memory) : Prop where
  now : later.now = w.now
  current : later.store.currentScore entity = w.store.currentScore entity
  data : Slots.get? entity later.entities = Slots.get? entity w.entities
  committed : Slots.get? entity.key later.store.committed =
    Slots.get? entity.key w.store.committed
  lasting : ∀ score, w.store.currentScore entity = some score →
    Slots.get? score.entity.key later.store.committed =
      Slots.get? score.entity.key w.store.committed

theorem Undisturbed.refl (entity : EntityRef) (w : World Memory) : Undisturbed entity w w :=
  ⟨rfl, rfl, rfl, rfl, fun _ _ => rfl⟩

/-- A current score is as stale in an undisturbed world as it was. -/
theorem Undisturbed.stale_iff (undisturbed : Undisturbed entity w later)
    (held : w.store.currentScore entity = some score) :
    Stale c policy later.store later.now score ↔ Stale c policy w.store w.now score := by
  rw [Stale, Stale, lifetime, lifetime, undisturbed.now, undisturbed.lasting score held]

/-- Why a score cannot be recomputed from the ruleset and the data that are there for an entity. -/
def refusal? (c : LifecycleConfig) (entity : EntityRef) :
    Option Ruleset → Option Environment → Option LifecycleError
  | none, _ => some (.noCommittedRuleset entity.key)
  | some _, none => some (.notFound entity)
  | some ruleset, some env =>
    match Scoring.execute c.registry env ruleset with
    | .ok _ => none
    | .error e => some (.scoring e)

/-- Where no call fails, whether recomputing fails depends on the ruleset and the data alone. -/
theorem refresh_fails_iff (unfailing : w.planned = []) {e : LifecycleError} :
    (refresh Memory.backend c entity w).1 = .error e ↔
      refusal? c entity (Slots.get? entity.key w.store.committed)
        (Slots.get? entity w.entities) = some e := by
  have outcome := recomputation c entity unfailing
  generalize refresh Memory.backend c entity w = result at outcome
  cases outcome with
  | noRuleset uncommitted => simp [refusal?, uncommitted]
  | noData committed unknown => simp [refusal?, committed, unknown]
  | noScore committed known failed => simp [refusal?, committed, known, failed]
  | added committed known executed => simp [refusal?, committed, known, executed]

/-- Recomputing that has failed fails in the same way in an undisturbed world. -/
theorem Undisturbed.refresh_fails (undisturbed : Undisturbed entity w later)
    (unfailing : w.planned = []) (still_unfailing : later.planned = []) {e : LifecycleError}
    (failed : (refresh Memory.backend c entity w).1 = .error e) :
    (refresh Memory.backend c entity later).1 = .error e := by
  rw [refresh_fails_iff unfailing] at failed
  rw [refresh_fails_iff still_unfailing, undisturbed.committed, undisturbed.data, failed]

/-! ### Scores that have just been computed -/

/-- A score that has been computed is the current one of its entity, and not stale as long as the
clock stands still, whatever the window. -/
theorem fresh_of_refresh (ran : refresh Memory.backend c entity w = (.ok score, after)) :
    after.store.currentScore entity = some score ∧
      ∀ policy m, ¬Stale c policy m after.now score := by
  obtain ⟨ruleset, env, record, -, -, -, rfl, rfl⟩ := eq_of_refresh ran
  refine ⟨?_, fun policy m => ?_⟩
  · rw [Memory.currentScore_of_inserted rfl rfl rfl, if_pos rfl]
  · simp [Stale, outlived]

/-! ### Asking again -/

theorem served_of_getActive (unfailing : w.planned = [])
    (ran : getActive Memory.backend c policy entity w = (.ok score, after)) :
    Served c policy entity w (.ok score) after := by
  cases held : w.store.currentScore entity with
  | none =>
    have served : Served c policy entity w _ _ := served_of_missing unfailing held
    rwa [ran] at served
  | some current =>
    rcases getActive_of_current (c := c) unfailing held with ⟨fresh, given⟩ | ⟨stale, given⟩
    · cases given.symm.trans ran
      exact .fresh held fresh
    · have served := served_of_stale unfailing held stale
      rwa [← given, ran] at served

theorem Served.unfailing (served : Served c policy entity w (.ok score) after)
    (unfailing : w.planned = []) : after.planned = [] := by
  cases served with
  | computed _ _ added | renewed _ _ _ _ added => rw [added.rest]; exact unfailing
  | outdated _ _ _ _ unchanged => rw [unchanged]; exact unfailing
  | fresh | queued => exact unfailing

/-- A current score that is not stale is given as it is. -/
theorem getActive_of_fresh (unfailing : w.planned = [])
    (held : w.store.currentScore entity = some score)
    (fresh : ¬Stale c policy w.store w.now score) :
    getActive Memory.backend c policy entity w = (.ok score, w) := by
  rcases getActive_of_current (c := c) unfailing held with ⟨-, given⟩ | ⟨stale, -⟩
  · exact given
  · exact absurd stale fresh

/-- A stale score that cannot be recomputed is given as it is. -/
theorem getActive_of_outdated (unfailing : w.planned = [])
    (at_once : (policy.background && c.backgroundRefresh) = false)
    (held : w.store.currentScore entity = some score)
    (stale : Stale c policy w.store w.now score) {e : LifecycleError}
    (failed : (refresh Memory.backend c entity w).1 = .error e) :
    getActive Memory.backend c policy entity w =
      (.ok score, { w with lookups := w.lookups + lookupsOf e }) := by
  rcases getActive_of_current (c := c) unfailing held with ⟨fresh, -⟩ | ⟨-, given⟩
  · exact absurd stale fresh
  · rw [given, serveStale_at_once at_once]
    rcases refresh_cases c entity unfailing with ⟨_, _, refreshed, -⟩ | ⟨e', failed'⟩
    · rw [refreshed] at failed
      cases failed
    · rw [failed'] at failed ⊢
      cases failed
      rfl

/-- What no job may recompute is given again in every undisturbed world, and nothing but the count
of lookups changes. -/
theorem Served.again (served : Served c policy entity w (.ok score) after)
    (unfailing : w.planned = []) (at_once : (policy.background && c.backgroundRefresh) = false)
    (still_unfailing : later.planned = []) (undisturbed : Undisturbed entity after later) :
    ∃ lookups, getActive Memory.backend c policy entity later =
      (.ok score, { later with lookups }) := by
  cases served with
  | computed _ ran | renewed _ _ _ ran =>
    obtain ⟨held, fresh⟩ := fresh_of_refresh ran
    rw [← undisturbed.current] at held
    rw [← undisturbed.now] at fresh
    exact ⟨later.lookups, getActive_of_fresh still_unfailing held (fresh policy _)⟩
  | fresh held fresh =>
    rw [← undisturbed.stale_iff held] at fresh
    rw [← undisturbed.current] at held
    exact ⟨later.lookups, getActive_of_fresh still_unfailing held fresh⟩
  | outdated held stale _ ran unchanged =>
    subst unchanged
    have undisturbed : Undisturbed entity w later :=
      ⟨undisturbed.now, undisturbed.current, undisturbed.data, undisturbed.committed,
        undisturbed.lasting⟩
    rw [← undisturbed.stale_iff held] at stale
    rw [← undisturbed.current] at held
    have fails_again :=
      undisturbed.refresh_fails unfailing still_unfailing (congrArg Prod.fst ran)
    exact ⟨_, getActive_of_outdated still_unfailing at_once held stale fails_again⟩
  | queued _ _ by_job =>
    rw [at_once] at by_job
    cases by_job

/-- **Asking again changes nothing.** In every state of a store in memory whose calls do not fail,
if a request that no job may take over gives a score, so does the same request right after it, and
also in any later world in which neither the clock, nor the committed ruleset, nor the data nor the
current score of the entity have changed. The second request leaves the world as it is, its store
and its queue with it, but for the count of lookups. -/
theorem getActive_idempotent (c : LifecycleConfig) (policy : RefreshPolicy) (entity : EntityRef)
    (unfailing : w.planned = []) (at_once : (policy.background && c.backgroundRefresh) = false)
    (ran : getActive Memory.backend c policy entity w = (.ok score, after)) :
    (∃ lookups, getActive Memory.backend c policy entity after =
      (.ok score, { after with lookups })) ∧
    ∀ later, later.planned = [] → Undisturbed entity after later →
      ∃ lookups, getActive Memory.backend c policy entity later =
        (.ok score, { later with lookups }) := by
  have served := served_of_getActive unfailing ran
  exact ⟨served.again unfailing at_once (served.unfailing unfailing) (.refl entity after),
    fun later => served.again unfailing at_once⟩

end Lifecycle

namespace Session

/-! ### Runs that do not disturb a score -/

section Runs

variable {c : Settings} {entity : EntityRef} {w : World Memory} {write : Write} {step : Step}

/-- The change bears on the clock, or on the committed ruleset, data or scores of an entity. -/
def Write.BearsOn (entity : EntityRef) : Write → Prop
  | .commitDraft key => key = entity.key
  | .insertScore score => score.entity = entity
  | .putEntity other _ => other = entity
  | .advance _ | .setClock _ => True
  | _ => False

/-- What the score of an entity depends on. -/
def circumstances (entity : EntityRef) (w : World Memory) :
    Timestamp × Option Score × Option Environment × Option Ruleset :=
  (w.now, w.store.currentScore entity, Slots.get? entity w.entities,
    Slots.get? entity.key w.store.committed)

theorem circumstances_apply (spared : ¬write.BearsOn entity) (w : World Memory) :
    circumstances entity (write.apply w) = circumstances entity w := by
  cases write with
  | replaceDraft ruleset =>
    rw [Write.apply, Memory.replaceDraft_eq]
    rfl
  | commitDraft key =>
    have different : entity.key ≠ key := fun same => spared same.symm
    have others : Slots.get? entity.key (Memory.commitDraft key w.store).2.committed =
        Slots.get? entity.key w.store.committed := by
      rw [Memory.commitDraft]
      split
      · rfl
      · rw [Slots.get?_put, if_neg different]
    rw [Write.apply, Memory.commitDraft_eq, circumstances, others]
    rfl
  | insertScore score =>
    have different : entity ≠ score.entity := fun same => spared same.symm
    have others : (Memory.insertScore score w.store).2.history entity = w.store.history entity := by
      rw [Memory.insertScore, Memory.history, Slots.get?_put, if_neg different, Memory.history]
    rw [Write.apply, circumstances, Memory.currentScore, others]
    rfl
  | markPending organization i =>
    rw [Write.apply, Memory.markPending_eq]
    rfl
  | putEntity other env =>
    have different : entity ≠ other := fun same => spared same.symm
    rw [Write.apply, circumstances, World.putEntity, Slots.get?_put, if_neg different]
    rfl
  | advance | setClock => exact absurd trivial spared
  | markReady | enqueue | takeJob | refuse => rfl

theorem circumstances_after (spared : ∀ write, step.Makes write → ¬write.BearsOn entity) :
    circumstances entity (step.after c w) = circumstances entity w :=
  after_keeps (fun _ _ _ _ _ => rfl) c (fun write made => circumstances_apply (spared write made)) w

theorem circumstances_run {steps : List Step}
    (spared : ∀ step ∈ steps, ∀ write, step.Makes write → ¬write.BearsOn entity) :
    circumstances entity (run c steps w) = circumstances entity w := by
  induction steps generalizing w with
  | nil => rfl
  | cons step rest ih =>
    obtain ⟨here, later⟩ := List.forall_mem_cons.mp spared
    exact (ih later).trans (circumstances_after here)

/-- Steps that can change neither the clock nor the committed ruleset, the data or the scores of an
entity leave its score undisturbed, however many they are. -/
theorem undisturbed_of_run {steps : List Step}
    (own : ∀ score, w.store.currentScore entity = some score → score.entity = entity)
    (spared : ∀ step ∈ steps, ∀ write, step.Makes write → ¬write.BearsOn entity) :
    Lifecycle.Undisturbed entity w (run c steps w) := by
  have same : circumstances entity (run c steps w) = circumstances entity w :=
    circumstances_run spared
  simp only [circumstances, Prod.mk.injEq] at same
  obtain ⟨now, current, data, committed⟩ := same
  refine ⟨now, current, data, committed, fun score held => ?_⟩
  rw [own score held, committed]

end Runs

namespace Sample

/-- A score was set by hand and has passed its deadline. -/
def expiredOverride : List Step :=
  [.create request, .commit pair, .putEntity entity Facts.empty.toEnvironment,
    .override "analyst" entity 1 (some .epoch)]

/-- Scores without a deadline may be of no age, and no job may recompute them. -/
def newest : RefreshPolicy :=
  ⟨some (.ofSeconds 0), false⟩

/-- A new draft, and the data of another entity. -/
def elsewhere : List Step :=
  [.create request, .putEntity { entity with entityId := "a-2" } Facts.empty.toEnvironment]

end Sample

/-- An empty window makes no score stale that has just been computed: the score that replaces one
set by hand is given again, also after what happens elsewhere. -/
theorem getActive_idempotent_expired : ∃ w score after,
    w = run Sample.settings Sample.expiredOverride Sample.world ∧ w.planned = [] ∧
    w.store.currentScore Sample.entity ≠ some score ∧
    Lifecycle.getActive Memory.backend Sample.settings.lifecycle Sample.newest Sample.entity w =
      (.ok score, after) ∧
    (∃ lookups, Lifecycle.getActive Memory.backend Sample.settings.lifecycle Sample.newest
      Sample.entity after = (.ok score, { after with lookups })) ∧
    ∃ later lookups, later = run Sample.settings Sample.elsewhere after ∧
      Lifecycle.getActive Memory.backend Sample.settings.lifecycle Sample.newest Sample.entity later =
        (.ok score, { later with lookups }) := by
  obtain ⟨w, score, after, made, unfailing, replaced, ran, own, still_unfailing⟩ :
      ∃ w score after, w = run Sample.settings Sample.expiredOverride Sample.world ∧
        w.planned = [] ∧ w.store.currentScore Sample.entity ≠ some score ∧
        Lifecycle.getActive Memory.backend Sample.settings.lifecycle Sample.newest Sample.entity w =
          (.ok score, after) ∧
        (∀ current, after.store.currentScore Sample.entity = some current →
          current.entity = Sample.entity) ∧
        (run Sample.settings Sample.elsewhere after).planned = [] := by
    refine ⟨_, _, _, rfl, rfl, ?_, rfl, fun current held => ?_, ?_⟩
    · decide
    · cases held
      rfl
    · rfl
  have spared : ∀ step ∈ Sample.elsewhere, ∀ write, step.Makes write →
      ¬write.BearsOn Sample.entity := by
    simp only [Sample.elsewhere, List.forall_mem_cons]
    refine ⟨fun write made => ?_, fun write made => ?_, List.forall_mem_nil _⟩
    · cases write <;> simp [Step.Makes, Write.BearsOn] at made ⊢
    · cases made
      simp [Write.BearsOn, Sample.entity]
  have undisturbed :
      Lifecycle.Undisturbed Sample.entity after (run Sample.settings Sample.elsewhere after) :=
    undisturbed_of_run own spared
  obtain ⟨again, later_too⟩ := Lifecycle.getActive_idempotent Sample.settings.lifecycle
    Sample.newest Sample.entity unfailing rfl ran
  obtain ⟨lookups, later⟩ := later_too _ still_unfailing undisturbed
  exact ⟨w, score, after, made, unfailing, replaced, ran, again, _, lookups, rfl, later⟩

end Session

end RiskRules
