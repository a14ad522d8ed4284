import RiskRules.Proofs.PendingIndexes
import RiskRules.Proofs.Tenants

/-!
What a preparation is worth. Whether the draft of a pair may be committed is a question about the
store alone (`Memory.readyDraft`). Where no call fails and the queue takes jobs, preparing and
committing both answer it (`Workflow.prepare_of_calm`, `Workflow.commit_of_calm`). No step turns a
ready index back, and only creating and committing touch the draft of a pair, so a yes stays a yes
until the draft is replaced or committed (`Session.readyDraft_run`).
-/

namespace RiskRules

/-! ### Drafts that may be committed -/

namespace Memory

variable {m : Memory} {key : PairKey} {draft : Ruleset}

/-- The indexes that a ruleset needs and that are not ready for an organization. -/
def blockingIndexes (m : Memory) (organization : String) (r : Ruleset) : List IndexSpec :=
  r.requiredIndexes.filter fun i => decide (m.indexState organization i ≠ .ready)

/-- The draft of a pair, or why it may not be committed. -/
def readyDraft (m : Memory) (key : PairKey) : Except WorkflowError Ruleset :=
  match Slots.get? key m.drafts with
  | none => .error (.noDraft key)
  | some draft =>
    if m.blockingIndexes key.organization draft = [] then .ok draft
    else .error (.notReady (m.blockingIndexes key.organization draft))

theorem readyDraft_of_none (none : Slots.get? key m.drafts = none) :
    m.readyDraft key = .error (.noDraft key) := by
  rw [readyDraft, none]

theorem readyDraft_of_blocked (held : Slots.get? key m.drafts = some draft)
    (blocked : m.blockingIndexes key.organization draft ≠ []) :
    m.readyDraft key = .error (.notReady (m.blockingIndexes key.organization draft)) := by
  rw [readyDraft, held]
  exact if_neg blocked

theorem readyDraft_eq_ok_iff : m.readyDraft key = .ok draft ↔
    Slots.get? key m.drafts = some draft ∧ m.blockingIndexes key.organization draft = [] := by
  rw [readyDraft]
  split
  · rename_i none
    simp [none]
  · rename_i found held
    rw [held]
    split
    · rename_i nothing
      constructor
      · intro given
        obtain rfl := Except.ok.inj given
        exact ⟨rfl, nothing⟩
      · rintro ⟨same, -⟩
        rw [Option.some.inj same]
    · rename_i blocked
      constructor
      · intro given
        cases given
      · rintro ⟨same, nothing⟩
        rw [Option.some.inj same] at blocked
        exact absurd nothing blocked

theorem readyDraft_eq_noDraft_iff :
    m.readyDraft key = .error (.noDraft key) ↔ Slots.get? key m.drafts = none := by
  refine ⟨fun failed => ?_, readyDraft_of_none⟩
  cases held : Slots.get? key m.drafts with
  | none => rfl
  | some draft =>
    rw [readyDraft, held] at failed
    simp only at failed
    split at failed <;> cases failed

theorem blockingIndexes_eq_nil_iff {organization : String} {r : Ruleset} :
    m.blockingIndexes organization r = [] ↔
      ∀ i ∈ r.requiredIndexes, m.indexState organization i = .ready := by
  simp [blockingIndexes, List.filter_eq_nil_iff]

/-- The draft of a pair is one of the rulesets. -/
theorem draft_of_rulesets {m' : Memory} (same : m'.rulesets = m.rulesets) (key : PairKey) :
    Slots.get? key m'.drafts = Slots.get? key m.drafts :=
  congrArg (fun slots => Slots.get? key slots.1) same

/-- The indexes in the way of a draft are named in ascending order. -/
theorem ascending_blockingIndexes (organization : String) (r : Ruleset) :
    IndexSpec.Ascending (m.blockingIndexes organization r) :=
  r.ascending_requiredIndexes.filter _

end Memory

/-! ### Preparing and committing -/

namespace Workflow

variable {w : World Memory} {key : PairKey}

theorem requireDraft_of_unfailing (unfailing : w.planned = []) :
    requireDraft Memory.backend key w = match Slots.get? key w.store.drafts with
      | some draft => (.ok draft, w)
      | none => (.error (.noDraft key), w) := by
  have read : (World.draft Memory.backend key).restate WorkflowError.store w =
      (.ok (Slots.get? key w.store.drafts), w) :=
    Action.restate_eq_ok_iff.mpr
      (World.read_of_unplanned (World.take?_of_unfailing unfailing _))
  rw [requireDraft, Action.bind_apply, read]
  cases Slots.get? key w.store.drafts <;> rfl

/-- The indexes among those that are not ready, without their states. -/
theorem map_fst_notReady (state : IndexSpec → IndexState) (required : List IndexSpec) :
    ((required.map fun i => (i, state i)).filter fun entry => entry.2 != .ready).map Prod.fst
      = required.filter fun i => decide (state i ≠ .ready) := by
  rw [List.filter_map, List.map_map]
  simp [Function.comp_def, bne, BEq.beq]

/-- Where no call fails and no answer is short, what blocks a ruleset is found. -/
theorem notReady_of_calm (calm : w.Calm) (organization : String) (r : Ruleset) :
    ∃ entries, notReady Memory.backend organization r.requiredIndexes w = (.ok entries, w) ∧
      entries.map Prod.fst = w.store.blockingIndexes organization r := by
  suffices answered : ∃ entries,
      notReady Memory.backend organization r.requiredIndexes w = (.ok entries, w) by
    obtain ⟨entries, ran⟩ := answered
    refine ⟨entries, ran, ?_⟩
    rw [eq_of_notReady ran]
    exact map_fst_notReady _ _
  rw [notReady]
  split
  · exact ⟨_, rfl⟩
  · have called : World.call .indexStates
        (Memory.backend.indexStates organization r.requiredIndexes) w
          = (.ok (r.requiredIndexes.map (w.store.indexState organization)), w) :=
      World.read_of_unplanned (calm.unplanned _)
    have read : (World.indexStates Memory.backend organization r.requiredIndexes).restate
        WorkflowError.store w
          = (.ok (r.requiredIndexes.map (w.store.indexState organization)), w) := by
      refine Action.restate_eq_ok_iff.mpr ?_
      rw [World.indexStates, called]
      exact if_pos calm.2.1
    rw [Action.bind_apply, read]
    simp only [List.length_map, ne_eq, not_true_eq_false, if_false]
    exact ⟨_, rfl⟩

/-- Where no call fails and the queue takes jobs, indexes can be asked for. -/
theorem requestIndexes_of_calm (calm : w.Calm) (accepting : w.refusal = none)
    (organization : String) (missing : List IndexSpec) :
    ∃ after, requestIndexes Memory.backend organization missing w = (.ok (), after) := by
  rw [requestIndexes]
  split
  · exact ⟨w, rfl⟩
  · have queued : (World.enqueue (.createIndexes organization missing)).restate
        WorkflowError.queue w = (.ok (), _) :=
      Action.restate_eq_ok_iff.mpr (World.enqueue_of_taken _ accepting)
    rw [Action.bind_apply, queued]
    exact ⟨_, Action.restate_eq_ok_iff.mpr (World.call_of_unplanned (calm.unplanned _))⟩

/-- **What preparing says.** A report about the draft if it may be committed, and else why not. -/
theorem prepare_of_calm (calm : w.Calm) (accepting : w.refusal = none) (key : PairKey) :
    (prepare Memory.backend key w).1 =
      (fun draft => ⟨key, draft.version, draft.requiredIndexes⟩) <$> w.store.readyDraft key := by
  rw [prepare, Action.bind_apply, requireDraft_of_unfailing calm.1, Memory.readyDraft]
  cases Slots.get? key w.store.drafts with
  | none => rfl
  | some draft =>
    obtain ⟨entries, checked, blocking⟩ := notReady_of_calm calm key.organization draft
    obtain ⟨after, asked⟩ := requestIndexes_of_calm calm accepting key.organization
      ((entries.filter fun entry => entry.2 == .missing).map Prod.fst)
    simp only [Action.bind_apply, checked, asked, ← blocking]
    cases entries <;> rfl

/-- **What committing says.** The draft as it is committed, or why it may not be. -/
theorem commit_of_calm (calm : w.Calm) (key : PairKey) :
    (commit Memory.backend key w).1 =
      (fun draft => { draft with status := .committed }) <$> w.store.readyDraft key := by
  rw [commit, Action.bind_apply, requireDraft_of_unfailing calm.1, Memory.readyDraft]
  cases held : Slots.get? key w.store.drafts with
  | none => rfl
  | some draft =>
    obtain ⟨entries, checked, blocking⟩ := notReady_of_calm calm key.organization draft
    simp only [Action.bind_apply, checked, ← blocking]
    cases entries with
    | cons entry rest => rfl
    | nil =>
      have stored : (Memory.commitDraft key w.store).1 = .ok { draft with status := .committed } := by
        rw [Memory.commitDraft, held]
      have moved : World.commitDraft Memory.backend key w =
          (.ok { draft with status := .committed },
            { w with store := (Memory.commitDraft key w.store).2 }) := by
        rw [← stored]
        exact World.call_of_unplanned (calm.unplanned _)
      exact congrArg Prod.fst (Action.restate_eq_ok_iff.mpr moved)

/-- A draft that may be committed is committed, and stands in its place from then on. -/
theorem commit_of_readyDraft (calm : w.Calm) {draft : Ruleset}
    (ready : w.store.readyDraft key = .ok draft) :
    ∃ after, commit Memory.backend key w = (.ok { draft with status := .committed }, after) ∧
      Slots.get? key after.store.committed = some { draft with status := .committed } := by
  have given := commit_of_calm calm key
  rw [ready] at given
  cases ran : commit Memory.backend key w with
  | mk r after =>
    rw [ran] at given
    obtain rfl : r = .ok { draft with status := .committed } := given
    obtain ⟨-, -, -, stored⟩ := store_of_commit ran
    refine ⟨after, rfl, ?_⟩
    rw [stored, Slots.get?_put, if_pos rfl]

end Workflow

/-! ### Sessions -/

namespace Session

variable {c : Settings} {key : PairKey} {w : World Memory} {step : Step} {steps : List Step}
  {draft : Ruleset}

/-- The step plans a failure. -/
def Step.plans : Step → Bool
  | .plan _ => true
  | _ => false

/-- The step puts a draft of a pair in the place of the one before. -/
def replaces (c : Settings) (key : PairKey) : Step → World Memory → Bool
  | .create request, w => decide (request.key = key) &&
      (Workflow.create Memory.backend c.maxThresholds request w).1.isOk
  | _, _ => false

/-- A calm world stays calm, unless a failure is planned. -/
theorem calm_after (unplanned : step.plans = false) (calm : w.Calm) : (step.after c w).Calm := by
  cases step with
  | create request => exact Tenants.calm_act c (.create request) calm
  | prepare key => exact Tenants.calm_act c (.prepare key) calm
  | commit key => exact Tenants.calm_act c (.commit key) calm
  | get key status => exact Tenants.calm_act c (.get key status) calm
  | list organization => exact Tenants.calm_act c (.list organization) calm
  | getActive policy entity => exact Tenants.calm_act c (.getActive policy entity) calm
  | refresh entity => exact Tenants.calm_act c (.refresh entity) calm
  | override actor entity score staleAt =>
    exact Tenants.calm_act c (.override actor entity score staleAt) calm
  | history entity => exact Tenants.calm_act c (.history entity) calm
  | work position =>
    rw [Step.after]
    split
    · exact calm
    · rename_i job rest taken
      obtain ⟨_, _, same⟩ := Option.map_eq_some_iff.mp taken
      obtain ⟨-, rfl⟩ := Prod.mk.inj same
      have calm_left : { w with jobs := w.jobs.eraseIdx position }.Calm := calm
      exact (Lifecycle.work_respects rfl _ _ ⟨rfl, rfl, rfl, calm_left, calm_left⟩).2.calm
  | markPending organization indexes =>
    exact Tenants.calm_act c (.markPending organization indexes) calm
  | markReady organization indexes =>
    exact Tenants.calm_act c (.markReady organization indexes) calm
  | plan failure => cases unplanned
  | putEntity | advance | setClock | refuse => exact calm

theorem calm_run (unplanned : ∀ step ∈ steps, step.plans = false) (calm : w.Calm) :
    (run c steps w).Calm := by
  induction steps generalizing w with
  | nil => exact calm
  | cons step rest ih =>
    obtain ⟨first, later⟩ := List.forall_mem_cons.mp unplanned
    exact ih later (calm_after first calm)

/-- Only creating and committing touch the draft of a pair, and only if they succeed. -/
theorem draft_after (kept : replaces c key step w = false) (uncommitted : commits key step w = false) :
    Slots.get? key (step.after c w).store.drafts = Slots.get? key w.store.drafts := by
  cases step with
  | create request =>
    cases ran : Workflow.create Memory.backend c.maxThresholds request w with
    | mk r after =>
      rw [Step.after, ran]
      cases r with
      | error e => rw [Workflow.create_atomic ran]
      | ok ruleset =>
        obtain ⟨-, -, -, -, stored⟩ := Workflow.store_of_create ran
        have other : key ≠ request.key := by
          rintro rfl
          simp [replaces, ran] at kept
        rw [stored, Slots.get?_put, if_neg other]
  | commit moved =>
    cases ran : Workflow.commit Memory.backend moved w with
    | mk r after =>
      rw [Step.after, ran]
      cases r with
      | error e => rw [Workflow.commit_atomic ran]
      | ok ruleset =>
        obtain ⟨_, -, -, stored⟩ := Workflow.store_of_commit ran
        have other : key ≠ moved := by
          rintro rfl
          simp [commits, ran] at uncommitted
        rw [stored, Slots.get?_remove, if_neg other]
  | _ => exact Memory.draft_of_rulesets (after_rulesets c w rfl) key

/-- The step: a draft that may be committed may still be committed after it. -/
theorem readyDraft_after (kept : replaces c key step w = false)
    (uncommitted : commits key step w = false) (ready : w.store.readyDraft key = .ok draft) :
    (step.after c w).store.readyDraft key = .ok draft := by
  obtain ⟨held, nothing⟩ := Memory.readyDraft_eq_ok_iff.mp ready
  rw [Memory.blockingIndexes_eq_nil_iff] at nothing
  refine Memory.readyDraft_eq_ok_iff.mpr ⟨(draft_after kept uncommitted).trans held, ?_⟩
  refine Memory.blockingIndexes_eq_nil_iff.mpr fun i needed => ?_
  have forward := stage_after c w step key.organization i
  rw [nothing i needed] at forward
  exact IndexState.eq_ready_of_stage_le forward

/-- The run: it stays so until the draft is replaced or committed. -/
theorem readyDraft_run (kept : occurrences c (replaces c key) steps w = 0)
    (uncommitted : occurrences c (commits key) steps w = 0)
    (ready : w.store.readyDraft key = .ok draft) :
    (run c steps w).store.readyDraft key = .ok draft := by
  induction steps generalizing w with
  | nil => exact ready
  | cons step rest ih =>
    obtain ⟨first_kept, later_kept⟩ := occurrences_cons_eq_zero_iff.mp kept
    obtain ⟨first_uncommitted, later_uncommitted⟩ := occurrences_cons_eq_zero_iff.mp uncommitted
    exact ih later_kept later_uncommitted (readyDraft_after first_kept first_uncommitted ready)

/-- **A preparation holds until the draft is replaced or committed.** In a calm world, as sessions
reach it from an empty store while no failure is planned (`calm_run`), and with a queue that takes
jobs, preparing a pair succeeds exactly if committing it would, and they give the same errors: that
there is no draft exactly if there is none, and else the indexes that the draft needs and that are
not ready, in ascending order. Once preparing has succeeded, committing the pair puts the draft of
the version reported in place after any steps that plan no failure and neither replace nor commit
that draft. -/
theorem preparation_of_run (c : Settings) (key : PairKey) {w : World Memory} (calm : w.Calm)
    (accepting : w.refusal = none) :
    ((Workflow.prepare Memory.backend key w).1.isOk
      = (Workflow.commit Memory.backend key w).1.isOk) ∧
    (∀ e, (Workflow.prepare Memory.backend key w).1 = .error e
      ↔ (Workflow.commit Memory.backend key w).1 = .error e) ∧
    ((Workflow.prepare Memory.backend key w).1 = .error (.noDraft key)
      ↔ Slots.get? key w.store.drafts = none) ∧
    (∀ draft, Slots.get? key w.store.drafts = some draft →
      ∀ pending, pending = draft.requiredIndexes.filter
          (fun i => decide (w.store.indexState key.organization i ≠ .ready)) →
        IndexSpec.Ascending pending ∧
        (pending = [] → (Workflow.prepare Memory.backend key w).1
          = .ok ⟨key, draft.version, draft.requiredIndexes⟩) ∧
        (pending ≠ [] → (Workflow.prepare Memory.backend key w).1
          = .error (.notReady pending))) ∧
    ∀ report prepared, Workflow.prepare Memory.backend key w = (.ok report, prepared) →
      ∀ steps, (∀ step ∈ steps, step.plans = false) →
        occurrences c (replaces c key) steps prepared = 0 →
        occurrences c (commits key) steps prepared = 0 →
        ∃ ruleset after,
          Workflow.commit Memory.backend key (run c steps prepared) = (.ok ruleset, after) ∧
          ruleset.version = report.version ∧
          Slots.get? key after.store.committed = some ruleset := by
  have preparing := Workflow.prepare_of_calm calm accepting key
  have committing := Workflow.commit_of_calm calm key
  refine ⟨?_, ?_, ?_, ?_, ?_⟩
  · rw [preparing, committing]
    cases w.store.readyDraft key <;> rfl
  · intro e
    rw [preparing, committing, map_eq_error_iff, map_eq_error_iff]
  · rw [preparing, map_eq_error_iff, Memory.readyDraft_eq_noDraft_iff]
  · rintro draft held _ rfl
    refine ⟨Memory.ascending_blockingIndexes key.organization draft, fun nothing => ?_,
      fun blocked => ?_⟩
    · rw [preparing, Memory.readyDraft_eq_ok_iff.mpr ⟨held, nothing⟩]
      rfl
    · rw [preparing, Memory.readyDraft_of_blocked held blocked]
      rfl
  · intro report prepared ran steps unplanned kept uncommitted
    have reported := preparing.symm.trans (congrArg Prod.fst ran)
    obtain ⟨draft, ready, rfl⟩ := map_eq_ok_iff.mp reported
    have prepared_after : (Step.prepare key).after c w = prepared := congrArg Prod.snd ran
    have still_ready : (run c steps prepared).store.readyDraft key = .ok draft := by
      refine readyDraft_run kept uncommitted ?_
      rw [← prepared_after]
      exact readyDraft_after rfl rfl ready
    have still_calm : (run c steps prepared).Calm := by
      refine calm_run unplanned ?_
      rw [← prepared_after]
      exact calm_after rfl calm
    obtain ⟨after, committed, stored⟩ := Workflow.commit_of_readyDraft still_calm still_ready
    exact ⟨_, after, committed, rfl, stored⟩

/-- Two kinds of entities need the same index, and it is asked for. -/
def Sample.blocked : List Step :=
  [.create (Sample.riskRequest "account"), .create (Sample.riskRequest "merchant"),
    .prepare ⟨"acme", "merchant"⟩]

/-- What happens after one of the two has been prepared: the index is marked as pending again, a
score is asked for, and the other draft is committed and followed by another. -/
def Sample.meanwhile : List Step :=
  [.markPending "acme" [Lookup.risk], .refresh Sample.entity, .commit ⟨"acme", "merchant"⟩,
    .create (Sample.riskRequest "merchant"), .prepare ⟨"acme", "merchant"⟩]

/-- While the index is not ready both requests name it; once a worker has created it the draft is
prepared, and committed after all that happens meanwhile. -/
theorem preparation_of_run_meanwhile : ∃ blocked ready prepared committed report ruleset,
    blocked = run Sample.settings Sample.blocked Sample.world ∧
    (Workflow.prepare Memory.backend Sample.pair blocked).1 = .error (.notReady [Lookup.risk]) ∧
    (Workflow.commit Memory.backend Sample.pair blocked).1 = .error (.notReady [Lookup.risk]) ∧
    ready = (Step.work 0).after Sample.settings blocked ∧
    Workflow.prepare Memory.backend Sample.pair ready = (.ok report, prepared) ∧
    Workflow.commit Memory.backend Sample.pair (run Sample.settings Sample.meanwhile prepared)
      = (.ok ruleset, committed) ∧
    ruleset.version = report.version ∧ report.version = 1 := by
  have unplanned : ∀ step ∈ Sample.blocked, step.plans = false := by
    simp [Sample.blocked, Step.plans]
  have calm : (run Sample.settings Sample.blocked Sample.world).Calm :=
    calm_run unplanned (World.calm_fresh _ _)
  have calm_ready : ((Step.work 0).after Sample.settings
      (run Sample.settings Sample.blocked Sample.world)).Calm := calm_after rfl calm
  obtain ⟨-, same, -, -, -⟩ := preparation_of_run Sample.settings Sample.pair calm rfl
  obtain ⟨-, -, -, -, holds⟩ := preparation_of_run Sample.settings Sample.pair calm_ready rfl
  obtain ⟨ruleset, committed, done, version, -⟩ :=
    holds _ _ rfl Sample.meanwhile (by simp [Sample.meanwhile, Step.plans]) rfl rfl
  exact ⟨_, _, _, committed, _, ruleset, rfl, rfl, (same _).mp rfl, rfl, rfl, done, version, rfl⟩

end Session

end RiskRules
