import RiskRules.Proofs.IndexRequests

/-!
Indexes over whole sessions. What a step does to the states of indexes and to the queue is one
relation (`Memory.Advanced`): no state moves backwards, an index becomes pending only with a job
that the step queues, and a job lists only indexes that are missing. So in every reachable state a
pending index has had a job queued for it, and as long as every mark succeeds no index is listed
twice (`Session.index_jobs_of_run`).
-/

namespace RiskRules

/-! ### Jobs for indexes -/

/-- The indexes that a job creates, each with its organization. -/
def Job.created : Job → List (String × IndexSpec)
  | .recomputeScore _ => []
  | .createIndexes organization indexes => indexes.map fun i => (organization, i)

theorem Job.mem_created_iff {job : Job} {organization : String} {i : IndexSpec} :
    (organization, i) ∈ job.created
      ↔ ∃ indexes, job = .createIndexes organization indexes ∧ i ∈ indexes := by
  cases job with
  | recomputeScore entity => simp [created]
  | createIndexes owner indexes =>
    simp only [created, List.mem_map, Prod.mk.injEq, Job.createIndexes.injEq]
    constructor
    · rintro ⟨_, mem, rfl, rfl⟩
      exact ⟨indexes, ⟨rfl, rfl⟩, mem⟩
    · rintro ⟨_, ⟨rfl, rfl⟩, mem⟩
      exact ⟨i, mem, rfl, rfl⟩

/-! ### States on their way -/

namespace Memory

variable {m m' : Memory} {organization : String} {indexes : List IndexSpec}
  {asked : List (String × IndexSpec)}

/-- What may happen to index states while indexes are asked for: none moves backwards, only those
asked for become pending, and those asked for were missing and are each asked for once. -/
structure Advanced (asked : List (String × IndexSpec)) (m m' : Memory) : Prop where
  forward : ∀ organization i,
    (m.indexState organization i).stage ≤ (m'.indexState organization i).stage
  pending_asked : ∀ organization i, m'.indexState organization i = .pending →
    m.indexState organization i = .pending ∨ (organization, i) ∈ asked
  asked_missing : ∀ organization i, (organization, i) ∈ asked →
    m.indexState organization i = .missing
  asked_once : asked.Nodup

theorem advanced_of_indexes (same : m'.indexes = m.indexes) : Advanced [] m m' := by
  have states : ∀ organization i, m'.indexState organization i = m.indexState organization i := by
    intro organization i
    rw [indexState, indexState, same]
  exact ⟨fun organization i => (states organization i).symm ▸ le_rfl,
    fun organization i pending => .inl (states organization i ▸ pending),
    fun _ _ mem => absurd mem List.not_mem_nil, List.nodup_nil⟩

theorem advanced_markAllReady (organization : String) (indexes : List IndexSpec) (m : Memory) :
    Advanced [] m (indexes.foldl (markReady organization) m) where
  forward owner i := by
    rw [indexState_markAllReady]
    split
    · cases m.indexState owner i <;> decide
    · exact le_rfl
  pending_asked owner i pending := by
    rw [indexState_markAllReady] at pending
    split at pending
    · cases pending
    · exact .inl pending
  asked_missing _ _ mem := absurd mem List.not_mem_nil
  asked_once := List.nodup_nil

/-- Marking as pending moves no index backwards. -/
theorem stage_le_markAllPending (organization : String) (indexes : List IndexSpec) (m : Memory)
    (owner : String) (i : IndexSpec) : (m.indexState owner i).stage
      ≤ ((indexes.foldl (markPending organization) m).indexState owner i).stage := by
  rw [indexState_markAllPending]
  split
  · rename_i marked
    rw [marked.2]
    decide
  · exact le_rfl

/-- A job for missing indexes asks for them, whether or not they have been marked with it. -/
theorem advanced_of_job (once : indexes.Nodup)
    (missing : ∀ i ∈ indexes, m.indexState organization i = .missing)
    (marked : m' = indexes.foldl (markPending organization) m ∨ m' = m) :
    Advanced (indexes.map fun i => (organization, i)) m m' where
  forward owner i := by
    rcases marked with rfl | rfl
    · exact stage_le_markAllPending organization indexes m owner i
    · exact le_rfl
  pending_asked owner i pending := by
    rcases marked with rfl | rfl
    · rw [indexState_markAllPending] at pending
      split at pending
      · rename_i among
        obtain ⟨⟨rfl, mem⟩, -⟩ := among
        exact .inr (List.mem_map.mpr ⟨i, mem, rfl⟩)
      · exact .inl pending
    · exact .inl pending
  asked_missing owner i mem := by
    obtain ⟨j, among, same⟩ := List.mem_map.mp mem
    obtain ⟨rfl, rfl⟩ := Prod.mk.inj same
    exact missing j among
  asked_once := once.map fun i j same => (Prod.mk.inj same).2

end Memory

namespace Session

variable {c : Settings} {w : World Memory} {step : Step} {steps : List Step} {organization : String}
  {i : IndexSpec}

/-! ### Queued jobs -/

/-- The jobs that stay in the queue when a step begins: all but the one that a worker takes. -/
def Step.waiting (w : World Memory) : Step → List Job
  | .work position => w.jobs.eraseIdx position
  | _ => w.jobs

/-- The jobs that a step puts into the queue, behind those that stay in it. -/
def Step.queued (c : Settings) (w : World Memory) (step : Step) : List Job :=
  (step.after c w).jobs.drop (step.waiting w).length

/-- The jobs that the steps of a run put into the queue, one after the other. -/
def enqueued (c : Settings) : List Step → World Memory → List Job
  | [], _ => []
  | step :: rest, w => step.queued c w ++ enqueued c rest (step.after c w)

theorem queued_of_jobs {added : List Job} (jobs : (step.after c w).jobs = step.waiting w ++ added) :
    step.queued c w = added := by
  rw [Step.queued, jobs, List.drop_left]

theorem jobs_after_work (position : Nat) :
    ((Step.work position).after c w).jobs = w.jobs.eraseIdx position := by
  rw [Step.after]
  split
  · rename_i untaken
    rw [takeJob?, Option.map_eq_none_iff, List.getElem?_eq_none_iff] at untaken
    exact (List.eraseIdx_of_length_le untaken).symm
  · rename_i job rest taken
    obtain ⟨_, _, same⟩ := Option.map_eq_some_iff.mp taken
    obtain ⟨-, rfl⟩ := Prod.mk.inj same
    cases job with
    | recomputeScore entity =>
      exact Lifecycle.work_recomputeScore_keeps World.quiet_jobs (fun _ _ _ => rfl) _
    | createIndexes organization indexes =>
      exact Lifecycle.work_createIndexes_keeps World.quiet_jobs (fun _ _ => rfl) _

/-- The queue after a step is what has stayed in it and what the step has put behind that. -/
theorem jobs_eq_waiting_append_queued (c : Settings) (w : World Memory) (step : Step) :
    (step.after c w).jobs = step.waiting w ++ step.queued c w := by
  suffices added : ∃ added, (step.after c w).jobs = step.waiting w ++ added by
    obtain ⟨added, jobs⟩ := added
    rw [queued_of_jobs jobs, jobs]
  cases step with
  | work position => exact ⟨[], (jobs_after_work position).trans (List.append_nil _).symm⟩
  | prepare key =>
    rcases Workflow.prepare_cases (Prod.eta (Workflow.prepare Memory.backend key w)).symm
      with ⟨-, same⟩ | ⟨missing, -, -, queued, -⟩
    · exact ⟨[], same.trans (List.append_nil _).symm⟩
    · exact ⟨_, queued⟩
  | getActive policy entity =>
    rcases Lifecycle.jobs_of_getActive
      (Prod.eta (Lifecycle.getActive Memory.backend c.lifecycle policy entity w)).symm
      with same | queued
    · exact ⟨[], same.trans (List.append_nil _).symm⟩
    · exact ⟨_, queued⟩
  | _ => exact ⟨[], (after_jobs c w rfl).trans (List.append_nil _).symm⟩

/-- The step prepares a draft. -/
def Step.prepares : Step → Bool
  | .prepare _ => true
  | _ => false

/-- No step but preparing puts a job for indexes into the queue. -/
theorem created_queued (c : Settings) (w : World Memory) (silent : step.prepares = false) :
    (step.queued c w).flatMap Job.created = [] := by
  by_cases working : ∃ position, step = .work position
  · obtain ⟨position, rfl⟩ := working
    rw [queued_of_jobs ((jobs_after_work position).trans (List.append_nil _).symm)]
    rfl
  · have kept : ((step.after c w).jobs.flatMap Job.created) = w.jobs.flatMap Job.created := by
      have quiet : World.Quiet fun w : World Memory => w.jobs.flatMap Job.created :=
        fun _ _ _ _ _ => rfl
      refine after_keeps quiet c (fun write made w => ?_) w
      cases write with
      | takeJob => cases step <;> simp_all [Step.Makes]
      | enqueue job =>
        cases step <;> simp_all [Step.Makes, Step.prepares, Write.apply, Job.created]
      | _ => rfl
    have waiting : step.waiting w = w.jobs := by
      cases step with
      | work position => exact absurd ⟨position, rfl⟩ working
      | _ => rfl
    rwa [jobs_eq_waiting_append_queued, waiting, List.flatMap_append,
      List.append_right_eq_self] at kept

/-! ### One step -/

/-- Preparing queues its job and then gives an error of the store: the mark has failed. -/
def marksInVain : Step → World Memory → Bool
  | .prepare key, w =>
    match Workflow.prepare Memory.backend key w with
    | (.error (.store _), after) => decide (after.jobs ≠ w.jobs)
    | _ => false
  | _, _ => false

/-- The step marks indexes as pending by itself, without a job for them. -/
def Step.marksPending : Step → Bool
  | .markPending _ _ => true
  | _ => false

/-- What the step of preparing does: nothing, or it queues one job for missing indexes, and marks
them unless the mark fails. -/
theorem prepare_after_cases (c : Settings) (w : World Memory) (key : PairKey) :
    (((Step.prepare key).after c w).store = w.store ∧ (Step.prepare key).queued c w = []) ∨
    ∃ missing : List IndexSpec, missing.Nodup ∧
      (∀ i ∈ missing, w.store.indexState key.organization i = .missing) ∧
      (Step.prepare key).queued c w = [.createIndexes key.organization missing] ∧
      (((Step.prepare key).after c w).store
          = missing.foldl (Memory.markPending key.organization) w.store ∨
        ((Step.prepare key).after c w).store = w.store ∧ marksInVain (.prepare key) w = true) := by
  cases ran : Workflow.prepare Memory.backend key w with
  | mk r after =>
    have same : (Step.prepare key).after c w = after := congrArg Prod.snd ran
    rw [same]
    rcases Workflow.prepare_cases ran with ⟨store, jobs⟩ | ⟨missing, once, all_missing, jobs, marked⟩
    · rw [← same] at jobs
      exact .inl ⟨store, queued_of_jobs (jobs.trans (List.append_nil _).symm)⟩
    · have queued : (Step.prepare key).queued c w = [.createIndexes key.organization missing] :=
        queued_of_jobs (same ▸ jobs)
      refine .inr ⟨missing, once, all_missing, queued, marked.imp_right ?_⟩
      rintro ⟨store, e, rfl⟩
      refine ⟨store, ?_⟩
      rw [marksInVain, ran]
      simp [jobs]

theorem advanced_of_markReady (organization : String) (indexes : List IndexSpec)
    (w : World Memory) :
    Memory.Advanced [] w.store (World.markReady Memory.backend organization indexes w).2.store := by
  rcases World.store_of_call .markReady (Memory.backend.markReady organization indexes) w
    with same | marked
  · exact Memory.advanced_of_indexes (congrArg Memory.indexes same)
  · rw [World.markReady, marked]
    exact Memory.advanced_markAllReady organization indexes w.store

/-- The step: indexes move on, and those that become pending are in the job that it queues. -/
theorem advanced_after (c : Settings) (w : World Memory) (unmarked : step.marksPending = false) :
    Memory.Advanced ((step.queued c w).flatMap Job.created) w.store (step.after c w).store := by
  cases step with
  | prepare key =>
    rcases prepare_after_cases c w key with ⟨store, queued⟩ | ⟨_, once, missing, queued, marked⟩
    · rw [queued]
      exact Memory.advanced_of_indexes (congrArg Memory.indexes store)
    · rw [queued, List.flatMap_singleton]
      exact Memory.advanced_of_job once missing (marked.imp_right And.left)
  | work position =>
    rw [created_queued c w rfl, Step.after]
    split
    · exact Memory.advanced_of_indexes rfl
    · rename_i job rest taken
      rw [← takeJob?_keeps taken]
      cases job with
      | recomputeScore entity =>
        exact Memory.advanced_of_indexes
          (Lifecycle.work_recomputeScore_keeps (World.quiet_of_store Memory.indexes)
            (fun _ _ _ => rfl) rest)
      | createIndexes organization indexes =>
        simp only [Lifecycle.work_createIndexes_snd]
        exact advanced_of_markReady organization indexes rest
  | markReady organization indexes =>
    rw [created_queued c w rfl]
    exact advanced_of_markReady organization indexes w
  | markPending => cases unmarked
  | _ =>
    rw [created_queued c w rfl]
    exact Memory.advanced_of_indexes (after_indexes c w rfl)

/-- Unless the mark fails, what a step has queued a job for is not missing any more. -/
theorem marked_after (c : Settings) (w : World Memory) (marked : marksInVain step w = false) :
    ∀ pair ∈ (step.queued c w).flatMap Job.created,
      (step.after c w).store.indexState pair.1 pair.2 ≠ .missing := by
  cases step with
  | prepare key =>
    rcases prepare_after_cases c w key with ⟨-, queued⟩ | ⟨_, -, missing, queued, store | in_vain⟩
    · rw [queued]
      exact nofun
    · rw [queued, List.flatMap_singleton]
      intro pair mem
      obtain ⟨i, among, rfl⟩ := List.mem_map.mp mem
      rw [store, Memory.indexState_markAllPending, if_pos ⟨⟨rfl, among⟩, missing i among⟩]
      decide
    · rw [in_vain.2] at marked
      cases marked
  | _ =>
    rw [created_queued c w rfl]
    exact nofun

/-! ### Runs -/

/-- No step moves an index backwards. -/
theorem stage_after (c : Settings) (w : World Memory) (step : Step) (organization : String)
    (i : IndexSpec) : (w.store.indexState organization i).stage
      ≤ ((step.after c w).store.indexState organization i).stage := by
  cases step with
  | markPending owner indexes =>
    rcases World.store_of_call .markPending (Memory.backend.markPending owner indexes) w
      with same | marked
    · rw [Step.after, World.markPending, same]
    · rw [Step.after, World.markPending, marked]
      exact Memory.stage_le_markAllPending owner indexes w.store organization i
  | _ => exact (advanced_after c w rfl).forward organization i

theorem stage_run (c : Settings) (steps : List Step) (w : World Memory) (organization : String)
    (i : IndexSpec) : (w.store.indexState organization i).stage
      ≤ ((run c steps w).store.indexState organization i).stage := by
  induction steps generalizing w with
  | nil => exact le_rfl
  | cons step rest ih => exact (stage_after c w step organization i).trans (ih _)

theorem run_append (c : Settings) (earlier later : List Step) (w : World Memory) :
    run c (earlier ++ later) w = run c later (run c earlier w) := by
  induction earlier generalizing w with
  | nil => rfl
  | cons step rest ih => exact ih _

/-- An index that has become pending is in a job that the run has queued. -/
theorem pending_run (unmarked : ∀ step ∈ steps, step.marksPending = false)
    (pending : (run c steps w).store.indexState organization i = .pending) :
    w.store.indexState organization i = .pending ∨
      (organization, i) ∈ (enqueued c steps w).flatMap Job.created := by
  induction steps generalizing w with
  | nil => exact .inl pending
  | cons step rest ih =>
    obtain ⟨first, later⟩ := List.forall_mem_cons.mp unmarked
    rw [enqueued, List.flatMap_append, List.mem_append]
    rcases ih later pending with after_first | queued
    · rcases (advanced_after c w first).pending_asked organization i after_first with before | asked
      · exact .inl before
      · exact .inr (.inl asked)
    · exact .inr (.inr queued)

/-- While every mark succeeds, a run queues jobs for missing indexes, and for each at most once. -/
theorem once_run (unmarked : ∀ step ∈ steps, step.marksPending = false)
    (marked : occurrences c marksInVain steps w = 0) :
    ((enqueued c steps w).flatMap Job.created).Nodup ∧
      ∀ pair ∈ (enqueued c steps w).flatMap Job.created,
        w.store.indexState pair.1 pair.2 = .missing := by
  induction steps generalizing w with
  | nil => exact ⟨List.nodup_nil, nofun⟩
  | cons step rest ih =>
    obtain ⟨first, later⟩ := List.forall_mem_cons.mp unmarked
    obtain ⟨first_marked, later_marked⟩ := occurrences_cons_eq_zero_iff.mp marked
    obtain ⟨once, missing_after⟩ := ih later later_marked
    have advanced := advanced_after c w first
    rw [enqueued, List.flatMap_append]
    constructor
    · refine List.nodup_append.mpr ⟨advanced.asked_once, once, ?_⟩
      intro pair asked other queued same
      exact marked_after c w first_marked pair asked (missing_after pair (same ▸ queued))
    · intro pair mem
      rcases List.mem_append.mp mem with asked | queued
      · exact advanced.asked_missing pair.1 pair.2 asked
      · -- What is missing after the step was missing before it.
        have forward := advanced.forward pair.1 pair.2
        rw [missing_after pair queued] at forward
        exact IndexState.eq_missing_of_stage_le forward

/-- **Indexes over a whole session.** After any steps from an empty catalog in which no index is
marked as pending by itself, every index that is pending is in a job for its organization that has
been queued; no index has moved backwards on the way; and if no mark has failed after its job was
queued, no index of an organization is in two of the queued jobs, nor twice in one. -/
theorem index_jobs_of_run (c : Settings) (steps : List Step) {w : World Memory}
    (started : w.store.indexes = []) (unmarked : ∀ step ∈ steps, step.marksPending = false) :
    (∀ organization i, (run c steps w).store.indexState organization i = .pending →
      ∃ indexes, .createIndexes organization indexes ∈ enqueued c steps w ∧ i ∈ indexes) ∧
    (∀ earlier later, steps = earlier ++ later → ∀ organization i,
      ((run c earlier w).store.indexState organization i).stage
        ≤ ((run c steps w).store.indexState organization i).stage) ∧
    (occurrences c marksInVain steps w = 0 →
      ((enqueued c steps w).flatMap Job.created).Nodup) := by
  have missing : ∀ organization i, w.store.indexState organization i = .missing := by
    intro organization i
    rw [Memory.indexState, started]
    rfl
  refine ⟨fun organization i pending => ?_, ?_, fun marked => (once_run unmarked marked).1⟩
  · rcases pending_run unmarked pending with before | queued
    · rw [missing] at before
      cases before
    · obtain ⟨job, queued, listed⟩ := List.mem_flatMap.mp queued
      obtain ⟨indexes, rfl, mem⟩ := Job.mem_created_iff.mp listed
      exact ⟨indexes, queued, mem⟩
  · rintro earlier later rfl organization i
    rw [run_append]
    exact stage_run c later (run c earlier w) organization i

/-- A request for a ruleset that looks up the risk of the owner, for a kind of entity. -/
def Sample.riskRequest (entityType : String) : RulesetRequest :=
  { Sample.request with
    key := ⟨"acme", entityType⟩
    rules := [⟨some "risk", "risk", "", some Lookup.body⟩] }

/-- Two kinds of entities need the same index. The queue refuses the first job for it, and then
both are prepared, one of them twice. -/
def Sample.sharedIndex : List Step :=
  [.create (Sample.riskRequest "account"), .create (Sample.riskRequest "merchant"),
    .refuse (some "down"), .prepare ⟨"acme", "account"⟩, .refuse none,
    .prepare ⟨"acme", "account"⟩, .prepare ⟨"acme", "merchant"⟩, .prepare ⟨"acme", "account"⟩]

/-- One job is queued for the index that both need, and the index is pending from then on until it
is ready. -/
theorem index_jobs_of_run_shared : ∃ jobs,
    jobs = enqueued Sample.settings Sample.sharedIndex Sample.world ∧
    (run Sample.settings Sample.sharedIndex Sample.world).store.indexState "acme" Lookup.risk
      = .pending ∧
    jobs = [.createIndexes "acme" [Lookup.risk]] ∧
    (∃ indexes, .createIndexes "acme" indexes ∈ jobs ∧ Lookup.risk ∈ indexes) ∧
    (jobs.flatMap Job.created).Nodup ∧
    IndexState.stage .pending ≤ ((run Sample.settings
      (Sample.sharedIndex ++ [.markReady "acme" [Lookup.risk]]) Sample.world).store.indexState
        "acme" Lookup.risk).stage := by
  have unmarked : ∀ step ∈ Sample.sharedIndex, step.marksPending = false := by
    simp [Sample.sharedIndex, Step.marksPending]
  obtain ⟨queued, -, once⟩ :=
    index_jobs_of_run Sample.settings Sample.sharedIndex (w := Sample.world) rfl unmarked
  have marked : ∀ step ∈ Sample.sharedIndex ++ [.markReady "acme" [Lookup.risk]],
      step.marksPending = false := by
    simp [Sample.sharedIndex, Step.marksPending]
  obtain ⟨-, forward, -⟩ :=
    index_jobs_of_run Sample.settings _ (w := Sample.world) rfl marked
  exact ⟨_, rfl, rfl, rfl, queued "acme" Lookup.risk rfl, once rfl,
    forward Sample.sharedIndex _ rfl "acme" Lookup.risk⟩

end Session

end RiskRules
