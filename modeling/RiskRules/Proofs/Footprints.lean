import RiskRules.Proofs.Histories
import RiskRules.Proofs.PendingIndexes
import RiskRules.Proofs.ScoreAnswers

/-!
What a request writes. A request that fails leaves store and queue as they were, but for preparing a
draft whose indexes are not ready, which asks for those that are missing; a request that succeeds
writes to the places that it is for and to no others (`Tenants.frame_of_effect`).
-/

namespace RiskRules

/-! ### What is written -/

namespace World

/-- Neither the store nor the queue has been written to. -/
structure Untouched (w after : World Memory) : Prop where
  store : after.store = w.store
  jobs : after.jobs = w.jobs

/-- A draft of a pair has been put in its slot. -/
structure Drafted (key : PairKey) (ruleset : Ruleset) (w after : World Memory) : Prop where
  key_eq : ruleset.key = key
  status : ruleset.status = .draft
  store : after.store = { w.store with drafts := Slots.put key ruleset w.store.drafts }
  jobs : after.jobs = w.jobs

/-- Missing indexes have been asked for: a job for them has been queued, and they are pending. -/
structure Asked (organization : String) (missing : List IndexSpec) (w after : World Memory) :
    Prop where
  nonempty : missing ≠ []
  unasked : ∀ i ∈ missing, w.store.indexState organization i = .missing
  states : ∀ owner i, after.store.indexState owner i =
    if owner = organization ∧ i ∈ missing then .pending else w.store.indexState owner i
  rest : after.store = { w.store with indexes := after.store.indexes }
  jobs : after.jobs = w.jobs ++ [.createIndexes organization missing]

/-- The draft of a pair has been moved to the place of the committed ruleset, and but for its status
it is the same. -/
structure Moved (key : PairKey) (ruleset : Ruleset) (w after : World Memory) : Prop where
  draft : ∃ draft, Slots.get? key w.store.drafts = some draft ∧
    ruleset = { draft with status := .committed }
  store : after.store = { w.store with
    drafts := Slots.remove key w.store.drafts
    committed := Slots.put key ruleset w.store.committed }
  jobs : after.jobs = w.jobs

/-- A score has been put in front of the history of its entity. -/
structure Rescored (entity : EntityRef) (score : Score) (w after : World Memory) : Prop where
  prepended : Memory.Prepended entity score w.store after.store
  jobs : after.jobs = w.jobs

theorem Untouched.trans {w w' after : World Memory} (before : Untouched w w')
    (then_untouched : Untouched w' after) : Untouched w after :=
  ⟨then_untouched.store.trans before.store, then_untouched.jobs.trans before.jobs⟩

/-- What has been asked for after nothing was written has been asked for. -/
theorem Asked.since {organization : String} {missing : List IndexSpec} {w w' after : World Memory}
    (asked : Asked organization missing w' after) (before : Untouched w w') :
    Asked organization missing w after := by
  obtain ⟨nonempty, unasked, states, rest, queued⟩ := asked
  rw [before.store] at unasked states rest
  rw [before.jobs] at queued
  exact ⟨nonempty, unasked, states, rest, queued⟩

/-- A job for an entity has been queued. -/
structure Queued (entity : EntityRef) (w after : World Memory) : Prop where
  store : after.store = w.store
  jobs : after.jobs = w.jobs ++ [.recomputeScore entity]

/-- What has been written by a request that writes nothing if it fails. -/
def Written {ε α : Type} (w after : World Memory) (done : α → Prop) : Except ε α → Prop
  | .ok a => done a
  | .error _ => Untouched w after

/-- Store and queue, which is all that requests write to. -/
def records (w : World Memory) : Memory × List Job :=
  (w.store, w.jobs)

theorem quiet_records : Quiet records :=
  fun _ _ _ _ _ => rfl

theorem untouched_of_keeps {ε α : Type} {x : Action (World Memory) ε α} {w after : World Memory}
    {r : Except ε α} (keeps : x.Keeps records) (ran : x w = (r, after)) : Untouched w after :=
  ⟨congrArg Prod.fst (keeps.after ran), congrArg Prod.snd (keeps.after ran)⟩

theorem written_of_atomic {ε α : Type} {x : Action (World Memory) ε α} {w after : World Memory}
    {done : α → Prop} {r : Except ε α} (keeps : x.Keeps World.jobs) (atomic : x.Atomic World.store)
    (ok : ∀ a, x w = (.ok a, after) → after.jobs = w.jobs → done a) (ran : x w = (r, after)) :
    Written w after done r := by
  cases r with
  | ok a => exact ok a ran (keeps.after ran)
  | error e => exact ⟨atomic ran, keeps.after ran⟩

end World

/-! ### Preparing -/

theorem Memory.foldl_markPending_eq (organization : String) (indexes : List IndexSpec)
    (m : Memory) : indexes.foldl (markPending organization) m =
      { m with indexes := (indexes.foldl (markPending organization) m).indexes } := by
  induction indexes generalizing m with
  | nil => rfl
  | cons i rest ih => rw [List.foldl_cons, ih, markPending_eq]

theorem World.asked_of_marks {organization : String} {missing : List IndexSpec}
    {w after : World Memory} (nonempty : missing ≠ [])
    (unasked : ∀ i ∈ missing, w.store.indexState organization i = .missing)
    (store : after.store = missing.foldl (Memory.markPending organization) w.store)
    (jobs : after.jobs = w.jobs ++ [.createIndexes organization missing]) :
    Asked organization missing w after := by
  refine ⟨nonempty, unasked, fun owner i => ?_, ?_, jobs⟩
  · rw [store, Memory.indexState_markAllPending]
    by_cases among : owner = organization ∧ i ∈ missing
    · obtain ⟨rfl, mem⟩ := among
      simp [mem, unasked i mem]
    · simp [among]
  · rw [store]
    exact Memory.foldl_markPending_eq organization missing w.store

namespace Workflow

variable {w after : World Memory} {key : PairKey}

theorem eq_of_requireDraft {draft : Ruleset}
    (ran : requireDraft Memory.backend key w = (.ok draft, after)) : after = w := by
  obtain ⟨found, w₁, read, given⟩ := Action.bind_eq_ok_iff.mp ran
  obtain ⟨-, rfl⟩ := World.eq_of_read (Action.restate_eq_ok_iff.mp read)
  cases found <;> cases given
  rfl

/-- Finding out which indexes are not ready uses up no planned failure. -/
theorem planned_of_notReady {organization : String} {required : List IndexSpec}
    {blocking : List (IndexSpec × IndexState)}
    (ran : notReady Memory.backend organization required w = (.ok blocking, after)) :
    after.planned = w.planned := by
  rw [notReady] at ran
  split at ran
  · cases ran
    rfl
  · obtain ⟨states, w₁, asked, given⟩ := Action.bind_eq_ok_iff.mp ran
    have kept : w₁.planned = w.planned := by
      have asked := Action.restate_eq_ok_iff.mp asked
      rw [World.indexStates] at asked
      split at asked
      rename_i r called_after called
      split at asked
      · cases asked
        obtain ⟨_, -, rfl⟩ := World.call_eq_ok called
        rfl
      · cases r with
        | error e => cases asked
        | ok given =>
          cases asked
          obtain ⟨_, -, rfl⟩ := World.call_eq_ok called
          rfl
    split at given
    · cases given
    · cases given
      exact kept

/-- A request for missing indexes asks for them, or leaves everything as it is. -/
theorem requestIndexes_asks {organization : String} {missing : List IndexSpec}
    {r : Except WorkflowError Unit}
    (unplanned : PlannedFailure.take? .markPending w.planned = none)
    (unasked : ∀ i ∈ missing, w.store.indexState organization i = .missing)
    (ran : requestIndexes Memory.backend organization missing w = (r, after)) :
    World.Untouched w after ∨ r = .ok () ∧ World.Asked organization missing w after := by
  rw [requestIndexes] at ran
  split at ran
  · cases ran
    exact .inl ⟨rfl, rfl⟩
  · rename_i some_missing
    rw [Action.bind_apply, Action.restate] at ran
    cases refusal : w.refusal with
    | some text =>
      rw [World.enqueue_of_refused _ refusal] at ran
      cases ran
      exact .inl ⟨rfl, rfl⟩
    | none =>
      rw [World.enqueue_of_taken _ refusal] at ran
      rcases Action.restate_cases ran with ⟨_, marked, rfl⟩ | ⟨e, failed, -⟩
      · obtain ⟨m, done, rfl⟩ := World.call_eq_ok marked
        cases done
        exact .inr ⟨rfl, World.asked_of_marks (by simpa using some_missing) unasked rfl rfl⟩
      · rcases World.call_cases failed with ⟨_, planned, taken, -, -⟩ | ⟨-, m, done, -⟩
        · cases taken.symm.trans unplanned
        · cases done

/-- **What preparing does.** It asks for missing indexes of the draft and says that they are not
ready, among others perhaps; or it leaves everything as it is. -/
theorem prepare_asks {r : Except WorkflowError PreparationReport}
    (unplanned : PlannedFailure.take? .markPending w.planned = none)
    (ran : prepare Memory.backend key w = (r, after)) :
    World.Untouched w after ∨ ∃ pending missing, r = .error (.notReady pending) ∧
      missing ⊆ pending ∧ World.Asked key.organization missing w after := by
  rcases Action.bind_cases ran with ⟨draft, w₁, found, preparing⟩ | ⟨_, failed, -⟩
  swap
  · exact .inl (World.untouched_of_keeps (requireDraft_keeps World.quiet_records) failed)
  obtain rfl := eq_of_requireDraft found
  rcases Action.bind_cases preparing with ⟨blocking, w₂, checked, asking⟩ | ⟨_, failed, -⟩
  swap
  · exact .inl (World.untouched_of_keeps (notReady_keeps World.quiet_records) failed)
  have untouched₂ := World.untouched_of_keeps (notReady_keeps World.quiet_records) checked
  rw [← planned_of_notReady checked] at unplanned
  have blocked := eq_of_notReady checked
  have unasked : ∀ i ∈ (blocking.filter fun entry => entry.2 == .missing).map Prod.fst,
      w₂.store.indexState key.organization i = .missing := by
    rw [blocked, map_fst_missing, untouched₂.store]
    exact fun i mem => of_decide_eq_true (List.mem_filter.mp mem).2
  rcases Action.bind_cases asking with ⟨_, w₃, requested, answering⟩ | ⟨_, failed, -⟩
  · have kept : w₃ = after := by
      split at answering <;> exact (Prod.mk.inj answering).2
    subst kept
    rcases requestIndexes_asks unplanned unasked requested with untouched | ⟨-, asked⟩
    · exact .inl (untouched₂.trans untouched)
    · refine .inr ⟨blocking.map Prod.fst, _, ?_, ?_, asked.since untouched₂⟩
      · split at answering
        · rename_i nothing
          rw [List.isEmpty_iff.mp nothing] at asked
          exact absurd rfl asked.nonempty
        · exact (Prod.mk.inj answering).1.symm
      · exact List.map_subset Prod.fst (List.filter_subset_self blocking)
  · rcases requestIndexes_asks unplanned unasked failed with untouched | ⟨impossible, -⟩
    · exact .inl (untouched₂.trans untouched)
    · cases impossible

end Workflow

/-! ### Creating and committing -/

namespace Workflow

variable {w after : World Memory} {key : PairKey} {r : Except WorkflowError Ruleset}

theorem create_written {maxThresholds : Nat} {request : RulesetRequest}
    (ran : create Memory.backend maxThresholds request w = (r, after)) :
    World.Written w after (World.Drafted request.key · w after) r := by
  refine World.written_of_atomic (create_keeps World.quiet_jobs fun _ _ _ => rfl) create_atomic
    (fun ruleset given jobs => ?_) ran
  obtain ⟨key_eq, status, -, -, store⟩ := store_of_create given
  exact ⟨key_eq, status, store, jobs⟩

theorem commit_written (ran : commit Memory.backend key w = (r, after)) :
    World.Written w after (World.Moved key · w after) r := by
  refine World.written_of_atomic (commit_keeps World.quiet_jobs fun _ => rfl) commit_atomic
    (fun ruleset given jobs => ?_) ran
  obtain ⟨draft, held, same, store⟩ := store_of_commit given
  exact ⟨⟨draft, held, same⟩, store, jobs⟩

end Workflow

/-! ### Serving -/

namespace Lifecycle

variable {c : LifecycleConfig} {policy : RefreshPolicy} {entity : EntityRef}
  {w after : World Memory} {r : Except LifecycleError Score}

theorem rescored_of_insertScore {score : Score} (owned : score.entity = entity)
    (current : score.isCurrent = true) (store : after.store = (Memory.insertScore score w.store).2)
    (jobs : after.jobs = w.jobs) : World.Rescored entity score w after :=
  ⟨store ▸ Memory.prepended_insertScore owned current, jobs⟩

theorem refresh_written (ran : refresh Memory.backend c entity w = (r, after)) :
    World.Written w after (World.Rescored entity · w after) r := by
  refine World.written_of_atomic (refresh_keeps World.quiet_jobs fun _ _ _ => rfl) refresh_atomic
    (fun score given jobs => ?_) ran
  obtain ⟨computed, store⟩ := store_of_refresh given
  exact rescored_of_insertScore computed.entity_eq computed.isCurrent store jobs

theorem override_written {actor : String} {value : Int64} {staleAt : Option Timestamp}
    (ran : override Memory.backend c actor entity value staleAt w = (r, after)) :
    World.Written w after (World.Rescored entity · w after) r := by
  refine World.written_of_atomic (override_keeps World.quiet_jobs fun _ _ _ => rfl) override_atomic
    (fun score given jobs => ?_) ran
  obtain ⟨set, store⟩ := store_of_override given
  exact rescored_of_insertScore set.entity_eq set.isCurrent store jobs

/-- A score has been given: a new one has been added, or a job has been queued for one, or nothing
has been written. -/
def Given (entity : EntityRef) (w after : World Memory) (score : Score) : Prop :=
  World.Rescored entity score w after ∨ World.Queued entity w after ∨ World.Untouched w after

theorem written_since {w' : World Memory}
    (written : World.Written w' after (Given entity w' after) r) (before : World.Untouched w w') :
    World.Written w after (Given entity w after) r := by
  cases r with
  | ok score =>
    rcases written with ⟨prepended, kept⟩ | ⟨kept, queued⟩ | untouched
    · exact .inl ⟨before.store ▸ prepended, kept.trans before.jobs⟩
    · exact .inr (.inl ⟨kept.trans before.store, before.jobs ▸ queued⟩)
    · exact .inr (.inr (before.trans untouched))
  | error e => exact before.trans written

theorem given_of_untouched (untouched : World.Untouched w after) :
    World.Written w after (Given entity w after) r := by
  cases r with
  | ok score => exact .inr (.inr untouched)
  | error e => exact untouched

theorem given_of_refresh (ran : refresh Memory.backend c entity w = (r, after)) :
    World.Written w after (Given entity w after) r := by
  have written := refresh_written ran
  cases r with
  | ok score => exact .inl written
  | error e => exact written

theorem serveStale_written {current : Score}
    (ran : serveStale Memory.backend c policy entity current w = (r, after)) :
    World.Written w after (Given entity w after) r := by
  unfold serveStale at ran
  split at ran
  · rw [Action.bind_apply, Action.restate] at ran
    cases refusal : w.refusal with
    | none =>
      rw [World.enqueue_of_taken _ refusal] at ran
      cases ran
      exact .inr (.inl ⟨rfl, rfl⟩)
    | some text =>
      rw [World.enqueue_of_refused _ refusal] at ran
      cases ran
      exact ⟨rfl, rfl⟩
  · rcases Action.bind_cases ran with ⟨attempted, w₁, tried, answering⟩ | ⟨_, tried, -⟩
    · obtain ⟨result, refreshed, same⟩ := Action.attempt_cases tried
      obtain rfl := Except.ok.inj same
      cases attempted with
      | ok computed =>
        cases answering
        exact given_of_refresh refreshed
      | error e =>
        cases answering
        exact given_of_untouched (refresh_written refreshed)
    · obtain ⟨_, -, failed⟩ := Action.attempt_cases tried
      cases failed

/-- **What asking for a score writes.** -/
theorem getActive_written (ran : getActive Memory.backend c policy entity w = (r, after)) :
    World.Written w after (Given entity w after) r := by
  rcases Action.bind_cases ran with ⟨found, w₁, read, asking⟩ | ⟨_, failed, -⟩
  swap
  · exact given_of_untouched
      (World.untouched_of_keeps (World.read_keeps World.quiet_records).restate failed)
  obtain ⟨-, rfl⟩ := World.eq_of_read (Action.restate_eq_ok_iff.mp read)
  cases found with
  | none => exact given_of_refresh asking
  | some current =>
    rcases Action.bind_cases asking with ⟨now, w₂, viewed, judging⟩ | ⟨_, viewed, -⟩
    swap
    · cases viewed
    cases viewed
    rcases Action.bind_cases judging with ⟨stale, w₃, judged, serving⟩ | ⟨_, failed, -⟩
    swap
    · exact given_of_untouched
        (World.untouched_of_keeps (isStale_keeps World.quiet_records) failed)
    have untouched := World.untouched_of_keeps (isStale_keeps World.quiet_records) judged
    split at serving
    · exact written_since (serveStale_written serving) untouched
    · cases serving
      exact given_of_untouched untouched

end Lifecycle

namespace Tenants

open Session (Settings)
open World (Untouched Drafted Asked Moved Rescored Written)

variable {c : Settings} {w after : World Memory} {request : Request} {answer : Answer}

/-! ### What requests write -/

/-- The request is one that the services for rulesets and for scores take, and not one to a worker
or to a store. -/
def Request.Served : Request → Prop
  | .work _ _ | .markPending _ _ | .markReady _ _ | .putEntity _ _ => False
  | _ => True

/-- What a request with an answer has written. -/
def Effect (w after : World Memory) : Request → Answer → Prop
  | .create request, .ruleset r => Written w after (Drafted request.key · w after) r
  | .prepare key, .report (.error (.notReady pending)) =>
    Untouched w after ∨ ∃ missing, missing ⊆ pending ∧ Asked key.organization missing w after
  | .commit key, .ruleset r => Written w after (Moved key · w after) r
  | .getActive _ entity, .score r => Written w after (Lifecycle.Given entity w after) r
  | .refresh entity, .score r | .override _ entity _ _, .score r =>
    Written w after (Rescored entity · w after) r
  | _, _ => Untouched w after

/-- **What a request writes.** A request that the services take has its effect, if no mark on
indexes is planned to fail. -/
theorem effect_of_act (served : request.Served)
    (unplanned : PlannedFailure.take? .markPending w.planned = none) :
    Effect w (request.act c w).2 request (request.act c w).1 := by
  cases request with
  | create request => exact Workflow.create_written rfl
  | prepare key =>
    cases ran : Workflow.prepare Memory.backend key w with
    | mk r after =>
      rw [Request.act, answered, ran]
      rcases Workflow.prepare_asks unplanned ran with
        untouched | ⟨pending, missing, rfl, among, asked⟩
      · cases r with
        | ok report => exact untouched
        | error e =>
          cases e with
          | notReady pending => exact .inl untouched
          | _ => exact untouched
      · exact .inr ⟨missing, among, asked⟩
  | commit key => exact Workflow.commit_written rfl
  | get key status =>
    exact World.untouched_of_keeps (Workflow.get_keeps World.quiet_records) rfl
  | list organization =>
    exact World.untouched_of_keeps (Workflow.list_keeps World.quiet_records) rfl
  | getActive policy entity => exact Lifecycle.getActive_written rfl
  | refresh entity => exact Lifecycle.refresh_written rfl
  | override actor entity value staleAt => exact Lifecycle.override_written rfl
  | history entity =>
    exact World.untouched_of_keeps (Lifecycle.history_keeps World.quiet_records) rfl
  | work | markPending | markReady | putEntity => exact served.elim

/-! ### Footprints -/

/-- The places of a world that requests of the services read and write, and what surrounds them. -/
inductive Place where
  | draft (key : PairKey)
  | committed (key : PairKey)
  | history (entity : EntityRef)
  | index (organization : String) (index : IndexSpec)
  | queue
  | surroundings

/-- The data of entities, whether the queue takes jobs, and the time. -/
def surroundings (w : World Memory) : List (EntityRef × Environment) × Option String × Timestamp :=
  (w.entities, w.refusal, w.now)

/-- A place is the same in two worlds. -/
def Place.Same (w after : World Memory) : Place → Prop
  | .draft key => Slots.get? key after.store.drafts = Slots.get? key w.store.drafts
  | .committed key => Slots.get? key after.store.committed = Slots.get? key w.store.committed
  | .history entity => after.store.history entity = w.store.history entity
  | .index organization i =>
    after.store.indexState organization i = w.store.indexState organization i
  | .queue => after.jobs = w.jobs
  | .surroundings => Tenants.surroundings after = Tenants.surroundings w

/-- The places that a request with an answer may write to. -/
def Writes : Request → Answer → Place → Prop
  | .create request, .ruleset (.ok _), .draft key => key = request.key
  | .prepare key, .report (.error (.notReady pending)), .index organization i =>
    organization = key.organization ∧ i ∈ pending
  | .prepare _, .report (.error (.notReady _)), .queue => True
  | .commit key, .ruleset (.ok _), .draft k
  | .commit key, .ruleset (.ok _), .committed k => k = key
  | .getActive _ entity, .score (.ok _), .history e | .refresh entity, .score (.ok _), .history e
  | .override _ entity _ _, .score (.ok _), .history e => e = entity
  | .getActive _ _, .score (.ok _), .queue => True
  | _, _, _ => False

theorem surroundings_of_act (w : World Memory) (served : request.Served) :
    surroundings (request.act c w).2 = surroundings w := by
  have quiet : World.Quiet surroundings := fun _ _ _ _ _ => rfl
  cases request with
  | create request => exact Workflow.create_keeps quiet (fun _ _ _ => rfl) w
  | prepare key => exact Workflow.prepare_keeps quiet (fun _ _ => rfl) (fun _ _ => rfl) w
  | commit key => exact Workflow.commit_keeps quiet (fun _ => rfl) w
  | get key status => exact Workflow.get_keeps quiet w
  | list organization => exact Workflow.list_keeps quiet w
  | getActive policy entity =>
    exact Lifecycle.getActive_keeps quiet (fun _ _ _ => rfl) (fun _ => rfl) w
  | refresh entity => exact Lifecycle.refresh_keeps quiet (fun _ _ _ => rfl) w
  | override actor entity value staleAt =>
    exact Lifecycle.override_keeps quiet (fun _ _ _ => rfl) w
  | history entity => exact Lifecycle.history_keeps quiet w
  | work | markPending | markReady | putEntity => exact served.elim

section Frame

variable {place : Place} (around : surroundings after = surroundings w)
include around

theorem same_of_untouched (untouched : Untouched w after) (place : Place) : place.Same w after := by
  obtain ⟨store, jobs⟩ := untouched
  cases place with
  | draft | committed | history | index => simp only [Place.Same, store]
  | queue => exact jobs
  | surroundings => exact around

theorem same_of_drafted {key : PairKey} {ruleset : Ruleset} (drafted : Drafted key ruleset w after)
    (elsewhere : place ≠ .draft key) : place.Same w after := by
  obtain ⟨-, -, store, jobs⟩ := drafted
  cases place with
  | draft other =>
    have different : other ≠ key := fun same => elsewhere (congrArg Place.draft same)
    rw [Place.Same, store, Slots.get?_put, if_neg different]
  | committed | history | index => rw [Place.Same, store] <;> rfl
  | queue => exact jobs
  | surroundings => exact around

theorem same_of_moved {key : PairKey} {ruleset : Ruleset} (moved : Moved key ruleset w after)
    (elsewhere : place ≠ .draft key ∧ place ≠ .committed key) : place.Same w after := by
  obtain ⟨-, store, jobs⟩ := moved
  cases place with
  | draft other =>
    have different : other ≠ key := fun same => elsewhere.1 (congrArg Place.draft same)
    rw [Place.Same, store, Slots.get?_remove, if_neg different]
  | committed other =>
    have different : other ≠ key := fun same => elsewhere.2 (congrArg Place.committed same)
    rw [Place.Same, store, Slots.get?_put, if_neg different]
  | history | index => rw [Place.Same, store]; rfl
  | queue => exact jobs
  | surroundings => exact around

theorem same_of_rescored {entity : EntityRef} {score : Score}
    (rescored : Rescored entity score w after) (elsewhere : place ≠ .history entity) :
    place.Same w after := by
  obtain ⟨⟨-, others, rest⟩, jobs⟩ := rescored
  cases place with
  | history other => exact others other fun same => elsewhere (congrArg Place.history same)
  | draft | committed | index => rw [Place.Same, rest] <;> rfl
  | queue => exact jobs
  | surroundings => exact around

theorem same_of_queued {entity : EntityRef} (queued : World.Queued entity w after)
    (elsewhere : place ≠ .queue) : place.Same w after := by
  obtain ⟨store, -⟩ := queued
  cases place with
  | draft | committed | history | index => simp only [Place.Same, store]
  | queue => exact absurd rfl elsewhere
  | surroundings => exact around

theorem same_of_asked {organization : String} {missing : List IndexSpec}
    (asked : Asked organization missing w after) (elsewhere : place ≠ .queue)
    (unmarked : ∀ i ∈ missing, place ≠ .index organization i) : place.Same w after := by
  obtain ⟨-, -, states, rest, -⟩ := asked
  cases place with
  | draft | committed | history => rw [Place.Same, rest] <;> rfl
  | index owner i =>
    rw [Place.Same, states, if_neg]
    rintro ⟨rfl, mem⟩
    exact unmarked i mem rfl
  | queue => exact absurd rfl elsewhere
  | surroundings => exact around

/-- **What a request leaves alone.** A place that a request does not write to is the same after
it. -/
theorem frame_of_effect (effect : Effect w after request answer)
    (unwritten : ¬Writes request answer place) : place.Same w after := by
  have untouched : Untouched w after → place.Same w after :=
    fun untouched => same_of_untouched around untouched place
  -- Only where something has been written is there a place to tell from it.
  unfold Effect at effect
  split at effect
  · rename_i request r
    cases r with
    | ok ruleset => exact same_of_drafted around effect fun here => unwritten (here ▸ rfl)
    | error e => exact untouched effect
  · rename_i key pending
    rcases effect with nothing | ⟨missing, among, asked⟩
    · exact untouched nothing
    · exact same_of_asked around asked (fun here => unwritten (here ▸ trivial))
        fun i mem here => unwritten (here ▸ ⟨rfl, among mem⟩)
  · rename_i key r
    cases r with
    | ok ruleset =>
      exact same_of_moved around effect
        ⟨fun here => unwritten (here ▸ rfl), fun here => unwritten (here ▸ rfl)⟩
    | error e => exact untouched effect
  · rename_i policy entity r
    cases r with
    | ok score =>
      rcases effect with rescored | queued | nothing
      · exact same_of_rescored around rescored fun here => unwritten (here ▸ rfl)
      · exact same_of_queued around queued fun here => unwritten (here ▸ trivial)
      · exact untouched nothing
    | error e => exact untouched effect
  · rename_i entity r
    cases r with
    | ok score => exact same_of_rescored around effect fun here => unwritten (here ▸ rfl)
    | error e => exact untouched effect
  · rename_i actor entity value staleAt r
    cases r with
    | ok score => exact same_of_rescored around effect fun here => unwritten (here ▸ rfl)
    | error e => exact untouched effect
  · exact untouched effect

end Frame

end Tenants

/-! ### Committed rulesets -/

namespace Session

variable {c : Settings} {key : PairKey} {step : Step} {w : World Memory}

/-- The step: only a commit of its pair that succeeds changes a committed ruleset. -/
theorem committed_of_uncommitted (uncommitted : commits key step w = false) :
    Slots.get? key (step.after c w).store.committed = Slots.get? key w.store.committed := by
  cases step with
  | commit other =>
    rw [Step.after]
    cases ran : Workflow.commit Memory.backend other w with
    | mk r after =>
      cases r with
      | error e => rw [Workflow.commit_atomic ran]
      | ok ruleset =>
        obtain ⟨-, -, -, store⟩ := Workflow.store_of_commit ran
        have different : key ≠ other := by
          rintro rfl
          simp [commits, ran] at uncommitted
        rw [store, Slots.get?_put, if_neg different]
  | _ => rw [after_committed c w (by simp)]

/-- Only commits of its pair that succeed change a committed ruleset. -/
theorem committed_of_run {steps : List Step}
    (uncommitted : occurrences c (commits key) steps w = 0) :
    Slots.get? key (run c steps w).store.committed = Slots.get? key w.store.committed := by
  induction steps generalizing w with
  | nil => rfl
  | cons step rest ih =>
    obtain ⟨here, later⟩ := occurrences_cons_eq_zero_iff.mp uncommitted
    exact (ih later).trans (committed_of_uncommitted here)

end Session

/-! ### Write footprints -/

namespace Tenants

open Session (Settings)

/-- The answer is an error. -/
def Answer.Failed : Answer → Prop
  | .ruleset (.error _) | .report (.error _) | .held (.error _) | .rulesets (.error _)
  | .score (.error _) | .scores (.error _) | .worked (.error _) | .marked (.error _) => True
  | _ => False

/-- A request that fails has written nothing, unless it was to prepare a draft and has said which
indexes are not ready. -/
theorem untouched_of_failed {w after : World Memory} {request : Request} {answer : Answer}
    (effect : Effect w after request answer) (failed : answer.Failed)
    (other : ∀ pending, answer ≠ .report (.error (.notReady pending))) :
    World.Untouched w after := by
  unfold Effect at effect
  split at effect
  case h_2 => exact absurd rfl (other _)
  case h_7 => exact effect
  -- Every other row is one of a request that writes nothing if it fails.
  all_goals
    rename_i r
    cases r with
    | ok a => exact failed.elim
    | error e => exact effect

/-- **Write footprints.** In any world in which no mark on indexes is planned to fail, a request
that the services take has exactly its effect, writes to no place but its own, and if it fails
writes to none, unless it was to prepare a draft whose indexes are not ready. So over any session
only a commit of its pair that succeeds changes a committed ruleset; and while nothing is committed
and no job is done, leaving out all requests but those about scores, drafts being created and
prepared among them, changes no answer to these. -/
theorem write_footprint (c : Settings) :
    (∀ (w : World Memory) (request : Request), request.Served →
      PlannedFailure.take? .markPending w.planned = none →
      Effect w (request.act c w).2 request (request.act c w).1 ∧
      (∀ place, ¬Writes request (request.act c w).1 place → place.Same w (request.act c w).2) ∧
      ((request.act c w).1.Failed →
        (∀ pending, (request.act c w).1 ≠ .report (.error (.notReady pending))) →
        World.Untouched w (request.act c w).2)) ∧
    (∀ (key : PairKey) (steps : List Session.Step) (w : World Memory),
      Session.occurrences c (Session.commits key) steps w = 0 →
      Slots.get? key (Session.run c steps w).store.committed
        = Slots.get? key w.store.committed) ∧
    ∀ (w : World Memory) (events : List Event), w.Calm →
      (∀ event ∈ events, event.commitsOrWorks = false) →
      scoreAnswers c (events.filter Event.scores) w = scoreAnswers c events w := by
  refine ⟨fun w request served unplanned => ?_, fun _ _ _ => Session.committed_of_run,
    fun _ _ calm still => scoreAnswers_filter c calm still⟩
  have effect := effect_of_act (c := c) served unplanned
  exact ⟨effect, fun _ => frame_of_effect (surroundings_of_act w served) effect,
    untouched_of_failed effect⟩

/-! ### Drafts beside a ruleset in use -/

open Session.Sample (request settings entity pair world riskRequest)

/-- A ruleset has been put into use, and there is data of an entity. -/
def Sample.inUse : World Memory :=
  run settings [.ask (Sample.ids "a") (.create request), .ask (Sample.ids "b") (.commit pair),
    .ask (Sample.ids "c") (.putEntity entity Facts.empty.toEnvironment)] world

/-- A score is asked for before and after a draft that needs an index is created and prepared. -/
def Sample.drafting : List Event :=
  [.ask (Sample.ids "d") (.getActive ⟨none, false⟩ entity),
    .ask (Sample.ids "e") (.create (riskRequest "account")),
    .ask (Sample.ids "f") (.prepare pair), .advance 3601000000000,
    .ask (Sample.ids "g") (.getActive ⟨none, false⟩ entity)]

/-- Preparing the draft queues a job for the index and changes no ruleset and no history; the
ruleset in use stays what it was; and the scores are those that are given without the draft. -/
theorem write_footprint_drafting : ∃ drafted report after,
    drafted = run settings [.ask (Sample.ids "e") (.create (riskRequest "account"))] Sample.inUse ∧
    Request.act settings drafted (.prepare pair) = (report, after) ∧
    report = .report (.error (.notReady [Lookup.risk])) ∧
    (World.Untouched drafted after ∨ ∃ missing, missing ⊆ [Lookup.risk] ∧
      World.Asked "acme" missing drafted after) ∧
    after.jobs = [.createIndexes "acme" [Lookup.risk]] ∧
    Place.Same drafted after (.draft pair) ∧ Place.Same drafted after (.history entity) ∧
    Slots.get? pair (Session.run settings [.create (riskRequest "account"), .prepare pair]
        Sample.inUse).store.committed = Slots.get? pair Sample.inUse.store.committed ∧
    scoreAnswers settings (Sample.drafting.filter Event.scores) Sample.inUse =
      scoreAnswers settings Sample.drafting Sample.inUse ∧
    (Sample.drafting.filter Event.scores).length = 3 ∧
    (scoreAnswers settings Sample.drafting Sample.inUse).length = 2 := by
  have calm : Sample.inUse.Calm :=
    calm_after _ (calm_after _ (calm_after _ (World.calm_fresh _ _)))
  obtain ⟨frame, kept, same⟩ := write_footprint settings
  obtain ⟨effect, elsewhere, -⟩ := frame
    (run settings [.ask (Sample.ids "e") (.create (riskRequest "account"))] Sample.inUse)
    (.prepare pair) trivial rfl
  refine ⟨_, _, _, rfl, rfl, rfl, effect, rfl, elsewhere _ nofun, elsewhere _ nofun,
    kept pair _ _ rfl, same _ _ calm ?_, rfl, rfl⟩
  decide

end Tenants

end RiskRules
