import RiskRules.Proofs.Action
import RiskRules.Proofs.Slots
import RiskRules.Store.Memory
import RiskRules.World

/-!
Calls on a store in memory. A call either meets a failure planned for it, and then the store has not
been asked, or does what the store does (`World.call_cases`); so reading calls keep every part of
the world that is about more than counts and plans (`World.Quiet`), and a writing call that fails
has written nothing.
-/

namespace RiskRules

/-! ### Histories -/

/-- The score once there is a newer one. -/
def Score.superseded (s : Score) : Score :=
  { s with isCurrent := false }

/-! ### The store in memory -/

namespace Memory

variable {m : Memory}

/-- The slots of drafts and of committed rulesets. -/
def rulesets (m : Memory) : List (PairKey × Ruleset) × List (PairKey × Ruleset) :=
  (m.drafts, m.committed)

/-- Putting a draft in its place changes drafts alone. -/
theorem replaceDraft_eq (ruleset : Ruleset) (m : Memory) : (replaceDraft ruleset m).2
    = { m with drafts := (replaceDraft ruleset m).2.drafts } := by
  rw [replaceDraft]
  split <;> rfl

/-- Committing a draft changes rulesets alone. -/
theorem commitDraft_eq (key : PairKey) (m : Memory) : (commitDraft key m).2
    = { m with
        drafts := (commitDraft key m).2.drafts
        committed := (commitDraft key m).2.committed } := by
  rw [commitDraft]
  split <;> rfl

/-- Marking an index as pending changes index states alone. -/
theorem markPending_eq (organization : String) (m : Memory) (i : IndexSpec) :
    markPending organization m i
      = { m with indexes := (markPending organization m i).indexes } := by
  unfold markPending
  split <;> rfl

/-- The current score is one of the scores. -/
theorem currentScore_of_scores {m' : Memory} (same : m'.scores = m.scores) (entity : EntityRef) :
    m'.currentScore entity = m.currentScore entity := by
  rw [currentScore, currentScore, history, history, same]

/-- A score has been put in front of the history of its entity as the only current one, and nothing
else in the store has changed. -/
structure Prepended (entity : EntityRef) (score : Score) (m m' : Memory) : Prop where
  history : m'.history entity = score :: (m.history entity).map Score.superseded
  others : ∀ other ≠ entity, m'.history other = m.history other
  rest : m' = { m with scores := m'.scores }

theorem prepended_insertScore {entity : EntityRef} {score : Score} (owned : score.entity = entity)
    (current : score.isCurrent = true) : Prepended entity score m (insertScore score m).2 := by
  subst owned
  obtain ⟨id, owner, value, source, version, actor, staleAt, createdAt, _⟩ := score
  subst current
  refine ⟨?_, fun other different => ?_, rfl⟩
  · rw [Memory.history, insertScore, Slots.get?_put, if_pos rfl]
    rfl
  · rw [Memory.history, insertScore, Slots.get?_put, if_neg different]
    rfl

/-- A score put in front as the current one is the current one of its entity and of no other. -/
theorem currentScore_of_inserted {m' : Memory} {score : Score} {owner : EntityRef}
    (owned : score.entity = owner) (current : score.isCurrent = true)
    (inserted : m' = (insertScore score m).2) (entity : EntityRef) :
    m'.currentScore entity = if owner = entity then some score else m.currentScore entity := by
  subst inserted
  have prepended := prepended_insertScore (m := m) owned current
  by_cases asked : owner = entity
  · subst asked
    rw [if_pos rfl, currentScore, prepended.history, List.find?_cons_of_pos current]
  · rw [if_neg asked, currentScore, prepended.others entity (Ne.symm asked), currentScore]

end Memory

/-! ### Calls -/

namespace World

variable {σ α γ : Type} {c : Call} {op : Action σ StoreError α} {w after : World σ}
  {r : Except StoreError α}

theorem call_cases (ran : call c op w = (r, after)) :
    (∃ e planned, PlannedFailure.take? c w.planned = some (e, planned) ∧ r = .error e ∧
      after = { w with planned }) ∨
    PlannedFailure.take? c w.planned = none ∧
      ∃ store, op w.store = (r, store) ∧ after = { w with store } := by
  rw [call] at ran
  split at ran
  · rename_i e planned taken
    obtain ⟨rfl, rfl⟩ := Prod.mk.inj ran
    exact .inl ⟨e, planned, taken, rfl, rfl⟩
  · rename_i untaken
    obtain ⟨rfl, rfl⟩ := Prod.mk.inj ran
    exact .inr ⟨untaken, _, rfl, rfl⟩

/-- A call that gives something has done what its operation does. -/
theorem call_eq_ok {a : α} (ran : call c op w = (.ok a, after)) :
    ∃ store, op w.store = (.ok a, store) ∧ after = { w with store } := by
  rcases call_cases ran with ⟨_, _, _, failed, _⟩ | ⟨-, done⟩
  · cases failed
  · exact done

/-- A call leaves the store as it is or does what its operation does. -/
theorem store_of_call (c : Call) (op : Action σ StoreError α) (w : World σ) :
    (call c op w).2.store = w.store ∨ (call c op w).2.store = (op w.store).2 := by
  rcases call_cases (Prod.eta (call c op w)).symm with ⟨_, _, -, -, same⟩ | ⟨-, store, done, same⟩
  · rw [same]
    exact .inl rfl
  · rw [same, done]
    exact .inr rfl

/-- A part of the world that no reading changes: reading uses up planned failures and short answers,
draws ids and counts lookups. -/
def Quiet (part : World σ → γ) : Prop :=
  ∀ w planned shortAnswers drawn lookups,
    part { w with planned, shortAnswers, drawn, lookups } = part w

theorem quiet_store : Quiet (World.store : World σ → σ) :=
  fun _ _ _ _ _ => rfl

theorem quiet_jobs : Quiet (World.jobs : World σ → List Job) :=
  fun _ _ _ _ _ => rfl

theorem quiet_of_store (part : σ → γ) : Quiet fun w : World σ => part w.store :=
  fun _ _ _ _ _ => rfl

/-- A call keeps what the writing of its operation keeps. -/
theorem call_keeps {part : World σ → γ} (quiet : Quiet part)
    (writes : ∀ w, part { w with store := (op w.store).2 } = part w) :
    (call c op).Keeps part := by
  intro w
  cases ran : call c op w with
  | mk r after =>
    rcases call_cases ran with ⟨e, planned, -, -, rfl⟩ | ⟨-, store, done, rfl⟩
    · exact quiet w planned w.shortAnswers w.drawn w.lookups
    · have written := writes w
      rwa [done] at written

theorem call_atomic (atomic : op.Atomic id) :
    (call c op : Action (World σ) StoreError α).Atomic World.store := by
  intro w e after ran
  rcases call_cases ran with ⟨_, planned, -, -, rfl⟩ | ⟨-, store, done, rfl⟩
  · rfl
  · exact atomic done

theorem read_keeps {part : World σ → γ} (quiet : Quiet part) {f : σ → α} :
    (call c (Action.view f) : Action (World σ) StoreError α).Keeps part :=
  call_keeps quiet fun _ => rfl

/-- A reading call that gives something gives what the store holds. -/
theorem eq_of_read {f : σ → α} {a : α}
    (ran : call c (Action.view f) w = (.ok a, after)) : a = f w.store ∧ after = w := by
  obtain ⟨store, done, rfl⟩ := call_eq_ok ran
  obtain ⟨given, rfl⟩ := Prod.mk.inj done
  exact ⟨(Except.ok.inj given).symm, rfl⟩

/-- A call for which no failure is planned does what its operation does. -/
theorem call_of_unplanned (unplanned : PlannedFailure.take? c w.planned = none) :
    call c op w = ((op w.store).1, { w with store := (op w.store).2 }) := by
  rw [call, unplanned]

/-- A reading call for which no failure is planned gives what the store holds. -/
theorem read_of_unplanned {f : σ → α} (unplanned : PlannedFailure.take? c w.planned = none) :
    call c (Action.view f) w = (.ok (f w.store), w) :=
  call_of_unplanned unplanned

/-- What no mark on an index changes is not changed by marks on many. -/
theorem foldl_marks {part : World Memory → γ} {mark : Memory → IndexSpec → Memory}
    (marks : ∀ w i, part { w with store := mark w.store i } = part w) (indexes : List IndexSpec)
    (w : World Memory) : part { w with store := indexes.foldl mark w.store } = part w := by
  induction indexes generalizing w with
  | nil => rfl
  | cons i rest ih => exact (ih { w with store := mark w.store i }).trans (marks w i)

/-! ### Writing calls -/

section Writing

variable {w after : World Memory} {key : PairKey} {ruleset : Ruleset} {score stored : Score}

theorem replaceDraft_atomic : (World.replaceDraft Memory.backend ruleset).Atomic World.store := by
  refine call_atomic fun m e m' failed => ?_
  simp only [Memory.backend, Memory.replaceDraft] at failed
  split at failed
  · cases failed
  · exact (Prod.mk.inj failed).2.symm

theorem store_of_replaceDraft
    (ran : World.replaceDraft Memory.backend ruleset w = (.ok (), after)) :
    after.store = { w.store with drafts := Slots.put ruleset.key ruleset w.store.drafts } := by
  obtain ⟨m, done, rfl⟩ := call_eq_ok ran
  simp only [Memory.backend, Memory.replaceDraft] at done
  split at done
  · exact (Prod.mk.inj done).2.symm
  · cases done

theorem commitDraft_atomic : (World.commitDraft Memory.backend key).Atomic World.store := by
  refine call_atomic fun m e m' failed => ?_
  simp only [Memory.backend, Memory.commitDraft] at failed
  split at failed
  · exact (Prod.mk.inj failed).2.symm
  · cases failed

theorem store_of_commitDraft
    (ran : World.commitDraft Memory.backend key w = (.ok ruleset, after)) :
    ∃ draft, Slots.get? key w.store.drafts = some draft ∧
      ruleset = { draft with status := .committed } ∧
      after.store = { w.store with
        drafts := Slots.remove key w.store.drafts
        committed := Slots.put key ruleset w.store.committed } := by
  obtain ⟨m, done, rfl⟩ := call_eq_ok ran
  simp only [Memory.backend, Memory.commitDraft] at done
  split at done
  · cases done
  · rename_i draft held
    obtain ⟨given, rfl⟩ := Prod.mk.inj done
    obtain rfl := Except.ok.inj given
    exact ⟨draft, held, rfl, rfl⟩

theorem insertScore_atomic : (World.insertScore Memory.backend score).Atomic World.store := by
  refine call_atomic fun m e m' failed => ?_
  cases failed

theorem eq_of_insertScore
    (ran : World.insertScore Memory.backend score w = (.ok stored, after)) :
    stored = { score with isCurrent := true } ∧
      after = { w with store := (Memory.insertScore score w.store).2 } := by
  obtain ⟨m, done, rfl⟩ := call_eq_ok ran
  obtain ⟨given, rfl⟩ := Prod.mk.inj done
  exact ⟨(Except.ok.inj given).symm, rfl⟩

end Writing

/-! ### Calls that gave something -/

section Given

variable {actor : String} {allowed : List String} {entity : EntityRef}

theorem eq_of_authorize (ran : authorize allowed actor w = (.ok (), after)) :
    actor ∈ allowed ∧ after = w := by
  rw [authorize] at ran
  split at ran
  · cases ran
  · obtain ⟨given, rfl⟩ := Prod.mk.inj ran
    split at given
    · rename_i known
      exact ⟨known, rfl⟩
    · cases given

theorem eq_of_entityExists {known : Bool} (ran : entityExists entity w = (.ok known, after)) :
    known = (Slots.get? entity w.entities).isSome ∧ after = w := by
  rw [entityExists] at ran
  split at ran
  · cases ran
  · cases ran
    exact ⟨rfl, rfl⟩

theorem eq_of_environmentFor {env : Environment}
    (ran : environmentFor entity w = (.ok env, after)) :
    Slots.get? entity w.entities = some env ∧ after = { w with lookups := w.lookups + 1 } := by
  rw [environmentFor] at ran
  split at ran
  · cases ran
  · split at ran
    · cases ran
    · rename_i found
      cases ran
      exact ⟨found, rfl⟩

end Given

/-! ### Calls that cannot fail -/

theorem take?_of_unfailing (unfailing : w.planned = []) (c : Call) :
    PlannedFailure.take? c w.planned = none := by
  rw [unfailing]
  rfl

theorem authorize_of_unfailing (unfailing : w.planned = []) (allowed : List String)
    (actor : String) : authorize allowed actor w =
      (if actor ∈ allowed then .ok () else .error (.denied actor), w) := by
  rw [authorize, take?_of_unfailing unfailing]

theorem entityExists_of_unfailing (unfailing : w.planned = []) (entity : EntityRef) :
    entityExists entity w = (.ok (Slots.get? entity w.entities).isSome, w) := by
  rw [entityExists, take?_of_unfailing unfailing]

theorem environmentFor_of_unfailing {entity : EntityRef} (unfailing : w.planned = []) :
    environmentFor entity w = match Slots.get? entity w.entities with
      | some env => (.ok env, { w with lookups := w.lookups + 1 })
      | none => (.error (.notFound entity), w) := by
  rw [environmentFor, take?_of_unfailing unfailing]
  cases Slots.get? entity w.entities <;> rfl

theorem enqueue_of_taken (job : Job) (taken : w.refusal = none) :
    enqueue job w = (.ok (), { w with jobs := w.jobs ++ [job] }) := by
  rw [enqueue]
  split
  · rename_i refused
    cases refused.symm.trans taken
  · rfl

theorem enqueue_of_refused (job : Job) {text : String}
    (refused : w.refusal = some text) : enqueue job w = (.error ⟨text⟩, w) := by
  rw [enqueue, refused]

/-! ### Calls that read -/

section Reading

variable {part : World σ → γ}

theorem indexStates_keeps (quiet : Quiet part) {b : Backend σ} {organization : String}
    {indexes : List IndexSpec} (keeps : (b.indexStates organization indexes).Keeps id) :
    (indexStates b organization indexes).Keeps part := by
  intro w
  have same : ∀ w : World σ, (b.indexStates organization indexes w.store).2 = w.store :=
    fun w => keeps w.store
  have kept := call_keeps (c := .indexStates) quiet (fun w => by rw [same w]) w
  rw [indexStates]
  split
  · rename_i r after ran
    rw [ran] at kept
    split
    · exact kept
    · exact (quiet after after.planned _ after.drawn after.lookups).trans kept

theorem drawId_keeps (quiet : Quiet part) {ε : Type} :
    (drawId : Action (World σ) ε String).Keeps part :=
  fun w => quiet w w.planned w.shortAnswers _ w.lookups

theorem authorize_keeps (quiet : Quiet part) (allowed : List String) (actor : String) :
    (authorize allowed actor : Action (World σ) AuthorizationError Unit).Keeps part := by
  intro w
  rw [authorize]
  split
  · exact quiet w _ w.shortAnswers w.drawn w.lookups
  · rfl

theorem entityExists_keeps (quiet : Quiet part) (entity : EntityRef) :
    (entityExists entity : Action (World σ) DataError Bool).Keeps part := by
  intro w
  rw [entityExists]
  split
  · exact quiet w _ w.shortAnswers w.drawn w.lookups
  · rfl

theorem environmentFor_keeps (quiet : Quiet part) (entity : EntityRef) :
    (environmentFor entity : Action (World σ) DataError Environment).Keeps part := by
  intro w
  rw [environmentFor]
  split
  · exact quiet w _ w.shortAnswers w.drawn w.lookups
  · split
    · rfl
    · exact quiet w w.planned w.shortAnswers w.drawn _

/-- Queueing a job keeps what the job at the end of the queue keeps. -/
theorem enqueue_keeps {job : Job}
    (queues : ∀ w, part { w with jobs := w.jobs ++ [job] } = part w) :
    (enqueue job : Action (World σ) QueueError Unit).Keeps part := by
  intro w
  rw [enqueue]
  split
  · rfl
  · exact queues w

end Reading

end World

end RiskRules
