import RiskRules.Proofs.Calls

/-!
What belongs to one organization. Drafts, committed rulesets, scores, index states, data and jobs
are all filed under an organization, and what a store does for one organization it does to the part
of the store that belongs to it and to nothing else. So a call for an organization tells two worlds
apart only by the organization's share of them (`World.Alike`).
-/

namespace RiskRules

/-! ### Whose it is -/

/-- The organization that a job is for. -/
def Job.organization : Job → String
  | .recomputeScore entity => entity.organization
  | .createIndexes organization _ => organization

/-- Something belongs to an organization, going by the owner that it names. -/
def belongs {α : Type} (owner : α → String) (organization : String) (a : α) : Bool :=
  owner a == organization

section Belonging

variable {α : Type} {owner : α → String} {organization : String} {a : α}

theorem belongs_eq_true (owned : owner a = organization) : belongs owner organization a = true :=
  beq_iff_eq.mpr owned

theorem belongs_eq_false (foreign : owner a ≠ organization) :
    belongs owner organization a = false :=
  beq_eq_false_iff_ne.mpr foreign

end Belonging

/-! ### Shares of a store -/

namespace Memory

variable {organization : String} {m : Memory} {key : PairKey} {entity : EntityRef}

/-- The part of a store that belongs to an organization. -/
def ownedBy (organization : String) (m : Memory) : Memory where
  drafts := Slots.within (belongs PairKey.organization organization) m.drafts
  committed := Slots.within (belongs PairKey.organization organization) m.committed
  scores := Slots.within (belongs EntityRef.organization organization) m.scores
  indexes := Slots.within (belongs Prod.fst organization) m.indexes

/-- Every score is filed under its own entity. -/
def Filed (m : Memory) : Prop :=
  ∀ entity, ∀ s ∈ m.history entity, s.entity = entity

/-- An operation for an organization: it gives what it gives on the organization's part of the
store, does to that part what it does to it alone, and leaves scores under their own entities. -/
structure Confined {α : Type} (organization : String) (op : Action Memory StoreError α) : Prop where
  commutes : ∀ m, op (m.ownedBy organization) = ((op m).1, (op m).2.ownedBy organization)
  files : ∀ m, m.Filed → (op m).2.Filed

theorem confined_view {α : Type} {f : Memory → α}
    (same : ∀ m : Memory, f (m.ownedBy organization) = f m) :
    Confined organization (Action.view f) where
  commutes m := congrArg (fun a => (Except.ok a, m.ownedBy organization)) (same m)
  files _ filed := filed

/-! #### Rulesets -/

theorem draft_ownedBy (owned : key.organization = organization) :
    Slots.get? key (m.ownedBy organization).drafts = Slots.get? key m.drafts :=
  Slots.get?_within (belongs_eq_true owned)

theorem committed_ownedBy (owned : key.organization = organization) :
    Slots.get? key (m.ownedBy organization).committed = Slots.get? key m.committed :=
  Slots.get?_within (belongs_eq_true owned)

theorem list_ownedBy : (m.ownedBy organization).list organization = m.list organization := by
  simp [list, ownedBy, Slots.within, belongs, List.filter_append, List.filter_filter]

theorem confined_replaceDraft {ruleset : Ruleset} (owned : ruleset.key.organization = organization) :
    Confined organization (replaceDraft ruleset) where
  commutes m := by
    rw [replaceDraft, replaceDraft]
    split
    · simp only [ownedBy, Slots.within_put (belongs_eq_true owned)]
    · rfl
  files m filed := by
    rw [replaceDraft]
    split <;> exact filed

theorem confined_commitDraft (owned : key.organization = organization) :
    Confined organization (commitDraft key) where
  commutes m := by
    rw [commitDraft, commitDraft, draft_ownedBy owned]
    split
    · rfl
    · simp only [ownedBy, Slots.within_put (belongs_eq_true owned), Slots.within_remove]
  files m filed := by
    rw [commitDraft]
    split <;> exact filed

/-! #### Scores -/

theorem history_ownedBy (owned : entity.organization = organization) :
    (m.ownedBy organization).history entity = m.history entity := by
  rw [history, history, ownedBy, Slots.get?_within (belongs_eq_true owned)]

theorem currentScore_ownedBy (owned : entity.organization = organization) :
    (m.ownedBy organization).currentScore entity = m.currentScore entity := by
  rw [currentScore, currentScore, history_ownedBy owned]

theorem Filed.insertScore (filed : m.Filed) (score : Score) : (insertScore score m).2.Filed := by
  intro entity s mem
  rw [history, Memory.insertScore, Slots.get?_put] at mem
  split at mem
  · rename_i asked
    subst asked
    rcases List.mem_cons.mp mem with rfl | older
    · rfl
    · obtain ⟨s, before, rfl⟩ := List.mem_map.mp older
      exact filed score.entity s before
  · exact filed entity s mem

theorem confined_insertScore {score : Score} (owned : score.entity.organization = organization) :
    Confined organization (insertScore score) where
  commutes m := by
    rw [insertScore, insertScore, history_ownedBy owned]
    simp only [ownedBy, Slots.within_put (belongs_eq_true owned)]
  files _ filed := filed.insertScore score

/-! #### Indexes -/

theorem indexState_ownedBy (i : IndexSpec) :
    (m.ownedBy organization).indexState organization i = m.indexState organization i := by
  rw [indexState, indexState, ownedBy, Slots.get?_within (belongs_eq_true rfl)]

/-- A mark on an index of an organization. -/
structure ConfinedMark (organization : String) (mark : Memory → IndexSpec → Memory) : Prop where
  commutes : ∀ m i, mark (m.ownedBy organization) i = (mark m i).ownedBy organization
  scores : ∀ m i, (mark m i).scores = m.scores

theorem confined_markPending : ConfinedMark organization (markPending organization) where
  commutes m i := by
    have inside : belongs Prod.fst organization (organization, i) = true := belongs_eq_true rfl
    rw [markPending, markPending, indexState_ownedBy]
    split
    · simp only [ownedBy, Slots.within_put inside]
    · rfl
  scores m i := by rw [markPending_eq]

theorem confined_markReady : ConfinedMark organization (markReady organization) where
  commutes m i := by
    have inside : belongs Prod.fst organization (organization, i) = true := belongs_eq_true rfl
    simp only [markReady, ownedBy, Slots.within_put inside]
  scores _ _ := rfl

theorem ConfinedMark.foldl {mark : Memory → IndexSpec → Memory}
    (marks : ConfinedMark organization mark) (indexes : List IndexSpec) (m : Memory) :
    indexes.foldl mark (m.ownedBy organization) = (indexes.foldl mark m).ownedBy organization ∧
      (indexes.foldl mark m).scores = m.scores := by
  induction indexes generalizing m with
  | nil => exact ⟨rfl, rfl⟩
  | cons i rest ih =>
    rw [List.foldl_cons, List.foldl_cons, marks.commutes]
    obtain ⟨commutes, scores⟩ := ih (mark m i)
    exact ⟨commutes, scores.trans (marks.scores m i)⟩

theorem ConfinedMark.confined {mark : Memory → IndexSpec → Memory}
    (marks : ConfinedMark organization mark) (indexes : List IndexSpec) :
    Confined organization (Action.update fun m => indexes.foldl mark m) where
  commutes m := congrArg (Prod.mk (Except.ok ())) (marks.foldl indexes m).1
  files m filed entity s mem := by
    have same : (indexes.foldl mark m).history entity = m.history entity := by
      rw [history, history, (marks.foldl indexes m).2]
    exact filed entity s (same ▸ mem)

/-! #### What is done for others -/

theorem ownedBy_replaceDraft {ruleset : Ruleset} (foreign : ruleset.key.organization ≠ organization) :
    (replaceDraft ruleset m).2.ownedBy organization = m.ownedBy organization := by
  rw [replaceDraft]
  split
  · simp only [ownedBy, Slots.within_put_outside (belongs_eq_false foreign)]
  · rfl

theorem ownedBy_commitDraft (foreign : key.organization ≠ organization) :
    (commitDraft key m).2.ownedBy organization = m.ownedBy organization := by
  rw [commitDraft]
  split
  · rfl
  · simp only [ownedBy, Slots.within_put_outside (belongs_eq_false foreign),
      Slots.within_remove_outside (belongs_eq_false foreign)]

theorem ownedBy_insertScore {score : Score} (foreign : score.entity.organization ≠ organization) :
    (insertScore score m).2.ownedBy organization = m.ownedBy organization := by
  rw [insertScore]
  simp only [ownedBy, Slots.within_put_outside (belongs_eq_false foreign)]

theorem ownedBy_markPending {owner : String} (foreign : owner ≠ organization) (i : IndexSpec) :
    (markPending owner m i).ownedBy organization = m.ownedBy organization := by
  have outside : belongs Prod.fst organization (owner, i) = false := belongs_eq_false foreign
  rw [markPending]
  split
  · simp only [ownedBy, Slots.within_put_outside outside]
  · rfl

theorem ownedBy_markReady {owner : String} (foreign : owner ≠ organization) (i : IndexSpec) :
    (markReady owner m i).ownedBy organization = m.ownedBy organization := by
  have outside : belongs Prod.fst organization (owner, i) = false := belongs_eq_false foreign
  simp only [markReady, ownedBy, Slots.within_put_outside outside]

end Memory

/-! ### Shares of a world -/

/-- What an organization can tell of a world: its parts of the store, of the queue and of the data,
whether the queue takes jobs, and the time. -/
structure Share where
  store : Memory
  jobs : List Job
  entities : List (EntityRef × Environment)
  refusal : Option String
  now : Timestamp

namespace World

variable {organization : String} {w u : World Memory} {entity : EntityRef}

/-- The share of an organization in a world. -/
def share (organization : String) (w : World Memory) : Share where
  store := w.store.ownedBy organization
  jobs := w.jobs.filter (belongs Job.organization organization)
  entities := Slots.within (belongs EntityRef.organization organization) w.entities
  refusal := w.refusal
  now := w.now

theorem quiet_share (organization : String) : Quiet (share organization) :=
  fun _ _ _ _ _ => rfl

/-- No call is planned to fail, no answer to be short, and every score is filed under its own
entity. -/
def Calm (w : World Memory) : Prop :=
  w.planned = [] ∧ w.shortAnswers = 0 ∧ w.store.Filed

theorem calm_fresh (now : Timestamp) (ids : Nat → String) : (fresh Memory.empty now ids).Calm :=
  ⟨rfl, rfl, fun _ _ mem => by cases mem⟩

theorem Calm.filed (calm : w.Calm) : w.store.Filed :=
  calm.2.2

theorem Calm.unplanned (calm : w.Calm) (c : Call) : PlannedFailure.take? c w.planned = none :=
  take?_of_unfailing calm.1 c

/-- Calm worlds that an organization cannot tell apart while ids are drawn from one supply. -/
structure Alike (organization : String) (w u : World Memory) : Prop where
  share : w.share organization = u.share organization
  ids : w.ids = u.ids
  drawn : w.drawn = u.drawn
  calm : w.Calm
  calm' : u.Calm

namespace Alike

theorem store (alike : Alike organization w u) :
    w.store.ownedBy organization = u.store.ownedBy organization :=
  congrArg Share.store alike.share

theorem entity_eq (alike : Alike organization w u) (owned : entity.organization = organization) :
    Slots.get? entity w.entities = Slots.get? entity u.entities := by
  have same := congrArg (fun s => Slots.get? entity s.entities) alike.share
  simp only [World.share] at same
  rwa [Slots.get?_within (belongs_eq_true owned), Slots.get?_within (belongs_eq_true owned)] at same

/-- Worlds stay alike when the organization's parts of their stores do. -/
theorem with_store (alike : Alike organization w u) {m n : Memory}
    (same : m.ownedBy organization = n.ownedBy organization) (filed : m.Filed) (filed' : n.Filed) :
    Alike organization { w with store := m } { u with store := n } where
  share := congrArg₂ (fun (s : Share) store => { s with store }) alike.share same
  ids := alike.ids
  drawn := alike.drawn
  calm := ⟨alike.calm.1, alike.calm.2.1, filed⟩
  calm' := ⟨alike.calm'.1, alike.calm'.2.1, filed'⟩

/-- Worlds stay alike when the organization's parts of their queues do. -/
theorem with_jobs (alike : Alike organization w u) {jobs jobs' : List Job}
    (same : jobs.filter (belongs Job.organization organization)
      = jobs'.filter (belongs Job.organization organization)) :
    Alike organization { w with jobs } { u with jobs := jobs' } where
  share := congrArg₂ (fun (s : Share) jobs => { s with jobs }) alike.share same
  ids := alike.ids
  drawn := alike.drawn
  calm := alike.calm
  calm' := alike.calm'

/-- Worlds stay alike when the same data of an entity of the organization is set in both. -/
theorem with_entity (alike : Alike organization w u) (owned : entity.organization = organization)
    (env : Environment) : Alike organization (w.putEntity entity env) (u.putEntity entity env) where
  share := by
    refine congrArg₂ (fun (s : Share) entities => { s with entities }) alike.share ?_
    have inside : belongs EntityRef.organization organization entity = true := belongs_eq_true owned
    rw [putEntity, putEntity, Slots.within_put inside, Slots.within_put inside]
    exact congrArg (fun s => Slots.put entity env s.entities) alike.share
  ids := alike.ids
  drawn := alike.drawn
  calm := alike.calm
  calm' := alike.calm'

/-- Worlds stay alike when the same is drawn in both; lookups are not looked at. -/
theorem with_drawn (alike : Alike organization w u) {drawn drawn' lookups lookups' : Nat}
    (same : drawn = drawn') :
    Alike organization { w with drawn, lookups }
      { u with drawn := drawn', lookups := lookups' } where
  share := alike.share
  ids := alike.ids
  drawn := same
  calm := alike.calm
  calm' := alike.calm'

end Alike

/-! #### Calls -/

theorem call_respects {α : Type} {c : Call} {op : Action Memory StoreError α}
    (confined : Memory.Confined organization op) : (call c op).Respects (Alike organization) := by
  intro w u alike
  -- Both calls are the one call on the part of the store that the worlds have in common.
  have parts : ((op w.store).1, (op w.store).2.ownedBy organization)
      = ((op u.store).1, (op u.store).2.ownedBy organization) := by
    rw [← confined.commutes, ← confined.commutes, alike.store]
  obtain ⟨same, stores⟩ := Prod.mk.inj parts
  rw [call_of_unplanned (alike.calm.unplanned c), call_of_unplanned (alike.calm'.unplanned c)]
  exact ⟨same, alike.with_store stores (confined.files _ alike.calm.filed)
    (confined.files _ alike.calm'.filed)⟩

theorem indexStates_respects (indexes : List IndexSpec) :
    (indexStates Memory.backend organization indexes).Respects (Alike organization) := by
  intro w u alike
  have confined : Memory.Confined organization
      (Memory.backend.indexStates organization indexes) :=
    Memory.confined_view fun m => List.map_congr_left fun i _ => Memory.indexState_ownedBy i
  have read := call_respects (c := .indexStates) confined w u alike
  rw [indexStates, indexStates]
  simpa only [alike.calm.2.1, alike.calm'.2.1, if_true] using read

theorem drawId_respects {ε : Type} :
    (drawId : Action (World Memory) ε String).Respects (Alike organization) :=
  fun w u alike => ⟨by rw [drawId, drawId, alike.ids, alike.drawn],
    alike.with_drawn (congrArg (· + 1) alike.drawn)⟩

theorem now_respects {ε : Type} :
    (Action.view World.now : Action (World Memory) ε Timestamp).Respects (Alike organization) :=
  Action.respects_view fun _ _ alike => congrArg Share.now alike.share

theorem enqueue_respects (job : Job) :
    (enqueue job : Action (World Memory) QueueError Unit).Respects (Alike organization) := by
  intro w u alike
  have refusals : w.refusal = u.refusal := congrArg Share.refusal alike.share
  cases refusal : w.refusal with
  | none =>
    rw [enqueue_of_taken job refusal, enqueue_of_taken job (refusals ▸ refusal)]
    refine ⟨rfl, alike.with_jobs ?_⟩
    rw [List.filter_append, List.filter_append]
    exact congrArg (· ++ _) (congrArg Share.jobs alike.share)
  | some text =>
    rw [enqueue_of_refused job refusal, enqueue_of_refused job (refusals ▸ refusal)]
    exact ⟨rfl, alike⟩

theorem authorize_respects (allowed : List String) (actor : String) :
    (authorize allowed actor : Action (World Memory) AuthorizationError Unit).Respects
      (Alike organization) := by
  intro w u alike
  rw [authorize, authorize, alike.calm.unplanned, alike.calm'.unplanned]
  exact ⟨rfl, alike⟩

theorem entityExists_respects (owned : entity.organization = organization) :
    (entityExists entity : Action (World Memory) DataError Bool).Respects
      (Alike organization) := by
  intro w u alike
  rw [entityExists, entityExists, alike.calm.unplanned, alike.calm'.unplanned]
  exact ⟨congrArg (fun env => Except.ok env.isSome) (alike.entity_eq owned), alike⟩

theorem environmentFor_respects (owned : entity.organization = organization) :
    (environmentFor entity : Action (World Memory) DataError Environment).Respects
      (Alike organization) := by
  intro w u alike
  rw [environmentFor_of_unfailing alike.calm.1, environmentFor_of_unfailing alike.calm'.1,
    alike.entity_eq owned]
  split
  · exact ⟨rfl, alike.with_drawn alike.drawn⟩
  · exact ⟨rfl, alike⟩

end World

end RiskRules
