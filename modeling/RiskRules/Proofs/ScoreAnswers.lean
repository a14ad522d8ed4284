import RiskRules.Proofs.Tenants

/-!
What requests about scores are given. They read committed rulesets, scores, the data of entities and
the clock, and neither drafts nor index states nor what is in the queue (`World.scoring`); and
requests that create or prepare drafts write to nothing else. So leaving those out of a run changes
no answer to a request about scores (`Tenants.scoreAnswers_filter`).
-/

namespace RiskRules

/-! ### What requests about scores can tell -/

namespace Memory

variable {m : Memory}

/-- The part of a store that scores are computed from and kept in. -/
def scoring (m : Memory) : Memory :=
  { m with drafts := [], indexes := [] }

end Memory

namespace World

variable {w u : World Memory}

/-- What requests about scores can tell of a world. -/
def scoring (w : World Memory) : Share where
  store := w.store.scoring
  jobs := []
  entities := w.entities
  refusal := w.refusal
  now := w.now

theorem quiet_scoring : Quiet scoring :=
  fun _ _ _ _ _ => rfl

/-- Calm worlds that requests about scores cannot tell apart while ids are drawn from one supply. -/
structure ScoredAlike (w u : World Memory) : Prop where
  scoring : w.scoring = u.scoring
  ids : w.ids = u.ids
  drawn : w.drawn = u.drawn
  calm : w.Calm
  calm' : u.Calm

/-- A call that reads and writes nothing but what scores are computed from and kept in. -/
theorem call_respects_scoring {α : Type} {c : Call} {op : Action Memory StoreError α}
    (within : ∀ m : Memory, op m.scoring = ((op m).1, (op m).2.scoring))
    (files : ∀ m : Memory, m.Filed → (op m).2.Filed) : (call c op).Respects ScoredAlike := by
  intro w u alike
  have parts :
      ((op w.store).1, (op w.store).2.scoring) = ((op u.store).1, (op u.store).2.scoring) := by
    rw [← within, ← within]
    exact congrArg (fun s : Share => op s.store) alike.scoring
  obtain ⟨same, stores⟩ := Prod.mk.inj parts
  rw [call_of_unplanned (alike.calm.unplanned c), call_of_unplanned (alike.calm'.unplanned c)]
  exact ⟨same, congrArg₂ (fun (s : Share) store => { s with store }) alike.scoring stores,
    alike.ids, alike.drawn, ⟨alike.calm.1, alike.calm.2.1, files _ alike.calm.filed⟩,
    ⟨alike.calm'.1, alike.calm'.2.1, files _ alike.calm'.filed⟩⟩

theorem scoreable_scoredAlike : Scoreable ScoredAlike fun _ => True where
  committed _ _ := call_respects_scoring (fun _ => rfl) fun _ filed => filed
  currentScore _ _ := call_respects_scoring (fun _ => rfl) fun _ filed => filed
  history _ _ := call_respects_scoring (fun _ => rfl) fun _ filed => filed
  insertScore score _ := call_respects_scoring (fun _ => rfl) fun _ filed => filed.insertScore score
  authorize allowed actor w u alike := by
    rw [authorize, authorize, alike.calm.unplanned, alike.calm'.unplanned]
    exact ⟨rfl, alike⟩
  entityExists entity _ w u alike := by
    rw [entityExists, entityExists, alike.calm.unplanned, alike.calm'.unplanned]
    exact ⟨congrArg (fun s : Share => Except.ok (Slots.get? entity s.entities).isSome)
      alike.scoring, alike⟩
  environmentFor entity _ w u alike := by
    have known : Slots.get? entity w.entities = Slots.get? entity u.entities :=
      congrArg (fun s : Share => Slots.get? entity s.entities) alike.scoring
    rw [environmentFor_of_unfailing alike.calm.1, environmentFor_of_unfailing alike.calm'.1, known]
    split
    · exact ⟨rfl, alike.scoring, alike.ids, alike.drawn, alike.calm, alike.calm'⟩
    · exact ⟨rfl, alike⟩
  enqueue entity _ w u alike := by
    have refusals : w.refusal = u.refusal := congrArg Share.refusal alike.scoring
    cases refusal : w.refusal with
    | none =>
      rw [enqueue_of_taken _ refusal, enqueue_of_taken _ (refusals ▸ refusal)]
      exact ⟨rfl, alike.scoring, alike.ids, alike.drawn, alike.calm, alike.calm'⟩
    | some text =>
      rw [enqueue_of_refused _ refusal, enqueue_of_refused _ (refusals ▸ refusal)]
      exact ⟨rfl, alike⟩
  drawId w u alike :=
    ⟨by rw [drawId, drawId, alike.ids, alike.drawn], alike.scoring, alike.ids,
      congrArg (· + 1) alike.drawn, alike.calm, alike.calm'⟩
  now := Action.respects_view fun _ _ alike => congrArg Share.now alike.scoring
  named _ _ _ _ _ _ _ := trivial

end World

namespace Tenants

open Session (Settings)
open World (ScoredAlike scoreable_scoredAlike quiet_scoring)

variable {c : Settings} {w u : World Memory} {request : Request} {event : Event}

/-! ### Requests -/

/-- The request is about scores, or about the data that they are computed from. -/
def Request.scores : Request → Bool
  | .getActive _ _ | .refresh _ | .override _ _ _ _ | .history _ | .putEntity _ _ => true
  | _ => false

/-- The request puts a ruleset into use or does a job. -/
def Request.commitsOrWorks : Request → Bool
  | .commit _ | .work _ _ => true
  | _ => false

/-- A request about scores is given the same in worlds that such requests cannot tell apart, and
leaves worlds that they cannot tell apart. -/
theorem act_scoredAlike (scored : request.scores = true) (alike : ScoredAlike w u) :
    (request.act c w).1 = (request.act c u).1 ∧
      ScoredAlike (request.act c w).2 (request.act c u).2 := by
  have scoreable := scoreable_scoredAlike
  cases request with
  | getActive policy entity =>
    exact answered_respects _ (scoreable.getActive_respects trivial) alike
  | refresh entity => exact answered_respects _ (scoreable.refresh_respects trivial) alike
  | override actor entity value staleAt =>
    exact answered_respects _ (scoreable.override_respects actor trivial value staleAt) alike
  | history entity => exact answered_respects _ (scoreable.history_respects trivial) alike
  | putEntity entity env =>
    exact ⟨rfl, congrArg (fun s : Share => { s with entities := Slots.put entity env s.entities })
      alike.scoring, alike.ids, alike.drawn, alike.calm, alike.calm'⟩
  | create | prepare | commit | get | list | work | markPending | markReady => cases scored

/-- Drafts, marks on indexes and looking at rulesets leave alone what requests about scores can
tell. -/
theorem scoring_of_act (unscored : request.scores = false)
    (still : request.commitsOrWorks = false) :
    (request.act c w).2.scoring = w.scoring := by
  have marks : ∀ (w : World Memory) organization i,
      { w with store := Memory.markPending organization w.store i }.scoring = w.scoring := by
    intro w organization i
    rw [Memory.markPending_eq]
    rfl
  cases request with
  | create request =>
    refine Workflow.create_keeps quiet_scoring (fun w ruleset _ => ?_) w
    rw [Memory.replaceDraft_eq]
    rfl
  | prepare key =>
    exact Workflow.prepare_keeps quiet_scoring (fun _ _ => rfl) (fun w i => marks w _ i) w
  | get key status => exact Workflow.get_keeps quiet_scoring w
  | list organization => exact Workflow.list_keeps quiet_scoring w
  | markPending organization indexes =>
    exact World.call_keeps quiet_scoring (World.foldl_marks (fun w i => marks w _ i) indexes) w
  | markReady organization indexes =>
    exact World.call_keeps quiet_scoring (World.foldl_marks (fun _ _ => rfl) indexes) w
  | commit | work => cases still
  | getActive | refresh | override | history | putEntity => cases unscored

/-! ### Runs -/

/-- The event is a request about scores, or moves the clock. -/
def Event.scores : Event → Bool
  | .ask _ request => request.scores
  | .advance _ | .setClock _ => true

/-- The event is a request that puts a ruleset into use or does a job. -/
def Event.commitsOrWorks : Event → Bool
  | .ask _ request => request.commitsOrWorks
  | .advance _ | .setClock _ => false

/-- The answer to an event that is a request about scores. -/
def Event.scoreAnswer (c : Settings) (w : World Memory) : Event → List Answer
  | .ask ids request => if request.scores then [(request.act c (w.supplied ids)).1] else []
  | .advance _ | .setClock _ => []

/-- The answers to requests about scores, one after the other. -/
def scoreAnswers (c : Settings) : List Event → World Memory → List Answer
  | [], _ => []
  | event :: rest, w => event.scoreAnswer c w ++ scoreAnswers c rest (event.after c w)

/-- The step for an event that is about scores: it gives the same answer in both worlds, and leaves
worlds in which requests about scores can tell the same. -/
theorem after_scored (same : w.scoring = u.scoring) (calm : w.Calm) (calm' : u.Calm)
    (scored : event.scores = true) : event.scoreAnswer c w = event.scoreAnswer c u ∧
      (event.after c w).scoring = (event.after c u).scoring := by
  cases event with
  | ask ids request =>
    have alike : ScoredAlike (w.supplied ids) (u.supplied ids) := ⟨same, rfl, rfl, calm, calm'⟩
    obtain ⟨answer, after⟩ := act_scoredAlike (c := c) scored alike
    exact ⟨by rw [Event.scoreAnswer, Event.scoreAnswer, answer], after.scoring⟩
  | advance nanos =>
    exact ⟨rfl, congrArg (fun s : Share => { s with now := s.now.advance nanos }) same⟩
  | setClock now => exact ⟨rfl, congrArg (fun s : Share => { s with now }) same⟩

/-- The step for an event that is not about scores: it is not answered to them, and leaves what they
can tell as it is. -/
theorem after_unscored (unscored : event.scores = false) (still : event.commitsOrWorks = false) :
    event.scoreAnswer c w = [] ∧ (event.after c w).scoring = w.scoring := by
  cases event with
  | ask ids request =>
    exact ⟨if_neg (Bool.eq_false_iff.mp unscored),
      scoring_of_act (c := c) (w := w.supplied ids) unscored still⟩
  | advance | setClock => cases unscored

theorem run_scored (same : w.scoring = u.scoring) (calm : w.Calm) (calm' : u.Calm)
    {events : List Event} (still : ∀ event ∈ events, event.commitsOrWorks = false) :
    scoreAnswers c events w = scoreAnswers c (events.filter Event.scores) u := by
  induction events generalizing w u with
  | nil => rfl
  | cons event rest ih =>
    obtain ⟨here, later⟩ := List.forall_mem_cons.mp still
    cases scored : event.scores with
    | true =>
      obtain ⟨answer, after⟩ := after_scored (c := c) same calm calm' scored
      rw [List.filter_cons_of_pos scored, scoreAnswers, scoreAnswers, answer,
        ih after (calm_after event calm) (calm_after event calm') later]
    | false =>
      -- Only the full run moves on; the other one has no such event.
      obtain ⟨silent, after⟩ := after_unscored (c := c) (w := w) scored here
      rw [List.filter_cons_of_neg (Bool.eq_false_iff.mp scored), scoreAnswers, silent,
        ih (after.trans same) (calm_after event calm) calm' later]
      rfl

/-- **Drafts do not matter to scores.** While no ruleset is put into use and no job is done, leaving
out all requests but those about scores changes no answer to these, errors included. -/
theorem scoreAnswers_filter (c : Settings) {w : World Memory} (calm : w.Calm) {events : List Event}
    (still : ∀ event ∈ events, event.commitsOrWorks = false) :
    scoreAnswers c (events.filter Event.scores) w = scoreAnswers c events w :=
  (run_scored rfl calm calm still).symm

end Tenants

end RiskRules
