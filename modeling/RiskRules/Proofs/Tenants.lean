import RiskRules.Proofs.Confinement
import RiskRules.Proofs.Session

/-!
Organizations that share a world. Every request is one for an organization and comes with its own
supply of ids; the clock is common. A request tells apart only what belongs to its organization
(`Tenants.act_alike`) and leaves the shares of all others as they are
(`Tenants.share_of_act_foreign`), so leaving out the requests for all other organizations changes
neither the answers to those that remain nor the jobs that wait for them (`Tenants.isolated`).
-/

namespace RiskRules

/-- The world with a new supply of ids. -/
def World.supplied {σ : Type} (ids : Nat → String) (w : World σ) : World σ :=
  { w with ids, drawn := 0 }

namespace Tenants

open Session (Settings)
open World (Alike Calm share quiet_share)

/-! ### Requests -/

/-- What can be asked for one organization. A worker takes the job at a position among those of the
organization. -/
inductive Request where
  | create (request : RulesetRequest)
  | prepare (key : PairKey)
  | commit (key : PairKey)
  | get (key : PairKey) (status : RulesetStatus)
  | list (organization : String)
  | getActive (policy : RefreshPolicy) (entity : EntityRef)
  | refresh (entity : EntityRef)
  | override (actor : String) (entity : EntityRef) (score : Int64) (staleAt : Option Timestamp)
  | history (entity : EntityRef)
  | work (organization : String) (position : Nat)
  | markPending (organization : String) (indexes : List IndexSpec)
  | markReady (organization : String) (indexes : List IndexSpec)
  | putEntity (entity : EntityRef) (env : Environment)

/-- The organization that a request is for. -/
def Request.organization : Request → String
  | .create request => request.key.organization
  | .prepare key | .commit key | .get key _ => key.organization
  | .list organization | .work organization _ | .markPending organization _
  | .markReady organization _ => organization
  | .getActive _ entity | .refresh entity | .override _ entity _ _ | .history entity
  | .putEntity entity _ => entity.organization

/-- The answers to requests, errors included. -/
inductive Answer where
  | ruleset (r : Except WorkflowError Ruleset)
  | report (r : Except WorkflowError PreparationReport)
  | held (r : Except WorkflowError (Option Ruleset))
  | rulesets (r : Except WorkflowError (List Ruleset))
  | score (r : Except LifecycleError Score)
  | scores (r : Except LifecycleError (List Score))
  | worked (r : Except LifecycleError (Option Score))
  | noJob
  | marked (r : Except StoreError Unit)
  | stored

/-- Takes the job at a position among those of an organization out of a queue. -/
def takeOwn? (organization : String) : Nat → List Job → Option (Job × List Job)
  | _, [] => none
  | position, job :: rest =>
    if job.organization = organization ∧ position = 0 then some (job, rest)
    else
      let skipped := if job.organization = organization then 1 else 0
      (takeOwn? organization (position - skipped) rest).map fun (taken, left) =>
        (taken, job :: left)

/-- The answer that an action gives, and the world after it. -/
def answered {ε α : Type} (form : Except ε α → Answer) (x : Action (World Memory) ε α)
    (w : World Memory) : Answer × World Memory :=
  (form (x w).1, (x w).2)

/-- The answer to a request, and the world after it. -/
def Request.act (c : Settings) (w : World Memory) : Request → Answer × World Memory
  | .create request =>
    answered .ruleset (Workflow.create Memory.backend c.maxThresholds request) w
  | .prepare key => answered .report (Workflow.prepare Memory.backend key) w
  | .commit key => answered .ruleset (Workflow.commit Memory.backend key) w
  | .get key status => answered .held (Workflow.get Memory.backend key status) w
  | .list organization => answered .rulesets (Workflow.list Memory.backend organization) w
  | .getActive policy entity =>
    answered .score (Lifecycle.getActive Memory.backend c.lifecycle policy entity) w
  | .refresh entity => answered .score (Lifecycle.refresh Memory.backend c.lifecycle entity) w
  | .override actor entity score staleAt =>
    answered .score (Lifecycle.override Memory.backend c.lifecycle actor entity score staleAt) w
  | .history entity => answered .scores (Lifecycle.history Memory.backend entity) w
  | .work organization position =>
    match takeOwn? organization position w.jobs with
    | none => (.noJob, w)
    | some (job, jobs) =>
      answered .worked (Lifecycle.work Memory.backend c.lifecycle job) { w with jobs }
  | .markPending organization indexes =>
    answered .marked (World.markPending Memory.backend organization indexes) w
  | .markReady organization indexes =>
    answered .marked (World.markReady Memory.backend organization indexes) w
  | .putEntity entity env => (.stored, w.putEntity entity env)

/-! ### The queue -/

section Queue

variable {organization : String} {position : Nat} {jobs left : List Job} {job : Job}

/-- Taking a job of an organization is taking it out of the organization's part of the queue. -/
theorem takeOwn?_filter (organization : String) (position : Nat) (jobs : List Job) :
    (takeOwn? organization position jobs).map
        (fun t => (t.1, t.2.filter (belongs Job.organization organization)))
      = ((jobs.filter (belongs Job.organization organization))[position]?).map fun job =>
        (job, (jobs.filter (belongs Job.organization organization)).eraseIdx position) := by
  induction jobs generalizing position with
  | nil => rfl
  | cons job rest ih =>
    rw [takeOwn?]
    by_cases own : job.organization = organization
    · rw [List.filter_cons_of_pos (belongs_eq_true own)]
      cases position with
      | zero => simp [own]
      | succ position =>
        have taken := congrArg (Option.map fun t => (t.1, job :: t.2)) (ih position)
        simpa [own, Function.comp_def, belongs] using taken
    · rw [List.filter_cons_of_neg (by simp [belongs, own])]
      simpa [own, Function.comp_def, belongs] using ih position

/-- The job taken is one of the organization, and the jobs of others stay where they are. -/
theorem of_takeOwn? (taken : takeOwn? organization position jobs = some (job, left)) :
    job.organization = organization ∧ ∀ other ≠ organization,
      left.filter (belongs Job.organization other) = jobs.filter (belongs Job.organization other) := by
  induction jobs generalizing position left with
  | nil => cases taken
  | cons first rest ih =>
    rw [takeOwn?] at taken
    split at taken
    · rename_i own
      obtain ⟨rfl, rfl⟩ := Prod.mk.inj (Option.some.inj taken)
      constructor
      · exact own.1
      · intro other different
        rw [List.filter_cons_of_neg (by simp [belongs, own.1, Ne.symm different])]
    · obtain ⟨⟨_, later⟩, taken_later, same⟩ := Option.map_eq_some_iff.mp taken
      obtain ⟨rfl, rfl⟩ := Prod.mk.inj same
      obtain ⟨owner, others⟩ := ih taken_later
      constructor
      · exact owner
      · intro other different
        rw [List.filter_cons, List.filter_cons, others other different]

end Queue

/-! ### Requests for others -/

section Foreign

variable {organization : String} {w : World Memory}

theorem share_with_store {m : Memory}
    (same : m.ownedBy organization = w.store.ownedBy organization) :
    share organization { w with store := m } = share organization w :=
  congrArg (fun store => { share organization w with store }) same

theorem share_with_jobs {jobs : List Job} (same : jobs.filter (belongs Job.organization organization)
      = w.jobs.filter (belongs Job.organization organization)) :
    share organization { w with jobs } = share organization w :=
  congrArg (fun jobs => { share organization w with jobs }) same

theorem share_with_job {job : Job} (foreign : job.organization ≠ organization) :
    share organization { w with jobs := w.jobs ++ [job] } = share organization w := by
  refine share_with_jobs ?_
  rw [List.filter_append, List.filter_cons_of_neg (by simp [belongs, foreign]), List.filter_nil,
    List.append_nil]

/-- A request for another organization leaves the share of an organization as it is. -/
theorem share_of_act_foreign (c : Settings) {r : Request} (w : World Memory)
    (foreign : r.organization ≠ organization) :
    share organization (r.act c w).2 = share organization w := by
  have quiet := quiet_share organization
  have inserts : ∀ {entity : EntityRef}, entity.organization ≠ organization →
      ∀ (w : World Memory) (score : Score), score.entity = entity →
        share organization { w with store := (Memory.insertScore score w.store).2 }
          = share organization w := by
    rintro entity foreign w score rfl
    exact share_with_store (Memory.ownedBy_insertScore foreign)
  cases r with
  | create request =>
    refine Workflow.create_keeps quiet (fun w ruleset same => ?_) w
    exact share_with_store (Memory.ownedBy_replaceDraft (same ▸ foreign))
  | prepare key =>
    exact Workflow.prepare_keeps quiet (fun w indexes => share_with_job foreign)
      (fun w i => share_with_store (Memory.ownedBy_markPending foreign i)) w
  | commit key =>
    exact Workflow.commit_keeps quiet
      (fun w => share_with_store (Memory.ownedBy_commitDraft foreign)) w
  | get key status => exact Workflow.get_keeps quiet w
  | list owner => exact Workflow.list_keeps quiet w
  | getActive policy entity =>
    exact Lifecycle.getActive_keeps quiet (inserts foreign) (fun w => share_with_job foreign) w
  | refresh entity => exact Lifecycle.refresh_keeps quiet (inserts foreign) w
  | override actor entity score staleAt =>
    exact Lifecycle.override_keeps quiet (inserts foreign) w
  | history entity => exact Lifecycle.history_keeps quiet w
  | work owner position =>
    rw [Request.act]
    split
    · rfl
    · rename_i job jobs taken
      obtain ⟨rfl, others⟩ := of_takeOwn? taken
      -- Taking the job out of the queue is not seen, and neither is what the job does.
      refine Eq.trans ?_ (share_with_jobs (others organization (Ne.symm foreign)))
      cases job with
      | recomputeScore entity =>
        exact Lifecycle.work_recomputeScore_keeps quiet (inserts foreign) _
      | createIndexes owner indexes =>
        exact Lifecycle.work_createIndexes_keeps quiet
          (fun w i => share_with_store (Memory.ownedBy_markReady foreign i)) _
  | markPending owner indexes =>
    exact World.call_keeps quiet (World.foldl_marks
      (fun w i => share_with_store (Memory.ownedBy_markPending foreign i)) indexes) w
  | markReady owner indexes =>
    exact World.call_keeps quiet (World.foldl_marks
      (fun w i => share_with_store (Memory.ownedBy_markReady foreign i)) indexes) w
  | putEntity entity env =>
    refine congrArg (fun entities => { share organization w with entities }) ?_
    exact Slots.within_put_outside (belongs_eq_false foreign)

end Foreign

/-! ### Requests of one's own -/

section Own

variable {organization : String} {w u : World Memory}

/-- What cannot tell related worlds apart gives the same answer in them. -/
theorem answered_respects {ε α : Type} {R : World Memory → World Memory → Prop}
    {x : Action (World Memory) ε α} (form : Except ε α → Answer) (respects : x.Respects R)
    (related : R w u) : (answered form x w).1 = (answered form x u).1 ∧
      R (answered form x w).2 (answered form x u).2 := by
  obtain ⟨same, after⟩ := respects w u related
  exact ⟨congrArg form same, after⟩

/-- A worker takes the same job in worlds that the organization cannot tell apart. -/
theorem work_alike (c : Settings) (position : Nat) (alike : Alike organization w u) :
    ((Request.work organization position).act c w).1
        = ((Request.work organization position).act c u).1 ∧
      Alike organization ((Request.work organization position).act c w).2
        ((Request.work organization position).act c u).2 := by
  have queues : w.jobs.filter (belongs Job.organization organization)
      = u.jobs.filter (belongs Job.organization organization) := congrArg Share.jobs alike.share
  have taken := takeOwn?_filter organization position w.jobs
  rw [queues, ← takeOwn?_filter organization position u.jobs] at taken
  rw [Request.act, Request.act]
  cases first : takeOwn? organization position w.jobs with
  | none =>
    rw [first] at taken
    rw [Option.map_eq_none_iff.mp taken.symm]
    exact ⟨rfl, alike⟩
  | some job_left =>
    obtain ⟨job, left⟩ := job_left
    rw [first] at taken
    obtain ⟨⟨job', left'⟩, second, same⟩ := Option.map_eq_some_iff.mp taken.symm
    obtain ⟨rfl, parts⟩ := Prod.mk.inj same
    rw [second]
    exact answered_respects .worked (Lifecycle.work_respects (of_takeOwn? first).1)
      (alike.with_jobs parts.symm)

/-- A request for an organization gives the same in worlds that the organization cannot tell apart,
and leaves worlds that it cannot tell apart. -/
theorem act_alike (c : Settings) {r : Request} (owned : r.organization = organization)
    (alike : Alike organization w u) :
    (r.act c w).1 = (r.act c u).1 ∧ Alike organization (r.act c w).2 (r.act c u).2 := by
  cases r with
  | create request => exact answered_respects _ (Workflow.create_respects _ owned) alike
  | prepare key => exact answered_respects _ (Workflow.prepare_respects owned) alike
  | commit key => exact answered_respects _ (Workflow.commit_respects owned) alike
  | get key status => exact answered_respects _ (Workflow.get_respects owned status) alike
  | list owner =>
    obtain rfl : owner = organization := owned
    exact answered_respects _ Workflow.list_respects alike
  | getActive policy entity => exact answered_respects _ (Lifecycle.getActive_respects owned) alike
  | refresh entity => exact answered_respects _ (Lifecycle.refresh_respects owned) alike
  | override actor entity score staleAt =>
    exact answered_respects _ (Lifecycle.override_respects actor owned score staleAt) alike
  | history entity => exact answered_respects _ (Lifecycle.history_respects owned) alike
  | work owner position =>
    obtain rfl : owner = organization := owned
    exact work_alike c position alike
  | markPending owner indexes =>
    obtain rfl : owner = organization := owned
    exact answered_respects _ (World.call_respects (Memory.confined_markPending.confined indexes)) alike
  | markReady owner indexes =>
    obtain rfl : owner = organization := owned
    exact answered_respects _ (World.call_respects (Memory.confined_markReady.confined indexes)) alike
  | putEntity entity env => exact ⟨rfl, alike.with_entity owned env⟩

/-- A calm world stays calm, whatever is requested. -/
theorem calm_act (c : Settings) (r : Request) (calm : w.Calm) : (r.act c w).2.Calm :=
  (act_alike c rfl ⟨rfl, rfl, rfl, calm, calm⟩).2.calm

end Own

/-! ### Runs -/

/-- What can happen: a request with the ids for it, or a movement of the clock. -/
inductive Event where
  | ask (ids : Nat → String) (request : Request)
  | advance (nanos : Int)
  | setClock (now : Timestamp)

/-- The event is a request for an organization, or moves the clock. -/
def Event.concerns (organization : String) : Event → Bool
  | .ask _ request => belongs Request.organization organization request
  | .advance _ | .setClock _ => true

/-- The world after an event. -/
def Event.after (c : Settings) (w : World Memory) : Event → World Memory
  | .ask ids request => (request.act c (w.supplied ids)).2
  | .advance nanos => w.advance nanos
  | .setClock now => { w with now }

/-- The answer to an event that is a request for an organization. -/
def Event.answer (c : Settings) (organization : String) (w : World Memory) : Event → List Answer
  | .ask ids request =>
    if belongs Request.organization organization request then
      [(request.act c (w.supplied ids)).1]
    else []
  | .advance _ | .setClock _ => []

/-- The world after events. -/
def run (c : Settings) : List Event → World Memory → World Memory
  | [], w => w
  | event :: rest, w => run c rest (event.after c w)

/-- The answers to the requests for an organization, one after the other. -/
def answers (c : Settings) (organization : String) : List Event → World Memory → List Answer
  | [], _ => []
  | event :: rest, w =>
    event.answer c organization w ++ answers c organization rest (event.after c w)

variable {c : Settings} {organization : String} {w u : World Memory} {event : Event}

theorem calm_after (event : Event) (calm : w.Calm) : (event.after c w).Calm := by
  cases event with
  | ask ids request => exact calm_act c request (w := w.supplied ids) calm
  | advance | setClock => exact calm

/-- The step for an event that concerns the organization: it gives the same answer in both worlds
and leaves the organization the same share of both. -/
theorem after_concerned (same : share organization w = share organization u) (calm : w.Calm)
    (calm' : u.Calm) (concerned : event.concerns organization = true) :
    event.answer c organization w = event.answer c organization u ∧
      share organization (event.after c w) = share organization (event.after c u) := by
  cases event with
  | ask ids request =>
    have alike : Alike organization (w.supplied ids) (u.supplied ids) :=
      ⟨same, rfl, rfl, calm, calm'⟩
    obtain ⟨answer, after⟩ := act_alike c (beq_iff_eq.mp concerned) alike
    constructor
    · rw [Event.answer, Event.answer, answer]
    · exact after.share
  | advance nanos =>
    exact ⟨rfl, congrArg (fun s : Share => { s with now := s.now.advance nanos }) same⟩
  | setClock now => exact ⟨rfl, congrArg (fun s : Share => { s with now }) same⟩

/-- The step for an event that does not concern the organization: it is not answered to it, and
leaves its share as it is. -/
theorem after_unconcerned (unconcerned : event.concerns organization = false) :
    event.answer c organization w = [] ∧
      share organization (event.after c w) = share organization w := by
  cases event with
  | ask ids request =>
    have foreign : request.organization ≠ organization := beq_eq_false_iff_ne.mp unconcerned
    constructor
    · exact if_neg (Bool.eq_false_iff.mp unconcerned)
    · exact share_of_act_foreign c (w.supplied ids) foreign
  | advance | setClock => cases unconcerned

theorem run_concerned (same : share organization w = share organization u) (calm : w.Calm)
    (calm' : u.Calm) (events : List Event) :
    answers c organization events w
        = answers c organization (events.filter (Event.concerns organization)) u ∧
      share organization (run c events w)
        = share organization (run c (events.filter (Event.concerns organization)) u) := by
  induction events generalizing w u with
  | nil => exact ⟨rfl, same⟩
  | cons event rest ih =>
    cases concerned : event.concerns organization with
    | true =>
      obtain ⟨answer, after⟩ := after_concerned (c := c) same calm calm' concerned
      obtain ⟨later, shares⟩ := ih after (calm_after event calm) (calm_after event calm')
      rw [List.filter_cons_of_pos concerned, answers, answers, answer, later]
      exact ⟨rfl, shares⟩
    | false =>
      -- Only the full run moves on; the other one has no such event.
      obtain ⟨silent, after⟩ := after_unconcerned (c := c) (w := w) concerned
      obtain ⟨later, shares⟩ := ih (after.trans same) (calm_after event calm) calm'
      rw [List.filter_cons_of_neg (Bool.eq_false_iff.mp concerned), answers, silent, later]
      exact ⟨rfl, shares⟩

/-- **Isolation of organizations.** Leaving all requests for other organizations out of a run, while
the clock moves as before, changes no answer to a request for the organization, errors included, and
neither the jobs that wait for it nor their order. -/
theorem isolated (c : Settings) (organization : String) (events : List Event) {w : World Memory}
    (calm : w.Calm) :
    answers c organization (events.filter (Event.concerns organization)) w
        = answers c organization events w ∧
      (run c (events.filter (Event.concerns organization)) w).jobs.filter
          (belongs Job.organization organization)
        = (run c events w).jobs.filter (belongs Job.organization organization) := by
  obtain ⟨answer, shares⟩ := run_concerned rfl calm calm events
  exact ⟨answer.symm, congrArg Share.jobs shares.symm⟩

/-! ### Two organizations -/

open Session.Sample (request settings entity pair world)

/-- Ids that begin with the name of the request that they are drawn for. -/
def Sample.ids (name : String) (n : Nat) : String :=
  name ++ "-" ++ toString n

/-- An account of another organization, with the id that one of the first organization has. -/
def Sample.other : EntityRef :=
  ⟨"other", "account", "a-1"⟩

/-- Two organizations score accounts of the same id by rulesets of their own, with other thresholds,
and ask for the scores again when they are stale; the job of one of them is taken by a worker. -/
def Sample.interleaved : List Event :=
  [.ask (Sample.ids "a") (.create request),
    .ask (Sample.ids "b") (.create { request with key := Sample.other.key, thresholds := [] }),
    .ask (Sample.ids "c") (.commit Sample.other.key), .ask (Sample.ids "d") (.commit pair),
    .ask (Sample.ids "e") (.putEntity Sample.other Facts.empty.toEnvironment),
    .ask (Sample.ids "f") (.putEntity entity Facts.empty.toEnvironment),
    .ask (Sample.ids "g") (.getActive ⟨none, true⟩ Sample.other),
    .ask (Sample.ids "h") (.getActive ⟨none, true⟩ entity), .advance 3601000000000,
    .ask (Sample.ids "i") (.getActive ⟨none, true⟩ Sample.other),
    .ask (Sample.ids "j") (.getActive ⟨none, true⟩ entity),
    .ask (Sample.ids "k") (.work "acme" 0), .ask (Sample.ids "l") (.history entity),
    .ask (Sample.ids "m") (.getActive ⟨some (.ofSeconds 0), true⟩ entity)]

/-- One organization is given the same by itself, where its job is the first of the queue, as beside
the other, where it is the second. -/
theorem isolated_interleaved : ∃ given score,
    given = answers settings "acme" Sample.interleaved world ∧ world.Calm ∧
    (Sample.interleaved.filter (Event.concerns "acme")).length = 9 ∧
    answers settings "acme" (Sample.interleaved.filter (Event.concerns "acme")) world = given ∧
    given.length = 8 ∧ given[5]? = some (.worked (.ok (some score))) ∧ score.score = 3 ∧
    (run settings Sample.interleaved world).jobs = [.recomputeScore Sample.other] ∧
    (run settings (Sample.interleaved.filter (Event.concerns "acme")) world).jobs.filter
      (belongs Job.organization "acme") = [] := by
  have calm : world.Calm := World.calm_fresh _ _
  obtain ⟨same, waiting⟩ := isolated settings "acme" Sample.interleaved calm
  exact ⟨_, _, rfl, calm, rfl, same, rfl, rfl, rfl, rfl, waiting.trans rfl⟩

end Tenants

end RiskRules
