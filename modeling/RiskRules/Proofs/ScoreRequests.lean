import RiskRules.Lifecycle
import RiskRules.Proofs.Calls

/-!
What requests about scores tell apart. They are made of calls for the entities that they are about,
so worlds that these calls cannot tell apart are not told apart by the requests either, whatever the
reason (`World.Scoreable`). A score is judged by the ruleset of the entity that it names, which is
why the scores filed under such an entity must name one as well.
-/

namespace RiskRules

/-- The calls that requests about some entities make cannot tell related worlds apart. -/
structure World.Scoreable (R : World Memory → World Memory → Prop) (mine : EntityRef → Prop) :
    Prop where
  committed : ∀ entity, mine entity → (World.committed Memory.backend entity.key).Respects R
  currentScore : ∀ entity, mine entity → (World.currentScore Memory.backend entity).Respects R
  history : ∀ entity, mine entity → (World.history Memory.backend entity).Respects R
  insertScore : ∀ score : Score, mine score.entity →
    (World.insertScore Memory.backend score).Respects R
  authorize : ∀ allowed actor,
    (World.authorize allowed actor : Action (World Memory) AuthorizationError Unit).Respects R
  entityExists : ∀ entity, mine entity →
    (World.entityExists entity : Action (World Memory) DataError Bool).Respects R
  environmentFor : ∀ entity, mine entity →
    (World.environmentFor entity : Action (World Memory) DataError Environment).Respects R
  enqueue : ∀ entity, mine entity → (World.enqueue (.recomputeScore entity) :
    Action (World Memory) QueueError Unit).Respects R
  drawId : (World.drawId : Action (World Memory) LifecycleError String).Respects R
  now : (Action.view World.now : Action (World Memory) LifecycleError Timestamp).Respects R
  named : ∀ w u entity, R w u → mine entity →
    ∀ score ∈ w.store.currentScore entity, mine score.entity

namespace World.Scoreable

variable {R : World Memory → World Memory → Prop} {mine : EntityRef → Prop} {entity : EntityRef}
  {c : LifecycleConfig} {policy : RefreshPolicy}

theorem requireRuleset_respects (scoreable : Scoreable R mine) (owned : mine entity) :
    (Lifecycle.requireRuleset Memory.backend entity).Respects R := by
  refine (scoreable.committed entity owned).restate.bind ?_
  intro ruleset
  cases ruleset with
  | none => exact Action.respects_fail _
  | some ruleset => exact Action.respects_pure _

theorem refresh_respects (scoreable : Scoreable R mine) (owned : mine entity) :
    (Lifecycle.refresh Memory.backend c entity).Respects R := by
  refine (scoreable.requireRuleset_respects owned).bind ?_
  intro ruleset
  refine (scoreable.environmentFor entity owned).restate.bind ?_
  intro env
  refine (Action.respects_ofExcept _ _).bind ?_
  intro record
  refine scoreable.drawId.bind ?_
  intro id
  refine scoreable.now.bind ?_
  intro now
  exact (scoreable.insertScore _ owned).restate

theorem override_respects (scoreable : Scoreable R mine) (actor : String) (owned : mine entity)
    (value : Int64) (staleAt : Option Timestamp) :
    (Lifecycle.override Memory.backend c actor entity value staleAt).Respects R := by
  refine (scoreable.authorize c.allowed actor).restate.bind ?_
  intro _
  refine (scoreable.entityExists entity owned).restate.bind ?_
  intro known
  split
  · exact Action.respects_fail _
  · refine (scoreable.requireRuleset_respects owned).bind ?_
    intro ruleset
    split
    · exact Action.respects_fail _
    · refine scoreable.drawId.bind ?_
      intro id
      refine scoreable.now.bind ?_
      intro now
      exact (scoreable.insertScore _ owned).restate

theorem isStale_respects (scoreable : Scoreable R mine) (now : Timestamp) {score : Score}
    (owned : mine score.entity) :
    (Lifecycle.isStale Memory.backend c policy now score).Respects R := by
  unfold Lifecycle.isStale
  split
  · exact Action.respects_give _
  · split
    · exact Action.respects_give _
    · split
      · exact Action.respects_give _
      · refine Action.Respects.bind ?_ fun _ => Action.respects_pure _
        refine (scoreable.committed _ owned).restate.bind ?_
        intro ruleset
        cases ruleset <;> exact Action.respects_pure _

theorem serveStale_respects (scoreable : Scoreable R mine) (owned : mine entity)
    (current : Score) :
    (Lifecycle.serveStale Memory.backend c policy entity current).Respects R := by
  unfold Lifecycle.serveStale
  split
  · exact (scoreable.enqueue entity owned).restate.bind fun _ => Action.respects_pure _
  · refine (scoreable.refresh_respects owned).attempt.bind ?_
    intro attempted
    cases attempted <;> exact Action.respects_pure _

theorem getActive_respects (scoreable : Scoreable R mine) (owned : mine entity) :
    (Lifecycle.getActive Memory.backend c policy entity).Respects R := by
  refine (scoreable.currentScore entity owned).restate.bind_given ?_
  intro w u related found after read
  cases found with
  | none => exact scoreable.refresh_respects owned
  | some current =>
    -- The window of the score is that of the ruleset of the entity that it names.
    obtain ⟨held, -⟩ := eq_of_read (Action.restate_eq_ok_iff.mp read)
    have named := scoreable.named w u entity related owned current held.symm
    refine scoreable.now.bind ?_
    intro now
    refine (scoreable.isStale_respects now named).bind ?_
    intro stale
    split
    · exact scoreable.serveStale_respects owned current
    · exact Action.respects_pure _

theorem history_respects (scoreable : Scoreable R mine) (owned : mine entity) :
    (Lifecycle.history Memory.backend entity).Respects R :=
  (scoreable.history entity owned).restate

end World.Scoreable

end RiskRules
