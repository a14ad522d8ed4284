import RiskRules.Proofs.ScoreRequests
import RiskRules.Proofs.Shares
import RiskRules.Workflow

/-!
Requests for one organization. Every request about a ruleset or a score reads and writes what
belongs to the organization of its pair or entity, and nothing else: in worlds that the organization
cannot tell apart it gives the same, errors included, and leaves worlds that the organization cannot
tell apart. For requests about scores this is so because it is so for their calls
(`Lifecycle.scoreable_alike`), and because scores are filed under their own entities (`World.Calm`).
-/

namespace RiskRules

open World

variable {organization : String} {key : PairKey} {entity : EntityRef}

/-! ### Rulesets -/

namespace Workflow

theorem idAndBody_respects (committed : Option Ruleset) (request : RuleRequest) :
    (idAndBody committed request : Action (World Memory) RequestError _).Respects
      (Alike organization) := by
  unfold idAndBody
  split
  · exact Action.respects_give _
  · exact drawId_respects.bind fun _ => Action.respects_pure _
  · split
    · exact Action.respects_give _
    · exact Action.respects_fail _
  · exact Action.respects_fail _

theorem resolveAll_respects (committed : Option Ruleset) (seen : List String)
    (requests : List RuleRequest) :
    (resolveAll committed seen requests : Action (World Memory) RequestError _).Respects
      (Alike organization) := by
  have resolves : ∀ request, (resolve committed request :
      Action (World Memory) RequestError _).Respects (Alike organization) := fun request =>
    (idAndBody_respects committed request).bind fun _ =>
      (Action.respects_ofExcept _ _).bind fun _ => Action.respects_pure _
  induction requests generalizing seen with
  | nil => exact Action.respects_give _
  | cons request rest ih =>
    refine (resolves request).bind ?_
    intro rule
    split
    · exact Action.respects_fail _
    · exact (ih _).bind fun _ => Action.respects_pure _

theorem committed_respects (owned : key.organization = organization) :
    (World.committed Memory.backend key).Respects (Alike organization) :=
  call_respects (Memory.confined_view fun _ => Memory.committed_ownedBy owned)

theorem draft_respects (owned : key.organization = organization) :
    (World.draft Memory.backend key).Respects (Alike organization) :=
  call_respects (Memory.confined_view fun _ => Memory.draft_ownedBy owned)

theorem replaceDraft_respects {ruleset : Ruleset}
    (owned : ruleset.key.organization = organization) :
    (World.replaceDraft Memory.backend ruleset).Respects (Alike organization) :=
  call_respects (Memory.confined_replaceDraft owned)

theorem create_respects (maxThresholds : Nat) {request : RulesetRequest}
    (owned : request.key.organization = organization) :
    (create Memory.backend maxThresholds request).Respects (Alike organization) := by
  refine (Action.respects_ofExcept _ _).bind ?_
  intro _
  refine (committed_respects owned).restate.bind ?_
  intro committed
  refine (Action.respects_ofExcept _ _).bind ?_
  intro version
  refine (resolveAll_respects committed [] request.rules).restate.bind ?_
  intro rules
  refine Action.Respects.bind ?_ fun _ => Action.respects_pure _
  refine (replaceDraft_respects ?_).restate
  exact owned

theorem requireDraft_respects (owned : key.organization = organization) :
    (requireDraft Memory.backend key).Respects (Alike organization) := by
  refine (draft_respects owned).restate.bind ?_
  intro draft
  cases draft with
  | none => exact Action.respects_fail _
  | some draft => exact Action.respects_pure _

theorem notReady_respects (required : List IndexSpec) :
    (notReady Memory.backend organization required).Respects (Alike organization) := by
  unfold notReady
  split
  · exact Action.respects_give _
  · refine (indexStates_respects required).restate.bind ?_
    intro states
    split
    · exact Action.respects_fail _
    · exact Action.respects_pure _

theorem requestIndexes_respects (missing : List IndexSpec) :
    (requestIndexes Memory.backend organization missing).Respects (Alike organization) := by
  unfold requestIndexes
  split
  · exact Action.respects_give _
  · exact (enqueue_respects _).restate.bind fun _ =>
      (call_respects (Memory.confined_markPending.confined missing)).restate

theorem prepare_respects (owned : key.organization = organization) :
    (prepare Memory.backend key).Respects (Alike organization) := by
  subst owned
  refine (requireDraft_respects rfl).bind ?_
  intro draft
  refine (notReady_respects _).bind ?_
  intro blocking
  refine (requestIndexes_respects _).bind ?_
  intro _
  split
  · exact Action.respects_pure _
  · exact Action.respects_fail _

theorem commit_respects (owned : key.organization = organization) :
    (commit Memory.backend key).Respects (Alike organization) := by
  subst owned
  refine (requireDraft_respects rfl).bind ?_
  intro draft
  refine (notReady_respects _).bind ?_
  intro blocking
  split
  · exact (call_respects (Memory.confined_commitDraft rfl)).restate
  · exact Action.respects_fail _

theorem get_respects (owned : key.organization = organization) (status : RulesetStatus) :
    (get Memory.backend key status).Respects (Alike organization) := by
  cases status with
  | draft => exact (draft_respects owned).restate
  | committed => exact (committed_respects owned).restate

theorem list_respects : (list Memory.backend organization).Respects (Alike organization) :=
  (call_respects (Memory.confined_view fun _ => Memory.list_ownedBy)).restate

end Workflow

/-! ### Scores -/

namespace Lifecycle

variable {c : LifecycleConfig} {policy : RefreshPolicy}

/-- The calls of requests about scores of an organization's entities. -/
theorem scoreable_alike (organization : String) :
    Scoreable (Alike organization) (EntityRef.organization · = organization) where
  committed _ owned := Workflow.committed_respects owned
  currentScore _ owned :=
    call_respects (Memory.confined_view fun _ => Memory.currentScore_ownedBy owned)
  history _ owned := call_respects (Memory.confined_view fun _ => Memory.history_ownedBy owned)
  insertScore _ owned := call_respects (Memory.confined_insertScore owned)
  authorize := authorize_respects
  entityExists _ owned := entityExists_respects owned
  environmentFor _ owned := environmentFor_respects owned
  enqueue _ _ := enqueue_respects _
  drawId := drawId_respects
  now := now_respects
  named _ _ entity alike owned score held :=
    (congrArg EntityRef.organization
      (alike.calm.filed entity score (List.mem_of_find?_eq_some held))).trans owned

theorem refresh_respects (owned : entity.organization = organization) :
    (refresh Memory.backend c entity).Respects (Alike organization) :=
  (scoreable_alike organization).refresh_respects owned

theorem override_respects (actor : String) (owned : entity.organization = organization)
    (value : Int64) (staleAt : Option Timestamp) :
    (override Memory.backend c actor entity value staleAt).Respects (Alike organization) :=
  (scoreable_alike organization).override_respects actor owned value staleAt

theorem getActive_respects (owned : entity.organization = organization) :
    (getActive Memory.backend c policy entity).Respects (Alike organization) :=
  (scoreable_alike organization).getActive_respects owned

theorem history_respects (owned : entity.organization = organization) :
    (history Memory.backend entity).Respects (Alike organization) :=
  (scoreable_alike organization).history_respects owned

theorem work_respects {job : Job} (owned : job.organization = organization) :
    (work Memory.backend c job).Respects (Alike organization) := by
  subst owned
  cases job with
  | recomputeScore entity =>
    exact (refresh_respects rfl).bind fun _ => Action.respects_pure _
  | createIndexes owner indexes =>
    exact (call_respects (Memory.confined_markReady.confined indexes)).restate.bind fun _ =>
      Action.respects_pure _

end Lifecycle

end RiskRules
