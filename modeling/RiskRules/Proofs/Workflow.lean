import Mathlib.Data.List.Chain
import RiskRules.Proofs.Calls
import RiskRules.Proofs.Results
import RiskRules.Workflow

/-!
What the requests about rulesets do to a store in memory. A request for a ruleset fills the draft of
its pair with a sound ruleset of the next version (`Workflow.store_of_create`), and committing moves
a draft to the place of the committed ruleset (`Workflow.store_of_commit`); when they fail they have
changed nothing. Preparing changes no ruleset, and reading changes nothing.
-/

namespace RiskRules

/-! ### Sound rulesets -/

/-- A ruleset with few and ascending thresholds, and with rules of different ids that all have the
shape of one. -/
structure Ruleset.Sound (maxThresholds : Nat) (r : Ruleset) : Prop where
  few : r.thresholds.length ≤ min maxThresholds Thresholds.maxCount
  ascending : r.thresholds.Pairwise (· < ·)
  distinct : (r.rules.map Rule.stableId).Nodup
  shaped : ∀ rule ∈ r.rules, Ruleset.checkShape rule.body = .ok ()

namespace Thresholds

/-- No neighbours descend exactly when every threshold is below all later ones. -/
theorem firstDescent?_eq_none_iff {thresholds : List Int64} :
    firstDescent? thresholds = none ↔ thresholds.Pairwise (· < ·) := by
  have trans : IsTrans Int64 (· < ·) := ⟨fun _ _ _ => Int64.lt_trans⟩
  rw [← List.isChain_iff_pairwise]
  fun_induction firstDescent? thresholds with
  | case1 a b rest descent => simp [Int64.not_lt.mpr descent]
  | case2 a b rest ascent ih => simp [ih, Int64.not_le.mp ascent]
  | case3 thresholds short =>
    match thresholds, short with
    | [], _ => simp
    | [a], _ => simp
    | a :: b :: rest, short => exact absurd rfl (short a b rest)

theorem check_eq_ok_iff {thresholds : List Int64} {most : Nat} :
    check thresholds most = .ok () ↔
      thresholds.length ≤ most ∧ thresholds.Pairwise (· < ·) := by
  rw [← firstDescent?_eq_none_iff, check]
  by_cases many : most < thresholds.length
  · simp [many, Nat.not_le.mpr many]
  · cases firstDescent? thresholds <;> simp [many, Nat.le_of_not_lt many]

end Thresholds

namespace Workflow

open World

variable {σ γ : Type} {w after : World σ} {part : World σ → γ}

/-! ### Versions -/

theorem nextVersion_none {version : UInt32} (next : nextVersion none = .ok version) :
    version.toNat = 1 := by
  cases next
  rfl

/-- The next version is one above the committed one, never wrapped around. -/
theorem nextVersion_some {committed : Ruleset} {version : UInt32}
    (next : nextVersion (some committed) = .ok version) :
    version.toNat = committed.version.toNat + 1 := by
  rw [nextVersion] at next
  split at next
  · rename_i room
    cases next
    rw [UInt32.toNat_add]
    exact Nat.mod_eq_of_lt room
  · cases next

/-! ### Requested rules -/

section Rules

variable {committed : Option Ruleset} {request : RuleRequest} {seen : List String}
  {requests : List RuleRequest}

theorem idAndBody_keeps (quiet : Quiet part) :
    (idAndBody committed request : Action (World σ) RequestError _).Keeps part := by
  unfold idAndBody
  split
  · exact Action.keeps_give _
  · exact (drawId_keeps quiet).bind fun _ => Action.keeps_pure _
  · split
    · exact Action.keeps_give _
    · exact Action.keeps_fail _
  · exact Action.keeps_fail _

theorem resolve_keeps (quiet : Quiet part) :
    (resolve committed request : Action (World σ) RequestError Rule).Keeps part :=
  (idAndBody_keeps quiet).bind fun _ =>
    (Action.keeps_ofExcept _ _ _).bind fun _ => Action.keeps_pure _

theorem resolveAll_keeps (quiet : Quiet part) :
    (resolveAll committed seen requests : Action (World σ) RequestError _).Keeps part := by
  induction requests generalizing seen with
  | nil => exact Action.keeps_give _
  | cons request rest ih =>
    refine (resolve_keeps quiet).bind fun rule => ?_
    split
    · exact Action.keeps_fail _
    · exact ih.bind fun _ => Action.keeps_pure _

theorem checkShape_of_resolve {rule : Rule}
    (ran : resolve committed request w = (.ok rule, after)) :
    Ruleset.checkShape rule.body = .ok () := by
  obtain ⟨⟨stableId, body⟩, w₁, -, ran⟩ := Action.bind_eq_ok_iff.mp ran
  obtain ⟨_, w₂, checked, ran⟩ := Action.bind_eq_ok_iff.mp ran
  cases ran
  exact (Action.ofExcept_eq_ok_iff.mp checked).1

/-- Resolved rules have the shape of rules, and ids that differ from each other and from those seen,
whatever ids are drawn. -/
theorem resolveAll_sound {rules : List Rule}
    (ran : resolveAll committed seen requests w = (.ok rules, after)) :
    (∀ rule ∈ rules, Ruleset.checkShape rule.body = .ok () ∧ rule.stableId ∉ seen) ∧
      (rules.map Rule.stableId).Nodup := by
  induction requests generalizing seen w rules with
  | nil =>
    cases ran
    simp
  | cons request rest ih =>
    obtain ⟨rule, w₁, resolved, ran⟩ := Action.bind_eq_ok_iff.mp ran
    split at ran
    · cases ran
    · rename_i fresh
      obtain ⟨later, w₂, later_resolved, ran⟩ := Action.bind_eq_ok_iff.mp ran
      cases ran
      obtain ⟨sound, distinct⟩ := ih later_resolved
      refine ⟨List.forall_mem_cons.mpr ⟨⟨checkShape_of_resolve resolved, fresh⟩, ?_⟩, ?_⟩
      · intro other mem
        obtain ⟨shaped, unseen⟩ := sound other mem
        exact ⟨shaped, fun again => unseen (List.mem_cons_of_mem _ again)⟩
      · refine List.nodup_cons.mpr ⟨fun repeated => ?_, distinct⟩
        obtain ⟨other, mem, same⟩ := List.mem_map.mp repeated
        exact (sound other mem).2 (same ▸ List.mem_cons_self)

end Rules

/-! ### Creating -/

section Creating

variable {w after : World Memory} {part : World Memory → γ} {maxThresholds : Nat}
  {request : RulesetRequest}

/-- A request for a ruleset that fails leaves the store alone. -/
theorem create_atomic : (create Memory.backend maxThresholds request).Atomic World.store :=
  (Action.keeps_ofExcept _ _ _).bind_atomic fun _ =>
    (read_keeps quiet_store).restate.bind_atomic fun _ =>
      (Action.keeps_ofExcept _ _ _).bind_atomic fun _ =>
        (resolveAll_keeps quiet_store).restate.bind_atomic fun _ =>
          replaceDraft_atomic.restate.bind_pure fun _ => _

/-- A request for a ruleset keeps what a draft of its pair keeps. -/
theorem create_keeps (quiet : Quiet part)
    (drafts : ∀ w ruleset, ruleset.key = request.key →
      part { w with store := (Memory.replaceDraft ruleset w.store).2 } = part w) :
    (create Memory.backend maxThresholds request).Keeps part := by
  refine (Action.keeps_ofExcept _ _ _).bind fun _ => (read_keeps quiet).restate.bind fun _ => ?_
  refine (Action.keeps_ofExcept _ _ _).bind fun _ => (resolveAll_keeps quiet).restate.bind fun _ => ?_
  refine Action.Keeps.bind (call_keeps quiet fun w => ?_).restate fun _ => Action.keeps_pure _
  exact drafts w _ rfl

/-- **What a request for a ruleset does.** It fills the draft of its pair with a sound ruleset of
the version after the committed one. -/
theorem store_of_create {ruleset : Ruleset}
    (ran : create Memory.backend maxThresholds request w = (.ok ruleset, after)) :
    ruleset.key = request.key ∧ ruleset.status = .draft ∧
      nextVersion (Slots.get? request.key w.store.committed) = .ok ruleset.version ∧
      ruleset.Sound maxThresholds ∧
      after.store = { w.store with drafts := Slots.put request.key ruleset w.store.drafts } := by
  obtain ⟨_, w₁, checked, ran⟩ := Action.bind_eq_ok_iff.mp ran
  obtain ⟨committed, w₂, read, ran⟩ := Action.bind_eq_ok_iff.mp ran
  obtain ⟨version, w₃, next, ran⟩ := Action.bind_eq_ok_iff.mp ran
  obtain ⟨rules, w₄, resolved, ran⟩ := Action.bind_eq_ok_iff.mp ran
  obtain ⟨_, w₅, replaced, ran⟩ := Action.bind_eq_ok_iff.mp ran
  cases ran
  obtain ⟨in_order, same₁⟩ := Action.ofExcept_eq_ok_iff.mp checked
  obtain ⟨found, same₂⟩ := eq_of_read (Action.restate_eq_ok_iff.mp read)
  obtain ⟨next_version, same₃⟩ := Action.ofExcept_eq_ok_iff.mp next
  have kept : w₄.store = w.store := by
    rw [(resolveAll_keeps quiet_store).restate.after resolved, ← same₃, same₂, ← same₁]
  obtain ⟨few, ascending⟩ := Thresholds.check_eq_ok_iff.mp in_order
  obtain ⟨shaped, distinct⟩ := resolveAll_sound (Action.restate_eq_ok_iff.mp resolved)
  have stored := store_of_replaceDraft (Action.restate_eq_ok_iff.mp replaced)
  rw [found, ← same₁] at next_version
  rw [kept] at stored
  exact ⟨rfl, rfl, next_version, ⟨few, ascending, distinct, fun rule mem => (shaped rule mem).1⟩,
    stored⟩

end Creating

/-! ### Preparing and committing -/

section Preparing

variable {part : World Memory → γ} {key : PairKey}

theorem requireDraft_keeps (quiet : Quiet part) :
    (requireDraft Memory.backend key).Keeps part := by
  refine (read_keeps quiet).restate.bind fun draft => ?_
  cases draft with
  | none => exact Action.keeps_fail _
  | some draft => exact Action.keeps_pure _

theorem notReady_keeps (quiet : Quiet part) {organization : String} {required : List IndexSpec} :
    (notReady Memory.backend organization required).Keeps part := by
  unfold notReady
  split
  · exact Action.keeps_give _
  · have reads : (World.indexStates Memory.backend organization required).Keeps part :=
      indexStates_keeps quiet (Action.keeps_view id _)
    refine reads.restate.bind fun states => ?_
    split
    · exact Action.keeps_fail _
    · exact Action.keeps_pure _

/-- Preparing keeps what a job for indexes of its organization and marks on them keep. -/
theorem prepare_keeps (quiet : Quiet part)
    (queues : ∀ w indexes,
      part { w with jobs := w.jobs ++ [.createIndexes key.organization indexes] } = part w)
    (marks : ∀ w i, part { w with store := Memory.markPending key.organization w.store i } = part w) :
    (prepare Memory.backend key).Keeps part := by
  have requests : ∀ missing,
      (requestIndexes Memory.backend key.organization missing).Keeps part := by
    intro missing
    unfold requestIndexes
    split
    · exact Action.keeps_give _
    · exact (enqueue_keeps fun w => queues w missing).restate.bind fun _ =>
        (call_keeps quiet (foldl_marks marks missing)).restate
  refine (requireDraft_keeps quiet).bind fun draft => ?_
  refine (notReady_keeps quiet).bind fun blocking => (requests _).bind fun _ => ?_
  split
  · exact Action.keeps_pure _
  · exact Action.keeps_fail _

end Preparing

section Committing

variable {w after : World Memory} {part : World Memory → γ} {key : PairKey}

/-- A commit that fails leaves the store alone. -/
theorem commit_atomic : (commit Memory.backend key).Atomic World.store := by
  refine (requireDraft_keeps quiet_store).bind_atomic fun draft => ?_
  refine (notReady_keeps quiet_store).bind_atomic fun blocking => ?_
  split
  · exact commitDraft_atomic.restate
  · exact (Action.keeps_fail _).atomic

/-- Committing keeps what moving the draft of its pair keeps. -/
theorem commit_keeps (quiet : Quiet part)
    (moves : ∀ w, part { w with store := (Memory.commitDraft key w.store).2 } = part w) :
    (commit Memory.backend key).Keeps part := by
  refine (requireDraft_keeps quiet).bind fun draft => (notReady_keeps quiet).bind fun blocking => ?_
  split
  · exact (call_keeps quiet moves).restate
  · exact Action.keeps_fail _

/-- **What committing does.** It moves the draft of the pair to the place of the committed
ruleset. -/
theorem store_of_commit {ruleset : Ruleset}
    (ran : commit Memory.backend key w = (.ok ruleset, after)) :
    ∃ draft, Slots.get? key w.store.drafts = some draft ∧
      ruleset = { draft with status := .committed } ∧
      after.store = { w.store with
        drafts := Slots.remove key w.store.drafts
        committed := Slots.put key ruleset w.store.committed } := by
  obtain ⟨draft, w₁, required, ran⟩ := Action.bind_eq_ok_iff.mp ran
  obtain ⟨blocking, w₂, checked, ran⟩ := Action.bind_eq_ok_iff.mp ran
  have kept : w₂.store = w.store :=
    ((notReady_keeps quiet_store).after checked).trans
      ((requireDraft_keeps quiet_store).after required)
  rw [← kept]
  split at ran
  · exact store_of_commitDraft (Action.restate_eq_ok_iff.mp ran)
  · cases ran

end Committing

/-! ### Reading -/

section Reading

variable {part : World Memory → γ}

theorem get_keeps (quiet : Quiet part) {key : PairKey} {status : RulesetStatus} :
    (get Memory.backend key status).Keeps part := by
  cases status <;> exact (read_keeps quiet).restate

theorem list_keeps (quiet : Quiet part) {organization : String} :
    (list Memory.backend organization).Keeps part :=
  (read_keeps quiet).restate

end Reading

end Workflow

end RiskRules
