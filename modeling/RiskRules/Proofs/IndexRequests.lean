import RiskRules.Proofs.Listing
import RiskRules.Proofs.Readiness
import RiskRules.Proofs.Session
import RiskRules.Proofs.StoredIndexes

/-!
Asking for indexes. A ruleset needs each index once (`Ruleset.nodup_requiredIndexes`), and marking
many indexes changes the states of those alone (`Memory.indexState_markAllPending`). Preparing a
draft queues one job for those of its indexes that are missing and marks them, the job first, so
that a mark that fails leaves a job without a mark and never a mark without a job
(`Workflow.prepare_cases`).
-/

namespace RiskRules

/-! ### Needed indexes, each once -/

namespace IndexSpec

theorem before_iff {i j : IndexSpec} :
    i.before j = true ↔ i.table < j.table ∨ i.table = j.table ∧ i.field < j.field := by
  simp [before]

theorem before_trans {i j k : IndexSpec} (first : i.before j = true) (second : j.before k = true) :
    i.before k = true :=
  two_parts_trans IndexSpec.table (fun i j => decide (i.field < j.field))
    (fun i j k below above => by
      simp only [decide_eq_true_eq] at below above ⊢
      exact String.lt_trans below above) i j k first second

theorem not_before_self (i : IndexSpec) : i.before i ≠ true := by
  simp [before]

/-- Of two indexes one is before the other. -/
theorem before_of_not_before {i j : IndexSpec} (different : i ≠ j) (not_before : ¬i.before j = true) :
    j.before i = true := by
  rw [before_iff] at not_before ⊢
  obtain ⟨table, fields⟩ := not_or.mp not_before
  by_cases below : j.table < i.table
  · exact .inl below
  · have same : i.table = j.table :=
      String.le_antisymm (String.not_lt.mp below) (String.not_lt.mp table)
    refine .inr ⟨same.symm, ?_⟩
    by_contra not_below
    have same_field : i.field = j.field :=
      String.le_antisymm (String.not_lt.mp not_below) (String.not_lt.mp fun less => fields ⟨same, less⟩)
    exact different (by cases i; cases j; simp_all)

/-- In ascending order. -/
def Ascending (indexes : List IndexSpec) : Prop :=
  indexes.Pairwise fun i j => i.before j = true

theorem Ascending.insert {i : IndexSpec} {indexes : List IndexSpec} (ascending : Ascending indexes) :
    Ascending (insert i indexes) := by
  induction indexes with
  | nil => exact List.pairwise_singleton _ _
  | cons j rest ih =>
    obtain ⟨first, later⟩ := List.pairwise_cons.mp ascending
    rw [IndexSpec.insert]
    split
    · exact ascending
    · rename_i different
      split
      · rename_i below
        refine List.pairwise_cons.mpr ⟨List.forall_mem_cons.mpr ⟨below, fun k mem => ?_⟩, ascending⟩
        exact before_trans below (first k mem)
      · rename_i not_below
        refine List.pairwise_cons.mpr ⟨fun k mem => ?_, ih later⟩
        rcases mem_insert.mp mem with rfl | mem
        · exact before_of_not_before different not_below
        · exact first k mem

theorem Ascending.nodup {indexes : List IndexSpec} (ascending : Ascending indexes) :
    indexes.Nodup :=
  ascending.imp fun {i j} (below : i.before j = true) (same : i = j) =>
    not_before_self j (same ▸ below)

theorem Ascending.collect {node : Node} {indexes : List IndexSpec} (ascending : Ascending indexes) :
    Ascending (collect node indexes) := by
  rw [IndexSpec.collect]
  induction node.walk.filterMap ofNode? generalizing indexes with
  | nil => exact ascending
  | cons i rest ih => exact ih ascending.insert

end IndexSpec

/-- A ruleset needs its indexes in ascending order. -/
theorem Ruleset.ascending_requiredIndexes (r : Ruleset) :
    IndexSpec.Ascending r.requiredIndexes := by
  have gathered : ∀ (rules : List Rule) (indexes : List IndexSpec), IndexSpec.Ascending indexes →
      IndexSpec.Ascending
        (rules.foldl (fun indexes rule => IndexSpec.collect rule.body indexes) indexes) := by
    intro rules
    induction rules with
    | nil => exact fun _ ascending => ascending
    | cons rule rest ih => exact fun _ ascending => ih _ ascending.collect
  exact gathered r.rules [] List.Pairwise.nil

/-- A ruleset needs each index once. -/
theorem Ruleset.nodup_requiredIndexes (r : Ruleset) : r.requiredIndexes.Nodup :=
  r.ascending_requiredIndexes.nodup

/-! ### States on their way -/

/-- How far an index is on its way from missing over pending to ready. -/
def IndexState.stage : IndexState → Nat
  | .missing => 0
  | .pending => 1
  | .ready => 2

/-- What is no further than a missing index is missing. -/
theorem IndexState.eq_missing_of_stage_le {s : IndexState} (behind : s.stage ≤ stage .missing) :
    s = .missing := by
  cases s with
  | missing => rfl
  | pending | ready => cases behind

/-- What is as far as a ready index is ready. -/
theorem IndexState.eq_ready_of_stage_le {s : IndexState} (ahead : stage .ready ≤ s.stage) :
    s = .ready := by
  cases s with
  | ready => rfl
  | missing | pending => simp [stage] at ahead

namespace Memory

variable {m : Memory} {organization owner : String} {indexes : List IndexSpec} {i j : IndexSpec}

theorem indexState_markAllReady :
    (indexes.foldl (markReady organization) m).indexState owner j
      = if owner = organization ∧ j ∈ indexes then .ready else m.indexState owner j := by
  induction indexes generalizing m with
  | nil => simp
  | cons i rest ih =>
    rw [List.foldl_cons, ih, indexState_markReady]
    simp only [Prod.mk.injEq, List.mem_cons]
    grind

theorem indexState_markAllPending :
    (indexes.foldl (markPending organization) m).indexState owner j
      = if (owner = organization ∧ j ∈ indexes) ∧ m.indexState owner j = .missing then .pending
        else m.indexState owner j := by
  induction indexes generalizing m with
  | nil => simp
  | cons i rest ih =>
    rw [List.foldl_cons, ih, indexState_markPending]
    simp only [Prod.mk.injEq, List.mem_cons]
    grind

end Memory

/-! ### Preparing -/

namespace Workflow

variable {w after : World Memory} {organization : String} {required missing : List IndexSpec}

/-- What is not ready are the indexes that the store knows as pending or missing. -/
theorem eq_of_notReady {blocking : List (IndexSpec × IndexState)}
    (ran : notReady Memory.backend organization required w = (.ok blocking, after)) :
    blocking = (required.map fun i => (i, w.store.indexState organization i)).filter
      fun entry => entry.2 != .ready := by
  rw [notReady] at ran
  split at ran
  · rename_i none_required
    obtain rfl := List.isEmpty_iff.mp none_required
    cases ran
    rfl
  · rename_i some_required
    obtain ⟨states, w₁, asked, given⟩ := Action.bind_eq_ok_iff.mp ran
    split at given
    · cases given
    · rename_i complete
      have nonempty : required ≠ [] := fun nothing => some_required (by simp [nothing])
      have answered := states_of_indexStates Memory.coherent nonempty
        (Action.restate_eq_ok_iff.mp asked) (by simpa using complete)
      obtain rfl : states = required.map (w.store.indexState organization) :=
        (Except.ok.inj answered).symm
      cases given
      rw [List.map_prod_left_eq_zip]

/-- The missing ones among the indexes that are not ready. -/
theorem map_fst_missing (state : IndexSpec → IndexState) (required : List IndexSpec) :
    ((((required.map fun i => (i, state i)).filter fun entry => entry.2 != .ready).filter
      fun entry => entry.2 == .missing).map Prod.fst)
      = required.filter fun i => decide (state i = .missing) := by
  induction required with
  | nil => rfl
  | cons i rest ih => cases known : state i <;> simp_all

/-- What has happened when a request for missing indexes has come to its end: nothing, or a job for
them has been queued and they have all been marked, or the job has been queued and the mark has
failed. -/
theorem requestIndexes_cases {r : Except WorkflowError Unit}
    (ran : requestIndexes Memory.backend organization missing w = (r, after)) :
    (after.store = w.store ∧ after.jobs = w.jobs) ∨
    after.jobs = w.jobs ++ [.createIndexes organization missing] ∧
      (after.store = missing.foldl (Memory.markPending organization) w.store ∨
        after.store = w.store ∧ ∃ e, r = .error (.store e)) := by
  rw [requestIndexes] at ran
  split at ran
  · cases ran
    exact .inl ⟨rfl, rfl⟩
  · rw [Action.bind_apply, Action.restate] at ran
    cases refusal : w.refusal with
    | some text =>
      rw [World.enqueue_of_refused _ refusal] at ran
      cases ran
      exact .inl ⟨rfl, rfl⟩
    | none =>
      rw [World.enqueue_of_taken _ refusal] at ran
      refine .inr ?_
      rcases Action.restate_cases ran with ⟨_, marked, -⟩ | ⟨e, failed, rfl⟩
      · obtain ⟨m, done, rfl⟩ := World.call_eq_ok marked
        cases done
        exact ⟨rfl, .inl rfl⟩
      · rcases World.call_cases failed with ⟨_, planned, -, -, rfl⟩ | ⟨-, m, done, -⟩
        · exact ⟨rfl, .inr ⟨rfl, e, rfl⟩⟩
        · cases done

/-- **What preparing does.** It leaves store and queue alone, or it queues one job for different
indexes of the organization that are missing and marks them all, or it queues the job and gives the
error of the mark, which has changed nothing. -/
theorem prepare_cases {key : PairKey} {r : Except WorkflowError PreparationReport}
    (ran : prepare Memory.backend key w = (r, after)) :
    (after.store = w.store ∧ after.jobs = w.jobs) ∨
    ∃ missing : List IndexSpec, missing.Nodup ∧
      (∀ i ∈ missing, w.store.indexState key.organization i = .missing) ∧
      after.jobs = w.jobs ++ [.createIndexes key.organization missing] ∧
      (after.store = missing.foldl (Memory.markPending key.organization) w.store ∨
        after.store = w.store ∧ ∃ e, r = .error (.store e)) := by
  rcases Action.bind_cases ran with ⟨draft, w₁, found, preparing⟩ | ⟨_, failed, -⟩
  swap
  · exact .inl ⟨(requireDraft_keeps World.quiet_store).after failed,
      (requireDraft_keeps World.quiet_jobs).after failed⟩
  have store₁ := (requireDraft_keeps World.quiet_store).after found
  have jobs₁ := (requireDraft_keeps World.quiet_jobs).after found
  rcases Action.bind_cases preparing with ⟨blocking, w₂, checked, asking⟩ | ⟨_, failed, -⟩
  swap
  · exact .inl ⟨((notReady_keeps World.quiet_store).after failed).trans store₁,
      ((notReady_keeps World.quiet_jobs).after failed).trans jobs₁⟩
  have store₂ := ((notReady_keeps World.quiet_store).after checked).trans store₁
  have jobs₂ := ((notReady_keeps World.quiet_jobs).after checked).trans jobs₁
  obtain ⟨request, asked, passed_on⟩ := Action.bind_cases_of_keeps (fun _ => by
    split
    · exact Action.keeps_pure _
    · exact Action.keeps_fail _) asking
  rw [eq_of_notReady checked, map_fst_missing, store₁] at asked
  rcases requestIndexes_cases asked with ⟨same_store, same_jobs⟩ | ⟨queued, marked⟩
  · exact .inl ⟨same_store.trans store₂, same_jobs.trans jobs₂⟩
  · rw [jobs₂] at queued
    rw [store₂] at marked
    refine .inr ⟨_, (Ruleset.nodup_requiredIndexes draft).filter _, fun i mem => ?_, queued, ?_⟩
    · exact of_decide_eq_true (List.mem_filter.mp mem).2
    · exact marked.imp_right fun ⟨same, e, failed⟩ => ⟨same, e, passed_on _ failed⟩

end Workflow

end RiskRules
