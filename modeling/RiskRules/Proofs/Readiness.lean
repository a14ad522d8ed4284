import RiskRules.Proofs.Calls
import RiskRules.Proofs.RelatedLookups
import RiskRules.Proofs.StoredRulesets
import RiskRules.Store.Handle
import RiskRules.Workflow

/-!
What a commit has made sure of. Every store commits the draft that it reads, and answers about each
index alone (`Backend.Coherent`, which holds of the store in memory, of tables and of any store
held). So when the workflow commits a ruleset, every index that the ruleset needs was ready in the
store (`Workflow.ready_of_commit`), and what the ruleset comes to depends on related fields with
ready indexes alone (`Scoring.execute_of_covered`).
-/

namespace RiskRules

/-! ### Coherent stores -/

/-- Reading changes nothing, each index has a state of its own, and what is committed is what was
read as the draft. -/
structure Backend.Coherent {σ : Type} (b : Backend σ) : Prop where
  draft_keeps : ∀ key, (b.draft key).Keeps id
  indexStates_keeps : ∀ organization indexes, (b.indexStates organization indexes).Keeps id
  indexStates_each : ∀ organization indexes s states,
    (b.indexStates organization indexes s).1 = .ok states →
      List.Forall₂ (fun i state => (b.indexStates organization [i] s).1 = .ok [state]) indexes
        states
  commitDraft_eq : ∀ key s ruleset s', b.commitDraft key s = (.ok ruleset, s') →
    ∃ draft, (b.draft key s).1 = .ok (some draft) ∧ ruleset = { draft with status := .committed }

theorem Memory.coherent : Memory.backend.Coherent where
  draft_keeps _ := Action.keeps_view id _
  indexStates_keeps _ _ := Action.keeps_view id _
  indexStates_each organization indexes m states given := by
    cases given
    exact List.forall₂_map_right_iff.mpr (List.forall₂_same.mpr fun i _ => rfl)
  commitDraft_eq key m ruleset m' ran := by
    simp only [Memory.backend, Memory.commitDraft] at ran
    split at ran
    · cases ran
    · rename_i draft held
      cases ran
      exact ⟨draft, congrArg Except.ok held, rfl⟩

theorem Tables.coherent (r : Registry) : (Tables.backend r).Coherent where
  draft_keeps _ := reading_keeps _
  indexStates_keeps _ _ := reading_keeps _
  indexStates_each organization indexes t states given := by
    have each := mapM_eq_ok_iff.mp (reading_eq_ok_iff.mp given)
    exact each.imp fun i state read =>
      reading_eq_ok_iff.mpr (mapM_eq_ok_iff.mpr (.cons read .nil))
  commitDraft_eq key t ruleset t' ran := by
    rw [commitDraft_apply] at ran
    split at ran
    · rename_i draft read
      cases ran
      exact ⟨draft, reading_eq_ok_iff.mpr read, rfl⟩
    · cases ran
    · cases ran

namespace StoreHandle

variable {α : Type} {op : {σ : Type} → Backend σ → Action σ StoreError α}

theorem serve_keeps (memory : (op Memory.backend).Keeps id)
    (tables : ∀ r, (op (Tables.backend r)).Keeps id) : (serve op).Keeps id := by
  intro s
  cases s with
  | memory m => exact congrArg StoreHandle.memory (memory m)
  | tables r t => exact congrArg (StoreHandle.tables r) (tables r t)
  | closed r t => rfl

theorem coherent : backend.Coherent where
  draft_keeps key := serve_keeps (Memory.coherent.draft_keeps key) fun r =>
    (Tables.coherent r).draft_keeps key
  indexStates_keeps organization indexes :=
    serve_keeps (Memory.coherent.indexStates_keeps organization indexes) fun r =>
      (Tables.coherent r).indexStates_keeps organization indexes
  indexStates_each organization indexes s states given := by
    cases s with
    | memory m => exact Memory.coherent.indexStates_each organization indexes m states given
    | tables r t => exact (Tables.coherent r).indexStates_each organization indexes t states given
    | closed r t => cases given
  commitDraft_eq key s ruleset s' ran := by
    cases s with
    | memory m =>
      obtain ⟨given, -⟩ := Prod.mk.inj ran
      exact Memory.coherent.commitDraft_eq key m ruleset _ (Prod.ext given rfl)
    | tables r t =>
      obtain ⟨given, -⟩ := Prod.mk.inj ran
      exact (Tables.coherent r).commitDraft_eq key t ruleset _ (Prod.ext given rfl)
    | closed r t => cases ran

end StoreHandle

/-! ### Committing -/

namespace Workflow

variable {σ : Type} {b : Backend σ} {w after : World σ} {key : PairKey}

theorem draft_of_requireDraft (coherent : b.Coherent) {draft : Ruleset}
    (ran : requireDraft b key w = (.ok draft, after)) :
    (b.draft key w.store).1 = .ok (some draft) ∧ after.store = w.store := by
  obtain ⟨found, w₁, read, ran⟩ := Action.bind_eq_ok_iff.mp ran
  obtain ⟨store, done, rfl⟩ := World.call_eq_ok (Action.restate_eq_ok_iff.mp read)
  have kept := (coherent.draft_keeps key).after done
  cases found with
  | none => cases ran
  | some found =>
    cases ran
    exact ⟨congrArg Prod.fst done, kept⟩

/-- A full answer about indexes is the store's own. -/
theorem states_of_indexStates (coherent : b.Coherent) {organization : String}
    {required : List IndexSpec} {states : List IndexState} (some_required : required ≠ [])
    (ran : World.indexStates b organization required w = (.ok states, after))
    (complete : states.length = required.length) :
    (b.indexStates organization required w.store).1 = .ok states := by
  rw [World.indexStates] at ran
  split at ran
  rename_i r called_after called
  split at ran
  · cases ran
    obtain ⟨store, done, -⟩ := World.call_eq_ok called
    exact congrArg Prod.fst done
  · cases r with
    | error e => cases ran
    | ok given =>
      -- The answer was cut short, so it had one state more than there are indexes.
      cases ran
      obtain ⟨store, done, -⟩ := World.call_eq_ok called
      have each := coherent.indexStates_each _ _ _ _ (congrArg Prod.fst done)
      have full := each.length_eq
      have positive := List.length_pos_iff.mpr some_required
      rw [List.length_dropLast] at complete
      omega

/-- If nothing is found that is not ready, all that was asked for is ready. -/
theorem ready_of_notReady (coherent : b.Coherent) {organization : String}
    {required : List IndexSpec} {blocking : List (IndexSpec × IndexState)}
    (ran : notReady b organization required w = (.ok blocking, after))
    (nothing : blocking.isEmpty = true) :
    (∀ i ∈ required, (b.indexStates organization [i] w.store).1 = .ok [.ready]) ∧
      after.store = w.store := by
  rw [notReady] at ran
  split at ran
  · rename_i none_required
    obtain rfl := List.isEmpty_iff.mp none_required
    cases ran
    exact ⟨by simp, rfl⟩
  · rename_i some_required
    obtain ⟨states, w₁, asked, ran⟩ := Action.bind_eq_ok_iff.mp ran
    have asked := Action.restate_eq_ok_iff.mp asked
    have kept :=
      (World.indexStates_keeps World.quiet_store (coherent.indexStates_keeps _ _)).after asked
    split at ran
    · cases ran
    · rename_i complete
      cases ran
      have nonempty : required ≠ [] := fun none_required => some_required (by simp [none_required])
      have answered := states_of_indexStates coherent nonempty asked (by simpa using complete)
      have each := coherent.indexStates_each _ _ _ _ answered
      have all_ready : ∀ entry ∈ required.zip states, entry.2 = .ready := by
        simpa [List.filter_eq_nil_iff] using nothing
      refine ⟨fun i mem => ?_, kept⟩
      rw [← List.map_fst_zip each.length_eq.le] at mem
      obtain ⟨⟨i, state⟩, pair, rfl⟩ := List.mem_map.mp mem
      obtain rfl : state = .ready := all_ready _ pair
      exact List.forall₂_zip each pair

/-- **What committing has made sure of.** Every index that a committed ruleset needs was ready. -/
theorem ready_of_commit (coherent : b.Coherent) {ruleset : Ruleset}
    (ran : commit b key w = (.ok ruleset, after)) :
    ∀ i ∈ ruleset.requiredIndexes,
      (b.indexStates key.organization [i] w.store).1 = .ok [.ready] := by
  obtain ⟨draft, w₁, required, ran⟩ := Action.bind_eq_ok_iff.mp ran
  obtain ⟨blocking, w₂, checked, ran⟩ := Action.bind_eq_ok_iff.mp ran
  obtain ⟨read, kept₁⟩ := draft_of_requireDraft coherent required
  split at ran
  · rename_i nothing
    obtain ⟨ready, kept₂⟩ := ready_of_notReady coherent checked nothing
    obtain ⟨store, done, -⟩ := World.call_eq_ok (Action.restate_eq_ok_iff.mp ran)
    obtain ⟨again, read_again, rfl⟩ := coherent.commitDraft_eq _ _ _ _ done
    rw [kept₂, kept₁, read] at read_again
    cases read_again
    rw [kept₁] at ready
    exact ready
  · cases ran

end Workflow

/-! ### A lookup in a table -/

namespace Lookup

/-- The index of the risk of a customer. -/
def risk : IndexSpec :=
  ⟨"customers", "risk"⟩

/-- The risk of the customer who owns an account, which is to reach 5. -/
def body : Node :=
  .make .scoreComputation none []
    [("condition", .make .greaterOrEqual none []
      [("left", .make .databaseAccess none []
        [("fieldName", .make .constant (some (.string risk.field)) [] []),
          ("path", .make .constant (some (.list [.string "owner"])) [] []),
          ("tableName", .make .constant (some (.string risk.table)) [] [])]),
        ("right", .make .constant (some (.int 5)) [] [])]),
      ("modifier", .make .constant (some (.int 20)) [] [])]

/-- A draft of one rule. -/
def draft : Ruleset :=
  ⟨⟨"acme", "account"⟩, 1, .draft, "first", [0, 10], .ofSeconds 60,
    [⟨"risk", "risk", "", body⟩]⟩

/-- A world around a store that holds the draft and whose index is ready. -/
def world : World StoreHandle :=
  .fresh (.memory { Memory.empty with
    drafts := [(draft.key, draft)], indexes := [(("acme", risk), .ready)] }) .epoch fun _ => ""

/-- What is known about an account: the risk of its owner, and the total of its orders or not. -/
def facts (total : List (RelatedKey × Value)) : Facts :=
  { Facts.empty with related := (⟨risk.table, ["owner"], risk.field⟩, .int 7) :: total }

/-- The total of an account's orders. -/
def orders : List (RelatedKey × Value) :=
  [(⟨"orders", [], "total"⟩, .int 1000)]

theorem constantLookups_draft : draft.ConstantLookups := by
  simp [Ruleset.ConstantLookups, draft, body, Node.make, Node.walk, Node.walkAll, Node.walkNamed,
    Node.NamesConstantly, Keyed.get?]

/-- Environments with and without the orders answer alike about the risk. -/
theorem agree_on_risk :
    (facts []).toEnvironment.AgreeOn (· = risk) (facts orders).toEnvironment := by
  refine ⟨fun _ => rfl, fun _ => rfl, ?_, fun _ => rfl⟩
  intro table field path known
  obtain ⟨rfl, rfl⟩ := IndexSpec.mk.inj known
  have elsewhere : orders.lookup ⟨"customers", path, "risk"⟩ = none := by
    simp [orders, List.lookup_eq_none_iff]
  have same : (facts []).related.lookup ⟨"customers", path, "risk"⟩
      = (facts orders).related.lookup ⟨"customers", path, "risk"⟩ := by
    simp only [facts, List.lookup_cons, elsewhere, List.lookup_nil]
  exact congrArg (Facts.answer .relatedField "customers.risk") same

/-- No index but that of the risk is ready. -/
theorem eq_risk_of_ready {i : IndexSpec}
    (ready : (StoreHandle.backend.indexStates "acme" [i] world.store).1 = .ok [.ready]) :
    i = risk := by
  by_contra other
  have missing : (StoreHandle.backend.indexStates "acme" [i] world.store).1 = .ok [.missing] := by
    simp [StoreHandle.backend, StoreHandle.serve, Memory.backend, Action.view, world, World.fresh,
      Memory.indexState, Slots.get?, Ne.symm other]
  rw [missing] at ready
  cases ready

end Lookup

/-! ### What a committed ruleset depends on -/

/-- **Related fields are read where indexes are needed, and no others.** Where the table and the
field of every lookup are constants, a ruleset comes to the same, by any registry, in environments
that answer alike but for related fields whose index it does not need. So once the workflow has
committed it in any store, it comes to the same in environments that answer alike but for related
fields whose index was not ready. -/
theorem Scoring.execute_of_covered {ruleset : Ruleset} (constantly : ruleset.ConstantLookups) :
    (∀ (r : Registry) (a b : Environment), a.AgreeOn (· ∈ ruleset.requiredIndexes) b →
      execute r a ruleset = execute r b ruleset) ∧
    ∀ (key : PairKey) (w after : World StoreHandle),
      Workflow.commit StoreHandle.backend key w = (.ok ruleset, after) →
      ∀ (r : Registry) (a b : Environment),
        a.AgreeOn (fun i =>
          (StoreHandle.backend.indexStates key.organization [i] w.store).1 = .ok [.ready]) b →
        execute r a ruleset = execute r b ruleset := by
  refine ⟨fun r a b agree => execute_congr r constantly agree,
    fun key w after committed r a b agree => ?_⟩
  have ready := Workflow.ready_of_commit StoreHandle.coherent committed
  exact execute_congr r constantly (agree.mono ready)

/-- The draft is committed, and comes to the same with and without the orders, which no ready index
covers. -/
theorem Scoring.execute_of_covered_risk : ∃ ruleset after,
    Workflow.commit StoreHandle.backend ⟨"acme", "account"⟩ Lookup.world = (.ok ruleset, after) ∧
    ruleset.requiredIndexes = [Lookup.risk] ∧ ruleset.ConstantLookups ∧
    ((Lookup.facts []).toEnvironment.relatedField "orders" "total" []).isOk = false ∧
    ((Lookup.facts Lookup.orders).toEnvironment.relatedField "orders" "total" []).isOk = true ∧
    execute .standard (Lookup.facts []).toEnvironment ruleset
      = execute .standard (Lookup.facts Lookup.orders).toEnvironment ruleset ∧
    ((execute .standard (Lookup.facts []).toEnvironment ruleset).toOption.map
      ScoringRecord.score) = some 3 := by
  have constantly : { Lookup.draft with status := .committed }.ConstantLookups :=
    Lookup.constantLookups_draft
  have covered := execute_of_covered constantly
  have same := covered.2 ⟨"acme", "account"⟩ Lookup.world _ rfl .standard _ _
    (Lookup.agree_on_risk.mono fun i ready => Lookup.eq_risk_of_ready ready)
  exact ⟨_, _, rfl, by decide, Lookup.constantLookups_draft, by decide, by decide, same, by decide⟩

end RiskRules
