import RiskRules.Proofs.Evaluation

/-!
No failure is swallowed. In the record of a tree that construction calls gave, a node has a value
exactly when every node below it has one, whatever registry and environment evaluate it
(`Evaluator.no_failure_swallowed`). The step is one node over its children's records: a function
that comes to a value has read them all, and a node that was too deep or not enabled has no value.
-/

namespace RiskRules

/-! ### Faithful records -/

/-- A record and all records in it have a value exactly when everything in them has one, and an
error exactly when they have no value. -/
structure Evaluation.Faithful (e : Evaluation) : Prop where
  value_iff : ∀ record ∈ e.records,
    (record.value.isSome = true ↔ ∀ part ∈ record.records, part.value.isSome = true)
  error_iff : ∀ record ∈ e.records, (record.error = none ↔ record.value.isSome = true)

namespace Evaluation

variable {e : Evaluation}

/-- A faithful record that has not failed has values throughout. -/
theorem Faithful.all_values (faithful : e.Faithful) {v : Value} (ok : e.outcome = .ok v) :
    ∀ part ∈ e.records, part.value.isSome = true := by
  have no_error : e.error = none := by
    cases h : e.error with
    | none => rfl
    | some error => simp [outcome, h] at ok
  have has_value := (faithful.error_iff e (self_mem_records e)).mp no_error
  exact (faithful.value_iff e (self_mem_records e)).mp has_value

/-- A faithful record has not failed exactly when there are no errors in it. -/
theorem Faithful.succeeded_iff (faithful : e.Faithful) : e.succeeded = true ↔ e.errors = [] := by
  rw [succeeded, Option.isNone_iff_eq_none, errors_eq_nil_iff]
  constructor
  · intro no_error part mem
    have has_value := (faithful.error_iff e (self_mem_records e)).mp no_error
    have part_value := (faithful.value_iff e (self_mem_records e)).mp has_value part mem
    exact (faithful.error_iff part mem).mpr part_value
  · exact fun clean => clean e (self_mem_records e)

/-- The step: a record over faithful records is faithful when none of them failed under a value. -/
theorem faithful_ofOutcome {func : Func} {outcome : Except EvaluationError Value}
    {children : List Evaluation} {named : List (String × Evaluation)}
    (children_faithful : ∀ child ∈ children, child.Faithful)
    (named_faithful : ∀ entry ∈ named, entry.2.Faithful)
    (under : ∀ v, outcome = .ok v → (∀ child ∈ children, ∃ v, child.outcome = .ok v) ∧
      ∀ entry ∈ named, ∃ v, entry.2.outcome = .ok v) :
    (ofOutcome func outcome children named).Faithful := by
  have below : ∀ part ∈ (ofOutcome func outcome children named).records,
      part = ofOutcome func outcome children named ∨
        ∃ e : Evaluation, e.Faithful ∧ part ∈ e.records := by
    intro part mem
    rcases mem_records.mp mem with here | ⟨child, child_mem, mem⟩ | ⟨entry, entry_mem, mem⟩
    · exact .inl here
    · exact .inr ⟨child, children_faithful child (by simpa using child_mem), mem⟩
    · exact .inr ⟨entry.2, named_faithful entry (by simpa using entry_mem), mem⟩
  refine ⟨fun record mem => ?_, fun record mem => ?_⟩
  · rcases below record mem with rfl | ⟨e, faithful, mem⟩
    · refine ⟨fun has_value part mem => ?_, fun all => all _ (self_mem_records _)⟩
      obtain ⟨v, ok⟩ := ofOutcome_value_isSome_iff.mp has_value
      rcases mem_records.mp mem with rfl | ⟨child, child_mem, mem⟩ | ⟨entry, entry_mem, mem⟩
      · exact has_value
      · rw [ofOutcome_children] at child_mem
        obtain ⟨_, child_ok⟩ := (under v ok).1 child child_mem
        exact (children_faithful child child_mem).all_values child_ok part mem
      · rw [ofOutcome_named] at entry_mem
        obtain ⟨_, entry_ok⟩ := (under v ok).2 entry entry_mem
        exact (named_faithful entry entry_mem).all_values entry_ok part mem
    · exact faithful.value_iff record mem
  · rcases below record mem with rfl | ⟨e, faithful, mem⟩
    · rw [ofOutcome_error_eq_none_iff, ofOutcome_value_isSome_iff]
    · exact faithful.error_iff record mem

end Evaluation

/-! ### Trees -/

namespace Evaluator

variable {r : Registry} {env : Environment} {level : Nat} {node : Node} {e : Evaluation}

/-- A function that came to a value was enabled and had arguments that all have values. -/
theorem arguments_ok_of_apply {literal : Option Value} {a : Arguments} {v : Value}
    (applied : apply r env literal a = .ok v)
    (shape : WellShaped a.func literal a.children.length (a.named.map Prod.fst))
    (ordered : Keyed.Ascending a.named) :
    (∀ record ∈ a.children, ∃ v, record.outcome = .ok v) ∧
      ∀ entry ∈ a.named, ∃ v, entry.2.outcome = .ok v := by
  unfold apply dispatch at applied
  split at applied
  · split at applied
    · rename_i d demanded
      exact arguments_ok_of_demand demanded shape ordered
    · cases applied
  · cases applied

/-- The record of a valid tree is faithful, at any level. -/
theorem faithful_of_evaluateAt (valid : node.Valid)
    (evaluated : evaluateAt r env level node = .ok e) : e.Faithful := by
  induction valid generalizing level e with
  | @make func literal children named shape ordered _ _ children_faithful named_faithful =>
    rcases evaluateAt_eq_ok_iff.mp evaluated with
      ⟨_, rfl⟩ | ⟨_, cs, cs_ok, ns, ns_ok, outcome, applied, rfl⟩
    · exact Evaluation.faithful_ofOutcome (by simp) (by simp) nofun
    · refine Evaluation.faithful_ofOutcome (fun c mem => ?_) (fun entry mem => ?_) ?_
      · obtain ⟨n, n_mem, n_ok⟩ := exists_of_mem_right cs_ok mem
        exact children_faithful n n_mem n_ok
      · obtain ⟨n, n_mem, -, n_ok⟩ := exists_of_mem_right ns_ok mem
        exact named_faithful n n_mem n_ok
      · rintro v rfl
        obtain ⟨shape, ordered⟩ := wellShaped_of_evaluated shape ordered cs_ok ns_ok
        exact arguments_ok_of_apply applied shape ordered

/-- **No failure is swallowed.** A tree that construction calls gave is evaluated by any registry in
any environment without faults, and in every evaluation of it each record has a value exactly when
all records in it have one; the tree succeeds exactly when there are no errors. -/
theorem no_failure_swallowed {on : Registry → Prop} {node : Node} (built : node.Built on)
    (r : Registry) (env : Environment) :
    (env.Steady → ∃ e, evaluate r env node = .ok e) ∧
      ∀ e, evaluate r env node = .ok e →
        (∀ record ∈ e.records,
          (record.value.isSome = true ↔ ∀ part ∈ record.records, part.value.isSome = true)) ∧
        (e.value.isSome = true ↔ e.succeeded = true) ∧ (e.succeeded = true ↔ e.errors = []) := by
  refine ⟨fun steady => exists_evaluate steady node, fun e evaluated => ?_⟩
  have faithful := faithful_of_evaluateAt built.valid evaluated
  refine ⟨faithful.value_iff, ?_, faithful.succeeded_iff⟩
  rw [Evaluation.succeeded, Option.isNone_iff_eq_none]
  exact (faithful.error_iff e e.self_mem_records).symm

/-- A conjunction that its first operand settles still fails with its second. -/
theorem no_failure_swallowed_by_settled_and : ∃ settled field node e,
    Registry.standard.constant (.bool false) = .ok settled ∧
    Registry.standard.payload "absent" = .ok field ∧
    Registry.standard.variadic .and [settled, field] = .ok node ∧
    evaluate .standard Facts.empty.toEnvironment node = .ok e ∧
    e.errors ≠ [] ∧ e.succeeded = false ∧ e.value = none := by
  refine ⟨_, _, _, _, rfl, rfl, rfl, rfl, ?_⟩
  have settled := @Node.Built.constant (· = .standard) .standard (.bool false) _ rfl rfl
  have field := @Node.Built.payload (· = .standard) .standard "absent" _ rfl rfl
  have built := @Node.Built.variadic (· = .standard) .standard .and _ _ rfl
    (List.forall_mem_cons.mpr ⟨settled, List.forall_mem_singleton.mpr field⟩) rfl
  obtain ⟨-, value_iff, errors_iff⟩ :=
    (no_failure_swallowed built .standard Facts.empty.toEnvironment).2 _ rfl
  have failed := mt errors_iff.mp (by decide)
  exact ⟨by decide, Bool.eq_false_iff.mpr failed, by simpa using mt value_iff.mp failed⟩

end Evaluator

end RiskRules
