import Mathlib.Logic.Relation
import RiskRules.Proofs.EvaluationErrors

/-!
Where a failure comes from. An error that blames an argument names exactly one child, which failed
itself, and of unnamed children the first that did (`Evaluator.accountable_of_evaluateAt`). So
following the arguments named leads from every failed record down to one and the same record that
failed for a reason of its own (`Evaluation.exists_cause`).
-/

namespace RiskRules

namespace Evaluation

variable {e child other cause : Evaluation}

/-! ### Following the arguments named -/

/-- The error of the record names an argument, and this is the record of that argument. -/
def Blames (e child : Evaluation) : Prop :=
  ∃ (func : Func) (step : Step), e.error = some (.argumentFailed func step.label) ∧
    step.child? e.children e.named = some child

/-- Following the arguments that errors name leads from one record to another. -/
def LeadsTo : Evaluation → Evaluation → Prop :=
  Relation.ReflTransGen Blames

/-- The record failed, and not because of an argument. -/
def IsCause (e : Evaluation) : Prop :=
  ∃ error, e.error = some error ∧ ∀ func argument, error ≠ .argumentFailed func argument

/-- The record blames only its own arguments, only failed ones and the first of them, and no two of
them go by one name. -/
structure Accountable (e : Evaluation) : Prop where
  blame : ∀ func argument, e.error = some (.argumentFailed func argument) → func = e.func ∧
    ∃ (step : Step) (child : Evaluation), step.label = argument ∧
      step.FirstFailed e.children e.named child
  uniform : e.children = [] ∨ e.named = []

/-- One argument at most is blamed. -/
theorem Accountable.blames_unique (accountable : e.Accountable) (blames : e.Blames child)
    (also : e.Blames other) : child = other := by
  obtain ⟨func, step, error_eq, found⟩ := blames
  obtain ⟨func', step', error_eq', found'⟩ := also
  have same : step.label = step'.label := by
    rw [error_eq] at error_eq'
    exact (EvaluationError.argumentFailed.inj (Option.some.inj error_eq')).2
  obtain rfl := Step.eq_of_label accountable.uniform (by simp [found]) (by simp [found']) same
  exact Option.some.inj (found.symm.trans found')

/-- A record that has failed is a cause itself or blames an argument that has failed. -/
theorem Accountable.cause_or_blames (accountable : e.Accountable) (failed : e.succeeded = false) :
    e.IsCause ∨ ∃ child, e.Blames child ∧ child.succeeded = false := by
  by_cases cause : e.IsCause
  · exact .inl cause
  obtain ⟨error, error_eq⟩ : ∃ error, e.error = some error := by
    rw [succeeded, Option.isNone_eq_false_iff] at failed
    exact Option.isSome_iff_exists.mp failed
  obtain ⟨func, argument, rfl⟩ : ∃ func argument, error = .argumentFailed func argument := by
    by_contra other
    exact cause ⟨error, error_eq, fun func argument same => other ⟨func, argument, same⟩⟩
  obtain ⟨-, step, child, rfl, first⟩ := accountable.blame func argument error_eq
  exact .inr ⟨child, ⟨func, step, error_eq, first.found⟩, first.failed⟩

/-- No argument is blamed by a cause. -/
theorem IsCause.not_blames (cause : e.IsCause) : ¬e.Blames child := by
  rintro ⟨func, step, error_eq, -⟩
  obtain ⟨error, error_eq', own⟩ := cause
  rw [error_eq] at error_eq'
  exact own func step.label (Option.some.inj error_eq').symm

/-- The records in a blamed record are records in the one that blames it. -/
theorem Blames.records_subset (blames : e.Blames child) : ∀ part ∈ child.records, part ∈ e.records := by
  obtain ⟨func, step, -, found⟩ := blames
  intro part mem
  rcases Step.mem_of_child? found with child_mem | ⟨name, entry_mem⟩
  · exact mem_records.mpr (.inr (.inl ⟨child, child_mem, mem⟩))
  · exact mem_records.mpr (.inr (.inr ⟨_, entry_mem, mem⟩))

/-- **Every failure has one cause.** However far the arguments named have been followed from a
failed record, following them further leads to a record in it that failed for a reason of its
own, and always to the same. -/
theorem exists_cause (accountable : ∀ record ∈ e.records, record.Accountable)
    (failed : e.succeeded = false) :
    ∃ cause ∈ e.records, cause.IsCause ∧ ∀ part, e.LeadsTo part → part.LeadsTo cause := by
  -- The induction is on the record: what is blamed is a child.
  induction e using Evaluation.induct with
  | step e children_lead named_lead =>
    have here := accountable e e.self_mem_records
    rcases here.cause_or_blames failed with cause | ⟨child, blames, child_failed⟩
    · refine ⟨e, e.self_mem_records, cause, fun part leads => ?_⟩
      rcases Relation.ReflTransGen.cases_head leads with rfl | ⟨next, blames, -⟩
      · exact .refl
      · exact absurd blames cause.not_blames
    · have child_accountable : ∀ record ∈ child.records, record.Accountable :=
        fun record mem => accountable record (blames.records_subset record mem)
      have below : ∃ cause ∈ child.records, cause.IsCause ∧
          ∀ part, child.LeadsTo part → part.LeadsTo cause := by
        obtain ⟨func, step, -, found⟩ := blames
        rcases Step.mem_of_child? found with mem | ⟨name, mem⟩
        · exact children_lead child mem child_accountable child_failed
        · exact named_lead _ mem child_accountable child_failed
      obtain ⟨cause, mem, is_cause, leads_on⟩ := below
      refine ⟨cause, blames.records_subset cause mem, is_cause, fun part leads => ?_⟩
      rcases Relation.ReflTransGen.cases_head leads with rfl | ⟨next, next_blames, leads⟩
      · exact .head blames (leads_on child .refl)
      · obtain rfl := here.blames_unique blames next_blames
        exact leads_on part leads

end Evaluation

namespace Evaluator

variable {r : Registry} {env : Environment} {level : Nat} {node : Node} {e : Evaluation}

/-! ### Trees -/

/-- The records of a valid tree are accountable, at any level. -/
theorem accountable_of_evaluateAt (valid : node.Valid)
    (evaluated : evaluateAt r env level node = .ok e) :
    ∀ record ∈ e.records, record.Accountable := by
  refine forall_records_of_evaluateAt valid evaluated (fun func => ⟨nofun, .inl rfl⟩) ?_
  intro literal a outcome shape _ applied
  have uniform : a.children = [] ∨ a.named = [] := by
    simpa only [List.length_eq_zero_iff, List.map_eq_nil_iff] using shape.uniform
  cases outcome with
  | ok v => exact ⟨nofun, uniform⟩
  | error error =>
    refine ⟨fun func argument blamed => ?_, uniform⟩
    obtain rfl : error = .argumentFailed func argument := Option.some.inj blamed
    rcases error_of_apply applied with raised | ⟨_, other⟩ | ⟨-, other⟩
    · cases raised with
      | argumentFailed first => exact ⟨rfl, _, _, rfl, first⟩
    · cases other
    · cases other

/-- **Every blame ends in a cause.** A tree that construction calls gave is evaluated by any
registry in any environment without faults, and in every evaluation of it an error that blames an
argument is one of the argument's own function and names exactly one child, which failed itself and
before which no unnamed child failed. From every failed record the arguments named lead to one
record that failed for a reason of its own, and the errors of the record list that reason. -/
theorem blame_ends_in_cause {on : Registry → Prop} {node : Node} (built : node.Built on)
    (r : Registry) (env : Environment) :
    (env.Steady → ∃ e, evaluate r env node = .ok e) ∧
      ∀ e, evaluate r env node = .ok e → ∀ record ∈ e.records,
        (∀ func argument, record.error = some (.argumentFailed func argument) →
          func = record.func ∧ ∃ (step : Step) (child : Evaluation), step.label = argument ∧
            step.FirstFailed record.children record.named child ∧
            ∀ other : Step, other.label = argument →
              (other.child? record.children record.named).isSome = true → other = step) ∧
        (record.succeeded = false →
          (∃ cause ∈ record.records, cause.IsCause ∧
            ∀ part, record.LeadsTo part → part.LeadsTo cause) ∧
          ∃ error ∈ record.errors, ∀ func argument, error ≠ .argumentFailed func argument) := by
  refine ⟨fun steady => exists_evaluate steady node, fun e evaluated record mem => ?_⟩
  have accountable := accountable_of_evaluateAt built.valid evaluated
  refine ⟨fun func argument blamed => ?_, fun failed => ?_⟩
  · obtain ⟨own, step, child, rfl, first⟩ := (accountable record mem).blame func argument blamed
    refine ⟨own, step, child, rfl, first, fun other same found => ?_⟩
    exact Step.eq_of_label (accountable record mem).uniform found (by simp [first.found]) same
  · have within : ∀ part ∈ record.records, part.Accountable :=
      fun part below => accountable part (Evaluation.mem_records_trans below mem)
    obtain ⟨cause, cause_mem, ⟨error, error_eq, own⟩, leads⟩ :=
      Evaluation.exists_cause within failed
    refine ⟨⟨cause, cause_mem, ⟨error, error_eq, own⟩, leads⟩, error, ?_, own⟩
    rw [Evaluation.errors_eq_filterMap]
    exact List.mem_filterMap.mpr ⟨cause, cause_mem, error_eq⟩

/-- A negation blames its operand, a conjunction, for its second, a field that is not there. -/
theorem blame_ends_in_cause_of_absent_field : ∃ settled field both node e,
    Registry.standard.constant (.bool true) = .ok settled ∧
    Registry.standard.payload "absent" = .ok field ∧
    Registry.standard.variadic .and [settled, field] = .ok both ∧
    Registry.standard.call .not [("value", both)] = .ok node ∧
    evaluate .standard Facts.empty.toEnvironment node = .ok e ∧
    e.errors = [.argumentFailed .not "value", .argumentFailed .and "#1",
      .environment (.notFound .payloadField "absent")] ∧
    (∃ (step : Step) (child : Evaluation), step.label = "value" ∧
      step.FirstFailed e.children e.named child ∧ child.error = some (.argumentFailed .and "#1")) ∧
    ∃ cause ∈ e.records, cause.IsCause ∧ ∀ part, e.LeadsTo part → part.LeadsTo cause := by
  refine ⟨_, _, _, _, _, rfl, rfl, rfl, rfl, rfl, by decide, ?_⟩
  have settled := @Node.Built.constant (· = .standard) .standard (.bool true) _ rfl rfl
  have field := @Node.Built.payload (· = .standard) .standard "absent" _ rfl rfl
  have both := @Node.Built.variadic (· = .standard) .standard .and _ _ rfl
    (List.forall_mem_cons.mpr ⟨settled, List.forall_mem_singleton.mpr field⟩) rfl
  have built := @Node.Built.call (· = .standard) .standard .not [("value", _)] _ rfl
    (List.forall_mem_singleton.mpr both) rfl
  obtain ⟨blame, cause⟩ := (blame_ends_in_cause built .standard Facts.empty.toEnvironment).2 _ rfl _
    (Evaluation.self_mem_records _)
  obtain ⟨-, step, child, same, first, unique⟩ := blame .not "value" rfl
  obtain rfl : Step.named "value" = step := unique (.named "value") rfl rfl
  have found := first.found
  cases found
  exact ⟨⟨.named "value", _, rfl, first, rfl⟩, (cause rfl).1⟩

end Evaluator

end RiskRules
