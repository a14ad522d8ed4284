import RiskRules.Proofs.Comparisons
import RiskRules.Proofs.EvaluationErrors
import RiskRules.Proofs.FiniteDocuments
import RiskRules.Proofs.Outcomes

/-!
Evaluation stays finite. What a function makes of its arguments is finite
(`Evaluator.finite_of_makes`): literals are checked when a tree is built, and arithmetic refuses
what is not finite. Where lookups answer with finite values too, all values of an evaluation are
finite, and no comparison in it meets a number that has no order
(`Evaluator.evaluation_stays_finite`).
-/

namespace RiskRules

/-! ### Comparing finite values -/

namespace Value

variable {v left right : Value}

theorem Finite.equal_self (finite : v.Finite) : v.equal v = true :=
  equal_self_iff.mpr fun x within => (finite x within).1

theorem isNumber_of_finite {x : Float} (finite : (Value.float x).Finite) :
    (Value.float x).IsNumber :=
  .float (finite x .self).1

/-- Finite values have an order, or the reason is another than that one of them is no number. -/
theorem compare_ne_notANumber (left_finite : left.Finite) (right_finite : right.Finite) :
    left.compare right ≠ .error .notANumber := by
  have ordered (a_number : left.IsNumber) (b_number : right.IsNumber) :
      left.compare right ≠ .error .notANumber := by
    obtain ⟨o, order⟩ := exists_compare_iff.mpr (.numbers a_number b_number)
    simp [order]
  cases left <;> cases right
  case int.float i y => exact ordered (.int i) (isNumber_of_finite right_finite)
  case float.int x j => exact ordered (isNumber_of_finite left_finite) (.int j)
  case float.float x y =>
    exact ordered (isNumber_of_finite left_finite) (isNumber_of_finite right_finite)
  all_goals simp [compare]

end Value

/-! ### Lookups -/

theorem Environment.Finite.of_answers {env : Environment} {v : Value} (finite : env.Finite)
    (looked_up : env.Answers v) : v.Finite := by
  cases looked_up with
  | payloadField found => exact finite.payloadField _ v found
  | listItems found => exact Value.finite_list_iff.mpr (finite.listItems _ _ found)
  | relatedField found => exact finite.relatedField _ _ _ v found
  | variableValue found => exact finite.variableValue _ v found

/-! ### Records -/

/-- The value of a record is finite, and its error is not that a number has no order. -/
structure Evaluation.Finite (e : Evaluation) : Prop where
  value : ∀ v, e.value = some v → v.Finite
  ordered : ∀ func argument, e.error ≠ some (.invalidArgument func argument "NaN is not ordered")

theorem Evaluation.Finite.outcome {e : Evaluation} {v : Value} (finite : e.Finite)
    (came_to : e.outcome = .ok v) : v.Finite := by
  rcases e.mem_value_of_outcome came_to with given | rfl
  · exact finite.value v given
  · exact Value.finite_iff.mpr rfl

theorem Arguments.finite_of_value {a : Arguments} {name : String} {v : Value}
    (named_finite : ∀ entry ∈ a.named, entry.2.Finite) (given : a.value name = .ok v) :
    v.Finite := by
  obtain ⟨func, children, named⟩ := a
  obtain ⟨record, found, came_to⟩ := value_eq_ok_iff.mp given
  exact (named_finite _ (Keyed.mem_of_get? found)).outcome came_to

namespace Evaluator

variable {r : Registry} {env : Environment} {literal : Option Value} {a : Arguments}
  {e : Evaluation}

/-- What a function makes is finite, whatever its arguments are. -/
theorem finite_of_makes {v : Value} (literal_finite : ∀ v ∈ literal, v.Finite)
    (made : Makes literal a v) : v.Finite := by
  cases made with
  | literal given => exact literal_finite v given
  | float finite => exact Value.finite_iff.mpr finite
  | bool | int | string | score | read | moved => exact Value.finite_iff.mpr rfl

theorem finite_of_apply {v : Value} (finite : env.Finite) (literal_finite : ∀ v ∈ literal, v.Finite)
    (ok : apply r env literal a = .ok v) : v.Finite := by
  rcases makes_or_answers_of_apply ok with made | looked_up
  · exact finite_of_makes literal_finite made
  · exact finite.of_answers looked_up

/-- A function of finite arguments does not object that a number has no order. -/
theorem ordered_of_apply {error : EvaluationError}
    (named_finite : ∀ entry ∈ a.named, entry.2.Finite)
    (failed : apply r env literal a = .error (.error error)) (func : Func) (argument : String) :
    error ≠ .invalidArgument func argument "NaN is not ordered" := by
  rintro rfl
  rcases error_of_apply failed with raised | ⟨_, other⟩ | ⟨-, other⟩
  · -- The text tells the error from the others that are about one argument.
    generalize text_eq : "NaN is not ordered" = text at raised
    cases raised with
    | missingArgument => revert text_eq; decide
    | missingLiteral => revert text_eq; decide
    | notOrdered left_given right_given unordered =>
      exact Value.compare_ne_notANumber (Arguments.finite_of_value named_finite left_given)
        (Arguments.finite_of_value named_finite right_given) unordered
    | @notATimestamp e => exact Rfc3339.message_not_own e (text_eq ▸ by decide)
  · cases other
  · cases other

/-- What a tree comes to is finite at every node. -/
theorem finite_of_evaluateAt {level : Nat} {node : Node} (valid : node.Valid) (finite : env.Finite)
    (evaluated : evaluateAt r env level node = .ok e) : ∀ record ∈ e.records, record.Finite := by
  refine forall_records_of_evaluateAt_of_parts valid evaluated (fun func => ⟨nofun, nofun⟩) ?_
  intro literal a outcome shape _ _ named_finite applied
  cases outcome with
  | ok v =>
    have v_finite : v.Finite := finite_of_apply finite
      (fun v mem => Value.finite_iff.mpr (shape.literal_finite v mem)) applied
    refine ⟨?_, nofun⟩
    rintro _ ⟨⟩
    exact v_finite
  | error error =>
    refine ⟨nofun, fun func argument unordered => ?_⟩
    exact ordered_of_apply named_finite applied func argument (Option.some.inj unordered)

/-- **Evaluation stays finite.** A tree that construction calls gave is evaluated by any registry in
any environment that answers with finite values only, and then no value in any record of the
evaluation has an infinite number or a non-number in it, in lists at any depth, so that every value
is equal to itself; and no record has the error that a number has no order. The payload of a finite
document is such an environment, also with the lists of finite documents, and every document that a
text reads as is finite. -/
theorem evaluation_stays_finite :
    (∀ (on : Registry → Prop) (node : Node), node.Built on → ∀ (r : Registry) (env : Environment),
      env.Finite → (env.Steady → ∃ e, evaluate r env node = .ok e) ∧
        ∀ e, evaluate r env node = .ok e → ∀ record ∈ e.records,
          (∀ v, record.value = some v → v.Finite ∧ Equals env v v) ∧
          ∀ func argument,
            record.error ≠ some (.invalidArgument func argument "NaN is not ordered")) ∧
    (∀ (j : Json) (facts : Facts), j.Finite → Facts.ofPayload j = .ok facts →
      facts.toEnvironment.Finite) ∧
    (∀ (facts facts' : Facts) (j : Json), facts.toEnvironment.Finite → j.Finite →
      facts.addLists j = .ok facts' → facts'.toEnvironment.Finite) ∧
    ∀ (text : String) (j : Json), Json.parse text = some j → j.Finite := by
  refine ⟨fun on node built r env finite => ⟨fun steady => exists_evaluate steady node, ?_⟩,
    fun j facts finite made => Facts.finite_of_ofPayload finite made,
    fun facts facts' j facts_finite finite added =>
      Facts.finite_of_addLists facts_finite finite added,
    fun text j read => Json.finite_of_parse read⟩
  intro e evaluated record mem
  have record_finite := finite_of_evaluateAt built.valid finite evaluated record mem
  refine ⟨fun v valued => ?_, record_finite.ordered⟩
  have v_finite := record_finite.value v valued
  exact ⟨v_finite, equals_iff.mpr v_finite.equal_self⟩

/-- Two is compared with an amount, where the amount and some limits are read from two texts. -/
theorem evaluation_stays_finite_of_texts :
    ∃ payload lists facts known amount two node e,
      Json.parse "\x7b\"amount\": 1.5e3, \"rates\": [0.25, [-0]]\x7d" = some payload ∧
      Json.parse "\x7b\"limits\": [2.5, 18446744073709551616]\x7d" = some lists ∧
      Facts.ofPayload payload = .ok facts ∧ facts.addLists lists = .ok known ∧
      Registry.standard.payload "amount" = .ok amount ∧
      Registry.standard.constant (.int 2) = .ok two ∧
      Registry.standard.binary .less two amount = .ok node ∧
      evaluate .standard known.toEnvironment node = .ok e ∧ e.errors = [] ∧
      payload.Finite ∧ lists.Finite ∧ known.toEnvironment.Finite ∧
      ∀ record ∈ e.records, ∀ v, record.value = some v →
        v.Finite ∧ Equals known.toEnvironment v v := by
  have ran : (do
      let payload ← Json.parse "\x7b\"amount\": 1.5e3, \"rates\": [0.25, [-0]]\x7d"
      let lists ← Json.parse "\x7b\"limits\": [2.5, 18446744073709551616]\x7d"
      let facts ← (Facts.ofPayload payload).toOption
      let known ← (facts.addLists lists).toOption
      let amount ← (Registry.standard.payload "amount").toOption
      let two ← (Registry.standard.constant (.int 2)).toOption
      let node ← (Registry.standard.binary .less two amount).toOption
      let e ← (evaluate .standard known.toEnvironment node).toOption
      guard (e.errors = [])) = some () := by decide +kernel
  have given {ε α : Type} {x : Except ε α} {a : α} : x.toOption = some a ↔ x = .ok a := by
    cases x <;> simp [Except.toOption]
  simp only [Option.bind_eq_bind, Option.bind_eq_some_iff, given, Option.guard_eq_some'] at ran
  obtain ⟨payload, payload_read, lists, lists_read, facts, made, known, added, amount, amount_built,
    two, two_built, node, node_built, e, evaluated, no_errors⟩ := ran
  obtain ⟨stays, of_payload, of_lists, of_text⟩ := evaluation_stays_finite
  have finite := of_lists facts known lists
    (of_payload payload facts (of_text _ _ payload_read) made) (of_text _ _ lists_read) added
  have built : node.Built (· = .standard) :=
    .binary rfl (.constant rfl two_built) (.payload rfl amount_built) node_built
  refine ⟨payload, lists, facts, known, amount, two, node, e, payload_read, lists_read, made, added,
    amount_built, two_built, node_built, evaluated, no_errors, of_text _ _ payload_read,
    of_text _ _ lists_read, finite, fun record mem => ?_⟩
  exact ((stays _ node built .standard _ finite).2 e evaluated record mem).1

end Evaluator

end RiskRules
