import RiskRules.Proofs.EvaluationErrors
import RiskRules.Proofs.Representation

/-!
Nothing is missing. Evaluation guards against nodes without an argument or a literal that they need,
and against records that have come to nothing. Trees that calls of registries return never get
there: a function asks for no argument but such as its descriptor requires or lets be left out
(`Evaluator.failsOnly_demand`), and required ones are given at every node of such a tree. So an
error that a function raises about its own arguments does not tell of something missing
(`Raised.not_missing`), and neither does any record of the evaluation (`Evaluator.nothing_missing`).
-/

namespace RiskRules

/-- The error tells of an argument or a literal that is missing. -/
def EvaluationError.TellsMissing (error : EvaluationError) : Prop :=
  ∃ func argument, error = .invalidArgument func argument "argument is missing" ∨
    error = .invalidArgument func argument "literal is missing"

/-- A record that has come to a value or an error of its own, and to no error that tells of
something missing. -/
structure Evaluation.Settled (e : Evaluation) : Prop where
  not_missing : ∀ error, e.error = some error → ¬error.TellsMissing
  came_to : (∃ v, e.value = some v ∧ e.outcome = .ok v) ∨
    ∃ error, e.error = some error ∧ e.outcome = .error error

/-! ### One node -/

/-- A function over arguments of the right shape does not object that something is missing. -/
theorem Raised.not_missing {literal : Option Value} {a : Arguments} {error : EvaluationError}
    (raised : Raised literal a error)
    (shape : WellShaped a.func literal a.children.length (a.named.map Prod.fst)) :
    ¬error.TellsMissing := by
  rintro ⟨func, argument, told⟩
  cases raised with
  | missingArgument required absent =>
    obtain ⟨record, given⟩ := Keyed.exists_get?_of_mem_keys (shape.required_given _ required rfl)
    rw [absent] at given
    cases given
  | missingLiteral constant absent =>
    have given := shape.literal_iff.mpr constant
    rw [absent] at given
    cases given
  | @notATimestamp e =>
    apply Rfc3339.message_not_own e
    simp only [EvaluationError.invalidArgument.injEq] at told
    rcases told with ⟨-, -, same⟩ | ⟨-, -, same⟩
    · rw [same]
      decide
    · rw [same]
      decide
  | argumentFailed | notOrdered | nullValue | typeMismatch | divisionByZero | overflow =>
    simp at told

/-- A record is settled if its outcome is no error that tells of something missing. -/
theorem Evaluation.settled_ofOutcome {func : Func} {outcome : Except EvaluationError Value}
    {children : List Evaluation} {named : List (String × Evaluation)}
    (not_missing : ∀ error, outcome = .error error → ¬error.TellsMissing) :
    (ofOutcome func outcome children named).Settled := by
  cases outcome with
  | ok v => exact ⟨nofun, .inl ⟨v, rfl, rfl⟩⟩
  | error error =>
    refine ⟨?_, .inr ⟨error, rfl, rfl⟩⟩
    intro _ same
    cases same
    exact not_missing error rfl

namespace Evaluator

variable {r : Registry} {env : Environment} {level : Nat} {node : Node} {e : Evaluation}

/-- A node of the right shape does not miss anything, whatever its arguments have come to. -/
theorem not_missing_of_apply {literal : Option Value} {a : Arguments} {error : EvaluationError}
    (shape : WellShaped a.func literal a.children.length (a.named.map Prod.fst))
    (failed : apply r env literal a = .error (.error error)) : ¬error.TellsMissing := by
  rcases error_of_apply failed with raised | ⟨_, rfl⟩ | ⟨-, rfl⟩
  · exact raised.not_missing shape
  · simp [EvaluationError.TellsMissing]
  · simp [EvaluationError.TellsMissing]

/-! ### Trees -/

/-- The records of a valid tree are settled, at any level. -/
theorem settled_of_evaluateAt (valid : node.Valid)
    (evaluated : evaluateAt r env level node = .ok e) : ∀ record ∈ e.records, record.Settled := by
  refine forall_records_of_evaluateAt valid evaluated ?_ ?_
  · intro func
    apply Evaluation.settled_ofOutcome
    rintro _ ⟨⟩
    simp [EvaluationError.TellsMissing]
  · intro literal a outcome shape _ applied
    apply Evaluation.settled_ofOutcome
    rintro error rfl
    exact not_missing_of_apply shape applied

/-- **Nothing is missing.** A tree that any sequence of calls on any registries returned is
evaluated by any registry in any environment without faults. In every evaluation of it each record
has come to a value or an error of its own, and no error tells of an argument or a literal that is
missing. Where a fault breaks the evaluation off, that holds of the records made before it: those of
the trees in the tree, at whatever level they were evaluated. -/
theorem nothing_missing {node : Node} (obtained : node.Obtained) (r : Registry)
    (env : Environment) :
    (env.Steady → ∃ e, evaluate r env node = .ok e) ∧
      (∀ e, evaluate r env node = .ok e → ∀ record ∈ e.records, record.Settled) ∧
      ∀ part ∈ node.walk, ∀ level e, evaluateAt r env level part = .ok e →
        ∀ record ∈ e.records, record.Settled := by
  refine ⟨fun steady => exists_evaluate steady node, ?_, ?_⟩
  · intro e evaluated
    exact settled_of_evaluateAt obtained.valid evaluated
  · intro part mem level e evaluated
    exact settled_of_evaluateAt (obtained.valid.of_mem_walk mem) evaluated

/-- A node that no call made, of a function that requires an argument, misses the first one. -/
theorem evaluate_bare {func : Func} {p : Parameter} {rest : List Parameter}
    (first : func.descriptor.parameters = p :: rest) (env : Environment) (depth : Nat) :
    evaluate .standard env ⟨func, none, [], [], depth⟩ =
      .ok ⟨func, none, some (.invalidArgument func p.name "argument is missing"), [], []⟩ := by
  cases func <;> cases first <;> rfl

/-- A score whose condition is about a text that is no timestamp fails without missing anything; a
negation of nothing misses its operand, so that no calls return one. -/
theorem nothing_missing_of_unreadable_time : ∃ time test modifier node e,
    Registry.standard.decode ⟨"ParseTimestamp", none, [],
      [("value", ⟨"Constant", some (.string "noon"), [], []⟩)]⟩ = .ok time ∧
    Registry.standard.call .isNull [("value", time)] = .ok test ∧
    Registry.standard.constant (.int 20) = .ok modifier ∧
    Registry.standard.call .scoreComputation [("modifier", modifier), ("condition", test)] =
      .ok node ∧
    evaluate .standard Facts.empty.toEnvironment node = .ok e ∧
    e.errors = [.argumentFailed .scoreComputation "condition", .argumentFailed .isNull "value",
      .invalidArgument .parseTimestamp "value" "the 'year' component could not be parsed"] ∧
    (∀ record ∈ e.records, record.Settled) ∧ ¬Node.Obtained ⟨.not, none, [], [], 1⟩ := by
  refine ⟨_, _, _, _, _, rfl, rfl, rfl, rfl, rfl, by decide, ?_, ?_⟩
  · have ordered : Outline.Ordered ⟨"ParseTimestamp", none, [],
        [("value", ⟨"Constant", some (.string "noon"), [], []⟩)]⟩ := by
      simp [Outline.ordered_mk_iff, Keyed.Ascending]
    have time := @Node.Obtained.returned .standard (fun _ => False) _ (fun _ => False.elim)
      (.decoded ordered rfl)
    have test := @Node.Obtained.returned .standard Node.Obtained _ (fun _ obtained => obtained)
      (.built (@Registry.Gives.call .standard _ .isNull [("value", _)] _
        (List.forall_mem_singleton.mpr time) rfl))
    have modifier := @Node.Obtained.returned .standard (fun _ => False) _ (fun _ => False.elim)
      (.built (@Registry.Gives.constant .standard _ (.int 20) _ rfl))
    have node := @Node.Obtained.returned .standard Node.Obtained _ (fun _ obtained => obtained)
      (.built (@Registry.Gives.call .standard _ .scoreComputation
        [("modifier", _), ("condition", _)] _
        (List.forall_mem_cons.mpr ⟨modifier, List.forall_mem_singleton.mpr test⟩) rfl))
    exact (nothing_missing node .standard Facts.empty.toEnvironment).2.1 _ rfl
  · intro bare
    have evaluated := @evaluate_bare .not ⟨"value", true⟩ [] rfl Facts.empty.toEnvironment 1
    have settled := (nothing_missing bare .standard Facts.empty.toEnvironment).2.1 _ evaluated _
      (Evaluation.self_mem_records _)
    exact settled.not_missing _ rfl ⟨.not, "value", .inl rfl⟩

end Evaluator

end RiskRules
