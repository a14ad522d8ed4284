import RiskRules.Proofs.Positions

/-!
What evaluation fails with. Beside a failed lookup and a function that is not enabled, an error is
one that the function raises about its own arguments (`Evaluator.error_of_apply`): an argument of
the wrong kind or out of range, a required one that is not there, or one that has failed itself. Of
several unnamed arguments that failed, the first is named (`Step.FirstFailed`).
-/

namespace RiskRules

/-! ### Computations that fail with errors of a kind -/

section FailsOnly

variable {ε α β : Type} {P : ε → Prop} {x : Except ε α} {f : α → Except ε β}

/-- The computation fails with errors of a kind only. -/
def FailsOnly (P : ε → Prop) (x : Except ε α) : Prop :=
  ∀ e, x = .error e → P e

theorem failsOnly_ok {a : α} : FailsOnly P (.ok a) :=
  nofun

theorem failsOnly_error {e : ε} (holds : P e) : FailsOnly P (.error e : Except ε α) := by
  rintro _ ⟨⟩
  exact holds

theorem FailsOnly.bind_given (first : FailsOnly P x)
    (second : ∀ a, x = .ok a → FailsOnly P (f a)) : FailsOnly P (x >>= f) := by
  intro e failed
  rcases bind_eq_error_iff.mp failed with here | ⟨a, given, later⟩
  · exact first e here
  · exact second a given e later

theorem FailsOnly.bind (first : FailsOnly P x) (second : ∀ a, FailsOnly P (f a)) :
    FailsOnly P (x >>= f) :=
  first.bind_given fun a _ => second a

theorem failsOnly_mapM {items : List α} (each : ∀ a, FailsOnly P (f a)) :
    FailsOnly P (items.mapM f) := by
  intro e failed
  obtain ⟨_, item, _, -, -, here⟩ := mapM_eq_error_iff.mp failed
  exact each item e here

end FailsOnly

/-! ### Failed arguments -/

/-- The step leads to an argument that failed, and to the first such if the arguments are unnamed. -/
structure Step.FirstFailed (step : Step) (children : List Evaluation)
    (named : List (String × Evaluation)) (child : Evaluation) : Prop where
  found : step.child? children named = some child
  failed : child.succeeded = false
  earlier : ∀ index, step = .unnamed index → ∀ other ∈ children.take index, other.succeeded = true

/-- The reasons of its own that evaluation gives for an invalid argument. -/
def ownReasons : List String :=
  ["argument is missing", "literal is missing", "NaN is not ordered"]

/-- What a function may fail with over its arguments, lookups apart. -/
inductive Raised (literal : Option Value) (a : Arguments) : EvaluationError → Prop where
  | argumentFailed {step : Step} {child : Evaluation}
      (first : step.FirstFailed a.children a.named child) :
      Raised literal a (.argumentFailed a.func step.label)
  | missingArgument {name : String} (required : ⟨name, true⟩ ∈ a.func.descriptor.parameters)
      (absent : Keyed.get? name a.named = none) :
      Raised literal a (.invalidArgument a.func name "argument is missing")
  | missingLiteral (constant : a.func = .constant) (absent : literal = none) :
      Raised literal a (.invalidArgument a.func "constant" "literal is missing")
  | notOrdered {left right : Value} (left_given : a.value "left" = .ok left)
      (right_given : a.value "right" = .ok right)
      (unordered : left.compare right = .error .notANumber) :
      Raised literal a (.invalidArgument a.func "left" "NaN is not ordered")
  | notATimestamp {e : Rfc3339.ReadError} :
      Raised literal a (.invalidArgument a.func "value" e.message)
  | nullValue {argument : String} : Raised literal a (.nullValue a.func argument)
  | typeMismatch {expected found : String} : Raised literal a (.typeMismatch a.func expected found)
  | divisionByZero : Raised literal a .divisionByZero
  | overflow : Raised literal a (.overflow a.func)

/-- A text is refused as a timestamp for other reasons than those. -/
theorem Rfc3339.message_not_own (e : Rfc3339.ReadError) : e.message ∉ ownReasons := by
  cases e with
  | unreadable part => cases part <;> decide
  | outOfRange part => cases part <;> decide
  | wrongLiteral => decide
  | trailing => decide

/-! ### Reading arguments -/

namespace Arguments

variable {literal : Option Value} {a : Arguments} {name argument expected : String}

theorem failsOnly_expect {α : Type} {part : Value → Option α} {v : Value} :
    FailsOnly (Raised literal a) (expect a.func argument expected part v) := by
  rw [expect]
  split
  · exact failsOnly_ok
  · refine failsOnly_error ?_
    rw [mismatch]
    split
    · exact .nullValue
    · exact .typeMismatch

theorem failsOnly_optional : FailsOnly (Raised literal a) (a.optional name) := by
  rw [optional]
  cases present : Keyed.get? name a.named with
  | none => exact failsOnly_ok
  | some record =>
    cases came_to : record.outcome with
    | ok v => simp only [came_to, failsOnly_ok]
    | error error =>
      have first : (Step.named name).FirstFailed a.children a.named record := by
        refine ⟨present, Evaluation.succeeded_eq_false_iff.mpr ⟨error, came_to⟩, ?_⟩
        rintro _ ⟨⟩
      simp only [came_to]
      exact failsOnly_error (.argumentFailed first)

section Named

variable {func : Func} {children : List Evaluation} {named : List (String × Evaluation)}

theorem failsOnly_value (required : ⟨name, true⟩ ∈ func.descriptor.parameters) :
    FailsOnly (Raised literal ⟨func, children, named⟩) (value ⟨func, children, named⟩ name) := by
  intro error failed
  rcases bind_eq_error_iff.mp failed with failed | ⟨found, present, failed⟩
  · exact failsOnly_optional error failed
  · cases found with
    | some v => cases failed
    | none =>
      cases failed
      refine .missingArgument required ?_
      rw [optional] at present
      split at present
      · assumption
      · split at present <;> cases present

/-- A part is taken out of every named argument in the same way. -/
theorem failsOnly_part {α : Type} {part : Value → Option α}
    (required : ⟨name, true⟩ ∈ func.descriptor.parameters) :
    FailsOnly (Raised literal ⟨func, children, named⟩)
      (value ⟨func, children, named⟩ name >>= expect func name expected part) :=
  (failsOnly_value required).bind fun _ => failsOnly_expect

end Named

/-- The unnamed arguments from an index on fail as the first of them that failed, if all before it
have values. -/
theorem failsOnly_valuesFrom {before rest : List Evaluation} (all : a.children = before ++ rest)
    (earlier : ∀ other ∈ before, other.succeeded = true) :
    FailsOnly (Raised literal a) (valuesFrom a.func before.length rest) := by
  induction rest generalizing before with
  | nil => exact failsOnly_ok
  | cons record rest ih =>
    rw [valuesFrom]
    split
    · rename_i v ok
      have here : record.succeeded = true := Evaluation.exists_outcome_eq_ok_iff.mp ⟨v, ok⟩
      have later := @ih (before ++ [record]) (by simpa using all) fun other mem => by
        rcases List.mem_append.mp mem with mem | mem
        · exact earlier other mem
        · exact List.mem_singleton.mp mem ▸ here
      rw [List.length_append, List.length_singleton] at later
      exact later.bind fun _ => failsOnly_ok
    · rename_i error failed
      have first : (Step.unnamed before.length).FirstFailed a.children a.named record := by
        refine ⟨?_, Evaluation.succeeded_eq_false_iff.mpr ⟨error, failed⟩, ?_⟩
        · simp [Step.child?, all]
        · rintro _ ⟨⟩ other mem
          rw [all, List.take_left] at mem
          exact earlier other mem
      exact failsOnly_error (.argumentFailed first)

theorem failsOnly_positional : FailsOnly (Raised literal a) a.positional :=
  @failsOnly_valuesFrom literal a [] a.children rfl nofun

theorem failsOnly_expectFrom {α : Type} {part : Value → Option α} {index : Nat}
    {values : List Value} :
    FailsOnly (Raised literal a) (expectFrom a.func expected part index values) := by
  induction values generalizing index with
  | nil => exact failsOnly_ok
  | cons v rest ih => exact failsOnly_expect.bind fun _ => ih.bind fun _ => failsOnly_ok

theorem failsOnly_bools : FailsOnly (Raised literal a) a.bools :=
  failsOnly_positional.bind fun _ => failsOnly_expectFrom

theorem failsOnly_scores : FailsOnly (Raised literal a) a.scores :=
  failsOnly_positional.bind fun _ => failsOnly_expectFrom

end Arguments

/-! ### Functions -/

namespace Evaluator

open Arguments

variable {literal : Option Value} {a : Arguments} {left right : Value}

theorem failsOnly_order (left_given : a.value "left" = .ok left)
    (right_given : a.value "right" = .ok right) :
    FailsOnly (Raised literal a) (order a.func left right) := by
  rw [order]
  split
  · exact failsOnly_ok
  · exact failsOnly_error .nullValue
  · exact failsOnly_error .nullValue
  · exact failsOnly_error .typeMismatch
  · exact failsOnly_error (.notOrdered left_given right_given ‹_›)

theorem failsOnly_finite {x : Float} : FailsOnly (Raised literal a) (finite a.func x) := by
  rw [finite]
  split
  · exact failsOnly_ok
  · exact failsOnly_error .overflow

theorem failsOnly_fitted {n : Int} : FailsOnly (Raised literal a) (fitted a.func n) := by
  rw [fitted]
  split
  · exact failsOnly_ok
  · exact failsOnly_error .overflow

theorem failsOnly_arithmetic {exact : Int → Int → Int} {rounded : Float → Float → Float} :
    FailsOnly (Raised literal a) (arithmetic a.func exact rounded left right) := by
  refine failsOnly_expect.bind fun x => failsOnly_expect.bind fun y => ?_
  split
  · exact failsOnly_fitted
  · exact failsOnly_finite

theorem failsOnly_divide : FailsOnly (Raised literal a) (divide a.func left right) := by
  refine failsOnly_expect.bind fun x => failsOnly_expect.bind fun y => ?_
  split
  · exact failsOnly_error .divisionByZero
  · exact failsOnly_finite

/-- **What a function may object to.** Whatever its arguments are, a function that asks for nothing
fails with an error that it raises about them. -/
theorem failsOnly_demand (literal : Option Value) (a : Arguments) :
    FailsOnly (Raised literal a) (demand literal a) := by
  obtain ⟨func, children, named⟩ := a
  cases func
  case constant =>
    cases literal with
    | some v => exact failsOnly_ok
    | none => exact failsOnly_error (.missingLiteral rfl rfl)
  case payload | «variable» | customListAccess =>
    exact (failsOnly_part (by decide)).bind fun _ => failsOnly_ok
  case databaseAccess =>
    exact (failsOnly_part (by decide)).bind fun _ => (failsOnly_part (by decide)).bind fun _ =>
      (failsOnly_part (by decide)).bind fun _ =>
        (failsOnly_mapM fun _ => failsOnly_expect).bind fun _ => failsOnly_ok
  case and | or => exact failsOnly_bools.bind fun _ => failsOnly_ok
  case switch => exact failsOnly_scores.bind fun _ => failsOnly_ok
  case not => exact (failsOnly_part (by decide)).bind fun _ => failsOnly_ok
  case isNull => exact (failsOnly_value (by decide)).bind fun _ => failsOnly_ok
  case equal | notEqual =>
    exact (failsOnly_value (by decide)).bind fun _ => (failsOnly_value (by decide)).bind fun _ =>
      failsOnly_ok
  case greater | greaterOrEqual | less | lessOrEqual =>
    exact (failsOnly_value (by decide)).bind_given fun _ left_given =>
      (failsOnly_value (by decide)).bind_given fun _ right_given =>
        (failsOnly_order left_given right_given).bind fun _ => failsOnly_ok
  case add | subtract | multiply =>
    exact (failsOnly_value (by decide)).bind fun _ => (failsOnly_value (by decide)).bind fun _ =>
      failsOnly_arithmetic.bind fun _ => failsOnly_ok
  case divide =>
    exact (failsOnly_value (by decide)).bind fun _ => (failsOnly_value (by decide)).bind fun _ =>
      failsOnly_divide.bind fun _ => failsOnly_ok
  case isInList | isNotInList =>
    exact (failsOnly_value (by decide)).bind fun _ => (failsOnly_part (by decide)).bind fun _ =>
      failsOnly_ok
  case stringContains | stringStartsWith | stringEndsWith =>
    exact (failsOnly_part (by decide)).bind fun _ => (failsOnly_part (by decide)).bind fun _ =>
      failsOnly_ok
  case stringLower => exact (failsOnly_part (by decide)).bind fun _ => failsOnly_ok
  case parseTimestamp =>
    refine (failsOnly_part (by decide)).bind fun text => ?_
    split
    · exact failsOnly_ok
    · exact failsOnly_error .notATimestamp
  case timeAdd =>
    refine (failsOnly_part (by decide)).bind fun t => (failsOnly_part (by decide)).bind fun n => ?_
    split
    · exact failsOnly_ok
    · exact failsOnly_error .overflow
  case secondsBetween =>
    exact (failsOnly_part (by decide)).bind fun _ => (failsOnly_part (by decide)).bind fun _ =>
      failsOnly_ok
  case scoreComputation =>
    refine (failsOnly_part (by decide)).bind fun _ => (failsOnly_part (by decide)).bind fun _ =>
      failsOnly_optional.bind fun floor => ?_
    cases floor with
    | none => exact failsOnly_ok
    | some v => exact failsOnly_expect.bind fun _ => failsOnly_ok

theorem environment_of_answer {env : Environment} {d : Demand} {error : EvaluationError}
    (failed : answer env d = .error (.error error)) : ∃ e, error = .environment e := by
  have passed_on {α : Type} {wrap : α → Value} {found : Except (Halt EnvironmentError) α}
      (failed : lookedUp wrap found = .error (.error error)) : ∃ e, error = .environment e := by
    match found, failed with
    | .error (.error e), failed =>
      cases failed
      exact ⟨e, rfl⟩
  cases d with
  | value v => cases failed
  | payloadField name => exact passed_on failed
  | listItems name => exact passed_on failed
  | relatedField table field path => exact passed_on failed
  | variableValue name => exact passed_on failed

/-- **What a node fails with.** It is what its function raises about the arguments, a lookup that
failed, or that the function is not enabled. -/
theorem error_of_apply {r : Registry} {env : Environment} {error : EvaluationError}
    (failed : apply r env literal a = .error (.error error)) :
    Raised literal a error ∨ (∃ e, error = .environment e) ∨
      r.enabled a.func = false ∧ error = .unsupportedFunction a.func := by
  rw [apply] at failed
  split at failed
  · rw [dispatch] at failed
    split at failed
    · exact .inr (.inl (environment_of_answer failed))
    · rename_i raised
      cases failed
      exact .inl (failsOnly_demand literal a error raised)
  · rename_i disabled
    cases failed
    exact .inr (.inr ⟨Bool.eq_false_iff.mpr disabled, rfl⟩)

end Evaluator

end RiskRules
