import RiskRules.Environment
import RiskRules.Func

/-!
Records of evaluations. Every node leaves a record of its value or its error and of its children's
records, so that nothing that failed is lost. `Evaluation.outcome` is what a node came to;
`Evaluation.errors` lists every error of a record, a node's before its children's.
-/

namespace RiskRules

/-! ### Errors -/

/-- Why a node has no value. -/
inductive EvaluationError where
  | typeMismatch (func : Func) (expected found : String)
  | nullValue (func : Func) (argument : String)
  | divisionByZero
  | overflow (func : Func)
  | invalidArgument (func : Func) (argument reason : String)
  | argumentFailed (func : Func) (argument : String)
  | environment (e : EnvironmentError)
  | unsupportedFunction (func : Func)
  | tooDeep (limit : Nat)
  deriving DecidableEq, Repr

/-- The text of an error. -/
def EvaluationError.message : EvaluationError → String
  | .typeMismatch func expected found =>
    func.name ++ ": type mismatch, expected " ++ expected ++ ", found " ++ found
  | .nullValue func argument => func.name ++ ": argument `" ++ argument ++ "` is null"
  | .divisionByZero => "division by zero"
  | .overflow func => func.name ++ ": integer overflow"
  | .invalidArgument func argument reason =>
    func.name ++ ": invalid argument `" ++ argument ++ "`: " ++ reason
  | .argumentFailed func argument =>
    func.name ++ ": argument `" ++ argument ++ "` failed to evaluate"
  | .environment e => "environment lookup failed: " ++ e.message
  | .unsupportedFunction func =>
    "function " ++ func.name ++ " is not supported by this evaluator"
  | .tooDeep limit => "node tree too deep to evaluate (max " ++ toString limit ++ ")"

/-! ### Records -/

/-- The record of a node: what it came to, and its children's records. -/
structure Evaluation where
  func : Func
  value : Option Value
  error : Option EvaluationError
  children : List Evaluation
  named : List (String × Evaluation)

namespace Evaluation

/-- The record of a node that came to a value or an error. -/
def ofOutcome (func : Func) (outcome : Except EvaluationError Value)
    (children : List Evaluation) (named : List (String × Evaluation)) : Evaluation :=
  match outcome with
  | .ok value => ⟨func, some value, none, children, named⟩
  | .error e => ⟨func, none, some e, children, named⟩

/-- What the node came to: its error if it has one, else its value, else null. -/
def outcome (e : Evaluation) : Except EvaluationError Value :=
  match e.error, e.value with
  | some error, _ => .error error
  | none, some value => .ok value
  | none, none => .ok .null

/-- The node has no error. -/
def succeeded (e : Evaluation) : Bool :=
  e.error.isNone

mutual

/-- Every error of a record, each node's before its children's. -/
def errors : Evaluation → List EvaluationError
  | ⟨_, _, error, children, named⟩ => error.toList ++ errorsAll children ++ errorsNamed named

/-- Every error of the records. -/
def errorsAll : List Evaluation → List EvaluationError
  | [] => []
  | e :: rest => errors e ++ errorsAll rest

/-- Every error of the named records. -/
def errorsNamed : List (String × Evaluation) → List EvaluationError
  | [] => []
  | (_, e) :: rest => errors e ++ errorsNamed rest

end

end Evaluation

end RiskRules
