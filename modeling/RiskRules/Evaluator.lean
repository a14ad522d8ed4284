import RiskRules.Number.Signed64
import RiskRules.Text.Lowercase
import RiskRules.Value.Order
import RiskRules.Evaluation
import RiskRules.Registry

/-!
Evaluation of expression trees. A node's children are evaluated first, unnamed before named, and
every function reads all of its arguments: nothing is skipped because an earlier argument has
settled the result. Integers never wrap and numbers never leave the finite ones; an operation that
would is an error. A fault in a lookup ends the whole evaluation.
-/

namespace RiskRules

/-! ### Arguments -/

/-- The records of the arguments of a function. -/
structure Arguments where
  func : Func
  children : List Evaluation
  named : List (String × Evaluation)

/-- The name of an unnamed argument in messages. -/
def positionName (index : Nat) : String :=
  "#" ++ toString index

namespace Arguments

/-- An argument is null, or of the wrong kind. -/
def mismatch (func : Func) (argument expected : String) (found : Value) : EvaluationError :=
  if found.isNull then .nullValue func argument
  else .typeMismatch func expected found.kind.name

/-- Takes a part out of a value of the expected kind. -/
def expect {α : Type} (func : Func) (argument expected : String) (part : Value → Option α)
    (value : Value) : Except EvaluationError α :=
  match part value with
  | some a => .ok a
  | none => .error (mismatch func argument expected value)

/-- A named argument that may be left out. -/
def optional (a : Arguments) (name : String) : Except EvaluationError (Option Value) :=
  match Keyed.get? name a.named with
  | none => .ok none
  | some record =>
    match record.outcome with
    | .ok value => .ok (some value)
    | .error _ => .error (.argumentFailed a.func name)

/-- A named argument. -/
def value (a : Arguments) (name : String) : Except EvaluationError Value := do
  match ← a.optional name with
  | some value => .ok value
  | none => .error (.invalidArgument a.func name "argument is missing")

/-- A truth value among the named arguments. -/
def bool (a : Arguments) (name : String) : Except EvaluationError Bool := do
  expect a.func name "bool" Value.bool? (← a.value name)

/-- An integer among the named arguments. -/
def int (a : Arguments) (name : String) : Except EvaluationError Int64 := do
  expect a.func name "int" Value.int? (← a.value name)

/-- A text among the named arguments. -/
def string (a : Arguments) (name : String) : Except EvaluationError String := do
  expect a.func name "string" Value.string? (← a.value name)

/-- A timestamp among the named arguments. -/
def timestamp (a : Arguments) (name : String) : Except EvaluationError Timestamp := do
  expect a.func name "timestamp" Value.timestamp? (← a.value name)

/-- A list among the named arguments. -/
def list (a : Arguments) (name : String) : Except EvaluationError (List Value) := do
  expect a.func name "list" Value.list? (← a.value name)

/-- The values of records from an index on; the first that failed is reported. -/
def valuesFrom (func : Func) (index : Nat) :
    List Evaluation → Except EvaluationError (List Value)
  | [] => .ok []
  | record :: rest =>
    match record.outcome with
    | .ok value => return value :: (← valuesFrom func (index + 1) rest)
    | .error _ => .error (.argumentFailed func (positionName index))

/-- The unnamed arguments. -/
def positional (a : Arguments) : Except EvaluationError (List Value) :=
  valuesFrom a.func 0 a.children

/-- Takes a part out of every value from an index on. -/
def expectFrom {α : Type} (func : Func) (expected : String) (part : Value → Option α)
    (index : Nat) : List Value → Except EvaluationError (List α)
  | [] => .ok []
  | value :: rest =>
    return (← expect func (positionName index) expected part value)
      :: (← expectFrom func expected part (index + 1) rest)

/-- The unnamed arguments, all truth values. -/
def bools (a : Arguments) : Except EvaluationError (List Bool) := do
  expectFrom a.func "bool" Value.bool? 0 (← a.positional)

/-- The unnamed arguments, all scores. -/
def scores (a : Arguments) : Except EvaluationError (List ScoreResult) := do
  expectFrom a.func "score" Value.score? 0 (← a.positional)

end Arguments

/-! ### Comparison and arithmetic -/

namespace Evaluator

/-- The order of two operands. -/
def order (func : Func) (left right : Value) : Except EvaluationError Ordering :=
  match left.compare right with
  | .ok o => .ok o
  | .error .nullLeft => .error (.nullValue func "left")
  | .error .nullRight => .error (.nullValue func "right")
  | .error .kinds =>
    .error (.typeMismatch func "comparable operands of the same type"
      (left.kind.name ++ " and " ++ right.kind.name))
  | .error .notANumber => .error (.invalidArgument func "left" "NaN is not ordered")

/-- A number: an integer or binary64. -/
inductive Number where
  | int (i : Int64)
  | float (x : Float)

/-- The number of a value. -/
def Number.ofValue? : Value → Option Number
  | .int i => some (.int i)
  | .float x => some (.float x)
  | _ => none

/-- The number as binary64, an integer going to the nearest. -/
def Number.toFloat : Number → Float
  | .int i => i.toFloat
  | .float x => x

/-- A finite result. -/
def finite (func : Func) (x : Float) : Except EvaluationError Value :=
  if isFinite x then .ok (.float x) else .error (.overflow func)

/-- An integer result within 64 bits. -/
def fitted (func : Func) (n : Int) : Except EvaluationError Value :=
  match Signed64.fit? n with
  | some i => .ok (.int i)
  | none => .error (.overflow func)

/-- Applies an operation to integers exactly and to other numbers in binary64. -/
def arithmetic (func : Func) (exact : Int → Int → Int) (rounded : Float → Float → Float)
    (left right : Value) : Except EvaluationError Value := do
  let a ← Arguments.expect func "left" "number" Number.ofValue? left
  let b ← Arguments.expect func "right" "number" Number.ofValue? right
  match a, b with
  | .int i, .int j => fitted func (exact i.toInt j.toInt)
  | a, b => finite func (rounded a.toFloat b.toFloat)

/-- Divides in binary64. -/
def divide (func : Func) (left right : Value) : Except EvaluationError Value := do
  let a ← Arguments.expect func "left" "number" Number.ofValue? left
  let b ← Arguments.expect func "right" "number" Number.ofValue? right
  if sameNumber b.toFloat 0 then .error .divisionByZero
  else finite func (a.toFloat / b.toFloat)

/-! ### Text -/

/-- The characters of one text stand somewhere in another. -/
def occursIn (needle : List Char) : List Char → Bool
  | [] => needle.isEmpty
  | c :: rest => needle.isPrefixOf (c :: rest) || occursIn needle rest

/-! ### Scores -/

/-- The first score that triggered. -/
def firstTriggered (scores : List ScoreResult) : ScoreResult :=
  (scores.find? ScoreResult.triggered).getD .notTriggered

/-! ### Functions -/

/-- What a function comes to from its arguments: a value, or a lookup to be made. -/
inductive Demand where
  | value (v : Value)
  | payloadField (name : String)
  | listItems (name : String)
  | relatedField (table field : String) (path : List String)
  | variableValue (name : String)

/-- Applies a function to its arguments. -/
def demand (literal : Option Value) (a : Arguments) : Except EvaluationError Demand := do
  match a.func with
  | .constant =>
    match literal with
    | some value => return .value value
    | none => .error (.invalidArgument a.func "constant" "literal is missing")
  | .payload => return .payloadField (← a.string "fieldName")
  | .variable => return .variableValue (← a.string "varname")
  | .customListAccess => return .listItems (← a.string "customListId")
  | .databaseAccess =>
    let table ← a.string "tableName"
    let field ← a.string "fieldName"
    let links ← a.list "path"
    return .relatedField table field
      (← links.mapM (Arguments.expect a.func "path" "string" Value.string?))
  | .and => return .value (.bool ((← a.bools).all id))
  | .or => return .value (.bool ((← a.bools).any id))
  | .not => return .value (.bool (!(← a.bool "value")))
  | .equal =>
    let left ← a.value "left"
    return .value (.bool (left.equal (← a.value "right")))
  | .notEqual =>
    let left ← a.value "left"
    return .value (.bool (!left.equal (← a.value "right")))
  | .greater =>
    let left ← a.value "left"
    return .value (.bool ((← order a.func left (← a.value "right")) == .gt))
  | .greaterOrEqual =>
    let left ← a.value "left"
    return .value (.bool ((← order a.func left (← a.value "right")) != .lt))
  | .less =>
    let left ← a.value "left"
    return .value (.bool ((← order a.func left (← a.value "right")) == .lt))
  | .lessOrEqual =>
    let left ← a.value "left"
    return .value (.bool ((← order a.func left (← a.value "right")) != .gt))
  | .add =>
    let left ← a.value "left"
    return .value (← arithmetic a.func (· + ·) (· + ·) left (← a.value "right"))
  | .subtract =>
    let left ← a.value "left"
    return .value (← arithmetic a.func (· - ·) (· - ·) left (← a.value "right"))
  | .multiply =>
    let left ← a.value "left"
    return .value (← arithmetic a.func (· * ·) (· * ·) left (← a.value "right"))
  | .divide =>
    let left ← a.value "left"
    return .value (← divide a.func left (← a.value "right"))
  | .isNull => return .value (.bool (← a.value "value").isNull)
  | .isInList =>
    let needle ← a.value "value"
    return .value (.bool ((← a.list "list").any needle.equal))
  | .isNotInList =>
    let needle ← a.value "value"
    return .value (.bool (!(← a.list "list").any needle.equal))
  | .stringContains =>
    let haystack ← a.string "haystack"
    return .value (.bool (occursIn (← a.string "needle").toList haystack.toList))
  | .stringStartsWith =>
    let haystack ← a.string "haystack"
    return .value (.bool ((← a.string "needle").toList.isPrefixOf haystack.toList))
  | .stringEndsWith =>
    let haystack ← a.string "haystack"
    return .value (.bool ((← a.string "needle").toList.isSuffixOf haystack.toList))
  | .stringLower => return .value (.string (Lowercase.text (← a.string "value")))
  | .parseTimestamp =>
    match Rfc3339.parse (← a.string "value") with
    | .ok t => return .value (.timestamp t)
    | .error e => .error (.invalidArgument a.func "value" e.message)
  | .timeAdd =>
    let t ← a.timestamp "timestamp"
    match t.addSeconds? (← a.int "seconds").toInt with
    | some moved => return .value (.timestamp moved)
    | none => .error (.overflow a.func)
  | .secondsBetween =>
    let start ← a.timestamp "start"
    return .value (.int (Int64.ofInt (start.secondsBetween (← a.timestamp "end"))))
  | .scoreComputation =>
    let condition ← a.bool "condition"
    let modifier ← a.int "modifier"
    let floor ←
      match ← a.optional "floor" with
      | some value => Arguments.expect a.func "floor" "int" Value.int? value
      | none => pure 0
    return .value (.score (if condition then ⟨true, modifier, floor⟩ else .notTriggered))
  | .switch => return .value (.score (firstTriggered (← a.scores)))

/-- Passes on what came of a lookup. -/
def lookedUp {α : Type} (wrap : α → Value) :
    Except (Halt EnvironmentError) α → Except (Halt EvaluationError) Value
  | .ok a => .ok (wrap a)
  | .error (.error e) => .error (.error (.environment e))
  | .error (.fault f) => .error (.fault f)

/-- Meets a demand. -/
def answer (env : Environment) : Demand → Except (Halt EvaluationError) Value
  | .value v => .ok v
  | .payloadField name => lookedUp id (env.payloadField name)
  | .listItems name => lookedUp .list (env.listItems name)
  | .relatedField table field path => lookedUp id (env.relatedField table field path)
  | .variableValue name => lookedUp id (env.variableValue name)

/-- The value of a node whose arguments have been evaluated. -/
def dispatch (env : Environment) (literal : Option Value) (a : Arguments) :
    Except (Halt EvaluationError) Value :=
  match demand literal a with
  | .ok d => answer env d
  | .error e => .error (.error e)

/-! ### Trees -/

/-- The record of a node, unless a fault ended its evaluation. -/
def record (a : Arguments) :
    Except (Halt EvaluationError) Value → Except Fault Evaluation
  | .ok value => .ok (.ofOutcome a.func (.ok value) a.children a.named)
  | .error (.error e) => .ok (.ofOutcome a.func (.error e) a.children a.named)
  | .error (.fault f) => .error f

mutual

/-- Evaluates a node that stands at a level, the root at 1. -/
def evaluateAt (r : Registry) (env : Environment) (level : Nat) :
    Node → Except Fault Evaluation
  | ⟨func, literal, children, named, _⟩ =>
    if r.maxDepth < level then .ok (.ofOutcome func (.error (.tooDeep r.maxDepth)) [] [])
    else do
      let children ← evaluateAll r env (level + 1) children
      let named ← evaluateNamed r env (level + 1) named
      let arguments : Arguments := ⟨func, children, named⟩
      if r.enabled func then record arguments (dispatch env literal arguments)
      else record arguments (.error (.error (.unsupportedFunction func)))

/-- Evaluates nodes of one level. -/
def evaluateAll (r : Registry) (env : Environment) (level : Nat) :
    List Node → Except Fault (List Evaluation)
  | [] => .ok []
  | node :: rest =>
    return (← evaluateAt r env level node) :: (← evaluateAll r env level rest)

/-- Evaluates named nodes of one level. -/
def evaluateNamed (r : Registry) (env : Environment) (level : Nat) :
    List (String × Node) → Except Fault (List (String × Evaluation))
  | [] => .ok []
  | (name, node) :: rest =>
    return (name, ← evaluateAt r env level node) :: (← evaluateNamed r env level rest)

end

/-- Evaluates a tree. -/
def evaluate (r : Registry) (env : Environment) (node : Node) : Except Fault Evaluation :=
  evaluateAt r env 1 node

end Evaluator

end RiskRules
