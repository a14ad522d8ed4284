import RiskRules.Proofs.Outcomes
import RiskRules.Proofs.Positions
import RiskRules.Proofs.Signed64

/-!
Integer arithmetic in trees. A formula is a tree of additions, subtractions and multiplications over
expressions that come to integers, and its exact value is the integer that it stands for where no
range bounds it. An operation comes to something by what its operands came to alone
(`Evaluator.Operation.demand_eq`); so the records of a formula are told from those of its parts
(`Evaluator.Formula.Recorded`), and each of them either has the exact value or says where the range
was left (`Evaluator.integer_arithmetic_exact_or_reported`).
-/

namespace RiskRules.Evaluator

open Signed64

/-! ### Operations -/

/-- An operation on two integers. -/
inductive Operation where
  | add
  | subtract
  | multiply
  deriving DecidableEq, Repr

namespace Operation

variable {op : Operation} {i j : Int64} {v : Value}

/-- The function that carries an operation out. -/
def func : Operation → Func
  | .add => .add
  | .subtract => .subtract
  | .multiply => .multiply

/-- The result of an operation over unbounded integers. -/
def exact : Operation → Int → Int → Int
  | .add => (· + ·)
  | .subtract => (· - ·)
  | .multiply => (· * ·)

/-- The result of an operation in binary64. -/
def rounded : Operation → Float → Float → Float
  | .add => (· + ·)
  | .subtract => (· - ·)
  | .multiply => (· * ·)

theorem parameters_func : op.func.descriptor.parameters = [⟨"left", true⟩, ⟨"right", true⟩] := by
  cases op <;> rfl

/-- Two operands under the names that they go by. -/
def pair {α : Type} (left right : α) : List (String × α) :=
  [("left", left), ("right", right)]

/-- What an operation comes to, told from what its operands came to. -/
def outcome (op : Operation) :
    Except EvaluationError Value → Except EvaluationError Value → Except EvaluationError Value
  | .error _, _ => .error (.argumentFailed op.func "left")
  | .ok _, .error _ => .error (.argumentFailed op.func "right")
  | .ok left, .ok right => arithmetic op.func op.exact op.rounded left right

/-- An operation sees of its operands only what they came to. -/
theorem demand_eq (literal : Option Value) (left right : Evaluation) :
    demand literal ⟨op.func, [], pair left right⟩ =
      Demand.value <$> op.outcome left.outcome right.outcome := by
  cases left_came_to : left.outcome <;> cases right_came_to : right.outcome <;> cases op <;>
    simp [demand, Arguments.value, Arguments.optional, Keyed.get?, pair, func, outcome, exact,
      rounded, left_came_to, right_came_to, bind, Except.bind, pure, Except.pure, Functor.map,
      Except.map]

theorem outcome_of_ints :
    op.outcome (.ok (.int i)) (.ok (.int j)) = fitted op.func (op.exact i.toInt j.toInt) := rfl

/-- Integers whose exact result is in the range have that result. -/
theorem outcome_of_ints_eq_ok_iff : op.outcome (.ok (.int i)) (.ok (.int j)) = .ok v ↔
    ∃ k, v = .int k ∧ k.toInt = op.exact i.toInt j.toInt := by
  rw [outcome_of_ints, fitted]
  cases fit : fit? (op.exact i.toInt j.toInt) with
  | some k =>
    rw [fit?_eq_some_iff] at fit
    constructor
    · rintro ⟨⟩
      exact ⟨k, rfl, fit⟩
    · rintro ⟨k', rfl, same⟩
      rw [Int64.toInt_inj.mp (fit.trans same.symm)]
  | none =>
    refine iff_of_false (fun overflow => by cases overflow) ?_
    rintro ⟨k, -, same⟩
    exact fit?_eq_none_iff.mp fit (same ▸ fits_toInt k)

/-- Integers whose exact result is not in the range have none. -/
theorem outcome_of_ints_of_not_fits (outside : ¬Fits (op.exact i.toInt j.toInt)) :
    op.outcome (.ok (.int i)) (.ok (.int j)) = .error (.overflow op.func) := by
  rw [outcome_of_ints, fitted, fit?_eq_none_iff.mpr outside]

end Operation

open Operation (pair)

/-- A step leads to the one operand or to the other. -/
theorem child?_pair_eq_some_iff {α : Type} {step : Step} {left right child : α} :
    step.child? [] (pair left right) = some child ↔
      (step = .named "left" ∧ left = child) ∨ (step = .named "right" ∧ right = child) := by
  cases step with
  | unnamed index => simp [Step.child?]
  | named name =>
    simp only [Step.child?, pair, Keyed.get?, Step.named.injEq, @eq_comm _ name]
    split
    · rename_i is_left
      subst is_left
      simp
    · rename_i not_left
      split <;> simp_all

/-! ### Formulas -/

/-- A tree of operations over parts, each an expression with the integer that it comes to. -/
inductive Formula where
  | part (node : Node) (value : Int64)
  | operation (op : Operation) (left right : Formula)

namespace Formula

variable {x y left right : Formula} {op : Operation} {r : Registry} {env : Environment}
  {level : Nat} {e : Evaluation} {path : List Step}

/-- The expression tree of a formula. -/
def node : Formula → Node
  | .part node _ => node
  | .operation op left right => .make op.func none [] (pair left.node right.node)

/-- The value of a formula over unbounded integers. -/
def exact : Formula → Int
  | .part _ value => value.toInt
  | .operation op left right => op.exact left.exact right.exact

/-- The operands of a formula under their names. -/
def operands : Formula → List (String × Formula)
  | .part _ _ => []
  | .operation _ left right => pair left right

/-- The formula at a position. -/
def at? (x : Formula) (path : List Step) : Option Formula :=
  path.foldlM (fun y step => step.child? [] y.operands) x

/-- The exact values of the formula and of all formulas in it are in the range. -/
def InRange (x : Formula) : Prop :=
  ∀ path y, x.at? path = some y → Fits y.exact

/-- The registry has the functions of all operations in the formula. -/
def Enabled (r : Registry) (x : Formula) : Prop :=
  ∀ path op left right, x.at? path = some (.operation op left right) → r.enabled op.func = true

/-- Each part of the formula, evaluated where it stands in the formula, comes to its integer. -/
def Given (r : Registry) (env : Environment) (level : Nat) (x : Formula) : Prop :=
  ∀ path node value, x.at? path = some (.part node value) →
    ∃ e, evaluateAt r env (level + path.length) node = .ok e ∧ e.outcome = .ok (.int value)

/-! ### Positions in formulas -/

@[simp] theorem at?_nil : x.at? [] = some x := rfl

theorem at?_cons {step : Step} :
    x.at? (step :: path) = (step.child? [] x.operands).bind (·.at? path) :=
  List.foldlM_cons

/-- The only formula in a part is the part itself. -/
theorem at?_part_eq_some_iff {node : Node} {value : Int64} :
    (part node value).at? path = some y ↔ path = [] ∧ part node value = y := by
  cases path with
  | nil => simp
  | cons step path => cases step <;> simp [at?_cons, operands, Step.child?, Keyed.get?]

/-- The formulas in an operation are the operation itself and those in its operands. -/
theorem at?_operation_eq_some_iff : (operation op left right).at? path = some y ↔
    (path = [] ∧ operation op left right = y) ∨
    (∃ below, path = .named "left" :: below ∧ left.at? below = some y) ∨
    ∃ below, path = .named "right" :: below ∧ right.at? below = some y := by
  cases path with
  | nil => simp
  | cons step path =>
    rw [at?_cons, Option.bind_eq_some_iff]
    simp only [operands, child?_pair_eq_some_iff, List.cons.injEq, reduceCtorEq, false_and,
      false_or]
    constructor
    · rintro ⟨child, ⟨rfl, rfl⟩ | ⟨rfl, rfl⟩, reached⟩
      · exact .inl ⟨path, ⟨rfl, rfl⟩, reached⟩
      · exact .inr ⟨path, ⟨rfl, rfl⟩, reached⟩
    · rintro (⟨below, ⟨rfl, rfl⟩, reached⟩ | ⟨below, ⟨rfl, rfl⟩, reached⟩)
      · exact ⟨left, .inl ⟨rfl, rfl⟩, reached⟩
      · exact ⟨right, .inr ⟨rfl, rfl⟩, reached⟩

theorem inRange_part {node : Node} {value : Int64} : (part node value).InRange := by
  intro path y reached
  obtain ⟨-, rfl⟩ := at?_part_eq_some_iff.mp reached
  exact fits_toInt value

/-- An operation is in range exactly if its operands are and its exact value is. -/
theorem inRange_operation_iff : (operation op left right).InRange ↔
    Fits (op.exact left.exact right.exact) ∧ left.InRange ∧ right.InRange := by
  constructor
  · intro within
    exact ⟨within [] _ at?_nil, fun path y reached => within (.named "left" :: path) y reached,
      fun path y reached => within (.named "right" :: path) y reached⟩
  · rintro ⟨here, on_left, on_right⟩ path y reached
    rcases at?_operation_eq_some_iff.mp reached with
      ⟨-, rfl⟩ | ⟨below, -, reached⟩ | ⟨below, -, reached⟩
    · exact here
    · exact on_left below y reached
    · exact on_right below y reached

/-- What is in range is so at all of its positions. -/
theorem InRange.of_at? (within : x.InRange) (reached : x.at? path = some y) : y.InRange := by
  intro below z further
  refine within (path ++ below) z ?_
  rw [at?, List.foldlM_append]
  rw [at?] at reached further
  rw [reached]
  exact further

theorem enabled_operation_iff : (operation op left right).Enabled r ↔
    r.enabled op.func = true ∧ left.Enabled r ∧ right.Enabled r := by
  constructor
  · intro enabled
    exact ⟨enabled [] op left right at?_nil,
      fun path op a b reached => enabled (.named "left" :: path) op a b reached,
      fun path op a b reached => enabled (.named "right" :: path) op a b reached⟩
  · rintro ⟨here, on_left, on_right⟩ path op a b reached
    rcases at?_operation_eq_some_iff.mp reached with
      ⟨-, same⟩ | ⟨below, -, reached⟩ | ⟨below, -, reached⟩
    · cases same
      exact here
    · exact on_left below op a b reached
    · exact on_right below op a b reached

theorem given_part_iff {node : Node} {value : Int64} : (part node value).Given r env level ↔
    ∃ e, evaluateAt r env level node = .ok e ∧ e.outcome = .ok (.int value) := by
  constructor
  · exact fun given => given [] node value at?_nil
  · intro came_to path n v reached
    obtain ⟨rfl, same⟩ := at?_part_eq_some_iff.mp reached
    cases same
    exact came_to

theorem given_operation_iff : (operation op left right).Given r env level ↔
    left.Given r env (level + 1) ∧ right.Given r env (level + 1) := by
  have below (path : List Step) (step : Step) :
      level + (step :: path).length = level + 1 + path.length := by
    rw [List.length_cons, ← Nat.add_assoc, Nat.add_right_comm]
  constructor
  · refine fun given => ⟨fun path node value reached => ?_, fun path node value reached => ?_⟩
    · exact below path _ ▸ given (.named "left" :: path) node value reached
    · exact below path _ ▸ given (.named "right" :: path) node value reached
  · rintro ⟨on_left, on_right⟩ path node value reached
    rcases at?_operation_eq_some_iff.mp reached with
      ⟨-, other⟩ | ⟨path, rfl, reached⟩ | ⟨path, rfl, reached⟩
    · cases other
    · exact below path _ ▸ on_left path node value reached
    · exact below path _ ▸ on_right path node value reached

/-- The exact value of a formula in range is that of a word. -/
theorem InRange.exists_toInt (within : x.InRange) : ∃ i : Int64, i.toInt = x.exact :=
  ⟨_, toInt_ofInt_of_fits (within [] x at?_nil)⟩

/-! ### Records of formulas -/

/-- How the record of a formula stands over the records of its parts. -/
inductive Recorded : Formula → Evaluation → Prop where
  | part {node : Node} {value : Int64} {e : Evaluation} (came_to : e.outcome = .ok (.int value)) :
    Recorded (.part node value) e
  | operation {op : Operation} {left right : Formula} {l r : Evaluation}
    (left_recorded : Recorded left l) (right_recorded : Recorded right r) :
    Recorded (.operation op left right)
      (.ofOutcome op.func (op.outcome l.outcome r.outcome) [] (pair l r))

/-- A formula whose parts come to their integers has a record, on an allowed level. -/
theorem exists_recorded (enabled : x.Enabled r) (given : x.Given r env level) :
    ∃ e, evaluateAt r env level x.node = .ok e ∧ Recorded x e ∧ level ≤ r.maxDepth := by
  induction x generalizing level with
  | part node value =>
    obtain ⟨e, evaluated, came_to⟩ := given_part_iff.mp given
    exact ⟨e, evaluated, .part came_to, allowed_of_outcome evaluated came_to⟩
  | operation op left right left_has right_has =>
    obtain ⟨here, left_enabled, right_enabled⟩ := enabled_operation_iff.mp enabled
    obtain ⟨left_given, right_given⟩ := given_operation_iff.mp given
    obtain ⟨l, left_evaluated, left_recorded, left_allowed⟩ := left_has left_enabled left_given
    obtain ⟨r', right_evaluated, right_recorded, -⟩ := right_has right_enabled right_given
    have allowed : level ≤ r.maxDepth := Nat.le_of_succ_le left_allowed
    refine ⟨_, evaluateAt_eq_ok_iff.mpr (.inr ⟨allowed, [], .nil, pair l r', ?_, _, ?_, rfl⟩),
      .operation left_recorded right_recorded, allowed⟩
    · exact .cons ⟨rfl, left_evaluated⟩ (.cons ⟨rfl, right_evaluated⟩ .nil)
    · change apply r env none ⟨op.func, [], pair l r'⟩ = _
      rw [apply, if_pos here, dispatch, Operation.demand_eq]
      cases op.outcome l.outcome r'.outcome <;> rfl

/-- Under the record of a formula stand the records of the formulas in it. -/
theorem Recorded.exists_at? (recorded : Recorded x e) (reached : x.at? path = some y) :
    ∃ record, e.at? path = some record ∧ Recorded y record := by
  induction recorded generalizing path with
  | @part node value e came_to =>
    obtain ⟨rfl, rfl⟩ := at?_part_eq_some_iff.mp reached
    exact ⟨e, rfl, .part came_to⟩
  | @operation op left right l r left_recorded right_recorded on_left on_right =>
    rcases at?_operation_eq_some_iff.mp reached with
      ⟨rfl, rfl⟩ | ⟨below, rfl, reached⟩ | ⟨below, rfl, reached⟩
    · exact ⟨_, rfl, .operation left_recorded right_recorded⟩
    · obtain ⟨record, found, recorded⟩ := on_left reached
      exact ⟨record, by simpa [Evaluation.at?_cons, Step.child?, pair, Keyed.get?], recorded⟩
    · obtain ⟨record, found, recorded⟩ := on_right reached
      exact ⟨record, by simpa [Evaluation.at?_cons, Step.child?, pair, Keyed.get?], recorded⟩

/-- A formula comes to a value exactly if nothing in it leaves the range, and then to its exact
value. -/
theorem Recorded.outcome_eq_ok_iff (recorded : Recorded x e) (v : Value) :
    e.outcome = .ok v ↔ x.InRange ∧ ∃ i, v = .int i ∧ i.toInt = x.exact := by
  induction recorded generalizing v with
  | @part node value e came_to =>
    rw [came_to, and_iff_right inRange_part, Except.ok.injEq]
    constructor
    · rintro rfl
      exact ⟨value, rfl, rfl⟩
    · rintro ⟨i, rfl, same⟩
      rw [Int64.toInt_inj.mp same]
  | @operation op left right l r _ _ left_iff right_iff =>
    rw [Evaluation.ofOutcome_outcome, inRange_operation_iff]
    constructor
    · intro came_to
      cases left_came_to : l.outcome with
      | error _ => simp [left_came_to, Operation.outcome] at came_to
      | ok a =>
        cases right_came_to : r.outcome with
        | error _ => simp [left_came_to, right_came_to, Operation.outcome] at came_to
        | ok b =>
          obtain ⟨left_within, i, rfl, left_exact⟩ := (left_iff a).mp left_came_to
          obtain ⟨right_within, j, rfl, right_exact⟩ := (right_iff b).mp right_came_to
          rw [left_came_to, right_came_to] at came_to
          obtain ⟨k, rfl, value_eq⟩ := Operation.outcome_of_ints_eq_ok_iff.mp came_to
          rw [left_exact, right_exact] at value_eq
          exact ⟨⟨value_eq ▸ fits_toInt k, left_within, right_within⟩, k, rfl, value_eq⟩
    · rintro ⟨⟨-, left_within, right_within⟩, k, rfl, value_eq⟩
      -- The operands have their exact values, which are integers.
      obtain ⟨i, left_exact⟩ := left_within.exists_toInt
      obtain ⟨j, right_exact⟩ := right_within.exists_toInt
      have left_came_to := (left_iff (.int i)).mpr ⟨left_within, i, rfl, left_exact⟩
      have right_came_to := (right_iff (.int j)).mpr ⟨right_within, j, rfl, right_exact⟩
      rw [left_came_to, right_came_to]
      refine Operation.outcome_of_ints_eq_ok_iff.mpr ⟨k, rfl, ?_⟩
      rw [value_eq, exact, left_exact, right_exact]

theorem Recorded.value_eq_some_iff (recorded : Recorded x e) (v : Value) :
    e.value = some v ↔ e.outcome = .ok v := by
  cases recorded with
  | @part node value e came_to =>
    obtain ⟨func, found, error, children, named⟩ := e
    cases error <;> cases found <;> simp_all [Evaluation.outcome]
  | @operation op left right l r =>
    rw [Evaluation.ofOutcome_outcome]
    cases op.outcome l.outcome r.outcome <;> simp [Evaluation.ofOutcome]

/-- A formula succeeds exactly if nothing in it leaves the range. -/
theorem Recorded.succeeded_iff (recorded : Recorded x e) : e.succeeded = true ↔ x.InRange := by
  rw [← Evaluation.exists_outcome_eq_ok_iff]
  constructor
  · rintro ⟨v, came_to⟩
    exact ((recorded.outcome_eq_ok_iff v).mp came_to).1
  · intro within
    obtain ⟨i, exactly⟩ := within.exists_toInt
    exact ⟨.int i, (recorded.outcome_eq_ok_iff _).mpr ⟨within, i, rfl, exactly⟩⟩

/-- An operation whose operands succeed overflows exactly where its exact value is out of range. -/
theorem Recorded.overflow (recorded : Recorded (.operation op left right) e)
    (left_within : left.InRange) (right_within : right.InRange)
    (outside : ¬Fits (op.exact left.exact right.exact)) :
    e.outcome = .error (.overflow op.func) := by
  obtain ⟨i, left_exact⟩ := left_within.exists_toInt
  obtain ⟨j, right_exact⟩ := right_within.exists_toInt
  rw [← left_exact, ← right_exact] at outside
  cases recorded with
  | operation left_recorded right_recorded =>
    rw [Evaluation.ofOutcome_outcome,
      (left_recorded.outcome_eq_ok_iff (.int i)).mpr ⟨left_within, i, rfl, left_exact⟩,
      (right_recorded.outcome_eq_ok_iff (.int j)).mpr ⟨right_within, j, rfl, right_exact⟩]
    exact Operation.outcome_of_ints_of_not_fits outside

/-- An operation over an operand that failed blames the first that did. -/
theorem Recorded.blames (recorded : Recorded (.operation op left right) e)
    (failed : ¬left.InRange ∨ ¬right.InRange) :
    (¬left.InRange ∧ e.outcome = .error (.argumentFailed op.func "left")) ∨
      (left.InRange ∧ e.outcome = .error (.argumentFailed op.func "right")) := by
  cases recorded with
  | @operation _ _ _ l r left_recorded right_recorded =>
    rw [Evaluation.ofOutcome_outcome]
    rw [← left_recorded.succeeded_iff, ← right_recorded.succeeded_iff, Bool.not_eq_true,
      Bool.not_eq_true] at failed
    rw [← left_recorded.succeeded_iff, Bool.not_eq_true]
    cases left_came_to : l.outcome with
    | error _ => exact .inl ⟨Evaluation.succeeded_eq_false_iff.mpr ⟨_, left_came_to⟩, rfl⟩
    | ok a =>
      have left_succeeded := Evaluation.exists_outcome_eq_ok_iff.mp ⟨a, left_came_to⟩
      rw [left_succeeded] at failed
      obtain ⟨error, right_came_to⟩ :=
        Evaluation.succeeded_eq_false_iff.mp (failed.resolve_left nofun)
      rw [right_came_to]
      exact .inr ⟨left_succeeded, rfl⟩

/-- What leaves the range below an operation leaves it in one of its operands. -/
theorem not_inRange_operand {step : Step}
    (reached : (operation op left right).at? (step :: path) = some y) (outside : ¬y.InRange) :
    ¬left.InRange ∨ ¬right.InRange := by
  rcases at?_operation_eq_some_iff.mp reached with
    ⟨nowhere, -⟩ | ⟨below, -, reached⟩ | ⟨below, -, reached⟩
  · cases nowhere
  · exact .inl fun within => outside (within.of_at? reached)
  · exact .inr fun within => outside (within.of_at? reached)

/-! ### Trees as formulas -/

/-- A node of an operation has its two operands and nothing else. -/
theorem pair_of_wellShaped {literal : Option Value} {children : List Node}
    {named : List (String × Node)}
    (shape : WellShaped op.func literal children.length (named.map Prod.fst))
    (ordered : Keyed.Ascending named) :
    literal = none ∧ children = [] ∧ ∃ left right, named = pair left right := by
  have no_literal : literal = none := by
    have other : op.func ≠ .constant := by cases op <;> exact nofun
    have := shape.literal_iff.not.mpr other
    simpa using this
  have no_children : children = [] :=
    List.length_eq_zero_iff.mp (shape.unnamed_none (by cases op <;> rfl))
  have given (name : String) (required : ⟨name, true⟩ ∈ op.func.descriptor.parameters) :
      ∃ n, (name, n) ∈ named := by
    obtain ⟨⟨_, n⟩, mem, rfl⟩ := List.mem_map.mp (shape.required_given _ required rfl)
    exact ⟨n, mem⟩
  obtain ⟨left, left_mem⟩ := given "left" (by simp [Operation.parameters_func])
  obtain ⟨right, right_mem⟩ := given "right" (by simp [Operation.parameters_func])
  refine ⟨no_literal, no_children, left, right, ?_⟩
  have only {name : String} {n m : Node} (mem : (name, n) ∈ named) (also : (name, m) ∈ named) :
      n = m := by
    rw [← ordered.get?_eq_some_iff] at mem also
    exact Option.some.inj (mem.symm.trans also)
  have operands_ordered : Keyed.Ascending (pair left right) :=
    Keyed.ascending_iff_keys.mpr (show ["left", "right"].Pairwise (· < ·) by decide)
  refine ordered.eq_of_mem_iff operands_ordered fun ⟨name, n⟩ => ?_
  simp only [pair, List.mem_cons, List.not_mem_nil, or_false, Prod.mk.injEq]
  constructor
  · intro mem
    have taken := shape.given_taken name (List.mem_map_of_mem mem)
    have one : "left" = name ∨ "right" = name := by
      simpa [Descriptor.takes, Operation.parameters_func] using taken
    rcases one with rfl | rfl
    · exact .inl ⟨rfl, only mem left_mem⟩
    · exact .inr ⟨rfl, only mem right_mem⟩
  · rintro (⟨rfl, rfl⟩ | ⟨rfl, rfl⟩)
    · exact left_mem
    · exact right_mem

/-- A built tree is a formula over the expressions in it that are no operations, with whatever
integers the parts at the positions of these come to. -/
theorem exists_node_eq {on : Registry → Prop} {node : Node} (built : node.Built on)
    (values : List Step → Int64) : ∃ x : Formula, x.node = node ∧
      ∀ path n value, x.at? path = some (.part n value) →
        value = values path ∧ ∀ op : Operation, n.func ≠ op.func := by
  refine Node.Built.induct (motive := fun node => ∀ values : List Step → Int64, ∃ x : Formula,
    x.node = node ∧ ∀ path n value, x.at? path = some (.part n value) →
      value = values path ∧ ∀ op : Operation, n.func ≠ op.func)
    (fun {_ func _ _ _ _} _ _ named_formulas ordered made values => ?_) built values
  obtain ⟨-, shape, -, rfl⟩ := Registry.build_eq_ok_iff.mp made
  by_cases operates : ∃ op : Operation, func = op.func
  · obtain ⟨op, rfl⟩ := operates
    obtain ⟨rfl, rfl, left, right, rfl⟩ := pair_of_wellShaped shape ordered
    obtain ⟨x, rfl, parts_left⟩ :=
      named_formulas ("left", left) (by simp [pair]) fun path => values (.named "left" :: path)
    obtain ⟨y, rfl, parts_right⟩ :=
      named_formulas ("right", right) (by simp [pair]) fun path => values (.named "right" :: path)
    refine ⟨.operation op x y, rfl, fun path n value reached => ?_⟩
    rcases at?_operation_eq_some_iff.mp reached with
      ⟨-, other⟩ | ⟨below, rfl, reached⟩ | ⟨below, rfl, reached⟩
    · cases other
    · exact parts_left below n value reached
    · exact parts_right below n value reached
  · refine ⟨.part _ (values []), rfl, fun path n value reached => ?_⟩
    obtain ⟨rfl, same⟩ := at?_part_eq_some_iff.mp reached
    cases same
    exact ⟨rfl, fun op same => operates ⟨op, same⟩⟩

/-- The trees of the formulas in a formula stand in its tree. -/
theorem node_mem_walk (reached : x.at? path = some y) : y.node ∈ x.node.walk := by
  induction x generalizing path with
  | part n value =>
    obtain ⟨-, rfl⟩ := at?_part_eq_some_iff.mp reached
    exact Node.self_mem_walk _
  | operation op left right on_left on_right =>
    refine Node.mem_walk.mpr ?_
    rcases at?_operation_eq_some_iff.mp reached with
      ⟨-, rfl⟩ | ⟨below, -, reached⟩ | ⟨below, -, reached⟩
    · exact .inl rfl
    · exact .inr (.inr ⟨("left", left.node), by simp [node, Node.make, pair], on_left reached⟩)
    · exact .inr (.inr ⟨("right", right.node), by simp [node, Node.make, pair], on_right reached⟩)

/-- The registry that a formula was built on has the functions of its operations. -/
theorem enabled_of_built (built : x.node.Built (· = r)) : x.Enabled r :=
  fun _ _ _ _ reached => built.admitted.enabled _ (node_mem_walk reached)

end Formula

/-- **Integer arithmetic is exact or reported.** Every built tree is a formula over the expressions
in it that are no additions, subtractions or multiplications, whatever integers these come to, and a
registry that it was built on has its functions. Where a registry has the functions of a formula and
its parts come to their integers, the formula has a record at every level, with a record at each
position of the formula. That record has a value exactly if the exact values of the formula there
and of all formulas in it are in the range of words, and then its value is the exact one. An
operation whose operands succeed fails with an overflow of its own function if its exact value is
out of range, and each operation above something that failed blames the first operand that did. -/
theorem integer_arithmetic_exact_or_reported (r : Registry) (env : Environment) :
    (∀ (on : Registry → Prop) (node : Node) (values : List Step → Int64), node.Built on →
      ∃ x : Formula, x.node = node ∧ ∀ path n value, x.at? path = some (.part n value) →
        value = values path ∧ ∀ op : Operation, n.func ≠ op.func) ∧
    (∀ x : Formula, x.node.Built (· = r) → x.Enabled r) ∧
    ∀ (x : Formula) (level : Nat), x.Enabled r → x.Given r env level →
      ∃ e, evaluateAt r env level x.node = .ok e ∧
        ∀ path y, x.at? path = some y → ∃ record, e.at? path = some record ∧
          (∀ v, record.value = some v ↔ y.InRange ∧ ∃ i, v = .int i ∧ i.toInt = y.exact) ∧
          (record.succeeded = true ↔ y.InRange) ∧
          ∀ op left right, y = .operation op left right →
            (left.InRange → right.InRange → ¬Fits y.exact →
              record.outcome = .error (.overflow op.func)) ∧
            ∀ step below z, y.at? (step :: below) = some z → ¬z.InRange →
              (¬left.InRange ∧ record.outcome = .error (.argumentFailed op.func "left")) ∨
                (left.InRange ∧ record.outcome = .error (.argumentFailed op.func "right")) := by
  refine ⟨fun on node values built => Formula.exists_node_eq built values,
    fun x built => Formula.enabled_of_built built, fun x level enabled given => ?_⟩
  obtain ⟨e, evaluated, recorded, -⟩ := Formula.exists_recorded enabled given
  refine ⟨e, evaluated, fun path y reached => ?_⟩
  obtain ⟨record, found, recorded⟩ := recorded.exists_at? reached
  refine ⟨record, found, fun v => ?_, recorded.succeeded_iff, ?_⟩
  · rw [recorded.value_eq_some_iff, recorded.outcome_eq_ok_iff]
  · rintro op left right rfl
    refine ⟨recorded.overflow, fun step below z further outside => ?_⟩
    exact recorded.blames (Formula.not_inRange_operand further outside)

/-- The greatest word and one, less one: the value would fit, but the sum leaves the range. -/
theorem integer_arithmetic_exact_or_reported_of_large_sum : ∃ largest one : Node,
    Registry.standard.constant (.int 9223372036854775807) = .ok largest ∧
    Registry.standard.constant (.int 1) = .ok one ∧
    let sum := Formula.operation .add (.part largest 9223372036854775807) (.part one 1)
    let x := Formula.operation .subtract sum (.part one 1)
    Fits x.exact ∧
    ∃ e, evaluate .standard Facts.empty.toEnvironment x.node = .ok e ∧
      e.outcome = .error (.argumentFailed .subtract "left") ∧
      (∃ part, e.at? [.named "left"] = some part ∧ part.outcome = .error (.overflow .add)) ∧
      ∃ part, e.at? [.named "right"] = some part ∧ part.value = some (.int 1) := by
  refine ⟨_, _, rfl, rfl, ?_⟩
  intro sum x
  have given : x.Given .standard Facts.empty.toEnvironment 1 := by
    refine Formula.given_operation_iff.mpr ⟨Formula.given_operation_iff.mpr ⟨?_, ?_⟩, ?_⟩
    · exact Formula.given_part_iff.mpr ⟨_, rfl, rfl⟩
    · exact Formula.given_part_iff.mpr ⟨_, rfl, rfl⟩
    · exact Formula.given_part_iff.mpr ⟨_, rfl, rfl⟩
  have outside : ¬sum.InRange := fun within => absurd (within [] sum rfl) (by decide)
  obtain ⟨e, evaluated, records⟩ := (integer_arithmetic_exact_or_reported .standard
    Facts.empty.toEnvironment).2.2 x 1 (fun _ _ _ _ _ => rfl) given
  refine ⟨by decide, e, evaluated, ?_, ?_, ?_⟩
  · obtain ⟨record, here, -, -, failures⟩ := records [] x rfl
    cases here
    obtain ⟨-, came_to⟩ | ⟨within, -⟩ :=
      (failures .subtract sum _ rfl).2 (.named "left") [] sum rfl outside
    · exact came_to
    · exact absurd within outside
  · obtain ⟨record, found, -, -, failures⟩ := records [.named "left"] sum rfl
    exact ⟨record, found, (failures .add _ _ rfl).1 Formula.inRange_part Formula.inRange_part
      (by decide)⟩
  · obtain ⟨record, found, value_iff, -⟩ := records [.named "right"] _ rfl
    exact ⟨record, found, (value_iff _).mpr ⟨Formula.inRange_part, 1, rfl, rfl⟩⟩

end RiskRules.Evaluator
