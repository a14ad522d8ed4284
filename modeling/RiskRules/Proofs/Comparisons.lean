import RiskRules.Proofs.Meanings
import RiskRules.Proofs.Evaluation

/-!
Comparisons. A function sees of its arguments only what they came to
(`Evaluator.demand_congr`), so that what it comes to on values (`Evaluator.on`) is what a tree comes
to whose subtrees have these values (`Evaluator.evaluateAt_of_values`). The six comparisons form one
order (`Evaluator.comparisons_consistent`), by which trees are compared (`Evaluator.compare_trees`),
and membership in a list is equality to one of its items (`Evaluator.membership_by_equality`), also
of trees (`Evaluator.membership_of_trees`).
-/

namespace RiskRules

/-! ### Functions on values -/

namespace Arguments

/-- Two functions have arguments that came to the same. -/
structure Alike (a b : Arguments) : Prop where
  func : a.func = b.func
  children : List.Forall₂ (fun x y => x.outcome = y.outcome) a.children b.children
  named : List.Forall₂ (fun x y => x.1 = y.1 ∧ x.2.outcome = y.2.outcome) a.named b.named

theorem get?_congr {named named' : List (String × Evaluation)}
    (same : List.Forall₂ (fun x y => x.1 = y.1 ∧ x.2.outcome = y.2.outcome) named named')
    (name : String) : (Keyed.get? name named).map Evaluation.outcome
      = (Keyed.get? name named').map Evaluation.outcome := by
  induction same with
  | nil => rfl
  | @cons x y _ _ here _ ih =>
    simp only [Keyed.get?, here.1]
    split
    · exact congrArg some here.2
    · exact ih

theorem optional_congr {a b : Arguments} (alike : a.Alike b) (name : String) :
    a.optional name = b.optional name := by
  have same := get?_congr alike.named name
  rw [optional, optional, alike.func]
  cases found : Keyed.get? name a.named <;> cases found' : Keyed.get? name b.named <;>
    simp only [found, found', Option.map_none, Option.map_some, reduceCtorEq, Option.some.injEq]
      at same
  · rfl
  · simp only [same]

theorem valuesFrom_congr {func : Func} {index : Nat} {children children' : List Evaluation}
    (same : List.Forall₂ (fun x y => x.outcome = y.outcome) children children') :
    valuesFrom func index children = valuesFrom func index children' := by
  induction same generalizing index with
  | nil => rfl
  | cons here _ ih => rw [valuesFrom, valuesFrom, here, ih]

theorem positional_congr {a b : Arguments} (alike : a.Alike b) : a.positional = b.positional := by
  rw [positional, positional, alike.func, valuesFrom_congr alike.children]

/-- Arguments that came to values. -/
def ofValues (func : Func) (values : List (String × Value)) : Arguments :=
  ⟨func, [], values.map fun named => (named.1, .ofOutcome .constant (.ok named.2) [] [])⟩

end Arguments

namespace Evaluator

variable {r : Registry} {env : Environment} {level : Nat} {func : Func}

/-- A function sees of its arguments only what they came to. -/
theorem demand_congr {a b : Arguments} (alike : a.Alike b) (literal : Option Value) :
    demand literal a = demand literal b := by
  have optional := Arguments.optional_congr alike
  have positional := Arguments.positional_congr alike
  have func := alike.func
  simp only [demand, func, Arguments.value, Arguments.bool, Arguments.int, Arguments.string,
    Arguments.timestamp, Arguments.list, Arguments.bools, Arguments.scores, optional, positional]

/-- What a function comes to on values. -/
def on (env : Environment) (func : Func) (values : List (String × Value)) :
    Except (Halt EvaluationError) Value :=
  dispatch env none (.ofValues func values)

/-- A tree that is evaluated at a level comes to an outcome. -/
def ComesTo (r : Registry) (env : Environment) (level : Nat) (node : Node)
    (outcome : Except EvaluationError Value) : Prop :=
  ∃ e, evaluateAt r env level node = .ok e ∧ e.outcome = outcome

/-- Named trees that are evaluated at a level come to values of the same names. -/
def ComeTo (r : Registry) (env : Environment) (level : Nat) : List (String × Node) →
    List (String × Value) → Prop :=
  List.Forall₂ fun entry v => entry.1 = v.1 ∧ ComesTo r env level entry.2 (.ok v.2)

theorem exists_records_of_comeTo {named : List (String × Node)} {values : List (String × Value)}
    (came_to : ComeTo r env level named values) :
    ∃ records, evaluateNamed r env level named = .ok records ∧
      List.Forall₂ (fun e v => e.1 = v.1 ∧ e.2.outcome = .ok v.2) records values := by
  induction came_to with
  | nil => exact ⟨[], rfl, .nil⟩
  | @cons entry v _ _ here _ ih =>
    obtain ⟨name, node⟩ := entry
    obtain ⟨same, e, evaluated, came_to⟩ := here
    obtain ⟨records, rest_evaluated, given⟩ := ih
    refine ⟨(name, e) :: records, ?_, .cons ⟨same, came_to⟩ given⟩
    rw [evaluateNamed, evaluated, rest_evaluated]
    rfl

/-- A tree over named subtrees that come to values comes to what its function comes to on them. -/
theorem evaluateAt_of_values {named : List (String × Node)} {values : List (String × Value)}
    {outcome : Except EvaluationError Value} (allowed : level ≤ r.maxDepth)
    (enabled : r.enabled func = true) (came_to : ComeTo r env (level + 1) named values)
    (applied : on env func values = outcome.mapError Halt.error) :
    ComesTo r env level (.make func none [] named) outcome := by
  obtain ⟨records, evaluated, given⟩ := exists_records_of_comeTo came_to
  have alike : Arguments.Alike ⟨func, [], records⟩ (.ofValues func values) :=
    ⟨rfl, .nil, List.forall₂_map_right_iff.mpr (given.imp fun _ _ both => by simpa using both)⟩
  have same : dispatch env none ⟨func, [], records⟩ = outcome.mapError Halt.error := by
    rw [← applied, on, dispatch, dispatch, demand_congr alike]
  refine ⟨.ofOutcome func outcome [] records, ?_, Evaluation.ofOutcome_outcome⟩
  rw [Node.make, evaluateAt, if_neg (Nat.not_lt.mpr allowed), evaluateAll, evaluated]
  simp only [bind, Except.bind, enabled, if_true, same]
  exact record_eq_ok_iff.mpr ⟨outcome, rfl, rfl⟩

/-! ### Comparisons -/

section Comparisons

variable {a b c : Value} {o : Ordering}

/-- The operands of a comparison. -/
def operands (left right : Value) : List (String × Value) :=
  [("left", left), ("right", right)]

/-- The comparisons that ask for an order. -/
def orderings : List Func :=
  [.greater, .greaterOrEqual, .less, .lessOrEqual]

/-- The orders of the operands of which a comparison holds. -/
def admits : Func → Ordering → Bool
  | .greater, o => o == .gt
  | .greaterOrEqual, o => o != .lt
  | .less, o => o == .lt
  | .lessOrEqual, o => o != .gt
  | _, _ => false

theorem on_equal : on env .equal (operands a b) = .ok (.bool (a.equal b)) := rfl

theorem on_notEqual : on env .notEqual (operands a b) = .ok (.bool (!a.equal b)) := rfl

/-- What a comparison that asks for an order makes of it. -/
theorem demand_ordering (mem : func ∈ orderings) : demand none (.ofValues func (operands a b))
    = (fun o => Demand.value (.bool (admits func o))) <$> order func a b := by
  have one : func = .greater ∨ func = .greaterOrEqual ∨ func = .less ∨ func = .lessOrEqual := by
    simpa [orderings] using mem
  rcases one with rfl | rfl | rfl | rfl <;> exact bind_pure_comp _ (order _ a b)

/-- Values that have an order are compared by it. -/
theorem on_ordering (mem : func ∈ orderings) (ordered : a.compare b = .ok o) :
    on env func (operands a b) = .ok (.bool (admits func o)) := by
  have order_eq : order func a b = .ok o := by rw [order, ordered]
  rw [on, dispatch, demand_ordering mem, order_eq]
  rfl

/-- Exactly comparable values can be asked for an order. -/
theorem exists_on_ordering_iff (mem : func ∈ orderings) :
    (∃ v, on env func (operands a b) = .ok v) ↔ Value.Comparable a b := by
  rw [← Value.exists_compare_iff]
  constructor
  · rintro ⟨v, succeeded⟩
    cases compared : a.compare b with
    | ok o => exact ⟨o, rfl⟩
    | error e =>
      have order_eq : ∃ err, order func a b = .error err := by
        cases e <;> exact ⟨_, by rw [order, compared]⟩
      obtain ⟨err, failed⟩ := order_eq
      rw [on, dispatch, demand_ordering mem, failed] at succeeded
      cases succeeded
  · rintro ⟨o, ordered⟩
    exact ⟨_, on_ordering mem ordered⟩

theorem on_less_iff : on env .less (operands a b) = .ok (.bool true) ↔ a.compare b = .ok .lt := by
  constructor
  · intro less
    have comparable := (exists_on_ordering_iff (by decide)).mp ⟨_, less⟩
    obtain ⟨o, ordered⟩ := Value.exists_compare_iff.mpr comparable
    rw [on_ordering (by decide) ordered] at less
    have o_eq : o = .lt := by simpa [admits] using less
    rw [ordered, o_eq]
  · exact fun ordered => on_ordering (by decide) ordered

/-- **The comparisons form one order.** Exactly for two numbers other than "not a number", two texts
or two timestamps can one ask which is less, and then for all four comparisons that do. Of less,
equal and greater one holds then, the other comparisons are made of them, and with the operands
turned round less and greater change places. Every two values can be asked whether they are equal.
Less is transitive, across integers and binary64 numbers too. -/
theorem comparisons_consistent (env : Environment) :
    (∀ a b : Value, ∀ func ∈ orderings,
      (∃ v, on env func (operands a b) = .ok v) ↔ Value.Comparable a b) ∧
    (∀ a b : Value, Value.Comparable a b → ∃ less equal greater : Bool,
      [less, equal, greater].count true = 1 ∧
      on env .less (operands a b) = .ok (.bool less) ∧
      on env .equal (operands a b) = .ok (.bool equal) ∧
      on env .greater (operands a b) = .ok (.bool greater) ∧
      on env .lessOrEqual (operands a b) = .ok (.bool (less || equal)) ∧
      on env .greaterOrEqual (operands a b) = .ok (.bool (greater || equal)) ∧
      on env .less (operands b a) = .ok (.bool greater) ∧
      on env .greater (operands b a) = .ok (.bool less)) ∧
    (∀ a b : Value, ∃ equal : Bool,
      on env .equal (operands a b) = .ok (.bool equal) ∧
      on env .notEqual (operands a b) = .ok (.bool !equal) ∧
      on env .equal (operands b a) = .ok (.bool equal)) ∧
    ∀ a b c : Value, on env .less (operands a b) = .ok (.bool true) →
      on env .less (operands b c) = .ok (.bool true) →
      on env .less (operands a c) = .ok (.bool true) := by
  refine ⟨fun a b func mem => exists_on_ordering_iff mem, fun a b comparable => ?_,
    fun a b => ⟨a.equal b, on_equal, on_notEqual, ?_⟩, fun a b c less less' => ?_⟩
  · obtain ⟨o, ordered⟩ := Value.exists_compare_iff.mpr comparable
    have equal : a.equal b = (o == .eq) := by
      rw [Bool.eq_iff_iff, beq_iff_eq, Value.eq_iff_of_compare ordered]
    refine ⟨o == .lt, o == .eq, o == .gt, by cases o <;> rfl, on_ordering (by decide) ordered,
      by rw [on_equal, equal], on_ordering (by decide) ordered, ?_, ?_, ?_, ?_⟩
    · rw [on_ordering (by decide) ordered]
      cases o <;> rfl
    · rw [on_ordering (by decide) ordered]
      cases o <;> rfl
    · rw [on_ordering (by decide) (Value.compare_swap ordered)]
      cases o <;> rfl
    · rw [on_ordering (by decide) (Value.compare_swap ordered)]
      cases o <;> rfl
  · rw [on_equal, Value.equal_comm]
  · rw [on_less_iff] at less less' ⊢
    exact Value.compare_lt_trans less less'

/-- The integer `2^53 + 1`, which binary64 does not have, lies between `2^53` and `2^53 + 2`. -/
theorem comparisons_consistent_across_kinds :
    let env := Facts.empty.toEnvironment
    let below : Value := .float 9007199254740992
    let between : Value := .int 9007199254740993
    let above : Value := .float 9007199254740994
    on env .less (operands below between) = .ok (.bool true) ∧
    on env .less (operands between above) = .ok (.bool true) ∧
    on env .less (operands below above) = .ok (.bool true) := by
  intro env below between above
  have less : on env .less (operands below between) = .ok (.bool true) :=
    on_less_iff.mpr (by decide +kernel)
  have less' : on env .less (operands between above) = .ok (.bool true) :=
    on_less_iff.mpr (by decide +kernel)
  exact ⟨less, less', (comparisons_consistent env).2.2.2 below between above less less'⟩

section Trees

variable {left right : Node}

theorem equal_trees (allowed : level ≤ r.maxDepth)
    (enabled : ∀ func ∈ [Func.equal, .notEqual], r.enabled func = true)
    (came_to : ComeTo r env (level + 1) [("left", left), ("right", right)] (operands a b)) :
    ComesTo r env level (.make .equal none [] [("left", left), ("right", right)])
        (.ok (.bool (a.equal b))) ∧
      ComesTo r env level (.make .notEqual none [] [("left", left), ("right", right)])
        (.ok (.bool !a.equal b)) := by
  constructor
  · exact evaluateAt_of_values allowed (enabled _ (by simp)) came_to on_equal
  · exact evaluateAt_of_values allowed (enabled _ (by simp)) came_to on_notEqual

/-- **Trees are compared by one order.** Over two trees that come to comparable values all six
comparisons come to what the order of these values says. -/
theorem compare_trees (allowed : level ≤ r.maxDepth)
    (enabled : ∀ func ∈ .equal :: .notEqual :: orderings, r.enabled func = true)
    (came_to : ComeTo r env (level + 1) [("left", left), ("right", right)] (operands a b))
    (comparable : Value.Comparable a b) : ∃ o, a.compare b = .ok o ∧
      (∀ func ∈ orderings,
        ComesTo r env level (.make func none [] [("left", left), ("right", right)])
          (.ok (.bool (admits func o)))) ∧
      ComesTo r env level (.make .equal none [] [("left", left), ("right", right)])
        (.ok (.bool (o == .eq))) ∧
      ComesTo r env level (.make .notEqual none [] [("left", left), ("right", right)])
        (.ok (.bool (o != .eq))) := by
  obtain ⟨o, ordered⟩ := Value.exists_compare_iff.mpr comparable
  have equal : a.equal b = (o == .eq) := by
    rw [Bool.eq_iff_iff, beq_iff_eq, Value.eq_iff_of_compare ordered]
  obtain ⟨are_equal, are_not_equal⟩ := equal_trees allowed
    (List.forall_mem_cons.mpr ⟨enabled _ (by simp), List.forall_mem_singleton.mpr
      (enabled _ (by simp))⟩) came_to
  rw [equal] at are_equal are_not_equal
  refine ⟨o, ordered, fun func mem => ?_, are_equal, are_not_equal⟩
  exact evaluateAt_of_values allowed
    (enabled func (List.mem_cons_of_mem _ (List.mem_cons_of_mem _ mem))) came_to
    (on_ordering mem ordered)

end Trees

end Comparisons

/-! ### Membership -/

section Membership

variable {a b v w : Value} {items items' : List Value}

/-- Two values are found equal. -/
def Equals (env : Environment) (a b : Value) : Prop :=
  on env .equal (operands a b) = .ok (.bool true)

/-- The arguments of a test for membership. -/
def membership (value : Value) (items : List Value) : List (String × Value) :=
  [("value", value), ("list", .list items)]

theorem equals_iff : Equals env a b ↔ a.equal b = true := by
  rw [Equals, on_equal]
  simp

theorem on_isInList :
    on env .isInList (membership v items) = .ok (.bool (items.any v.equal)) := rfl

theorem on_isNotInList :
    on env .isNotInList (membership v items) = .ok (.bool (!items.any v.equal)) := rfl

/-- Equal values are in the same lists. -/
theorem any_equal_congr (equal : v.equal w = true) (items : List Value) :
    items.any v.equal = items.any w.equal := by
  rw [funext (Value.equal_congr equal)]

/-- What is in a list does not depend on how often its items stand in it and in what order. -/
theorem any_congr_of_mem (same : ∀ x, x ∈ items ↔ x ∈ items') (p : Value → Bool) :
    items.any p = items'.any p := by
  rw [Bool.eq_iff_iff, List.any_eq_true, List.any_eq_true]
  simp only [same]

/-- **Membership goes by equality.** Equality is symmetric and transitive, and a value is equal to
itself exactly if no number in it, in lists at any depth, is "not a number". Lists are equal exactly
if they are item by item. A value is in a list exactly if it is equal to an item, so that equal
values are in the same lists, and neither the order of the items matters nor how often they stand
there. -/
theorem membership_by_equality (env : Environment) :
    (∀ a b : Value, Equals env a b → Equals env b a) ∧
    (∀ a b c : Value, Equals env a b → Equals env b c → Equals env a c) ∧
    (∀ v : Value, Equals env v v ↔ ∀ x, (Value.float x).Within v → x.isNaN = false) ∧
    (∀ as bs : List Value, Equals env (.list as) (.list bs) ↔
      as.length = bs.length ∧
        ∀ i, (h : i < as.length) → (h' : i < bs.length) → Equals env as[i] bs[i]) ∧
    (∀ (v : Value) (items : List Value), ∃ found : Bool,
      on env .isInList (membership v items) = .ok (.bool found) ∧
      on env .isNotInList (membership v items) = .ok (.bool !found) ∧
      (found = true ↔ ∃ x ∈ items, Equals env v x)) ∧
    (∀ (v w : Value) (items : List Value), Equals env v w →
      on env .isInList (membership v items) = on env .isInList (membership w items) ∧
      on env .isNotInList (membership v items) = on env .isNotInList (membership w items)) ∧
    ∀ (v : Value) (items items' : List Value), (∀ x, x ∈ items ↔ x ∈ items') →
      on env .isInList (membership v items) = on env .isInList (membership v items') ∧
      on env .isNotInList (membership v items) = on env .isNotInList (membership v items') := by
  simp only [equals_iff, on_isInList, on_isNotInList]
  refine ⟨fun a b => Value.equal_symm, fun a b c => Value.equal_trans,
    fun v => Value.equal_self_iff, fun as bs => ?_, fun v items => ?_, fun v w items equal => ?_,
    fun v items items' same => ?_⟩
  · rw [Value.equal, Value.equalItems_iff_forall₂, List.forall₂_iff_get]
    rfl
  · exact ⟨_, rfl, rfl, List.any_eq_true⟩
  · rw [any_equal_congr equal items]
    exact ⟨rfl, rfl⟩
  · rw [any_congr_of_mem same]
    exact ⟨rfl, rfl⟩

/-- A list with the integer `2` in a list has the binary64 number `2` in a list too. -/
theorem membership_by_equality_across_kinds :
    let env := Facts.empty.toEnvironment
    let whole : Value := .list [.int 2]
    let pointed : Value := .list [.float 2]
    Equals env whole pointed ∧
    on env .isInList (membership pointed [.null, whole]) = .ok (.bool true) := by
  intro env whole pointed
  have equal : Equals env whole pointed := equals_iff.mpr (by decide +kernel)
  have there : on env .isInList (membership whole [.null, whole]) = .ok (.bool true) := rfl
  obtain ⟨same, -⟩ :=
    (membership_by_equality env).2.2.2.2.2.1 whole pointed [.null, whole] equal
  exact ⟨equal, same.symm.trans there⟩

/-- **Membership of trees.** Of two trees, one of which comes to a list, the tests for membership
tell whether what the other comes to is equal to an item. -/
theorem membership_of_trees {value list : Node} (allowed : level ≤ r.maxDepth)
    (enabled : ∀ func ∈ [Func.isInList, .isNotInList], r.enabled func = true)
    (came_to : ComeTo r env (level + 1) [("list", list), ("value", value)]
      [("list", .list items), ("value", v)]) : ∃ found : Bool,
      ComesTo r env level (.make .isInList none [] [("list", list), ("value", value)])
        (.ok (.bool found)) ∧
      ComesTo r env level (.make .isNotInList none [] [("list", list), ("value", value)])
        (.ok (.bool !found)) ∧
      (found = true ↔ ∃ x ∈ items, Equals env v x) := by
  refine ⟨items.any v.equal, ?_, ?_, ?_⟩
  · exact evaluateAt_of_values allowed (enabled _ (by simp)) came_to rfl
  · exact evaluateAt_of_values allowed (enabled _ (by simp)) came_to rfl
  · simp only [equals_iff, List.any_eq_true]

end Membership

end Evaluator

end RiskRules
