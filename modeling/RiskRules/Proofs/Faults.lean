import RiskRules.Environment.Outage
import RiskRules.Proofs.Evaluation

/-!
Evaluations that a fault breaks off. The lookups of a tree are made one after the other, each once
the arguments that name it are known, and an ordinary failure keeps none of the later ones from
being made (`Evaluator.demandsAt`). So an evaluation is broken off by the first fault among them,
whatever else fails in the tree, and if there is none it leaves the record that it would leave if no
lookup could end in a fault (`Evaluator.evaluateAt_eq`).
-/

namespace RiskRules

/-! ### Environments whose faults are failures -/

/-- The fault that a computation has ended in. -/
def Halt.fault? {ε α : Type} : Except (Halt ε) α → Option Fault
  | .error (.fault f) => some f
  | _ => none

/-- A lookup that fails where it would end in a fault. -/
def Environment.steadyAnswer {α : Type} :
    Except (Halt EnvironmentError) α → Except (Halt EnvironmentError) α
  | .error (.fault f) => .error (.error (.unavailable f.message))
  | answer => answer

/-- The environment in which every fault is an ordinary failure. -/
def Environment.steadied (env : Environment) : Environment where
  payloadField name := steadyAnswer (env.payloadField name)
  listItems name := steadyAnswer (env.listItems name)
  relatedField table field path := steadyAnswer (env.relatedField table field path)
  variableValue name := steadyAnswer (env.variableValue name)

theorem Environment.steady_steadied (env : Environment) : env.steadied.Steady := by
  have answered : ∀ {α : Type} (answer : Except (Halt EnvironmentError) α) (f : Fault),
      steadyAnswer answer ≠ .error (.fault f) := by
    intro α answer f
    match answer with
    | .ok a => exact nofun
    | .error (.error e) => exact nofun
    | .error (.fault g) => exact nofun
  exact ⟨fun _ => answered _, fun _ => answered _, fun _ _ _ => answered _, fun _ => answered _⟩

namespace Evaluator

variable {r : Registry} {env : Environment} {level : Nat}

/-! ### What a tree asks for -/

/-- What the function of a node asks for, if it is applied and its arguments allow it to ask. -/
def ownDemand (r : Registry) (literal : Option Value) (a : Arguments) : List Demand :=
  if r.enabled a.func then
    match demand literal a with
    | .ok d => [d]
    | .error _ => []
  else []

mutual

/-- What the functions of a tree ask for, in the order of evaluation: the children's before the
node's own. -/
def demandsAt (r : Registry) (env : Environment) (level : Nat) : Node → List Demand
  | ⟨func, literal, children, named, _⟩ =>
    if r.maxDepth < level then []
    else
      demandsAll r env (level + 1) children ++ demandsNamed r env (level + 1) named ++
        match evaluateAll r env (level + 1) children, evaluateNamed r env (level + 1) named with
        | .ok children, .ok named => ownDemand r literal ⟨func, children, named⟩
        | _, _ => []

/-- What the functions of trees of one level ask for. -/
def demandsAll (r : Registry) (env : Environment) (level : Nat) : List Node → List Demand
  | [] => []
  | node :: rest => demandsAt r env level node ++ demandsAll r env level rest

/-- What the functions of named trees of one level ask for. -/
def demandsNamed (r : Registry) (env : Environment) (level : Nat) :
    List (String × Node) → List Demand
  | [] => []
  | (_, node) :: rest => demandsAt r env level node ++ demandsNamed r env level rest

end

/-- The fault that meeting a demand ends in, if it does. -/
def Demand.fault? (env : Environment) (d : Demand) : Option Fault :=
  Halt.fault? (answer env d)

/-- The first fault among the lookups that a tree makes, none of them kept from being made by an
earlier one. -/
def faultAt? (r : Registry) (env : Environment) (level : Nat) (node : Node) : Option Fault :=
  (demandsAt r env.steadied level node).findSome? (Demand.fault? env)

/-- The fault that breaks the evaluation of a tree off, if one does. -/
def fault? (r : Registry) (env : Environment) (node : Node) : Option Fault :=
  faultAt? r env 1 node

/-! ### One node -/

theorem lookedUp_eq {α : Type} (wrap : α → Value) (found : Except (Halt EnvironmentError) α) :
    lookedUp wrap found = (Halt.fault? (lookedUp wrap found)).elim
      (lookedUp wrap (Environment.steadyAnswer found)) fun f => .error (.fault f) := by
  match found with
  | .ok a => rfl
  | .error (.error e) => rfl
  | .error (.fault f) => rfl

theorem answer_eq (d : Demand) : answer env d =
    (d.fault? env).elim (answer env.steadied d) fun f => .error (.fault f) := by
  cases d with
  | value v => rfl
  | payloadField name => exact lookedUp_eq id (env.payloadField name)
  | listItems name => exact lookedUp_eq .list (env.listItems name)
  | relatedField table field path => exact lookedUp_eq id (env.relatedField table field path)
  | variableValue name => exact lookedUp_eq id (env.variableValue name)

/-- A node over its children's records is broken off by the fault of its own lookup alone. -/
theorem record_apply_eq (literal : Option Value) (a : Arguments) :
    record a (apply r env literal a) =
      ((ownDemand r literal a).findSome? (Demand.fault? env)).elim
        (record a (apply r env.steadied literal a)) .error := by
  rw [apply, apply, ownDemand]
  split
  · rw [dispatch, dispatch]
    cases demand literal a with
    | error e => rfl
    | ok d =>
      simp only [List.findSome?_cons, List.findSome?_nil]
      rw [answer_eq d]
      cases d.fault? env <;> rfl
  · rfl

/-! ### Trees -/

mutual

/-- **What breaks an evaluation off.** It is the first fault among the lookups of the tree; without
one, the record is that of the evaluation in which faults are failures. -/
theorem evaluateAt_eq (level : Nat) : ∀ node : Node, evaluateAt r env level node =
    (faultAt? r env level node).elim (evaluateAt r env.steadied level node) .error
  | ⟨func, literal, children, named, depth⟩ => by
    rw [faultAt?, demandsAt, evaluateAt, evaluateAt]
    split
    · rfl
    · -- Without faults the children have records, from which the node's own lookup follows.
      obtain ⟨cs, cs_ok⟩ := exists_evaluateAll (r := r) env.steady_steadied (level + 1) children
      obtain ⟨ns, ns_ok⟩ := exists_evaluateNamed (r := r) env.steady_steadied (level + 1) named
      rw [evaluateAll_eq (level + 1) children, evaluateNamed_eq (level + 1) named, cs_ok, ns_ok]
      simp only [List.findSome?_append, ← apply_ite]
      cases (demandsAll r env.steadied (level + 1) children).findSome? (Demand.fault? env) with
      | some f => rfl
      | none =>
        cases (demandsNamed r env.steadied (level + 1) named).findSome? (Demand.fault? env) with
        | some f => rfl
        | none => exact record_apply_eq literal ⟨func, cs, ns⟩

theorem evaluateAll_eq (level : Nat) : ∀ nodes : List Node, evaluateAll r env level nodes =
    ((demandsAll r env.steadied level nodes).findSome? (Demand.fault? env)).elim
      (evaluateAll r env.steadied level nodes) .error
  | [] => rfl
  | node :: rest => by
    obtain ⟨e, node_ok⟩ := exists_evaluateAt (r := r) env.steady_steadied level node
    rw [evaluateAll, evaluateAll, demandsAll, evaluateAt_eq level node, evaluateAll_eq level rest,
      node_ok, faultAt?, List.findSome?_append]
    cases (demandsAt r env.steadied level node).findSome? (Demand.fault? env) with
    | some f => rfl
    | none => cases (demandsAll r env.steadied level rest).findSome? (Demand.fault? env) <;> rfl

theorem evaluateNamed_eq (level : Nat) : ∀ entries : List (String × Node),
    evaluateNamed r env level entries =
      ((demandsNamed r env.steadied level entries).findSome? (Demand.fault? env)).elim
        (evaluateNamed r env.steadied level entries) .error
  | [] => rfl
  | (name, node) :: rest => by
    obtain ⟨e, node_ok⟩ := exists_evaluateAt (r := r) env.steady_steadied level node
    rw [evaluateNamed, evaluateNamed, demandsNamed, evaluateAt_eq level node,
      evaluateNamed_eq level rest, node_ok, faultAt?, List.findSome?_append]
    cases (demandsAt r env.steadied level node).findSome? (Demand.fault? env) with
    | some f => rfl
    | none => cases (demandsNamed r env.steadied level rest).findSome? (Demand.fault? env) <;> rfl

end

/-- An evaluation is broken off exactly by the first fault among the lookups of the tree. -/
theorem evaluate_eq_error_iff {node : Node} {f : Fault} :
    evaluate r env node = .error f ↔ fault? r env node = some f := by
  obtain ⟨e, steady_ok⟩ := exists_evaluate (r := r) env.steady_steadied node
  have steady_ok : evaluateAt r env.steadied 1 node = .ok e := steady_ok
  rw [evaluate, evaluateAt_eq 1 node, steady_ok, fault?]
  cases faultAt? r env 1 node <;> simp

/-- An evaluation without a fault leaves a record. -/
theorem exists_evaluate_eq_ok_iff {node : Node} :
    (∃ e, evaluate r env node = .ok e) ↔ fault? r env node = none := by
  simp only [Option.eq_none_iff_forall_not_mem, Option.mem_def, ← evaluate_eq_error_iff]
  cases evaluate r env node <;> simp

/-! ### A sample environment -/

namespace Sample

/-- A field of the payload. -/
def field (name : String) : Node :=
  .make .payload none [] [("fieldName", .make .constant (some (.string name)) [] [])]

/-- An environment in which a field is true and another cannot be looked up without a fault. -/
def torn : Environment :=
  (Facts.empty.withPayload "open" (.bool true)).toEnvironment.withOutages fun
    | .payloadField, "torn" => some (.breaks ⟨some "connection reset"⟩)
    | _, _ => none

end Sample

/-- A missing operand does not hide the fault in a later one. -/
example : fault? .standard Sample.torn
    (.make .and none [Sample.field "absent", Sample.field "torn"] []) =
      some ⟨some "connection reset"⟩ :=
  evaluate_eq_error_iff.mp rfl

end Evaluator

end RiskRules
