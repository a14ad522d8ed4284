import RiskRules.Proofs.EvaluationErrors
import RiskRules.Proofs.Failures

/-!
The record of an evaluation against the tree. A record stands at each position of the tree down to
one level below the last that the registry allows, and nowhere else (`Evaluator.at?_rel`,
`Evaluator.at?_eq_none`). On an allowed level it has the function and the children of its node; one
level below the last it is cut off (`Evaluator.mirrors_of_evaluateAt`), which happens exactly in
trees that are deeper than the registry allows (`Evaluator.record_mirrors_tree`).
-/

namespace RiskRules

/-- How a record stands to the node at its position, where levels up to a limit are allowed. On an
allowed level it has as many unnamed children as the node and named ones under the same names, and
it is not cut off; below, it is cut off and has no children. -/
structure Evaluation.Mirrors (limit level : Nat) (node : Node) (record : Evaluation) : Prop where
  func_eq : record.func = node.func
  children_length : level ≤ limit → record.children.length = node.children.length
  names : level ≤ limit → record.named.map Prod.fst = node.named.map Prod.fst
  not_cut : level ≤ limit → ∀ deepest, record.error ≠ some (.tooDeep deepest)
  cut : limit < level → record = ⟨node.func, none, some (.tooDeep limit), [], []⟩

namespace Evaluator

variable {r : Registry} {env : Environment} {level : Nat} {node : Node} {e : Evaluation}
  {path : List Step}

/-! ### One node -/

/-- A function does not call a tree too deep. -/
theorem apply_ne_tooDeep {literal : Option Value} {a : Arguments} {deepest : Nat} :
    apply r env literal a ≠ .error (.error (.tooDeep deepest)) := by
  intro failed
  rcases error_of_apply failed with raised | ⟨_, other⟩ | ⟨-, other⟩
  · cases raised
  · cases other
  · cases other

theorem mirrors_of_evaluateAt (evaluated : evaluateAt r env level node = .ok e) :
    e.Mirrors r.maxDepth level node := by
  rcases evaluateAt_eq_ok_iff.mp evaluated with
    ⟨deep, rfl⟩ | ⟨allowed, cs, cs_ok, ns, ns_ok, outcome, applied, rfl⟩
  · have below : ¬level ≤ r.maxDepth := Nat.not_le.mpr deep
    exact ⟨rfl, fun h => absurd h below, fun h => absurd h below, fun h => absurd h below,
      fun _ => rfl⟩
  · refine ⟨?_, fun _ => ?_, fun _ => ?_, fun _ deepest cut => ?_,
      fun deep => absurd deep (Nat.not_lt.mpr allowed)⟩
    · cases outcome <;> rfl
    · rw [Evaluation.ofOutcome_children, ← cs_ok.length_eq]
    · rw [Evaluation.ofOutcome_named]
      exact (names_eq_of_evaluateNamed (evaluateNamed_eq_ok_iff.mpr ns_ok)).symm
    · cases outcome with
      | ok v => cases cut
      | error error =>
        obtain rfl : error = .tooDeep deepest := Option.some.inj cut
        exact apply_ne_tooDeep applied

/-! ### All positions -/

/-- Down to one level below the last, a record stands exactly where a node does, and it is that
node's. -/
theorem at?_rel (path : List Step) (evaluated : evaluateAt r env level node = .ok e)
    (reached : level + path.length ≤ r.maxDepth + 1) :
    Option.Rel (fun n record => evaluateAt r env (level + path.length) n = .ok record)
      (node.at? path) (e.at? path) := by
  induction path generalizing node level e with
  | nil => exact .some evaluated
  | cons step path ih =>
    rw [List.length_cons, ← Nat.add_assoc, Nat.add_right_comm] at reached ⊢
    rcases evaluateAt_eq_ok_iff.mp evaluated with
      ⟨deep, rfl⟩ | ⟨allowed, cs, cs_ok, ns, ns_ok, outcome, -, rfl⟩
    · omega
    · rw [Node.at?_cons, Evaluation.at?_cons, Evaluation.ofOutcome_children,
        Evaluation.ofOutcome_named]
      exact optionRel_bind (Step.child?_rel cs_ok ns_ok step) fun _ _ child_ok => ih child_ok reached

/-- No record stands further below. -/
theorem at?_eq_none (path : List Step) (evaluated : evaluateAt r env level node = .ok e)
    (start : level ≤ r.maxDepth + 1) (beyond : r.maxDepth + 1 < level + path.length) :
    e.at? path = none := by
  induction path generalizing node level e with
  | nil => exact absurd start (Nat.not_le.mpr beyond)
  | cons step path ih =>
    rw [List.length_cons, ← Nat.add_assoc, Nat.add_right_comm] at beyond
    rw [Evaluation.at?_cons]
    rcases evaluateAt_eq_ok_iff.mp evaluated with
      ⟨-, rfl⟩ | ⟨allowed, cs, cs_ok, ns, ns_ok, outcome, -, rfl⟩
    · cases step <;> rfl
    · rw [Evaluation.ofOutcome_children, Evaluation.ofOutcome_named]
      refine Option.bind_eq_none_iff.mpr fun record found => ?_
      obtain ⟨child, -, child_ok⟩ := exists_of_optionRel (Step.child?_rel cs_ok ns_ok step) found
      exact ih child_ok (Nat.succ_le_succ allowed) beyond

/-- Records stand at the positions of nodes, as far as one level below the last. -/
theorem at?_isSome_iff (evaluated : evaluate r env node = .ok e) :
    (e.at? path).isSome = true ↔ (node.at? path).isSome = true ∧ path.length ≤ r.maxDepth := by
  by_cases within : path.length ≤ r.maxDepth
  · have related := at?_rel path evaluated (by omega)
    rw [← isSome_eq_of_optionRel related, and_iff_left within]
  · have nothing := at?_eq_none path evaluated (by omega) (by omega)
    simp [nothing, within]

/-- The record at a position mirrors the node there. -/
theorem mirrors_of_at? {n : Node} {record : Evaluation} (evaluated : evaluate r env node = .ok e)
    (node_there : node.at? path = some n) (record_there : e.at? path = some record) :
    record.Mirrors r.maxDepth (path.length + 1) n := by
  have within : path.length ≤ r.maxDepth :=
    ((at?_isSome_iff evaluated).mp (by simp [record_there])).2
  have related := at?_rel path evaluated (by omega)
  rw [node_there, record_there] at related
  cases related with
  | some record_ok =>
    rw [Nat.add_comm] at record_ok
    exact mirrors_of_evaluateAt record_ok

/-! ### Trees -/

/-- The records of a valid tree have their named records in order. -/
theorem ascending_of_evaluateAt (valid : node.Valid)
    (evaluated : evaluateAt r env level node = .ok e) :
    ∀ record ∈ e.records, Keyed.Ascending record.named :=
  forall_records_of_evaluateAt valid evaluated (fun _ => Keyed.ascending_nil)
    fun _ _ _ _ ordered _ => by rwa [Evaluation.ofOutcome_named]

/-- A valid tree is cut off somewhere exactly if it is deeper than the registry allows. -/
theorem exists_cut_iff (valid : node.Valid) (evaluated : evaluate r env node = .ok e) :
    (∃ record ∈ e.records, ∃ deepest, record.error = some (.tooDeep deepest)) ↔
      r.maxDepth < node.depth := by
  have positions (record : Evaluation) : record ∈ e.records ↔ ∃ path, e.at? path = some record :=
    Evaluation.mem_records_iff_at? (ascending_of_evaluateAt valid evaluated)
  constructor
  · rintro ⟨record, mem, deepest, cut⟩
    obtain ⟨path, there⟩ := (positions record).mp mem
    obtain ⟨node_there, within⟩ := (at?_isSome_iff evaluated).mp (Option.isSome_of_mem there)
    obtain ⟨n, n_there⟩ := Option.isSome_iff_exists.mp node_there
    have mirrors := mirrors_of_at? evaluated n_there there
    have beyond : ¬path.length + 1 ≤ r.maxDepth := fun allowed => mirrors.not_cut allowed deepest cut
    exact (Node.lt_depth_iff valid).mpr ⟨path, by omega, node_there⟩
  · intro deep
    obtain ⟨path, length, node_there⟩ := (Node.lt_depth_iff valid).mp deep
    have there := (at?_isSome_iff evaluated).mpr ⟨node_there, Nat.le_of_eq length⟩
    obtain ⟨n, n_there⟩ := Option.isSome_iff_exists.mp node_there
    obtain ⟨record, there⟩ := Option.isSome_iff_exists.mp there
    have cut := (mirrors_of_at? evaluated n_there there).cut (by omega)
    exact ⟨record, (positions record).mpr ⟨path, there⟩, r.maxDepth, by rw [cut]⟩

/-- **The record mirrors the tree.** A tree that construction calls gave is evaluated by any
registry in any environment without faults. In every evaluation of it each record has an error
exactly if it has no value and stands at a position, and records stand exactly at the positions of
nodes that are no more than one level below the last allowed. A record on an allowed level has the
function of its node, as many unnamed children and the same names, and is not cut off; one on the
level below is cut off and has no children. So records are cut off exactly in trees that are deeper
than the registry allows. -/
theorem record_mirrors_tree {on : Registry → Prop} {node : Node} (built : node.Built on)
    (r : Registry) (env : Environment) :
    (env.Steady → ∃ e, evaluate r env node = .ok e) ∧
      ∀ e, evaluate r env node = .ok e →
        (∀ record ∈ e.records, (record.error = none ↔ record.value.isSome = true) ∧
          ∃ path, e.at? path = some record) ∧
        (∀ path, (e.at? path).isSome = true ↔
          (node.at? path).isSome = true ∧ path.length ≤ r.maxDepth) ∧
        (∀ path n record, node.at? path = some n → e.at? path = some record →
          record.Mirrors r.maxDepth (path.length + 1) n) ∧
        ((∃ record ∈ e.records, ∃ deepest, record.error = some (.tooDeep deepest)) ↔
          r.maxDepth < node.depth) := by
  refine ⟨fun steady => exists_evaluate steady node, fun e evaluated => ⟨fun record mem => ?_,
    fun path => at?_isSome_iff evaluated, fun path n record => mirrors_of_at? evaluated,
    exists_cut_iff built.valid evaluated⟩⟩
  have ordered := ascending_of_evaluateAt built.valid evaluated
  exact ⟨(faithful_of_evaluateAt built.valid evaluated).error_iff record mem,
    (Evaluation.mem_records_iff_at? ordered).mp mem⟩

/-- The comparison of a field with a limit is three levels deep. Where two are allowed, the limit
is evaluated and the name of the field is cut off. -/
theorem record_mirrors_tree_of_comparison : ∃ field limit node e,
    Registry.standard.payload "amount" = .ok field ∧
    Registry.standard.constant (.int 1000) = .ok limit ∧
    Registry.standard.binary .greaterOrEqual field limit = .ok node ∧
    evaluate (Registry.standard.withMaxDepth 2) Facts.empty.toEnvironment node = .ok e ∧
    e.at? [.named "left", .named "fieldName"] =
      some ⟨.constant, none, some (.tooDeep 2), [], []⟩ ∧
    (∃ record, e.at? [.named "right"] = some record ∧ record.value = some (.int 1000) ∧
      record.Mirrors 2 2 limit) ∧
    ∃ record ∈ e.records, ∃ deepest, record.error = some (.tooDeep deepest) := by
  refine ⟨_, _, _, _, rfl, rfl, rfl, rfl, ?_⟩
  have field := @Node.Built.payload (· = .standard) .standard "amount" _ rfl rfl
  have limit := @Node.Built.constant (· = .standard) .standard (.int 1000) _ rfl rfl
  have built := @Node.Built.binary (· = .standard) .standard .greaterOrEqual _ _ _ rfl field limit rfl
  obtain ⟨-, -, mirrors, cut⟩ := (record_mirrors_tree built (Registry.standard.withMaxDepth 2)
    Facts.empty.toEnvironment).2 _ rfl
  refine ⟨?_, ⟨_, rfl, rfl, mirrors [.named "right"] _ _ rfl rfl⟩, cut.mpr (by decide)⟩
  have there := mirrors [.named "left", .named "fieldName"] _ _ rfl rfl
  exact congrArg some (there.cut (by decide))

end Evaluator

end RiskRules
