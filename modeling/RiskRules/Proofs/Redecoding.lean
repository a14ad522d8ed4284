import RiskRules.Proofs.RoundTrip

/-!
What a registry reads back of the trees that it builds. A construction call looks at the function of
the new root and at the depth of the whole tree, but not at the functions of its parts, which may
have come from other registries; reading looks at them all. So a registry reads back what it built
exactly if it enables every function in it (`Registry.redecodes_iff`), and there are trees that it
builds and refuses to read (`Registry.hidden_function_refused`).
-/

namespace RiskRules

namespace Registry

variable {r : Registry} {on : Registry → Prop} {node : Node}

/-- A construction call over built parts gives a valid tree, and has looked at its root and at its
depth. -/
theorem Gives.checked (given : r.Gives (Node.Built on) node) :
    node.Valid ∧ r.enabled node.func = true ∧ node.depth ≤ r.maxDepth := by
  obtain ⟨func, literal, children, named, -, -, -, made⟩ := given.exists_build
  obtain ⟨enabled, -, depth_le, rfl⟩ := build_eq_ok_iff.mp made
  exact ⟨given.valid fun _ built => built.valid, enabled, depth_le⟩

/-- Over parts that were built on registries of fewer functions, a construction call gives a tree of
enabled functions. -/
theorem Gives.enabled (given : r.Gives (Node.Built on) node)
    (covered : ∀ s, on s → ∀ f, s.enabled f = true → r.enabled f = true) :
    ∀ n ∈ node.walk, r.enabled n.func = true := by
  obtain ⟨func, literal, children, named, children_built, named_built, -, made⟩ :=
    given.exists_build
  obtain ⟨enabled, -, -, rfl⟩ := build_eq_ok_iff.mp made
  intro n mem
  rcases Node.mem_walk.mp mem with rfl | ⟨child, child_mem, mem⟩ | ⟨entry, entry_mem, mem⟩
  · exact enabled
  · exact (children_built child child_mem).enabled covered n mem
  · rcases named_built entry entry_mem with built | ⟨value, own⟩
    · exact built.enabled covered n mem
    · have built : entry.2.Built (· = r) := .constant rfl own
      exact built.admitted.enabled n mem

/-- **What a registry reads back of its own.** The root of a tree that a construction call gave is
enabled and the tree is within the depth, whatever registries its parts were built on; it is read
back exactly if all functions in it are enabled, and otherwise the tag of the first that is not is
unknown. Parts that were built on registries of no other functions do no harm. -/
theorem redecodes_iff (given : r.Gives (Node.Built on) node) :
    r.enabled node.func = true ∧ node.depth ≤ r.maxDepth ∧
    (r.decode (.ofNode node) = .ok node ↔ ∀ n ∈ node.walk, r.enabled n.func = true) ∧
    (∀ n, node.walk.find? (fun n => !r.enabled n.func) = some n →
      r.decode (.ofNode node) = .error (.unknownTag n.func.tag)) ∧
    ((∀ s, on s → ∀ f, s.enabled f = true → r.enabled f = true) →
      r.decode (.ofNode node) = .ok node) := by
  obtain ⟨valid, root_enabled, depth_le⟩ := given.checked
  have read := decode_ofNode_eq valid depth_le
  have read_back : r.decode (.ofNode node) = .ok node ↔ ∀ n ∈ node.walk, r.enabled n.func = true := by
    rw [read, ifEnabled_eq_ok_iff, and_iff_left rfl]
  refine ⟨root_enabled, depth_le, read_back, fun n first => ?_,
    fun covered => read_back.mpr (given.enabled covered)⟩
  rw [read, ifEnabled, first]

/-- All functions but those that scores are made with. -/
def withoutScores : Registry :=
  ofFunctions (Func.all.filter fun f => f != .scoreComputation && f != .switch)

/-- A registry without scores reads back its test of a field that another registry looks up. -/
theorem redecodes_iff_of_foreign_field : ∃ field node,
    standard.payload "amount" = .ok field ∧
    withoutScores.call .isNull [("value", field)] = .ok node ∧
    withoutScores.decode (.ofNode node) = .ok node := by
  refine ⟨_, _, rfl, rfl, ?_⟩
  have field := @Node.Built.payload (· = standard) standard "amount" _ rfl rfl
  have given := @Gives.call withoutScores (Node.Built (· = standard)) .isNull [("value", _)] _
    (List.forall_mem_singleton.mpr field) rfl
  obtain ⟨-, -, read_back, -⟩ := redecodes_iff given
  exact read_back.mpr (by decide)

/-- A registry without scores builds the test of a score that another registry made, and refuses to
read it. -/
theorem hidden_function_refused : ∃ condition modifier score node,
    standard.constant (.bool true) = .ok condition ∧ standard.constant (.int 20) = .ok modifier ∧
    standard.call .scoreComputation [("condition", condition), ("modifier", modifier)] = .ok score ∧
    withoutScores.call .isNull [("value", score)] = .ok node ∧
    withoutScores.decode (.ofNode node) = .error (.unknownTag "ScoreComputation") ∧
    ¬∀ (r : Registry) (node : Node), r.Gives (Node.Built fun _ => True) node →
      r.decode (.ofNode node) = .ok node := by
  refine ⟨_, _, _, _, rfl, rfl, rfl, rfl, rfl, fun all => ?_⟩
  have condition := @Node.Built.constant (fun _ => True) standard (.bool true) _ trivial rfl
  have modifier := @Node.Built.constant (fun _ => True) standard (.int 20) _ trivial rfl
  have score := @Node.Built.call (fun _ => True) standard .scoreComputation
    [("condition", _), ("modifier", _)] _ trivial
    (List.forall_mem_cons.mpr ⟨condition, List.forall_mem_singleton.mpr modifier⟩) rfl
  have given := @Gives.call withoutScores (Node.Built fun _ => True) .isNull [("value", _)] _
    (List.forall_mem_singleton.mpr score) rfl
  have both : Except.ok _ = Except.error (MalformedTree.unknownTag "ScoreComputation") :=
    (all _ _ given).symm.trans rfl
  cases both

end Registry

end RiskRules
