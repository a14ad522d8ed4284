import RiskRules.Proofs.Decoding
import RiskRules.Proofs.Failures

/-!
What the registry of an evaluation decides. A tree succeeds only where the registry admits it: an
over-deep node or a function that is not enabled fails, and no failure is lost on the way to the
root (`Evaluator.admitted_of_evaluateAt`). Beyond that the registry has no part in it: all that
admit a tree evaluate it alike (`Evaluator.evaluateAt_of_admitted`), whatever registries built it.
-/

namespace RiskRules

namespace Node

variable {r : Registry} {node : Node} {level : Nat}

/-- A registry admits a tree that stands at a level: its functions are enabled, and its levels are
within the depth. -/
structure AdmittedAt (r : Registry) (level : Nat) (node : Node) : Prop where
  enabled : ∀ n ∈ node.walk, r.enabled n.func = true
  fits : level + node.depth ≤ r.maxDepth + 1

theorem admitted_iff : node.Admitted r ↔ AdmittedAt r 1 node :=
  ⟨fun admitted => ⟨admitted.enabled, by have := admitted.depth_le; omega⟩,
    fun admitted => ⟨admitted.enabled, by have := admitted.fits; omega⟩⟩

/-- A tree is admitted at a level exactly if its root is and its children are one level below. -/
theorem admittedAt_make_iff {func : Func} {literal : Option Value} {children : List Node}
    {named : List (String × Node)} :
    AdmittedAt r level (make func literal children named) ↔
      r.enabled func = true ∧ level ≤ r.maxDepth ∧
        (∀ child ∈ children, AdmittedAt r (level + 1) child) ∧
          ∀ entry ∈ named, AdmittedAt r (level + 1) entry.2 := by
  constructor
  · rintro ⟨enabled, fits⟩
    obtain ⟨allowed, children_fit, named_fit⟩ := fits_make_iff.mp fits
    refine ⟨enabled _ (mem_walk.mpr (.inl rfl)), allowed,
      fun child mem => ⟨fun n below => ?_, children_fit child mem⟩,
      fun entry mem => ⟨fun n below => ?_, named_fit entry mem⟩⟩
    · exact enabled n (mem_walk.mpr (.inr (.inl ⟨child, mem, below⟩)))
    · exact enabled n (mem_walk.mpr (.inr (.inr ⟨entry, mem, below⟩)))
  · rintro ⟨here, allowed, children_admitted, named_admitted⟩
    refine ⟨fun n mem => ?_, fits_make_iff.mpr ⟨allowed,
      fun child mem => (children_admitted child mem).fits,
      fun entry mem => (named_admitted entry mem).fits⟩⟩
    rcases mem_walk.mp mem with rfl | ⟨child, mem, below⟩ | ⟨entry, mem, below⟩
    · exact here
    · exact (children_admitted child mem).enabled n below
    · exact (named_admitted entry mem).enabled n below

end Node

namespace Evaluator

variable {r other : Registry} {env : Environment} {level : Nat} {node : Node} {e : Evaluation}

/-- A function that comes to a value is enabled. -/
theorem enabled_of_apply {literal : Option Value} {a : Arguments} {v : Value}
    (applied : apply r env literal a = .ok v) : r.enabled a.func = true := by
  rw [apply] at applied
  split at applied
  · assumption
  · cases applied

/-- A tree that succeeds at a level is admitted there. -/
theorem admitted_of_evaluateAt (valid : node.Valid)
    (evaluated : evaluateAt r env level node = .ok e) (succeeded : e.succeeded = true) :
    node.AdmittedAt r level := by
  induction valid generalizing level e with
  | @make func literal children named shape ordered _ _ children_admitted named_admitted =>
    rcases evaluateAt_eq_ok_iff.mp evaluated with
      ⟨-, rfl⟩ | ⟨allowed, cs, cs_ok, ns, ns_ok, outcome, applied, rfl⟩
    · cases succeeded
    cases outcome with
    | error error => cases succeeded
    | ok v =>
      obtain ⟨shape, ordered⟩ := wellShaped_of_evaluated shape ordered cs_ok ns_ok
      obtain ⟨cs_given, ns_given⟩ := arguments_ok_of_apply applied shape ordered
      refine Node.admittedAt_make_iff.mpr ⟨enabled_of_apply applied, allowed,
        fun n mem => ?_, fun entry mem => ?_⟩
      · obtain ⟨c, c_mem, n_ok⟩ := exists_of_mem_left cs_ok mem
        have c_succeeded := Evaluation.exists_outcome_eq_ok_iff.mp (cs_given c c_mem)
        exact children_admitted n mem n_ok c_succeeded
      · obtain ⟨c, c_mem, -, n_ok⟩ := exists_of_mem_left ns_ok mem
        have c_succeeded := Evaluation.exists_outcome_eq_ok_iff.mp (ns_given c c_mem)
        exact named_admitted entry mem n_ok c_succeeded

/-- Registries that admit a tree at a level evaluate it alike there. -/
theorem evaluateAt_of_admitted (valid : node.Valid) (admitted : node.AdmittedAt r level)
    (also : node.AdmittedAt other level) :
    evaluateAt r env level node = evaluateAt other env level node := by
  induction valid generalizing level with
  | @make func literal children named _ _ _ _ children_alike named_alike =>
    obtain ⟨enabled, allowed, children_admitted, named_admitted⟩ :=
      Node.admittedAt_make_iff.mp admitted
    obtain ⟨enabled', allowed', children_admitted', named_admitted'⟩ :=
      Node.admittedAt_make_iff.mp also
    have unnamed : evaluateAll r env (level + 1) children =
        evaluateAll other env (level + 1) children := by
      rw [evaluateAll_eq_mapM, evaluateAll_eq_mapM]
      exact mapM_congr fun child mem =>
        children_alike child mem (children_admitted child mem) (children_admitted' child mem)
    have given : evaluateNamed r env (level + 1) named =
        evaluateNamed other env (level + 1) named := by
      rw [evaluateNamed_eq_mapM, evaluateNamed_eq_mapM]
      refine mapM_congr fun entry mem => ?_
      rw [named_alike entry mem (named_admitted entry mem) (named_admitted' entry mem)]
    rw [Node.make, evaluateAt, evaluateAt, if_neg (Nat.not_lt.mpr allowed),
      if_neg (Nat.not_lt.mpr allowed'), unnamed, given, enabled, enabled']

/-- **The registry gates evaluation and does nothing else.** A tree that construction calls gave is
evaluated by any registry in any environment without faults. Where it succeeds, it is within the
depth of the registry and all of its functions are enabled; and any two registries of which that
holds evaluate it to the same record, or end in the same fault. -/
theorem gated_by_registry {on : Registry → Prop} {node : Node} (built : node.Built on)
    (env : Environment) :
    (env.Steady → ∀ r, ∃ e, evaluate r env node = .ok e) ∧
    (∀ r e, evaluate r env node = .ok e → e.succeeded = true →
      node.depth ≤ r.maxDepth ∧ ∀ n ∈ node.walk, r.enabled n.func = true) ∧
    ∀ r other : Registry, (∀ n ∈ node.walk, r.enabled n.func = true ∧ other.enabled n.func = true) →
      node.depth ≤ r.maxDepth → node.depth ≤ other.maxDepth →
      evaluate r env node = evaluate other env node := by
  refine ⟨fun steady r => exists_evaluate steady node, fun r e evaluated succeeded => ?_,
    fun r other enabled depth_le depth_le' => ?_⟩
  · have admitted := Node.admitted_iff.mpr (admitted_of_evaluateAt built.valid evaluated succeeded)
    exact ⟨admitted.depth_le, admitted.enabled⟩
  · have admitted : node.Admitted r := ⟨fun n mem => (enabled n mem).1, depth_le⟩
    have also : node.Admitted other := ⟨fun n mem => (enabled n mem).2, depth_le'⟩
    exact evaluateAt_of_admitted built.valid (Node.admitted_iff.mp admitted)
      (Node.admitted_iff.mp also)

/-- A negation is evaluated alike by the registry that built it and by one of just its two functions
and just its two levels; one that lacks the inner function alone makes it fail. -/
theorem gated_by_registry_of_just_two : ∃ constant node e failed,
    Registry.standard.constant (.bool true) = .ok constant ∧
    Registry.standard.call .not [("value", constant)] = .ok node ∧
    evaluate .standard Facts.empty.toEnvironment node = .ok e ∧ e.value = some (.bool false) ∧
    evaluate ((Registry.ofFunctions [.not, .constant]).withMaxDepth 2) Facts.empty.toEnvironment
      node = .ok e ∧
    evaluate (.ofFunctions [.not]) Facts.empty.toEnvironment node = .ok failed ∧
    failed.succeeded = false := by
  refine ⟨_, _, _, _, rfl, rfl, rfl, rfl, ?_, rfl, ?_⟩
  all_goals
    have constant := @Node.Built.constant (· = .standard) .standard (.bool true) _ rfl rfl
    have built := @Node.Built.call (· = .standard) .standard .not [("value", _)] _ rfl
      (List.forall_mem_singleton.mpr constant) rfl
    obtain ⟨-, admitted, alike⟩ := gated_by_registry built Facts.empty.toEnvironment
  · exact (alike ((Registry.ofFunctions [.not, .constant]).withMaxDepth 2) .standard (by decide)
      (by decide) (by decide)).trans rfl
  · refine Bool.eq_false_iff.mpr fun succeeded => ?_
    have enabled := (admitted (.ofFunctions [.not]) _ rfl succeeded).2
    exact absurd enabled (by decide)

end Evaluator

end RiskRules
