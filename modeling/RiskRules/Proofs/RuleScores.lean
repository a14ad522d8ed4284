import RiskRules.Proofs.Mirroring
import RiskRules.Proofs.Outcomes
import RiskRules.Proofs.Scoring

/-!
Scores of rules. A tree of an accepted shape is a score computation, or a switch over score
computations (`Ruleset.checkShape_eq_ok_iff`). What it yields is told from the records of its
arguments (`Scoring.Yields`), and whenever it has a value that is the score it yields
(`Scoring.outcome_of_rule`); so no error is made of the kind of its value, and a switch fails for
its branches' own failures alone (`Scoring.failure_of_switch`).
-/

namespace RiskRules

/-! ### Shapes of rules -/

namespace Ruleset

variable {body : Node}

theorem checkBranches_eq_ok_iff {index : Nat} {branches : List Node} :
    checkBranches index branches = .ok () ↔
      ∀ branch ∈ branches, branch.func = .scoreComputation := by
  induction branches generalizing index with
  | nil => simp [checkBranches]
  | cons branch rest ih =>
    rw [checkBranches, List.forall_mem_cons]
    split
    · rename_i computes
      rw [ih, and_iff_right computes]
    · rename_i other
      simp [other]

/-- A rule is a score computation, or a switch over at least one. -/
theorem checkShape_eq_ok_iff : checkShape body = .ok () ↔
    body.func = .scoreComputation ∨ body.func = .switch ∧ body.children ≠ [] ∧
      ∀ branch ∈ body.children, branch.func = .scoreComputation := by
  unfold checkShape
  split
  · rename_i computes
    simp [computes]
  · rename_i switches
    cases body.children <;> simp [switches, checkBranches_eq_ok_iff]
  · rename_i not_computation not_switch
    refine ⟨nofun, ?_⟩
    rintro (computes | ⟨switches, -⟩)
    · exact absurd computes not_computation
    · exact absurd switches not_switch

/-- The branches of a switch of an accepted shape are score computations. -/
theorem computations_of_switch (switches : body.func = .switch)
    (shaped : checkShape body = .ok ()) :
    ∀ branch ∈ body.children, branch.func = .scoreComputation := by
  rcases checkShape_eq_ok_iff.mp shaped with computes | ⟨-, -, computations⟩
  · rw [switches] at computes
    cases computes
  · exact computations

end Ruleset

/-! ### Scores of rules -/

namespace Scoring

open Evaluator

variable {r : Registry} {env : Environment} {level : Nat} {node body : Node} {e : Evaluation}
  {v : Value} {s : ScoreResult} {error : EvaluationError} {results : List ScoreResult}
  {children : List Evaluation} {named : List (String × Evaluation)}

/-- The floor among arguments: 0 unless one is given. -/
def FloorIs (named : List (String × Evaluation)) (floor : Int64) : Prop :=
  (Keyed.get? "floor" named = none ∧ floor = 0) ∨ NamedValue named "floor" (.int floor)

/-- What a score computation yields of its arguments: its modifier and its floor if its condition is
true, and otherwise neither. -/
def Computes (named : List (String × Evaluation)) (s : ScoreResult) : Prop :=
  ∃ condition modifier floor, NamedValue named "condition" (.bool condition) ∧
    NamedValue named "modifier" (.int modifier) ∧ FloorIs named floor ∧
      s = if condition then ⟨true, modifier, floor⟩ else ⟨false, 0, 0⟩

/-- What a switch yields of the scores of its branches: the first that triggered, if one did. -/
inductive Selects (results : List ScoreResult) : ScoreResult → Prop
  | first {before later : List ScoreResult} {s : ScoreResult}
    (split : results = before ++ s :: later) (triggered : s.triggered = true)
    (earlier : ∀ t ∈ before, t.triggered = false) : Selects results s
  | none (untriggered : ∀ t ∈ results, t.triggered = false) : Selects results ⟨false, 0, 0⟩

/-- What a rule yields by its record: what its score computation does, or what its switch selects
from what the score computations of its branches do. -/
inductive Yields (e : Evaluation) : ScoreResult → Prop
  | computation {s : ScoreResult} (func_eq : e.func = .scoreComputation)
    (computes : Computes e.named s) : Yields e s
  | switch {results : List ScoreResult} {s : ScoreResult} (func_eq : e.func = .switch)
    (branches : List.Forall₂ (fun branch t => branch.func = .scoreComputation ∧
      branch.outcome = .ok (.score t) ∧ Computes branch.named t) e.children results)
    (selects : Selects results s) : Yields e s

/-- A score that did not trigger adds and demands nothing. -/
theorem Computes.idle (computes : Computes named s) (untriggered : s.triggered = false) :
    s = ⟨false, 0, 0⟩ := by
  obtain ⟨condition, modifier, floor, -, -, -, rfl⟩ := computes
  cases condition with
  | true => cases untriggered
  | false => rfl

theorem Selects.idle (selects : Selects results s) (untriggered : s.triggered = false) :
    s = ⟨false, 0, 0⟩ := by
  cases selects with
  | first split triggered => rw [untriggered] at triggered; cases triggered
  | none => rfl

theorem Yields.idle (yields : Yields e s) (untriggered : s.triggered = false) :
    s = ⟨false, 0, 0⟩ := by
  cases yields with
  | computation _ computes => exact computes.idle untriggered
  | switch _ _ selects => exact selects.idle untriggered

theorem selects_iff : Selects results s ↔ firstTriggered results = s := by
  constructor
  · intro selects
    cases selects with
    | first split triggered earlier =>
      have found : results.find? ScoreResult.triggered = some s :=
        List.find?_eq_some_iff_append.mpr ⟨triggered, _, _, split, by simpa using earlier⟩
      rw [firstTriggered, found, Option.getD_some]
    | none untriggered =>
      have nothing : results.find? ScoreResult.triggered = none := by
        simpa [List.find?_eq_none] using untriggered
      rw [firstTriggered, nothing, Option.getD_none, ScoreResult.notTriggered]
  · rintro rfl
    rw [firstTriggered]
    cases found : results.find? ScoreResult.triggered with
    | none => exact .none (by simpa [List.find?_eq_none] using found)
    | some t =>
      obtain ⟨triggered, before, later, split, earlier⟩ := List.find?_eq_some_iff_append.mp found
      exact .first split triggered (by simpa using earlier)

/-- A single score is selected, as it adds and demands nothing unless it triggered. -/
theorem selects_singleton_iff {t : ScoreResult}
    (idle : t.triggered = false → t = ⟨false, 0, 0⟩) : Selects [t] s ↔ t = s := by
  rw [selects_iff, firstTriggered, List.find?_singleton]
  cases triggered : t.triggered with
  | true => simp
  | false => simp [ScoreResult.notTriggered, idle triggered]

/-! ### Score computations -/

/-- A score computation comes to what it yields of its arguments. -/
theorem demand_scoreComputation_iff {literal : Option Value} {d : Demand} :
    demand literal ⟨.scoreComputation, children, named⟩ = .ok d ↔
      ∃ s, Computes named s ∧ d = .value (.score s) := by
  simp only [demand, bind_eq_ok_iff, Arguments.bool_eq_ok_iff, Arguments.int_eq_ok_iff,
    Arguments.optional_eq_ok_iff]
  constructor
  · rintro ⟨condition, condition_is, modifier, modifier_is, found, floor_read, done⟩
    rcases floor_read with ⟨absent, rfl⟩ | ⟨v, given, rfl⟩
    · cases done
      exact ⟨_, ⟨condition, modifier, 0, condition_is, modifier_is, .inl ⟨absent, rfl⟩, rfl⟩, rfl⟩
    · obtain ⟨floor, expected, done⟩ := bind_eq_ok_iff.mp done
      obtain rfl := Value.int?_eq_some_iff.mp (Arguments.expect_eq_ok_iff.mp expected)
      cases done
      exact ⟨_, ⟨condition, modifier, floor, condition_is, modifier_is, .inr given, rfl⟩, rfl⟩
  · rintro ⟨_, ⟨condition, modifier, floor, condition_is, modifier_is, floor_is, rfl⟩, rfl⟩
    refine ⟨condition, condition_is, modifier, modifier_is, ?_⟩
    rcases floor_is with ⟨absent, rfl⟩ | given
    · exact ⟨none, .inl ⟨absent, rfl⟩, rfl⟩
    · exact ⟨some (.int floor), .inr ⟨_, given, rfl⟩, rfl⟩

/-- A switch comes to what it selects from the scores of its branches. -/
theorem demand_switch_iff {literal : Option Value} {d : Demand} :
    demand literal ⟨.switch, children, named⟩ = .ok d ↔
      ∃ s, (∃ results,
        List.Forall₂ (fun branch t => branch.outcome = .ok (.score t)) children results ∧
          Selects results s) ∧ d = .value (.score s) := by
  simp only [demand, bind_eq_ok_iff, pure_eq_ok_iff, Arguments.scores_eq_ok_iff, selects_iff]
  constructor
  · rintro ⟨results, came_to, rfl⟩
    exact ⟨_, ⟨results, came_to, rfl⟩, rfl⟩
  · rintro ⟨_, ⟨results, came_to, rfl⟩, rfl⟩
    exact ⟨results, came_to, rfl⟩

theorem demand_switch_eq_error_iff {literal : Option Value} :
    demand literal ⟨.switch, children, named⟩ = .error error ↔
      Arguments.scores ⟨.switch, children, named⟩ = .error error := by
  simp only [demand, bind_eq_error_iff, pure, Except.pure, reduceCtorEq, and_false, exists_false,
    or_false]

/-- What comes to scores and asks for nothing gives them on allowed levels. -/
theorem outcome_of_demand {P : ScoreResult → Prop}
    (evaluated : evaluateAt r env level node = .ok e)
    (demand_iff : ∀ d, demand node.literal ⟨node.func, e.children, e.named⟩ = .ok d ↔
      ∃ s, P s ∧ d = .value (.score s)) :
    e.outcome = .ok v ↔ level ≤ r.maxDepth ∧ r.enabled node.func = true ∧
      ∃ s, P s ∧ v = .score s := by
  rw [outcome_eq_ok_iff evaluated]
  refine and_congr_right fun _ => and_congr_right fun _ => ?_
  constructor
  · rintro ⟨d, demanded, answered⟩
    obtain ⟨s, holds, rfl⟩ := (demand_iff d).mp demanded
    cases answered
    exact ⟨s, holds, rfl⟩
  · rintro ⟨s, holds, rfl⟩
    exact ⟨_, (demand_iff _).mpr ⟨s, holds, rfl⟩, rfl⟩

theorem outcome_of_computation (computes : node.func = .scoreComputation)
    (evaluated : evaluateAt r env level node = .ok e) : e.outcome = .ok v ↔
      level ≤ r.maxDepth ∧ r.enabled .scoreComputation = true ∧
        ∃ s, Computes e.named s ∧ v = .score s := by
  have given := outcome_of_demand (v := v) evaluated fun d => by
    rw [computes]
    exact demand_scoreComputation_iff
  rwa [computes] at given

theorem outcome_of_switch (switches : node.func = .switch)
    (evaluated : evaluateAt r env level node = .ok e) : e.outcome = .ok v ↔
      level ≤ r.maxDepth ∧ r.enabled .switch = true ∧
        ∃ s, (∃ results, List.Forall₂ (fun branch t => branch.outcome = .ok (.score t)) e.children
          results ∧ Selects results s) ∧ v = .score s := by
  have given := outcome_of_demand (v := v) evaluated fun d => by
    rw [switches]
    exact demand_switch_iff
  rwa [switches] at given

/-! ### Rules -/

/-- The branches of a switch over score computations: where they have values, these are the scores
that the computations yield. -/
theorem branches_of_evaluateAt (allowed : level ≤ r.maxDepth)
    (computations : ∀ branch ∈ node.children, branch.func = .scoreComputation)
    (evaluated : evaluateAt r env level node = .ok e) :
    ∀ branch ∈ e.children, branch.func = .scoreComputation ∧
      ∀ v, branch.outcome = .ok v → ∃ s, Computes branch.named s ∧ v = .score s := by
  intro branch mem
  obtain ⟨n, n_mem, branch_ok⟩ :=
    exists_of_mem_right (children_of_evaluateAt allowed evaluated).1 mem
  have computes := computations n n_mem
  refine ⟨(mirrors_of_evaluateAt branch_ok).func_eq.trans computes, fun v came_to => ?_⟩
  exact ((outcome_of_computation computes branch_ok).mp came_to).2.2

/-- A rule of an accepted shape has a value exactly if its function is enabled and it yields a
score, which is then its value. -/
theorem outcome_of_rule (shaped : Ruleset.checkShape body = .ok ())
    (evaluated : evaluate r env body = .ok e) :
    e.outcome = .ok v ↔ r.enabled body.func = true ∧ ∃ s, Yields e s ∧ v = .score s := by
  have allowed := r.one_le_maxDepth
  have func_eq : e.func = body.func := (mirrors_of_evaluateAt evaluated).func_eq
  rcases Ruleset.checkShape_eq_ok_iff.mp shaped with computes | ⟨switches, -, computations⟩
  · rw [outcome_of_computation computes evaluated, and_iff_right allowed, computes]
    refine and_congr_right fun _ => exists_congr fun s => and_congr_left fun _ => ?_
    constructor
    · exact .computation (func_eq.trans computes)
    · intro yields
      cases yields with
      | computation _ yields => exact yields
      | switch is_switch =>
        rw [func_eq, computes] at is_switch
        cases is_switch
  · have branches := branches_of_evaluateAt allowed computations evaluated
    rw [outcome_of_switch switches evaluated, and_iff_right allowed, switches]
    refine and_congr_right fun _ => exists_congr fun s => and_congr_left fun _ => ?_
    constructor
    · rintro ⟨results, came_to, selects⟩
      refine .switch (func_eq.trans switches) ?_ selects
      refine ((List.forall₂_and_left _ _).mpr ⟨branches, came_to⟩).imp fun branch t both => ?_
      obtain ⟨⟨computes, yields⟩, came_to⟩ := both
      obtain ⟨s, yields, same⟩ := yields _ came_to
      cases same
      exact ⟨computes, came_to, yields⟩
    · intro yields
      cases yields with
      | computation is_computation =>
        rw [func_eq, switches] at is_computation
        cases is_computation
      | switch _ branches selects =>
        exact ⟨_, branches.imp fun _ _ branch => branch.2.1, selects⟩

/-- A switch of an accepted shape fails exactly if it is not enabled, or if a branch fails, and then
the first that does is named: no branch is null or something else than a score. -/
theorem failure_of_switch (switches : body.func = .switch)
    (shaped : Ruleset.checkShape body = .ok ()) (evaluated : evaluate r env body = .ok e) :
    e.outcome = .error error ↔
      (r.enabled .switch = false ∧ error = .unsupportedFunction .switch) ∨
      r.enabled .switch = true ∧ ∃ before branch later, e.children = before ++ branch :: later ∧
        (∀ earlier ∈ before, earlier.succeeded = true) ∧ branch.succeeded = false ∧
          error = .argumentFailed .switch (positionName before.length) := by
  have allowed := r.one_le_maxDepth
  have computations := Ruleset.computations_of_switch switches shaped
  have only_scores : ∀ record ∈ e.children, ∀ v, record.outcome = .ok v → ∃ s, v = .score s := by
    intro record mem v came_to
    obtain ⟨-, yields⟩ := branches_of_evaluateAt allowed computations evaluated record mem
    exact (yields v came_to).imp fun _ => And.right
  have unread : Arguments.scores ⟨.switch, e.children, e.named⟩ = .error error ↔ _ :=
    Arguments.scores_eq_error_iff only_scores
  rw [outcome_eq_error_iff allowed evaluated, switches, ← unread, demand_switch_eq_error_iff]
  refine or_congr_right (and_congr_right fun _ => or_iff_left ?_)
  rintro ⟨d, demanded, answered⟩
  obtain ⟨s, -, rfl⟩ := demand_switch_iff.mp demanded
  cases answered

/-- A switch over one branch has the value of its branch. -/
theorem outcome_of_single_branch (switches : body.func = .switch)
    (shaped : Ruleset.checkShape body = .ok ()) (evaluated : evaluate r env body = .ok e)
    {branch : Evaluation} (single : e.children = [branch]) :
    e.outcome = .ok v ↔ r.enabled .switch = true ∧ branch.outcome = .ok v := by
  have allowed := r.one_le_maxDepth
  have computations := Ruleset.computations_of_switch switches shaped
  have branches := branches_of_evaluateAt allowed computations evaluated
  rw [single, List.forall_mem_singleton] at branches
  rw [outcome_of_switch switches evaluated, and_iff_right allowed, single]
  refine and_congr_right fun _ => ?_
  constructor
  · rintro ⟨s, ⟨results, came_to, selects⟩, rfl⟩
    obtain ⟨t, rest, branch_came_to, none_left, rfl⟩ := List.forall₂_cons_left_iff.mp came_to
    obtain rfl := List.forall₂_nil_left_iff.mp none_left
    obtain ⟨_, yields, same⟩ := branches.2 _ branch_came_to
    cases same
    rwa [← (selects_singleton_iff yields.idle).mp selects]
  · intro came_to
    obtain ⟨s, yields, rfl⟩ := branches.2 v came_to
    exact ⟨s, ⟨[s], .cons came_to .nil, (selects_singleton_iff yields.idle).mpr rfl⟩, rfl⟩

/-- **Rules of accepted shapes have scores.** A tree of an accepted shape can be evaluated by every
registry in every environment that does not break. In any evaluation of it the records under the
root are those of its children, and the root has a value exactly if its function is enabled and it
yields a score, which is its value: a score that did not trigger adds and demands nothing. No error
of a rule is about the kind of its value. A switch fails exactly if it is not enabled, or if a
branch fails, and then the first such branch is named; over one branch it has the value of that
branch. -/
theorem accepted_rule_scored (shaped : Ruleset.checkShape body = .ok ()) (r : Registry)
    (env : Environment) :
    (env.Steady → ∃ e, evaluate r env body = .ok e) ∧
    ∀ e, evaluate r env body = .ok e →
      (List.Forall₂ (fun n record => evaluateAt r env 2 n = .ok record) body.children e.children ∧
        List.Forall₂ (fun entry record => entry.1 = record.1 ∧
          evaluateAt r env 2 entry.2 = .ok record.2) body.named e.named) ∧
      (∀ v, e.outcome = .ok v ↔ r.enabled body.func = true ∧ ∃ s, Yields e s ∧ v = .score s) ∧
      (∀ s, Yields e s → s.triggered = false → s.modifier = 0 ∧ s.floor = 0) ∧
      (∀ error, scoreOf e = .error error ↔ e.outcome = .error error) ∧
      (body.func = .switch → ∀ error, e.outcome = .error error ↔
        (r.enabled .switch = false ∧ error = .unsupportedFunction .switch) ∨
        r.enabled .switch = true ∧ ∃ before branch later, e.children = before ++ branch :: later ∧
          (∀ earlier ∈ before, earlier.succeeded = true) ∧ branch.succeeded = false ∧
            error = .argumentFailed .switch (positionName before.length)) ∧
      (body.func = .switch → ∀ branch, e.children = [branch] →
        ∀ v, e.outcome = .ok v ↔ r.enabled .switch = true ∧ branch.outcome = .ok v) := by
  refine ⟨fun steady => exists_evaluate steady body, fun e evaluated => ?_⟩
  refine ⟨children_of_evaluateAt r.one_le_maxDepth evaluated,
    fun v => outcome_of_rule shaped evaluated, fun s yields untriggered => ?_, fun error => ?_,
    fun switches error => failure_of_switch switches shaped evaluated,
    fun switches branch single v => outcome_of_single_branch switches shaped evaluated single⟩
  · rw [yields.idle untriggered]
    exact ⟨rfl, rfl⟩
  · rw [scoreOf_eq_error_iff, or_iff_left]
    rintro ⟨v, came_to, no_score, -⟩
    obtain ⟨-, s, -, rfl⟩ := (outcome_of_rule shaped evaluated).mp came_to
    exact no_score s rfl

/-- A score computation over literals. -/
def Sample.computation (condition : Bool) (modifier : Int64) (floor : List Int64) : Node :=
  .make .scoreComputation none []
    (("condition", .make .constant (some (.bool condition)) [] []) ::
      floor.map (fun floor => ("floor", .make .constant (some (.int floor)) [] [])) ++
      [("modifier", .make .constant (some (.int modifier)) [] [])])

/-- Of two branches that trigger the first is selected, behind one that does not. If a field is
missing that this one reads, the switch fails, and it names that branch although one behind it
triggers. -/
theorem accepted_rule_scored_of_switch :
    let rule (second : Node) : Node := .make .switch none
      [Sample.computation false 1 [5], second, Sample.computation true 3 [9]] []
    let given := Sample.computation true 2 []
    let failing := (Sample.adding "absent" (Evaluator.Sample.field "absent") 2).body
    (∃ e, evaluate .standard Facts.empty.toEnvironment (rule given) = .ok e ∧
      e.outcome = .ok (.score ⟨true, 2, 0⟩) ∧ Yields e ⟨true, 2, 0⟩) ∧
    ∃ e, evaluate .standard Facts.empty.toEnvironment (rule failing) = .ok e ∧
      e.outcome = .error (.argumentFailed .switch (positionName 1)) := by
  intro rule given failing
  have laws (second : Node) (shaped : Ruleset.checkShape (rule second) = .ok ()) :=
    (accepted_rule_scored shaped .standard Facts.empty.toEnvironment).2
  constructor
  · obtain ⟨-, came_to, -⟩ := laws given rfl _ rfl
    obtain ⟨-, s, yields, same⟩ := (came_to (.score ⟨true, 2, 0⟩)).mp rfl
    cases same
    exact ⟨_, rfl, rfl, yields⟩
  · obtain ⟨-, -, -, -, fails, -⟩ := laws failing rfl _ rfl
    refine ⟨_, rfl, (fails rfl _).mpr (.inr ⟨rfl, [_], _, [_], rfl, ?_, rfl, rfl⟩)⟩
    exact List.forall_mem_singleton.mpr rfl

end Scoring

end RiskRules
