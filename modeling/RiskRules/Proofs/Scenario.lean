import RiskRules.Proofs.Faults
import RiskRules.Proofs.Results
import RiskRules.Proofs.Signed64
import RiskRules.Scenario

/-!
Running a scenario. Whether its rules are looked at depends on the version in use, the type of the
record and the trigger alone (`Scenario.Stop`). Once they are, only a fault in a formula keeps the
scenario from a record, in which every rule has the entry that it would have beside any other rules
(`Scenario.Rule.Entry`); the rules that hit add up to the score, and two thresholds in the right
order cut the scores into the three outcomes (`Scenario.run_decided`).
-/

namespace RiskRules

/-! ### Thresholds -/

namespace OutcomeThresholds

variable {t : OutcomeThresholds} {score : Int64}

/-- Thresholds are made of two scores in the right order, and of no others. -/
theorem of_eq_ok_iff {review reject : Int64} :
    of review reject = .ok t ↔ review ≤ reject ∧ t.review = review ∧ t.reject = reject := by
  rw [of]
  split
  · rename_i ordered
    constructor
    · rintro ⟨⟩
      exact ⟨ordered, rfl, rfl⟩
    · rintro ⟨-, rfl, rfl⟩
      rfl
  · rename_i inverted
    exact ⟨nofun, fun given => absurd given.1 inverted⟩

theorem outcome_eq_reject_iff : t.outcome score = .reject ↔ t.reject ≤ score := by
  rw [outcome]
  split
  · simp_all
  · split <;> simp_all

theorem outcome_eq_review_iff :
    t.outcome score = .review ↔ t.review ≤ score ∧ score < t.reject := by
  rw [outcome, ← Int64.not_le]
  split
  · simp_all
  · split <;> simp_all

theorem outcome_eq_approve_iff : t.outcome score = .approve ↔ score < t.review := by
  rw [outcome, ← Int64.not_le]
  split
  · rename_i rejected
    have reviewed := Int64.le_trans t.review_le_reject rejected
    simp_all
  · split <;> simp_all

end OutcomeThresholds

namespace Scenario

variable {r : Registry} {env : Environment} {objectType : String} {scenario : Scenario}
  {iteration : Iteration} {rule : Rule} {entry : RuleRecord} {record : Record} {failure : Failure}

/-! ### Truth values -/

theorem truthOf_eq_ok_iff {e : Evaluation} {b : Bool} :
    truthOf e = .ok b ↔ e.outcome = .ok (.bool b) := by
  unfold truthOf
  split
  · rename_i found outcome
    simp [outcome]
  · rename_i other outcome
    simpa [outcome] using fun same => other b same
  · rename_i outcome
    simp [outcome]

/-- The error of a record that has no truth value. -/
inductive NoTruth (e : Evaluation) : EvaluationError → Prop where
  | failed {error : EvaluationError} (failure : e.outcome = .error error) : NoTruth e error
  | other {v : Value} (found : e.outcome = .ok v) (other : ∀ b, v ≠ .bool b) :
    NoTruth e (.typeMismatch e.func "bool" v.kind.name)

theorem truthOf_eq_error_iff {e : Evaluation} {error : EvaluationError} :
    truthOf e = .error error ↔ NoTruth e error := by
  constructor
  · intro given
    unfold truthOf at given
    split at given
    · cases given
    · rename_i v other outcome
      cases given
      exact .other outcome other
    · rename_i outcome
      cases given
      exact .failed outcome
  · intro no_truth
    cases no_truth with
    | failed failure => rw [truthOf, failure]
    | @other v found other =>
      rw [truthOf, found]
      split
      · rename_i b same
        exact absurd (Except.ok.inj same) (other b)
      · rename_i v' _ same
        cases same
        rfl
      · rename_i same
        cases same

/-! ### One rule -/

/-- The entry of a rule: a rule that hits has its modifier, one that does not or has no truth value
adds nothing. -/
inductive Rule.Entry (r : Registry) (env : Environment) (rule : Rule) : RuleRecord → Prop where
  | hit {e : Evaluation} (evaluated : Evaluator.evaluate r env rule.formula = .ok e)
    (holds : e.outcome = .ok (.bool true)) :
    Entry r env rule ⟨rule.id, rule.name, .hit, rule.modifier, none, e⟩
  | noHit {e : Evaluation} (evaluated : Evaluator.evaluate r env rule.formula = .ok e)
    (fails : e.outcome = .ok (.bool false)) :
    Entry r env rule ⟨rule.id, rule.name, .noHit, 0, none, e⟩
  | error {e : Evaluation} {error : EvaluationError}
    (evaluated : Evaluator.evaluate r env rule.formula = .ok e) (no_truth : NoTruth e error) :
    Entry r env rule ⟨rule.id, rule.name, .error, 0, some error, e⟩

theorem Rule.run_eq_ok_iff : rule.run r env = .ok entry ↔ rule.Entry r env entry := by
  constructor
  · intro given
    rw [run] at given
    cases evaluated : Evaluator.evaluate r env rule.formula with
    | error f => rw [evaluated] at given; cases given
    | ok e =>
      rw [evaluated] at given
      cases truth : truthOf e with
      | error error =>
        simp only [judge, truth] at given
        cases given
        exact .error evaluated (truthOf_eq_error_iff.mp truth)
      | ok b =>
        simp only [judge, truth] at given
        cases b with
        | true => cases given; exact .hit evaluated (truthOf_eq_ok_iff.mp truth)
        | false => cases given; exact .noHit evaluated (truthOf_eq_ok_iff.mp truth)
  · intro entry
    cases entry with
    | hit evaluated holds =>
      simp only [run, evaluated, judge, truthOf_eq_ok_iff.mpr holds]
    | noHit evaluated fails =>
      simp only [run, evaluated, judge, truthOf_eq_ok_iff.mpr fails]
    | error evaluated no_truth =>
      simp only [run, evaluated, judge, truthOf_eq_error_iff.mpr no_truth]

theorem Rule.run_eq_error_iff : rule.run r env = .error failure ↔
    ∃ f, Evaluator.fault? r env rule.formula = some f ∧ failure = .internalFailure f := by
  simp only [← Evaluator.evaluate_eq_error_iff]
  rw [run]
  cases Evaluator.evaluate r env rule.formula <;> simp [eq_comm]

theorem Rule.Entry.evaluated (here : rule.Entry r env entry) :
    Evaluator.evaluate r env rule.formula = .ok entry.evaluation := by
  cases here <;> assumption

/-- The fault in its formula is all that can keep a rule from an entry. -/
theorem Rule.exists_entry_iff :
    (∃ entry, rule.Entry r env entry) ↔ Evaluator.fault? r env rule.formula = none := by
  simp only [← Rule.run_eq_ok_iff, ← Evaluator.exists_evaluate_eq_ok_iff, run]
  cases Evaluator.evaluate r env rule.formula <;> simp

/-- A rule has one entry. -/
theorem Rule.Entry.unique {entry' : RuleRecord} (here : rule.Entry r env entry)
    (there : rule.Entry r env entry') : entry = entry' :=
  Except.ok.inj ((Rule.run_eq_ok_iff.mpr here).symm.trans (Rule.run_eq_ok_iff.mpr there))

/-! ### The gate -/

/-- The trigger of a version is true. -/
structure Iteration.Matched (r : Registry) (env : Environment) (iteration : Iteration)
    (e : Evaluation) : Prop where
  evaluated : Evaluator.evaluate r env iteration.trigger = .ok e
  holds : e.outcome = .ok (.bool true)

/-- Why the trigger of a version keeps its rules from being evaluated. -/
inductive Iteration.Stop (r : Registry) (env : Environment) (iteration : Iteration) :
    Failure → Prop where
  | broken {f : Fault} (fault : Evaluator.fault? r env iteration.trigger = some f) :
    Stop r env iteration (.internalFailure f)
  | noTruth {e : Evaluation} {error : EvaluationError}
    (evaluated : Evaluator.evaluate r env iteration.trigger = .ok e)
    (no_truth : NoTruth e error) : Stop r env iteration (.triggerEvaluation error e)
  | notMatched {e : Evaluation} (evaluated : Evaluator.evaluate r env iteration.trigger = .ok e)
    (fails : e.outcome = .ok (.bool false)) : Stop r env iteration .triggerNotMatched

theorem Iteration.checkTrigger_eq_ok_iff {e : Evaluation} :
    iteration.checkTrigger r env = .ok e ↔ iteration.Matched r env e := by
  constructor
  · intro given
    rw [checkTrigger] at given
    cases evaluated : Evaluator.evaluate r env iteration.trigger with
    | error f => rw [evaluated] at given; cases given
    | ok e' =>
      rw [evaluated] at given
      cases truth : truthOf e' with
      | error error => simp only [truth] at given; cases given
      | ok b =>
        simp only [truth] at given
        cases b with
        | true => cases given; exact ⟨evaluated, truthOf_eq_ok_iff.mp truth⟩
        | false => cases given
  · intro matched
    simp only [checkTrigger, matched.evaluated, truthOf_eq_ok_iff.mpr matched.holds]

theorem Iteration.checkTrigger_eq_error_iff :
    iteration.checkTrigger r env = .error failure ↔ iteration.Stop r env failure := by
  constructor
  · intro given
    rw [checkTrigger] at given
    cases evaluated : Evaluator.evaluate r env iteration.trigger with
    | error f =>
      rw [evaluated] at given
      cases given
      exact .broken (Evaluator.evaluate_eq_error_iff.mp evaluated)
    | ok e =>
      rw [evaluated] at given
      cases truth : truthOf e with
      | error error =>
        simp only [truth] at given
        cases given
        exact .noTruth evaluated (truthOf_eq_error_iff.mp truth)
      | ok b =>
        simp only [truth] at given
        cases b with
        | true => cases given
        | false => cases given; exact .notMatched evaluated (truthOf_eq_ok_iff.mp truth)
  · intro stop
    cases stop with
    | broken fault =>
      simp only [checkTrigger, Evaluator.evaluate_eq_error_iff.mpr fault]
    | noTruth evaluated no_truth =>
      simp only [checkTrigger, evaluated, truthOf_eq_error_iff.mpr no_truth]
    | notMatched evaluated fails =>
      simp only [checkTrigger, evaluated, truthOf_eq_ok_iff.mpr fails]

/-- Why a scenario stops before any rule is evaluated. -/
inductive Stop (r : Registry) (env : Environment) (objectType : String) (scenario : Scenario) :
    Failure → Prop where
  | noLive (missing : scenario.live = none) :
    Stop r env objectType scenario (.noLiveVersion scenario.id)
  | otherType {iteration : Iteration} (live : scenario.live = some iteration)
    (other : objectType ≠ iteration.objectType) :
    Stop r env objectType scenario (.typeMismatch iteration.objectType objectType)
  | trigger {iteration : Iteration} {failure : Failure} (live : scenario.live = some iteration)
    (type : objectType = iteration.objectType) (stop : iteration.Stop r env failure) :
    Stop r env objectType scenario failure

/-- The rules of a version are evaluated. -/
structure Passes (r : Registry) (env : Environment) (objectType : String) (scenario : Scenario)
    (iteration : Iteration) (trigger : Evaluation) : Prop where
  live : scenario.live = some iteration
  type : objectType = iteration.objectType
  matched : iteration.Matched r env trigger

/-! ### Records -/

/-- The figures of a record are those of its entries: the score is the sum of the modifiers of the
rules that hit from left to right, each sum kept within 64 bits, and the thresholds, of which the
one for review is not above the other, decide on the outcome. -/
structure Totals (t : OutcomeThresholds) (record : Record) : Prop where
  score : record.score = ((record.rules.filter (·.outcome = .hit)).map RuleRecord.modifier).foldl
    Signed64.addClamped 0
  ordered : t.review ≤ t.reject
  reject_iff : record.outcome = .reject ↔ t.reject ≤ record.score
  review_iff : record.outcome = .review ↔ t.review ≤ record.score ∧ record.score < t.reject
  approve_iff : record.outcome = .approve ↔ record.score < t.review

/-- Only rules that hit count, since the others are entered with a modifier of 0. -/
theorem foldl_modifiers_eq {rules : List Rule} {entries : List RuleRecord}
    (all : List.Forall₂ (Rule.Entry r env) rules entries) (start : Int64) :
    (entries.map RuleRecord.modifier).foldl Signed64.addClamped start =
      ((entries.filter (·.outcome = .hit)).map RuleRecord.modifier).foldl
        Signed64.addClamped start := by
  induction all generalizing start with
  | nil => rfl
  | cons entry rest ih =>
    cases entry with
    | hit evaluated holds => exact ih _
    | noHit evaluated fails =>
      rw [List.map_cons, List.foldl_cons, Signed64.addClamped_zero]
      exact ih start
    | error evaluated no_truth =>
      rw [List.map_cons, List.foldl_cons, Signed64.addClamped_zero]
      exact ih start

/-- What a scenario leaves whose rules are evaluated: an entry for each rule in their order. -/
structure Recorded (r : Registry) (env : Environment) (scenario : Scenario) (iteration : Iteration)
    (record : Record) : Prop where
  scenario_eq : record.scenario = scenario.id
  iteration_eq : record.iteration = iteration.id
  version_eq : record.version = iteration.version
  entries : List.Forall₂ (Rule.Entry r env) iteration.rules record.rules
  totals : Totals iteration.thresholds record

/-- The record of the entries of a version's rules. -/
def assemble (scenario : Scenario) (iteration : Iteration) (trigger : Evaluation)
    (entries : List RuleRecord) : Record :=
  let score := (entries.map RuleRecord.modifier).foldl Signed64.addClamped 0
  ⟨scenario.id, iteration.id, iteration.version, trigger, entries, score,
    iteration.thresholds.outcome score⟩

theorem recorded_assemble {entries : List RuleRecord} (trigger : Evaluation)
    (all : List.Forall₂ (Rule.Entry r env) iteration.rules entries) :
    Recorded r env scenario iteration (assemble scenario iteration trigger entries) :=
  ⟨rfl, rfl, rfl, all, foldl_modifiers_eq all 0, iteration.thresholds.review_le_reject,
    OutcomeThresholds.outcome_eq_reject_iff, OutcomeThresholds.outcome_eq_review_iff,
    OutcomeThresholds.outcome_eq_approve_iff⟩

/-- The entries and the trigger leave only one record. -/
theorem Recorded.eq_assemble (recorded : Recorded r env scenario iteration record) :
    record = assemble scenario iteration record.trigger record.rules := by
  have score : record.score = (assemble scenario iteration record.trigger record.rules).score :=
    recorded.totals.score.trans (foldl_modifiers_eq recorded.entries 0).symm
  have outcome : record.outcome = iteration.thresholds.outcome record.score := by
    cases decided : record.outcome with
    | reject =>
      exact (OutcomeThresholds.outcome_eq_reject_iff.mpr
        (recorded.totals.reject_iff.mp decided)).symm
    | review =>
      exact (OutcomeThresholds.outcome_eq_review_iff.mpr
        (recorded.totals.review_iff.mp decided)).symm
    | approve =>
      exact (OutcomeThresholds.outcome_eq_approve_iff.mpr
        (recorded.totals.approve_iff.mp decided)).symm
  rw [score] at outcome
  have ids := recorded.scenario_eq
  have versions := recorded.iteration_eq
  have numbers := recorded.version_eq
  cases record
  simp_all [assemble]

/-! ### Runs -/

theorem run_of_stop (stop : Stop r env objectType scenario failure) :
    run r env objectType scenario = .error failure := by
  cases stop with
  | noLive missing => rw [run, missing]
  | otherType live other => simp only [run, live, if_pos other]
  | trigger live type stop =>
    simp only [run, live, type, ne_eq, not_true_eq_false, if_false, Iteration.run,
      Iteration.checkTrigger_eq_error_iff.mpr stop]
    rfl

theorem run_of_passes {trigger : Evaluation}
    (passes : Passes r env objectType scenario iteration trigger) :
    run r env objectType scenario =
      assemble scenario iteration trigger <$> iteration.rules.mapM (Rule.run r env) := by
  simp only [run, passes.live, passes.type, ne_eq, not_true_eq_false, if_false, Iteration.run,
    Iteration.checkTrigger_eq_ok_iff.mpr passes.matched]
  rfl

/-- A scenario stops, or else its rules are evaluated. -/
theorem stops_iff (r : Registry) (env : Environment) (objectType : String) (scenario : Scenario) :
    (∃ failure, Stop r env objectType scenario failure) ↔
      ¬∃ iteration trigger, Passes r env objectType scenario iteration trigger := by
  constructor
  · rintro ⟨failure, stop⟩ ⟨iteration, trigger, passes⟩
    cases stop with
    | noLive missing => cases missing.symm.trans passes.live
    | otherType live other =>
      cases live.symm.trans passes.live
      exact other passes.type
    | trigger live type stop =>
      cases live.symm.trans passes.live
      cases (Iteration.checkTrigger_eq_error_iff.mpr stop).symm.trans
        (Iteration.checkTrigger_eq_ok_iff.mpr passes.matched)
  · intro barred
    cases live : scenario.live with
    | none => exact ⟨_, .noLive live⟩
    | some iteration =>
      by_cases type : objectType = iteration.objectType
      · cases checked : iteration.checkTrigger r env with
        | error failure =>
          exact ⟨_, .trigger live type (Iteration.checkTrigger_eq_error_iff.mp checked)⟩
        | ok trigger =>
          exact absurd ⟨_, _, live, type, Iteration.checkTrigger_eq_ok_iff.mp checked⟩ barred
      · exact ⟨_, .otherType live type⟩

theorem run_eq_ok_iff : run r env objectType scenario = .ok record ↔ ∃ iteration,
    Passes r env objectType scenario iteration record.trigger ∧
      Recorded r env scenario iteration record := by
  constructor
  · intro ran
    by_cases passed : ∃ iteration trigger, Passes r env objectType scenario iteration trigger
    · obtain ⟨iteration, trigger, passes⟩ := passed
      rw [run_of_passes passes, map_eq_ok_iff] at ran
      obtain ⟨entries, given, rfl⟩ := ran
      simp only [mapM_eq_ok_iff, Rule.run_eq_ok_iff] at given
      exact ⟨iteration, passes, recorded_assemble trigger given⟩
    · obtain ⟨_, stop⟩ := (stops_iff r env objectType scenario).mpr passed
      cases (run_of_stop stop).symm.trans ran
  · rintro ⟨iteration, passes, recorded⟩
    rw [run_of_passes passes, map_eq_ok_iff]
    refine ⟨record.rules, ?_, recorded.eq_assemble.symm⟩
    simp only [mapM_eq_ok_iff, Rule.run_eq_ok_iff]
    exact recorded.entries

/-- The first fault in a formula. -/
def FirstFault (r : Registry) (env : Environment) (rules : List Rule) (f : Fault) : Prop :=
  ∃ before rule later, rules = before ++ rule :: later ∧
    (∀ earlier ∈ before, Evaluator.fault? r env earlier.formula = none) ∧
    Evaluator.fault? r env rule.formula = some f

theorem run_eq_error_iff_of_passes {trigger : Evaluation}
    (passes : Passes r env objectType scenario iteration trigger) :
    run r env objectType scenario = .error failure ↔
      ∃ f, FirstFault r env iteration.rules f ∧ failure = .internalFailure f := by
  rw [run_of_passes passes, map_eq_error_iff, mapM_eq_error_iff]
  simp only [Rule.run_eq_ok_iff, Rule.exists_entry_iff, Rule.run_eq_error_iff, FirstFault]
  constructor
  · rintro ⟨before, rule, later, split, none_before, f, fault, rfl⟩
    exact ⟨f, ⟨before, rule, later, split, none_before, fault⟩, rfl⟩
  · rintro ⟨f, ⟨before, rule, later, split, none_before, fault⟩, rfl⟩
    exact ⟨before, rule, later, split, none_before, f, fault, rfl⟩

/-- Once rules are evaluated, there is a record exactly if no formula ends in a fault. -/
theorem exists_run_eq_ok_iff_of_passes {trigger : Evaluation}
    (passes : Passes r env objectType scenario iteration trigger) :
    (∃ record, run r env objectType scenario = .ok record) ↔
      ∀ rule ∈ iteration.rules, Evaluator.fault? r env rule.formula = none := by
  simp only [run_of_passes passes, map_eq_ok_iff, ← Rule.exists_entry_iff, ← Rule.run_eq_ok_iff,
    ← exists_mapM_eq_ok_iff]
  exact ⟨fun ⟨_, entries, given, _⟩ => ⟨entries, given⟩,
    fun ⟨entries, given⟩ => ⟨_, entries, given, rfl⟩⟩

/-! ### Isolation -/

/-- The scenario with other rules in the version in use. -/
def withRules (scenario : Scenario) (rules : List Rule) : Scenario :=
  { scenario with live := scenario.live.map fun iteration => { iteration with rules := rules } }

theorem live_withRules (live : scenario.live = some iteration) (rules : List Rule) :
    (scenario.withRules rules).live = some { iteration with rules := rules } := by
  rw [withRules, live]
  rfl

theorem Iteration.Stop.withRules (stop : iteration.Stop r env failure) (rules : List Rule) :
    { iteration with rules := rules }.Stop r env failure := by
  cases stop with
  | broken fault => exact .broken fault
  | noTruth evaluated no_truth => exact .noTruth evaluated no_truth
  | notMatched evaluated fails => exact .notMatched evaluated fails

/-- What stops a scenario stops it whatever its rules are. -/
theorem Stop.withRules (stop : Stop r env objectType scenario failure) (rules : List Rule) :
    Stop r env objectType (scenario.withRules rules) failure := by
  cases stop with
  | noLive missing => exact .noLive (by rw [Scenario.withRules, missing]; rfl)
  -- The failure tells only the type of the version, so the version is read off its slot.
  | otherType live other => exact (Stop.otherType (live_withRules live rules) other :)
  | trigger live type stop =>
    exact .trigger (live_withRules live rules) type (stop.withRules rules)

/-- Every rule has the entry that it has among any other rules. -/
theorem entry_eq_of_rule_eq {rules : List Rule} {record' : Record} {i : Nat}
    (live : scenario.live = some iteration) (ran : run r env objectType scenario = .ok record)
    (ran' : run r env objectType (scenario.withRules rules) = .ok record')
    (same : iteration.rules[i]? = rules[i]?) : record.rules[i]? = record'.rules[i]? := by
  obtain ⟨_, passes, recorded⟩ := run_eq_ok_iff.mp ran
  obtain ⟨_, passes', recorded'⟩ := run_eq_ok_iff.mp ran'
  cases live.symm.trans passes.live
  cases (live_withRules live rules).symm.trans passes'.live
  exact getElem?_eq_of_forall₂ (R := fun rule entry => Rule.Entry r env rule entry)
    (fun _ _ _ here there => here.unique there) recorded.entries recorded'.entries same

/-- **The gate and the rules behind it.** A scenario stops, or else its rules are evaluated. What
stops it — no version in use, else a record of another type, else a trigger that ends in a fault,
has no truth value or is false — does so whatever its rules are. Otherwise there is a record exactly
if no formula ends in a fault, and the first fault is reported if one does; the record has an entry
for each rule in their order, and the entry of a rule does not depend on the others. Thresholds can
only be made of two scores in the right order. -/
theorem run_decided (r : Registry) (env : Environment) (objectType : String)
    (scenario : Scenario) :
    ((∃ failure, Stop r env objectType scenario failure) ↔
      ¬∃ iteration trigger, Passes r env objectType scenario iteration trigger) ∧
    (∀ failure, Stop r env objectType scenario failure →
      run r env objectType scenario = .error failure ∧
        ∀ rules, run r env objectType (scenario.withRules rules) = .error failure) ∧
    (∀ iteration trigger, Passes r env objectType scenario iteration trigger →
      ((∃ record, run r env objectType scenario = .ok record) ↔
        ∀ rule ∈ iteration.rules, Evaluator.fault? r env rule.formula = none) ∧
      (∀ failure, run r env objectType scenario = .error failure ↔
        ∃ f, FirstFault r env iteration.rules f ∧ failure = .internalFailure f) ∧
      (∀ record, run r env objectType scenario = .ok record ↔
        record.trigger = trigger ∧ Recorded r env scenario iteration record) ∧
      ∀ (record : Record) (rules : List Rule) (record' : Record) (i : Nat),
        run r env objectType scenario = .ok record →
        run r env objectType (scenario.withRules rules) = .ok record' →
        iteration.rules[i]? = rules[i]? → record.rules[i]? = record'.rules[i]?) ∧
    ∀ review reject t, OutcomeThresholds.of review reject = .ok t ↔
      review ≤ reject ∧ t.review = review ∧ t.reject = reject := by
  refine ⟨stops_iff r env objectType scenario, fun failure stop => ?_,
    fun iteration trigger passes => ?_, fun _ _ _ => OutcomeThresholds.of_eq_ok_iff⟩
  · exact ⟨run_of_stop stop, fun rules => run_of_stop (stop.withRules rules)⟩
  · refine ⟨exists_run_eq_ok_iff_of_passes passes, fun _ => run_eq_error_iff_of_passes passes,
      fun record => ?_, fun _ _ _ _ ran ran' same => entry_eq_of_rule_eq passes.live ran ran' same⟩
    rw [run_eq_ok_iff]
    constructor
    · rintro ⟨_, passes', recorded⟩
      cases passes.live.symm.trans passes'.live
      exact ⟨Except.ok.inj (passes'.matched.evaluated.symm.trans passes.matched.evaluated),
        recorded⟩
    · rintro ⟨rfl, recorded⟩
      exact ⟨iteration, passes, recorded⟩

/-! ### A sample scenario -/

open Evaluator.Sample

/-- A scenario for accounts that are reviewed from 10 and rejected from 40. -/
def Sample.accounts (trigger : Node) (rules : List Rule) : Scenario :=
  ⟨"watch", "acme", "accounts",
    some ⟨"first", 1, "account", trigger, rules, ⟨10, 40, by decide⟩⟩⟩

/-- Two rules without a truth value are recorded and add nothing; a fault in a formula leaves no
record, though an operand in front of it fails; and a trigger that fails keeps that formula from
being looked at. -/
theorem run_decided_torn :
    let hit : Rule := ⟨"hit", "hit", "", field "open", 50⟩
    let failed : Rule := ⟨"failed", "failed", "", field "absent", 60⟩
    let number : Rule := ⟨"number", "number", "", .make .constant (some (.int 7)) [] [], 70⟩
    let broken : Rule :=
      ⟨"broken", "broken", "", .make .and none [field "absent", field "torn"] [], 80⟩
    (∃ record, run .standard torn "account"
        (Sample.accounts (field "open") [hit, failed, number]) = .ok record ∧
      record.rules.map RuleRecord.outcome = [.hit, .error, .error] ∧ record.score = 50 ∧
      record.outcome = .reject) ∧
    run .standard torn "account" (Sample.accounts (field "open") [hit, failed, broken]) =
      .error (.internalFailure ⟨some "connection reset"⟩) ∧
    ∃ e, ∀ rules, run .standard torn "account" (Sample.accounts (field "absent") rules) =
      .error (.triggerEvaluation (.environment (.notFound .payloadField "absent")) e) := by
  intro hit failed number broken
  have passes : ∀ rules, ∃ trigger, Passes .standard torn "account"
      (Sample.accounts (field "open") rules) ⟨"first", 1, "account", field "open", rules,
        ⟨10, 40, by decide⟩⟩ trigger := fun rules => ⟨_, rfl, rfl, rfl, rfl⟩
  have stop : Stop .standard torn "account" (Sample.accounts (field "absent") [broken])
      (.triggerEvaluation (.environment (.notFound .payloadField "absent")) _) :=
    .trigger rfl rfl (.noTruth rfl (.failed rfl))
  refine ⟨?_, ?_, _, fun rules =>
    ((run_decided .standard torn "account" _).2.1 _ stop).2 rules⟩
  · obtain ⟨trigger, passes⟩ := passes [hit, failed, number]
    have steady : ∀ rule ∈ [hit, failed, number],
        Evaluator.fault? .standard torn rule.formula = none := by
      simp only [List.forall_mem_cons, ← Evaluator.exists_evaluate_eq_ok_iff]
      exact ⟨⟨_, rfl⟩, ⟨_, rfl⟩, ⟨_, rfl⟩, nofun⟩
    obtain ⟨record, ran⟩ :=
      ((run_decided .standard torn "account" _).2.2.1 _ _ passes).1.mpr steady
    cases ran
    exact ⟨_, rfl, by decide, by decide, by decide⟩
  · obtain ⟨trigger, passes⟩ := passes [hit, failed, broken]
    refine (((run_decided .standard torn "account" _).2.2.1 _ _ passes).2.1 _).mpr
      ⟨_, ⟨[hit, failed], broken, [], rfl, ?_, Evaluator.evaluate_eq_error_iff.mp rfl⟩, rfl⟩
    simp only [List.forall_mem_cons, ← Evaluator.exists_evaluate_eq_ok_iff]
    exact ⟨⟨_, rfl⟩, ⟨_, rfl⟩, nofun⟩

end Scenario

end RiskRules
