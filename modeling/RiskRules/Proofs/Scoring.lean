import RiskRules.Proofs.Faults
import RiskRules.Proofs.Results
import RiskRules.Proofs.Signed64
import RiskRules.Scoring

/-!
Scoring as a whole. A rule either has an entry, the score at the root of its evaluation, or offends:
a fault breaks its evaluation off, its root fails, or its root is something else than a score
(`Scoring.Entry`, `Scoring.Offence`). A ruleset is scored from the entries of all of its rules, and
otherwise the first rule that offends decides on the error (`Scoring.execute_decided`).
-/

namespace RiskRules

namespace Scoring

variable {r : Registry} {env : Environment} {ruleset : Ruleset} {rule : Rule} {entry : RuleScore}
  {record : ScoringRecord} {e : ScoringError}

/-! ### One rule -/

/-- The entry of a rule that has a score: its identity, its evaluation, and the score at its
root. -/
structure Entry (r : Registry) (env : Environment) (rule : Rule) (entry : RuleScore) : Prop where
  stableId : entry.stableId = rule.stableId
  name : entry.name = rule.name
  evaluated : Evaluator.evaluate r env rule.body = .ok entry.evaluation
  scored : entry.evaluation.outcome = .ok (.score entry.result)

/-- Why a rule has no score. -/
inductive Offence (r : Registry) (env : Environment) (rule : Rule) : ScoringError → Prop where
  | broken {f : Fault} (fault : Evaluator.fault? r env rule.body = some f) :
    Offence r env rule (.internalFailure f)
  | failed {evaluation : Evaluation} {e : EvaluationError}
    (evaluated : Evaluator.evaluate r env rule.body = .ok evaluation)
    (failure : evaluation.outcome = .error e) :
    Offence r env rule (.ruleEvaluation rule.stableId e)
  | noScore {evaluation : Evaluation} {value : Value}
    (evaluated : Evaluator.evaluate r env rule.body = .ok evaluation)
    (found : evaluation.outcome = .ok value) (other : ∀ s, value ≠ .score s) :
    Offence r env rule
      (.ruleEvaluation rule.stableId (.typeMismatch evaluation.func "score" value.kind.name))

theorem scoreOf_eq_ok_iff {evaluation : Evaluation} {s : ScoreResult} :
    scoreOf evaluation = .ok s ↔ evaluation.outcome = .ok (.score s) := by
  unfold scoreOf
  split
  · rename_i found outcome
    simp [outcome]
  · rename_i other outcome
    simpa [outcome] using fun same => other s same
  · rename_i outcome
    simp [outcome]

theorem scoreOf_eq_error_iff {evaluation : Evaluation} {e : EvaluationError} :
    scoreOf evaluation = .error e ↔ evaluation.outcome = .error e ∨
      ∃ v, evaluation.outcome = .ok v ∧ (∀ s, v ≠ .score s) ∧
        e = .typeMismatch evaluation.func "score" v.kind.name := by
  unfold scoreOf
  split
  · rename_i found outcome
    simp [outcome]
  · rename_i v other outcome
    simp only [outcome, Except.error.injEq, reduceCtorEq, false_or, Except.ok.injEq]
    constructor
    · rintro rfl
      exact ⟨v, rfl, other, rfl⟩
    · rintro ⟨_, rfl, -, rfl⟩
      rfl
  · rename_i outcome
    simp [outcome]

theorem scoreRule_eq_ok_iff : scoreRule r env rule = .ok entry ↔ Entry r env rule entry := by
  constructor
  · intro given
    rw [scoreRule] at given
    cases evaluated : Evaluator.evaluate r env rule.body with
    | error f => rw [evaluated] at given; cases given
    | ok evaluation =>
      rw [evaluated] at given
      cases scored : scoreOf evaluation with
      | error e => simp only [scored] at given; cases given
      | ok s =>
        simp only [scored] at given
        cases given
        exact ⟨rfl, rfl, evaluated, scoreOf_eq_ok_iff.mp scored⟩
  · rintro ⟨stableId, name, evaluated, scored⟩
    rw [scoreRule, evaluated]
    simp only [scoreOf_eq_ok_iff.mpr scored]
    rw [← stableId, ← name]

theorem scoreRule_eq_error_iff : scoreRule r env rule = .error e ↔ Offence r env rule e := by
  constructor
  · intro failed
    rw [scoreRule] at failed
    cases evaluated : Evaluator.evaluate r env rule.body with
    | error f =>
      rw [evaluated] at failed
      cases failed
      exact .broken (Evaluator.evaluate_eq_error_iff.mp evaluated)
    | ok evaluation =>
      rw [evaluated] at failed
      cases scored : scoreOf evaluation with
      | ok s => simp only [scored] at failed; cases failed
      | error e =>
        simp only [scored] at failed
        cases failed
        obtain failure | ⟨v, found, other, rfl⟩ := scoreOf_eq_error_iff.mp scored
        · exact .failed evaluated failure
        · exact .noScore evaluated found other
  · intro offence
    rw [scoreRule]
    cases offence with
    | broken fault => rw [Evaluator.evaluate_eq_error_iff.mpr fault]
    | failed evaluated failure =>
      rw [evaluated]
      simp only [scoreOf_eq_error_iff.mpr (.inl failure)]
    | noScore evaluated found other =>
      rw [evaluated]
      simp only [scoreOf_eq_error_iff.mpr (.inr ⟨_, found, other, rfl⟩)]

/-- A rule that does not offend has an entry. -/
theorem exists_entry_iff :
    (∃ entry, Entry r env rule entry) ↔ ∀ e, ¬Offence r env rule e := by
  simp only [← scoreRule_eq_ok_iff, ← scoreRule_eq_error_iff]
  cases scoreRule r env rule <;> simp

/-! ### Putting entries together -/

/-- The scores of the entries that triggered. -/
def triggered (entries : List RuleScore) : List ScoreResult :=
  (entries.map RuleScore.result).filter ScoreResult.triggered

/-- The modifiers of the entries that triggered. -/
def modifiers (entries : List RuleScore) : List Int64 :=
  (triggered entries).map ScoreResult.modifier

/-- The floors of the entries that triggered. -/
def floors (entries : List RuleScore) : List Int64 :=
  (triggered entries).map ScoreResult.floor

/-- The figures of a record are those of its entries: the sum of the modifiers from left to right,
each sum kept within 64 bits, and the greatest of 0 and the floors. -/
structure Totals (thresholds : List Int64) (record : ScoringRecord) : Prop where
  modifier : record.modifier = (modifiers record.rules).foldl Signed64.addClamped 0
  floor_mem : record.floor ∈ 0 :: floors record.rules
  floor_le : ∀ floor ∈ 0 :: floors record.rules, floor ≤ record.floor
  score : record.score = finalScore record.modifier record.floor thresholds

theorem foldl_addModifier (results : List ScoreResult) (sum : Int64) :
    results.foldl addModifier sum =
      ((results.filter ScoreResult.triggered).map ScoreResult.modifier).foldl
        Signed64.addClamped sum := by
  induction results generalizing sum with
  | nil => rfl
  | cons s rest ih =>
    rw [List.foldl_cons, ih, addModifier, List.filter_cons]
    split <;> rfl

theorem foldl_raiseFloor (results : List ScoreResult) (floor : Int64) :
    results.foldl raiseFloor floor =
      ((results.filter ScoreResult.triggered).map ScoreResult.floor).foldl max floor := by
  induction results generalizing floor with
  | nil => rfl
  | cons s rest ih =>
    rw [List.foldl_cons, ih, raiseFloor, List.filter_cons]
    split <;> rfl

/-- A greatest word is one of the words. -/
theorem foldl_max_mem (words : List Int64) (start : Int64) :
    words.foldl max start ∈ start :: words := by
  induction words generalizing start with
  | nil => exact List.mem_cons_self
  | cons word rest ih =>
    rw [List.foldl_cons]
    obtain here | later := List.mem_cons.mp (ih (max start word))
    · rw [here]
      obtain left | right := Signed64.max_eq_or start word
      · rw [left]
        exact List.mem_cons_self
      · rw [right]
        exact List.mem_cons_of_mem _ List.mem_cons_self
    · exact List.mem_cons_of_mem _ (List.mem_cons_of_mem _ later)

theorem le_foldl_max {words : List Int64} {start word : Int64} (mem : word ∈ start :: words) :
    word ≤ words.foldl max start := by
  induction words generalizing start word with
  | nil =>
    rw [List.mem_singleton.mp mem]
    exact Int64.le_refl start
  | cons first rest ih =>
    have raised : max start first ≤ (first :: rest).foldl max start := ih List.mem_cons_self
    obtain rfl | later := List.mem_cons.mp mem
    · exact Int64.le_trans (Signed64.le_max_left word first) raised
    · obtain rfl | later := List.mem_cons.mp later
      · exact Int64.le_trans (Signed64.le_max_right start word) raised
      · exact ih (List.mem_cons_of_mem _ later)

theorem totals_total (thresholds : List Int64) (entries : List RuleScore) :
    Totals thresholds (total thresholds entries) where
  modifier := foldl_addModifier _ 0
  floor_mem := by
    rw [total, foldl_raiseFloor]
    exact foldl_max_mem _ 0
  floor_le floor mem := by
    rw [total, foldl_raiseFloor]
    exact le_foldl_max mem
  score := rfl

/-- The entries leave only one set of figures. -/
theorem Totals.eq_total {thresholds : List Int64} (totals : Totals thresholds record) :
    record = total thresholds record.rules := by
  have given := totals_total thresholds record.rules
  have modifier : record.modifier = (total thresholds record.rules).modifier :=
    totals.modifier.trans given.modifier.symm
  -- each of the two floors is among the floors that the other is not below
  have floor : record.floor = (total thresholds record.rules).floor :=
    Int64.le_antisymm (given.floor_le _ totals.floor_mem) (totals.floor_le _ given.floor_mem)
  have score : record.score = (total thresholds record.rules).score := by
    rw [totals.score, given.score, modifier, floor]
  cases record
  simp_all [total]

/-! ### A ruleset -/

theorem execute_eq_ok_iff : execute r env ruleset = .ok record ↔
    List.Forall₂ (Entry r env) ruleset.rules record.rules ∧ Totals ruleset.thresholds record := by
  have entries_iff : ∀ entries, ruleset.rules.mapM (scoreRule r env) = .ok entries ↔
      List.Forall₂ (Entry r env) ruleset.rules entries := by
    intro entries
    rw [mapM_eq_ok_iff]
    simp only [scoreRule_eq_ok_iff]
  constructor
  · intro executed
    rw [execute] at executed
    split at executed
    · rename_i entries scored
      cases executed
      exact ⟨(entries_iff entries).mp scored, totals_total _ _⟩
    · cases executed
  · rintro ⟨entries, totals⟩
    rw [execute, (entries_iff record.rules).mpr entries]
    exact congrArg Except.ok totals.eq_total.symm

theorem execute_eq_error_iff : execute r env ruleset = .error e ↔
    ∃ before rule later, ruleset.rules = before ++ rule :: later ∧
      (∀ earlier ∈ before, ∀ e, ¬Offence r env earlier e) ∧ Offence r env rule e := by
  have failed_iff : execute r env ruleset = .error e ↔
      ruleset.rules.mapM (scoreRule r env) = .error e := by
    rw [execute]
    split <;> simp_all
  rw [failed_iff, mapM_eq_error_iff]
  simp only [scoreRule_eq_ok_iff, exists_entry_iff, scoreRule_eq_error_iff]

/-- A ruleset is scored exactly if none of its rules offends. -/
theorem exists_execute_eq_ok_iff : (∃ record, execute r env ruleset = .ok record) ↔
    ∀ rule ∈ ruleset.rules, ∀ e, ¬Offence r env rule e := by
  simp only [← exists_entry_iff, ← scoreRule_eq_ok_iff, ← exists_mapM_eq_ok_iff]
  rw [execute]
  split <;> simp_all

/-- Rules behind one that offends do not matter. -/
theorem execute_eq_of_offence {before later others : List Rule}
    (split : ruleset.rules = before ++ rule :: later) (offence : Offence r env rule e) :
    execute r env { ruleset with rules := before ++ rule :: others } = execute r env ruleset := by
  rw [execute, execute, split,
    mapM_eq_of_error (scoreRule_eq_error_iff.mpr offence) before others later]

/-- **All or nothing, and the first offender.** A ruleset has exactly the record of its rules'
entries, one for each in their order, with the figures that these give. It has one exactly if no
rule offends, and otherwise the first rule that does decides on the error, in which the text of a
fault is told; whatever rules stand behind an offender, nothing changes. -/
theorem execute_decided (r : Registry) (env : Environment) (ruleset : Ruleset) :
    (∀ record, execute r env ruleset = .ok record ↔
      List.Forall₂ (Entry r env) ruleset.rules record.rules ∧
        Totals ruleset.thresholds record) ∧
    ((∃ record, execute r env ruleset = .ok record) ↔
      ∀ rule ∈ ruleset.rules, ∀ e, ¬Offence r env rule e) ∧
    (∀ e, execute r env ruleset = .error e ↔
      ∃ before rule later, ruleset.rules = before ++ rule :: later ∧
        (∀ earlier ∈ before, ∀ e, ¬Offence r env earlier e) ∧ Offence r env rule e) ∧
    (∀ before rule later e, ruleset.rules = before ++ rule :: later → Offence r env rule e →
      ∀ others, execute r env { ruleset with rules := before ++ rule :: others } =
        execute r env ruleset) ∧
    ∀ f : Fault, (ScoringError.internalFailure f).message =
      "internal evaluation failure: " ++ f.text.getD "non-string panic payload" :=
  ⟨fun _ => execute_eq_ok_iff, exists_execute_eq_ok_iff, fun _ => execute_eq_error_iff,
    fun _ _ _ _ split offence _ => execute_eq_of_offence split offence, fun _ => rfl⟩

/-! ### Sample rules -/

open Evaluator.Sample

namespace Sample

/-- A rule that adds a modifier if its condition is true. -/
def adding (name : String) (condition : Node) (modifier : Int64) : Rule :=
  ⟨name, name, "", .make .scoreComputation none []
    [("condition", condition), ("modifier", .make .constant (some (.int modifier)) [] [])]⟩

/-- The rules for accounts, with one threshold. -/
def accounts (threshold : Int64) (rules : List Rule) : Ruleset :=
  ⟨⟨"acme", "account"⟩, 1, .committed, "accounts", [threshold], .ofSeconds 0, rules⟩

end Sample

/-- A field that is missing makes the rule fail that reads it, but not before a fault in a later
operand; and behind a rule that fails, the fault of another does not matter. -/
theorem execute_decided_torn :
    let known := Sample.adding "known" (field "open") 20
    let broken := Sample.adding "broken"
      (.make .and none [field "absent", field "torn"] []) 20
    let failed := Sample.adding "failed" (field "absent") 20
    (∃ record, execute .standard torn (Sample.accounts 30 [known, known]) = .ok record ∧
      record.modifier = 40 ∧ record.score = 2) ∧
    execute .standard torn (Sample.accounts 30 [known, broken, failed]) =
      .error (.internalFailure ⟨some "connection reset"⟩) ∧
    ∀ others, execute .standard torn (Sample.accounts 30 (known :: failed :: others)) =
      .error (.ruleEvaluation "failed" (.argumentFailed .scoreComputation "condition")) := by
  intro known broken failed
  have scored : ∀ e, ¬Offence .standard torn known e :=
    exists_entry_iff.mp ⟨_, scoreRule_eq_ok_iff.mp rfl⟩
  have breaks : Offence .standard torn broken (.internalFailure ⟨some "connection reset"⟩) :=
    .broken (Evaluator.evaluate_eq_error_iff.mp rfl)
  have fails : Offence .standard torn failed
      (.ruleEvaluation "failed" (.argumentFailed .scoreComputation "condition")) :=
    .failed rfl rfl
  refine ⟨?_, ?_, fun others => ?_⟩
  · obtain ⟨record, executed⟩ :=
      (execute_decided .standard torn (Sample.accounts 30 [known, known])).2.1.mpr
        (List.forall_mem_cons.mpr ⟨scored, List.forall_mem_singleton.mpr scored⟩)
    cases executed
    exact ⟨_, rfl, by decide, by decide⟩
  · exact ((execute_decided .standard torn _).2.2.1 _).mpr
      ⟨[known], broken, [failed], rfl, by simpa using scored, breaks⟩
  · exact ((execute_decided .standard torn (Sample.accounts 30 [known, failed])).2.2.2.1
      [known] failed [] _ rfl fails others).trans rfl

end Scoring

end RiskRules
