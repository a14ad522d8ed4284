import Mathlib.Data.Set.List
import RiskRules.Proofs.Evaluation

/-!
What nodes come to. A function reads of its arguments the values that their records have
(`NamedValue`, `Arguments.value_eq_ok_iff`), and unnamed arguments cannot be read as soon as one of
them has failed (`Arguments.valuesFrom_eq_error_iff`). A node has a value exactly if its function is
enabled and comes to something on the records of the node's children
(`Evaluator.outcome_eq_ok_iff`), and then its function has made the value or a lookup was answered
with it (`Evaluator.makes_or_answers_of_apply`).
-/

namespace RiskRules

/-! ### Parts of values -/

namespace Value

variable {v : Value}

theorem bool?_eq_some_iff {b : Bool} : v.bool? = some b ↔ v = .bool b := by
  cases v <;> simp [bool?]

theorem int?_eq_some_iff {i : Int64} : v.int? = some i ↔ v = .int i := by
  cases v <;> simp [int?]

theorem string?_eq_some_iff {text : String} : v.string? = some text ↔ v = .string text := by
  cases v <;> simp [string?]

theorem timestamp?_eq_some_iff {t : Timestamp} : v.timestamp? = some t ↔ v = .timestamp t := by
  cases v <;> simp [timestamp?]

theorem score?_eq_some_iff {s : ScoreResult} : v.score? = some s ↔ v = .score s := by
  cases v <;> simp [score?]

end Value

/-! ### Reading arguments -/

/-- The record of a name has a value. -/
def NamedValue (named : List (String × Evaluation)) (name : String) (v : Value) : Prop :=
  ∃ record, Keyed.get? name named = some record ∧ record.outcome = .ok v

namespace Arguments

variable {func : Func} {children : List Evaluation} {named : List (String × Evaluation)}
  {name argument expected : String} {v : Value}

theorem optional_eq_ok_iff {found : Option Value} :
    optional ⟨func, children, named⟩ name = .ok found ↔
      (Keyed.get? name named = none ∧ found = none) ∨
        ∃ v, NamedValue named name v ∧ found = some v := by
  simp only [optional, NamedValue]
  cases Keyed.get? name named with
  | none => simp [@eq_comm _ found]
  | some record => cases outcome : record.outcome <;> simp [outcome, @eq_comm _ found]

theorem value_eq_ok_iff : value ⟨func, children, named⟩ name = .ok v ↔ NamedValue named name v := by
  simp only [value, bind_eq_ok_iff, optional_eq_ok_iff]
  constructor
  · rintro ⟨_, ⟨-, rfl⟩ | ⟨found, given, rfl⟩, same⟩
    · cases same
    · cases same
      exact given
  · exact fun given => ⟨some v, .inr ⟨v, given, rfl⟩, rfl⟩

theorem expect_eq_ok_iff {α : Type} {part : Value → Option α} {x : α} :
    expect func argument expected part v = .ok x ↔ part v = some x := by
  rw [expect]
  cases part v <;> simp

theorem bool_eq_ok_iff {b : Bool} :
    bool ⟨func, children, named⟩ name = .ok b ↔ NamedValue named name (.bool b) := by
  simp only [bool, bind_eq_ok_iff, value_eq_ok_iff, expect_eq_ok_iff, Value.bool?_eq_some_iff,
    exists_eq_right]

theorem int_eq_ok_iff {i : Int64} :
    int ⟨func, children, named⟩ name = .ok i ↔ NamedValue named name (.int i) := by
  simp only [int, bind_eq_ok_iff, value_eq_ok_iff, expect_eq_ok_iff, Value.int?_eq_some_iff,
    exists_eq_right]

theorem string_eq_ok_iff {text : String} :
    string ⟨func, children, named⟩ name = .ok text ↔ NamedValue named name (.string text) := by
  simp only [string, bind_eq_ok_iff, value_eq_ok_iff, expect_eq_ok_iff, Value.string?_eq_some_iff,
    exists_eq_right]

theorem timestamp_eq_ok_iff {t : Timestamp} :
    timestamp ⟨func, children, named⟩ name = .ok t ↔ NamedValue named name (.timestamp t) := by
  simp only [timestamp, bind_eq_ok_iff, value_eq_ok_iff, expect_eq_ok_iff,
    Value.timestamp?_eq_some_iff, exists_eq_right]

theorem expectFrom_eq_ok_iff {α : Type} {part : Value → Option α} {index : Nat}
    {values : List Value} {parts : List α} :
    expectFrom func expected part index values = .ok parts ↔
      List.Forall₂ (fun v x => part v = some x) values parts := by
  induction values generalizing index parts with
  | nil =>
    rw [expectFrom, List.forall₂_nil_left_iff, Except.ok.injEq]
    exact eq_comm
  | cons v rest ih =>
    rw [expectFrom, List.forall₂_cons_left_iff]
    simp only [bind_eq_ok_iff, pure_eq_ok_iff, expect_eq_ok_iff, ih, exists_and_left,
      @eq_comm _ parts]

/-- The scores of a function are those that its unnamed arguments have come to. -/
theorem scores_eq_ok_iff {results : List ScoreResult} :
    scores ⟨func, children, named⟩ = .ok results ↔
      List.Forall₂ (fun record s => record.outcome = .ok (.score s)) children results := by
  have all_scores (values : List Value) :
      List.Forall₂ (fun v s => v.score? = some s) values results ↔
        values = results.map Value.score := by
    rw [← List.forall₂_eq_eq_eq, List.forall₂_map_right_iff]
    simp only [Value.score?_eq_some_iff]
  simp only [scores, positional, bind_eq_ok_iff, valuesFrom_eq_ok_iff, expectFrom_eq_ok_iff,
    all_scores, exists_eq_right, List.forall₂_map_right_iff]

/-- Unnamed arguments cannot be read exactly if one of them has failed, and then the first of those
is named. -/
theorem valuesFrom_eq_error_iff {index : Nat} {records : List Evaluation} {e : EvaluationError} :
    valuesFrom func index records = .error e ↔ ∃ before record later,
      records = before ++ record :: later ∧ (∀ earlier ∈ before, earlier.succeeded = true) ∧
        record.succeeded = false ∧
          e = .argumentFailed func (positionName (index + before.length)) := by
  induction records generalizing index with
  | nil => simp [valuesFrom]
  | cons first rest ih =>
    rw [valuesFrom]
    cases came_to : first.outcome with
    | error e' =>
      have failed := Evaluation.succeeded_eq_false_iff.mpr ⟨e', came_to⟩
      simp only [Except.error.injEq]
      constructor
      · rintro rfl
        exact ⟨[], first, rest, rfl, List.forall_mem_nil _, failed, rfl⟩
      · rintro ⟨before, record, later, split, earlier, -, rfl⟩
        cases before with
        | nil => rfl
        | cons head before =>
          obtain ⟨rfl, -⟩ := List.cons.inj split
          rw [earlier first List.mem_cons_self] at failed
          cases failed
    | ok v =>
      have succeeded := Evaluation.exists_outcome_eq_ok_iff.mp ⟨v, came_to⟩
      simp only [bind_eq_error_iff, pure, Except.pure, reduceCtorEq, and_false, exists_false,
        or_false, ih]
      constructor
      · rintro ⟨before, record, later, rfl, earlier, failed, rfl⟩
        refine ⟨first :: before, record, later, rfl,
          List.forall_mem_cons.mpr ⟨succeeded, earlier⟩, failed, ?_⟩
        rw [List.length_cons, Nat.add_right_comm, Nat.add_assoc]
      · rintro ⟨before, record, later, split, earlier, failed, rfl⟩
        cases before with
        | nil =>
          obtain ⟨rfl, -⟩ := List.cons.inj split
          rw [succeeded] at failed
          cases failed
        | cons head before =>
          obtain ⟨rfl, rfl⟩ := List.cons.inj split
          refine ⟨before, record, later, rfl, (List.forall_mem_cons.mp earlier).2, failed, ?_⟩
          rw [List.length_cons, Nat.add_right_comm, Nat.add_assoc]

/-- Where whatever has come to a value has come to a score, scores cannot be read exactly if one of
the unnamed arguments has failed. -/
theorem scores_eq_error_iff {e : EvaluationError}
    (only_scores : ∀ record ∈ children, ∀ v, record.outcome = .ok v → ∃ s, v = .score s) :
    scores ⟨func, children, named⟩ = .error e ↔ ∃ before record later,
      children = before ++ record :: later ∧ (∀ earlier ∈ before, earlier.succeeded = true) ∧
        record.succeeded = false ∧ e = .argumentFailed func (positionName before.length) := by
  have unread : scores ⟨func, children, named⟩ = .error e ↔
      valuesFrom func 0 children = .error e := by
    rw [scores, bind_eq_error_iff, positional, or_iff_left]
    rintro ⟨values, read, failed⟩
    rw [valuesFrom_eq_ok_iff] at read
    have are_scores : values ∈ Set.range (List.map Value.score) := by
      rw [Set.range_list_map]
      intro v mem
      obtain ⟨record, record_mem, came_to⟩ := exists_of_mem_right read mem
      obtain ⟨s, rfl⟩ := only_scores record record_mem v came_to
      exact ⟨s, rfl⟩
    obtain ⟨results, rfl⟩ := are_scores
    have all : List.Forall₂ (fun v s => v.score? = some s) (results.map Value.score) results := by
      simp [Value.score?]
    rw [expectFrom_eq_ok_iff.mpr all] at failed
    cases failed
  simpa using unread.trans valuesFrom_eq_error_iff

end Arguments

/-! ### Outcomes -/

namespace Evaluator

open Arguments

variable {r : Registry} {env : Environment} {level : Nat} {node : Node} {e : Evaluation} {v : Value}
  {error : EvaluationError}

/-- On an allowed level a record stands over the records of the node's children. -/
theorem children_of_evaluateAt (allowed : level ≤ r.maxDepth)
    (evaluated : evaluateAt r env level node = .ok e) :
    List.Forall₂ (fun n record => evaluateAt r env (level + 1) n = .ok record)
        node.children e.children ∧
      List.Forall₂ (fun entry record => entry.1 = record.1 ∧
          evaluateAt r env (level + 1) entry.2 = .ok record.2) node.named e.named := by
  rcases evaluateAt_eq_ok_iff.mp evaluated with
    ⟨deep, -⟩ | ⟨-, cs, cs_ok, ns, ns_ok, outcome, -, rfl⟩
  · exact absurd allowed (Nat.not_le.mpr deep)
  · rw [Evaluation.ofOutcome_children, Evaluation.ofOutcome_named]
    exact ⟨cs_ok, ns_ok⟩

/-- A node on an allowed level comes to what its function makes of the records of its children. -/
theorem apply_eq_of_evaluateAt (allowed : level ≤ r.maxDepth)
    (evaluated : evaluateAt r env level node = .ok e) :
    apply r env node.literal ⟨node.func, e.children, e.named⟩ = e.outcome.mapError Halt.error := by
  rcases evaluateAt_eq_ok_iff.mp evaluated with ⟨deep, -⟩ | ⟨-, cs, -, ns, -, outcome, made, rfl⟩
  · exact absurd allowed (Nat.not_le.mpr deep)
  · rwa [Evaluation.ofOutcome_children, Evaluation.ofOutcome_named, Evaluation.ofOutcome_outcome]

/-- A node that has a value stands on an allowed level. -/
theorem allowed_of_outcome (evaluated : evaluateAt r env level node = .ok e)
    (came_to : e.outcome = .ok v) : level ≤ r.maxDepth := by
  rcases evaluateAt_eq_ok_iff.mp evaluated with ⟨-, rfl⟩ | ⟨allowed, -⟩
  · cases came_to
  · exact allowed

theorem apply_eq_ok_iff {literal : Option Value} {a : Arguments} : apply r env literal a = .ok v ↔
    r.enabled a.func = true ∧ ∃ d, demand literal a = .ok d ∧ answer env d = .ok v := by
  rw [apply, dispatch]
  cases r.enabled a.func <;> cases demand literal a <;> simp

theorem apply_eq_error_iff {literal : Option Value} {a : Arguments} :
    apply r env literal a = .error (.error error) ↔
      (r.enabled a.func = false ∧ error = .unsupportedFunction a.func) ∨
      r.enabled a.func = true ∧ (demand literal a = .error error ∨
        ∃ d, demand literal a = .ok d ∧ answer env d = .error (.error error)) := by
  rw [apply, dispatch]
  cases r.enabled a.func <;> cases demand literal a <;> simp [@eq_comm _ error]

/-- **What a node comes to.** It has a value exactly on an allowed level, if its function is enabled
and comes to something on the records of its children, and what it asks for is answered. -/
theorem outcome_eq_ok_iff (evaluated : evaluateAt r env level node = .ok e) :
    e.outcome = .ok v ↔ level ≤ r.maxDepth ∧ r.enabled node.func = true ∧
      ∃ d, demand node.literal ⟨node.func, e.children, e.named⟩ = .ok d ∧ answer env d = .ok v := by
  rw [← apply_eq_ok_iff (a := ⟨node.func, e.children, e.named⟩)]
  constructor
  · intro came_to
    have allowed := allowed_of_outcome evaluated came_to
    rw [apply_eq_of_evaluateAt allowed evaluated, came_to]
    exact ⟨allowed, rfl⟩
  · rintro ⟨allowed, applied⟩
    rw [apply_eq_of_evaluateAt allowed evaluated] at applied
    cases came_to : e.outcome <;> rw [came_to] at applied <;> cases applied
    rfl

/-- A node on an allowed level fails as its function is not enabled or objects to the records of its
children, or as what it asks for fails. -/
theorem outcome_eq_error_iff (allowed : level ≤ r.maxDepth)
    (evaluated : evaluateAt r env level node = .ok e) : e.outcome = .error error ↔
      (r.enabled node.func = false ∧ error = .unsupportedFunction node.func) ∨
      r.enabled node.func = true ∧
        (demand node.literal ⟨node.func, e.children, e.named⟩ = .error error ∨
          ∃ d, demand node.literal ⟨node.func, e.children, e.named⟩ = .ok d ∧
            answer env d = .error (.error error)) := by
  rw [← apply_eq_error_iff (a := ⟨node.func, e.children, e.named⟩),
    apply_eq_of_evaluateAt allowed evaluated]
  cases e.outcome <;> simp [Except.mapError]

end Evaluator

/-! ### Where values come from -/

theorem Evaluation.mem_value_of_outcome {e : Evaluation} {v : Value} (came_to : e.outcome = .ok v) :
    v ∈ e.value ∨ v = .null := by
  rw [outcome] at came_to
  split at came_to <;> cases came_to
  · exact .inl ‹_›
  · exact .inr rfl

/-- A value that some lookup is answered with. -/
inductive Environment.Answers (env : Environment) : Value → Prop where
  | payloadField {name : String} {v : Value} (found : env.payloadField name = .ok v) : Answers env v
  | listItems {name : String} {items : List Value} (found : env.listItems name = .ok items) :
    Answers env (.list items)
  | relatedField {table field : String} {path : List String} {v : Value}
    (found : env.relatedField table field path = .ok v) : Answers env v
  | variableValue {name : String} {v : Value} (found : env.variableValue name = .ok v) :
    Answers env v

namespace Evaluator

/-- A value that a function makes without a lookup. The literal apart, none is a list; a number with
a point is a finite one, and a timestamp was read from a text or moved. -/
inductive Makes (literal : Option Value) (a : Arguments) : Value → Prop where
  | literal {v : Value} (given : literal = some v) : Makes literal a v
  | bool (b : Bool) : Makes literal a (.bool b)
  | int (i : Int64) : Makes literal a (.int i)
  | float {x : Float} (finite : isFinite x = true) : Makes literal a (.float x)
  | string (s : String) : Makes literal a (.string s)
  | score (s : ScoreResult) : Makes literal a (.score s)
  | read {text : String} {t : Timestamp} (shows : Rfc3339.parse text = .ok t) :
    Makes literal a (.timestamp t)
  | moved {t moved : Timestamp} {seconds : Int} (given : a.timestamp "timestamp" = .ok t)
    (added : t.addSeconds? seconds = some moved) : Makes literal a (.timestamp moved)

section Sources

variable {r : Registry} {env : Environment} {literal : Option Value} {a : Arguments} {func : Func}
  {left right v : Value}

theorem makes_of_finite {x : Float} (ok : finite func x = .ok v) : Makes literal a v := by
  rw [finite] at ok
  split at ok
  · cases ok
    exact .float ‹_›
  · cases ok

theorem makes_of_arithmetic {exact : Int → Int → Int} {rounded : Float → Float → Float}
    (ok : arithmetic func exact rounded left right = .ok v) : Makes literal a v := by
  obtain ⟨x, -, ok⟩ := bind_eq_ok_iff.mp ok
  obtain ⟨y, -, ok⟩ := bind_eq_ok_iff.mp ok
  split at ok
  · rw [fitted] at ok
    split at ok <;> cases ok
    exact .int _
  · exact makes_of_finite ok

theorem makes_of_divide (ok : divide func left right = .ok v) : Makes literal a v := by
  obtain ⟨x, -, ok⟩ := bind_eq_ok_iff.mp ok
  obtain ⟨y, -, ok⟩ := bind_eq_ok_iff.mp ok
  split at ok
  · cases ok
  · exact makes_of_finite ok

/-- What a function comes to without a lookup, it makes. -/
theorem makes_of_demand (ok : demand literal a = .ok (.value v)) : Makes literal a v := by
  obtain ⟨func, children, named⟩ := a
  cases func <;>
    simp only [demand, bind_eq_ok_iff, pure_eq_ok_iff, Demand.value.injEq, reduceCtorEq, and_false,
      exists_false] at ok
  case constant =>
    cases literal with
    | none => cases ok
    | some value =>
      cases ok
      exact .literal rfl
  case add | subtract | multiply =>
    obtain ⟨_, -, _, -, _, made, rfl⟩ := ok
    exact makes_of_arithmetic made
  case divide =>
    obtain ⟨_, -, _, -, _, made, rfl⟩ := ok
    exact makes_of_divide made
  case and | or | not | isNull =>
    obtain ⟨_, -, rfl⟩ := ok
    exact .bool _
  case equal | notEqual | isInList | isNotInList | stringContains | stringStartsWith |
      stringEndsWith =>
    obtain ⟨_, -, _, -, rfl⟩ := ok
    exact .bool _
  case greater | greaterOrEqual | less | lessOrEqual =>
    obtain ⟨_, -, _, -, _, -, rfl⟩ := ok
    exact .bool _
  case stringLower =>
    obtain ⟨_, -, rfl⟩ := ok
    exact .string _
  case parseTimestamp =>
    obtain ⟨_, -, ok⟩ := ok
    split at ok <;> cases ok
    exact .read ‹_›
  case timeAdd =>
    obtain ⟨_, given, _, -, ok⟩ := ok
    split at ok <;> cases ok
    exact .moved given ‹_›
  case secondsBetween =>
    obtain ⟨_, -, _, -, rfl⟩ := ok
    exact .int _
  case scoreComputation =>
    obtain ⟨_, -, _, -, _, -, ok⟩ := ok
    split at ok <;> obtain ⟨_, -, ok⟩ := bind_eq_ok_iff.mp ok <;> cases ok <;> exact .score _
  case switch =>
    obtain ⟨_, -, rfl⟩ := ok
    exact .score _

theorem answers_of_lookedUp {α : Type} {wrap : α → Value}
    {found : Except (Halt EnvironmentError) α} (ok : lookedUp wrap found = .ok v) :
    ∃ x, found = .ok x ∧ wrap x = v := by
  rw [lookedUp.eq_def] at ok
  split at ok <;> cases ok
  exact ⟨_, rfl, rfl⟩

/-- What a demand is met with is its own value, or the answer to a lookup. -/
theorem answers_of_answer {d : Demand} (ok : answer env d = .ok v) :
    d = .value v ∨ env.Answers v := by
  cases d with
  | value v =>
    cases ok
    exact .inl rfl
  | payloadField name =>
    obtain ⟨v, found, rfl⟩ := answers_of_lookedUp ok
    exact .inr (.payloadField found)
  | listItems name =>
    obtain ⟨items, found, rfl⟩ := answers_of_lookedUp ok
    exact .inr (.listItems found)
  | relatedField table field path =>
    obtain ⟨v, found, rfl⟩ := answers_of_lookedUp ok
    exact .inr (.relatedField found)
  | variableValue name =>
    obtain ⟨v, found, rfl⟩ := answers_of_lookedUp ok
    exact .inr (.variableValue found)

/-- **Where values come from.** What a node comes to is made by its function or looked up. -/
theorem makes_or_answers_of_apply (ok : apply r env literal a = .ok v) :
    Makes literal a v ∨ env.Answers v := by
  obtain ⟨-, d, demanded, answered⟩ := apply_eq_ok_iff.mp ok
  rcases answers_of_answer answered with rfl | looked_up
  · exact .inl (makes_of_demand demanded)
  · exact .inr looked_up

end Sources

end Evaluator

end RiskRules
