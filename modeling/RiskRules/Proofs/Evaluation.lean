import Mathlib.Data.List.Forall2
import RiskRules.Evaluator
import RiskRules.Proofs.Construction

/-!
What an evaluation leaves behind. A node's record stands over the records of its children, in their
order and under their names (`Evaluator.evaluateAt_eq_ok_iff`), and a function that comes to a value
has read all of its arguments: every record under a record with a value has a value itself
(`Evaluator.arguments_ok_of_demand`). Only a fault in a lookup keeps an evaluation from leaving a
record (`Evaluator.exists_evaluate`).
-/

namespace RiskRules

/-! ### Lookups without faults -/

/-- No lookup ends in a fault. -/
structure Environment.Steady (env : Environment) : Prop where
  payloadField : ∀ name f, env.payloadField name ≠ .error (.fault f)
  listItems : ∀ name f, env.listItems name ≠ .error (.fault f)
  relatedField : ∀ table field path f, env.relatedField table field path ≠ .error (.fault f)
  variableValue : ∀ name f, env.variableValue name ≠ .error (.fault f)

theorem Facts.steady (facts : Facts) : facts.toEnvironment.Steady := by
  have answered : ∀ {α : Type} (lookup : LookupKind) (name : String) (found : Option α) (f : Fault),
      answer lookup name found ≠ .error (.fault f) := by
    intro α lookup name found f
    cases found <;> exact nofun
  exact ⟨fun _ => answered _ _ _, fun _ => answered _ _ _, fun _ _ _ => answered _ _ _,
    fun _ => answered _ _ _⟩

/-! ### Records -/

namespace Evaluation

mutual

/-- All records in a record, each before its children's, unnamed children before named ones. -/
def records : Evaluation → List Evaluation
  | ⟨func, value, error, children, named⟩ =>
    ⟨func, value, error, children, named⟩ :: (recordsAll children ++ recordsNamed named)

/-- All records in the records. -/
def recordsAll : List Evaluation → List Evaluation
  | [] => []
  | e :: rest => records e ++ recordsAll rest

/-- All records in the named records. -/
def recordsNamed : List (String × Evaluation) → List Evaluation
  | [] => []
  | (_, e) :: rest => records e ++ recordsNamed rest

end

variable {e part : Evaluation}

theorem mem_recordsAll {es : List Evaluation} :
    part ∈ recordsAll es ↔ ∃ e ∈ es, part ∈ e.records := by
  induction es with
  | nil => simp [recordsAll]
  | cons head rest ih => simp [recordsAll, ih]

theorem mem_recordsNamed {entries : List (String × Evaluation)} :
    part ∈ recordsNamed entries ↔ ∃ entry ∈ entries, part ∈ entry.2.records := by
  induction entries with
  | nil => simp [recordsNamed]
  | cons head rest ih => obtain ⟨name, e⟩ := head; simp [recordsNamed, ih]

/-- The records in a record are itself and those in its children. -/
theorem mem_records : part ∈ e.records ↔ part = e ∨ (∃ child ∈ e.children, part ∈ child.records) ∨
    ∃ entry ∈ e.named, part ∈ entry.2.records := by
  obtain ⟨func, value, error, children, named⟩ := e
  simp [records, mem_recordsAll, mem_recordsNamed]

theorem sizeOf_lt_of_mem_children (mem : part ∈ e.children) : sizeOf part < sizeOf e := by
  have smaller := List.sizeOf_lt_of_mem mem
  obtain ⟨func, value, error, children, named⟩ := e
  simp only [Evaluation.mk.sizeOf_spec]
  simp only at smaller
  omega

theorem sizeOf_lt_of_mem_named {entry : String × Evaluation} (mem : entry ∈ e.named) :
    sizeOf entry.2 < sizeOf e := by
  have smaller := List.sizeOf_lt_of_mem mem
  obtain ⟨func, value, error, children, named⟩ := e
  obtain ⟨name, child⟩ := entry
  simp only [Evaluation.mk.sizeOf_spec]
  simp only [Prod.mk.sizeOf_spec] at smaller
  omega

/-- What holds of a record once it holds of its children's records holds of all. -/
theorem induct {motive : Evaluation → Prop}
    (step : ∀ e : Evaluation, (∀ child ∈ e.children, motive child) →
      (∀ entry ∈ e.named, motive entry.2) → motive e) (e : Evaluation) : motive e :=
  step e
    (fun child mem =>
      have := sizeOf_lt_of_mem_children mem
      induct step child)
    (fun entry mem =>
      have := sizeOf_lt_of_mem_named mem
      induct step entry.2)
termination_by sizeOf e

theorem self_mem_records (e : Evaluation) : e ∈ e.records :=
  mem_records.mpr (.inl rfl)

/-- What is in a record is in all records that the record is in. -/
theorem mem_records_trans {record : Evaluation} (within : part ∈ record.records)
    (mem : record ∈ e.records) : part ∈ e.records := by
  induction e using Evaluation.induct with
  | step e children_hold named_hold =>
    rcases mem_records.mp mem with rfl | ⟨child, child_mem, mem⟩ | ⟨entry, entry_mem, mem⟩
    · exact within
    · exact mem_records.mpr (.inr (.inl ⟨child, child_mem, children_hold child child_mem mem⟩))
    · exact mem_records.mpr (.inr (.inr ⟨entry, entry_mem, named_hold entry entry_mem mem⟩))

mutual

/-- The errors of a record are those of the records in it. -/
theorem errors_eq_filterMap : ∀ e : Evaluation, e.errors = e.records.filterMap Evaluation.error
  | ⟨func, value, error, children, named⟩ => by
    rw [errors, records, errorsAll_eq_filterMap children, errorsNamed_eq_filterMap named]
    cases error <;> simp

theorem errorsAll_eq_filterMap :
    ∀ es : List Evaluation, errorsAll es = (recordsAll es).filterMap Evaluation.error
  | [] => rfl
  | e :: rest => by
    rw [errorsAll, recordsAll, errors_eq_filterMap e, errorsAll_eq_filterMap rest,
      List.filterMap_append]

theorem errorsNamed_eq_filterMap : ∀ entries : List (String × Evaluation),
    errorsNamed entries = (recordsNamed entries).filterMap Evaluation.error
  | [] => rfl
  | (name, e) :: rest => by
    rw [errorsNamed, recordsNamed, errors_eq_filterMap e, errorsNamed_eq_filterMap rest,
      List.filterMap_append]

end

/-- There are no errors exactly when no record has one. -/
theorem errors_eq_nil_iff : e.errors = [] ↔ ∀ part ∈ e.records, part.error = none := by
  rw [errors_eq_filterMap, List.filterMap_eq_nil_iff]

theorem exists_outcome_eq_ok_iff : (∃ v, e.outcome = .ok v) ↔ e.succeeded = true := by
  obtain ⟨func, value, error, children, named⟩ := e
  cases error <;> cases value <;> simp [outcome, succeeded]

theorem succeeded_eq_false_iff : e.succeeded = false ↔ ∃ error, e.outcome = .error error := by
  rw [← Bool.not_eq_true, ← exists_outcome_eq_ok_iff, not_ok_iff]

/-! ### Records of outcomes -/

section Outcome

variable {func : Func} {outcome : Except EvaluationError Value} {children : List Evaluation}
  {named : List (String × Evaluation)}

@[simp] theorem ofOutcome_children :
    (ofOutcome func outcome children named).children = children := by
  cases outcome <;> rfl

@[simp] theorem ofOutcome_named : (ofOutcome func outcome children named).named = named := by
  cases outcome <;> rfl

@[simp] theorem ofOutcome_outcome : (ofOutcome func outcome children named).outcome = outcome := by
  cases outcome <;> rfl

/-- A record over nothing holds no other record. -/
theorem records_ofOutcome_leaf : (ofOutcome func outcome [] []).records =
    [ofOutcome func outcome [] []] := by
  cases outcome <;> rfl

theorem ofOutcome_value_isSome_iff :
    (ofOutcome func outcome children named).value.isSome = true ↔ ∃ v, outcome = .ok v := by
  cases outcome <;> simp [ofOutcome]

theorem ofOutcome_error_eq_none_iff :
    (ofOutcome func outcome children named).error = none ↔ ∃ v, outcome = .ok v := by
  cases outcome <;> simp [ofOutcome]

end Outcome

end Evaluation

/-! ### Reading arguments -/

namespace Arguments

variable {a : Arguments} {name : String}

/-- An argument can be read: it is not there, or its record has a value. -/
def Reads (a : Arguments) (name : String) : Prop :=
  ∃ found, a.optional name = .ok found

/-- A record that can be read has not failed. -/
theorem Reads.outcome_eq_ok {record : Evaluation} (reads : a.Reads name)
    (present : Keyed.get? name a.named = some record) : ∃ v, record.outcome = .ok v := by
  obtain ⟨found, found_ok⟩ := reads
  rw [optional, present] at found_ok
  cases h : record.outcome with
  | ok v => exact ⟨v, rfl⟩
  | error e => simp [h] at found_ok

theorem reads_of_value {v : Value} (ok : a.value name = .ok v) : a.Reads name := by
  obtain ⟨found, found_ok, -⟩ := bind_eq_ok_iff.mp ok
  exact ⟨found, found_ok⟩

theorem reads_of_bool {b : Bool} (ok : a.bool name = .ok b) : a.Reads name := by
  obtain ⟨_, value_ok, -⟩ := bind_eq_ok_iff.mp ok
  exact reads_of_value value_ok

theorem reads_of_int {i : Int64} (ok : a.int name = .ok i) : a.Reads name := by
  obtain ⟨_, value_ok, -⟩ := bind_eq_ok_iff.mp ok
  exact reads_of_value value_ok

theorem reads_of_string {s : String} (ok : a.string name = .ok s) : a.Reads name := by
  obtain ⟨_, value_ok, -⟩ := bind_eq_ok_iff.mp ok
  exact reads_of_value value_ok

theorem reads_of_timestamp {t : Timestamp} (ok : a.timestamp name = .ok t) : a.Reads name := by
  obtain ⟨_, value_ok, -⟩ := bind_eq_ok_iff.mp ok
  exact reads_of_value value_ok

theorem reads_of_list {items : List Value} (ok : a.list name = .ok items) : a.Reads name := by
  obtain ⟨_, value_ok, -⟩ := bind_eq_ok_iff.mp ok
  exact reads_of_value value_ok

/-- Unnamed arguments are read as the values of their records. -/
theorem valuesFrom_eq_ok_iff {func : Func} {index : Nat} {records : List Evaluation}
    {values : List Value} :
    valuesFrom func index records = .ok values ↔
      List.Forall₂ (fun record v => record.outcome = .ok v) records values := by
  induction records generalizing index values with
  | nil =>
    rw [valuesFrom, List.forall₂_nil_left_iff, Except.ok.injEq]
    exact eq_comm
  | cons record rest ih =>
    rw [valuesFrom, List.forall₂_cons_left_iff]
    cases record.outcome with
    | error e => simp
    | ok v => simp only [bind_eq_ok_iff, pure_eq_ok_iff, ih, Except.ok.injEq, exists_and_left,
        exists_eq_left', @eq_comm _ values]

/-- Unnamed arguments are read in whole. -/
theorem outcome_eq_ok_of_valuesFrom {func : Func} {index : Nat} {records : List Evaluation}
    {values : List Value} (ok : valuesFrom func index records = .ok values) :
    ∀ record ∈ records, ∃ v, record.outcome = .ok v := by
  intro record mem
  obtain ⟨v, -, came_to⟩ := exists_of_mem_right (valuesFrom_eq_ok_iff.mp ok).flip mem
  exact ⟨v, came_to⟩

end Arguments

namespace Evaluator

open Arguments

variable {literal : Option Value} {a : Arguments} {d : Demand}

/-- A function that comes to something has read every argument that its descriptor names, also one
that does not change the result. -/
theorem reads_of_demand (ok : demand literal a = .ok d) :
    ∀ p ∈ a.func.descriptor.parameters, a.Reads p.name := by
  obtain ⟨func, children, named⟩ := a
  cases func <;> simp only [demand, bind_eq_ok_iff] at ok <;>
    simp only [Func.descriptor, Descriptor.ofNames, Descriptor.binary, Descriptor.ofList,
      List.map_cons, List.map_nil, List.forall_mem_cons, List.not_mem_nil, IsEmpty.forall_iff,
      implies_true, and_true]
  case payload | «variable» | customListAccess =>
    obtain ⟨_, text, _⟩ := ok
    exact reads_of_string text
  case databaseAccess =>
    obtain ⟨_, table, _, field, _, path, _⟩ := ok
    exact ⟨reads_of_string table, reads_of_string field, reads_of_list path⟩
  case not =>
    obtain ⟨_, operand, _⟩ := ok
    exact reads_of_bool operand
  case isNull =>
    obtain ⟨_, operand, _⟩ := ok
    exact reads_of_value operand
  case stringLower | parseTimestamp =>
    obtain ⟨_, operand, _⟩ := ok
    exact reads_of_string operand
  case isInList | isNotInList =>
    obtain ⟨_, needle, _, items, _⟩ := ok
    exact ⟨reads_of_value needle, reads_of_list items⟩
  case stringContains | stringStartsWith | stringEndsWith =>
    obtain ⟨_, haystack, _, needle, _⟩ := ok
    exact ⟨reads_of_string haystack, reads_of_string needle⟩
  case timeAdd =>
    obtain ⟨_, instant, _, seconds, _⟩ := ok
    exact ⟨reads_of_timestamp instant, reads_of_int seconds⟩
  case secondsBetween =>
    obtain ⟨_, start, _, finish, _⟩ := ok
    exact ⟨reads_of_timestamp start, reads_of_timestamp finish⟩
  case scoreComputation =>
    obtain ⟨_, condition, _, modifier, floor, found, _⟩ := ok
    exact ⟨reads_of_bool condition, reads_of_int modifier, floor, found⟩
  -- What is left are the operators of two operands.
  all_goals
    obtain ⟨_, left, _, right, _⟩ := ok
    exact ⟨reads_of_value left, reads_of_value right⟩

/-- A function of unnamed arguments that comes to something has read them all, also those behind
the one that settles the result. -/
theorem children_ok_of_demand (ok : demand literal a = .ok d)
    (variadic : a.func.descriptor.variadic ≠ none) :
    ∀ record ∈ a.children, ∃ v, record.outcome = .ok v := by
  obtain ⟨func, children, named⟩ := a
  cases func
  case and | or =>
    obtain ⟨_, bools, _⟩ := bind_eq_ok_iff.mp ok
    obtain ⟨_, positional, _⟩ := bind_eq_ok_iff.mp bools
    exact outcome_eq_ok_of_valuesFrom positional
  case switch =>
    obtain ⟨_, scores, _⟩ := bind_eq_ok_iff.mp ok
    obtain ⟨_, positional, _⟩ := bind_eq_ok_iff.mp scores
    exact outcome_eq_ok_of_valuesFrom positional
  all_goals exact absurd rfl variadic

/-- **Nothing failed under a value.** A well-shaped function that comes to something has arguments
that all have values. -/
theorem arguments_ok_of_demand (ok : demand literal a = .ok d)
    (shape : WellShaped a.func literal a.children.length (a.named.map Prod.fst))
    (ordered : Keyed.Ascending a.named) :
    (∀ record ∈ a.children, ∃ v, record.outcome = .ok v) ∧
      ∀ entry ∈ a.named, ∃ v, entry.2.outcome = .ok v := by
  constructor
  · by_cases variadic : a.func.descriptor.variadic = none
    · have none_given := List.length_eq_zero_iff.mp (shape.unnamed_none variadic)
      simp [none_given]
    · exact children_ok_of_demand ok variadic
  · intro entry mem
    have taken := shape.given_taken entry.1 (List.mem_map_of_mem mem)
    obtain ⟨p, declared, same⟩ := List.any_eq_true.mp taken
    have reads := reads_of_demand ok p declared
    rw [eq_of_beq same] at reads
    exact reads.outcome_eq_ok (ordered.get?_eq_some_iff.mpr mem)

/-! ### One level of evaluation -/

variable {r : Registry} {env : Environment} {level : Nat} {e : Evaluation}

theorem record_eq_ok_iff {result : Except (Halt EvaluationError) Value} :
    record a result = .ok e ↔ ∃ outcome : Except EvaluationError Value,
      result = outcome.mapError Halt.error ∧ e = .ofOutcome a.func outcome a.children a.named := by
  constructor
  · intro recorded
    match result, recorded with
    | .ok v, recorded => exact ⟨.ok v, rfl, (Except.ok.inj recorded).symm⟩
    | .error (.error err), recorded => exact ⟨.error err, rfl, (Except.ok.inj recorded).symm⟩
  · rintro ⟨outcome, rfl, rfl⟩
    cases outcome <;> rfl

theorem evaluateAll_eq_mapM (nodes : List Node) :
    evaluateAll r env level nodes = nodes.mapM (evaluateAt r env level) := by
  induction nodes with
  | nil => rfl
  | cons head rest ih => rw [evaluateAll, List.mapM_cons, ih]

theorem evaluateNamed_eq_mapM (entries : List (String × Node)) :
    evaluateNamed r env level entries =
      entries.mapM fun entry => (entry.1, ·) <$> evaluateAt r env level entry.2 := by
  induction entries with
  | nil => rfl
  | cons head rest ih => rw [evaluateNamed, List.mapM_cons, ih, bind_map_left]

theorem evaluateAll_eq_ok_iff {nodes : List Node} {es : List Evaluation} :
    evaluateAll r env level nodes = .ok es ↔
      List.Forall₂ (fun node e => evaluateAt r env level node = .ok e) nodes es := by
  rw [evaluateAll_eq_mapM, mapM_eq_ok_iff]

theorem evaluateNamed_eq_ok_iff {entries : List (String × Node)}
    {es : List (String × Evaluation)} : evaluateNamed r env level entries = .ok es ↔
      List.Forall₂ (fun entry e => entry.1 = e.1 ∧ evaluateAt r env level entry.2 = .ok e.2)
        entries es := by
  have each (entry : String × Node) (e : String × Evaluation) :
      (entry.1, ·) <$> evaluateAt r env level entry.2 = .ok e ↔
        entry.1 = e.1 ∧ evaluateAt r env level entry.2 = .ok e.2 := by
    obtain ⟨name, e⟩ := e
    simp [map_eq_ok_iff, and_comm]
  simp only [evaluateNamed_eq_mapM, mapM_eq_ok_iff, each]

/-- Named records stand under the names of the nodes. -/
theorem names_eq_of_evaluateNamed {entries : List (String × Node)}
    {es : List (String × Evaluation)} (ok : evaluateNamed r env level entries = .ok es) :
    entries.map Prod.fst = es.map Prod.fst := by
  rw [← List.forall₂_eq_eq_eq, List.forall₂_map_left_iff, List.forall₂_map_right_iff]
  exact (evaluateNamed_eq_ok_iff.mp ok).imp fun _ _ both => both.1

/-- What the function of a node comes to from the records of its arguments. -/
def apply (r : Registry) (env : Environment) (literal : Option Value) (a : Arguments) :
    Except (Halt EvaluationError) Value :=
  if r.enabled a.func then dispatch env literal a
  else .error (.error (.unsupportedFunction a.func))

/-- A record is either that of a node too deep to be evaluated, which stands over nothing, or it
stands over the records of the node's children. -/
theorem evaluateAt_eq_ok_iff {node : Node} : evaluateAt r env level node = .ok e ↔
    (r.maxDepth < level ∧ e = .ofOutcome node.func (.error (.tooDeep r.maxDepth)) [] []) ∨
      level ≤ r.maxDepth ∧
        ∃ cs, List.Forall₂ (fun n e => evaluateAt r env (level + 1) n = .ok e) node.children cs ∧
          ∃ ns, List.Forall₂
              (fun entry e => entry.1 = e.1 ∧ evaluateAt r env (level + 1) entry.2 = .ok e.2)
              node.named ns ∧
            ∃ outcome : Except EvaluationError Value,
              apply r env node.literal ⟨node.func, cs, ns⟩ = outcome.mapError Halt.error ∧
                e = .ofOutcome node.func outcome cs ns := by
  obtain ⟨func, literal, children, named, depth⟩ := node
  rw [evaluateAt]
  by_cases deep : r.maxDepth < level
  · simp [deep, Nat.not_le.mpr deep, eq_comm]
  · rw [if_neg deep]
    simp only [deep, Nat.le_of_not_lt deep, bind_eq_ok_iff, ← apply_ite, evaluateAll_eq_ok_iff,
      evaluateNamed_eq_ok_iff, false_and, false_or, true_and]
    exact exists_congr fun cs => and_congr_right fun _ => exists_congr fun ns =>
      and_congr_right fun _ => record_eq_ok_iff

/-- As many records as a node has children, under the same names, are of the shape that its children
are of. -/
theorem wellShaped_of_names {func : Func} {children : List Node} {named : List (String × Node)}
    {cs : List Evaluation} {ns : List (String × Evaluation)}
    (shape : WellShaped func literal children.length (named.map Prod.fst))
    (ordered : Keyed.Ascending named) (count : children.length = cs.length)
    (names : named.map Prod.fst = ns.map Prod.fst) :
    WellShaped func literal cs.length (ns.map Prod.fst) ∧ Keyed.Ascending ns := by
  rw [count, names] at shape
  rw [Keyed.ascending_iff_keys, names, ← Keyed.ascending_iff_keys] at ordered
  exact ⟨shape, ordered⟩

/-- The records of a node's children are of the shape that its children are of. -/
theorem wellShaped_of_evaluated {func : Func} {children : List Node} {named : List (String × Node)}
    {cs : List Evaluation} {ns : List (String × Evaluation)}
    (shape : WellShaped func literal children.length (named.map Prod.fst))
    (ordered : Keyed.Ascending named)
    (cs_ok : List.Forall₂ (fun n e => evaluateAt r env level n = .ok e) children cs)
    (ns_ok : List.Forall₂
      (fun entry e => entry.1 = e.1 ∧ evaluateAt r env level entry.2 = .ok e.2) named ns) :
    WellShaped func literal cs.length (ns.map Prod.fst) ∧ Keyed.Ascending ns :=
  wellShaped_of_names shape ordered cs_ok.length_eq
    (names_eq_of_evaluateNamed (evaluateNamed_eq_ok_iff.mpr ns_ok))

/-- What holds of the record of a node too deep, and of that of a node of the tree if it holds of
its children's records, holds of all records in an evaluation. -/
theorem forall_records_of_evaluateAt_of_nodes {P : Evaluation → Prop} {node : Node}
    (evaluated : evaluateAt r env level node = .ok e)
    (deep : ∀ func, P (.ofOutcome func (.error (.tooDeep r.maxDepth)) [] []))
    (applied : ∀ n ∈ node.walk, ∀ (cs : List Evaluation) (ns : List (String × Evaluation))
      (outcome : Except EvaluationError Value), n.children.length = cs.length →
      n.named.map Prod.fst = ns.map Prod.fst → (∀ child ∈ cs, P child) →
      (∀ entry ∈ ns, P entry.2) →
      apply r env n.literal ⟨n.func, cs, ns⟩ = outcome.mapError Halt.error →
      P (.ofOutcome n.func outcome cs ns)) :
    ∀ record ∈ e.records, P record := by
  induction node using Node.induct generalizing level e with
  | step node children_hold named_hold =>
    intro record mem
    rcases evaluateAt_eq_ok_iff.mp evaluated with
      ⟨-, rfl⟩ | ⟨-, cs, cs_ok, ns, ns_ok, outcome, made, rfl⟩
    · rw [Evaluation.records_ofOutcome_leaf, List.mem_singleton] at mem
      exact mem ▸ deep node.func
    · have of_children : ∀ c ∈ cs, ∀ record ∈ c.records, P record := fun c c_mem => by
        obtain ⟨n, n_mem, n_ok⟩ := exists_of_mem_right cs_ok c_mem
        exact children_hold n n_mem n_ok fun m below =>
          applied m (Node.mem_walk.mpr (.inr (.inl ⟨n, n_mem, below⟩)))
      have of_named : ∀ entry ∈ ns, ∀ record ∈ entry.2.records, P record := fun entry mem => by
        obtain ⟨n, n_mem, -, n_ok⟩ := exists_of_mem_right ns_ok mem
        exact named_hold n n_mem n_ok fun m below =>
          applied m (Node.mem_walk.mpr (.inr (.inr ⟨n, n_mem, below⟩)))
      rcases Evaluation.mem_records.mp mem with rfl | ⟨c, c_mem, mem⟩ | ⟨entry, entry_mem, mem⟩
      · exact applied node node.self_mem_walk cs ns outcome cs_ok.length_eq
          (names_eq_of_evaluateNamed (evaluateNamed_eq_ok_iff.mpr ns_ok))
          (fun c c_mem => of_children c c_mem c c.self_mem_records)
          (fun entry entry_mem => of_named entry entry_mem entry.2 entry.2.self_mem_records) made
      · rw [Evaluation.ofOutcome_children] at c_mem
        exact of_children c c_mem record mem
      · rw [Evaluation.ofOutcome_named] at entry_mem
        exact of_named entry entry_mem record mem

/-- What holds of the record of a node too deep, and of that of a well-shaped node if it holds of
its children's records, holds of all records in the evaluation of a valid tree. -/
theorem forall_records_of_evaluateAt_of_parts {P : Evaluation → Prop} {node : Node}
    (valid : node.Valid) (evaluated : evaluateAt r env level node = .ok e)
    (deep : ∀ func, P (.ofOutcome func (.error (.tooDeep r.maxDepth)) [] []))
    (applied : ∀ (literal : Option Value) (a : Arguments)
      (outcome : Except EvaluationError Value),
      WellShaped a.func literal a.children.length (a.named.map Prod.fst) →
      Keyed.Ascending a.named → (∀ child ∈ a.children, P child) →
      (∀ entry ∈ a.named, P entry.2) → apply r env literal a = outcome.mapError Halt.error →
      P (.ofOutcome a.func outcome a.children a.named)) :
    ∀ record ∈ e.records, P record := by
  refine forall_records_of_evaluateAt_of_nodes evaluated deep ?_
  intro n mem cs ns outcome count names cs_hold ns_hold made
  cases valid.of_mem_walk mem with
  | @make func literal children named shape ordered =>
    obtain ⟨shape, ordered⟩ := wellShaped_of_names shape ordered count names
    exact applied literal ⟨func, cs, ns⟩ outcome shape ordered cs_hold ns_hold made

/-- What holds of the record of a node too deep, and of that of a well-shaped node whatever its
children's records are, holds of all records in the evaluation of a valid tree. -/
theorem forall_records_of_evaluateAt {P : Evaluation → Prop} {node : Node} (valid : node.Valid)
    (evaluated : evaluateAt r env level node = .ok e)
    (deep : ∀ func, P (.ofOutcome func (.error (.tooDeep r.maxDepth)) [] []))
    (applied : ∀ (literal : Option Value) (a : Arguments)
      (outcome : Except EvaluationError Value),
      WellShaped a.func literal a.children.length (a.named.map Prod.fst) →
      Keyed.Ascending a.named → apply r env literal a = outcome.mapError Halt.error →
      P (.ofOutcome a.func outcome a.children a.named)) :
    ∀ record ∈ e.records, P record :=
  forall_records_of_evaluateAt_of_parts valid evaluated deep
    fun literal a outcome shape ordered _ _ => applied literal a outcome shape ordered

/-! ### Evaluations that end -/

theorem exists_lookedUp {α : Type} {wrap : α → Value}
    {answered : Except (Halt EnvironmentError) α} (steady : ∀ f, answered ≠ .error (.fault f)) :
    ∃ outcome : Except EvaluationError Value,
      lookedUp wrap answered = outcome.mapError Halt.error := by
  match answered, steady with
  | .ok v, _ => exact ⟨.ok (wrap v), rfl⟩
  | .error (.error err), _ => exact ⟨.error (.environment err), rfl⟩
  | .error (.fault f), steady => exact absurd rfl (steady f)

/-- A function comes to a value or an error where no lookup ends in a fault. -/
theorem exists_apply (steady : env.Steady) (r : Registry) (literal : Option Value)
    (a : Arguments) : ∃ outcome : Except EvaluationError Value,
      apply r env literal a = outcome.mapError Halt.error := by
  unfold apply dispatch
  split
  · cases demand literal a with
    | error err => exact ⟨.error err, rfl⟩
    | ok d =>
      cases d with
      | value v => exact ⟨.ok v, rfl⟩
      | payloadField name => exact exists_lookedUp (steady.payloadField name)
      | listItems name => exact exists_lookedUp (steady.listItems name)
      | relatedField table field path =>
        exact exists_lookedUp (steady.relatedField table field path)
      | variableValue name => exact exists_lookedUp (steady.variableValue name)
  · exact ⟨.error (.unsupportedFunction a.func), rfl⟩

mutual

theorem exists_evaluateAt (steady : env.Steady) (level : Nat) :
    ∀ node : Node, ∃ e, evaluateAt r env level node = .ok e
  | ⟨func, literal, children, named, depth⟩ => by
    rw [evaluateAt]
    split
    · exact ⟨_, rfl⟩
    · obtain ⟨cs, cs_ok⟩ := exists_evaluateAll steady (level + 1) children
      obtain ⟨ns, ns_ok⟩ := exists_evaluateNamed steady (level + 1) named
      obtain ⟨outcome, applied⟩ := exists_apply steady r literal ⟨func, cs, ns⟩
      simp only [bind_eq_ok_iff, ← apply_ite]
      exact ⟨_, cs, cs_ok, ns, ns_ok, record_eq_ok_iff.mpr ⟨outcome, applied, rfl⟩⟩

theorem exists_evaluateAll (steady : env.Steady) (level : Nat) :
    ∀ nodes : List Node, ∃ es, evaluateAll r env level nodes = .ok es
  | [] => ⟨[], evaluateAll_eq_ok_iff.mpr .nil⟩
  | node :: rest =>
    let ⟨e, node_ok⟩ := exists_evaluateAt steady level node
    let ⟨es, rest_ok⟩ := exists_evaluateAll steady level rest
    ⟨e :: es, evaluateAll_eq_ok_iff.mpr (.cons node_ok (evaluateAll_eq_ok_iff.mp rest_ok))⟩

theorem exists_evaluateNamed (steady : env.Steady) (level : Nat) :
    ∀ entries : List (String × Node), ∃ es, evaluateNamed r env level entries = .ok es
  | [] => ⟨[], evaluateNamed_eq_ok_iff.mpr .nil⟩
  | (name, node) :: rest =>
    let ⟨e, node_ok⟩ := exists_evaluateAt steady level node
    let ⟨es, rest_ok⟩ := exists_evaluateNamed steady level rest
    ⟨(name, e) :: es,
      evaluateNamed_eq_ok_iff.mpr (.cons ⟨rfl, node_ok⟩ (evaluateNamed_eq_ok_iff.mp rest_ok))⟩

end

/-- Every evaluation leaves a record where no lookup ends in a fault. -/
theorem exists_evaluate (steady : env.Steady) (node : Node) :
    ∃ e, evaluate r env node = .ok e :=
  exists_evaluateAt steady 1 node

end Evaluator

end RiskRules
