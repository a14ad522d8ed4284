import RiskRules.Proofs.Outcomes
import RiskRules.Scoring

/-!
Which related fields a ruleset looks up. The indexes that it needs are told from its trees without
evaluating them (`Ruleset.mem_requiredIndexes`); evaluation looks tables up by arguments that it has
evaluated. Where the table and the field of every lookup are constants, the two are the same: what
is looked up is an index that the ruleset needs (`Evaluator.index_of_demand`), and environments that
answer alike there, and alike in all but related fields, give one result
(`Scoring.execute_congr`).
-/

namespace RiskRules

/-! ### Needed indexes -/

namespace IndexSpec

theorem mem_insert {i j : IndexSpec} {indexes : List IndexSpec} :
    j ∈ insert i indexes ↔ j = i ∨ j ∈ indexes := by
  induction indexes with
  | nil => simp [insert]
  | cons head rest ih =>
    rw [insert]
    split
    · rename_i same
      simp [same]
    · split
      · exact List.mem_cons
      · rw [List.mem_cons, ih, List.mem_cons, or_left_comm]

theorem mem_foldl_insert {i : IndexSpec} {more indexes : List IndexSpec} :
    i ∈ more.foldl (fun sorted i => insert i sorted) indexes ↔ i ∈ more ∨ i ∈ indexes := by
  induction more generalizing indexes with
  | nil => simp
  | cons head rest ih => rw [List.foldl_cons, ih, mem_insert, List.mem_cons, or_left_comm, or_assoc]

theorem mem_collect {i : IndexSpec} {node : Node} {indexes : List IndexSpec} :
    i ∈ collect node indexes ↔ (∃ n ∈ node.walk, ofNode? n = some i) ∨ i ∈ indexes := by
  rw [collect, mem_foldl_insert, List.mem_filterMap]

end IndexSpec

/-- A ruleset needs the indexes of the lookups in its trees. -/
theorem Ruleset.mem_requiredIndexes {ruleset : Ruleset} {i : IndexSpec} :
    i ∈ ruleset.requiredIndexes
      ↔ ∃ rule ∈ ruleset.rules, ∃ n ∈ rule.body.walk, IndexSpec.ofNode? n = some i := by
  have gathered : ∀ (rules : List Rule) (indexes : List IndexSpec),
      i ∈ rules.foldl (fun indexes rule => IndexSpec.collect rule.body indexes) indexes
        ↔ (∃ rule ∈ rules, ∃ n ∈ rule.body.walk, IndexSpec.ofNode? n = some i) ∨ i ∈ indexes := by
    intro rules
    induction rules with
    | nil => simp
    | cons rule rest ih =>
      intro indexes
      rw [List.foldl_cons, ih, IndexSpec.mem_collect, List.exists_mem_cons_iff, or_left_comm,
        or_assoc]
  rw [requiredIndexes, gathered]
  simp

/-! ### Constant lookups -/

/-- The table and the field of a lookup in a table are constants. -/
def Node.NamesConstantly (node : Node) : Prop :=
  node.func = .databaseAccess → ∀ name ∈ ["tableName", "fieldName"],
    ∀ child, Keyed.get? name node.named = some child → child.func = .constant

/-- The table and the field of every lookup in a table, at any depth of any rule, are constants. -/
def Ruleset.ConstantLookups (ruleset : Ruleset) : Prop :=
  ∀ rule ∈ ruleset.rules, ∀ n ∈ rule.body.walk, n.NamesConstantly

/-- The index of a lookup, if the node has one, is among those of a kind. -/
def Node.CoveredBy (covered : IndexSpec → Prop) (node : Node) : Prop :=
  ∀ i, IndexSpec.ofNode? node = some i → covered i

/-! ### Environments that answer alike -/

/-- Two environments answer alike, but for related fields whose index is not of a kind. -/
structure Environment.AgreeOn (covered : IndexSpec → Prop) (a b : Environment) : Prop where
  payloadField : ∀ name, a.payloadField name = b.payloadField name
  listItems : ∀ name, a.listItems name = b.listItems name
  relatedField : ∀ table field path, covered ⟨table, field⟩ →
    a.relatedField table field path = b.relatedField table field path
  variableValue : ∀ name, a.variableValue name = b.variableValue name

theorem Environment.AgreeOn.mono {covered fewer : IndexSpec → Prop} {a b : Environment}
    (agree : a.AgreeOn covered b) (within : ∀ i, fewer i → covered i) : a.AgreeOn fewer b :=
  ⟨agree.payloadField, agree.listItems,
    fun table field path known => agree.relatedField table field path (within _ known),
    agree.variableValue⟩

namespace Evaluator

open Arguments

variable {r : Registry} {env a b : Environment} {level : Nat} {covered : IndexSpec → Prop}

/-! ### What is looked up -/

/-- Only a lookup in a table asks for a related field, by its own arguments. -/
theorem eq_databaseAccess_of_demand {literal : Option Value} {arguments : Arguments}
    {table field : String} {path : List String}
    (demanded : demand literal arguments = .ok (.relatedField table field path)) :
    arguments.func = .databaseAccess ∧ arguments.string "tableName" = .ok table ∧
      arguments.string "fieldName" = .ok field := by
  obtain ⟨func, children, named⟩ := arguments
  cases func
  case databaseAccess =>
    simp only [demand, bind_eq_ok_iff, pure_eq_ok_iff] at demanded
    obtain ⟨_, table_read, _, field_read, _, _, _, _, same⟩ := demanded
    cases same
    exact ⟨rfl, table_read, field_read⟩
  case constant => cases literal <;> cases demanded
  case parseTimestamp =>
    simp only [demand, bind_eq_ok_iff] at demanded
    obtain ⟨_, _, answered⟩ := demanded
    split at answered <;> cases answered
  case timeAdd =>
    simp only [demand, bind_eq_ok_iff] at demanded
    obtain ⟨_, _, _, _, answered⟩ := demanded
    split at answered <;> cases answered
  case scoreComputation =>
    simp only [demand, bind_eq_ok_iff] at demanded
    obtain ⟨_, _, _, _, floor, _, answered⟩ := demanded
    cases floor with
    | none => cases answered
    | some value =>
      obtain ⟨_, _, answered⟩ := bind_eq_ok_iff.mp answered
      cases answered
  -- What is left comes to a value or to a lookup of another kind.
  all_goals
    simp only [demand, bind_eq_ok_iff, pure_eq_ok_iff, reduceCtorEq, and_false, exists_false]
      at demanded

/-- A record of a named child is that of the child under its name. -/
theorem get?_of_evaluateNamed {entries : List (String × Node)}
    {records : List (String × Evaluation)} {name : String} {record : Evaluation}
    (evaluated : evaluateNamed r env level entries = .ok records)
    (found : Keyed.get? name records = some record) :
    ∃ child, Keyed.get? name entries = some child ∧ evaluateAt r env level child = .ok record := by
  have related : Option.Rel (fun child record => evaluateAt r env level child = .ok record)
      (Keyed.get? name entries) (Keyed.get? name records) :=
    Keyed.forall₂_get? (evaluateNamed_eq_ok_iff.mp evaluated) name
  obtain ⟨child, there, child_evaluated⟩ := exists_of_optionRel related found
  exact ⟨child, there, child_evaluated⟩

/-- A constant that has a value has it as its literal. -/
theorem literal_of_evaluateAt {node : Node} {record : Evaluation} {v : Value}
    (constant : node.func = .constant) (evaluated : evaluateAt r env level node = .ok record)
    (given : record.outcome = .ok v) : node.literal = some v := by
  rcases evaluateAt_eq_ok_iff.mp evaluated with
    ⟨-, rfl⟩ | ⟨-, cs, -, ns, -, outcome, applied, rfl⟩
  · cases given
  · rw [Evaluation.ofOutcome_outcome] at given
    subst given
    rw [constant, apply] at applied
    split at applied
    · cases literal : node.literal with
      | none => rw [literal] at applied; cases applied
      | some value => rw [literal] at applied; cases applied; rfl
    · cases applied

/-- **What is looked up.** A lookup in a table whose table and field are constants asks for the
index that the tree names. -/
theorem index_of_demand {node : Node} {children : List Evaluation}
    {records : List (String × Evaluation)} {table field : String} {path : List String}
    (evaluated : evaluateNamed r env level node.named = .ok records)
    (constantly : node.NamesConstantly)
    (demanded : demand node.literal ⟨node.func, children, records⟩
      = .ok (.relatedField table field path)) :
    IndexSpec.ofNode? node = some ⟨table, field⟩ := by
  obtain ⟨lookup, table_read, field_read⟩ := eq_databaseAccess_of_demand demanded
  have named : ∀ name ∈ ["tableName", "fieldName"], ∀ text,
      Arguments.string ⟨node.func, children, records⟩ name = .ok text →
      IndexSpec.literal? node name = some text := by
    intro name mem text read
    obtain ⟨record, found, given⟩ := string_eq_ok_iff.mp read
    obtain ⟨child, child_found, child_evaluated⟩ := get?_of_evaluateNamed evaluated found
    have constant := constantly lookup name mem child child_found
    have literal := literal_of_evaluateAt constant child_evaluated given
    simp [IndexSpec.literal?, child_found, literal, Value.string?]
  rw [IndexSpec.ofNode?, if_pos lookup, named "tableName" (by simp) table table_read,
    named "fieldName" (by simp) field field_read]

/-! ### Evaluation in environments that answer alike -/

/-- A node whose lookup is covered comes to the same in both environments. -/
theorem dispatch_congr {node : Node} {children : List Evaluation}
    {records : List (String × Evaluation)} (agree : a.AgreeOn covered b)
    (evaluated : evaluateNamed r env level node.named = .ok records)
    (constantly : node.NamesConstantly) (within : node.CoveredBy covered) :
    dispatch a node.literal ⟨node.func, children, records⟩
      = dispatch b node.literal ⟨node.func, children, records⟩ := by
  rw [dispatch, dispatch]
  cases demanded : demand node.literal ⟨node.func, children, records⟩ with
  | error e => rfl
  | ok d =>
    cases d with
    | value v => rfl
    | payloadField name => simp only [answer, agree.payloadField]
    | listItems name => simp only [answer, agree.listItems]
    | variableValue name => simp only [answer, agree.variableValue]
    | relatedField table field path =>
      have index := index_of_demand evaluated constantly demanded
      simp only [answer, agree.relatedField table field path (within _ index)]

mutual

/-- The step: a tree whose lookups are covered leaves one record in both environments. -/
theorem evaluateAt_congr (agree : a.AgreeOn covered b) (level : Nat) : ∀ {node : Node},
    (∀ n ∈ node.walk, n.NamesConstantly ∧ n.CoveredBy covered) →
      evaluateAt r a level node = evaluateAt r b level node
  | ⟨func, literal, children, named, depth⟩, reads => by
    have below_children : ∀ n ∈ Node.walkAll children, n.NamesConstantly ∧ n.CoveredBy covered :=
      fun n mem => reads n (List.mem_cons_of_mem _ (List.mem_append_left _ mem))
    have below_named : ∀ n ∈ Node.walkNamed named, n.NamesConstantly ∧ n.CoveredBy covered :=
      fun n mem => reads n (List.mem_cons_of_mem _ (List.mem_append_right _ mem))
    obtain ⟨constantly, within⟩ := reads _ List.mem_cons_self
    rw [evaluateAt, evaluateAt, evaluateAll_congr agree (level + 1) below_children,
      evaluateNamed_congr agree (level + 1) below_named]
    split
    · rfl
    · cases evaluateAll r b (level + 1) children with
      | error f => rfl
      | ok cs =>
        cases evaluated : evaluateNamed r b (level + 1) named with
        | error f => rfl
        | ok ns =>
          have same : dispatch a literal ⟨func, cs, ns⟩ = dispatch b literal ⟨func, cs, ns⟩ :=
            dispatch_congr agree evaluated constantly within
          simp only [bind, Except.bind]
          rw [same]

theorem evaluateAll_congr (agree : a.AgreeOn covered b) (level : Nat) : ∀ {nodes : List Node},
    (∀ n ∈ Node.walkAll nodes, n.NamesConstantly ∧ n.CoveredBy covered) →
      evaluateAll r a level nodes = evaluateAll r b level nodes
  | [], _ => rfl
  | node :: rest, reads => by
    rw [evaluateAll, evaluateAll,
      evaluateAt_congr agree level fun n mem => reads n (List.mem_append_left _ mem),
      evaluateAll_congr agree level fun n mem => reads n (List.mem_append_right _ mem)]

theorem evaluateNamed_congr (agree : a.AgreeOn covered b) (level : Nat) :
    ∀ {entries : List (String × Node)},
      (∀ n ∈ Node.walkNamed entries, n.NamesConstantly ∧ n.CoveredBy covered) →
        evaluateNamed r a level entries = evaluateNamed r b level entries
  | [], _ => rfl
  | (name, node) :: rest, reads => by
    rw [evaluateNamed, evaluateNamed,
      evaluateAt_congr agree level fun n mem => reads n (List.mem_append_left _ mem),
      evaluateNamed_congr agree level fun n mem => reads n (List.mem_append_right _ mem)]

end

end Evaluator

/-- A ruleset comes to the same in environments that answer alike on the indexes that it needs. -/
theorem Scoring.execute_congr {a b : Environment} {ruleset : Ruleset} (r : Registry)
    (constantly : ruleset.ConstantLookups)
    (agree : a.AgreeOn (· ∈ ruleset.requiredIndexes) b) :
    execute r a ruleset = execute r b ruleset := by
  have each : ∀ rule ∈ ruleset.rules, scoreRule r a rule = scoreRule r b rule := by
    intro rule mem
    have same : Evaluator.evaluate r a rule.body = Evaluator.evaluate r b rule.body :=
      Evaluator.evaluateAt_congr agree 1 fun n below => ⟨constantly rule mem n below,
        fun i index => Ruleset.mem_requiredIndexes.mpr ⟨rule, mem, n, below, index⟩⟩
    rw [scoreRule, scoreRule, same]
  rw [execute, execute, mapM_congr each]

end RiskRules
