import RiskRules.Proofs.Decoding
import RiskRules.Proofs.Evaluation

/-!
Positions in trees and in the records of their evaluation. A position is a path of steps from the
root, each to an unnamed child or to a named one; it stands as many levels below the root as it has
steps. A valid tree has a position at every level up to its depth (`Node.lt_depth_iff`), and where
names stand in order, the records in a record are those at its positions
(`Evaluation.mem_records_iff_at?`).
-/

namespace RiskRules

/-! ### Steps -/

/-- A step to a child: to an unnamed one by its index, or to a named one. -/
inductive Step where
  | unnamed (index : Nat)
  | named (name : String)
  deriving DecidableEq, Repr

namespace Step

variable {α β : Type} {children : List α} {named : List (String × α)} {child : α} {step other : Step}

/-- The name in messages of the argument that a step leads to. -/
def label : Step → String
  | .unnamed index => positionName index
  | .named name => name

/-- The child that a step leads to. -/
def child? (step : Step) (children : List α) (named : List (String × α)) : Option α :=
  match step with
  | .unnamed index => children[index]?
  | .named name => Keyed.get? name named

/-- A step leads nowhere but to a child. -/
theorem mem_of_child? (found : step.child? children named = some child) :
    child ∈ children ∨ ∃ name, (name, child) ∈ named := by
  cases step with
  | unnamed index => exact .inl (List.mem_of_getElem? found)
  | named name => exact .inr ⟨name, Keyed.mem_of_get? found⟩

/-- A step leads to every unnamed child. -/
theorem exists_child?_of_mem (mem : child ∈ children) :
    ∃ step : Step, step.child? children named = some child := by
  obtain ⟨index, found⟩ := List.mem_iff_getElem?.mp mem
  exact ⟨.unnamed index, found⟩

/-- A step leads to every named child. -/
theorem exists_child?_of_mem_named (ordered : Keyed.Ascending named) {name : String}
    (mem : (name, child) ∈ named) : ∃ step : Step, step.child? children named = some child :=
  ⟨.named name, ordered.get?_eq_some_iff.mpr mem⟩

/-- Related children are reached by the same steps. -/
theorem child?_rel {R : α → β → Prop} {others : List β} {named_others : List (String × β)}
    (unnamed : List.Forall₂ R children others)
    (given : List.Forall₂ (fun a b => a.1 = b.1 ∧ R a.2 b.2) named named_others) (step : Step) :
    Option.Rel R (step.child? children named) (step.child? others named_others) := by
  cases step with
  | unnamed index => exact forall₂_getElem? unnamed index
  | named name => exact Keyed.forall₂_get? given name

/-- No two unnamed arguments are named alike in messages. -/
theorem positionName_injective : Function.Injective positionName := by
  intro i j same
  rw [positionName, positionName, String.append_right_inj] at same
  have digits : Nat.toDigits 10 i = Nat.toDigits 10 j := by
    rw [← Nat.toList_repr, ← Nat.toList_repr]
    exact congrArg String.toList same
  rw [← @Nat.ofDigitChars_ten_toDigits i, digits, Nat.ofDigitChars_ten_toDigits]

/-- Where the children are all unnamed or all named, no two of them have one label. -/
theorem eq_of_label (uniform : children = [] ∨ named = [])
    (found : (step.child? children named).isSome = true)
    (other_found : (other.child? children named).isSome = true) (same : step.label = other.label) :
    step = other := by
  cases step with
  | unnamed index =>
    cases other with
    | unnamed index' => exact congrArg Step.unnamed (positionName_injective same)
    | named name' => rcases uniform with rfl | rfl <;> simp_all [child?, Keyed.get?]
  | named name =>
    cases other with
    | unnamed index' => rcases uniform with rfl | rfl <;> simp_all [child?, Keyed.get?]
    | named name' => exact congrArg Step.named same

end Step

/-- The children of a node or a record of some shape are all unnamed or all named. -/
theorem WellShaped.uniform {func : Func} {literal : Option Value} {count : Nat}
    {names : List String} (shape : WellShaped func literal count names) :
    count = 0 ∨ names = [] := by
  by_cases variadic : func.descriptor.variadic = none
  · exact .inl (shape.unnamed_none variadic)
  · have none_taken : func.descriptor.parameters = [] := by
      cases func <;> first | rfl | exact absurd rfl variadic
    refine .inr (List.eq_nil_iff_forall_not_mem.mpr fun name mem => ?_)
    have taken := shape.given_taken name mem
    simp [Descriptor.takes, none_taken] at taken

/-! ### Positions in trees -/

namespace Node

variable {node : Node} {step : Step} {path : List Step}

/-- The node at a position. -/
def at? (node : Node) (path : List Step) : Option Node :=
  path.foldlM (fun n step => step.child? n.children n.named) node

@[simp] theorem at?_nil : node.at? [] = some node := rfl

theorem at?_cons : node.at? (step :: path) =
    (step.child? node.children node.named).bind (·.at? path) :=
  List.foldlM_cons

/-- A position is there exactly if its first step leads to a child in which the rest is there. -/
theorem at?_isSome_cons_iff : (node.at? (step :: path)).isSome = true ↔
    ∃ child, step.child? node.children node.named = some child ∧
      (child.at? path).isSome = true := by
  rw [at?_cons]
  cases step.child? node.children node.named <;> simp

/-- A node over others is deeper than a level exactly if one of them is deeper than the level above
it. -/
theorem lt_depth_make_iff {func : Func} {literal : Option Value} {children : List Node}
    {named : List (String × Node)} {level : Nat} :
    level + 1 < (make func literal children named).depth ↔
      (∃ child ∈ children, level < child.depth) ∨ ∃ entry ∈ named, level < entry.2.depth := by
  rw [← Nat.not_le, depth_make_le_iff]
  simp only [not_and_or, not_forall, Nat.not_le, exists_prop]

/-- A valid tree has a position at each of the levels up to its depth, and at no other. -/
theorem lt_depth_iff (valid : node.Valid) {level : Nat} :
    level < node.depth ↔ ∃ path, path.length = level ∧ (node.at? path).isSome = true := by
  induction valid generalizing level with
  | @make func literal children named shape ordered _ _ children_reach named_reach =>
    cases level with
    | zero => exact ⟨fun _ => ⟨[], rfl, rfl⟩, fun _ => Nat.succ_pos _⟩
    | succ level =>
      rw [lt_depth_make_iff]
      constructor
      · rintro (⟨child, mem, below⟩ | ⟨⟨name, child⟩, mem, below⟩)
        · obtain ⟨path, rfl, reached⟩ := (children_reach child mem).mp below
          obtain ⟨step, found⟩ := Step.exists_child?_of_mem mem
          exact ⟨step :: path, rfl, at?_isSome_cons_iff.mpr ⟨child, found, reached⟩⟩
        · obtain ⟨path, rfl, reached⟩ := (named_reach _ mem).mp below
          obtain ⟨step, found⟩ := Step.exists_child?_of_mem_named ordered mem
          exact ⟨step :: path, rfl, at?_isSome_cons_iff.mpr ⟨child, found, reached⟩⟩
      · rintro ⟨_ | ⟨step, path⟩, length, reached⟩
        · cases length
        · obtain ⟨child, found, reached⟩ := at?_isSome_cons_iff.mp reached
          have below : path.length = level := Nat.succ.inj length
          rcases Step.mem_of_child? found with mem | ⟨name, mem⟩
          · exact .inl ⟨child, mem, (children_reach child mem).mpr ⟨path, below, reached⟩⟩
          · exact .inr ⟨_, mem, (named_reach _ mem).mpr ⟨path, below, reached⟩⟩

end Node

namespace Evaluation

variable {e part : Evaluation} {step : Step} {path : List Step}

/-- The record at a position. -/
def at? (e : Evaluation) (path : List Step) : Option Evaluation :=
  path.foldlM (fun record step => step.child? record.children record.named) e

@[simp] theorem at?_nil : e.at? [] = some e := rfl

theorem at?_cons : e.at? (step :: path) =
    (step.child? e.children e.named).bind (·.at? path) :=
  List.foldlM_cons

/-- Where names stand in order, the records in a record are those at its positions. -/
theorem mem_records_iff_at? (ordered : ∀ record ∈ e.records, Keyed.Ascending record.named) :
    part ∈ e.records ↔ ∃ path, e.at? path = some part := by
  induction e using Evaluation.induct generalizing part with
  | step e children_reach named_reach =>
    have children_ordered : ∀ child ∈ e.children, ∀ record ∈ child.records,
        Keyed.Ascending record.named :=
      fun child mem record below => ordered record (mem_records.mpr (.inr (.inl ⟨child, mem, below⟩)))
    have named_ordered : ∀ entry ∈ e.named, ∀ record ∈ entry.2.records,
        Keyed.Ascending record.named :=
      fun entry mem record below => ordered record (mem_records.mpr (.inr (.inr ⟨entry, mem, below⟩)))
    constructor
    · intro mem
      rcases mem_records.mp mem with rfl | ⟨child, mem, below⟩ | ⟨⟨name, child⟩, mem, below⟩
      · exact ⟨[], rfl⟩
      · obtain ⟨path, reached⟩ := (children_reach child mem (children_ordered child mem)).mp below
        obtain ⟨step, found⟩ := Step.exists_child?_of_mem mem
        exact ⟨step :: path, by rw [at?_cons, found, Option.bind_some, reached]⟩
      · obtain ⟨path, reached⟩ := (named_reach _ mem (named_ordered _ mem)).mp below
        have here := ordered e e.self_mem_records
        obtain ⟨step, found⟩ := Step.exists_child?_of_mem_named here mem
        exact ⟨step :: path, by rw [at?_cons, found, Option.bind_some, reached]⟩
    · rintro ⟨_ | ⟨step, path⟩, reached⟩
      · cases reached
        exact self_mem_records e
      · rw [at?_cons, Option.bind_eq_some_iff] at reached
        obtain ⟨child, found, reached⟩ := reached
        rcases Step.mem_of_child? found with mem | ⟨name, mem⟩
        · have below := (children_reach child mem (children_ordered child mem)).mpr ⟨path, reached⟩
          exact mem_records.mpr (.inr (.inl ⟨child, mem, below⟩))
        · have below := (named_reach _ mem (named_ordered _ mem)).mpr ⟨path, reached⟩
          exact mem_records.mpr (.inr (.inr ⟨_, mem, below⟩))

end Evaluation

end RiskRules
