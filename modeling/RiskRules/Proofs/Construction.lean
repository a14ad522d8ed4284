import Mathlib.Data.List.Nodup
import Mathlib.Logic.Unique
import RiskRules.Proofs.Keyed
import RiskRules.Proofs.Results
import RiskRules.Registry

/-!
What construction calls let through. A registry builds a node exactly when the function is enabled,
the node has the shape that the function's descriptor asks for, and its tree is within the depth
(`Registry.build_eq_ok_iff`). Trees that come out of construction calls, on whatever registries, are
well shaped at every node (`Node.Built.valid`); trees built on one registry alone hold only its
functions and stay within its depth (`Node.Built.admitted`).
-/

namespace RiskRules

/-! ### Functions and their tags -/

theorem Func.mem_all (f : Func) : f ∈ Func.all := by
  cases f <;> decide

/-- No two functions are written with one tag. -/
theorem Func.tag_injective : Function.Injective Func.tag := by
  have distinct : (Func.all.map Func.tag).Nodup := by decide +kernel
  intro f g same
  exact List.inj_on_of_nodup_map distinct f.mem_all g.mem_all same

/-! ### The parts of a value -/

namespace Value

/-- A value is a part of itself and of every list that an item of it is a part of. -/
inductive Within (part : Value) : Value → Prop where
  | self : Within part part
  | item {value : Value} {items : List Value} (mem : value ∈ items) (within : Within part value) :
      Within part (.list items)

variable {part : Value} {items : List Value}

theorem within_list_iff : part.Within (.list items) ↔
    part = .list items ∨ ∃ value ∈ items, part.Within value := by
  constructor
  · intro within
    cases within with
    | self => exact .inl rfl
    | item mem within => exact .inr ⟨_, mem, within⟩
  · rintro (rfl | ⟨value, mem, within⟩)
    · exact .self
    · exact .item mem within

theorem allFiniteItems_eq_true_iff :
    allFiniteItems items = true ↔ ∀ value ∈ items, value.allFinite = true := by
  induction items with
  | nil => simp [allFiniteItems]
  | cons head rest ih => simp [allFiniteItems, ih]

/-- A value is finite if every number in it is, however deep in lists it stands. -/
theorem allFinite_eq_true_iff : ∀ value : Value,
    value.allFinite = true ↔ ∀ x, (Value.float x).Within value → isFinite x = true
  | .list items => by
    rw [allFinite, allFiniteItems_eq_true_iff]
    constructor
    · intro finite x within
      rcases within_list_iff.mp within with same | ⟨value, mem, within⟩
      · cases same
      · exact (allFinite_eq_true_iff value).mp (finite value mem) x within
    · intro finite value mem
      exact (allFinite_eq_true_iff value).mpr fun x within => finite x (.item mem within)
  | .float x => by
    rw [allFinite]
    constructor
    · intro finite y within
      cases within
      exact finite
    · intro finite
      exact finite x .self
  | .null | .bool _ | .int _ | .string _ | .timestamp _ | .score _ =>
    ⟨fun _ _ within => (nomatch within), fun _ => rfl⟩

end Value

/-! ### The shape of one node -/

/-- A literal on constants alone and a finite one, unnamed children only where the function takes
them and enough of them, every required argument and no argument that the function does not take. -/
structure WellShaped (func : Func) (literal : Option Value) (count : Nat) (names : List String) :
    Prop where
  literal_iff : literal.isSome = true ↔ func = .constant
  literal_finite : ∀ value ∈ literal, value.allFinite = true
  unnamed_none : func.descriptor.variadic = none → count = 0
  unnamed_least : ∀ least, func.descriptor.variadic = some least → least ≤ count
  required_given : ∀ p ∈ func.descriptor.parameters, p.required = true → p.name ∈ names
  given_taken : ∀ name ∈ names, func.descriptor.takes name = true

namespace Registry

variable {r : Registry} {func : Func} {literal : Option Value} {children : List Node}
  {named : List (String × Node)} {node : Node}

theorem checkLiteral_eq_ok_iff : checkLiteral func literal = .ok () ↔
    (literal.isSome = true ↔ func = .constant) ∧ ∀ value ∈ literal, value.allFinite = true := by
  unfold checkLiteral
  cases literal with
  | none => by_cases constant : func = .constant <;> simp [constant]
  | some value =>
    by_cases constant : func = .constant
    · by_cases finite : value.allFinite = true <;> simp [constant, finite]
    · simp [constant]

theorem checkArity_eq_ok_iff {count : Nat} : checkArity func count = .ok () ↔
    (func.descriptor.variadic = none → count = 0) ∧
      ∀ least, func.descriptor.variadic = some least → least ≤ count := by
  unfold checkArity
  cases func.descriptor.variadic with
  | none =>
    by_cases given : 0 < count
    · simp [given, Nat.ne_of_gt given]
    · simp [Nat.eq_zero_of_not_pos given]
  | some least =>
    by_cases few : count < least
    · simp [few]
    · simp [few, Nat.le_of_not_lt few]

theorem checkNames_eq_ok_iff {names : List String} : checkNames func names = .ok () ↔
    (∀ p ∈ func.descriptor.parameters, p.required = true → p.name ∈ names) ∧
      ∀ name ∈ names, func.descriptor.takes name = true := by
  simp only [checkNames]
  split
  · rename_i p missing
    have unmet := List.find?_some missing
    have declared := List.mem_of_find?_eq_some missing
    simp only [Bool.and_eq_true] at unmet
    refine ⟨nofun, fun complete => ?_⟩
    simp [complete.1 p declared unmet.1] at unmet
  · rename_i complete
    split
    · rename_i name extra
      have untaken := List.find?_some extra
      have given := List.mem_of_find?_eq_some extra
      refine ⟨nofun, fun taken => ?_⟩
      simp [taken.2 name given] at untaken
    · rename_i no_extra
      simp only [List.find?_eq_none] at complete no_extra
      simp_all

theorem wellShaped_iff_checks {count : Nat} {names : List String} :
    WellShaped func literal count names ↔ checkLiteral func literal = .ok () ∧
      checkArity func count = .ok () ∧ checkNames func names = .ok () := by
  rw [checkLiteral_eq_ok_iff, checkArity_eq_ok_iff, checkNames_eq_ok_iff]
  constructor
  · exact fun shape => ⟨⟨shape.1, shape.2⟩, ⟨shape.3, shape.4⟩, shape.5, shape.6⟩
  · exact fun ⟨⟨carried, finite⟩, ⟨unnamed, least⟩, required, taken⟩ =>
      ⟨carried, finite, unnamed, least, required, taken⟩

/-- **What building asks for.** A node is built exactly when its function is enabled, its shape is
the one that the function's descriptor asks for, and its tree is not too deep. -/
theorem build_eq_ok_iff : r.build func literal children named = .ok node ↔
    r.enabled func = true ∧ WellShaped func literal children.length (named.map Prod.fst) ∧
      (Node.make func literal children named).depth ≤ r.maxDepth ∧
        node = Node.make func literal children named := by
  rw [wellShaped_iff_checks]
  unfold build
  by_cases enabled : r.enabled func = true
  · by_cases deep : r.maxDepth < (Node.make func literal children named).depth
    · simp [enabled, deep, Nat.not_le.mpr deep, bind_eq_ok_iff]
    · simp [enabled, deep, Nat.le_of_not_lt deep, bind_eq_ok_iff, map_eq_ok_iff, Unique.exists_iff,
        and_assoc, @eq_comm _ node]
  · simp [enabled, bind_eq_ok_iff]

/-- What the construction calls of a registry give over parts of a kind. A build takes its named
children as a map, that is in ascending order of their names. -/
inductive Gives (r : Registry) (part : Node → Prop) : Node → Prop where
  | build {func : Func} {literal : Option Value} {children : List Node}
      {named : List (String × Node)} {node : Node} (children_part : ∀ child ∈ children, part child)
      (named_part : ∀ entry ∈ named, part entry.2) (ordered : Keyed.Ascending named)
      (made : r.build func literal children named = .ok node) : Gives r part node
  | constant {value : Value} {node : Node} (made : r.constant value = .ok node) : Gives r part node
  | call {func : Func} {arguments : List (String × Node)} {node : Node}
      (arguments_part : ∀ entry ∈ arguments, part entry.2)
      (made : r.call func arguments = .ok node) : Gives r part node
  | variadic {func : Func} {children : List Node} {node : Node}
      (children_part : ∀ child ∈ children, part child)
      (made : r.variadic func children = .ok node) : Gives r part node
  | binary {func : Func} {left right node : Node} (left_part : part left) (right_part : part right)
      (made : r.binary func left right = .ok node) : Gives r part node
  | payload {field : String} {node : Node} (made : r.payload field = .ok node) : Gives r part node

/-- A call is a build over its arguments in order. -/
theorem build_of_call {arguments : List (String × Node)} (made : r.call func arguments = .ok node) :
    r.build func none [] (Keyed.ofList arguments) = .ok node := by
  unfold call at made
  split at made
  · cases made
  · exact made

/-- Every construction call is a build, over parts and over constants of the registry's own. -/
theorem Gives.exists_build {part : Node → Prop} (given : r.Gives part node) :
    ∃ func literal children named, (∀ child ∈ children, part child) ∧
      (∀ entry ∈ named, part entry.2 ∨ ∃ value, r.constant value = .ok entry.2) ∧
      Keyed.Ascending named ∧ r.build func literal children named = .ok node := by
  have of_call {func : Func} {arguments : List (String × Node)}
      (hold : ∀ entry ∈ arguments, part entry.2 ∨ ∃ value, r.constant value = .ok entry.2)
      (made : r.call func arguments = .ok node) :
      ∃ func literal children named, (∀ child ∈ children, part child) ∧
        (∀ entry ∈ named, part entry.2 ∨ ∃ value, r.constant value = .ok entry.2) ∧
        Keyed.Ascending named ∧ r.build func literal children named = .ok node :=
    ⟨_, _, _, _, by simp, fun entry mem => hold entry (Keyed.mem_of_mem_ofList mem),
      Keyed.ascending_ofList _, build_of_call made⟩
  cases given with
  | build children_part named_part ordered made =>
    exact ⟨_, _, _, _, children_part, fun entry mem => .inl (named_part entry mem), ordered, made⟩
  | constant made => exact ⟨_, _, _, _, by simp, by simp, Keyed.ascending_nil, made⟩
  | call arguments_part made =>
    exact of_call (fun entry mem => .inl (arguments_part entry mem)) made
  | variadic children_part made =>
    exact ⟨_, _, _, _, children_part, by simp, Keyed.ascending_nil, made⟩
  | binary left_part right_part made =>
    exact of_call (by simp [left_part, right_part]) made
  | payload made =>
    obtain ⟨name, name_made, made⟩ := bind_eq_ok_iff.mp made
    exact of_call (List.forall_mem_singleton.mpr (.inr ⟨_, name_made⟩)) made

end Registry

/-! ### Trees -/

namespace Node

variable {func : Func} {literal : Option Value} {children : List Node}
  {named : List (String × Node)} {node : Node}

theorem le_foldr_max {α : Type} (f : α → Nat) {a : α} {items : List α} (mem : a ∈ items) :
    f a ≤ items.foldr (fun item deepest => max (f item) deepest) 0 := by
  induction items with
  | nil => exact absurd mem List.not_mem_nil
  | cons head rest ih =>
    rw [List.foldr_cons]
    rcases List.mem_cons.mp mem with rfl | mem
    · exact Nat.le_max_left _ _
    · exact Nat.le_trans (ih mem) (Nat.le_max_right _ _)

/-- An unnamed child is less deep than its parent. -/
theorem depth_lt_make_of_mem {child : Node} (mem : child ∈ children) :
    child.depth < (make func literal children named).depth :=
  Nat.lt_succ_of_le (Nat.le_trans (le_foldr_max Node.depth mem) (Nat.le_max_left _ _))

/-- A named child is less deep than its parent. -/
theorem depth_lt_make_of_mem_named {entry : String × Node} (mem : entry ∈ named) :
    entry.2.depth < (make func literal children named).depth :=
  Nat.lt_succ_of_le
    (Nat.le_trans (le_foldr_max (fun entry => entry.2.depth) mem) (Nat.le_max_right _ _))

theorem mem_walkAll {nodes : List Node} : node ∈ walkAll nodes ↔ ∃ n ∈ nodes, node ∈ n.walk := by
  induction nodes with
  | nil => simp [walkAll]
  | cons head rest ih => simp [walkAll, ih]

theorem mem_walkNamed {entries : List (String × Node)} :
    node ∈ walkNamed entries ↔ ∃ entry ∈ entries, node ∈ entry.2.walk := by
  induction entries with
  | nil => simp [walkNamed]
  | cons head rest ih => obtain ⟨name, n⟩ := head; simp [walkNamed, ih]

/-- The nodes of a tree are its root and the nodes of its children. -/
theorem mem_walk {part : Node} : part ∈ node.walk ↔ part = node ∨
    (∃ child ∈ node.children, part ∈ child.walk) ∨ ∃ entry ∈ node.named, part ∈ entry.2.walk := by
  obtain ⟨func, literal, children, named, depth⟩ := node
  simp [walk, mem_walkAll, mem_walkNamed]

theorem self_mem_walk (node : Node) : node ∈ node.walk :=
  mem_walk.mpr (.inl rfl)

mutual

/-- What holds of a node once it holds of its children holds of all. -/
theorem induct {motive : Node → Prop}
    (step : ∀ node : Node, (∀ child ∈ node.children, motive child) →
      (∀ entry ∈ node.named, motive entry.2) → motive node) : ∀ node, motive node
  | ⟨func, literal, children, named, depth⟩ =>
    step ⟨func, literal, children, named, depth⟩ (inductAll step children) (inductNamed step named)

theorem inductAll {motive : Node → Prop}
    (step : ∀ node : Node, (∀ child ∈ node.children, motive child) →
      (∀ entry ∈ node.named, motive entry.2) → motive node) :
    ∀ nodes : List Node, ∀ node ∈ nodes, motive node
  | [] => nofun
  | node :: rest => List.forall_mem_cons.mpr ⟨induct step node, inductAll step rest⟩

theorem inductNamed {motive : Node → Prop}
    (step : ∀ node : Node, (∀ child ∈ node.children, motive child) →
      (∀ entry ∈ node.named, motive entry.2) → motive node) :
    ∀ entries : List (String × Node), ∀ entry ∈ entries, motive entry.2
  | [] => nofun
  | (_, node) :: rest => List.forall_mem_cons.mpr ⟨induct step node, inductNamed step rest⟩

end

/-- Trees every node of which is well shaped, has its named children in order and knows the depth
of its tree. -/
inductive Valid : Node → Prop where
  | make {func : Func} {literal : Option Value} {children : List Node}
      {named : List (String × Node)}
      (shape : WellShaped func literal children.length (named.map Prod.fst))
      (ordered : Keyed.Ascending named) (children_valid : ∀ child ∈ children, Valid child)
      (named_valid : ∀ entry ∈ named, Valid entry.2) : Valid (make func literal children named)

/-- The nodes of a valid tree are roots of valid trees. -/
theorem Valid.of_mem_walk (valid : node.Valid) {part : Node} (mem : part ∈ node.walk) :
    part.Valid := by
  induction valid with
  | make shape ordered children_valid named_valid children_parts named_parts =>
    rcases mem_walk.mp mem with rfl | ⟨child, child_mem, below⟩ | ⟨entry, entry_mem, below⟩
    · exact .make shape ordered children_valid named_valid
    · exact children_parts child child_mem below
    · exact named_parts entry entry_mem below

/-- Every function of a tree is enabled, and the tree is within the depth. -/
structure Admitted (r : Registry) (node : Node) : Prop where
  enabled : ∀ n ∈ node.walk, r.enabled n.func = true
  depth_le : node.depth ≤ r.maxDepth

/-- Trees that construction calls on registries of a kind give, from trees that such calls gave. A
build takes its named children as a map, that is in ascending order of their names. -/
inductive Built (on : Registry → Prop) : Node → Prop where
  | build {r : Registry} {func : Func} {literal : Option Value} {children : List Node}
      {named : List (String × Node)} {node : Node} (kind : on r)
      (children_built : ∀ child ∈ children, Built on child)
      (named_built : ∀ entry ∈ named, Built on entry.2) (ordered : Keyed.Ascending named)
      (made : r.build func literal children named = .ok node) : Built on node
  | constant {r : Registry} {value : Value} {node : Node} (kind : on r)
      (made : r.constant value = .ok node) : Built on node
  | call {r : Registry} {func : Func} {arguments : List (String × Node)} {node : Node}
      (kind : on r) (arguments_built : ∀ entry ∈ arguments, Built on entry.2)
      (made : r.call func arguments = .ok node) : Built on node
  | variadic {r : Registry} {func : Func} {children : List Node} {node : Node} (kind : on r)
      (children_built : ∀ child ∈ children, Built on child)
      (made : r.variadic func children = .ok node) : Built on node
  | binary {r : Registry} {func : Func} {left right node : Node} (kind : on r)
      (left_built : Built on left) (right_built : Built on right)
      (made : r.binary func left right = .ok node) : Built on node
  | payload {r : Registry} {field : String} {node : Node} (kind : on r)
      (made : r.payload field = .ok node) : Built on node

/-- A property of all built trees: what every successful `build` over children that have it gives.
The other construction calls are builds. -/
theorem Built.induct {on : Registry → Prop} {motive : Node → Prop}
    (step : ∀ {r : Registry} {func : Func} {literal : Option Value} {children : List Node}
      {named : List (String × Node)} {node : Node}, on r → (∀ child ∈ children, motive child) →
      (∀ entry ∈ named, motive entry.2) → Keyed.Ascending named →
      r.build func literal children named = .ok node → motive node)
    (built : Built on node) : motive node := by
  have of_gives : ∀ {r : Registry} {node : Node}, on r → r.Gives motive node → motive node := by
    intro r node kind given
    obtain ⟨func, literal, children, named, children_hold, named_hold, ordered, made⟩ :=
      given.exists_build
    refine step kind children_hold (fun entry mem => ?_) ordered made
    rcases named_hold entry mem with holds | ⟨value, own⟩
    · exact holds
    · exact step kind (by simp) (by simp) Keyed.ascending_nil own
  induction built with
  | build kind _ _ ordered made children_hold named_hold =>
    exact of_gives kind (.build children_hold named_hold ordered made)
  | constant kind made => exact of_gives kind (.constant made)
  | call kind _ made arguments_hold => exact of_gives kind (.call arguments_hold made)
  | variadic kind _ made children_hold => exact of_gives kind (.variadic children_hold made)
  | binary kind _ _ made left_holds right_holds =>
    exact of_gives kind (.binary left_holds right_holds made)
  | payload kind made => exact of_gives kind (.payload made)

/-- Built trees are valid, whatever registries built their parts. -/
theorem Built.valid {on : Registry → Prop} (built : Built on node) : Valid node := by
  refine Built.induct (fun _ children_valid named_valid ordered made => ?_) built
  obtain ⟨-, shape, -, rfl⟩ := Registry.build_eq_ok_iff.mp made
  exact .make shape ordered children_valid named_valid

/-- A tree has no functions but those of the registries that its parts were built on. -/
theorem Built.enabled {on : Registry → Prop} {r : Registry} (built : Built on node)
    (covered : ∀ s, on s → ∀ f, s.enabled f = true → r.enabled f = true) :
    ∀ n ∈ node.walk, r.enabled n.func = true := by
  refine Built.induct (motive := fun node => ∀ n ∈ node.walk, r.enabled n.func = true)
    (fun kind children_enabled named_enabled _ made n mem => ?_) built
  obtain ⟨enabled, -, -, rfl⟩ := Registry.build_eq_ok_iff.mp made
  rcases mem_walk.mp mem with rfl | ⟨child, child_mem, mem⟩ | ⟨entry, entry_mem, mem⟩
  · exact covered _ kind _ enabled
  · exact children_enabled child child_mem n mem
  · exact named_enabled entry entry_mem n mem

/-- A tree built on one registry alone is admitted by it. -/
theorem Built.admitted {r : Registry} (built : Built (· = r) node) : Admitted r node := by
  refine ⟨built.enabled fun s same f enabled => same ▸ enabled, ?_⟩
  refine Built.induct (motive := fun node => node.depth ≤ r.maxDepth)
    (fun same _ _ _ made => ?_) built
  obtain ⟨-, -, depth_le, rfl⟩ := Registry.build_eq_ok_iff.mp made
  exact same ▸ depth_le

end Node

/-- Over valid trees a construction call gives a valid tree. -/
theorem Registry.Gives.valid {r : Registry} {part : Node → Prop} {node : Node}
    (given : r.Gives part node) (parts_valid : ∀ n, part n → n.Valid) : node.Valid := by
  obtain ⟨func, literal, children, named, children_part, named_part, ordered, made⟩ :=
    given.exists_build
  obtain ⟨-, shape, -, rfl⟩ := build_eq_ok_iff.mp made
  apply Node.Valid.make shape ordered
  · intro child mem
    exact parts_valid child (children_part child mem)
  · intro entry mem
    rcases named_part entry mem with here | ⟨value, own⟩
    · exact parts_valid entry.2 here
    · have built : entry.2.Built (· = r) := .constant rfl own
      exact built.valid

end RiskRules
