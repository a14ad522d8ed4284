import RiskRules.Func
import RiskRules.Value

/-!
Expression trees. A node applies a function to unnamed and named children; a constant carries its
value instead. Each node keeps the depth of its tree, so that a limit is checked without walking;
`Node.height` is the depth counted by walking.
-/

namespace RiskRules

/-- A node of an expression tree. Named children stand in ascending order of their names. -/
structure Node where
  func : Func
  literal : Option Value
  children : List Node
  named : List (String × Node)
  depth : Nat

namespace Node

/-! ### Depth -/

/-- The greatest depth among the children. -/
def childDepth (children : List Node) (named : List (String × Node)) : Nat :=
  max (children.foldr (fun node deepest => max node.depth deepest) 0)
    (named.foldr (fun entry deepest => max entry.2.depth deepest) 0)

/-- A node one level above its children. -/
def make (func : Func) (literal : Option Value) (children : List Node)
    (named : List (String × Node)) : Node :=
  ⟨func, literal, children, named, childDepth children named + 1⟩

mutual

/-- The levels of a tree. -/
def height : Node → Nat
  | ⟨_, _, children, named, _⟩ => max (heightAll children) (heightNamed named) + 1

/-- The levels of the tallest tree. -/
def heightAll : List Node → Nat
  | [] => 0
  | node :: rest => max (height node) (heightAll rest)

/-- The levels of the tallest named tree. -/
def heightNamed : List (String × Node) → Nat
  | [] => 0
  | (_, node) :: rest => max (height node) (heightNamed rest)

end

/-! ### Walking -/

mutual

/-- All nodes of a tree, each before its children, unnamed children before named ones. -/
def walk : Node → List Node
  | ⟨func, literal, children, named, depth⟩ =>
    ⟨func, literal, children, named, depth⟩ :: (walkAll children ++ walkNamed named)

/-- All nodes of the trees. -/
def walkAll : List Node → List Node
  | [] => []
  | node :: rest => walk node ++ walkAll rest

/-- All nodes of the named trees. -/
def walkNamed : List (String × Node) → List Node
  | [] => []
  | (_, node) :: rest => walk node ++ walkNamed rest

end

/-! ### Equality -/

/-- Equal values where both are given. -/
def sameLiteral : Option Value → Option Value → Bool
  | none, none => true
  | some a, some b => a.same b
  | _, _ => false

mutual

/-- Equal trees: numbers as numbers, timestamps as instants. -/
def same : Node → Node → Bool
  | ⟨f, a, as, ns, d⟩, ⟨g, b, bs, ms, e⟩ =>
    f == g && sameLiteral a b && sameAll as bs && sameNamed ns ms && d == e

/-- Equal lists of trees. -/
def sameAll : List Node → List Node → Bool
  | [], [] => true
  | a :: as, b :: bs => same a b && sameAll as bs
  | _, _ => false

/-- Equal lists of named trees. -/
def sameNamed : List (String × Node) → List (String × Node) → Bool
  | [], [] => true
  | (k, a) :: as, (l, b) :: bs => k == l && same a b && sameNamed as bs
  | _, _ => false

end

end Node

end RiskRules
