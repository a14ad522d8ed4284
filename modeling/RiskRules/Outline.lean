import RiskRules.Registry

/-!
Trees as documents hold them: functions by tag, nothing checked. `Outline.ofNode` writes a tree so,
and `Registry.decode` reads one, level by level from the root; too deep a level is refused before
anything in it is looked at.
-/

namespace RiskRules

/-- An unchecked node. Named children stand in ascending order of their names. -/
structure Outline where
  tag : String
  literal : Option Value
  children : List Outline
  named : List (String × Outline)

namespace Outline

mutual

/-- The outline of a tree. -/
def ofNode : Node → Outline
  | ⟨func, literal, children, named, _⟩ =>
    ⟨func.tag, literal, ofNodes children, ofNamed named⟩

/-- The outlines of trees. -/
def ofNodes : List Node → List Outline
  | [] => []
  | node :: rest => ofNode node :: ofNodes rest

/-- The outlines of named trees. -/
def ofNamed : List (String × Node) → List (String × Outline)
  | [] => []
  | (name, node) :: rest => (name, ofNode node) :: ofNamed rest

end

mutual

/-- The levels of an outline. -/
def height : Outline → Nat
  | ⟨_, _, children, named⟩ => max (heightAll children) (heightNamed named) + 1

/-- The levels of the tallest outline. -/
def heightAll : List Outline → Nat
  | [] => 0
  | outline :: rest => max (height outline) (heightAll rest)

/-- The levels of the tallest named outline. -/
def heightNamed : List (String × Outline) → Nat
  | [] => 0
  | (_, outline) :: rest => max (height outline) (heightNamed rest)

end

end Outline

namespace Registry

mutual

/-- Decodes an outline that stands at a level, the root at 1. -/
def decodeAt (r : Registry) (level : Nat) : Outline → Except MalformedTree Node
  | ⟨tag, literal, children, named⟩ => do
    if r.maxDepth < level then .error (.tooDeep r.maxDepth level)
    let func ← r.resolve tag
    let children ← decodeAll r (level + 1) children
    let named ← decodeNamed r (level + 1) named
    r.build func literal children named

/-- Decodes outlines of one level. -/
def decodeAll (r : Registry) (level : Nat) : List Outline → Except MalformedTree (List Node)
  | [] => .ok []
  | outline :: rest => return (← decodeAt r level outline) :: (← decodeAll r level rest)

/-- Decodes named outlines of one level. -/
def decodeNamed (r : Registry) (level : Nat) :
    List (String × Outline) → Except MalformedTree (List (String × Node))
  | [] => .ok []
  | (name, outline) :: rest =>
    return (name, ← decodeAt r level outline) :: (← decodeNamed r level rest)

end

/-- Decodes an outline. -/
def decode (r : Registry) (outline : Outline) : Except MalformedTree Node :=
  r.decodeAt 1 outline

end Registry

end RiskRules
