import RiskRules.Keyed
import RiskRules.Node

/-!
A registry says which functions may be used and how deep trees may grow, and builds nodes that obey
both and the descriptors of their functions. The first rule broken is reported.
-/

namespace RiskRules

/-! ### Malformed trees -/

/-- Which unnamed children a function asks for. -/
inductive Arity where
  | none
  | atLeast (least : Nat)
  deriving DecidableEq, Repr

/-- The text of an arity. -/
def Arity.text : Arity → String
  | .none => "no"
  | .atLeast least => "at least " ++ toString least

/-- Why a tree cannot be built. -/
inductive MalformedTree where
  | unknownFunction (func : Func)
  | unknownTag (tag : String)
  | missingArgument (func : Func) (argument : String)
  | unexpectedArgument (func : Func) (argument : String)
  | duplicateArgument (func : Func) (argument : String)
  | arity (func : Func) (expected : Arity) (actual : Nat)
  | missingConstant
  | nonFiniteConstant
  | unexpectedConstant (func : Func)
  | tooDeep (limit actual : Nat)
  deriving DecidableEq, Repr

/-- The text of a malformed tree. -/
def MalformedTree.message : MalformedTree → String
  | .unknownFunction func => "function " ++ func.name ++ " is not registered"
  | .unknownTag tag => "unknown function tag `" ++ tag ++ "`"
  | .missingArgument func argument =>
    func.name ++ " is missing required argument `" ++ argument ++ "`"
  | .unexpectedArgument func argument =>
    func.name ++ " does not accept argument `" ++ argument ++ "`"
  | .duplicateArgument func argument =>
    func.name ++ " received argument `" ++ argument ++ "` more than once"
  | .arity func expected actual =>
    func.name ++ " expects " ++ expected.text ++ " positional children, got " ++ toString actual
  | .missingConstant => "constant node requires a literal value"
  | .nonFiniteConstant => "constant literal must not contain NaN or infinite floats"
  | .unexpectedConstant func => func.name ++ " does not carry a literal value"
  | .tooDeep limit actual =>
    "node tree too deep: " ++ toString actual ++ " levels (max " ++ toString limit ++ ")"

/-! ### Registries -/

/-- The functions in use and the greatest depth of a tree, at least one. -/
structure Registry where
  enabled : Func → Bool
  maxDepth : Nat
  one_le_maxDepth : 1 ≤ maxDepth

namespace Registry

/-- The depth that trees may reach unless another is set. -/
def defaultDepth : Nat := 64

/-- The functions given, to the default depth. -/
def ofFunctions (funcs : List Func) : Registry :=
  ⟨funcs.contains, defaultDepth, by decide⟩

/-- All functions, to the default depth. -/
def standard : Registry :=
  ⟨fun _ => true, defaultDepth, by decide⟩

/-- The same functions to another depth; a depth of zero counts as one. -/
def withMaxDepth (r : Registry) (depth : Nat) : Registry :=
  ⟨r.enabled, max 1 depth, Nat.le_max_left 1 depth⟩

/-- The functions in use, as listed. -/
def functions (r : Registry) : List Func :=
  Func.all.filter r.enabled

/-- The function in use that has a tag. -/
def resolve (r : Registry) (tag : String) : Except MalformedTree Func :=
  match r.functions.find? fun f => f.tag == tag with
  | some f => .ok f
  | none => .error (.unknownTag tag)

/-! ### Building -/

/-- A constant carries a value and nothing else does. -/
def checkLiteral (func : Func) (literal : Option Value) : Except MalformedTree Unit :=
  match literal with
  | none => if func = .constant then .error .missingConstant else .ok ()
  | some value =>
    if func ≠ .constant then .error (.unexpectedConstant func)
    else if value.allFinite then .ok ()
    else .error .nonFiniteConstant

/-- Unnamed children stand only where the function takes them, and enough of them. -/
def checkArity (func : Func) (count : Nat) : Except MalformedTree Unit :=
  match func.descriptor.variadic with
  | some least => if count < least then .error (.arity func (.atLeast least) count) else .ok ()
  | none => if 0 < count then .error (.arity func .none count) else .ok ()

/-- Every required argument is there, and none that the function does not take. -/
def checkNames (func : Func) (names : List String) : Except MalformedTree Unit :=
  let missing := func.descriptor.parameters.find? fun p => p.required && !names.contains p.name
  match missing with
  | some p => .error (.missingArgument func p.name)
  | none =>
    match names.find? fun name => !func.descriptor.takes name with
    | some name => .error (.unexpectedArgument func name)
    | none => .ok ()

/-- Builds a node. The named children stand in ascending order of their names. -/
def build (r : Registry) (func : Func) (literal : Option Value) (children : List Node)
    (named : List (String × Node)) : Except MalformedTree Node := do
  if !r.enabled func then .error (.unknownFunction func)
  checkLiteral func literal
  checkArity func children.length
  checkNames func (named.map Prod.fst)
  let node := Node.make func literal children named
  if r.maxDepth < node.depth then .error (.tooDeep r.maxDepth node.depth)
  return node

/-- Builds a constant. -/
def constant (r : Registry) (value : Value) : Except MalformedTree Node :=
  r.build .constant (some value) [] []

/-- Builds a node from named children in any order; a name may be given once. -/
def call (r : Registry) (func : Func) (arguments : List (String × Node)) :
    Except MalformedTree Node :=
  match Keyed.firstRepeat [] (arguments.map Prod.fst) with
  | some name => .error (.duplicateArgument func name)
  | none => r.build func none [] (Keyed.ofList arguments)

/-- Builds a node from unnamed children. -/
def variadic (r : Registry) (func : Func) (children : List Node) : Except MalformedTree Node :=
  r.build func none children []

/-- Builds a node of two operands. -/
def binary (r : Registry) (func : Func) (left right : Node) : Except MalformedTree Node :=
  r.call func [("left", left), ("right", right)]

/-- Builds the lookup of a payload field. -/
def payload (r : Registry) (field : String) : Except MalformedTree Node := do
  r.call .payload [("fieldName", ← r.constant (.string field))]

end Registry

end RiskRules
