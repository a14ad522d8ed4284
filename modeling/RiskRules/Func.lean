/-!
The functions that expression trees apply. Each has a descriptor: the name shown in messages, the
tag written in documents, the named arguments it takes and, if it takes unnamed ones, the least
number of them.
-/

namespace RiskRules

/-- A function. -/
inductive Func where
  | constant
  | payload
  | variable
  | customListAccess
  | databaseAccess
  | and
  | or
  | not
  | equal
  | notEqual
  | greater
  | greaterOrEqual
  | less
  | lessOrEqual
  | add
  | subtract
  | multiply
  | divide
  | isNull
  | isInList
  | isNotInList
  | stringContains
  | stringStartsWith
  | stringEndsWith
  | stringLower
  | parseTimestamp
  | timeAdd
  | secondsBetween
  | scoreComputation
  | switch
  deriving DecidableEq, Repr

/-- A named argument. -/
structure Parameter where
  name : String
  required : Bool
  deriving DecidableEq, Repr

/-- What a function is called and what it takes. -/
structure Descriptor where
  name : String
  tag : String
  parameters : List Parameter
  variadic : Option Nat
  deriving DecidableEq, Repr

namespace Descriptor

/-- A function of required named arguments. -/
def ofNames (name tag : String) (parameters : List String) : Descriptor :=
  ⟨name, tag, parameters.map (⟨·, true⟩), none⟩

/-- A function of two operands. -/
def binary (name tag : String) : Descriptor :=
  ofNames name tag ["left", "right"]

/-- A function of unnamed arguments, at least so many. -/
def ofList (name : String) (least : Nat) : Descriptor :=
  ⟨name, name, [], some least⟩

/-- The function takes an argument of this name. -/
def takes (d : Descriptor) (name : String) : Bool :=
  d.parameters.any fun p => p.name == name

end Descriptor

namespace Func

/-- All functions, in the order in which they are listed. -/
def all : List Func :=
  [.constant, .payload, .variable, .customListAccess, .databaseAccess, .and, .or, .not, .equal,
    .notEqual, .greater, .greaterOrEqual, .less, .lessOrEqual, .add, .subtract, .multiply, .divide,
    .isNull, .isInList, .isNotInList, .stringContains, .stringStartsWith, .stringEndsWith,
    .stringLower, .parseTimestamp, .timeAdd, .secondsBetween, .scoreComputation, .switch]

/-- The descriptor of a function. -/
def descriptor : Func → Descriptor
  | .constant => .ofNames "Constant" "Constant" []
  | .payload => .ofNames "Payload" "Payload" ["fieldName"]
  | .variable => .ofNames "Variable" "Variable" ["varname"]
  | .customListAccess => .ofNames "CustomListAccess" "CustomListAccess" ["customListId"]
  | .databaseAccess =>
    .ofNames "DatabaseAccess" "DatabaseAccess" ["tableName", "fieldName", "path"]
  | .and => .ofList "And" 1
  | .or => .ofList "Or" 1
  | .not => .ofNames "Not" "Not" ["value"]
  | .equal => .binary "Equal" "="
  | .notEqual => .binary "NotEqual" "≠"
  | .greater => .binary "Greater" ">"
  | .greaterOrEqual => .binary "GreaterOrEqual" "≥"
  | .less => .binary "Less" "<"
  | .lessOrEqual => .binary "LessOrEqual" "≤"
  | .add => .binary "Add" "+"
  | .subtract => .binary "Subtract" "-"
  | .multiply => .binary "Multiply" "*"
  | .divide => .binary "Divide" "/"
  | .isNull => .ofNames "IsNull" "IsNull" ["value"]
  | .isInList => .ofNames "IsInList" "IsInList" ["value", "list"]
  | .isNotInList => .ofNames "IsNotInList" "IsNotInList" ["value", "list"]
  | .stringContains => .ofNames "StringContains" "StringContains" ["haystack", "needle"]
  | .stringStartsWith => .ofNames "StringStartsWith" "StringStartsWith" ["haystack", "needle"]
  | .stringEndsWith => .ofNames "StringEndsWith" "StringEndsWith" ["haystack", "needle"]
  | .stringLower => .ofNames "StringLower" "StringLower" ["value"]
  | .parseTimestamp => .ofNames "ParseTimestamp" "ParseTimestamp" ["value"]
  | .timeAdd => .ofNames "TimeAdd" "TimeAdd" ["timestamp", "seconds"]
  | .secondsBetween => .ofNames "SecondsBetween" "SecondsBetween" ["start", "end"]
  | .scoreComputation =>
    ⟨"ScoreComputation", "ScoreComputation",
      [⟨"condition", true⟩, ⟨"modifier", true⟩, ⟨"floor", false⟩], none⟩
  | .switch => .ofList "Switch" 0

/-- The name of a function in messages. -/
def name (f : Func) : String :=
  f.descriptor.name

/-- The tag of a function in tree documents. -/
def tag (f : Func) : String :=
  f.descriptor.tag

/-- The function of a name. -/
def ofName? (name : String) : Option Func :=
  all.find? fun f => f.name == name

end Func

end RiskRules
