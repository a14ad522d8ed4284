import RiskRules.Number.Binary64
import RiskRules.Time.Timestamp

/-!
The values that expressions are made of and give back. The set of kinds is closed: integers are
signed 64-bit words, numbers with a point are binary64, timestamps keep their offset, and a score is
what a scoring rule yields.
-/

namespace RiskRules

/-- What a scoring rule yields: whether it applied, what it adds, and the least final score that it
demands. -/
structure ScoreResult where
  triggered : Bool
  modifier : Int64
  floor : Int64
  deriving DecidableEq

/-- A rule that did not apply adds and demands nothing. -/
def ScoreResult.notTriggered : ScoreResult :=
  ⟨false, 0, 0⟩

/-- A value. -/
inductive Value where
  | null
  | bool (b : Bool)
  | int (i : Int64)
  | float (x : Float)
  | string (s : String)
  | timestamp (t : Timestamp)
  | list (items : List Value)
  | score (s : ScoreResult)

namespace Value

/-! ### Kinds -/

/-- The kind of a value. -/
inductive Kind where
  | null | bool | int | float | string | timestamp | list | score
  deriving DecidableEq, Repr

/-- The name of a kind. -/
def Kind.name : Kind → String
  | .null => "null"
  | .bool => "bool"
  | .int => "int"
  | .float => "float"
  | .string => "string"
  | .timestamp => "timestamp"
  | .list => "list"
  | .score => "score"

/-- The kind of a value. -/
def kind : Value → Kind
  | .null => .null
  | .bool _ => .bool
  | .int _ => .int
  | .float _ => .float
  | .string _ => .string
  | .timestamp _ => .timestamp
  | .list _ => .list
  | .score _ => .score

/-- The truth value, if it is one. -/
def bool? : Value → Option Bool
  | .bool b => some b
  | _ => none

/-- The integer, if it is one. -/
def int? : Value → Option Int64
  | .int i => some i
  | _ => none

/-- The text, if it is one. -/
def string? : Value → Option String
  | .string s => some s
  | _ => none

/-- The timestamp, if it is one. -/
def timestamp? : Value → Option Timestamp
  | .timestamp t => some t
  | _ => none

/-- The items, if it is a list. -/
def list? : Value → Option (List Value)
  | .list items => some items
  | _ => none

/-- The score, if it is one. -/
def score? : Value → Option ScoreResult
  | .score s => some s
  | _ => none

/-- The absent value. -/
def isNull : Value → Bool
  | .null => true
  | _ => false

/-! ### Finite values -/

mutual

/-- No number in the value is infinite or a non-number. -/
def allFinite : Value → Bool
  | .float x => isFinite x
  | .list items => allFiniteItems items
  | _ => true

/-- No number in the values is infinite or a non-number. -/
def allFiniteItems : List Value → Bool
  | [] => true
  | item :: rest => allFinite item && allFiniteItems rest

end

/-! ### Equality of values of one kind -/

mutual

/-- Equal values of one kind: numbers as numbers, timestamps as instants, lists item by item. -/
def same : Value → Value → Bool
  | .null, .null => true
  | .bool a, .bool b => a == b
  | .int a, .int b => a == b
  | .float a, .float b => sameNumber a b
  | .string a, .string b => a == b
  | .timestamp a, .timestamp b => a.same b
  | .list a, .list b => sameItems a b
  | .score a, .score b => a == b
  | _, _ => false

/-- Lists of equal values. -/
def sameItems : List Value → List Value → Bool
  | [], [] => true
  | a :: as, b :: bs => same a b && sameItems as bs
  | _, _ => false

end

end Value

end RiskRules
