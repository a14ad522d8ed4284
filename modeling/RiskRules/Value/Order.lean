import RiskRules.Value

/-!
Comparing values across kinds. An integer and a binary64 number compare by their exact values;
beyond that only values of one kind are equal, and only numbers, texts and timestamps are ordered.
-/

namespace RiskRules.Value

/-! ### Equality -/

mutual

/-- Equal values, an integer and a binary64 number by their exact values. -/
def equal : Value → Value → Bool
  | .int i, .float x => Binary64.compareInt i (.ofFloat x) == some .eq
  | .float x, .int i => Binary64.compareInt i (.ofFloat x) == some .eq
  | .list a, .list b => equalItems a b
  | .null, .null => true
  | .bool a, .bool b => a == b
  | .int a, .int b => a == b
  | .float a, .float b => sameNumber a b
  | .string a, .string b => a == b
  | .timestamp a, .timestamp b => a.same b
  | .score a, .score b => a == b
  | _, _ => false

/-- Lists of one length with equal items. -/
def equalItems : List Value → List Value → Bool
  | [], [] => true
  | a :: as, b :: bs => equal a b && equalItems as bs
  | _, _ => false

end

/-! ### Order -/

/-- Why two values have no order. -/
inductive Unordered where
  | nullLeft
  | nullRight
  | kinds
  | notANumber
  deriving DecidableEq, Repr

/-- The order of two numbers that may not have one. -/
def orderOf : Option Ordering → Except Unordered Ordering
  | some o => .ok o
  | none => .error .notANumber

/-- The order of two values. -/
def compare : Value → Value → Except Unordered Ordering
  | .null, _ => .error .nullLeft
  | _, .null => .error .nullRight
  | .int a, .int b => .ok (Ord.compare a b)
  | .float a, .float b => orderOf (Binary64.compare (.ofFloat a) (.ofFloat b))
  | .int a, .float b => orderOf (Binary64.compareInt a (.ofFloat b))
  | .float a, .int b => orderOf ((Binary64.compareInt b (.ofFloat a)).map Ordering.swap)
  | .string a, .string b => .ok (Ord.compare a b)
  | .timestamp a, .timestamp b => .ok (a.compare b)
  | _, _ => .error .kinds

end RiskRules.Value
