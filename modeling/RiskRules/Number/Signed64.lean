/-!
Signed 64-bit arithmetic on exact results: an operation is carried out over the integers and its
result is then fitted into the range, either refused (`Signed64.fit?`) or moved to the nearer end
(`Signed64.clamp`).
-/

namespace RiskRules.Signed64

/-- The least and greatest integers of the range. -/
def least : Int := -9223372036854775808

/-- The greatest integer of the range. -/
def greatest : Int := 9223372036854775807

/-- The integer as a word, if it lies in the range. -/
def fit? (n : Int) : Option Int64 :=
  if least ≤ n ∧ n ≤ greatest then some (Int64.ofInt n) else none

/-- The integer, or the end of the range that it lies beyond. -/
def clamp (n : Int) : Int64 :=
  if n < least then Int64.ofInt least
  else if greatest < n then Int64.ofInt greatest
  else Int64.ofInt n

/-- The sum, kept at the end of the range that it would leave. -/
def addClamped (a b : Int64) : Int64 :=
  clamp (a.toInt + b.toInt)

end RiskRules.Signed64
