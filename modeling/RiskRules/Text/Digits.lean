/-!
Digits and the numbers that they write.
-/

namespace RiskRules.Digits

/-- The value of a decimal digit. -/
def digit? (c : Char) : Option Nat :=
  if '0' ≤ c ∧ c ≤ '9' then some (c.toNat - '0'.toNat) else none

/-- The value of a hexadecimal digit. -/
def hexDigit? (c : Char) : Option Nat :=
  if 'a' ≤ c ∧ c ≤ 'f' then some (c.toNat - 'a'.toNat + 10)
  else if 'A' ≤ c ∧ c ≤ 'F' then some (c.toNat - 'A'.toNat + 10)
  else digit? c

/-- Splits off the decimal digits in front. -/
def leading (text : List Char) : List Nat × List Char :=
  ((text.takeWhile fun c => (digit? c).isSome).filterMap digit?,
    text.dropWhile fun c => (digit? c).isSome)

/-- The number that digits write in a base. -/
def number (base : Nat) (digits : List Nat) : Nat :=
  digits.foldl (fun n d => n * base + d) 0

end RiskRules.Digits
