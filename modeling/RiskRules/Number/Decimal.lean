import RiskRules.Number.Binary64

/-!
Decimal numerals and binary64 numbers.

`Decimal.nearest` rounds a ratio of whole numbers to the nearest binary64 number, a half going to
the even neighbour; `Decimal.read` applies it to digits and a power of ten. `Decimal.shortest`
goes the other way: the fewest digits that read back, and of these the nearest.
-/

namespace RiskRules.Decimal

/-! ### Rounding -/

/-- The quotient rounded to the nearest whole number, a half going to the even one. -/
def roundHalfEven (num den : Nat) : Nat :=
  let q := num / den
  let twice := 2 * (num % den)
  if twice < den then q
  else if den < twice then q + 1
  else q + q % 2

/-- The power of two at or below a positive ratio: `2^k ≤ num / den < 2^(k+1)`. -/
def binade (num den : Nat) : Int :=
  let guess : Int := (num.log2 : Int) - den.log2
  let reached :=
    if 0 ≤ guess then den * Nat.pow 2 guess.toNat ≤ num else den ≤ num * Nat.pow 2 (-guess).toNat
  if reached then guess else guess - 1

/-- Bits of positive infinity, the first word above every finite one. -/
def infinityBits : Nat := 2047 * 0x10000000000000

/-- Bits of the binary64 number nearest to a positive ratio; at least `infinityBits` when the ratio
rounds beyond the largest one. -/
def nearestBits (num den : Nat) : Nat :=
  let scale : Int := max (binade num den - 52) (-1074)
  let mantissa :=
    if 0 ≤ scale then roundHalfEven num (den * Nat.pow 2 scale.toNat)
    else roundHalfEven (num * Nat.pow 2 (-scale).toNat) den
  (scale + 1074).toNat * 0x10000000000000 + mantissa

/-- Puts the sign bit in front. -/
def withSign (negative : Bool) (bits : Nat) : Float :=
  Float.ofBits (UInt64.ofNat (if negative then 0x8000000000000000 + bits else bits))

/-- The binary64 number nearest to `± num / den`; none when it would be infinite. -/
def nearest (negative : Bool) (num den : Nat) : Option Float :=
  if num = 0 then some (withSign negative 0)
  else
    let bits := nearestBits num den
    if bits < infinityBits then some (withSign negative bits) else none

/-- The number `± digits · 10^exponent`. Exponents far outside the range of binary64 are decided
by the count of digits alone. -/
def read (negative : Bool) (digits : Nat) (exponent : Int) : Option Float :=
  if digits = 0 then some (withSign negative 0)
  else
    let size : Int := digits.log2 / 3 + 1
    if exponent + size < -400 then some (withSign negative 0)
    else if 400 < exponent then none
    else if 0 ≤ exponent then nearest negative (digits * Nat.pow 10 exponent.toNat) 1
    else nearest negative digits (Nat.pow 10 (-exponent).toNat)

/-! ### Shortest numerals -/

/-- Digits and a power of ten. -/
structure Numeral where
  digits : Nat
  exponent : Int
  deriving DecidableEq, Repr

/-- The least power of ten above a positive ratio, searched upward from a start. -/
def tensAbove (num den : Nat) : Nat → Int → Int
  | 0, k => k
  | fuel + 1, k =>
    let below := if 0 ≤ k then num < den * Nat.pow 10 k.toNat else num * Nat.pow 10 (-k).toNat < den
    if below then k else tensAbove num den fuel (k + 1)

/-- The two multiples of `10^exponent` around a ratio, the nearer first, or the even one of two that
are equally near. -/
def neighbours (num den : Nat) (exponent : Int) : List Numeral :=
  let (n, d) :=
    if 0 ≤ exponent then (num, den * Nat.pow 10 exponent.toNat)
    else (num * Nat.pow 10 (-exponent).toNat, den)
  let low := n / d
  if 2 * (n % d) < d ∨ (2 * (n % d) = d ∧ low % 2 = 0) then [⟨low, exponent⟩, ⟨low + 1, exponent⟩]
  else [⟨low + 1, exponent⟩, ⟨low, exponent⟩]

/-- The first numeral on ever finer grids that passes the test. -/
def firstOnGrids (num den : Nat) (accepts : Numeral → Bool) : Nat → Int → Option Numeral
  | 0, _ => none
  | fuel + 1, exponent =>
    match (neighbours num den exponent).find? accepts with
    | some numeral => some numeral
    | none => firstOnGrids num den accepts fuel (exponent - 1)

/-- Moves zeros at the end of the digits into the exponent. -/
def trimZeros : Nat → Numeral → Numeral
  | 0, n => n
  | fuel + 1, n =>
    if n.digits % 10 = 0 ∧ n.digits ≠ 0 then trimZeros fuel ⟨n.digits / 10, n.exponent + 1⟩
    else n

/-- The exact numeral of `mantissa · 2^exponent`. -/
def exact (mantissa : Nat) (exponent : Int) : Numeral :=
  if 0 ≤ exponent then ⟨mantissa * Nat.pow 2 exponent.toNat, 0⟩
  else ⟨mantissa * Nat.pow 5 (-exponent).toNat, exponent⟩

/-- The numeral of fewest digits that reads back as `mantissa · 2^exponent`, and of these the
nearest to it, or the even one of two that are equally near. -/
def shortest (mantissa : Nat) (exponent : Int) : Numeral :=
  if mantissa = 0 then ⟨0, 0⟩
  else
    let (num, den) :=
      if 0 ≤ exponent then (mantissa * Nat.pow 2 exponent.toNat, 1)
      else (mantissa, Nat.pow 2 (-exponent).toNat)
    let target := nearest false num den
    let readsBack := fun n : Numeral =>
      decide (n.digits ≠ 0 ∧ read false n.digits n.exponent = target)
    let top := tensAbove num den 700 (binade num den * 30103 / 100000 - 1)
    match firstOnGrids num den readsBack 17 (top - 1) with
    | some numeral => trimZeros 20 numeral
    | none => exact mantissa exponent

/-! ### Number text -/

/-- Decimal digits of a number. -/
def digitsOf (n : Nat) : List Char :=
  Nat.toDigits 10 n

/-- Positional notation: digits with the point `exponent` places from their end. -/
def positional (digits : List Char) (exponent : Int) : List Char :=
  if 0 ≤ exponent then digits ++ List.replicate exponent.toNat '0' ++ ['.', '0']
  else
    let places := (-exponent).toNat
    if places < digits.length then
      digits.take (digits.length - places) ++ '.' :: digits.drop (digits.length - places)
    else ['0', '.'] ++ List.replicate (places - digits.length) '0' ++ digits

/-- Scientific notation: one digit before the point, a signed exponent. -/
def scientific (digits : List Char) (magnitude : Int) : List Char :=
  let power := digitsOf magnitude.natAbs
  let sign := if magnitude < 0 then '-' else '+'
  match digits with
  | [] => []
  | [d] => d :: 'e' :: sign :: power
  | d :: rest => d :: '.' :: rest ++ 'e' :: sign :: power

/-- The text of a finite number: positional when its first digit stands at a power of ten from
`-5` to `15`, scientific outside; a whole number keeps `.0`. -/
def render (negative : Bool) (mantissa : Nat) (exponent : Int) : String :=
  let numeral := shortest mantissa exponent
  let digits := digitsOf numeral.digits
  let magnitude := numeral.exponent + digits.length - 1
  let body :=
    if mantissa = 0 then ['0', '.', '0']
    else if -5 ≤ magnitude ∧ magnitude < 16 then positional digits numeral.exponent
    else scientific digits magnitude
  String.ofList (if negative then '-' :: body else body)

end RiskRules.Decimal
