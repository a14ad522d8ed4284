import RiskRules.Number.Decimal
import RiskRules.Json.Basic
import RiskRules.Text.Digits

/-!
Number text in JSON: an optional minus, whole digits without a leading zero, a fraction, an
exponent. A number with a fraction or an exponent is read by scaling its digits by a power of ten in
binary64, so that it may come out beside the nearest binary64 number: `0.9999999999999999` is 1.
-/

namespace RiskRules.Json

open Digits (leading number)

/-- The digits after a point, and the rest; none when the point stands alone. -/
def fractionDigits : List Char → Option (List Nat × List Char)
  | '.' :: rest =>
    match leading rest with
    | ([], _) => none
    | (digits, rest) => some (digits, rest)
  | rest => some ([], rest)

/-- The exponent that ends a number, zero when there is none; nothing may follow. -/
def exponentPart : List Char → Option (Option Int)
  | [] => some none
  | c :: rest =>
    if c = 'e' ∨ c = 'E' then
      let (negative, rest) :=
        match rest with
        | '-' :: rest => (true, rest)
        | '+' :: rest => (false, rest)
        | rest => (false, rest)
      match leading rest with
      | ([], _) => none
      | (digits, []) =>
        let size : Int := number 10 digits
        some (some (if negative then -size else size))
      | _ => none
    else none

/-! ### Scaling -/

/-- Takes up digits for as long as the number stays within 64 bits; the rest is left. -/
def takeDigits (n : Nat) : List Nat → Nat × List Nat
  | [] => (n, [])
  | d :: rest =>
    if n * 10 + d < 0x10000000000000000 then takeDigits (n * 10 + d) rest else (n, d :: rest)

/-- A power of ten, rounded to binary64. -/
def powerOfTen (exponent : Nat) : Float :=
  (Decimal.nearest false (Nat.pow 10 exponent) 1).getD (Decimal.withSign false 0)

/-- A number of at most 64 bits times a power of ten, each rounded before they are multiplied or
divided; none when the result is infinite. Two steps of `10^308` take any such number to zero. -/
def scaled (n : Nat) (exponent : Int) : Option Float :=
  let x := (UInt64.ofNat n).toFloat
  if n = 0 then some x
  else if 308 < exponent then none
  else if 0 ≤ exponent then
    let y := x * powerOfTen exponent.toNat
    if isFinite y then some y else none
  else
    let places := (-exponent).toNat
    if places ≤ 308 then some (x / powerOfTen places)
    else if places ≤ 616 then some (x / powerOfTen 308 / powerOfTen (places - 308))
    else some (Decimal.withSign false 0)

/-- A number that binary64 holds, under its sign, or an unreadable part. -/
def ofScaled (negative : Bool) : Option Float → Json
  | some x => .float (if negative then -x else x)
  | none => .unreadable .unread

/-- A number with whole digits, digits after the point and an exponent. Whole digits beyond 64 bits
count as powers of ten, and digits after the point beyond them are dropped. -/
def ofParts (negative : Bool) (whole fraction : List Nat) (exponent : Int) : Json :=
  let (n, uncounted) := takeDigits 0 whole
  let (n, dropped) := takeDigits n fraction
  let places : Int := fraction.length - dropped.length
  ofScaled negative (scaled n (exponent + uncounted.length - places))

/-- A whole number: itself within 64 bits, otherwise a binary64 number; so is minus zero. -/
def wholeNumber (negative : Bool) (digits : List Nat) : Json :=
  let n := number 10 digits
  if negative then
    if 0 < n ∧ n ≤ 0x8000000000000000 then .int (-(n : Int)) else ofParts true digits [] 0
  else if n < 0x10000000000000000 then .int n
  else ofParts false digits [] 0

/-! ### Reading -/

/-- The value that a number text writes; none if it is no number text. -/
def ofNumberText (text : List Char) : Option Json :=
  let (negative, text) :=
    match text with
    | '-' :: rest => (true, rest)
    | text => (false, text)
  match leading text with
  | ([], _) => none
  | (whole, rest) =>
    if whole.head? = some 0 ∧ whole.length ≠ 1 then none
    else
      match fractionDigits rest with
      | none => none
      | some (fraction, rest) =>
        match exponentPart rest with
        | none => none
        | some exponent =>
          if fraction.isEmpty && exponent.isNone then some (wholeNumber negative whole)
          else some (ofParts negative whole fraction (exponent.getD 0))

/-- The binary64 number nearest to a whole number. -/
def floatOfInt (n : Int) : Float :=
  (Decimal.read (decide (n < 0)) n.natAbs 0).getD (Decimal.withSign false 0)

end RiskRules.Json
