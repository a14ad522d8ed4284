import RiskRules.Number.Decimal
import RiskRules.Text.Digits
import RiskRules.Time.Calendar
import RiskRules.Toml.Basic

/-!
The scalars of TOML that stand without quotes: booleans, whole numbers in four bases, binary64
numbers, dates and times. Digits may be parted by single underscores; whole numbers lie within 128
bits, and no binary64 number may overflow.
-/

namespace RiskRules.Toml.Scalar

open Digits (digit? hexDigit? number)

/-! ### Numbers -/

/-- Digits parted by single underscores, `afterDigit` telling whether one may come now. -/
def grouped (read : Char → Option Nat) : Bool → List Char → Option (List Nat)
  | afterDigit, [] => if afterDigit then some [] else none
  | afterDigit, c :: rest =>
    if c = '_' then if afterDigit then grouped read false rest else none
    else do return (← read c) :: (← grouped read true rest)

/-- A digit below a base. -/
def digitBelow (base : Nat) (c : Char) : Option Nat :=
  (hexDigit? c).filter (· < base)

/-- Whole decimal digits: none leads with a zero, except zero itself. -/
def wholeDigits (text : List Char) : Option (List Nat) :=
  (grouped digit? false text).filter fun digits => digits.head? ≠ some 0 || digits.length = 1

/-- Splits off a sign. -/
def sign : List Char → Bool × List Char
  | '+' :: rest => (false, rest)
  | '-' :: rest => (true, rest)
  | text => (false, text)

/-- A whole number within 128 bits. -/
def wholeNumber (negative : Bool) (n : Nat) : Option Toml :=
  if negative then if n ≤ 0x80000000000000000000000000000000 then some (.int (-(n : Int))) else none
  else if n < 0x100000000000000000000000000000000 then some (.int n)
  else none

/-- A whole number without sign in a base. -/
def based (base : Nat) (text : List Char) : Option Toml := do
  wholeNumber false (number base (← grouped (digitBelow base) false text))

/-- A whole number, in base 2, 8, 10 or 16. -/
def whole? (text : List Char) : Option Toml :=
  match text with
  | '0' :: 'x' :: rest => based 16 rest
  | '0' :: 'o' :: rest => based 8 rest
  | '0' :: 'b' :: rest => based 2 rest
  | _ => do
    let (negative, rest) := sign text
    wholeNumber negative (number 10 (← wholeDigits rest))

/-- Splits a text at the first of some characters. -/
def splitAtAny (marks : List Char) (text : List Char) : List Char × Option (List Char) :=
  match text.span fun c => !marks.contains c with
  | (front, []) => (front, none)
  | (front, _ :: rest) => (front, some rest)

/-- Digits that are there if their mark is. -/
def marked (text : Option (List Char)) : Option (List Nat) :=
  match text with
  | none => some []
  | some text => grouped digit? false text

/-- The exponent of a number. -/
def exponent? : Option (List Char) → Option Int
  | none => some 0
  | some text => do
    let (negative, rest) := sign text
    let size : Int := number 10 (← grouped digit? false rest)
    return if negative then -size else size

/-- A binary64 number: it has a fraction, an exponent, or both. -/
def float? (text : List Char) : Option Toml := do
  let (negative, rest) := sign text
  if rest = "inf".toList then return .float (Decimal.withSign negative Decimal.infinityBits)
  if rest = "nan".toList then return .float (Decimal.withSign negative (Decimal.infinityBits + 1))
  let (mantissa, exponent) := splitAtAny ['e', 'E'] rest
  let (front, fraction) := splitAtAny ['.'] mantissa
  if exponent.isNone && fraction.isNone then none
  let digits ← wholeDigits front
  let places ← marked fraction
  let scale := (← exponent? exponent) - places.length
  return .float (← Decimal.read negative (number 10 (digits ++ places)) scale)

/-! ### Dates and times -/

/-- A number of exactly so many digits, and the rest. -/
def digits? (count : Nat) (text : List Char) : Option (Nat × List Char) := do
  let read ← (text.take count).mapM digit?
  if read.length = count then some (number 10 read, text.drop count) else none

/-- The rest after a mark. -/
def after? (mark : Char) : List Char → Option (List Char)
  | c :: rest => if c = mark then some rest else none
  | [] => none

/-- The rest after a date of the calendar. -/
def date? (text : List Char) : Option (List Char) := do
  let (year, rest) ← digits? 4 text
  let (month, rest) ← digits? 2 (← after? '-' rest)
  let (day, rest) ← digits? 2 (← after? '-' rest)
  if (⟨year, month, day⟩ : Calendar.Date).Valid then some rest else none

/-- The rest after a fraction of a second, if there is one. -/
def fraction? : List Char → Option (List Char)
  | '.' :: rest =>
    match Digits.leading rest with
    | ([], _) => none
    | (_, rest) => some rest
  | rest => some rest

/-- The rest after seconds, if there are some. -/
def seconds? : List Char → Option (List Char)
  | ':' :: rest => do
    let (second, rest) ← digits? 2 rest
    if second ≤ 60 then fraction? rest else none
  | rest => some rest

/-- The rest after a time of day. -/
def time? (text : List Char) : Option (List Char) := do
  let (hour, rest) ← digits? 2 text
  let (minute, rest) ← digits? 2 (← after? ':' rest)
  if hour ≤ 23 ∧ minute ≤ 59 then seconds? rest else none

/-- An offset from universal time, at most a day, or nothing. -/
def isOffset (text : List Char) : Bool :=
  match text with
  | [] => true
  | c :: rest =>
    if c = 'Z' ∨ c = 'z' then rest.isEmpty
    else if c = '+' ∨ c = '-' then
      match (do
        let (hours, rest) ← digits? 2 rest
        let (minutes, rest) ← digits? 2 (← after? ':' rest)
        return (hours * 60 + minutes, rest) : Option (Nat × List Char)) with
      | some (minutes, []) => minutes ≤ 1440
      | _ => false
    else false

/-- A date, a time of day, or both. -/
def isDateTime (text : List Char) : Bool :=
  match date? text with
  | some [] => true
  | some (c :: rest) =>
    (c = 'T' || c = 't' || c = ' ') && ((time? rest).map isOffset).getD false
  | none => time? text = some []

/-! ### Reading -/

/-- The scalar that a text writes. -/
def read (text : List Char) : Option Toml :=
  if text = "true".toList then some (.bool true)
  else if text = "false".toList then some (.bool false)
  else if isDateTime text then some (.dateTime (String.ofList text))
  else whole? text <|> float? text

end RiskRules.Toml.Scalar
