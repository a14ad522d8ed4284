import RiskRules.Time.Timestamp

/-!
Timestamps as RFC 3339 text.

Reading goes from left to right and stops at the first part that does not fit; the ranges of the
parts are looked at afterwards. Second 60 stands for the last nanosecond before a leap second and is
taken only at the end of a month in UTC. Writing shows the clock's own date and time, the fraction
without trailing zeros, and the offset; only years of four digits without sign and offsets of whole
minutes below a day can be written, and a timestamp with several such faults is blamed for the first
of them.
-/

namespace RiskRules.Rfc3339

/-! ### Failures -/

/-- The parts of a timestamp text. -/
inductive Part where
  | year | month | day | separator | hour | minute | second | subsecond | offsetHour | offsetMinute
  deriving DecidableEq, Repr

/-- The name of a part in messages. -/
def Part.name : Part → String
  | .year => "year"
  | .month => "month"
  | .day => "day"
  | .separator => "separator"
  | .hour => "hour"
  | .minute => "minute"
  | .second => "second"
  | .subsecond => "subsecond"
  | .offsetHour => "offset hour"
  | .offsetMinute => "offset minute"

/-- Why a text is no timestamp. -/
inductive ReadError where
  | unreadable (part : Part)
  | wrongLiteral
  | outOfRange (part : Part)
  | trailing
  deriving DecidableEq, Repr

/-- The text of a failure. -/
def ReadError.message : ReadError → String
  | .unreadable part => "the '" ++ part.name ++ "' component could not be parsed"
  | .wrongLiteral => "a character literal was not valid"
  | .outOfRange part => part.name ++ " was not in range"
  | .trailing => "unexpected trailing characters; the end of input was expected"

/-- Why a timestamp has no text: its year has a sign, its offset is of a day or more, or its offset
has odd seconds. -/
inductive WriteError where
  | yearNotWritable
  | offsetHourNotWritable
  | offsetSecondNotWritable
  deriving DecidableEq, Repr

/-- The part that cannot be written. -/
def WriteError.component : WriteError → String
  | .yearNotWritable => "year"
  | .offsetHourNotWritable => "offset_hour"
  | .offsetSecondNotWritable => "offset_second"

/-- The text of a failure to write. -/
def WriteError.message (e : WriteError) : String :=
  "The " ++ e.component ++ " component cannot be formatted into the requested format."

/-! ### Reading parts -/

/-- The value of an ASCII digit. -/
def digit? (b : UInt8) : Option Nat :=
  if 48 ≤ b ∧ b ≤ 57 then some (b.toNat - 48) else none

/-- Reads exactly so many digits after those already read. -/
def digits (part : Part) : Nat → Nat → List UInt8 → Except ReadError (Nat × List UInt8)
  | 0, value, rest => .ok (value, rest)
  | _ + 1, _, [] => .error (.unreadable part)
  | n + 1, value, b :: rest =>
    match digit? b with
    | some d => digits part n (value * 10 + d) rest
    | none => .error (.unreadable part)

/-- Reads one expected byte. -/
def literal (expected : UInt8) : List UInt8 → Except ReadError (List UInt8)
  | b :: rest => if b = expected then .ok rest else .error .wrongLiteral
  | [] => .error .wrongLiteral

/-- Reads the digits of a fraction; `unit` is the nanoseconds that the next one counts, zero after
the ninth. -/
def fraction : Nat → Nat → List UInt8 → Nat × List UInt8
  | _, nanos, [] => (nanos, [])
  | unit, nanos, b :: rest =>
    match digit? b with
    | some d => fraction (unit / 10) (nanos + d * unit) rest
    | none => (nanos, b :: rest)

/-- Reads an optional fraction of a second. -/
def subsecond : List UInt8 → Except ReadError (Nat × List UInt8)
  | 46 :: b :: rest =>
    if (digit? b).isSome then .ok (fraction 100000000 0 (b :: rest))
    else .error (.unreadable .subsecond)
  | [46] => .error (.unreadable .subsecond)
  | rest => .ok (0, rest)

/-- Reads an offset, in seconds. -/
def offset : List UInt8 → Except ReadError (Int × List UInt8)
  | [] => .error (.unreadable .offsetHour)
  | sign :: rest =>
    if sign = 90 ∨ sign = 122 then .ok (0, rest)
    else if sign = 43 ∨ sign = 45 then do
      let (hours, rest) ← digits .offsetHour 2 0 rest
      if 23 < hours then .error (.unreadable .offsetHour)
      let rest ← literal 58 rest
      let (minutes, rest) ← digits .offsetMinute 2 0 rest
      if 59 < minutes then .error (.outOfRange .offsetMinute)
      let magnitude : Int := ((hours * 60 + minutes) * 60 : Nat)
      .ok (if sign = 45 then -magnitude else magnitude, rest)
    else .error (.unreadable .offsetHour)

/-! ### Reading -/

/-- The parts of a timestamp text as written. -/
structure Fields where
  year : Nat
  month : Nat
  day : Nat
  hour : Nat
  minute : Nat
  second : Nat
  nanos : Nat
  offset : Int
  deriving DecidableEq, Repr

/-- Reads the parts, from the first byte to the last. -/
def fields (text : List UInt8) : Except ReadError Fields := do
  let (year, text) ← digits .year 4 0 text
  let text ← literal 45 text
  let (month, text) ← digits .month 2 0 text
  if month = 0 then .error (.unreadable .month)
  let text ← literal 45 text
  let (day, text) ← digits .day 2 0 text
  let text ← match text with
    | [] => .error (.unreadable .separator)
    | _ :: text => .ok text
  let (hour, text) ← digits .hour 2 0 text
  let text ← literal 58 text
  let (minute, text) ← digits .minute 2 0 text
  let text ← literal 58 text
  let (second, text) ← digits .second 2 0 text
  let (nanos, text) ← subsecond text
  let (offset, text) ← offset text
  match text with
  | [] => .ok ⟨year, month, day, hour, minute, second, nanos, offset⟩
  | _ :: _ => .error .trailing

/-- The last nanosecond of the last day of a month, at UTC. -/
def endsMonth (t : Timestamp) : Bool :=
  let day := t.instant / Timestamp.day
  let date := Calendar.ofDayNumber day
  t.instant % Timestamp.day == Timestamp.day - 1
    && date.day == Calendar.daysInMonth date.year date.month

/-- Checks the ranges of the parts and puts them together. -/
def assemble (f : Fields) : Except ReadError Timestamp := do
  let date : Calendar.Date := ⟨f.year, f.month, f.day⟩
  if 12 < f.month then .error (.outOfRange .month)
  if f.day < 1 ∨ Calendar.daysInMonth f.year f.month < f.day then .error (.outOfRange .day)
  if 23 < f.hour then .error (.outOfRange .hour)
  if 59 < f.minute then .error (.outOfRange .minute)
  if 60 < f.second then .error (.outOfRange .second)
  let leap := f.second == 60
  let (second, nanos) := if leap then (59, 999999999) else (f.second, f.nanos)
  let clock : Int := ((f.hour * 60 + f.minute) * 60 + second : Nat)
  let count := Calendar.dayNumber date * Timestamp.day + clock * Timestamp.second + nanos
  match Timestamp.of? count f.offset with
  | none => .error (.outOfRange .year)
  | some t => if leap && !endsMonth t then .error (.outOfRange .second) else .ok t

/-- The timestamp that a text shows. -/
def parse (text : String) : Except ReadError Timestamp := do
  assemble (← fields text.toUTF8.data.toList)

/-! ### Writing -/

/-- A number with zeros in front up to a width. -/
def padded (width n : Nat) : List Char :=
  let digits := Nat.toDigits 10 n
  List.replicate (width - digits.length) '0' ++ digits

/-- The fraction of a second without trailing zeros, with its point; nothing when zero. -/
def fractionText (nanos : Nat) : List Char :=
  if nanos = 0 then []
  else '.' :: ((padded 9 nanos).reverse.dropWhile (· == '0')).reverse

/-- An offset in seconds: `Z` at UTC, else a sign, hours and minutes. -/
def offsetText (seconds : Int) : List Char :=
  if seconds = 0 then ['Z']
  else
    let minutes := seconds.natAbs / 60
    (if seconds < 0 then '-' else '+') :: padded 2 (minutes / 60) ++ ':' :: padded 2 (minutes % 60)

/-- The text of a timestamp. -/
def render (t : Timestamp) : Except WriteError String :=
  let date := t.date
  if date.year < 0 then .error .yearNotWritable
  else if 86400 ≤ t.offset.natAbs then .error .offsetHourNotWritable
  else if t.offset % 60 ≠ 0 then .error .offsetSecondNotWritable
  else
    let time := t.timeOfDay
    let seconds := time / 1000000000
    .ok <| String.ofList <|
      padded 4 date.year.toNat ++ '-' :: padded 2 date.month ++ '-' :: padded 2 date.day
        ++ 'T' :: padded 2 (seconds / 3600) ++ ':' :: padded 2 (seconds / 60 % 60)
        ++ ':' :: padded 2 (seconds % 60) ++ fractionText (time % 1000000000)
        ++ offsetText t.offset

end RiskRules.Rfc3339
