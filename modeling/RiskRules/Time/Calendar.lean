/-!
The Gregorian calendar, run backward without end: dates are days counted from 0001-01-01, which is
day 0. `Calendar.dayNumber` counts and `Calendar.ofDayNumber` reads a count back.
-/

namespace RiskRules.Calendar

/-! ### Years -/

/-- A leap year: every fourth, of the full centuries only every fourth. -/
def isLeap (year : Int) : Bool :=
  year % 4 == 0 && (year % 100 != 0 || year % 400 == 0)

/-- Days before the first of January of a year. -/
def daysBeforeYear (year : Int) : Int :=
  let past := year - 1
  365 * past + past / 4 - past / 100 + past / 400

/-- The year in which a day lies: an estimate from the mean length, moved by one where it misses. -/
def yearOfDay (day : Int) : Int :=
  let guess := day * 400 / 146097 + 1
  if day < daysBeforeYear guess then guess - 1
  else if daysBeforeYear (guess + 1) ≤ day then guess + 1
  else guess

/-! ### Months -/

/-- Days of the twelve months. -/
def monthLengths (year : Int) : List Nat :=
  [31, if isLeap year then 29 else 28, 31, 30, 31, 30, 31, 31, 30, 31, 30, 31]

/-- Days of a month, counted from 1; none outside the year. -/
def daysInMonth (year : Int) (month : Nat) : Nat :=
  match month with
  | 0 => 0
  | m + 1 => (monthLengths year)[m]?.getD 0

/-- Days before the first of a month. -/
def daysBeforeMonth (year : Int) (month : Nat) : Nat :=
  ((monthLengths year).take (month - 1)).foldl (· + ·) 0

/-- The month and day at a count of days into the months listed, the first bearing the number
given. -/
def splitMonth : List Nat → Nat → Nat → Nat × Nat
  | [], month, rest => (month, rest + 1)
  | length :: later, month, rest =>
    if rest < length then (month, rest + 1) else splitMonth later (month + 1) (rest - length)

/-! ### Dates -/

/-- A date of the calendar. -/
structure Date where
  year : Int
  month : Nat
  day : Nat
  deriving DecidableEq, Repr

/-- The month lies in the year and the day in the month. -/
def Date.Valid (d : Date) : Prop :=
  1 ≤ d.month ∧ d.month ≤ 12 ∧ 1 ≤ d.day ∧ d.day ≤ daysInMonth d.year d.month

instance (d : Date) : Decidable d.Valid := by unfold Date.Valid; infer_instance

/-- Days from 0001-01-01 to a date. -/
def dayNumber (d : Date) : Int :=
  daysBeforeYear d.year + daysBeforeMonth d.year d.month + (d.day : Int) - 1

/-- The date that is a number of days after 0001-01-01. -/
def ofDayNumber (day : Int) : Date :=
  let year := yearOfDay day
  let (month, dayOfMonth) := splitMonth (monthLengths year) 1 (day - daysBeforeYear year).toNat
  ⟨year, month, dayOfMonth⟩

end RiskRules.Calendar
