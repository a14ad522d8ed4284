import RiskRules.Time.Calendar

/-!
Points in time with the offset of the clock that showed them.

A `Timestamp` keeps the nanoseconds that its own clock had counted since 0001-01-01T00:00:00 and
that clock's offset from UTC. Two timestamps are the same instant when their counts less their
offsets agree; adding a duration moves the clock's own count and keeps the offset.
-/

namespace RiskRules

namespace Timestamp

/-- Nanoseconds in a second. -/
def second : Int := 1000000000

/-- Nanoseconds in a day. -/
def day : Int := 86400 * second

/-- The count at -9999-01-01T00:00:00. -/
def earliest : Int := Calendar.daysBeforeYear (-9999) * day

/-- The count at 9999-12-31T23:59:59.999999999. -/
def latest : Int := Calendar.daysBeforeYear 10000 * day - 1

/-- A clock counts no further than the years -9999 to 9999. -/
def InRange (count : Int) : Prop := earliest ≤ count ∧ count ≤ latest

instance (count : Int) : Decidable (InRange count) := by unfold InRange; infer_instance

/-- Clocks are ahead of UTC or behind it by less than 26 hours, in seconds. -/
def OffsetInRange (offset : Int) : Prop := -93600 < offset ∧ offset < 93600

instance (offset : Int) : Decidable (OffsetInRange offset) := by
  unfold OffsetInRange; infer_instance

end Timestamp

/-- A clock's count of nanoseconds since 0001-01-01T00:00:00 and its offset from UTC in seconds. -/
structure Timestamp where
  count : Int
  offset : Int
  count_inRange : Timestamp.InRange count
  offset_inRange : Timestamp.OffsetInRange offset
  deriving DecidableEq

namespace Timestamp

/-- The timestamp of a count and an offset, if both are in range. -/
def of? (count offset : Int) : Option Timestamp :=
  if h : InRange count ∧ OffsetInRange offset then some ⟨count, offset, h.1, h.2⟩ else none

/-- 1970-01-01T00:00:00Z. -/
def epoch : Timestamp :=
  ⟨719162 * day, 0, by decide, by decide⟩

/-- The instant: the count of a clock at UTC. -/
def instant (t : Timestamp) : Int :=
  t.count - t.offset * second

/-- The same instant, whatever the offsets. -/
def same (a b : Timestamp) : Bool :=
  a.instant == b.instant

/-- The order of instants. -/
def compare (a b : Timestamp) : Ordering :=
  Ord.compare a.instant b.instant

/-- Moves the clock by nanoseconds; none beyond its range. -/
def addNanos? (t : Timestamp) (nanos : Int) : Option Timestamp :=
  if h : InRange (t.count + nanos) then some ⟨t.count + nanos, t.offset, h, t.offset_inRange⟩
  else none

/-- Moves the clock by seconds; none beyond its range. -/
def addSeconds? (t : Timestamp) (seconds : Int) : Option Timestamp :=
  t.addNanos? (seconds * second)

/-- Moves the clock by nanoseconds, stopping at the end of its range. -/
def advance (t : Timestamp) (nanos : Int) : Timestamp :=
  match t.addNanos? nanos with
  | some moved => moved
  | none =>
    if nanos < 0 then ⟨earliest, t.offset, by decide, t.offset_inRange⟩
    else ⟨latest, t.offset, by decide, t.offset_inRange⟩

/-- Whole seconds from one instant to another, cut toward zero. -/
def secondsBetween (start finish : Timestamp) : Int :=
  (finish.instant - start.instant).tdiv second

/-- The date that the clock shows. -/
def date (t : Timestamp) : Calendar.Date :=
  Calendar.ofDayNumber (t.count / day)

/-- Nanoseconds since the clock's midnight. -/
def timeOfDay (t : Timestamp) : Nat :=
  (t.count % day).toNat

end Timestamp

end RiskRules
