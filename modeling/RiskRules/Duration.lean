/-!
Spans of time without sign: whole seconds and the nanoseconds beyond them.
-/

namespace RiskRules

/-- Seconds and less than a second of nanoseconds. -/
structure Duration where
  seconds : UInt64
  nanos : Nat
  nanos_lt : nanos < 1000000000
  deriving DecidableEq

namespace Duration

/-- Whole seconds. -/
def ofSeconds (seconds : UInt64) : Duration :=
  ⟨seconds, 0, by decide⟩

/-- The span in nanoseconds. -/
def toNanos (d : Duration) : Nat :=
  d.seconds.toNat * 1000000000 + d.nanos

/-- No time at all. -/
def isZero (d : Duration) : Bool :=
  d.seconds == 0 && d.nanos == 0

end Duration

end RiskRules
