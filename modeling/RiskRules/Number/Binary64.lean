/-!
Binary64 numbers read exactly.

A `Float` is a sign, a whole mantissa and a power of two, so every comparison in this library
is made on whole numbers: `Binary64.units` counts a finite number in steps of `2^-1074`, the
distance between the two smallest ones, and `Binary64.whole` and `Binary64.beyondWhole` split it
into the part before the point and the side on which the rest lies.
-/

namespace RiskRules

/-! ### The parts of a word -/

/-- What a binary64 word denotes: a finite one is `± mantissa · 2^exponent`. -/
inductive Binary64 where
  | nan
  | infinite (negative : Bool)
  | finite (negative : Bool) (mantissa : Nat) (exponent : Int)
  deriving DecidableEq, Repr

namespace Binary64

/-- The parts of a word: one sign bit, eleven of exponent, fifty-two of mantissa. -/
def ofFloat (x : Float) : Binary64 :=
  let bits := x.toBits.toNat
  let negative := decide (bits / 0x8000000000000000 = 1)
  let scale : Nat := bits / 0x10000000000000 % 2048
  let fraction : Nat := bits % 0x10000000000000
  if scale = 2047 then
    if fraction = 0 then .infinite negative else .nan
  else if scale = 0 then
    .finite negative fraction (-1074)
  else
    .finite negative (0x10000000000000 + fraction) ((scale : Int) - 1075)

/-- The number with its sign: `-n` when negative. -/
def signed (negative : Bool) (n : Nat) : Int :=
  if negative then -(n : Int) else n

/-- A finite number counted in steps of `2^-1074`; the exponent is never below `-1074`. -/
def units (negative : Bool) (mantissa : Nat) (exponent : Int) : Int :=
  signed negative (mantissa * Nat.pow 2 (exponent + 1074).toNat)

/-- The part before the point, cut toward zero. -/
def whole (negative : Bool) (mantissa : Nat) (exponent : Int) : Int :=
  if 0 ≤ exponent then signed negative (mantissa * Nat.pow 2 exponent.toNat)
  else signed negative (mantissa / Nat.pow 2 (-exponent).toNat)

/-- Where the number lies as seen from its whole part. -/
def beyondWhole (negative : Bool) (mantissa : Nat) (exponent : Int) : Ordering :=
  if 0 ≤ exponent then .eq
  else if mantissa % Nat.pow 2 (-exponent).toNat = 0 then .eq
  else if negative then .lt
  else .gt

/-- The order of two numbers; none when either is not a number. -/
def compare : Binary64 → Binary64 → Option Ordering
  | .nan, _ => none
  | _, .nan => none
  | .infinite a, .infinite b => some (Ord.compare b a)
  | .infinite a, .finite .. => some (if a then .lt else .gt)
  | .finite .., .infinite b => some (if b then .gt else .lt)
  | .finite a m e, .finite b n f => some (Ord.compare (units a m e) (units b n f))

/-- The number is at least `-2^63` and below `2^63`, so that its whole part is a signed word. -/
def InWords (negative : Bool) (mantissa : Nat) (exponent : Int) : Prop :=
  -(0x8000000000000000 * Nat.pow 2 1074) ≤ units negative mantissa exponent ∧
    units negative mantissa exponent < 0x8000000000000000 * Nat.pow 2 1074

instance (negative : Bool) (mantissa : Nat) (exponent : Int) :
    Decidable (InWords negative mantissa exponent) := by
  unfold InWords; infer_instance

/-- The order of an integer against a number; none when the latter is not a number. Only a number
among the signed words has its whole part taken. -/
def compareInt (i : Int64) : Binary64 → Option Ordering
  | .nan => none
  | .infinite negative => some (if negative then .gt else .lt)
  | .finite negative mantissa exponent =>
    if InWords negative mantissa exponent then
      let rest := (beyondWhole negative mantissa exponent).swap
      some ((Ord.compare i (Int64.ofInt (whole negative mantissa exponent))).then rest)
    else some (if units negative mantissa exponent < 0 then .gt else .lt)

end Binary64

/-! ### Tests on numbers -/

/-- Neither infinite nor a non-number. -/
def isFinite (x : Float) : Bool :=
  match Binary64.ofFloat x with
  | .finite .. => true
  | _ => false

/-- Equal as numbers: the two zeros are equal, a non-number equals nothing. -/
def sameNumber (x y : Float) : Bool :=
  Binary64.compare (.ofFloat x) (.ofFloat y) == some .eq

end RiskRules
