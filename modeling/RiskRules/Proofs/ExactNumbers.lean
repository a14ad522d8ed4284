import Mathlib
import RiskRules.Number.Binary64
import RiskRules.Proofs.Signed64

/-!
What numbers stand for. A binary64 word that is not "not a number" stands for an infinity or for a
rational number (`Extended.ofFloat?`), and such words are compared with each other and with integers
as what they stand for (`Binary64.compare_ofFloat`, `Binary64.compareInt_ofFloat`). An integer is
compared with the whole part of a rational number first and then with what lies beyond it
(`cmp_eq_then_truncated`); only numbers within 64 bits have their whole part taken, so that it is
always a word (`Binary64.compareInt_exact`).
-/

namespace RiskRules

open Float.Model (UnpackedFloat)
open Float.Model.UnpackedFloat (Sign)

/-! ### Rational numbers and infinities -/

/-- A rational number or an infinity. -/
abbrev Extended : Type := WithBot (WithTop ℚ)

namespace Extended

/-- A rational number. -/
def ofRat (q : ℚ) : Extended := ((q : WithTop ℚ) : WithBot (WithTop ℚ))

theorem strictMono_ofRat : StrictMono ofRat := by
  intro p q less
  simpa [ofRat] using less

@[simp] theorem ofRat_inj {p q : ℚ} : ofRat p = ofRat q ↔ p = q :=
  strictMono_ofRat.injective.eq_iff

@[simp] theorem cmp_ofRat (p q : ℚ) : cmp (ofRat p) (ofRat q) = cmp p q :=
  strictMono_ofRat.cmp_map_eq p q

theorem bot_lt_ofRat (q : ℚ) : ⊥ < ofRat q :=
  WithBot.bot_lt_coe _

theorem ofRat_lt_top (q : ℚ) : ofRat q < ⊤ :=
  WithBot.coe_lt_coe.mpr (WithTop.coe_lt_top q)

/-- What an unpacked number stands for; nothing if it is not a number. -/
def ofUnpacked? : UnpackedFloat → Option Extended
  | .notANumber => none
  | .infinity .positive => some ⊤
  | .infinity .negative => some ⊥
  | .zero _ => some (ofRat 0)
  | .finite .positive mantissa exponent _ => some (ofRat (mantissa * 2 ^ exponent))
  | .finite .negative mantissa exponent _ => some (ofRat (-(mantissa * 2 ^ exponent)))

/-- What a binary64 word stands for; nothing if it is not a number. -/
def ofFloat? (x : Float) : Option Extended :=
  ofUnpacked? x.toModel.unpack

end Extended

/-! ### Whole parts -/

/-- A rational number cut toward zero. -/
def truncated (q : ℚ) : Int :=
  if q < 0 then ⌈q⌉ else ⌊q⌋

theorem lt_truncated_add_one (q : ℚ) : q < truncated q + 1 := by
  rw [truncated]
  split
  · exact (Int.le_ceil q).trans_lt (lt_add_one _)
  · exact Int.lt_floor_add_one q

theorem truncated_lt_add_one (q : ℚ) : truncated q < q + 1 := by
  rw [truncated]
  split
  · exact Int.ceil_lt_add_one q
  · exact (Int.floor_le q).trans_lt (lt_add_one _)

@[simp] theorem truncated_intCast (n : Int) : truncated n = n := by
  simp [truncated]

theorem truncated_neg (q : ℚ) : truncated (-q) = -truncated q := by
  rw [truncated, truncated]
  rcases lt_trichotomy q 0 with below | rfl | above
  · rw [if_neg (neg_pos.mpr below).not_gt, if_pos below, Int.floor_neg]
  · simp
  · rw [if_pos (neg_lt_zero.mpr above), if_neg above.not_gt, Int.ceil_neg]

theorem truncated_natCast_div (m d : Nat) : truncated ((m : ℚ) / d) = (m / d : Nat) := by
  have positive : ¬(m : ℚ) / d < 0 := not_lt.mpr (by positivity)
  rw [truncated, if_neg positive]
  exact Rat.floor_natCast_div_natCast m d

/-- A quotient lies above its whole part unless it is whole. -/
theorem cmp_div_of_pos {m d : Nat} (positive : 0 < d) :
    cmp ((m : ℚ) / d) (m / d : Nat) = if m % d = 0 then .eq else .gt := by
  have divisor : (0 : ℚ) < d := by exact_mod_cast positive
  have split : (m : ℚ) = (m / d : Nat) * d + (m % d : Nat) := by
    exact_mod_cast (Nat.div_add_mod' m d).symm
  split_ifs with exactly
  · have quotient : (m : ℚ) / d = (m / d : Nat) := by
      rw [div_eq_iff divisor.ne', split, exactly]
      simp
    rw [quotient, cmp_self_eq_eq]
  · have rest : (0 : ℚ) < (m % d : Nat) := by exact_mod_cast Nat.pos_of_ne_zero exactly
    have above : ((m / d : Nat) : ℚ) < m / d := by
      rw [lt_div_iff₀ divisor]
      linarith
    exact above.cmp_eq_gt

/-- A number between whole bounds is cut to one between them. -/
theorem truncated_between {q : ℚ} {least beyond : Int} (low : (least : ℚ) ≤ q)
    (high : q < beyond) (negative : least ≤ 0) (positive : 0 < beyond) :
    least ≤ truncated q ∧ truncated q < beyond := by
  rw [truncated]
  split
  · rename_i below
    have up : ⌈q⌉ ≤ 0 := Int.ceil_le.mpr (by simpa using below.le)
    exact ⟨Int.cast_le.mp (low.trans (Int.le_ceil q)), by omega⟩
  · rename_i above
    have down : 0 ≤ ⌊q⌋ := Int.le_floor.mpr (by simpa using above)
    exact ⟨by omega, Int.floor_lt.mpr high⟩

/-- An integer is compared with a rational number as with its whole part, and if it is that, by what
lies beyond. -/
theorem cmp_eq_then_truncated (i : Int) (q : ℚ) :
    cmp (i : ℚ) q = (cmp i (truncated q)).then (cmp q (truncated q)).swap := by
  rcases lt_trichotomy i (truncated q) with below | rfl | above
  · have step : (i : ℚ) + 1 ≤ truncated q := by exact_mod_cast below
    have less : (i : ℚ) < q := by linarith [truncated_lt_add_one q]
    rw [below.cmp_eq_lt, less.cmp_eq_lt]
    rfl
  · rw [cmp_self_eq_eq, cmp_swap]
    rfl
  · have step : (truncated q : ℚ) + 1 ≤ i := by exact_mod_cast above
    have greater : q < i := by linarith [lt_truncated_add_one q]
    rw [above.cmp_eq_gt, greater.cmp_eq_gt]
    rfl

/-! ### Binary64 numbers -/

namespace Binary64

/-- What a finite number stands for. -/
def rational (negative : Bool) (mantissa : Nat) (exponent : Int) : ℚ :=
  signed negative mantissa * 2 ^ exponent

/-- What a number stands for. -/
def extended? : Binary64 → Option Extended
  | .nan => none
  | .infinite negative => some (if negative then ⊥ else ⊤)
  | .finite negative mantissa exponent => some (.ofRat (rational negative mantissa exponent))

/-- A finite number is a multiple of the distance between the two smallest ones. -/
def Spaced : Binary64 → Prop
  | .finite _ _ exponent => -1074 ≤ exponent
  | _ => True

/-! #### Words -/

section Words

theorem toNat_unpackExponent (bits : BitVec 64) :
    (@UnpackedFloat.unpackExponent .binary64 bits).toNat
      = bits.toNat / 0x10000000000000 % 2048 := by
  simp [UnpackedFloat.unpackExponent, Nat.shiftRight_eq_div_pow]

theorem toNat_unpackMantissa (bits : BitVec 64) :
    (@UnpackedFloat.unpackMantissa .binary64 bits).toNat
      = bits.toNat % 0x10000000000000 := by
  simp [UnpackedFloat.unpackMantissa]

theorem toNat_unpackSign (bits : BitVec 64) :
    (@UnpackedFloat.unpackSign .binary64 bits).toNat
      = bits.toNat / 0x8000000000000000 := by
  have bound := bits.isLt
  simp [UnpackedFloat.unpackSign, Nat.shiftRight_eq_div_pow]
  omega

theorem toNat_implicit_append (mantissa : BitVec 52) :
    (1#1 ++ mantissa).toNat = 0x10000000000000 + mantissa.toNat := by
  rw [BitVec.toNat_append, ← Nat.shiftLeft_add_eq_or_of_lt mantissa.isLt]
  rfl

/-- The sign is that of negative numbers. -/
def isNegative : Sign → Bool
  | .negative => true
  | .positive => false

theorem isNegative_ofBitVec (bit : BitVec 1) :
    isNegative (Sign.ofBitVec bit) = decide (bit.toNat = 1) := by
  revert bit
  decide

/-- The parts of an unpacked number. -/
def ofUnpacked : UnpackedFloat → Binary64
  | .notANumber => .nan
  | .infinity sign => .infinite (isNegative sign)
  | .zero sign => .finite (isNegative sign) 0 (-1074)
  | .finite sign mantissa exponent _ => .finite (isNegative sign) mantissa exponent

/-- The parts of a word are those of its unpacked form. -/
theorem ofFloat_eq_ofUnpacked (x : Float) : ofFloat x = ofUnpacked x.toModel.unpack := by
  have exponent := toNat_unpackExponent x.toModel.toBits.toBitVec
  have mantissa := toNat_unpackMantissa x.toModel.toBits.toBitVec
  have sign := toNat_unpackSign x.toModel.toBits.toBitVec
  have word : x.toBits.toNat = x.toModel.toBits.toBitVec.toNat := rfl
  have bias : ((Float.Model.Format.binary64.exponentBias : Nat) : Int) = 1023 := rfl
  rw [Float.Model.unpack, UnpackedFloat.unpack]
  simp only [ofFloat, word, ← exponent, ← mantissa, ← sign]
  have full : @UnpackedFloat.unpackExponent .binary64 x.toModel.toBits.toBitVec = -1#_ ↔
      (@UnpackedFloat.unpackExponent .binary64 x.toModel.toBits.toBitVec).toNat = 2047 :=
    BitVec.toNat_inj.symm
  have least : @UnpackedFloat.unpackExponent .binary64 x.toModel.toBits.toBitVec = 0#_ ↔
      (@UnpackedFloat.unpackExponent .binary64 x.toModel.toBits.toBitVec).toNat = 0 :=
    BitVec.toNat_inj.symm
  have blank : @UnpackedFloat.unpackMantissa .binary64 x.toModel.toBits.toBitVec = 0#_ ↔
      (@UnpackedFloat.unpackMantissa .binary64 x.toModel.toBits.toBitVec).toNat = 0 :=
    BitVec.toNat_inj.symm
  simp only [full, least, blank]
  split
  · split
    · rw [ofUnpacked, isNegative_ofBitVec]
    · rfl
  · split
    · rename_i subnormal
      split
      · rename_i zero
        rw [ofUnpacked, isNegative_ofBitVec, zero]
      · rw [ofUnpacked, isNegative_ofBitVec, subnormal]
        rfl
    · rw [ofUnpacked, isNegative_ofBitVec, toNat_implicit_append, bias]
      congr 1

/-- A word stands for what its parts stand for. -/
theorem extended?_ofFloat (x : Float) : (ofFloat x).extended? = Extended.ofFloat? x := by
  rw [ofFloat_eq_ofUnpacked, Extended.ofFloat?]
  cases x.toModel.unpack with
  | notANumber => rfl
  | infinity sign => cases sign <;> rfl
  | zero sign =>
    cases sign <;> simp [ofUnpacked, isNegative, extended?, Extended.ofUnpacked?, rational, signed]
  | finite sign mantissa exponent _ =>
    cases sign <;> simp [ofUnpacked, isNegative, extended?, Extended.ofUnpacked?, rational, signed]

theorem ofFloat_eq_nan_iff {x : Float} : ofFloat x = .nan ↔ x.isNaN = true := by
  rw [ofFloat_eq_ofUnpacked, Float.isNaN, Float.Model.isNaN]
  cases x.toModel.unpack <;> simp [ofUnpacked, UnpackedFloat.isNaN]

theorem spaced_ofFloat (x : Float) : (ofFloat x).Spaced := by
  simp only [ofFloat]
  split
  · split <;> trivial
  · split
    · exact le_refl _
    · rename_i positive
      simp only [Spaced]
      omega

end Words

/-! #### Order -/

section Order

variable {negative : Bool} {mantissa : Nat} {exponent : Int}

theorem cast_pow_two (k : Nat) : ((Nat.pow 2 k : Nat) : ℚ) = 2 ^ (k : Int) := by
  rw [Nat.pow_eq, Nat.cast_pow, Nat.cast_ofNat, zpow_natCast]

theorem cast_pow_toNat {k : Int} (nonneg : 0 ≤ k) : ((Nat.pow 2 k.toNat : Nat) : ℚ) = 2 ^ k := by
  rw [cast_pow_two, Int.toNat_of_nonneg nonneg]

/-- A finite number counted in steps. -/
theorem units_eq (spaced : -1074 ≤ exponent) :
    (units negative mantissa exponent : ℚ)
      = rational negative mantissa exponent * 2 ^ (1074 : Int) := by
  have steps : ((Nat.pow 2 (exponent + 1074).toNat : Nat) : ℚ) = 2 ^ exponent * 2 ^ (1074 : Int) :=
    (cast_pow_toNat (by omega)).trans (zpow_add₀ two_ne_zero _ _)
  rw [units, rational, mul_assoc, ← steps]
  cases negative <;> simp [signed]

/-- Numbers counted in steps are compared as the numbers. -/
theorem cmp_units {negative' : Bool} {mantissa' : Nat} {exponent' : Int}
    (spaced : -1074 ≤ exponent) (spaced' : -1074 ≤ exponent') :
    cmp (units negative mantissa exponent) (units negative' mantissa' exponent')
      = cmp (rational negative mantissa exponent) (rational negative' mantissa' exponent') := by
  have positive : (0 : ℚ) < 2 ^ (1074 : Int) := zpow_pos two_pos _
  have scale : StrictMono fun q : ℚ => q * 2 ^ (1074 : Int) :=
    fun _ _ less => mul_lt_mul_of_pos_right less positive
  rw [← scale.cmp_map_eq, ← units_eq spaced, ← units_eq spaced', Int.cast_strictMono.cmp_map_eq]

/-- Numbers counted in steps are compared with integers as the numbers; `steps` come to one. -/
theorem le_units_iff {steps : Nat} (to_one : (steps : ℚ) = 2 ^ ((1074 : Nat) : Int))
    (spaced : -1074 ≤ exponent) (n : Int) :
    n * steps ≤ units negative mantissa exponent
      ↔ (n : ℚ) ≤ rational negative mantissa exponent := by
  have positive : (0 : ℚ) < 2 ^ (1074 : Int) := zpow_pos two_pos _
  rw [← Int.cast_le (R := ℚ), units_eq spaced, Int.cast_mul, Int.cast_natCast, to_one,
    Nat.cast_ofNat]
  exact mul_le_mul_iff_left₀ positive

/-- Words are compared as what they stand for. -/
theorem compare_eq {a b : Binary64} (a_spaced : a.Spaced) (b_spaced : b.Spaced) :
    compare a b = a.extended?.bind fun p => b.extended?.map (cmp p) := by
  cases a with
  | nan => cases b <;> rfl
  | infinite a =>
    cases b with
    | nan => rfl
    | infinite b => cases a <;> cases b <;> rfl
    | finite negative mantissa exponent =>
      have low := Extended.bot_lt_ofRat (rational negative mantissa exponent)
      have high := Extended.ofRat_lt_top (rational negative mantissa exponent)
      cases a
      · simp [compare, extended?, high.cmp_eq_gt]
      · simp [compare, extended?, low.cmp_eq_lt]
  | finite negative mantissa exponent =>
    cases b with
    | nan => rfl
    | infinite b =>
      have low := Extended.bot_lt_ofRat (rational negative mantissa exponent)
      have high := Extended.ofRat_lt_top (rational negative mantissa exponent)
      cases b
      · simp [compare, extended?, high.cmp_eq_lt]
      · simp [compare, extended?, low.cmp_eq_gt]
    | finite negative' mantissa' exponent' =>
      change some (Ord.compare (units negative mantissa exponent) _)
        = some (cmp (Extended.ofRat _) (Extended.ofRat _))
      rw [Extended.cmp_ofRat, ← cmp_units a_spaced b_spaced, cmp_eq_compare]

end Order

/-! #### Whole parts -/

section Whole

variable {negative : Bool} {mantissa : Nat} {exponent : Int}

theorem rational_negative :
    rational true mantissa exponent = -rational false mantissa exponent := by
  simp [rational, signed]

theorem whole_negative : whole true mantissa exponent = -whole false mantissa exponent := by
  rw [whole, whole]
  split <;> rfl

/-- A number without digits behind the point is whole. -/
theorem rational_eq_whole (integral : 0 ≤ exponent) :
    rational false mantissa exponent = whole false mantissa exponent := by
  rw [whole, if_pos integral, rational, ← cast_pow_toNat integral]
  exact_mod_cast rfl

/-- A number with digits behind the point is a quotient. -/
theorem rational_eq_div (fractional : ¬0 ≤ exponent) : rational false mantissa exponent
    = (mantissa : ℚ) / (Nat.pow 2 (-exponent).toNat : Nat) := by
  rw [cast_pow_toNat (by omega), zpow_neg, div_inv_eq_mul]
  rfl

/-- The part of a number before the point is the number cut toward zero. -/
theorem whole_eq_truncated :
    whole negative mantissa exponent = truncated (rational negative mantissa exponent) := by
  have unsigned : whole false mantissa exponent = truncated (rational false mantissa exponent) := by
    by_cases integral : 0 ≤ exponent
    · rw [rational_eq_whole integral, truncated_intCast]
    · rw [rational_eq_div integral, truncated_natCast_div, whole, if_neg integral]
      rfl
  cases negative with
  | false => exact unsigned
  | true => rw [whole_negative, rational_negative, truncated_neg, unsigned]

theorem beyondWhole_negative :
    beyondWhole true mantissa exponent = (beyondWhole false mantissa exponent).swap := by
  rw [beyondWhole, beyondWhole]
  split
  · rfl
  · split <;> rfl

/-- What a number has beyond its part before the point. -/
theorem beyondWhole_eq_cmp :
    beyondWhole negative mantissa exponent
      = cmp (rational negative mantissa exponent) (whole negative mantissa exponent) := by
  have unsigned : beyondWhole false mantissa exponent
      = cmp (rational false mantissa exponent) (whole false mantissa exponent) := by
    by_cases integral : 0 ≤ exponent
    · rw [rational_eq_whole integral, cmp_self_eq_eq, beyondWhole, if_pos integral]
    · have positive : 0 < Nat.pow 2 (-exponent).toNat := Nat.pow_pos two_pos
      have cut : whole false mantissa exponent
          = (mantissa / Nat.pow 2 (-exponent).toNat : Nat) := by
        rw [whole, if_neg integral]
        rfl
      rw [beyondWhole, if_neg integral, rational_eq_div integral, cut, Int.cast_natCast,
        cmp_div_of_pos positive]
      rfl
  cases negative with
  | false => exact unsigned
  | true =>
    have mirrored : StrictAnti fun q : ℚ => -q := fun _ _ less => neg_lt_neg less
    rw [beyondWhole_negative, unsigned, cmp_swap, rational_negative, whole_negative, Int.cast_neg,
      mirrored.cmp_map_eq]

end Whole

/-! #### Integers against numbers -/

section Integers

variable {negative : Bool} {mantissa : Nat} {exponent : Int}

/-- The guard of the cut, read as numbers. -/
theorem inWords_iff (spaced : -1074 ≤ exponent) : InWords negative mantissa exponent ↔
    -0x8000000000000000 ≤ rational negative mantissa exponent ∧
      rational negative mantissa exponent < 0x8000000000000000 := by
  have to_one := cast_pow_two 1074
  have low := @le_units_iff negative mantissa exponent _ to_one spaced (-0x8000000000000000)
  have high := @le_units_iff negative mantissa exponent _ to_one spaced 0x8000000000000000
  rw [Int.cast_neg, Int.cast_ofNat, Int.neg_mul] at low
  rw [Int.cast_ofNat] at high
  rw [InWords, low, ← not_le, high, not_le]

theorem units_neg_iff (spaced : -1074 ≤ exponent) :
    units negative mantissa exponent < 0 ↔ rational negative mantissa exponent < 0 := by
  have sign := @le_units_iff negative mantissa exponent _ (cast_pow_two 1074) spaced 0
  rw [Int.cast_zero, Int.zero_mul] at sign
  rw [← not_le, sign, not_le]

/-- Words are compared as the integers. -/
theorem compare_words (i j : Int64) : Ord.compare i j = cmp i.toInt j.toInt := by
  rw [cmp_eq_compare]
  simp only [Ord.compare, compareOfLessAndEq, Int64.lt_iff_toInt_lt, ← Int64.toInt_inj]

/-- The part before the point of a number within the signed 64-bit range is a word. -/
theorem whole_in_range (low : -0x8000000000000000 ≤ rational negative mantissa exponent)
    (high : rational negative mantissa exponent < 0x8000000000000000) :
    Signed64.least ≤ whole negative mantissa exponent
      ∧ whole negative mantissa exponent ≤ Signed64.greatest := by
  have least : ((-0x8000000000000000 : Int) : ℚ) ≤ rational negative mantissa exponent := by
    rwa [Int.cast_neg, Int.cast_ofNat]
  have beyond : rational negative mantissa exponent < ((0x8000000000000000 : Int) : ℚ) := by
    rwa [Int.cast_ofNat]
  obtain ⟨le, lt⟩ := truncated_between least beyond (by decide) (by decide)
  rw [whole_eq_truncated]
  exact ⟨le, Int.le_of_lt_add_one lt⟩

/-- An integer is compared with a finite number exactly. -/
theorem compareInt_finite (i : Int64) (spaced : -1074 ≤ exponent) :
    compareInt i (.finite negative mantissa exponent)
      = some (cmp (i.toInt : ℚ) (rational negative mantissa exponent)) := by
  have i_low : (-0x8000000000000000 : ℚ) ≤ i.toInt := by exact_mod_cast i.le_toInt
  have i_high : (i.toInt : ℚ) < 0x8000000000000000 := by exact_mod_cast i.toInt_lt
  rw [compareInt]
  split
  · rename_i in_words
    obtain ⟨low, high⟩ := (inWords_iff spaced).mp in_words
    have ⟨least, greatest⟩ := whole_in_range low high
    have kept : (Int64.ofInt (whole negative mantissa exponent)).toInt
        = whole negative mantissa exponent :=
      Int64.toInt_ofInt_of_le least (Int.lt_add_one_of_le greatest)
    dsimp only
    rw [compare_words, kept, beyondWhole_eq_cmp, whole_eq_truncated, ← cmp_eq_then_truncated]
  · rename_i outside
    rw [inWords_iff spaced, not_and_or, not_le, not_lt] at outside
    rcases outside with below | beyond
    · have sign := (units_neg_iff spaced).mpr (below.trans (by norm_num))
      rw [if_pos sign, (below.trans_le i_low).cmp_eq_gt]
    · have sign : ¬units negative mantissa exponent < 0 := by
        rw [units_neg_iff spaced, not_lt]
        exact le_trans (by norm_num) beyond
      rw [if_neg sign, (i_high.trans_le beyond).cmp_eq_lt]

/-- An integer is compared with what the number stands for. -/
theorem compareInt_eq {i : Int64} {b : Binary64} (spaced : b.Spaced) :
    compareInt i b = b.extended?.map (cmp (Extended.ofRat i.toInt)) := by
  cases b with
  | nan => rfl
  | infinite negative =>
    cases negative with
    | false => exact congrArg some (Extended.ofRat_lt_top _).cmp_eq_lt.symm
    | true => exact congrArg some (Extended.bot_lt_ofRat _).cmp_eq_gt.symm
  | finite negative mantissa exponent =>
    rw [compareInt_finite i spaced, extended?, Option.map_some, Extended.cmp_ofRat]

theorem compareInt_eq_none_iff {i : Int64} {b : Binary64} : compareInt i b = none ↔ b = .nan := by
  cases b with
  | nan => simp [compareInt]
  | infinite negative => simp [compareInt]
  | finite negative mantissa exponent =>
    simp only [compareInt, reduceCtorEq, iff_false]
    split
    · simp
    · split <;> simp

end Integers

/-- Numbers are compared as what they stand for. -/
theorem compare_ofFloat (x y : Float) : compare (.ofFloat x) (.ofFloat y)
    = (Extended.ofFloat? x).bind fun p => (Extended.ofFloat? y).map (cmp p) := by
  rw [compare_eq (spaced_ofFloat x) (spaced_ofFloat y), extended?_ofFloat, extended?_ofFloat]

/-- A word stands for something exactly if it is a number. -/
theorem exists_ofFloat?_iff {x : Float} :
    (∃ p, Extended.ofFloat? x = some p) ↔ x.isNaN = false := by
  rw [← extended?_ofFloat, ← Bool.not_eq_true, ← ofFloat_eq_nan_iff]
  cases ofFloat x <;> simp [extended?]

/-- An integer is compared with a number as with what it stands for. -/
theorem compareInt_ofFloat (i : Int64) (x : Float) : compareInt i (.ofFloat x)
    = (Extended.ofFloat? x).map (cmp (Extended.ofRat i.toInt)) := by
  rw [compareInt_eq (spaced_ofFloat x), extended?_ofFloat]

/-- **Integers are compared with numbers exactly.** There is no order just with what is not a
number; otherwise the order is that of the integer and of the infinity or the rational number that
the binary64 word stands for. The part before the point is taken only of numbers within the signed
64-bit range, where it is the number cut toward zero and fits a word. -/
theorem compareInt_exact (i : Int64) (x : Float) :
    (compareInt i (.ofFloat x) = none ↔ x.isNaN = true)
    ∧ compareInt i (.ofFloat x) = (Extended.ofFloat? x).map (cmp (Extended.ofRat i.toInt))
    ∧ ∀ negative mantissa exponent, ofFloat x = .finite negative mantissa exponent →
        InWords negative mantissa exponent →
        ∃ q : ℚ, Extended.ofFloat? x = some (.ofRat q)
          ∧ whole negative mantissa exponent = truncated q
          ∧ Signed64.least ≤ whole negative mantissa exponent
          ∧ whole negative mantissa exponent ≤ Signed64.greatest := by
  refine ⟨?_, compareInt_ofFloat i x, ?_⟩
  · rw [compareInt_eq_none_iff, ofFloat_eq_nan_iff]
  · intro negative mantissa exponent finite in_words
    have spaced : -1074 ≤ exponent := by simpa [finite, Spaced] using spaced_ofFloat x
    refine ⟨rational negative mantissa exponent, ?_, whole_eq_truncated, ?_⟩
    · rw [← extended?_ofFloat, finite, extended?]
    · obtain ⟨low, high⟩ := (inWords_iff spaced).mp in_words
      exact whole_in_range low high

/-- The integer `-2` lies above `-2.5`, whose part before the point is `-2` too. -/
theorem compareInt_exact_of_half :
    compareInt (-2) (.ofFloat (-2.5)) = some .gt
      ∧ ofFloat (-2.5) = .finite true 5629499534213120 (-51)
      ∧ ∃ q : ℚ, Extended.ofFloat? (-2.5) = some (.ofRat q) ∧ -2 = truncated q := by
  have parts : ofFloat (-2.5) = .finite true 5629499534213120 (-51) := by decide +kernel
  obtain ⟨q, read, cut, -⟩ := (compareInt_exact (-2) (-2.5)).2.2 _ _ _ parts
    (by decide +kernel)
  exact ⟨by decide +kernel, parts, q, read, cut⟩

end Binary64

end RiskRules
