import RiskRules.Json.Number
import RiskRules.Proofs.ExactNumbers

/-!
Numbers that stay finite. A word is finite exactly if what it unpacks to is within the exponents
that a word can hold (`Binary64.isFinite_iff_inRange`), and so is all that is packed from there
(`Binary64.isFinite_pack`). Rounding moves the first digit by one place at most, so that a number
comes out finite whose first digit is one place below the largest
(`Binary64.inRange_roundWithAccuracy`). Dividing by two at least leaves that much room: hence
decimal numerals are read as finite numbers or not at all (`Json.isFinite_of_scaled`).
-/

namespace RiskRules

open Float.Model (UnpackedFloat totalExponent)
open Float.Model.UnpackedFloat

namespace Binary64

/-! ### Words -/

/-- The number is zero, or its exponent is one that a word can hold. -/
def InRange : UnpackedFloat → Prop
  | .zero _ => True
  | .finite _ _ exponent _ => exponent ≤ 971
  | _ => False

/-- A word is finite unless its exponent bits are all ones. -/
theorem isFinite_iff_scale {x : Float} :
    isFinite x = true ↔ x.toBits.toNat / 0x10000000000000 % 2048 ≠ 2047 := by
  by_cases full : x.toBits.toNat / 0x10000000000000 % 2048 = 2047
  · simp only [isFinite, ofFloat, full, if_true]
    split <;> rename_i parts
    · split at parts <;> cases parts
    · simp
  · simp only [isFinite, ofFloat, full, if_false]
    split <;> rename_i parts
    · simpa using full
    · split at parts <;> exact absurd rfl (parts _ _ _)

theorem isFinite_iff {x : Float} : isFinite x = true ↔ x.isNaN = false ∧ x.isInf = false := by
  rw [isFinite, ofFloat_eq_ofUnpacked, Float.isNaN, Float.Model.isNaN, Float.isInf,
    Float.Model.isInf]
  cases x.toModel.unpack <;> simp [ofUnpacked, UnpackedFloat.isNaN, UnpackedFloat.isInf]

/-- Mantissas take fifty-three bits at most, and the largest exponent is that of the largest
number. -/
theorem bounds_of_ofFloat {x : Float} {negative : Bool} {mantissa : Nat} {exponent : Int}
    (parts : ofFloat x = .finite negative mantissa exponent) :
    mantissa < 2 ^ 53 ∧ exponent ≤ 971 := by
  simp only [ofFloat] at parts
  split at parts
  · split at parts <;> cases parts
  · split at parts <;> cases parts <;> omega

/-- A word is finite exactly if what it unpacks to is in range. -/
theorem isFinite_iff_inRange {x : Float} : isFinite x = true ↔ InRange x.toModel.unpack := by
  have parts := ofFloat_eq_ofUnpacked x
  rw [isFinite]
  cases unpacked : x.toModel.unpack with
  | finite sign mantissa exponent _ =>
    rw [unpacked, ofUnpacked] at parts
    simp [parts, InRange, (bounds_of_ofFloat parts).2]
  | _ => simp [parts, unpacked, ofUnpacked, InRange]

/-- What is in range is packed as a finite number. -/
theorem isFinite_pack {u : UnpackedFloat} (inRange : InRange u) :
    isFinite (.ofModel (.pack u)) = true := by
  have bits : (Float.ofModel (.pack u)).toBits.toNat =
    (UnpackedFloat.pack .binary64 u).toNat := rfl
  rw [isFinite_iff_scale, bits, ← toNat_unpackExponent]
  cases u with
  | notANumber => cases inRange
  | infinity sign => cases inRange
  | zero sign => simp [UnpackedFloat.pack, packedZero]
  | finite sign mantissa exponent _ =>
    have bias : ((Float.Model.Format.binary64.exponentBias : Nat) : Int) = 1023 := rfl
    simp only [InRange] at inRange
    simp only [UnpackedFloat.pack, bias]
    split
    · norm_num at *
      omega
    · split
      · rw [unpackExponent_packComponents]
        norm_num
        omega
      · rw [unpackExponent_packComponents]
        norm_num

theorem isFinite_ofBits {bits : UInt64} (partly : bits.toNat / 0x10000000000000 % 2048 ≠ 2047) :
    isFinite (.ofBits bits) = true := by
  have exponent : @UnpackedFloat.unpackExponent .binary64 bits.toBitVec ≠ -1#_ := by
    intro full
    rw [← BitVec.toNat_inj, toNat_unpackExponent] at full
    exact partly full
  -- Only the bits of a non-number may be invalid, so that these are a word as they stand.
  have valid : Float.Model.Format.binary64.Valid bits.toBitVec := ⟨fun full => absurd full exponent⟩
  have word : isFinite (.ofModel ⟨bits, valid⟩) = true := isFinite_iff_scale.mpr partly
  have inRange : InRange (Float.Model.unpack ⟨bits, valid⟩) := isFinite_iff_inRange.mp word
  exact isFinite_pack inRange

/-! ### Rounding -/

theorem log2_lt_iff_lt_two_pow {n k : Nat} (pos : 0 < k) : n.log2 < k ↔ n < 2 ^ k := by
  rcases Nat.eq_zero_or_pos n with rfl | n_pos
  · simpa using pos
  · exact Nat.log2_lt (by omega)

theorem log2_shiftLeft_le (m k : Nat) : (m <<< k).log2 ≤ m.log2 + k := by
  rw [← Nat.lt_add_one_iff, log2_lt_iff_lt_two_pow (by omega), Nat.shiftLeft_eq, Nat.add_right_comm,
    pow_add]
  exact Nat.mul_lt_mul_of_pos_right Nat.lt_log2_self (by positivity)

theorem targetExponent_eq (total : Int) :
    Float.Model.Format.binary64.targetExponent total = max (total - 53) (-1074) := by
  simp [Float.Model.Format.targetExponent, Float.Model.Format.mantissaBits,
    Float.Model.Format.minExponent]

theorem mantissa_ofMantissaAndAccuracy (m : Nat) (accuracy : Accuracy) :
    (ExtendedMantissa.ofMantissaAndAccuracy m accuracy).mantissa = m := by
  rcases accuracy with _ | _ | _ | _ <;> rfl

theorem mantissa_shiftRight (extended : ExtendedMantissa) (k : Nat) :
    (extended >>> k).mantissa = extended.mantissa / 2 ^ k := by
  induction k with
  | zero => simp [HShiftRight.hShiftRight, Nat.repeat]
  | succ k ih =>
    have step : (extended >>> (k + 1)).mantissa = (extended >>> k).mantissa / 2 := rfl
    rw [step, ih, Nat.div_div_eq_div_mul, pow_succ]

theorem roundedMantissa_le (extended : ExtendedMantissa) :
    extended.roundedMantissa ≤ extended.mantissa + 1 := by
  obtain ⟨mantissa, round, sticky⟩ := extended
  cases round <;> cases sticky <;>
    simp [ExtendedMantissa.roundedMantissa, ExtendedMantissa.accuracy, Accuracy.roundToNearestEven]
  omega

/-- A mantissa that is rounded up takes one bit more than one cut off, at most. -/
theorem log2_roundedMantissa_le (m k : Nat) (accuracy : Accuracy) :
    (ExtendedMantissa.ofMantissaAndAccuracy m accuracy >>> k).roundedMantissa.log2
      ≤ m.log2 - k + 1 := by
  have most := roundedMantissa_le (ExtendedMantissa.ofMantissaAndAccuracy m accuracy >>> k)
  rw [mantissa_shiftRight, mantissa_ofMantissaAndAccuracy] at most
  have cut : m / 2 ^ k < 2 ^ (m.log2 - k + 1) := by
    rw [Nat.div_lt_iff_lt_mul (by positivity), ← pow_add]
    exact Nat.lt_log2_self.trans_le (Nat.pow_le_pow_right two_pos (by omega))
  have one_bit := Nat.two_pow_pos (m.log2 - k + 1)
  rw [← Nat.lt_add_one_iff, log2_lt_iff_lt_two_pow (by omega), pow_succ]
  omega

/-- A number whose first digit is one place below the largest is not rounded out of the range. -/
theorem inRange_roundWithAccuracy {sign : Sign} {m : Nat} {e : Int} {accuracy : Accuracy}
    (exponent : e ≤ 971) (size : totalExponent m e ≤ 1023) :
    InRange (roundWithAccuracy .binary64 sign m e accuracy) := by
  rw [totalExponent] at size
  simp only [roundWithAccuracy, shiftToTargetExponent, shiftToExponent, targetExponent_eq]
  split
  · trivial
  · -- The first shift leaves fifty-three bits; what rounding carries beyond them, the second takes.
    have bits := log2_roundedMantissa_le m (max (totalExponent m e - 53) (-1074) - e).toNat accuracy
    simp only [InRange, totalExponent] at bits ⊢
    omega

theorem inRange_round {sign : Sign} {m : Nat} {e : Int} (size : totalExponent m e ≤ 1023) :
    InRange (UnpackedFloat.round .binary64 sign m e) := by
  rw [totalExponent] at size
  simp only [UnpackedFloat.round, decreaseExponent, targetExponent_eq, totalExponent]
  refine inRange_roundWithAccuracy (by omega) ?_
  have shifted := log2_shiftLeft_le m (e - max (m.log2 + 1 + e - 53) (-1074)).toNat
  rw [totalExponent]
  omega

/-- A number divided by two at least is not rounded out of the range. -/
theorem inRange_quotient {sign : Sign} {m n : Nat} {e f : Int} (divisor : 0 < n)
    (size : totalExponent m e ≤ 1024) (least : 2 ≤ totalExponent n f) :
    let (quotient, exponent, accuracy) := divCore .binary64 m e n f
    InRange (roundWithAccuracy .binary64 sign quotient exponent accuracy) := by
  have bits (k : Nat) : (m <<< k / n).log2 ≤ m.log2 + k - n.log2 := by
    have shifted := log2_shiftLeft_le m k
    rw [← Nat.lt_add_one_iff, log2_lt_iff_lt_two_pow (by omega), Nat.div_lt_iff_lt_mul divisor]
    calc m <<< k < 2 ^ ((m <<< k).log2 + 1) := Nat.lt_log2_self
      _ ≤ 2 ^ (m.log2 + k - n.log2 + 1) * 2 ^ n.log2 := by
        rw [← pow_add]
        exact Nat.pow_le_pow_right two_pos (by omega)
      _ ≤ 2 ^ (m.log2 + k - n.log2 + 1) * n := Nat.mul_le_mul_left _ (Nat.log2_self_le divisor.ne')
  have quotient := bits
    (e - f - min (e - f) (max (totalExponent m e - totalExponent n f - 53) (-1074))).toNat
  simp only [totalExponent] at size least quotient
  simp only [divCore, targetExponent_eq]
  refine inRange_roundWithAccuracy ?_ ?_ <;> simp only [totalExponent] <;> omega

/-! ### Operations -/

theorem isFinite_toFloat (n : UInt64) : isFinite n.toFloat = true := by
  refine isFinite_pack ?_
  rw [UnpackedFloat.ofUInt64, UnpackedFloat.ofNat, UnpackedFloat.ofInt, UnpackedFloat.normalize]
  split
  · rename_i negative
    rw [Int.compare_eq_lt] at negative
    omega
  · trivial
  · refine inRange_round ?_
    have word : n.toNat.log2 < 64 := (log2_lt_iff_lt_two_pow (by omega)).mpr n.toNat_lt
    rw [totalExponent, Int.toNat_natCast]
    omega

theorem isFinite_neg {x : Float} (finite : isFinite x = true) : isFinite (-x) = true := by
  rw [isFinite_iff_inRange] at finite
  refine isFinite_pack ?_
  cases unpacked : x.toModel.unpack <;> simp_all [InRange, UnpackedFloat.neg]

/-- The magnitude of the number is two at least. -/
def atLeastTwo : Binary64 → Bool
  | .finite _ mantissa exponent => mantissa ≠ 0 && 2 ≤ totalExponent mantissa exponent
  | _ => false

theorem isFinite_div {x y : Float} (finite : isFinite x = true)
    (divisor : atLeastTwo (ofFloat y) = true) : isFinite (x / y) = true := by
  have dividend := isFinite_iff_inRange.mp finite
  have parts := ofFloat_eq_ofUnpacked x
  rw [ofFloat_eq_ofUnpacked] at divisor
  refine isFinite_pack ?_
  cases y_eq : y.toModel.unpack with
  | finite _ n f n_pos =>
    rw [y_eq] at divisor
    simp only [ofUnpacked, atLeastTwo, Bool.and_eq_true, decide_eq_true_eq] at divisor
    -- The largest number has its first digit at 1024; a divisor of two takes one place off.
    cases x_eq : x.toModel.unpack with
    | zero sign => trivial
    | finite sign m e m_pos =>
      rw [x_eq, ofUnpacked] at parts
      obtain ⟨bits, exponent⟩ := bounds_of_ofFloat parts
      have log2 : m.log2 < 53 := (log2_lt_iff_lt_two_pow (by omega)).mpr bits
      refine inRange_quotient n_pos ?_ divisor.2
      rw [totalExponent]
      omega
    | _ => simp [x_eq, InRange] at dividend
  | _ => simp [y_eq, ofUnpacked, atLeastTwo] at divisor

end Binary64

/-! ### Decimal numerals -/

namespace Decimal

variable {negative : Bool} {x : Float}

theorem isFinite_withSign {bits : Nat} (below : bits < infinityBits) :
    isFinite (withSign negative bits) = true := by
  rw [infinityBits] at below
  refine Binary64.isFinite_ofBits ?_
  rw [UInt64.toNat_ofNat']
  split <;> omega

theorem isFinite_zero : isFinite (withSign negative 0) = true :=
  isFinite_withSign (by decide)

theorem isFinite_of_nearest {num den : Nat} (rounded : nearest negative num den = some x) :
    isFinite x = true := by
  simp only [nearest] at rounded
  split_ifs at rounded with zero below
  · cases rounded
    exact isFinite_zero
  · cases rounded
    exact isFinite_withSign below

theorem isFinite_of_read {digits : Nat} {exponent : Int}
    (taken : read negative digits exponent = some x) : isFinite x = true := by
  simp only [read] at taken
  split_ifs at taken
  · cases taken
    exact isFinite_zero
  · cases taken
    exact isFinite_zero
  · exact isFinite_of_nearest taken
  · exact isFinite_of_nearest taken

end Decimal

namespace Json

theorem isFinite_floatOfInt (n : Int) : isFinite (floatOfInt n) = true := by
  rw [floatOfInt]
  cases taken : Decimal.read (decide (n < 0)) n.natAbs 0 with
  | some x => exact Decimal.isFinite_of_read taken
  | none => exact Decimal.isFinite_zero

theorem atLeastTwo_powerOfTen {exponent : Nat} (least : 1 ≤ exponent) (most : exponent ≤ 308) :
    Binary64.atLeastTwo (.ofFloat (powerOfTen exponent)) = true := by
  have all : ∀ k < 308, Binary64.atLeastTwo (.ofFloat (powerOfTen (k + 1))) = true := by
    decide +kernel
  obtain ⟨k, rfl⟩ := Nat.exists_eq_add_of_le' least
  exact all k (by omega)

/-- Digits scaled by a power of ten are a finite number. -/
theorem isFinite_of_scaled {n : Nat} {exponent : Int} {x : Float}
    (taken : scaled n exponent = some x) : isFinite x = true := by
  have whole := Binary64.isFinite_toFloat (UInt64.ofNat n)
  simp only [scaled] at taken
  split_ifs at taken with zero large positive finite once twice
  · cases taken
    exact whole
  · cases taken
    exact finite
  · cases taken
    exact Binary64.isFinite_div whole (atLeastTwo_powerOfTen (by omega) once)
  · cases taken
    refine Binary64.isFinite_div (Binary64.isFinite_div whole ?_) ?_
    · exact atLeastTwo_powerOfTen (by decide) (by decide)
    · exact atLeastTwo_powerOfTen (by omega) (by omega)
  · cases taken
    exact Decimal.isFinite_zero

end Json

end RiskRules
