import RiskRules.Proofs.NumberText

/-!
What is written as a number is read as a number. The text of a finite binary64 number has whole
digits without a needless zero in front, at times a fraction, at times an exponent
(`isNumeral_body`), and every text of this form has a value (`exists_ofNumberText_floatText`).
-/

namespace RiskRules

open Digits (digit? leading isDigit_of_mem_toDigits)

/-! ### Digits that are not all zero -/

namespace Decimal

theorem accepts_of_firstOnGrids {num den fuel : Nat} {accepts : Numeral → Bool} {exponent : Int}
    {numeral : Numeral} (found : firstOnGrids num den accepts fuel exponent = some numeral) :
    accepts numeral = true := by
  induction fuel generalizing exponent with
  | zero => cases found
  | succ fuel ih =>
    rw [firstOnGrids] at found
    split at found
    · rename_i here
      cases found
      exact List.find?_some here
    · exact ih found

theorem digits_trimZeros_ne_zero {numeral : Numeral} (nonzero : numeral.digits ≠ 0) (fuel : Nat) :
    (trimZeros fuel numeral).digits ≠ 0 := by
  induction fuel generalizing numeral with
  | zero => exact nonzero
  | succ fuel ih =>
    rw [trimZeros]
    split
    · have quotient : numeral.digits / 10 ≠ 0 := by omega
      exact ih quotient
    · exact nonzero

/-- A number that is not zero has a digit that is not zero. -/
theorem digits_shortest_ne_zero {mantissa : Nat} (nonzero : mantissa ≠ 0) (exponent : Int) :
    (shortest mantissa exponent).digits ≠ 0 := by
  simp only [shortest, if_neg nonzero]
  split
  · rename_i numeral found
    have accepted := accepts_of_firstOnGrids found
    exact digits_trimZeros_ne_zero (of_decide_eq_true accepted).1 20
  · rw [exact]
    split
    · exact Nat.mul_ne_zero nonzero (by simp)
    · exact Nat.mul_ne_zero nonzero (by simp)

end Decimal

namespace Json

/-! ### The form of numbers -/

/-- Digits, at least one. -/
structure IsDigits (text : List Char) : Prop where
  digits : ∀ c ∈ text, c.isDigit = true
  nonempty : text ≠ []

/-- Whole digits: a zero alone, or digits of which the first is another. -/
inductive IsWhole : List Char → Prop
  | zero : IsWhole ['0']
  | leading {c : Char} {rest : List Char} (digits : ∀ d ∈ c :: rest, d.isDigit = true)
    (nonzero : digit? c ≠ some 0) : IsWhole (c :: rest)

/-- Digits behind a point, or nothing. -/
inductive IsFraction : List Char → Prop
  | none : IsFraction []
  | point {text : List Char} (digits : IsDigits text) : IsFraction ('.' :: text)

/-- A power of ten with its sign, or nothing. -/
inductive IsExponent : List Char → Prop
  | none : IsExponent []
  | power {sign : Char} {text : List Char} (signed : sign = '-' ∨ sign = '+')
    (digits : IsDigits text) : IsExponent ('e' :: sign :: text)

/-- A number without a sign. -/
inductive IsNumeral : List Char → Prop
  | parts {whole fraction exponent : List Char} (whole_digits : IsWhole whole)
    (fraction_digits : IsFraction fraction) (exponent_digits : IsExponent exponent) :
    IsNumeral (whole ++ (fraction ++ exponent))

section

variable {text whole fraction exponent rest : List Char}

theorem IsDigits.filterMap_ne_nil (digits : IsDigits text) : text.filterMap digit? ≠ [] := by
  obtain ⟨c, rest, rfl⟩ := List.exists_cons_of_ne_nil digits.nonempty
  have here := Digits.digit?_eq_some_of_isDigit (digits.digits c List.mem_cons_self)
  rw [List.filterMap_cons_some here]
  exact List.cons_ne_nil _ _

theorem IsWhole.isDigits (whole_digits : IsWhole whole) : IsDigits whole := by
  cases whole_digits with
  | zero => exact ⟨List.forall_mem_singleton.mpr rfl, List.cons_ne_nil _ _⟩
  | leading digits => exact ⟨digits, List.cons_ne_nil _ _⟩

theorem IsFraction.point_zero : IsFraction ['.', '0'] :=
  .point IsWhole.zero.isDigits

/-- A zero in front stands alone. -/
theorem IsWhole.no_needless_zero (whole_digits : IsWhole whole) :
    ¬((whole.filterMap digit?).head? = some 0 ∧ (whole.filterMap digit?).length ≠ 1) := by
  rintro ⟨zero, long⟩
  cases whole_digits with
  | zero => exact long rfl
  | @leading c rest digits nonzero =>
    have here := Digits.digit?_eq_some_of_isDigit (digits c List.mem_cons_self)
    rw [List.filterMap_cons_some here, List.head?_cons] at zero
    exact nonzero (here.trans zero)

theorem IsExponent.exists_value (exponent_digits : IsExponent exponent) :
    ∃ value, exponentPart exponent = some value := by
  cases exponent_digits with
  | none => exact ⟨_, rfl⟩
  | @power sign text signed digits =>
    have all : leading (text ++ []) = (text.filterMap digit?, []) :=
      Digits.leading_append digits.digits (by simp)
    rw [List.append_nil] at all
    have some_digits := digits.filterMap_ne_nil
    rcases signed with rfl | rfl <;>
      cases front : text.filterMap digit? with
      | nil => exact absurd front some_digits
      | cons d ds => simp [exponentPart, all, front]

theorem IsExponent.head_not_digit (exponent_digits : IsExponent exponent) :
    ∀ c ∈ exponent.head?, c.isDigit = false := by
  cases exponent_digits with
  | none => simp
  | power => simp

theorem IsFraction.exists_digits (fraction_digits : IsFraction fraction)
    (exponent_digits : IsExponent exponent) :
    ∃ digits, fractionDigits (fraction ++ exponent) = some (digits, exponent) := by
  cases fraction_digits with
  | none =>
    cases exponent_digits with
    | none => exact ⟨[], rfl⟩
    | power => exact ⟨[], rfl⟩
  | @point text digits =>
    have split := Digits.leading_append digits.digits exponent_digits.head_not_digit
    have some_digits := digits.filterMap_ne_nil
    cases front : text.filterMap digit? with
    | nil => exact absurd front some_digits
    | cons d ds =>
      rw [front] at split
      exact ⟨d :: ds, by simp [fractionDigits, split]⟩

theorem IsFraction.head_not_digit (fraction_digits : IsFraction fraction)
    (exponent_digits : IsExponent exponent) :
    ∀ c ∈ (fraction ++ exponent).head?, c.isDigit = false := by
  cases fraction_digits with
  | none => exact exponent_digits.head_not_digit
  | point => simp

/-- Every number of this form has a value, under a minus as without. -/
theorem IsNumeral.exists_value (numeral : IsNumeral text) :
    (∃ j, ofNumberText text = some j) ∧ ∃ j, ofNumberText ('-' :: text) = some j := by
  obtain @⟨whole, fraction, exponent, whole_digits, fraction_digits, exponent_digits⟩ := numeral
  have digits := whole_digits.isDigits
  have needed := whole_digits.no_needless_zero
  have split := Digits.leading_append digits.digits (fraction_digits.head_not_digit exponent_digits)
  obtain ⟨behind_point, fraction_read⟩ := fraction_digits.exists_digits exponent_digits
  obtain ⟨power, power_read⟩ := exponent_digits.exists_value
  have unsigned : ∀ rest, whole ++ (fraction ++ exponent) ≠ '-' :: rest := by
    obtain ⟨c, later, rfl⟩ := List.exists_cons_of_ne_nil digits.nonempty
    rintro rest same
    have minus := digits.digits c List.mem_cons_self
    rw [(List.cons.inj same).1] at minus
    exact absurd minus (by decide)
  cases front : whole.filterMap digit? with
  | nil => exact absurd front digits.filterMap_ne_nil
  | cons d ds =>
    rw [front] at split needed
    constructor
    · rw [ofNumberText]
      · simp only [split, if_neg needed, fraction_read, power_read]
        split <;> exact ⟨_, rfl⟩
      · exact unsigned
    · simp only [ofNumberText, split, if_neg needed, fraction_read, power_read]
      split <;> exact ⟨_, rfl⟩

end

/-! ### Written numbers -/

/-- The digits of a number that is not zero are whole digits, wherever they are cut off behind the
first. -/
theorem exists_digitsOf {n : Nat} (nonzero : n ≠ 0) : ∃ c rest, Decimal.digitsOf n = c :: rest ∧
    (∀ d ∈ c :: rest, d.isDigit = true) ∧ digit? c ≠ some 0 := by
  obtain ⟨c, rest, text⟩ := List.exists_cons_of_ne_nil (Nat.toDigits_ne_nil (n := n) (b := 10))
  have digits : ∀ d ∈ c :: rest, d.isDigit = true := fun d mem =>
    isDigit_of_mem_toDigits (text ▸ mem)
  refine ⟨c, rest, text, digits, fun zero => nonzero (Digits.eq_zero_of_head? ?_)⟩
  rw [text, List.filterMap_cons_some zero]
  rfl

theorem isDigit_of_mem_replicate {n : Nat} {d : Char} (mem : d ∈ List.replicate n '0') :
    d.isDigit = true := by
  rw [List.eq_of_mem_replicate mem]
  rfl

theorem isNumeral_positional {c : Char} {rest : List Char}
    (digits : ∀ d ∈ c :: rest, d.isDigit = true) (nonzero : digit? c ≠ some 0) (exponent : Int) :
    IsNumeral (Decimal.positional (c :: rest) exponent) := by
  rw [Decimal.positional]
  split
  · have whole : IsWhole (c :: rest ++ List.replicate exponent.toNat '0') := by
      refine .leading (fun d mem => ?_) nonzero
      rcases List.mem_append.mp (show d ∈ (c :: rest) ++ _ from mem) with mem | mem
      · exact digits d mem
      · exact isDigit_of_mem_replicate mem
    have fraction : IsFraction ['.', '0'] := .point_zero
    exact .parts whole fraction .none
  · rename_i negative
    dsimp only
    split
    · rename_i inside
      obtain ⟨k, cut⟩ : ∃ k, (c :: rest).length - (-exponent).toNat = k + 1 :=
        Nat.exists_eq_succ_of_ne_zero (by omega)
      rw [cut, List.take_succ_cons]
      have whole : IsWhole (c :: rest.take k) := by
        refine .leading (fun d mem => digits d ?_) nonzero
        rw [← List.take_succ_cons] at mem
        exact List.mem_of_mem_take mem
      have fraction : IsFraction ('.' :: (c :: rest).drop (k + 1)) := by
        refine .point ⟨fun d mem => digits d (List.mem_of_mem_drop mem), ?_⟩
        rw [ne_eq, List.drop_eq_nil_iff]
        omega
      simpa using IsNumeral.parts whole fraction .none
    · have fraction : IsFraction ('.' :: (List.replicate ((-exponent).toNat - (c :: rest).length) '0'
          ++ c :: rest)) := by
        refine .point ⟨fun d mem => ?_, by simp⟩
        rcases List.mem_append.mp mem with mem | mem
        · exact isDigit_of_mem_replicate mem
        · exact digits d mem
      simpa using IsNumeral.parts .zero fraction .none

theorem isNumeral_scientific {c : Char} {rest : List Char}
    (digits : ∀ d ∈ c :: rest, d.isDigit = true) (nonzero : digit? c ≠ some 0) (magnitude : Int) :
    IsNumeral (Decimal.scientific (c :: rest) magnitude) := by
  have whole : IsWhole [c] :=
    .leading (List.forall_mem_singleton.mpr (digits c List.mem_cons_self)) nonzero
  have exponent : IsExponent ('e' :: (if magnitude < 0 then '-' else '+')
      :: Decimal.digitsOf magnitude.natAbs) := by
    refine .power ?_ ⟨fun d => isDigit_of_mem_toDigits, Nat.toDigits_ne_nil⟩
    split
    · exact .inl rfl
    · exact .inr rfl
  cases rest with
  | nil => exact .parts whole .none exponent
  | cons d rest =>
    have fraction : IsFraction ('.' :: d :: rest) :=
      .point ⟨fun e mem => digits e (List.mem_cons_of_mem c mem), List.cons_ne_nil _ _⟩
    exact .parts whole fraction exponent

/-- What is written behind the sign of a binary64 number is a number. -/
theorem isNumeral_body (mantissa : Nat) (exponent magnitude : Int) :
    IsNumeral (if mantissa = 0 then ['0', '.', '0']
      else if -5 ≤ magnitude ∧ magnitude < 16 then
        Decimal.positional (Decimal.digitsOf (Decimal.shortest mantissa exponent).digits)
          (Decimal.shortest mantissa exponent).exponent
      else Decimal.scientific (Decimal.digitsOf (Decimal.shortest mantissa exponent).digits)
        magnitude) := by
  split
  · have fraction : IsFraction ['.', '0'] := .point_zero
    exact .parts .zero fraction .none
  · rename_i nonzero
    obtain ⟨c, rest, text, digits, first⟩ :=
      exists_digitsOf (Decimal.digits_shortest_ne_zero nonzero exponent)
    rw [text]
    split
    · exact isNumeral_positional digits first _
    · exact isNumeral_scientific digits first _

/-- A finite binary64 number has a text that is read as a number. -/
theorem exists_ofNumberText_floatText {x : Float} (finite : isFinite x = true) :
    ∃ j, ofNumberText (floatText x) = some j := by
  rw [isFinite] at finite
  split at finite
  · rename_i negative mantissa exponent parts
    rw [floatText, parts]
    simp only [Decimal.render, String.toList_ofList]
    obtain ⟨unsigned, signed⟩ := (isNumeral_body mantissa exponent _).exists_value
    cases negative with
    | false => exact unsigned
    | true => exact signed
  · cases finite

/-- An integer has a text that is read as a number. -/
theorem exists_ofNumberText_intText (n : Int) : ∃ j, ofNumberText (intText n) = some j := by
  rw [intText]
  split
  · exact ⟨_, (ofNumberText_toDigits _).2⟩
  · exact ⟨_, (ofNumberText_toDigits _).1⟩

end Json

end RiskRules
