import RiskRules.Json.Printer
import RiskRules.Proofs.Digits

/-!
Numbers written and read. An integer is read back from its text (`ofNumberText_intText`). The text
of a finite binary64 number is made of number characters and begins with a digit or a minus
(`isNumberText_floatText`); what it reads as need not be the number that was written.
-/

namespace RiskRules

open Digits (digit? leading number isDigit_of_mem_toDigits)

namespace Json

/-! ### Integers -/

/-- Digits without a needless zero in front are a whole number, with a minus or without. -/
theorem ofNumberText_toDigits (n : Nat) :
    ofNumberText (Nat.toDigits 10 n)
        = some (wholeNumber false ((Nat.toDigits 10 n).filterMap digit?)) ∧
      ofNumberText ('-' :: Nat.toDigits 10 n)
        = some (wholeNumber true ((Nat.toDigits 10 n).filterMap digit?)) := by
  have split : leading (Nat.toDigits 10 n) = ((Nat.toDigits 10 n).filterMap digit?, []) := by
    simpa using @Digits.leading_toDigits [] n (by simp)
  have no_zero : ∀ ds, (Nat.toDigits 10 n).filterMap digit? = 0 :: ds → ds = [] := by
    intro ds whole
    have zero : n = 0 := Digits.eq_zero_of_head? (by rw [whole]; rfl)
    subst zero
    exact (List.cons.inj whole).2.symm
  have unsigned : ∀ rest, Nat.toDigits 10 n ≠ '-' :: rest := by
    intro rest same
    have minus : '-' ∈ Nat.toDigits 10 n := same ▸ List.mem_cons_self
    exact absurd (isDigit_of_mem_toDigits minus) (by decide)
  cases whole : (Nat.toDigits 10 n).filterMap digit? with
  | nil =>
    obtain ⟨c, cs, text⟩ := List.exists_cons_of_ne_nil (Nat.toDigits_ne_nil (n := n) (b := 10))
    have digit := Digits.digit?_eq_some_of_isDigit
      (isDigit_of_mem_toDigits (n := n) (text ▸ List.mem_cons_self))
    rw [text, List.filterMap_cons_some digit] at whole
    cases whole
  | cons d ds =>
    rw [whole] at split
    have allowed : d = 0 → ds = [] := by
      rintro rfl
      exact no_zero ds whole
    constructor
    · rw [ofNumberText]
      · simpa [split, fractionDigits, exponentPart] using allowed
      · exact unsigned
    · simpa [ofNumberText, split, fractionDigits, exponentPart] using allowed

/-- An integer of the range that texts keep is read back. -/
theorem ofNumberText_intText {n : Int} (least : -0x8000000000000000 ≤ n)
    (greatest : n < 0x10000000000000000) : ofNumberText (intText n) = some (.int n) := by
  rw [intText]
  split
  · rename_i negative
    have positive : 0 < n.natAbs ∧ n.natAbs ≤ 0x8000000000000000 := by omega
    have same : -(n.natAbs : Int) = n := by omega
    rw [(ofNumberText_toDigits _).2, wholeNumber, Digits.number_toDigits]
    rw [if_pos rfl, if_pos positive, same]
  · have small : n.natAbs < 0x10000000000000000 := by omega
    have same : (n.natAbs : Int) = n := by omega
    rw [(ofNumberText_toDigits _).1, wholeNumber, Digits.number_toDigits]
    rw [if_neg Bool.false_ne_true, if_pos small, same]

/-! ### Text that is taken for a number -/

/-- Text of number characters that begins with a digit or a minus. -/
structure IsNumberText (text : List Char) : Prop where
  inNumber : ∀ c ∈ text, Reader.inNumber c = true
  begins : ∃ c rest, text = c :: rest ∧ (c = '-' ∨ c.isDigit = true)

theorem inNumber_of_isDigit {c : Char} (digit : c.isDigit = true) : Reader.inNumber c = true := by
  simp [Reader.inNumber, digit]

theorem IsNumberText.of_digits {text : List Char} (digits : ∀ c ∈ text, c.isDigit = true)
    (nonempty : text ≠ []) : IsNumberText text := by
  obtain ⟨c, rest, rfl⟩ := List.exists_cons_of_ne_nil nonempty
  exact ⟨fun c mem => inNumber_of_isDigit (digits c mem),
    ⟨c, rest, rfl, .inr (digits c List.mem_cons_self)⟩⟩

theorem IsNumberText.append {text rest : List Char} (number : IsNumberText text)
    (more : ∀ c ∈ rest, Reader.inNumber c = true) : IsNumberText (text ++ rest) := by
  obtain ⟨c, later, rfl, first⟩ := number.begins
  refine ⟨fun c mem => ?_, ⟨c, later ++ rest, rfl, first⟩⟩
  rcases List.mem_append.mp mem with mem | mem
  · exact number.inNumber c mem
  · exact more c mem

theorem IsNumberText.minus {text : List Char} (number : IsNumberText text) :
    IsNumberText ('-' :: text) := by
  refine ⟨fun c mem => ?_, ⟨'-', text, rfl, .inl rfl⟩⟩
  rcases List.mem_cons.mp mem with rfl | mem
  · rfl
  · exact number.inNumber c mem

theorem isNumberText_toDigits (n : Nat) : IsNumberText (Nat.toDigits 10 n) :=
  .of_digits (fun _ => isDigit_of_mem_toDigits) Nat.toDigits_ne_nil

theorem isNumberText_intText (n : Int) : IsNumberText (intText n) := by
  rw [intText]
  split
  · exact (isNumberText_toDigits _).minus
  · exact isNumberText_toDigits _

/-! ### Binary64 numbers -/

theorem isNumberText_positional {digits : List Char} (exponent : Int)
    (all : ∀ c ∈ digits, c.isDigit = true) (nonempty : digits ≠ []) :
    IsNumberText (Decimal.positional digits exponent) := by
  have zeros : ∀ n, ∀ c ∈ List.replicate n '0', Reader.inNumber c = true := by
    intro n c mem
    rw [List.eq_of_mem_replicate mem]
    rfl
  have point_zero : ∀ c ∈ ['.', '0'], Reader.inNumber c = true :=
    List.all_eq_true.mp (by decide)
  rw [Decimal.positional]
  split
  · exact ((IsNumberText.of_digits all nonempty).append (zeros _)).append point_zero
  · dsimp only
    split
    · rename_i inside
      have front : IsNumberText (digits.take (digits.length - (-exponent).toNat)) := by
        refine .of_digits (fun c mem => all c (List.mem_of_mem_take mem)) fun empty => ?_
        rcases List.take_eq_nil_iff.mp empty with none_taken | none_there
        · omega
        · exact nonempty none_there
      refine front.append fun c mem => ?_
      rcases List.mem_cons.mp mem with rfl | mem
      · rfl
      · exact inNumber_of_isDigit (all c (List.mem_of_mem_drop mem))
    · have zero : IsNumberText ['0', '.'] :=
        ⟨List.all_eq_true.mp (by decide), '0', ['.'], rfl, by decide⟩
      exact (zero.append (zeros _)).append fun c mem => inNumber_of_isDigit (all c mem)

theorem isNumberText_scientific {digits : List Char} (magnitude : Int)
    (all : ∀ c ∈ digits, c.isDigit = true) (nonempty : digits ≠ []) :
    IsNumberText (Decimal.scientific digits magnitude) := by
  have power : ∀ c ∈ Decimal.digitsOf magnitude.natAbs, Reader.inNumber c = true :=
    fun c mem => inNumber_of_isDigit (isDigit_of_mem_toDigits mem)
  have sign : Reader.inNumber (if magnitude < 0 then '-' else '+') = true := by
    split <;> rfl
  have exponent : ∀ c ∈ 'e' :: (if magnitude < 0 then '-' else '+')
      :: Decimal.digitsOf magnitude.natAbs, Reader.inNumber c = true := by
    simpa [sign] using ⟨rfl, power⟩
  rcases digits with _ | ⟨d, _ | ⟨e, rest⟩⟩
  · exact absurd rfl nonempty
  · exact (IsNumberText.of_digits all nonempty).append exponent
  · -- A point stands behind the first digit.
    have front : IsNumberText [d] := .of_digits (by simpa using all d List.mem_cons_self) (by simp)
    refine front.append fun c mem => ?_
    rcases List.mem_cons.mp mem with rfl | mem
    · rfl
    · rcases List.mem_append.mp mem with mem | mem
      · exact inNumber_of_isDigit (all c (List.mem_cons_of_mem d mem))
      · exact exponent c mem

theorem isNumberText_render (negative : Bool) (mantissa : Nat) (exponent : Int) :
    IsNumberText (Decimal.render negative mantissa exponent).toList := by
  simp only [Decimal.render, String.toList_ofList]
  generalize Decimal.shortest mantissa exponent = numeral
  have digits : ∀ c ∈ Decimal.digitsOf numeral.digits, c.isDigit = true :=
    fun _ => isDigit_of_mem_toDigits
  have nonempty : Decimal.digitsOf numeral.digits ≠ [] := Nat.toDigits_ne_nil
  have body : ∀ magnitude : Int, IsNumberText (if mantissa = 0 then ['0', '.', '0']
      else if -5 ≤ magnitude ∧ magnitude < 16 then
        Decimal.positional (Decimal.digitsOf numeral.digits) numeral.exponent
      else Decimal.scientific (Decimal.digitsOf numeral.digits) magnitude) := by
    intro magnitude
    split
    · exact ⟨List.all_eq_true.mp (by decide), '0', ['.', '0'], rfl, by decide⟩
    · split
      · exact isNumberText_positional _ digits nonempty
      · exact isNumberText_scientific _ digits nonempty
  split
  · exact (body _).minus
  · exact body _

/-- A finite binary64 number is written as a number. -/
theorem isNumberText_floatText {x : Float} (finite : isFinite x = true) :
    IsNumberText (floatText x) := by
  rw [isFinite] at finite
  split at finite
  · rename_i negative mantissa exponent parts
    rw [floatText, parts]
    exact isNumberText_render negative mantissa exponent
  · cases finite

/-- A binary64 number that is not finite is written as null. -/
theorem floatText_of_not_finite {x : Float} (other : isFinite x ≠ true) :
    floatText x = ['n', 'u', 'l', 'l'] := by
  rw [isFinite] at other
  split at other
  · exact absurd rfl other
  · rename_i infinite
    rw [floatText]
    split
    · rename_i negative mantissa exponent parts
      exact absurd parts (infinite negative mantissa exponent)
    · rfl

end Json

end RiskRules
