import RiskRules.Text.Digits

/-!
Digits written and read. The decimal digits of a number are split off from a text that goes on with
something else (`leading_toDigits`) and write the same number again (`number_toDigits`).
-/

namespace RiskRules.Digits

variable {c : Char} {cs rest : List Char}

/-! ### One digit -/

theorem isDigit_iff : c.isDigit = true ↔ '0' ≤ c ∧ c ≤ '9' := by
  simp [Char.isDigit, Char.le_def]

theorem digit?_eq_some_of_isDigit (h : c.isDigit = true) :
    digit? c = some (c.toNat - '0'.toNat) := by
  rw [digit?, if_pos (isDigit_iff.mp h)]

@[simp] theorem isSome_digit? : (digit? c).isSome = c.isDigit := by
  by_cases h : c.isDigit = true
  · rw [digit?_eq_some_of_isDigit h, h]
    rfl
  · rw [digit?, if_neg (mt isDigit_iff.mpr h)]
    simp [h]

theorem digit?_digitChar {d : Nat} (h : d < 10) : digit? d.digitChar = some d := by
  have digit : d.digitChar.isDigit = true := by
    simp [Nat.isDigit_digitChar, h]
  rw [digit?_eq_some_of_isDigit digit, Nat.toNat_digitChar_of_lt_ten h]
  simp

/-- The ten digits. -/
theorem exists_digitChar (h : c.isDigit = true) : ∃ d < 10, c = d.digitChar := by
  obtain ⟨low, high⟩ := isDigit_iff.mp h
  have low : 48 ≤ c.toNat := low
  have high : c.toNat < 58 := Nat.lt_succ_of_le high
  have ten : ∀ n < 58, 48 ≤ n → Char.ofNat n = (n - 48).digitChar := by decide
  have same : c = (c.toNat - 48).digitChar := by
    rw [← ten c.toNat high low, Char.ofNat_toNat]
  exact ⟨c.toNat - 48, by omega, same⟩

/-! ### Digits in front of a text -/

/-- Digits in front of a text that goes on with something else. -/
theorem leading_append (digits : ∀ c ∈ cs, c.isDigit = true)
    (other : ∀ c ∈ rest.head?, c.isDigit = false) :
    leading (cs ++ rest) = (cs.filterMap digit?, rest) := by
  induction cs with
  | nil =>
    cases rest with
    | nil => rfl
    | cons c rest =>
      have stops : c.isDigit = false := other c rfl
      simp [leading, stops]
  | cons c cs ih =>
    have here : c.isDigit = true := digits c List.mem_cons_self
    have later := ih fun c mem => digits c (List.mem_cons_of_mem _ mem)
    simp only [leading, isSome_digit?, Prod.mk.injEq] at later
    simp [leading, here, digit?_eq_some_of_isDigit here, later]

/-- What digits write. -/
theorem foldl_filterMap (digits : ∀ c ∈ cs, c.isDigit = true) (n : Nat) :
    (cs.filterMap digit?).foldl (fun n d => n * 10 + d) n = Nat.ofDigitChars 10 cs n := by
  induction cs generalizing n with
  | nil => rfl
  | cons c cs ih =>
    have here := digit?_eq_some_of_isDigit (digits c List.mem_cons_self)
    rw [List.filterMap_cons_some here, List.foldl_cons, Nat.ofDigitChars_cons,
      ih fun c mem => digits c (List.mem_cons_of_mem _ mem), Nat.mul_comm]

/-! ### Digits of a number -/

theorem isDigit_of_mem_toDigits {n : Nat} (mem : c ∈ Nat.toDigits 10 n) : c.isDigit = true :=
  Nat.isDigit_of_mem_toDigits (by omega) (by omega) mem

theorem number_toDigits (n : Nat) : number 10 ((Nat.toDigits 10 n).filterMap digit?) = n := by
  have written := foldl_filterMap (fun _ => @isDigit_of_mem_toDigits _ n) 0
  rw [number, written, Nat.ofDigitChars_ten_toDigits]

/-- The digits of a number are split off from what follows them. -/
theorem leading_toDigits (n : Nat) (other : ∀ c ∈ rest.head?, c.isDigit = false) :
    leading (Nat.toDigits 10 n ++ rest) = ((Nat.toDigits 10 n).filterMap digit?, rest) :=
  leading_append (fun _ => isDigit_of_mem_toDigits) other

/-- Only zero is written with a zero in front. -/
theorem eq_zero_of_head? {n : Nat}
    (zero : ((Nat.toDigits 10 n).filterMap digit?).head? = some 0) : n = 0 := by
  induction n using Nat.strongRecOn with
  | ind n ih =>
    by_cases small : n < 10
    · rw [Nat.toDigits_of_lt_base small, List.filterMap_cons_some (digit?_digitChar small)] at zero
      simpa using zero
    · have shorter : ((Nat.toDigits 10 (n / 10)).filterMap digit?).head? = some 0 := by
        rw [Nat.toDigits_of_base_le (by omega) (by omega), List.filterMap_append] at zero
        cases front : (Nat.toDigits 10 (n / 10)).filterMap digit? with
        | nil =>
          have written := number_toDigits (n / 10)
          simp [front, number] at written
          omega
        | cons d ds => simpa [front] using zero
      have none_left := ih (n / 10) (by omega) shorter
      omega

end RiskRules.Digits
