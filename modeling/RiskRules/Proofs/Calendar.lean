import Mathlib.Tactic.Ring
import RiskRules.Time.Calendar

/-!
Days counted and read back. Every day lies in exactly the year that is worked out for it
(`yearOfDay_spec`), and the date read from a count is a date of the calendar with that count
(`dayNumber_ofDayNumber`).
-/

namespace RiskRules.Calendar

/-! ### Years -/

/-- The estimate of a day's year misses by one year at most. -/
theorem daysBeforeYear_guess (day : Int) :
    daysBeforeYear (day * 400 / 146097) ≤ day ∧ day < daysBeforeYear (day * 400 / 146097 + 3) := by
  simp only [daysBeforeYear]
  omega

/-- A day lies in its year. -/
theorem yearOfDay_spec (day : Int) :
    daysBeforeYear (yearOfDay day) ≤ day ∧ day < daysBeforeYear (yearOfDay day + 1) := by
  have near := daysBeforeYear_guess day
  simp only [yearOfDay]
  split
  · rename_i before
    constructor
    · simpa using near.1
    · simpa using before
  · rename_i after
    split
    · rename_i beyond
      have later : day * 400 / 146097 + 1 + 1 + 1 = day * 400 / 146097 + 3 := by omega
      exact ⟨beyond, by rw [later]; exact near.2⟩
    · rename_i below
      exact ⟨by omega, by omega⟩

/-- Years follow each other. -/
theorem daysBeforeYear_le {a b : Int} (le : a ≤ b) : daysBeforeYear a ≤ daysBeforeYear b := by
  simp only [daysBeforeYear]
  omega

/-- The months of a year fill it. -/
theorem daysBeforeYear_succ (year : Int) :
    daysBeforeYear (year + 1) = daysBeforeYear year + (monthLengths year).sum := by
  by_cases leap : isLeap year = true
  · have length : (monthLengths year).sum = 366 := by simp [monthLengths, leap]
    simp only [isLeap, Bool.and_eq_true, Bool.or_eq_true, beq_iff_eq, bne_iff_ne] at leap
    simp only [daysBeforeYear, length]
    omega
  · have length : (monthLengths year).sum = 365 := by simp [monthLengths, leap]
    simp only [isLeap, Bool.and_eq_true, Bool.or_eq_true, beq_iff_eq, bne_iff_ne] at leap
    simp only [daysBeforeYear, length]
    omega

/-! ### Months -/

/-- The month at a count of days is the one whose days begin at or before it and end after it. -/
theorem splitMonth_spec {lengths : List Nat} {rest : Nat} (inside : rest < lengths.sum)
    (first : Nat) : ∃ i length, lengths[i]? = some length ∧
      splitMonth lengths first rest = (first + i, rest - (lengths.take i).sum + 1) ∧
      (lengths.take i).sum ≤ rest ∧ rest < (lengths.take i).sum + length := by
  induction lengths generalizing rest first with
  | nil => simp at inside
  | cons length later ih =>
    rw [splitMonth]
    by_cases here : rest < length
    · exact ⟨0, length, by simp [here]⟩
    · rw [if_neg here]
      have left : rest - length < later.sum := by
        simp only [List.sum_cons] at inside
        omega
      obtain ⟨i, size, found, split, least, below⟩ := ih left (first + 1)
      refine ⟨i + 1, size, found, ?_, ?_, ?_⟩
      · rw [split]
        simp only [List.take_succ_cons, List.sum_cons, Prod.mk.injEq]
        omega
      · simp only [List.take_succ_cons, List.sum_cons]
        omega
      · simp only [List.take_succ_cons, List.sum_cons]
        omega

theorem daysInMonth_le (year : Int) (month : Nat) : daysInMonth year month ≤ 31 := by
  have lengths : ∀ length ∈ monthLengths year, length ≤ 31 := by
    rw [monthLengths]
    split <;> decide
  cases month with
  | zero => simp [daysInMonth]
  | succ m =>
    rw [daysInMonth]
    cases found : (monthLengths year)[m]? with
    | none => simp
    | some length => exact lengths length (List.mem_of_getElem? found)

/-! ### Dates -/

/-- The date read from a count is a date of the calendar, in its year, with that count. -/
theorem ofDayNumber_spec (day : Int) :
    (ofDayNumber day).year = yearOfDay day ∧ (ofDayNumber day).Valid ∧
      dayNumber (ofDayNumber day) = day := by
  obtain ⟨after, before⟩ := yearOfDay_spec day
  have fill := daysBeforeYear_succ (yearOfDay day)
  have inside : (day - daysBeforeYear (yearOfDay day)).toNat
      < (monthLengths (yearOfDay day)).sum := by
    omega
  obtain ⟨i, length, found, split, least, below⟩ := splitMonth_spec inside 1
  have twelve : i < 12 := (List.getElem?_eq_some_iff.mp found).1
  have date : ofDayNumber day = ⟨yearOfDay day, 1 + i,
      (day - daysBeforeYear (yearOfDay day)).toNat
        - ((monthLengths (yearOfDay day)).take i).sum + 1⟩ := by
    simp only [ofDayNumber, split]
  have in_month : daysInMonth (yearOfDay day) (1 + i) = length := by
    rw [Nat.add_comm, daysInMonth, found]
    rfl
  have before_month : daysBeforeMonth (yearOfDay day) (1 + i)
      = ((monthLengths (yearOfDay day)).take i).sum := by
    rw [daysBeforeMonth, List.sum_eq_foldl, Nat.add_sub_cancel_left]
  refine ⟨by rw [date], ?_, ?_⟩
  · rw [date, Date.Valid, in_month]
    refine ⟨?_, ?_, ?_, ?_⟩ <;> dsimp only <;> omega
  · rw [date, dayNumber, before_month]
    dsimp only
    omega

end RiskRules.Calendar
