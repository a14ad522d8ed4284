import RiskRules.Proofs.Signed64
import RiskRules.Proofs.Workflow
import RiskRules.Scoring

/-!
From modifiers to scores. The bucket of a modifier is found as the place of the first threshold that
exceeds it; under ascending thresholds, which are what the check of thresholds lets through, it is 1
and the number of thresholds reached (`Scoring.discretize_eq`). So it grows with the modifier
(`Scoring.discretize_mono`), and it is the same for two modifiers exactly if no threshold parts them
(`Scoring.discretize_eq_iff`).
-/

namespace RiskRules

namespace Scoring

variable {thresholds : List Int64} {modifier modifier' floor floor' : Int64} {ruleset : Ruleset}
  {most : Nat}

/-! ### Thresholds reached -/

/-- How many thresholds a modifier has reached. -/
def reached (modifier : Int64) (thresholds : List Int64) : Nat :=
  thresholds.countP fun t => decide (t ≤ modifier)

/-- Among ascending thresholds those that have been reached stand in front of the first that exceeds
the modifier. -/
theorem findIdx_eq_reached (ascending : thresholds.Pairwise (· < ·)) :
    thresholds.findIdx (fun t => decide (modifier < t)) = reached modifier thresholds := by
  induction thresholds with
  | nil => rfl
  | cons t rest ih =>
    obtain ⟨below, ascending⟩ := List.pairwise_cons.mp ascending
    rw [List.findIdx_cons, reached, List.countP_cons]
    by_cases exceeds : modifier < t
    · have none_later : rest.countP (fun u => decide (u ≤ modifier)) = 0 := by
        refine List.countP_eq_zero.mpr fun u mem reached_later => ?_
        have later := Int64.lt_of_lt_of_le (below u mem) (of_decide_eq_true reached_later)
        exact Int64.lt_irrefl (Int64.lt_trans exceeds later)
      simp [exceeds, Int64.not_le.mpr exceeds, none_later]
    · have ih := ih ascending
      rw [reached] at ih
      simp [exceeds, Int64.not_lt.mp exceeds, ih]

theorem reached_le_length (modifier : Int64) (thresholds : List Int64) :
    reached modifier thresholds ≤ thresholds.length :=
  List.countP_le_length

theorem reached_mono (le : modifier ≤ modifier') (thresholds : List Int64) :
    reached modifier thresholds ≤ reached modifier' thresholds := by
  refine List.countP_mono_left fun t _ here => ?_
  exact decide_eq_true (Int64.le_trans (of_decide_eq_true here) le)

/-- A greater modifier reaches as many thresholds exactly if none lies between the two. -/
theorem reached_eq_iff_of_le (le : modifier ≤ modifier') :
    reached modifier thresholds = reached modifier' thresholds ↔
      ∀ t ∈ thresholds, ¬(modifier < t ∧ t ≤ modifier') := by
  induction thresholds with
  | nil => simp [reached]
  | cons t rest ih =>
    have rest_le := reached_mono le rest
    rw [List.forall_mem_cons, ← ih]
    rw [reached, reached] at rest_le ⊢
    rw [List.countP_cons, List.countP_cons, reached, reached]
    by_cases exceeds : modifier < t
    · by_cases above : t ≤ modifier'
      · simp only [exceeds, above, Int64.not_le.mpr exceeds, decide_true, decide_false, and_self,
          not_true, false_and, iff_false]
        simp only [if_true, Bool.false_eq_true, if_false]
        omega
      · simp [exceeds, above, Int64.not_le.mpr exceeds]
    · have here := Int64.not_lt.mp exceeds
      simp [exceeds, here, Int64.le_trans here le]

/-- Two modifiers reach equally many thresholds exactly if none lies between them. -/
theorem reached_eq_iff : reached modifier thresholds = reached modifier' thresholds ↔
    ∀ t ∈ thresholds, ¬(min modifier modifier' < t ∧ t ≤ max modifier modifier') := by
  by_cases le : modifier ≤ modifier'
  · have low : min modifier modifier' = modifier := if_pos le
    have high : max modifier modifier' = modifier' := if_pos le
    rw [low, high, reached_eq_iff_of_le le]
  · have low : min modifier modifier' = modifier' := if_neg le
    have high : max modifier modifier' = modifier := if_neg le
    rw [low, high, eq_comm, reached_eq_iff_of_le (Int64.le_of_lt (Int64.not_le.mp le))]

/-! ### Discretization -/

/-- Under ascending thresholds the bucket of a modifier is 1 and the number of thresholds that it
has reached. -/
theorem discretize_eq (ascending : thresholds.Pairwise (· < ·)) :
    discretize modifier thresholds = Signed64.clamp (reached modifier thresholds + 1) := by
  rw [discretize, findIdx_eq_reached ascending]

theorem one_le_discretize (modifier : Int64) (thresholds : List Int64) :
    1 ≤ discretize modifier thresholds :=
  Signed64.one_le_clamp (by omega)

theorem discretize_le (modifier : Int64) (thresholds : List Int64) :
    discretize modifier thresholds ≤ Ruleset.maxScoreOf thresholds := by
  have within : thresholds.findIdx (fun t => decide (modifier < t)) ≤ thresholds.length :=
    List.findIdx_le_length
  exact Signed64.clamp_mono (by omega)

theorem discretize_mono (ascending : thresholds.Pairwise (· < ·)) (le : modifier ≤ modifier') :
    discretize modifier thresholds ≤ discretize modifier' thresholds := by
  have more := reached_mono le thresholds
  rw [discretize_eq ascending, discretize_eq ascending]
  exact Signed64.clamp_mono (by omega)

/-- Where the buckets can be counted, the bucket is exactly that. -/
theorem toInt_discretize (ascending : thresholds.Pairwise (· < ·))
    (counted : thresholds.length < 0x7FFFFFFFFFFFFFFF) :
    (discretize modifier thresholds).toInt = 1 + reached modifier thresholds := by
  have within := reached_le_length modifier thresholds
  rw [discretize_eq ascending, Signed64.toInt_clamp_of_fits]
  · omega
  · rw [Signed64.least]
    omega
  · rw [Signed64.greatest]
    omega

theorem discretize_eq_iff (ascending : thresholds.Pairwise (· < ·))
    (counted : thresholds.length < 0x7FFFFFFFFFFFFFFF) :
    discretize modifier thresholds = discretize modifier' thresholds ↔
      ∀ t ∈ thresholds, ¬(min modifier modifier' < t ∧ t ≤ max modifier modifier') := by
  rw [← reached_eq_iff, ← Int64.toInt_inj, toInt_discretize ascending counted,
    toInt_discretize ascending counted]
  omega

/-! ### Final scores -/

theorem finalScore_mono (ascending : thresholds.Pairwise (· < ·)) (le : modifier ≤ modifier')
    (floor_le : floor ≤ floor') :
    finalScore modifier floor thresholds ≤ finalScore modifier' floor' thresholds :=
  Signed64.max_le
    (Int64.le_trans (discretize_mono ascending le) (Signed64.le_max_left _ _))
    (Int64.le_trans floor_le (Signed64.le_max_right _ _))

theorem finalScore_le (modifier floor : Int64) (ruleset : Ruleset) :
    finalScore modifier floor ruleset.thresholds ≤ max ruleset.maxScore floor :=
  Signed64.max_le
    (Int64.le_trans (discretize_le modifier ruleset.thresholds) (Signed64.le_max_left _ _))
    (Signed64.le_max_right _ _)

theorem one_le_finalScore (modifier floor : Int64) (thresholds : List Int64) :
    1 ≤ finalScore modifier floor thresholds :=
  Int64.le_trans (one_le_discretize modifier thresholds) (Signed64.le_max_left _ _)

/-- **Discretization.** Thresholds pass the check exactly if there are no more than allowed and each
is below all later ones. Under such thresholds the bucket of a modifier is 1 and the number of
thresholds that it has reached. It lies between 1 and the greatest score of the ruleset, never falls
as the modifier rises, and is the same for two modifiers exactly if no threshold lies above the
lesser and not above the greater. The score is the greater of the bucket and the floor: at least 1,
never falling as either rises, and no more than the greatest score of the ruleset or the floor. That
the count is exact, and parts modifiers exactly, takes fewer than 2^63 - 1 thresholds, as many as no
memory holds. -/
theorem discretization_decided (ruleset : Ruleset) (most : Nat) :
    (Thresholds.check ruleset.thresholds most = .ok () ↔ ruleset.thresholds.length ≤ most ∧
      ∀ i j (_ : i < ruleset.thresholds.length) (_ : j < ruleset.thresholds.length),
        i < j → ruleset.thresholds[i] < ruleset.thresholds[j]) ∧
    (Thresholds.check ruleset.thresholds most = .ok () →
      (∀ modifier, discretize modifier ruleset.thresholds =
          Signed64.clamp (1 + (ruleset.thresholds.filter fun t => decide (t ≤ modifier)).length) ∧
        1 ≤ discretize modifier ruleset.thresholds ∧
        discretize modifier ruleset.thresholds ≤ ruleset.maxScore) ∧
      (∀ modifier modifier', modifier ≤ modifier' →
        discretize modifier ruleset.thresholds ≤ discretize modifier' ruleset.thresholds) ∧
      (ruleset.thresholds.length < 0x7FFFFFFFFFFFFFFF →
        (∀ modifier, (discretize modifier ruleset.thresholds).toInt =
          1 + (ruleset.thresholds.filter fun t => decide (t ≤ modifier)).length) ∧
        ∀ modifier modifier',
          discretize modifier ruleset.thresholds = discretize modifier' ruleset.thresholds ↔
            ¬∃ t ∈ ruleset.thresholds, min modifier modifier' < t ∧ t ≤ max modifier modifier') ∧
      (∀ modifier floor, finalScore modifier floor ruleset.thresholds =
          max (discretize modifier ruleset.thresholds) floor ∧
        1 ≤ finalScore modifier floor ruleset.thresholds ∧
        finalScore modifier floor ruleset.thresholds ≤ max ruleset.maxScore floor) ∧
      ∀ modifier modifier' floor floor', modifier ≤ modifier' → floor ≤ floor' →
        finalScore modifier floor ruleset.thresholds ≤
          finalScore modifier' floor' ruleset.thresholds) := by
  constructor
  · rw [Thresholds.check_eq_ok_iff, List.pairwise_iff_getElem]
  · intro checked
    have ascending := (Thresholds.check_eq_ok_iff.mp checked).2
    refine ⟨fun modifier => ⟨?_, one_le_discretize _ _, discretize_le _ _⟩,
      fun _ _ => discretize_mono ascending, fun counted => ⟨fun modifier => ?_, ?_⟩,
      fun modifier floor => ⟨rfl, one_le_finalScore _ _ _, finalScore_le _ _ _⟩,
      fun _ _ _ _ => finalScore_mono ascending⟩
    · rw [discretize_eq ascending, reached, List.countP_eq_length_filter, Int.add_comm]
    · rw [toInt_discretize ascending counted, reached, List.countP_eq_length_filter]
    · intro modifier modifier'
      rw [discretize_eq_iff ascending counted]
      simp only [not_exists, not_and]

/-- The least modifier reaches a threshold that is equal to it, the next threshold parts 9 from 10
but not 0 from 9, and a floor above the four buckets is the score. -/
theorem discretization_decided_at_least :
    let ruleset : Ruleset := ⟨⟨"acme", "account"⟩, 1, .draft, "bands",
      [-9223372036854775808, 0, 10], .ofSeconds 0, []⟩
    Thresholds.check ruleset.thresholds 3 = .ok () ∧
    (discretize (-9223372036854775808) ruleset.thresholds).toInt = 2 ∧
    discretize 0 ruleset.thresholds = discretize 9 ruleset.thresholds ∧
    discretize 9 ruleset.thresholds ≠ discretize 10 ruleset.thresholds ∧
    finalScore 9 7 ruleset.thresholds ≤ finalScore 9223372036854775807 7 ruleset.thresholds ∧
    ruleset.maxScore = 4 ∧ finalScore 9223372036854775807 7 ruleset.thresholds = 7 := by
  intro ruleset
  have checked : Thresholds.check ruleset.thresholds 3 = .ok () := rfl
  obtain ⟨-, -, exactly, scores, grows⟩ := (discretization_decided ruleset 3).2 checked
  obtain ⟨counts, parts⟩ := exactly (by decide)
  refine ⟨checked, (counts _).trans rfl, (parts 0 9).mpr (by decide), fun same => ?_,
    grows _ _ _ _ (by decide) (by decide), by decide, (scores _ _).1.trans (by decide)⟩
  exact (parts 9 10).mp same (by decide)

end Scoring

end RiskRules
