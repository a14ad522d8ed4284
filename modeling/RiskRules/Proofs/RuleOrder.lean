import RiskRules.Proofs.Scoring

/-!
The order of rules. Reordering the rules of a ruleset reorders the entries of its record and leaves
the floor as it is, but the modifier is summed from left to right and each sum kept within 64 bits.
It is the exact sum in every order, and then the same in every order, exactly when the modifiers
that triggered do not leave the range in either direction or all point the same way
(`Scoring.same_in_every_order_iff`).
-/

namespace RiskRules

/-! ### Reordering related lists -/

section Lists

variable {α β : Type} {R : α → β → Prop} {as as' : List α} {bs bs' : List β}

/-- Reordering one of two lists that are related item by item reorders the other. -/
theorem exists_perm_left (all : List.Forall₂ R as bs) (perm : bs.Perm bs') :
    ∃ as', as.Perm as' ∧ List.Forall₂ R as' bs' := by
  obtain ⟨as', all, perm⟩ := List.perm_comp_forall₂ perm.symm all.flip
  exact ⟨as', perm.symm, all.flip⟩

theorem exists_perm_right (all : List.Forall₂ R as bs) (perm : as.Perm as') :
    ∃ bs', bs.Perm bs' ∧ List.Forall₂ R as' bs' := by
  obtain ⟨bs', all, perm⟩ := List.perm_comp_forall₂ perm.symm all
  exact ⟨bs', perm.symm, all⟩

/-- Every order of what a list is mapped to comes from an order of the list. -/
theorem exists_perm_map {f : α → β} (perm : (as.map f).Perm bs) :
    ∃ as', as.Perm as' ∧ as'.map f = bs := by
  obtain ⟨as', rfl, as_perm⟩ := (congrFun₂ (List.eq_map_comp_perm f) bs as).mpr perm.symm
  exact ⟨as', as_perm.symm, rfl⟩

/-- Every order of what a filter lets through comes from an order of the list. -/
theorem exists_perm_filter {p : α → Bool} (perm : (as.filter p).Perm as') :
    ∃ all, as.Perm all ∧ all.filter p = as' := by
  refine ⟨as' ++ as.filter (!p ·), ?_, ?_⟩
  · exact (List.filter_append_perm p as).symm.trans (perm.append_right _)
  · have kept : as'.filter p = as' :=
      List.filter_eq_self.mpr fun a mem => (List.mem_filter.mp (perm.mem_iff.mpr mem)).2
    simp [List.filter_append, kept, List.filter_filter]

end Lists

namespace Scoring

variable {r : Registry} {env : Environment} {ruleset : Ruleset} {record other : ScoringRecord}
  {entries entries' : List RuleScore}

/-! ### Reordering entries -/

theorem modifiers_perm (perm : entries.Perm entries') :
    (modifiers entries).Perm (modifiers entries') :=
  ((perm.map _).filter _).map _

theorem floors_perm (perm : entries.Perm entries') : (floors entries).Perm (floors entries') :=
  ((perm.map _).filter _).map _

/-- Every order of the modifiers that triggered is that of an order of the entries. -/
theorem exists_perm_modifiers {words : List Int64} (perm : (modifiers entries).Perm words) :
    ∃ entries', entries.Perm entries' ∧ modifiers entries' = words := by
  obtain ⟨scores, scores_perm, rfl⟩ := exists_perm_map perm
  obtain ⟨results, results_perm, rfl⟩ := exists_perm_filter scores_perm
  obtain ⟨entries', entries_perm, rfl⟩ := exists_perm_map results_perm
  exact ⟨entries', entries_perm, rfl⟩

/-- The greatest floor does not depend on the order. -/
theorem floor_eq_of_perm {thresholds thresholds' : List Int64} (totals : Totals thresholds record)
    (totals' : Totals thresholds' other) (perm : record.rules.Perm other.rules) :
    other.floor = record.floor := by
  have same := ((floors_perm perm).cons 0).mem_iff (a := record.floor)
  have same' := ((floors_perm perm).cons 0).mem_iff (a := other.floor)
  exact Int64.le_antisymm (totals.floor_le _ (same'.mpr totals'.floor_mem))
    (totals'.floor_le _ (same.mp totals.floor_mem))

/-! ### Reordering rules -/

/-- Rules in another order have their entries in that order. -/
theorem exists_execute_of_perm (executed : execute r env ruleset = .ok record) {rules : List Rule}
    (perm : ruleset.rules.Perm rules) : ∃ other,
      execute r env { ruleset with rules := rules } = .ok other ∧
        record.rules.Perm other.rules := by
  obtain ⟨entries, -⟩ := execute_eq_ok_iff.mp executed
  obtain ⟨reordered, entries_perm, entries⟩ := exists_perm_right entries perm
  exact ⟨total ruleset.thresholds reordered,
    execute_eq_ok_iff.mpr ⟨entries, totals_total _ _⟩, entries_perm⟩

/-- Every order of the entries is that of an order of the rules. -/
theorem exists_perm_execute (executed : execute r env ruleset = .ok record)
    (perm : record.rules.Perm entries) : ∃ rules, ruleset.rules.Perm rules ∧
      execute r env { ruleset with rules := rules } = .ok (total ruleset.thresholds entries) := by
  obtain ⟨all, -⟩ := execute_eq_ok_iff.mp executed
  obtain ⟨rules, rules_perm, reordered⟩ := exists_perm_left all perm
  exact ⟨rules, rules_perm, execute_eq_ok_iff.mpr ⟨reordered, totals_total _ _⟩⟩

/-! ### What the order decides -/

/-- **When the order of the rules does not matter.** A ruleset that can be scored can be scored with
its rules in every order, with the same entries and the same floor. Its modifier is the same in
every order exactly if the modifiers that triggered add up without leaving the range in either
direction or all point the same way, and exactly then every order has the exact sum, kept within the
range, and the same score. -/
theorem same_in_every_order_iff (executed : execute r env ruleset = .ok record) :
    (∀ rules, ruleset.rules.Perm rules → ∃ other,
      execute r env { ruleset with rules := rules } = .ok other ∧
        record.rules.Perm other.rules ∧ other.floor = record.floor) ∧
    (Signed64.OrderFree (modifiers record.rules) ↔ ∀ rules, ruleset.rules.Perm rules →
      ∀ other, execute r env { ruleset with rules := rules } = .ok other →
        other.modifier = record.modifier) ∧
    (Signed64.OrderFree (modifiers record.rules) ↔ ∀ rules, ruleset.rules.Perm rules → ∃ other,
      execute r env { ruleset with rules := rules } = .ok other ∧
        other.modifier = record.modifier ∧ other.floor = record.floor ∧
        other.score = record.score ∧
        other.modifier = Signed64.clamp (Signed64.sum (modifiers record.rules))) := by
  obtain ⟨-, totals⟩ := execute_eq_ok_iff.mp executed
  have reordered : ∀ {rules : List Rule} {other : ScoringRecord},
      execute r env { ruleset with rules := rules } = .ok other →
        Totals ruleset.thresholds other := fun given => (execute_eq_ok_iff.mp given).2
  -- every order of the modifiers is that of some order of the rules
  have free_of_same : (∀ rules, ruleset.rules.Perm rules →
      ∀ other, execute r env { ruleset with rules := rules } = .ok other →
        other.modifier = record.modifier) → Signed64.OrderFree (modifiers record.rules) := by
    intro same
    refine Signed64.orderFree_iff_same.mpr fun words perm => ?_
    obtain ⟨entries, entries_perm, rfl⟩ := exists_perm_modifiers perm
    obtain ⟨rules, rules_perm, given⟩ := exists_perm_execute executed entries_perm
    rw [← totals.modifier, ← same rules rules_perm _ given]
    exact (totals_total _ _).modifier.symm
  refine ⟨fun rules perm => ?_, ⟨fun free rules perm other given => ?_, free_of_same⟩,
    ⟨fun free rules perm => ?_, fun all => free_of_same fun rules perm other given => ?_⟩⟩
  · obtain ⟨other, given, entries_perm⟩ := exists_execute_of_perm executed perm
    exact ⟨other, given, entries_perm, floor_eq_of_perm totals (reordered given) entries_perm⟩
  · obtain ⟨_, given', entries_perm⟩ := exists_execute_of_perm executed perm
    cases given.symm.trans given'
    rw [(reordered given).modifier, totals.modifier]
    exact Signed64.orderFree_iff_same.mp free _ (modifiers_perm entries_perm)
  · obtain ⟨other, given, entries_perm⟩ := exists_execute_of_perm executed perm
    have exactly := Signed64.orderFree_iff_exact.mp free _ (modifiers_perm entries_perm)
    have modifier : other.modifier = record.modifier := by
      rw [(reordered given).modifier, totals.modifier, exactly, free.foldl_eq]
    have floor := floor_eq_of_perm totals (reordered given) entries_perm
    refine ⟨other, given, modifier, floor, ?_, (reordered given).modifier.trans exactly⟩
    rw [(reordered given).score, totals.score, modifier, floor]
  · obtain ⟨_, given', modifier, -⟩ := all rules perm
    cases given.symm.trans given'
    exact modifier

/-- A rule that always adds the same. -/
def Sample.step (name : String) (modifier : Int64) : Rule :=
  adding name (.make .constant (some (.bool true)) [] []) modifier

/-- Two losses behind a gain that reaches the end of the range leave the same in every order. -/
theorem same_in_every_order_of_two_losses :
    let ruleset := Sample.accounts 9223372036854775807
      [Sample.step "gain" 9223372036854775807, Sample.step "loss" (-5), Sample.step "cut" (-7)]
    ∀ rules, ruleset.rules.Perm rules → ∃ other,
      execute .standard Facts.empty.toEnvironment { ruleset with rules := rules } = .ok other ∧
        other.modifier = 9223372036854775795 ∧ other.score = 1 := by
  intro ruleset rules perm
  have executed : execute .standard Facts.empty.toEnvironment ruleset = .ok _ := rfl
  obtain ⟨other, given, modifier, -, score, -⟩ :=
    (same_in_every_order_iff executed).2.2.mp (.inl ⟨by decide, by decide⟩) rules perm
  exact ⟨other, given, modifier.trans (by decide), score.trans (by decide)⟩

/-- Behind a gain that reaches the end of the range a further gain is forgotten, and a loss is not,
so the order of the two decides on the modifier and on the score. -/
theorem order_of_gain_and_loss_matters : ∃ up one down record other,
    [up, one, down].Perm [up, down, one] ∧
    execute .standard Facts.empty.toEnvironment
      (Sample.accounts 9223372036854775807 [up, one, down]) = .ok record ∧
    execute .standard Facts.empty.toEnvironment
      (Sample.accounts 9223372036854775807 [up, down, one]) = .ok other ∧
    record.modifier = 9223372036854775806 ∧ record.score = 1 ∧
    other.modifier = 9223372036854775807 ∧ other.score = 2 ∧
    Signed64.clamp (Signed64.sum (modifiers record.rules)) = 9223372036854775807 := by
  refine ⟨Sample.step "up" 9223372036854775807, Sample.step "one" 1, Sample.step "down" (-1), _, _,
    .cons _ (.swap _ _ _), rfl, rfl, ?_⟩
  decide

end Scoring

end RiskRules
