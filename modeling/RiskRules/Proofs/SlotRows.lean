import RiskRules.Proofs.StoredRulesets

/-!
Rows by slot. A slot of the tables is read from its own rows alone (`Tables.readRuleset_congr`), so
a write changes what is read from a slot only if it touches rows of that slot: a draft that is
written is read from its slot and nothing else changes (`Tables.readRuleset_drafted_other`), and one
that is promoted leaves its slot (`Tables.readRuleset_promoted_draft`) and every other pair alone
(`Tables.readRuleset_promoted_other`).
-/

namespace RiskRules

/-- The pair and the status that a header belongs to. -/
def RulesetRow.slot (row : RulesetRow) : PairKey × String :=
  (⟨row.organization, row.entityType⟩, row.status)

/-- The pair and the status that a rule belongs to. -/
def RuleRow.slot (row : RuleRow) : PairKey × String :=
  (⟨row.organization, row.entityType⟩, row.status)

/-! ### Rows with a slot -/

section Rows

variable {ρ κ : Type} [DecidableEq κ] {slot : ρ → κ} {a b c d : κ} {rows new : List ρ}

/-- Rows put in the place of those of a slot are what the slot holds; others hold what they held. -/
theorem filter_replaced (own : ∀ row ∈ new, slot row = a) :
    ((rows.filter fun row => !decide (slot row = a)) ++ new).filter (fun row => slot row = b)
      = if b = a then new else rows.filter fun row => slot row = b := by
  rw [List.filter_append, List.filter_filter]
  split
  · rename_i same
    subst same
    have emptied : (rows.filter fun row => decide (slot row = b) && !decide (slot row = b)) = [] :=
      List.filter_eq_nil_iff.mpr (by simp)
    have kept : (new.filter fun row => slot row = b) = new :=
      List.filter_eq_self.mpr fun row mem => by simp [own row mem]
    rw [emptied, kept, List.nil_append]
  · rename_i other
    have none_new : (new.filter fun row => slot row = b) = [] :=
      List.filter_eq_nil_iff.mpr fun row mem => by simp [own row mem, Ne.symm other]
    have kept : (rows.filter fun row => decide (slot row = b) && !decide (slot row = a))
        = rows.filter fun row => slot row = b := by
      refine List.filter_congr fun row _ => ?_
      by_cases here : slot row = b
      · simp [here, other]
      · simp [here]
    rw [none_new, kept, List.append_nil]

/-- Rows moved from a slot to another that was emptied leave their slot, and all others alone. -/
theorem filter_moved {move : ρ → ρ} (still : ∀ row, slot row ≠ d → move row = row)
    (moved : ∀ row, slot row = d → slot (move row) = c) (other : b ≠ c) :
    (((rows.filter fun row => !decide (slot row = c)).map move).filter fun row => slot row = b)
      = if b = d then [] else rows.filter fun row => slot row = b := by
  rw [List.filter_map, List.filter_filter]
  split
  · rename_i left
    subst left
    have emptied : (rows.filter fun row => ((fun row => decide (slot row = b)) ∘ move) row
        && !decide (slot row = c)) = [] := by
      refine List.filter_eq_nil_iff.mpr fun row _ => ?_
      by_cases here : slot row = b
      · simp [moved row here, Ne.symm other]
      · simp [still row here, here]
    rw [emptied, List.map_nil]
  · rename_i elsewhere
    have kept : (rows.filter fun row => ((fun row => decide (slot row = b)) ∘ move) row
        && !decide (slot row = c)) = rows.filter fun row => slot row = b := by
      refine List.filter_congr fun row _ => ?_
      by_cases leaves : slot row = d
      · simp [moved row leaves, leaves, Ne.symm other, Ne.symm elsewhere]
      · by_cases here : slot row = b
        · simp [still row leaves, here, other]
        · simp [still row leaves, here]
    have unmoved : ∀ row ∈ rows.filter fun row => slot row = b, move row = row := by
      intro row mem
      have here : slot row = b := of_decide_eq_true (List.mem_filter.mp mem).2
      exact still row (here ▸ elsewhere)
    rw [kept, List.map_congr_left unmoved, List.map_id']

/-- Rows with slots of their own have them after one is put in the place of those of its slot. -/
theorem nodup_replaced {row : ρ} (distinct : (rows.map slot).Nodup) (own : slot row = a) :
    (((rows.filter fun row => !decide (slot row = a)) ++ [row]).map slot).Nodup := by
  rw [List.map_append, List.nodup_append]
  refine ⟨distinct.sublist (List.filter_sublist.map slot), List.nodup_singleton _, ?_⟩
  rintro s mem _ last rfl
  obtain ⟨before, before_mem, rfl⟩ := List.mem_map.mp mem
  have elsewhere := (List.mem_filter.mp before_mem).2
  have here : slot before = a := (List.mem_singleton.mp last).trans own
  simp [here] at elsewhere

/-- Rows with slots of their own have them after those of a slot are moved to one that was
emptied. -/
theorem nodup_moved {move : ρ → ρ} (still : ∀ row, slot row ≠ d → move row = row)
    (moved : ∀ row, slot row = d → slot (move row) = c) (distinct : (rows.map slot).Nodup) :
    (((rows.filter fun row => !decide (slot row = c)).map move).map slot).Nodup := by
  have slots : ∀ row, slot (move row) = if slot row = d then c else slot row := by
    intro row
    by_cases leaves : slot row = d
    · rw [if_pos leaves, moved row leaves]
    · rw [if_neg leaves, still row leaves]
  have same : ((rows.filter fun row => !decide (slot row = c)).map move).map slot
      = ((rows.filter fun row => !decide (slot row = c)).map slot).map
        fun s => if s = d then c else s := by
    simp only [List.map_map, Function.comp_def, slots]
  rw [same]
  refine (distinct.sublist (List.filter_sublist.map slot)).map_on ?_
  have emptied : ∀ s ∈ (rows.filter fun row => !decide (slot row = c)).map slot, s ≠ c := by
    intro s mem
    obtain ⟨row, row_mem, rfl⟩ := List.mem_map.mp mem
    simpa using (List.mem_filter.mp row_mem).2
  intro s s_mem u u_mem equal
  have s_other := emptied s s_mem
  have u_other := emptied u u_mem
  by_cases s_leaves : s = d
  · by_cases u_leaves : u = d
    · exact s_leaves.trans u_leaves.symm
    · rw [if_pos s_leaves, if_neg u_leaves] at equal
      exact absurd equal.symm u_other
  · by_cases u_leaves : u = d
    · rw [if_neg s_leaves, if_pos u_leaves] at equal
      exact absurd equal s_other
    · rwa [if_neg s_leaves, if_neg u_leaves] at equal

end Rows

namespace Tables

variable {r : Registry} {key other : PairKey} {status : RulesetStatus} {t t' : Tables}

/-! ### The slots of the tables -/

theorem inSlot_eq_slot (row : RuleRow) (key : PairKey) (status : String) :
    row.inSlot key status = decide (row.slot = (key, status)) := by
  obtain ⟨organization, entityType⟩ := key
  rw [Bool.eq_iff_iff, inSlot_iff]
  simp [RuleRow.slot, and_assoc]

theorem header_inSlot_eq_slot (row : RulesetRow) (key : PairKey) (status : String) :
    row.inSlot key status = decide (row.slot = (key, status)) := by
  obtain ⟨organization, entityType⟩ := key
  rw [Bool.eq_iff_iff, header_inSlot_iff]
  simp [RulesetRow.slot, and_assoc]

/-- A slot is read from its own rows. -/
theorem readRuleset_congr
    (headers : (t'.rulesets.filter fun row => row.slot = (key, status.label))
      = t.rulesets.filter fun row => row.slot = (key, status.label))
    (rules : (t'.rules.filter fun row => row.slot = (key, status.label))
      = t.rules.filter fun row => row.slot = (key, status.label)) :
    readRuleset r t' key status = readRuleset r t key status := by
  have found : t'.rulesets.find? (·.inSlot key status.label)
      = t.rulesets.find? (·.inSlot key status.label) := by
    simp only [header_inSlot_eq_slot, ← List.head?_filter, headers]
  have listed : t'.rulesIn key status.label = t.rulesIn key status.label := by
    simp only [rulesIn, inSlot_eq_slot, rules]
  simp only [readRuleset, found, readHeader, listed]

/-! ### A draft that was written -/

theorem slot_of_mem_draftRows {pairs : List (Rule × String)} {position : Nat} {row : RuleRow}
    (mem : row ∈ draftRows key position pairs) : row.slot = (key, RulesetStatus.draft.label) := by
  have own := inSlot_of_mem_draftRows mem
  rw [inSlot_eq_slot] at own
  exact of_decide_eq_true own

theorem slot_draftRow (ruleset : Ruleset) :
    (draftRow ruleset).slot = (ruleset.key, RulesetStatus.draft.label) :=
  rfl

/-- Writing a draft changes no slot but its own. -/
theorem readRuleset_drafted_other {ruleset : Ruleset} {bodies : List String}
    (elsewhere : (key, status.label) ≠ (ruleset.key, RulesetStatus.draft.label)) :
    readRuleset r (drafted t ruleset bodies) key status = readRuleset r t key status := by
  refine readRuleset_congr ?_ ?_
  · simp only [drafted, header_inSlot_eq_slot]
    rw [filter_replaced (by simp [slot_draftRow]), if_neg elsewhere]
  · simp only [drafted, inSlot_eq_slot]
    rw [filter_replaced fun row mem => slot_of_mem_draftRows mem, if_neg elsewhere]

theorem nodup_slots_drafted {ruleset : Ruleset} {bodies : List String}
    (distinct : (t.rulesets.map RulesetRow.slot).Nodup) :
    ((drafted t ruleset bodies).rulesets.map RulesetRow.slot).Nodup := by
  simp only [drafted, header_inSlot_eq_slot]
  exact nodup_replaced distinct (slot_draftRow ruleset)

/-! ### A promoted draft -/

theorem promoteHeader_of_slot_ne {row : RulesetRow}
    (elsewhere : row.slot ≠ (key, RulesetStatus.draft.label)) : promoteHeader key row = row := by
  rw [promoteHeader, header_inSlot_eq_slot, decide_eq_false elsewhere]
  rfl

theorem slot_promoteHeader {row : RulesetRow} (here : row.slot = (key, RulesetStatus.draft.label)) :
    (promoteHeader key row).slot = (key, RulesetStatus.committed.label) := by
  rw [promoteHeader, header_inSlot_eq_slot, decide_eq_true here]
  exact congrArg (fun slot => (slot.1, RulesetStatus.committed.label)) here

theorem promoteRule_of_slot_ne {row : RuleRow}
    (elsewhere : row.slot ≠ (key, RulesetStatus.draft.label)) : promoteRule key row = row := by
  rw [promoteRule, inSlot_eq_slot, decide_eq_false elsewhere]
  rfl

theorem slot_promoteRule {row : RuleRow} (here : row.slot = (key, RulesetStatus.draft.label)) :
    (promoteRule key row).slot = (key, RulesetStatus.committed.label) := by
  rw [promoteRule, inSlot_eq_slot, decide_eq_true here]
  exact congrArg (fun slot => (slot.1, RulesetStatus.committed.label)) here

/-- Promoting a draft changes no slot but those of its pair. -/
theorem readRuleset_promoted_other (elsewhere : other ≠ key) :
    readRuleset r (promoted t key) other status = readRuleset r t other status := by
  have not_committed : (other, status.label) ≠ (key, RulesetStatus.committed.label) :=
    fun same => elsewhere (Prod.mk.inj same).1
  have not_draft : (other, status.label) ≠ (key, RulesetStatus.draft.label) :=
    fun same => elsewhere (Prod.mk.inj same).1
  refine readRuleset_congr ?_ ?_
  · simp only [promoted, header_inSlot_eq_slot]
    rw [filter_moved (fun row => promoteHeader_of_slot_ne) (fun row => slot_promoteHeader)
      not_committed, if_neg not_draft]
  · simp only [promoted, inSlot_eq_slot]
    rw [filter_moved (fun row => promoteRule_of_slot_ne) (fun row => slot_promoteRule)
      not_committed, if_neg not_draft]

/-- A promoted draft is a draft no more. -/
theorem readRuleset_promoted_draft : readRuleset r (promoted t key) key .draft = .ok none := by
  have not_committed :
      (key, RulesetStatus.draft.label) ≠ (key, RulesetStatus.committed.label) := by
    simp [RulesetStatus.label]
  have emptied : ((promoted t key).rulesets.filter fun row =>
      row.slot = (key, RulesetStatus.draft.label)) = [] := by
    simp only [promoted, header_inSlot_eq_slot]
    rw [filter_moved (fun row => promoteHeader_of_slot_ne) (fun row => slot_promoteHeader)
      not_committed, if_pos rfl]
  have nothing :
      (promoted t key).rulesets.find? (·.inSlot key RulesetStatus.draft.label) = none := by
    simp only [header_inSlot_eq_slot, ← List.head?_filter, emptied, List.head?_nil]
  rw [readRuleset_of_none nothing]

theorem nodup_slots_promoted (distinct : (t.rulesets.map RulesetRow.slot).Nodup) :
    ((promoted t key).rulesets.map RulesetRow.slot).Nodup := by
  simp only [promoted, header_inSlot_eq_slot]
  exact nodup_moved (fun row => promoteHeader_of_slot_ne) (fun row => slot_promoteHeader) distinct

end Tables

end RiskRules
