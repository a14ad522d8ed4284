import Mathlib.Data.List.Nodup
import RiskRules.Slots

/-!
Filling and emptying slots. What a slot holds depends on the last change to it alone
(`get?_put`, `get?_remove`), and where no key has two slots a slot holds exactly what stands under
its key (`Distinct.get?_eq_some_iff`). The slots of some of the keys change as if there were no
others (`within_put`, `within_remove`).
-/

namespace RiskRules.Slots

variable {α β : Type} [DecidableEq α] {key other : α} {b : β} {slots : List (α × β)}

/-! ### Changed slots -/

@[simp] theorem get?_nil : get? key ([] : List (α × β)) = none := rfl

theorem get?_remove : get? other (remove key slots) =
    if other = key then none else get? other slots := by
  induction slots with
  | nil => simp [remove]
  | cons slot rest ih =>
    obtain ⟨k, v⟩ := slot
    rw [remove] at ih ⊢
    by_cases removed : k = key
    · rw [List.filter_cons_of_neg (by simpa using removed), ih, get?]
      by_cases asked : other = key
      · simp [asked]
      · have different : k ≠ other := fun same => asked (same ▸ removed)
        simp [asked, different]
    · rw [List.filter_cons_of_pos (by simpa using removed), get?, get?, ih]
      by_cases found : k = other
      · have different : other ≠ key := found ▸ removed
        simp [found, different]
      · simp [found]

theorem get?_put : get? other (put key b slots) =
    if other = key then some b else get? other slots := by
  rw [put, get?, get?_remove]
  by_cases asked : other = key
  · simp [asked]
  · simp [asked, Ne.symm asked]

/-! ### One slot for each key -/

/-- No key has two slots. -/
def Distinct (slots : List (α × β)) : Prop :=
  (slots.map Prod.fst).Nodup

omit [DecidableEq α] in
theorem distinct_nil : Distinct ([] : List (α × β)) :=
  List.nodup_nil

theorem Distinct.remove (distinct : Distinct slots) : Distinct (remove key slots) :=
  distinct.sublist (List.filter_sublist.map Prod.fst)

theorem Distinct.put (distinct : Distinct slots) : Distinct (put key b slots) := by
  refine List.nodup_cons.mpr ⟨fun mem => ?_, distinct.remove⟩
  obtain ⟨slot, slot_mem, same⟩ := List.mem_map.mp mem
  exact of_decide_eq_true (List.mem_filter.mp slot_mem).2 same

/-- A slot holds what stands under its key. -/
theorem Distinct.get?_eq_some_iff (distinct : Distinct slots) :
    get? key slots = some b ↔ (key, b) ∈ slots := by
  induction slots with
  | nil => simp
  | cons slot rest ih =>
    obtain ⟨k, v⟩ := slot
    obtain ⟨absent, distinct⟩ := List.nodup_cons.mp distinct
    rw [get?]
    by_cases found : k = key
    · subst found
      have no_other : (k, b) ∉ rest := fun mem => absent (List.mem_map.mpr ⟨_, mem, rfl⟩)
      simp [no_other, eq_comm]
    · simp [found, Ne.symm found, ih distinct]

/-! ### The slots of some keys -/

/-- The slots of the keys that are meant. -/
def within (meant : α → Bool) (slots : List (α × β)) : List (α × β) :=
  slots.filter fun slot => meant slot.1

variable {meant : α → Bool}

theorem get?_within (inside : meant key = true) :
    get? key (within meant slots) = get? key slots := by
  induction slots with
  | nil => rfl
  | cons slot rest ih =>
    obtain ⟨k, v⟩ := slot
    rw [within] at ih ⊢
    by_cases among : meant k = true
    · rw [List.filter_cons_of_pos (by simpa using among), get?, get?, ih]
    · have different : k ≠ key := fun same => among (same ▸ inside)
      rw [List.filter_cons_of_neg (by simpa using among), ih, get?, if_neg different]

theorem within_remove : within meant (remove key slots) = remove key (within meant slots) := by
  rw [within, remove, remove, within, List.filter_comm]

theorem within_remove_outside (outside : meant key = false) :
    within meant (remove key slots) = within meant slots := by
  rw [within, remove, List.filter_filter]
  refine List.filter_congr fun slot _ => ?_
  by_cases same : slot.1 = key
  · simp [same, outside]
  · simp [same]

theorem within_put (inside : meant key = true) :
    within meant (put key b slots) = put key b (within meant slots) := by
  rw [put, put, ← within_remove, within, List.filter_cons_of_pos (by simpa using inside)]
  rfl

theorem within_put_outside (outside : meant key = false) :
    within meant (put key b slots) = within meant slots := by
  rw [put, within, List.filter_cons_of_neg (by simpa using outside)]
  exact within_remove_outside outside

end RiskRules.Slots
