import RiskRules.Proofs.Calls
import RiskRules.Proofs.Results
import RiskRules.Store.Tables

/-!
Index states in rows. Marking an index changes the state of that index alone, in the tables
(`Tables.readIndex_markPending`, `Tables.readIndex_markReady`) as in memory, and in the same way; so
states that are the same in both stay the same (`Tables.IndexesMatch.markPending`,
`Tables.IndexesMatch.markReady`).
-/

namespace RiskRules

/-! ### States in memory -/

namespace Memory

variable {m : Memory} {organization owner : String} {i j : IndexSpec}

theorem indexState_markReady : (markReady organization m i).indexState owner j
    = if (owner, j) = (organization, i) then .ready else m.indexState owner j := by
  rw [indexState, markReady, Slots.get?_put]
  split <;> rfl

theorem indexState_markPending : (markPending organization m i).indexState owner j
    = if (owner, j) = (organization, i) ∧ m.indexState owner j = .missing then .pending
      else m.indexState owner j := by
  rw [markPending]
  by_cases missing : m.indexState organization i = .missing
  · rw [if_pos missing, indexState, Slots.get?_put]
    by_cases asked : (owner, j) = (organization, i)
    · obtain ⟨rfl, rfl⟩ := Prod.mk.inj asked
      simp [missing]
    · simp [asked, indexState]
  · rw [if_neg missing]
    by_cases asked : (owner, j) = (organization, i)
    · obtain ⟨rfl, rfl⟩ := Prod.mk.inj asked
      simp [missing]
    · simp [asked]

end Memory

namespace Tables

variable {t : Tables} {m : Memory} {organization owner : String} {i j : IndexSpec}

/-! ### States in rows -/

theorem isOf_iff {row : IndexRow} : IndexRow.isOf row organization i = true
    ↔ row.organization = organization ∧ row.table = i.table ∧ row.field = i.field := by
  simp [IndexRow.isOf, and_assoc]

/-- A row is of one index. -/
theorem isOf_of_ne {row : IndexRow} (here : IndexRow.isOf row owner j = true)
    (elsewhere : (owner, j) ≠ (organization, i)) : IndexRow.isOf row organization i = false := by
  refine Bool.eq_false_iff.mpr fun both => elsewhere ?_
  obtain ⟨rfl, table, field⟩ := isOf_iff.mp here
  obtain ⟨rfl, table', field'⟩ := isOf_iff.mp both
  cases i
  cases j
  simp_all

/-- An index is missing exactly if it has no row. -/
theorem readIndex_eq_missing_iff : t.readIndex organization i = .ok .missing
    ↔ t.indexes.find? (IndexRow.isOf · organization i) = none := by
  rw [readIndex]
  cases t.indexes.find? (IndexRow.isOf · organization i) with
  | none => simp
  | some row =>
    simp only [reduceCtorEq, iff_false]
    split
    · simp
    · split <;> simp

/-- What is read for an index depends on its first row alone. -/
theorem readIndex_congr {t' : Tables} (same : t'.indexes.find? (IndexRow.isOf · owner j)
    = t.indexes.find? (IndexRow.isOf · owner j)) : t'.readIndex owner j = t.readIndex owner j := by
  rw [readIndex, readIndex, same]

theorem readIndex_of_row (row : IndexRow) {state : IndexState} (asked : state ≠ .missing)
    (found : t.indexes.find? (IndexRow.isOf · owner j) = some row)
    (labelled : row.state = state.label) : t.readIndex owner j = .ok state := by
  rw [readIndex, found]
  dsimp only
  rw [labelled]
  cases state with
  | ready => rfl
  | pending => rfl
  | missing => exact absurd rfl asked

/-- A row added for an index without rows is read for that index and for no other. -/
theorem readIndex_added {state : IndexState} (asked : state ≠ .missing)
    (missing : t.indexes.find? (IndexRow.isOf · organization i) = none) :
    readIndex { t with
        indexes := t.indexes ++ [⟨organization, i.table, i.field, state.label⟩] } owner j
      = if (owner, j) = (organization, i) then .ok state else t.readIndex owner j := by
  by_cases own : (owner, j) = (organization, i)
  · obtain ⟨rfl, rfl⟩ := Prod.mk.inj own
    rw [if_pos rfl]
    have own_row : IndexRow.isOf ⟨owner, j.table, j.field, state.label⟩ owner j = true :=
      isOf_iff.mpr ⟨rfl, rfl, rfl⟩
    refine readIndex_of_row ⟨owner, j.table, j.field, state.label⟩ asked ?_ rfl
    rw [List.find?_append, missing, List.find?_singleton, own_row]
    rfl
  · rw [if_neg own]
    refine readIndex_congr ?_
    have not_new : IndexRow.isOf ⟨organization, i.table, i.field, state.label⟩ owner j = false :=
      isOf_of_ne (isOf_iff.mpr ⟨rfl, rfl, rfl⟩) (Ne.symm own)
    simp [List.find?_append, not_new]

theorem any_isOf : (t.indexes.any (IndexRow.isOf · organization i))
    = (t.indexes.find? (IndexRow.isOf · organization i)).isSome :=
  List.isSome_find?.symm

theorem readIndex_markPending : (markPending organization t i).readIndex owner j
    = if (owner, j) = (organization, i) ∧ t.readIndex owner j = .ok .missing then .ok .pending
      else t.readIndex owner j := by
  rw [markPending, any_isOf]
  cases found : t.indexes.find? (IndexRow.isOf · organization i) with
  | none =>
    rw [Option.isSome_none, if_neg (by simp), readIndex_added (by simp) found]
    by_cases own : (owner, j) = (organization, i)
    · obtain ⟨rfl, rfl⟩ := Prod.mk.inj own
      simp [readIndex_eq_missing_iff.mpr found]
    · simp [own]
  | some row =>
    rw [Option.isSome_some, if_pos rfl, if_neg]
    rintro ⟨own, missing⟩
    obtain ⟨rfl, rfl⟩ := Prod.mk.inj own
    rw [readIndex_eq_missing_iff, found] at missing
    cases missing

/-- A row of an index that is made ready. -/
theorem find?_readied : (t.indexes.map fun row =>
      if IndexRow.isOf row organization i then { row with state := IndexState.ready.label }
      else row).find? (IndexRow.isOf · owner j)
    = (t.indexes.find? (IndexRow.isOf · owner j)).map fun row =>
        if IndexRow.isOf row organization i then { row with state := IndexState.ready.label }
        else row := by
  have kept : ((IndexRow.isOf · owner j) ∘ fun row : IndexRow =>
      if IndexRow.isOf row organization i then { row with state := IndexState.ready.label }
      else row) = (IndexRow.isOf · owner j) := by
    funext row
    simp only [Function.comp_apply]
    split <;> rfl
  rw [List.find?_map, kept]

theorem readIndex_markReady : (markReady organization t i).readIndex owner j
    = if (owner, j) = (organization, i) then .ok .ready else t.readIndex owner j := by
  rw [markReady, any_isOf]
  cases found : t.indexes.find? (IndexRow.isOf · organization i) with
  | none => rw [Option.isSome_none, if_neg (by simp), readIndex_added (by simp) found]
  | some row =>
    rw [Option.isSome_some, if_pos rfl]
    by_cases own : (owner, j) = (organization, i)
    · obtain ⟨rfl, rfl⟩ := Prod.mk.inj own
      rw [if_pos rfl]
      have here := List.find?_some found
      refine readIndex_of_row { row with state := IndexState.ready.label } (by simp) ?_ rfl
      rw [find?_readied, found, Option.map_some, if_pos here]
    · rw [if_neg own]
      refine readIndex_congr ?_
      rw [find?_readied]
      cases other : t.indexes.find? (IndexRow.isOf · owner j) with
      | none => rfl
      | some row =>
        have here : IndexRow.isOf row owner j = true :=
          List.find?_some (p := (IndexRow.isOf · owner j)) other
        simp [isOf_of_ne here own]

/-- Marking an index as pending changes index states alone. -/
theorem markPending_eq (organization : String) (t : Tables) (i : IndexSpec) :
    markPending organization t i
      = { t with indexes := (markPending organization t i).indexes } := by
  unfold markPending
  split <;> rfl

/-- Marking an index as ready changes index states alone. -/
theorem markReady_eq (organization : String) (t : Tables) (i : IndexSpec) :
    markReady organization t i = { t with indexes := (markReady organization t i).indexes } := by
  unfold markReady
  split <;> rfl

/-! ### Both stores -/

/-- Every index is read as its state in memory. -/
def IndexesMatch (t : Tables) (m : Memory) : Prop :=
  ∀ organization i, t.readIndex organization i = .ok (m.indexState organization i)

namespace IndexesMatch

theorem markPending (states : IndexesMatch t m) (organization : String) (i : IndexSpec) :
    IndexesMatch (markPending organization t i) (Memory.markPending organization m i) := by
  intro owner j
  rw [readIndex_markPending, Memory.indexState_markPending]
  simp only [states owner j, Except.ok.injEq]
  split <;> rfl

theorem markReady (states : IndexesMatch t m) (organization : String) (i : IndexSpec) :
    IndexesMatch (markReady organization t i) (Memory.markReady organization m i) := by
  intro owner j
  rw [readIndex_markReady, Memory.indexState_markReady, states owner j]
  split <;> rfl

/-- The states of indexes are read as those in memory. -/
theorem mapM_readIndex (states : IndexesMatch t m) (organization : String)
    (indexes : List IndexSpec) : indexes.mapM (t.readIndex organization)
      = .ok (indexes.map (m.indexState organization)) := by
  rw [mapM_congr fun i _ => states organization i]
  exact List.mapM_pure

end IndexesMatch

end Tables

end RiskRules
