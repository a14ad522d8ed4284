import RiskRules.Proofs.SlotRows
import RiskRules.Proofs.Slots
import RiskRules.Store.Memory

/-!
The order of listing. Both stores list the rulesets of an organization by kind of entity, the draft
before the committed one (`Ruleset.listedBefore`, `Tables.listedBefore`), an order in which no two
of them stand on one place. So if the slots of the tables are read as what the slots in memory hold
(`Tables.SlotsMatch`), both list the same (`Tables.SlotsMatch.readList_eq`).
-/

namespace RiskRules

/-! ### An order in two parts -/

section Order

variable {α : Type} (part : α → String) (le : α → α → Bool)

theorem two_parts_trans (le_trans : ∀ a b c, le a b = true → le b c = true → le a c = true)
    (a b c : α) (first : (decide (part a < part b) || (part a == part b && le a b)) = true)
    (second : (decide (part b < part c) || (part b == part c && le b c)) = true) :
    (decide (part a < part c) || (part a == part c && le a c)) = true := by
  simp only [Bool.or_eq_true, decide_eq_true_eq, Bool.and_eq_true, beq_iff_eq] at first second ⊢
  rcases first with first | ⟨first, le_first⟩ <;> rcases second with second | ⟨second, le_second⟩
  · exact .inl (String.lt_trans first second)
  · exact .inl (second ▸ first)
  · exact .inl (first ▸ second)
  · exact .inr ⟨first.trans second, le_trans a b c le_first le_second⟩

theorem two_parts_total (le_total : ∀ a b, (le a b || le b a) = true) (a b : α) :
    ((decide (part a < part b) || (part a == part b && le a b))
      || (decide (part b < part a) || (part b == part a && le b a))) = true := by
  have either := le_total a b
  simp only [Bool.or_eq_true, decide_eq_true_eq, Bool.and_eq_true, beq_iff_eq] at either ⊢
  by_cases below : part a < part b
  · exact .inl (.inl below)
  · by_cases above : part b < part a
    · exact .inr (.inl above)
    · have same : part a = part b :=
        String.le_antisymm (String.not_lt.mp above) (String.not_lt.mp below)
      exact either.imp (fun le_ab => .inr ⟨same, le_ab⟩) fun le_ba => .inr ⟨same.symm, le_ba⟩

end Order

namespace Ruleset

theorem listedBefore_trans (a b c : Ruleset) :
    a.listedBefore b = true → b.listedBefore c = true → a.listedBefore c = true :=
  two_parts_trans (fun r : Ruleset => r.key.entityType)
    (fun a b => a.status == .draft || b.status == .committed)
    (fun a b c => by
      cases a.status <;> cases b.status <;> cases c.status <;> decide) a b c

theorem listedBefore_total (a b : Ruleset) :
    (a.listedBefore b || b.listedBefore a) = true :=
  two_parts_total (fun r : Ruleset => r.key.entityType)
    (fun a b => a.status == .draft || b.status == .committed)
    (fun a b => by
      cases a.status <;> cases b.status <;> decide) a b

/-- Only rulesets of one kind of entity and one status are listed before each other. -/
theorem eq_of_listedBefore {a b : Ruleset} (ab : a.listedBefore b = true)
    (ba : b.listedBefore a = true) :
    a.key.entityType = b.key.entityType ∧ a.status = b.status := by
  simp only [listedBefore, Bool.or_eq_true, decide_eq_true_eq, Bool.and_eq_true, beq_iff_eq]
    at ab ba
  rcases ab with below | ⟨same, ab⟩
  · rcases ba with above | ⟨same, -⟩
    · exact absurd (String.lt_trans below above) (String.lt_irrefl _)
    · exact absurd (same ▸ below) (String.lt_irrefl _)
  · rcases ba with above | ⟨-, ba⟩
    · exact absurd (same ▸ above) (String.lt_irrefl _)
    · refine ⟨same, ?_⟩
      cases a_status : a.status <;> cases b_status : b.status <;> simp_all

end Ruleset

namespace Tables

theorem listedBefore_trans (a b c : RulesetRow) :
    listedBefore a b = true → listedBefore b c = true → listedBefore a c = true :=
  two_parts_trans RulesetRow.entityType
    (fun a b => a.status == "draft" || (b.status != "draft" && decide (a.status ≤ b.status)))
    (fun a b c => by
      simp only [Bool.or_eq_true, beq_iff_eq, Bool.and_eq_true, bne_iff_ne, decide_eq_true_eq]
      rintro (first | ⟨first, le_first⟩) (second | ⟨second, le_second⟩)
      · exact .inl first
      · exact .inl first
      · exact absurd second first
      · exact .inr ⟨second, String.le_trans le_first le_second⟩) a b c

theorem listedBefore_total (a b : RulesetRow) : (listedBefore a b || listedBefore b a) = true :=
  two_parts_total RulesetRow.entityType
    (fun a b => a.status == "draft" || (b.status != "draft" && decide (a.status ≤ b.status)))
    (fun a b => by
      simp only [Bool.or_eq_true, beq_iff_eq, Bool.and_eq_true, bne_iff_ne, decide_eq_true_eq]
      by_cases a_draft : a.status = "draft"
      · exact .inl (.inl a_draft)
      · by_cases b_draft : b.status = "draft"
        · exact .inr (.inl b_draft)
        · exact (String.le_total a.status b.status).imp (fun le => .inr ⟨b_draft, le⟩)
            fun le => .inr ⟨a_draft, le⟩) a b

/-- Headers are listed as the rulesets of their slots. -/
theorem listedBefore_eq {a b : RulesetRow} {x y : Ruleset}
    (a_slot : a.slot = (x.key, x.status.label)) (b_slot : b.slot = (y.key, y.status.label)) :
    listedBefore a b = x.listedBefore y := by
  obtain ⟨x_key, x_status⟩ := Prod.mk.inj a_slot
  obtain ⟨y_key, y_status⟩ := Prod.mk.inj b_slot
  have a_kind : a.entityType = x.key.entityType := congrArg PairKey.entityType x_key
  have b_kind : b.entityType = y.key.entityType := congrArg PairKey.entityType y_key
  have statuses : (a.status == "draft" || (b.status != "draft" && decide (a.status ≤ b.status)))
      = (x.status == .draft || y.status == .committed) := by
    rw [x_status, y_status]
    cases x.status <;> cases y.status <;> decide
  rw [listedBefore, Ruleset.listedBefore, a_kind, b_kind, statuses]

end Tables

/-! ### Slots that match -/

namespace Memory

variable {m : Memory} {organization : String} {ruleset : Ruleset}

/-- What the slot of a pair and a status holds. -/
def slot (m : Memory) (key : PairKey) : RulesetStatus → Option Ruleset
  | .draft => Slots.get? key m.drafts
  | .committed => Slots.get? key m.committed

/-- What the slot of a header holds. -/
def slotOf (m : Memory) (row : RulesetRow) : Option Ruleset :=
  match Tables.readStatus row.status with
  | .ok status => m.slot ⟨row.organization, row.entityType⟩ status
  | .error _ => none

end Memory

namespace Tables

variable {r : Registry} {t : Tables} {m : Memory} {key : PairKey} {status : RulesetStatus}
  {ruleset : Ruleset} {row : RulesetRow} {organization : String}

/-- The slots of the tables, each with one header at most, are read as what the slots in memory
hold. -/
structure SlotsMatch (r : Registry) (t : Tables) (m : Memory) : Prop where
  read : ∀ key status, readRuleset r t key status = .ok (m.slot key status)
  distinct : (t.rulesets.map RulesetRow.slot).Nodup
  labelled : ∀ row ∈ t.rulesets, ∃ status, row.status = RulesetStatus.label status
  drafts_distinct : Slots.Distinct m.drafts
  committed_distinct : Slots.Distinct m.committed

/-- The headers of an organization, in the order of listing. -/
def headersOf (t : Tables) (organization : String) : List RulesetRow :=
  (t.rulesets.filter fun row => row.organization == organization).mergeSort listedBefore

theorem mem_headersOf :
    row ∈ t.headersOf organization ↔ row ∈ t.rulesets ∧ row.organization = organization := by
  rw [headersOf, (List.mergeSort_perm _ _).mem_iff, List.mem_filter, beq_iff_eq]

@[simp] theorem readStatus_label (status : RulesetStatus) :
    readStatus status.label = .ok status := by
  cases status <;> rfl

/-- A ruleset that is read carries the pair and the status of its slot. -/
theorem slot_of_readRuleset (read : readRuleset r t key status = .ok (some ruleset)) :
    ruleset.key = key ∧ ruleset.status = status := by
  obtain ⟨row, -, header⟩ := readRuleset_eq_some_iff.mp read
  simp only [readHeader, bind_eq_ok_iff, pure_eq_ok_iff] at header
  obtain ⟨_, -, _, -, _, -, _, -, rfl⟩ := header
  exact ⟨rfl, rfl⟩

namespace SlotsMatch

variable (slots : SlotsMatch r t m)
include slots

theorem own_slot (held : m.slot key status = some ruleset) :
    ruleset.key = key ∧ ruleset.status = status :=
  slot_of_readRuleset ((slots.read key status).trans (congrArg _ held))

/-- The ruleset of a header stands in the header's slot. -/
theorem slot_of_header (mem : row ∈ t.rulesets) (held : m.slotOf row = some ruleset) :
    row.slot = (ruleset.key, ruleset.status.label) ∧
      m.slot ruleset.key ruleset.status = some ruleset := by
  obtain ⟨status, label⟩ := slots.labelled row mem
  rw [Memory.slotOf, label, readStatus_label] at held
  obtain ⟨same_key, same_status⟩ := slots.own_slot held
  rw [RulesetRow.slot, label, same_key, same_status]
  exact ⟨rfl, held⟩

/-- Every ruleset in memory has a header. -/
theorem exists_header (held : m.slot key status = some ruleset) :
    ∃ row ∈ t.rulesets, row.slot = (key, status.label) ∧ m.slotOf row = some ruleset := by
  obtain ⟨row, found, -⟩ := readRuleset_eq_some_iff.mp
    ((slots.read key status).trans (congrArg _ held))
  have inSlot := List.find?_some found
  rw [header_inSlot_eq_slot] at inSlot
  have here := of_decide_eq_true inSlot
  obtain ⟨pair, label⟩ := Prod.mk.inj here
  refine ⟨row, List.mem_of_find?_eq_some found, here, ?_⟩
  rw [Memory.slotOf, label, readStatus_label, pair]
  exact held

/-- Listing in memory gives what the slots of the organization hold. -/
theorem mem_list : ruleset ∈ m.list organization
    ↔ ruleset.key.organization = organization ∧
      m.slot ruleset.key ruleset.status = some ruleset := by
  rw [Memory.list, (List.mergeSort_perm _ _).mem_iff]
  simp only [List.mem_map, List.mem_filter, List.mem_append, beq_iff_eq]
  constructor
  · rintro ⟨⟨key, held⟩, ⟨mem, rfl⟩, rfl⟩
    have found : ∃ status, m.slot key status = some held :=
      mem.elim (fun mem => ⟨.draft, slots.drafts_distinct.get?_eq_some_iff.mpr mem⟩)
        fun mem => ⟨.committed, slots.committed_distinct.get?_eq_some_iff.mpr mem⟩
    obtain ⟨status, found⟩ := found
    obtain ⟨rfl, rfl⟩ := slots.own_slot found
    exact ⟨rfl, found⟩
  · rintro ⟨rfl, held⟩
    refine ⟨(ruleset.key, ruleset), ⟨?_, rfl⟩, rfl⟩
    cases status : ruleset.status with
    | draft =>
      rw [status] at held
      exact .inl (slots.drafts_distinct.get?_eq_some_iff.mp held)
    | committed =>
      rw [status] at held
      exact .inr (slots.committed_distinct.get?_eq_some_iff.mp held)

/-- No ruleset is listed twice. -/
theorem nodup_list : (m.list organization).Nodup := by
  have own : ∀ held ∈ m.drafts ++ m.committed, held.1 = held.2.key ∧
      (held ∈ m.drafts → held.2.status = .draft) ∧
      (held ∈ m.committed → held.2.status = .committed) := by
    rintro ⟨key, held⟩ mem
    have draft : (key, held) ∈ m.drafts → held.key = key ∧ held.status = .draft := fun mem =>
      @own_slot _ _ _ key .draft held slots (slots.drafts_distinct.get?_eq_some_iff.mpr mem)
    have committed : (key, held) ∈ m.committed → held.key = key ∧ held.status = .committed :=
      fun mem => @own_slot _ _ _ key .committed held slots
        (slots.committed_distinct.get?_eq_some_iff.mpr mem)
    refine ⟨?_, fun mem => (draft mem).2, fun mem => (committed mem).2⟩
    rcases List.mem_append.mp mem with mem | mem
    · exact (draft mem).1.symm
    · exact (committed mem).1.symm
  have apart : (m.drafts ++ m.committed).Nodup := by
    refine List.nodup_append.mpr ⟨slots.drafts_distinct.of_map, slots.committed_distinct.of_map, ?_⟩
    rintro held draft _ committed rfl
    obtain ⟨-, drafted, -⟩ := own held (List.mem_append_left _ draft)
    obtain ⟨-, -, promoted⟩ := own held (List.mem_append_right _ committed)
    have both := (drafted draft).symm.trans (promoted committed)
    cases both
  rw [Memory.list, (List.mergeSort_perm _ _).nodup_iff]
  refine (apart.sublist List.filter_sublist).map_on ?_
  intro a a_mem b b_mem same
  have a_own := (own a (List.mem_filter.mp a_mem).1).1
  have b_own := (own b (List.mem_filter.mp b_mem).1).1
  exact Prod.ext (by rw [a_own, b_own, same]) same

/-- What the tables list are the rulesets of the headers, in the order of these. -/
theorem readList_eq_filterMap :
    readList r t organization = .ok ((t.headersOf organization).filterMap m.slotOf) := by
  have each : ∀ row ∈ t.headersOf organization, (do
      let status ← readStatus row.status
      readRuleset r t ⟨organization, row.entityType⟩ status) = pure (m.slotOf row) := by
    intro row mem
    obtain ⟨mem, here⟩ := mem_headersOf.mp mem
    obtain ⟨status, label⟩ := slots.labelled row mem
    rw [label, readStatus_label, Memory.slotOf, label, readStatus_label, here]
    exact slots.read _ _
  rw [headersOf] at each
  rw [readList, mapM_congr each, List.mapM_pure, pure_bind, List.filterMap_map]
  rfl

theorem mem_listed_iff :
    ruleset ∈ (t.headersOf organization).filterMap m.slotOf ↔ ruleset ∈ m.list organization := by
  rw [slots.mem_list, List.mem_filterMap]
  constructor
  · rintro ⟨row, mem, held⟩
    obtain ⟨mem, own⟩ := mem_headersOf.mp mem
    obtain ⟨here, stored⟩ := slots.slot_of_header mem held
    exact ⟨(congrArg (fun slot => slot.1.organization) here).symm.trans own, stored⟩
  · rintro ⟨rfl, stored⟩
    obtain ⟨row, mem, here, held⟩ := slots.exists_header stored
    have own : row.organization = ruleset.key.organization :=
      congrArg (fun slot => slot.1.organization) here
    exact ⟨row, mem_headersOf.mpr ⟨mem, own⟩, held⟩

theorem nodup_listed : ((t.headersOf organization).filterMap m.slotOf).Nodup := by
  have distinct : ((t.headersOf organization).map RulesetRow.slot).Nodup :=
    ((List.mergeSort_perm _ _).map _).nodup_iff.mpr
      (slots.distinct.sublist (List.filter_sublist.map _))
  refine List.pairwise_filterMap.mpr (List.Pairwise.imp_of_mem ?_ (List.pairwise_map.mp distinct))
  rintro a b a_mem b_mem apart x x_held _ y_held rfl
  obtain ⟨a_slot, -⟩ := slots.slot_of_header (mem_headersOf.mp a_mem).1 x_held
  obtain ⟨b_slot, -⟩ := slots.slot_of_header (mem_headersOf.mp b_mem).1 y_held
  exact apart (a_slot.trans b_slot.symm)

theorem sorted_listed : ((t.headersOf organization).filterMap m.slotOf).Pairwise
    fun a b => a.listedBefore b = true := by
  refine List.pairwise_filterMap.mpr (List.Pairwise.imp_of_mem ?_
    (List.pairwise_mergeSort listedBefore_trans listedBefore_total _))
  intro a b a_mem b_mem before x x_held y y_held
  obtain ⟨a_slot, -⟩ := slots.slot_of_header (mem_headersOf.mp a_mem).1 x_held
  obtain ⟨b_slot, -⟩ := slots.slot_of_header (mem_headersOf.mp b_mem).1 y_held
  exact (listedBefore_eq a_slot b_slot).symm.trans before

/-- No two rulesets of an organization are listed before each other. -/
theorem eq_of_listed {a b : Ruleset} (a_mem : a ∈ m.list organization)
    (b_mem : b ∈ m.list organization) (ab : a.listedBefore b = true)
    (ba : b.listedBefore a = true) : a = b := by
  obtain ⟨a_own, a_stored⟩ := slots.mem_list.mp a_mem
  obtain ⟨b_own, b_stored⟩ := slots.mem_list.mp b_mem
  obtain ⟨kind, status⟩ := Ruleset.eq_of_listedBefore ab ba
  have key : a.key = b.key := by
    cases a_key : a.key
    cases b_key : b.key
    simp_all
  rw [key, status, b_stored] at a_stored
  exact (Option.some.inj a_stored).symm

/-- **Both stores list the same.** -/
theorem readList_eq : readList r t organization = .ok (m.list organization) := by
  have same : ((t.headersOf organization).filterMap m.slotOf).Perm (m.list organization) :=
    (List.perm_ext_iff_of_nodup slots.nodup_listed slots.nodup_list).mpr fun _ =>
      slots.mem_listed_iff
  have sorted : (m.list organization).Pairwise fun a b => a.listedBefore b = true :=
    List.pairwise_mergeSort Ruleset.listedBefore_trans Ruleset.listedBefore_total _
  rw [slots.readList_eq_filterMap]
  refine congrArg Except.ok (same.eq_of_pairwise ?_ slots.sorted_listed sorted)
  intro a b a_mem b_mem
  exact slots.eq_of_listed (slots.mem_listed_iff.mp a_mem) b_mem

end SlotsMatch

end Tables

end RiskRules
