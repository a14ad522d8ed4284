import RiskRules.Proofs.Listing
import RiskRules.Proofs.Workflow
import RiskRules.Ruleset.Definition

/-!
Rulesets from outside. A ruleset is lawful if it has a version, its thresholds ascend, its rules
have different ids and the registry accepts every body (`Ruleset.Lawful`). Rulesets come in by two
ways, and each way checks a part of this. A definition that is built has ascending thresholds and
accepted bodies, but its version and its ids are taken as they are; a ruleset that is read from the
tables has different ids and accepted bodies, but only the range of its version and the form of its
thresholds are looked at. `Ruleset.lawful_iff_of_entry` says exactly which of them are lawful.
-/

namespace RiskRules

/-- What every ruleset is to be: it has a version, its thresholds ascend strictly, no two of its
rules share an id, and the registry accepts the bodies of its rules. -/
structure Ruleset.Lawful (r : Registry) (ruleset : Ruleset) : Prop where
  version_pos : 1 ≤ ruleset.version
  ascending : ruleset.thresholds.Pairwise (· < ·)
  distinct : (ruleset.rules.map Rule.stableId).Nodup
  accepted : ∀ rule ∈ ruleset.rules, r.decode (.ofNode rule.body) = .ok rule.body

/-- What a registry has decoded it accepts. -/
theorem Registry.accepts_of_decode {r : Registry} {outline : Outline} {node : Node}
    (read : r.decode outline = .ok node) : r.decode (.ofNode node) = .ok node := by
  rw [ofNode_of_decode read, read]

/-! ### Definitions -/

namespace Rule.Definition

variable {r : Registry} {d : Rule.Definition} {rule : Rule}

theorem build_eq_ok_iff : d.build r = .ok rule ↔
    r.decode d.body = .ok rule.body ∧ rule.stableId = d.stableId ∧ rule.name = d.name ∧
      rule.description = d.description := by
  obtain ⟨stableId, name, description, body⟩ := rule
  rw [build, Registry.decodeIn]
  cases r.decode d.body with
  | error e => simp
  | ok node =>
    simp only [Except.ok.injEq, Rule.mk.injEq]
    constructor
    · rintro ⟨rfl, rfl, rfl, rfl⟩
      exact ⟨rfl, rfl, rfl, rfl⟩
    · rintro ⟨rfl, rfl, rfl, rfl⟩
      exact ⟨rfl, rfl, rfl, rfl⟩

end Rule.Definition

namespace Ruleset.Definition

variable {r : Registry} {d : Ruleset.Definition} {ruleset : Ruleset}

/-- A definition is built exactly if its thresholds are few and ascend and each of its rules is
built; everything else is taken from it as it is. -/
theorem build_eq_ok_iff : d.build r = .ok ruleset ↔
    (d.thresholds.length ≤ Thresholds.maxCount ∧ d.thresholds.Pairwise (· < ·)) ∧
      ∃ rules, d.rules.mapM (Rule.Definition.build r) = .ok rules ∧ ruleset =
        ⟨d.key, d.version, d.status, d.name, d.thresholds, .ofSeconds d.cooldownSeconds, rules⟩ := by
  rw [← Thresholds.check_eq_ok_iff, build]
  cases Thresholds.check d.thresholds Thresholds.maxCount with
  | error e => simp
  | ok _ =>
    cases d.rules.mapM (Rule.Definition.build r) with
    | error e => simp
    | ok rules => simp [eq_comm]

/-- A ruleset that was built is lawful exactly if its definition has a version and different ids. -/
theorem lawful_iff_of_build (built : d.build r = .ok ruleset) :
    ruleset.Lawful r ↔ 1 ≤ d.version ∧ (d.rules.map Rule.Definition.stableId).Nodup := by
  obtain ⟨⟨-, ascending⟩, rules, rules_built, rfl⟩ := build_eq_ok_iff.mp built
  have each := mapM_eq_ok_iff.mp rules_built
  have ids : rules.map Rule.stableId = d.rules.map Rule.Definition.stableId :=
    map_eq_of_forall₂ each fun _ _ here => (Rule.Definition.build_eq_ok_iff.mp here).2.1
  have accepted : ∀ rule ∈ rules, r.decode (.ofNode rule.body) = .ok rule.body := by
    intro rule mem
    obtain ⟨definition, -, here⟩ := exists_of_mem_right each mem
    exact Registry.accepts_of_decode (Rule.Definition.build_eq_ok_iff.mp here).1
  constructor
  · intro lawful
    exact ⟨lawful.version_pos, ids ▸ lawful.distinct⟩
  · rintro ⟨version_pos, distinct⟩
    exact ⟨version_pos, ascending, ids ▸ distinct, accepted⟩

end Ruleset.Definition

/-! ### Tables -/

namespace Tables

variable {r : Registry} {t : Tables} {key : PairKey} {status : RulesetStatus} {ruleset : Ruleset}

/-- No rule clashes with one before it: the table admits the rows. -/
def RulesAdmitted (t : Tables) : Prop :=
  t.rules.Pairwise fun earlier later => later.clash? [earlier] = none

/-- The rulesets that the tables give: those in a slot, those listed, and those committed. -/
inductive Loads (r : Registry) (t : Tables) (ruleset : Ruleset) : Prop where
  | draft {key : PairKey} (read : ((backend r).draft key t).1 = .ok (some ruleset))
  | committed {key : PairKey} (read : ((backend r).committed key t).1 = .ok (some ruleset))
  | listed {organization : String} {rulesets : List Ruleset}
      (read : ((backend r).list organization t).1 = .ok rulesets) (mem : ruleset ∈ rulesets)
  | promoted {key : PairKey} (ran : ((backend r).commitDraft key t).1 = .ok ruleset)

/-- Rules of a slot that do not clash have different ids. -/
theorem distinct_of_clash?_eq_none {earlier later : RuleRow}
    (free : later.clash? [earlier] = none) (earlier_here : earlier.inSlot key status.label = true)
    (later_here : later.inSlot key status.label = true) : earlier.stableId ≠ later.stableId := by
  obtain ⟨organization, entityType, label⟩ := inSlot_iff.mp earlier_here
  obtain ⟨organization', entityType', label'⟩ := inSlot_iff.mp later_here
  intro same
  simp [RuleRow.clash?, RuleRow.sameSlot, organization, organization', entityType, entityType',
    label, label', same] at free

/-- The rules of a slot have different ids. -/
theorem nodup_rulesIn (admitted : t.RulesAdmitted) :
    ((t.rulesIn key status.label).map RuleRow.stableId).Nodup := by
  rw [rulesIn, ((List.mergeSort_perm _ _).map _).nodup_iff]
  refine List.pairwise_map.mpr (List.Pairwise.imp_of_mem ?_ (admitted.filter _))
  intro earlier later earlier_mem later_mem free
  exact distinct_of_clash?_eq_none free (List.mem_filter.mp earlier_mem).2
    (List.mem_filter.mp later_mem).2

/-- A ruleset that is read from a slot has different ids and accepted bodies. -/
theorem distinct_and_accepted_of_readRuleset (admitted : t.RulesAdmitted)
    (read : readRuleset r t key status = .ok (some ruleset)) :
    (ruleset.rules.map Rule.stableId).Nodup ∧
      ∀ rule ∈ ruleset.rules, r.decode (.ofNode rule.body) = .ok rule.body := by
  obtain ⟨row, -, header⟩ := readRuleset_eq_some_iff.mp read
  simp only [readHeader, bind_eq_ok_iff, pure_eq_ok_iff] at header
  obtain ⟨_, -, _, -, _, -, rules, rules_read, rfl⟩ := header
  have each := mapM_eq_ok_iff.mp rules_read
  have ids : rules.map Rule.stableId = (t.rulesIn key status.label).map RuleRow.stableId :=
    map_eq_of_forall₂ each fun _ _ here => (readRule_eq_ok_iff.mp here).2.2.1
  refine ⟨ids ▸ nodup_rulesIn admitted, fun rule mem => ?_⟩
  obtain ⟨row, -, here⟩ := exists_of_mem_right each mem
  obtain ⟨-, ⟨outline, -, decoded⟩, -⟩ := readRule_eq_ok_iff.mp here
  exact Registry.accepts_of_decode decoded

/-- Whatever the tables give has the rules of a ruleset that is read from a slot. -/
theorem Loads.exists_slot (loads : t.Loads r ruleset) : ∃ key status read,
    readRuleset r t key status = .ok (some read) ∧ ruleset.rules = read.rules := by
  cases loads with
  | @draft key read => exact ⟨key, .draft, ruleset, reading_eq_ok_iff.mp read, rfl⟩
  | @committed key read => exact ⟨key, .committed, ruleset, reading_eq_ok_iff.mp read, rfl⟩
  | @listed organization rulesets read mem =>
    have listed : readList r t organization = .ok rulesets := reading_eq_ok_iff.mp read
    simp only [readList, bind_eq_ok_iff, pure_eq_ok_iff] at listed
    obtain ⟨slots, slots_read, rfl⟩ := listed
    obtain ⟨slot, slot_mem, rfl⟩ := List.mem_filterMap.mp mem
    obtain ⟨row, -, here⟩ := exists_of_mem_right (mapM_eq_ok_iff.mp slots_read) slot_mem
    obtain ⟨status, -, held⟩ := bind_eq_ok_iff.mp here
    exact ⟨_, status, ruleset, held, rfl⟩
  | @promoted key ran =>
    rw [commitDraft_apply] at ran
    split at ran
    · rename_i drafted read
      cases ran
      exact ⟨key, .draft, drafted, read, rfl⟩
    · cases ran
    · cases ran

/-- A ruleset that the tables give is lawful exactly if it has a version and ascending thresholds. -/
theorem lawful_iff_of_loads (admitted : t.RulesAdmitted) (loads : t.Loads r ruleset) :
    ruleset.Lawful r ↔ 1 ≤ ruleset.version ∧ ruleset.thresholds.Pairwise (· < ·) := by
  obtain ⟨key, status, read, read_eq, rules⟩ := loads.exists_slot
  obtain ⟨distinct, accepted⟩ := distinct_and_accepted_of_readRuleset admitted read_eq
  constructor
  · intro lawful
    exact ⟨lawful.version_pos, lawful.ascending⟩
  · rintro ⟨version_pos, ascending⟩
    exact ⟨version_pos, ascending, rules ▸ distinct, rules ▸ accepted⟩

/-- A draft without rules. -/
def draftWithoutRules (version : UInt32) (thresholds : List Int64) : Ruleset :=
  ⟨⟨"acme", "account"⟩, version, .draft, "first", thresholds, .ofSeconds 60, []⟩

/-- Whatever its version and its thresholds, a draft without rules is accepted and given back. -/
theorem loads_draftWithoutRules (r : Registry) (version : UInt32) (thresholds : List Int64) :
    ∃ t, (backend r).replaceDraft (draftWithoutRules version thresholds) .empty = (.ok (), t) ∧
      t.RulesAdmitted ∧ t.Loads r (draftWithoutRules version thresholds) := by
  have seconds : (60 : UInt64).toNat < 2 ^ 63 := by decide
  have bodies : draftBodies (draftWithoutRules version thresholds) = .ok [] :=
    draftBodies_eq_ok_iff.mpr ⟨rfl, seconds, rfl⟩
  have wrote : writeDraft (draftWithoutRules version thresholds) .empty
      = (.ok (), drafted .empty (draftWithoutRules version thresholds) []) :=
    writeDraft_eq_ok_iff.mpr ⟨[], bodies, Nat.zero_le _, List.nodup_nil, rfl⟩
  have accepted : (backend r).replaceDraft (draftWithoutRules version thresholds) .empty
      = (.ok (), drafted .empty (draftWithoutRules version thresholds) []) :=
    transaction_eq_ok_iff.mpr wrote
  exact ⟨_, accepted, .nil, .draft ((draft_accepted_iff accepted).mpr nofun)⟩

end Tables

/-! ### Both ways in -/

namespace Ruleset

/-- **Which rulesets from outside are lawful.** One that was built is lawful exactly if its
definition has a version and its rules have different ids; one that the tables give, whatever rows
they admit, is lawful exactly if it has a version and its thresholds ascend. -/
theorem lawful_iff_of_entry (r : Registry) :
    (∀ (d : Ruleset.Definition) (ruleset : Ruleset), d.build r = .ok ruleset →
      (ruleset.Lawful r ↔ 1 ≤ d.version ∧ (d.rules.map Rule.Definition.stableId).Nodup)) ∧
    ∀ (t : Tables) (ruleset : Ruleset), t.RulesAdmitted → t.Loads r ruleset →
      (ruleset.Lawful r ↔ 1 ≤ ruleset.version ∧ ruleset.thresholds.Pairwise (· < ·)) :=
  ⟨fun _ _ built => Definition.lawful_iff_of_build built,
    fun _ _ admitted loads => Tables.lawful_iff_of_loads admitted loads⟩

/-- A definition of a rule that stands in it so many times. -/
def sampleDefinition (version : UInt32) (count : Nat) : Definition :=
  ⟨⟨"acme", "account"⟩, version, .draft, "first", [0, 10], 60,
    .replicate count ⟨"large", "large", "", ⟨"ScoreComputation", none, [],
      [("condition", ⟨"Constant", some (.bool true), [], []⟩),
        ("modifier", ⟨"Constant", some (.int 20), [], []⟩)]⟩⟩⟩

/-- A first version of one rule, and a first draft of ascending thresholds, are lawful. -/
theorem lawful_iff_of_entry_first :
    (∃ ruleset, (sampleDefinition 1 1).build .standard = .ok ruleset ∧
      ruleset.Lawful .standard) ∧
    ∃ t : Tables, t.RulesAdmitted ∧ t.Loads .standard (Tables.draftWithoutRules 1 [0, 10]) ∧
      (Tables.draftWithoutRules 1 [0, 10]).Lawful .standard := by
  obtain ⟨of_build, of_loads⟩ := lawful_iff_of_entry .standard
  obtain ⟨t, -, admitted, loads⟩ := Tables.loads_draftWithoutRules .standard 1 [0, 10]
  refine ⟨⟨_, rfl, ?_⟩, t, admitted, loads, ?_⟩
  · exact (of_build (sampleDefinition 1 1) _ rfl).mpr ⟨by decide, List.nodup_singleton _⟩
  · exact (of_loads t _ admitted loads).mpr (by decide)

/-- Tables that have accepted a draft without rules and give it back, unlawful as it is. -/
def AcceptedUnlawful (version : UInt32) (thresholds : List Int64) : Prop :=
  ∃ t : Tables,
    (Tables.backend .standard).replaceDraft (Tables.draftWithoutRules version thresholds) .empty
      = (.ok (), t) ∧
    t.RulesAdmitted ∧ t.Loads .standard (Tables.draftWithoutRules version thresholds) ∧
    ¬(Tables.draftWithoutRules version thresholds).Lawful .standard

/-- A definition without a version, or of one rule twice, is built; a draft without a version, or of
descending thresholds, is accepted by the tables and given back. -/
theorem unlawful_entries :
    (∃ ruleset, (sampleDefinition 0 1).build .standard = .ok ruleset ∧
      ¬ruleset.Lawful .standard) ∧
    (∃ ruleset, (sampleDefinition 1 2).build .standard = .ok ruleset ∧
      ¬ruleset.Lawful .standard) ∧
    AcceptedUnlawful 0 [0, 10] ∧ AcceptedUnlawful 1 [10, 0] := by
  refine ⟨⟨_, rfl, fun lawful => ?_⟩, ⟨_, rfl, fun lawful => ?_⟩, ?_, ?_⟩
  · exact absurd lawful.version_pos (by decide)
  · exact absurd lawful.distinct (by decide)
  · obtain ⟨t, accepted, admitted, loads⟩ := Tables.loads_draftWithoutRules .standard 0 [0, 10]
    exact ⟨t, accepted, admitted, loads, fun lawful => absurd lawful.version_pos (by decide)⟩
  · obtain ⟨t, accepted, admitted, loads⟩ := Tables.loads_draftWithoutRules .standard 1 [10, 0]
    exact ⟨t, accepted, admitted, loads, fun lawful => absurd lawful.ascending (by decide)⟩

end Ruleset

end RiskRules
