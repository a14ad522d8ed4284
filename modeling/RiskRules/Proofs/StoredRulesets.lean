import RiskRules.Proofs.OutlineText
import RiskRules.Proofs.Transactions

/-!
Rulesets in rows and back. The header of a draft is always read back, its cooldown in whole seconds
(`Tables.readHeader_draftRow`); a rule is read back if the text of its body is read as that body
(`Rule.ReadBack`), which for a body built on the registry is a matter of its brackets and its
binary64 numbers (`Rule.readBack_iff`). A draft that was written is read from its slot
(`Tables.readRuleset_drafted`), and one that was promoted is read from its new slot as it was from
the old one (`Tables.readRuleset_promoted`).
-/

namespace RiskRules

namespace Tables

variable {r : Registry} {key : PairKey} {t : Tables}

/-! ### Headers -/

theorem readVersion_ofNat (version : UInt32) :
    readVersion (Int64.ofNat version.toNat) = .ok version := by
  have small : version.toNat < 2 ^ 32 := version.toNat_lt
  have value : (Int64.ofNat version.toNat).toInt = version.toNat :=
    Int64.toInt_ofNat_of_lt (by omega)
  have in_range : 0 ≤ (Int64.ofNat version.toNat).toInt ∧
      (Int64.ofNat version.toNat).toInt < 0x100000000 := by omega
  rw [readVersion, if_pos in_range, value]
  simp

theorem readCooldown_ofNat {seconds : UInt64} (counted : seconds.toNat < 2 ^ 63) :
    readCooldown (Int64.ofNat seconds.toNat) = .ok (.ofSeconds seconds) := by
  have value : (Int64.ofNat seconds.toNat).toInt = seconds.toNat := Int64.toInt_ofNat_of_lt counted
  have positive : 0 ≤ (Int64.ofNat seconds.toNat).toInt := by omega
  rw [readCooldown, if_pos positive, value]
  simp

/-- Thresholds are read back from their text. -/
theorem readThresholds_thresholdsText (thresholds : List Int64) :
    readThresholds (thresholdsText thresholds) = .ok thresholds := by
  have each : (thresholds.map fun t : Int64 => Json.int t.toInt).mapM Json.toInt64?
      = some thresholds := by
    induction thresholds with
    | nil => rfl
    | cons t rest ih =>
      rw [List.map_cons, List.mapM_cons, Value.toInt64?_toInt, ih]
      rfl
  have items : ∀ levels, Json.throughItems levels (thresholds.map fun t => .int t.toInt)
      = some (thresholds.map fun t => .int t.toInt) := by
    intro levels
    clear each
    induction thresholds with
    | nil => rfl
    | cons t rest ih => simp [Json.throughItems_cons, ih]
  have read : Json.parse (thresholdsText thresholds)
      = some (.array (thresholds.map fun t => .int t.toInt)) := by
    rw [thresholdsText, Json.parse_compact_eq_through, Json.nestingLimit, Json.through_array, items]
    rfl
  rw [readThresholds, read, Option.bind_some, Json.toList?, each]

/-! ### Slots -/

theorem readRuleset_of_none {status : RulesetStatus}
    (found : t.rulesets.find? (·.inSlot key status.label) = none) :
    readRuleset r t key status = .ok none := by
  rw [readRuleset, found]

/-- A slot with a header is read exactly if that header is. -/
theorem readRuleset_of_header {status : RulesetStatus} {row : RulesetRow}
    (found : t.rulesets.find? (·.inSlot key status.label) = some row) :
    readRuleset r t key status = (readHeader r t key status row).map some := by
  rw [readRuleset, found]
  dsimp only
  cases readHeader r t key status row <;> rfl

/-- A ruleset is read from a slot exactly if it is read from its header. -/
theorem readRuleset_eq_some_iff {status : RulesetStatus} {ruleset : Ruleset} :
    readRuleset r t key status = .ok (some ruleset) ↔ ∃ row,
      t.rulesets.find? (·.inSlot key status.label) = some row ∧
        readHeader r t key status row = .ok ruleset := by
  cases found : t.rulesets.find? (·.inSlot key status.label) with
  | none => simp [readRuleset_of_none found]
  | some row =>
    simp only [readRuleset_of_header found, Option.some.injEq, exists_eq_left']
    cases readHeader r t key status row <;> simp [Except.map]

/-! ### Rules -/

/-- A body has a text exactly if its timestamps have and the text is not too long. -/
theorem bodyText_eq_ok_iff {rule : Rule} {text : String} : bodyText rule = .ok text
    ↔ (Outline.ofNode rule.body).toJson.readable = true ∧
      text = Json.compact (Outline.ofNode rule.body).toJson ∧
      text.utf8ByteSize ≤ TablesError.maxBodyBytes := by
  rw [bodyText]
  cases written : (Outline.ofNode rule.body).toJson.written with
  | error gap =>
    have unreadable : ¬(Outline.ofNode rule.body).toJson.readable = true := by
      intro readable
      rw [Json.written_eq_ok_iff.mpr ⟨readable, rfl⟩] at written
      cases written
    simp [unreadable]
  | ok j =>
    obtain ⟨readable, rfl⟩ := Json.written_eq_ok_iff.mp written
    by_cases long : TablesError.maxBodyBytes
        < (Json.compact (Outline.ofNode rule.body).toJson).utf8ByteSize
    · simp only [if_true, long, readable, true_and, reduceCtorEq, false_iff, not_and]
      rintro rfl
      omega
    · simp only [long, if_false, readable, true_and, Except.ok.injEq]
      constructor
      · rintro rfl
        exact ⟨rfl, by omega⟩
      · rintro ⟨rfl, -⟩
        rfl

/-- A rule is read from a row whose body is not too long and is read as that of the rule. -/
theorem readRule_eq_ok_iff {row : RuleRow} {rule : Rule} : readRule r row = .ok rule
    ↔ row.body.utf8ByteSize ≤ TablesError.maxBodyBytes ∧
      (∃ outline, (Json.parse row.body).bind Outline.ofJson? = some outline ∧
        r.decode outline = .ok rule.body) ∧
      rule.stableId = row.stableId ∧ rule.name = row.name ∧
      rule.description = row.description := by
  rw [readRule]
  split
  · rename_i long
    have short : ¬row.body.utf8ByteSize ≤ TablesError.maxBodyBytes := by omega
    simp [short]
  · rename_i short
    have short : row.body.utf8ByteSize ≤ TablesError.maxBodyBytes := by omega
    cases (Json.parse row.body).bind Outline.ofJson? with
    | none => simp
    | some outline =>
      obtain ⟨stableId, name, description, body⟩ := rule
      cases decoded : r.decode outline with
      | error e => simp [decoded]
      | ok node =>
        simp only [Except.ok.injEq, Rule.mk.injEq, short, true_and, Option.some.injEq,
          exists_eq_left', decoded]
        constructor
        · rintro ⟨rfl, rfl, rfl, rfl⟩
          exact ⟨rfl, rfl, rfl, rfl⟩
        · rintro ⟨rfl, rfl, rfl, rfl⟩
          exact ⟨rfl, rfl, rfl, rfl⟩

end Tables

/-- The text of a rule's body is there and is read, by a registry, as that body. -/
def Rule.ReadBack (r : Registry) (rule : Rule) : Prop :=
  ∃ text, Tables.bodyText rule = .ok text ∧ ∃ outline,
    (Json.parse text).bind Outline.ofJson? = some outline ∧ r.decode outline = .ok rule.body

/-- A body built on a registry and written as a text is read back exactly if its document opens no
more brackets than a text may nest and its binary64 numbers are what their texts read as. -/
theorem Rule.readBack_iff {r : Registry} {rule : Rule} {text : String}
    (built : rule.body.Built (· = r)) (written : Tables.bodyText rule = .ok text) :
    rule.ReadBack r ↔ (Outline.ofNode rule.body).toJson.nesting ≤ Json.nestingLimit ∧
      rule.body.KeptByText := by
  obtain ⟨readable, rfl, -⟩ := Tables.bodyText_eq_ok_iff.mp written
  rw [← Node.decode_parse_compact_iff built.valid built.admitted readable]
  constructor
  · rintro ⟨text, again, read⟩
    rw [written] at again
    rwa [← Except.ok.inj again] at read
  · intro read
    exact ⟨_, written, read⟩

namespace Tables

/-- A rule is read from the row that it was put into if its body is read back. -/
theorem readRule_ruleRow_iff {position : Int64} {rule : Rule} {body : String}
    (written : bodyText rule = .ok body) :
    readRule r (ruleRow key position rule body) = .ok rule ↔ rule.ReadBack r := by
  have short := (bodyText_eq_ok_iff.mp written).2.2
  rw [readRule_eq_ok_iff]
  constructor
  · rintro ⟨-, read, -⟩
    exact ⟨body, written, read⟩
  · rintro ⟨text, again, read⟩
    rw [written] at again
    cases again
    exact ⟨short, read, rfl, rfl, rfl⟩

/-! ### A draft in its rows -/

theorem inSlot_of_mem_draftRows {pairs : List (Rule × String)} {position : Nat} {row : RuleRow}
    (mem : row ∈ draftRows key position pairs) :
    row.inSlot key RulesetStatus.draft.label = true := by
  induction pairs generalizing position with
  | nil => cases mem
  | cons pair rest ih =>
    obtain ⟨rule, body⟩ := pair
    rcases List.mem_cons.mp mem with rfl | mem
    · exact inSlot_iff.mpr ⟨rfl, rfl, rfl⟩
    · exact ih mem

theorem position_of_mem_draftRows {pairs : List (Rule × String)} {position : Nat} {row : RuleRow}
    (counted : position + pairs.length ≤ 2 ^ 63) (mem : row ∈ draftRows key position pairs) :
    (position : Int) ≤ row.position.toInt := by
  induction pairs generalizing position with
  | nil => cases mem
  | cons pair rest ih =>
    obtain ⟨rule, body⟩ := pair
    rw [List.length_cons] at counted
    rcases List.mem_cons.mp mem with rfl | mem
    · have here : (Int64.ofNat position).toInt = position := Int64.toInt_ofNat_of_lt (by omega)
      simp [ruleRow, here]
    · have later := ih (by omega) mem
      omega

/-- The rows of a draft stand in the order of their positions. -/
theorem sorted_draftRows {pairs : List (Rule × String)} {position : Nat}
    (counted : position + pairs.length ≤ 2 ^ 63) :
    (draftRows key position pairs).Pairwise fun a b => decide (a.position ≤ b.position) := by
  induction pairs generalizing position with
  | nil => exact .nil
  | cons pair rest ih =>
    obtain ⟨rule, body⟩ := pair
    rw [List.length_cons] at counted
    refine List.pairwise_cons.mpr ⟨fun row mem => ?_, ih (by omega)⟩
    have here : (Int64.ofNat position).toInt = position := Int64.toInt_ofNat_of_lt (by omega)
    have later := position_of_mem_draftRows (by omega) mem
    have le : Int64.ofNat position ≤ row.position := Int64.le_iff_toInt_le.mpr (by omega)
    exact decide_eq_true le

/-- The rules of a draft that was written are its rows, in order. -/
theorem rulesIn_drafted {ruleset : Ruleset} {bodies : List String}
    (counted : ruleset.rules.length ≤ 2 ^ 63) :
    (drafted t ruleset bodies).rulesIn ruleset.key RulesetStatus.draft.label
      = draftRows ruleset.key 0 (ruleset.rules.zip bodies) := by
  have emptied : (t.rules.filter fun row =>
      !row.inSlot ruleset.key RulesetStatus.draft.label).filter
        (·.inSlot ruleset.key RulesetStatus.draft.label) = [] := by
    simp
  have kept : (draftRows ruleset.key 0 (ruleset.rules.zip bodies)).filter
      (·.inSlot ruleset.key RulesetStatus.draft.label)
        = draftRows ruleset.key 0 (ruleset.rules.zip bodies) :=
    List.filter_eq_self.mpr fun row mem => inSlot_of_mem_draftRows mem
  have short : 0 + (ruleset.rules.zip bodies).length ≤ 2 ^ 63 := by
    rw [List.length_zip]
    omega
  rw [rulesIn, drafted, List.filter_append, emptied, kept, List.nil_append]
  exact List.mergeSort_of_pairwise (sorted_draftRows short)

theorem find?_drafted {ruleset : Ruleset} {bodies : List String} :
    (drafted t ruleset bodies).rulesets.find? (·.inSlot ruleset.key RulesetStatus.draft.label)
      = some (draftRow ruleset) := by
  have own : (draftRow ruleset).inSlot ruleset.key RulesetStatus.draft.label = true :=
    header_inSlot_iff.mpr ⟨rfl, rfl, rfl⟩
  have emptied : (t.rulesets.filter fun row =>
      !row.inSlot ruleset.key RulesetStatus.draft.label).find?
        (·.inSlot ruleset.key RulesetStatus.draft.label) = none := by
    refine List.find?_eq_none.mpr fun row mem => ?_
    simpa using (List.mem_filter.mp mem).2
  rw [drafted, List.find?_append, emptied]
  simp [own]

/-- A ruleset with its cooldown cut to whole seconds. -/
def wholeSeconds (ruleset : Ruleset) : Ruleset :=
  { ruleset with cooldown := .ofSeconds ruleset.cooldown.seconds }

/-- The header of a draft is read back; what can fail are the rules. -/
theorem readHeader_draftRow {ruleset : Ruleset} (draft : ruleset.status = .draft)
    (counted : ruleset.cooldown.seconds.toNat < 2 ^ 63) :
    readHeader r t ruleset.key .draft (draftRow ruleset)
      = ((t.rulesIn ruleset.key RulesetStatus.draft.label).mapM (readRule r)).map fun rules =>
          { wholeSeconds ruleset with rules := rules } := by
  have version := readVersion_ofNat ruleset.version
  have thresholds := readThresholds_thresholdsText ruleset.thresholds
  have cooldown := readCooldown_ofNat counted
  simp only [readHeader, draftRow, version, thresholds, cooldown, bind, Except.bind]
  cases (t.rulesIn ruleset.key RulesetStatus.draft.label).mapM (readRule r) with
  | error e => rfl
  | ok rules => simp [Except.map, pure, Except.pure, wholeSeconds, draft]

/-- A draft that was written is read from its slot, its rules as they read from their rows. -/
theorem readRuleset_drafted {ruleset : Ruleset} {bodies : List String}
    (given : draftBodies ruleset = .ok bodies) (counted : ruleset.rules.length ≤ 2 ^ 63) :
    readRuleset r (drafted t ruleset bodies) ruleset.key .draft
      = ((draftRows ruleset.key 0 (ruleset.rules.zip bodies)).mapM (readRule r)).map fun rules =>
          some { wholeSeconds ruleset with rules := rules } := by
  obtain ⟨draft, seconds, -⟩ := draftBodies_eq_ok_iff.mp given
  rw [readRuleset_of_header find?_drafted, readHeader_draftRow draft seconds,
    rulesIn_drafted counted]
  cases (draftRows ruleset.key 0 (ruleset.rules.zip bodies)).mapM (readRule r) <;> rfl

theorem forall₂_draftRows {rules : List Rule} {bodies : List String}
    (written : List.Forall₂ (fun rule body => bodyText rule = .ok body) rules bodies)
    (position : Nat) : List.Forall₂ (fun row rule => readRule r row = .ok rule)
        (draftRows key position (rules.zip bodies)) rules
      ↔ ∀ rule ∈ rules, rule.ReadBack r := by
  induction written generalizing position with
  | nil => simp [draftRows]
  | cons text _ ih =>
    rw [List.zip_cons_cons, draftRows, List.forall₂_cons, readRule_ruleRow_iff text, ih,
      List.forall_mem_cons]

/-- A draft that was written is read as it was given, its cooldown in whole seconds, exactly if all
its bodies are read back. -/
theorem readRuleset_drafted_iff {ruleset : Ruleset} {bodies : List String}
    (given : draftBodies ruleset = .ok bodies) (counted : ruleset.rules.length ≤ 2 ^ 63) :
    readRuleset r (drafted t ruleset bodies) ruleset.key .draft
        = .ok (some (wholeSeconds ruleset))
      ↔ ∀ rule ∈ ruleset.rules, rule.ReadBack r := by
  have written := mapM_eq_ok_iff.mp (draftBodies_eq_ok_iff.mp given).2.2
  rw [readRuleset_drafted given counted, ← forall₂_draftRows written 0, ← mapM_eq_ok_iff]
  cases rules : (draftRows ruleset.key 0 (ruleset.rules.zip bodies)).mapM (readRule r) with
  | error e => simp [Except.map]
  | ok rules =>
    simp only [Except.map, Except.ok.injEq, Option.some.injEq]
    constructor
    · intro same
      exact congrArg Ruleset.rules same
    · rintro rfl
      rfl

/-! ### A promoted draft -/

theorem promoteHeader_inSlot (key : PairKey) (row : RulesetRow) :
    (!row.inSlot key RulesetStatus.committed.label &&
        (promoteHeader key row).inSlot key RulesetStatus.committed.label)
      = row.inSlot key RulesetStatus.draft.label := by
  have other : RulesetStatus.draft.label ≠ RulesetStatus.committed.label := by decide
  rw [Bool.eq_iff_iff, promoteHeader]
  simp only [Bool.and_eq_true, Bool.not_eq_true', Bool.eq_false_iff, ne_eq, header_inSlot_iff]
  split
  · rename_i draft
    simp [draft, other]
  · rename_i elsewhere
    simp [elsewhere]

theorem promoteRule_inSlot (key : PairKey) (row : RuleRow) :
    (!row.inSlot key RulesetStatus.committed.label &&
        (promoteRule key row).inSlot key RulesetStatus.committed.label)
      = row.inSlot key RulesetStatus.draft.label := by
  have other : RulesetStatus.draft.label ≠ RulesetStatus.committed.label := by decide
  rw [Bool.eq_iff_iff, promoteRule]
  simp only [Bool.and_eq_true, Bool.not_eq_true', Bool.eq_false_iff, ne_eq, inSlot_iff]
  split
  · rename_i draft
    simp [draft, other]
  · rename_i elsewhere
    simp [elsewhere]

@[simp] theorem promoteRule_position (key : PairKey) (row : RuleRow) :
    (promoteRule key row).position = row.position := by
  unfold promoteRule
  split <;> rfl

theorem readRule_promoteRule (r : Registry) (key : PairKey) (row : RuleRow) :
    readRule r (promoteRule key row) = readRule r row := by
  unfold promoteRule
  split <;> rfl

/-- The header in the committed slot of promoted tables is the one from the draft's slot. -/
theorem find?_promoted (t : Tables) (key : PairKey) :
    (promoted t key).rulesets.find? (·.inSlot key RulesetStatus.committed.label)
      = (t.rulesets.find? (·.inSlot key RulesetStatus.draft.label)).map (promoteHeader key) := by
  have slot : ∀ row : RulesetRow, decide ((!row.inSlot key RulesetStatus.committed.label) = true ∧
      (promoteHeader key row).inSlot key RulesetStatus.committed.label = true)
        = row.inSlot key RulesetStatus.draft.label := by
    intro row
    rw [← promoteHeader_inSlot, Bool.decide_and, Bool.decide_eq_true, Bool.decide_eq_true]
  simp only [promoted, List.find?_map, List.find?_filter, Function.comp_def, slot]

/-- The rules in the committed slot of promoted tables are those from the draft's slot. -/
theorem rulesIn_promoted (t : Tables) (key : PairKey) :
    (promoted t key).rulesIn key RulesetStatus.committed.label
      = (t.rulesIn key RulesetStatus.draft.label).map (promoteRule key) := by
  have moved : (promoted t key).rules.filter (·.inSlot key RulesetStatus.committed.label)
      = (t.rules.filter (·.inSlot key RulesetStatus.draft.label)).map (promoteRule key) := by
    simp only [promoted, List.filter_map, List.filter_filter, Function.comp_def]
    congr 2
    funext row
    rw [Bool.and_comm]
    exact promoteRule_inSlot key row
  rw [rulesIn, rulesIn, moved]
  refine (List.map_mergeSort fun a _ b _ => ?_).symm
  simp

/-- A header that is moved is read as before, but for its status. -/
theorem readHeader_promoteHeader (r : Registry) (t : Tables) (key : PairKey) (row : RulesetRow) :
    readHeader r (promoted t key) key .committed (promoteHeader key row)
      = (readHeader r t key .draft row).map fun ruleset =>
          { ruleset with status := .committed } := by
  have header : (promoteHeader key row).version = row.version ∧
      (promoteHeader key row).thresholds = row.thresholds ∧
      (promoteHeader key row).cooldown = row.cooldown ∧
      (promoteHeader key row).name = row.name := by
    unfold promoteHeader
    split <;> exact ⟨rfl, rfl, rfl, rfl⟩
  obtain ⟨version, thresholds, cooldown, name⟩ := header
  have rules : ((promoted t key).rulesIn key RulesetStatus.committed.label).mapM (readRule r)
      = (t.rulesIn key RulesetStatus.draft.label).mapM (readRule r) := by
    rw [rulesIn_promoted, List.mapM_map]
    simp only [Function.comp_def, readRule_promoteRule]
  simp only [readHeader, version, thresholds, cooldown, name, rules]
  cases readVersion row.version with
  | error e => rfl
  | ok version =>
    cases readThresholds row.thresholds with
    | error e => rfl
    | ok thresholds =>
      cases readCooldown row.cooldown with
      | error e => rfl
      | ok cooldown =>
        cases (t.rulesIn key RulesetStatus.draft.label).mapM (readRule r) <;> rfl

/-- What is read from the committed slot once a draft is promoted is what was read as the draft. -/
theorem readRuleset_promoted (r : Registry) (t : Tables) (key : PairKey) :
    readRuleset r (promoted t key) key .committed
      = (readRuleset r t key .draft).map (Option.map fun ruleset =>
          { ruleset with status := .committed }) := by
  cases found : t.rulesets.find? (·.inSlot key RulesetStatus.draft.label) with
  | none =>
    have moved := (find?_promoted t key).trans (congrArg _ found)
    rw [readRuleset_of_none moved, readRuleset_of_none found]
    rfl
  | some row =>
    have moved := (find?_promoted t key).trans (congrArg _ found)
    rw [readRuleset_of_header moved, readRuleset_of_header found, readHeader_promoteHeader]
    cases readHeader r t key .draft row <;> rfl

/-! ### Operations on drafts -/

theorem reading_apply {α : Type} (f : Tables → Except TablesError α) (t : Tables) :
    reading f t = ((f t).mapError TablesError.toStoreError, t) := by
  rw [reading, Action.restate, Action.consult]
  cases f t <;> rfl

theorem reading_keeps {α : Type} (f : Tables → Except TablesError α) : (reading f).Keeps id := by
  intro t
  rw [reading_apply]

theorem reading_eq_ok_iff {α : Type} {f : Tables → Except TablesError α} {a : α} :
    (reading f t).1 = .ok a ↔ f t = .ok a := by
  rw [reading_apply]
  cases f t <;> simp [Except.mapError]

/-- A draft takes the place of the one before, or nothing is changed. -/
theorem replaceDraft_cases (r : Registry) (ruleset : Ruleset) (t : Tables) :
    (∃ bodies, draftBodies ruleset = .ok bodies ∧ ruleset.rules.length ≤ 2 ^ 63 ∧
      (ruleset.rules.map Rule.stableId).Nodup ∧
      (backend r).replaceDraft ruleset t = (.ok (), drafted t ruleset bodies)) ∨
    ∃ e, (backend r).replaceDraft ruleset t = (.error e, t) := by
  rcases transaction_cases (writeDraft ruleset) t with ⟨_, t', wrote, ran⟩ | ⟨e, ran⟩
  · obtain ⟨bodies, given, counted, distinct, rfl⟩ := writeDraft_eq_ok_iff.mp wrote
    exact .inl ⟨bodies, given, counted, distinct, ran⟩
  · exact .inr ⟨e, ran⟩

/-- A score is added in front of those before, or nothing is changed. -/
theorem insertScore_cases (r : Registry) (score : Score) (t : Tables) :
    (∃ staleAt createdAt, score.staleAt.mapM timestampText = .ok staleAt ∧
      timestampText score.createdAt = .ok createdAt ∧ (∀ row ∈ t.scores, row.id ≠ score.id) ∧
      (backend r).insertScore score t
        = (.ok { score with isCurrent := true }, scored t score staleAt createdAt)) ∨
    ∃ e, (backend r).insertScore score t = (.error e, t) := by
  rcases transaction_cases (writeScore score) t with ⟨_, t', wrote, ran⟩ | ⟨e, ran⟩
  · obtain ⟨staleAt, createdAt, stale, created, new, rfl, rfl⟩ := writeScore_eq_ok_iff.mp wrote
    exact .inl ⟨staleAt, createdAt, stale, created, new, ran⟩
  · exact .inr ⟨e, ran⟩

/-- Promoting gives the draft as it is read, committed; a draft that cannot be read stays where it
is. -/
theorem commitDraft_apply (r : Registry) (key : PairKey) (t : Tables) :
    (backend r).commitDraft key t = match readRuleset r t key .draft with
      | .ok (some ruleset) => (.ok { ruleset with status := .committed }, promoted t key)
      | .ok none => (.error (.noDraft key), t)
      | .error e => (.error e.toStoreError, t) := by
  have ran : (backend r).commitDraft key t = transaction (promoteDraft r key) t := rfl
  have there : t.rulesets.any (·.inSlot key RulesetStatus.draft.label)
      = (t.rulesets.find? (·.inSlot key RulesetStatus.draft.label)).isSome :=
    List.isSome_find?.symm
  rw [ran, transaction, promoteDraft_apply, readRuleset_promoted, there]
  cases found : t.rulesets.find? (·.inSlot key RulesetStatus.draft.label) with
  | none =>
    rw [readRuleset_of_none found]
    rfl
  | some row =>
    rw [readRuleset_of_header found]
    cases readHeader r t key .draft row <;> rfl

/-- An accepted draft is read as it was given, its cooldown in whole seconds, exactly if all its
bodies are read back. -/
theorem draft_accepted_iff {ruleset : Ruleset} {t' : Tables}
    (accepted : (backend r).replaceDraft ruleset t = (.ok (), t')) :
    ((backend r).draft ruleset.key t').1 = .ok (some (wholeSeconds ruleset))
      ↔ ∀ rule ∈ ruleset.rules, rule.ReadBack r := by
  obtain ⟨bodies, given, counted, -, rfl⟩ := writeDraft_eq_ok_iff.mp
    (transaction_eq_ok_iff.mp accepted)
  have drafts : (backend r).draft ruleset.key
      = reading fun t => readRuleset r t ruleset.key .draft := rfl
  rw [← readRuleset_drafted_iff (t := t) given counted, drafts, reading_apply]
  cases readRuleset r (drafted t ruleset bodies) ruleset.key .draft <;> simp [Except.mapError]

/-- Committing an accepted draft gives it as it was given, committed and its cooldown in whole
seconds, exactly if all its bodies are read back. -/
theorem commit_accepted_iff {ruleset : Ruleset} {t' : Tables}
    (accepted : (backend r).replaceDraft ruleset t = (.ok (), t')) :
    ((backend r).commitDraft ruleset.key t').1
        = .ok { wholeSeconds ruleset with status := .committed }
      ↔ ∀ rule ∈ ruleset.rules, rule.ReadBack r := by
  obtain ⟨bodies, given, counted, -, rfl⟩ := writeDraft_eq_ok_iff.mp
    (transaction_eq_ok_iff.mp accepted)
  rw [← readRuleset_drafted_iff (t := t) given counted, commitDraft_apply,
    readRuleset_drafted given counted]
  cases (draftRows ruleset.key 0 (ruleset.rules.zip bodies)).mapM (readRule r) with
  | error e => simp [Except.map]
  | ok rules =>
    have same : { wholeSeconds ruleset with rules := rules } = wholeSeconds ruleset
        ↔ rules = (wholeSeconds ruleset).rules :=
      ⟨congrArg Ruleset.rules, fun same => by rw [same]⟩
    simp [Except.map, same]

end Tables

end RiskRules
