import RiskRules.Proofs.ReadYourWrites
import RiskRules.Proofs.StoreRuns
import RiskRules.Proofs.StoredIndexes

/-!
Writes of the tables that fail. A write is refused for reasons that can be told from the tables
before it (`Tables.Refused`): a draft that cannot be put into rows or repeats an id, a missing draft
or one with a body that cannot be decoded, a score with a timestamp without text or with an id that
is taken. On tables that operations have led to there are no others, since the headers of their
rulesets can all be read (`Tables.headersRead_of_reachable`), and a refused write leaves no trace
(`Tables.failed_write_leaves_no_trace`), although its statements may have removed, moved or demoted
rows by then.
-/

namespace RiskRules.Tables

variable {r : Registry} {t : Tables}

/-! ### Reachable tables -/

/-- Tables that operations have led to from empty ones, under registries that may change. -/
inductive Reachable : Tables → Prop where
  | empty : Reachable .empty
  | after {t : Tables} (r : Registry) (op : StoreOp) (reached : Reachable t) :
      Reachable (op.run (backend r) t).2

/-- The headers of all rulesets can be read. -/
def HeadersRead (t : Tables) : Prop :=
  ∀ row ∈ t.rulesets, (∃ version, readVersion row.version = .ok version) ∧
    (∃ thresholds, readThresholds row.thresholds = .ok thresholds) ∧
    ∃ cooldown, readCooldown row.cooldown = .ok cooldown

theorem headersRead_drafted {ruleset : Ruleset} {bodies : List String}
    (given : draftBodies ruleset = .ok bodies) (read : t.HeadersRead) :
    (drafted t ruleset bodies).HeadersRead := by
  obtain ⟨-, seconds, -⟩ := draftBodies_eq_ok_iff.mp given
  intro row mem
  rcases List.mem_append.mp mem with mem | mem
  · exact read row (List.mem_filter.mp mem).1
  · obtain rfl := List.mem_singleton.mp mem
    exact ⟨⟨_, readVersion_ofNat _⟩, ⟨_, readThresholds_thresholdsText _⟩, _,
      readCooldown_ofNat seconds⟩

theorem headersRead_promoted {key : PairKey} (read : t.HeadersRead) :
    (promoted t key).HeadersRead := by
  intro row mem
  obtain ⟨before, before_mem, rfl⟩ := List.mem_map.mp mem
  have kept := read before (List.mem_filter.mp before_mem).1
  unfold promoteHeader
  split <;> exact kept

/-- Tables with the headers of others have headers that can be read if those have. -/
theorem HeadersRead.of_eq {t' : Tables} (read : t.HeadersRead) (same : t'.rulesets = t.rulesets) :
    t'.HeadersRead := by
  intro row mem
  exact read row (same ▸ mem)

/-- The step: an operation leaves headers that can be read. -/
theorem headersRead_after (read : t.HeadersRead) (op : StoreOp) :
    (op.run (backend r) t).2.HeadersRead := by
  cases op <;> rw [StoreOp.run, Action.map_apply]
  case replaceDraft ruleset =>
    rcases replaceDraft_cases r ruleset t with ⟨bodies, given, -, -, ran⟩ | ⟨e, ran⟩ <;> rw [ran]
    · exact headersRead_drafted given read
    · exact read
  case commitDraft key =>
    rw [commitDraft_apply]
    split
    · exact headersRead_promoted read
    · exact read
    · exact read
  case insertScore score =>
    rcases insertScore_cases r score t with
      ⟨staleAt, createdAt, -, -, -, ran⟩ | ⟨e, ran⟩ <;> rw [ran]
    · exact read
    · exact read
  case markPending organization indexes =>
    refine List.foldlRecOn indexes _ read fun t read index _ => ?_
    have same := congrArg Tables.rulesets (markPending_eq organization t index)
    exact read.of_eq same
  case markReady organization indexes =>
    refine List.foldlRecOn indexes _ read fun t read index _ => ?_
    have same := congrArg Tables.rulesets (markReady_eq organization t index)
    exact read.of_eq same
  -- What is left reads.
  all_goals exact read.of_eq (congrArg Tables.rulesets (reading_keeps _ t))

theorem headersRead_of_reachable (reached : t.Reachable) : t.HeadersRead := by
  induction reached with
  | empty => simp [HeadersRead, empty]
  | after r op _ read => exact headersRead_after read op

/-! ### Refusals -/

/-- Why tables opened with a registry refuse a write: what is to be written has no rows, an id would
occur twice, or there is no draft that can be read. -/
def Refused (r : Registry) (t : Tables) : StoreOp → Prop
  | .replaceDraft ruleset =>
    ruleset.status ≠ .draft ∨ 2 ^ 63 ≤ ruleset.cooldown.seconds.toNat ∨
      (∃ rule ∈ ruleset.rules, ∃ e, bodyText rule = .error e) ∨
      2 ^ 63 < ruleset.rules.length ∨ ¬(ruleset.rules.map Rule.stableId).Nodup
  | .commitDraft key =>
    (∀ row ∈ t.rulesets, row.inSlot key RulesetStatus.draft.label = false) ∨
      ∃ row ∈ t.rules, row.inSlot key RulesetStatus.draft.label = true ∧
        ∃ e, readRule r row = .error e
  | .insertScore score =>
    (∃ moment, (moment = score.createdAt ∨ moment ∈ score.staleAt) ∧
        ∃ e, Rfc3339.render moment = .error e) ∨
      ∃ row ∈ t.scores, row.id = score.id
  | _ => False

/-- A draft is accepted exactly if there is no reason to refuse it. -/
theorem replaceDraft_fails_iff {ruleset : Ruleset} :
    (∃ e, ((backend r).replaceDraft ruleset t).1 = .error e)
      ↔ Refused r t (.replaceDraft ruleset) := by
  have accepted : (∃ u t', (backend r).replaceDraft ruleset t = (.ok u, t')) ↔
      (∃ bodies, draftBodies ruleset = .ok bodies) ∧ ruleset.rules.length ≤ 2 ^ 63 ∧
        (ruleset.rules.map Rule.stableId).Nodup := by
    constructor
    · rintro ⟨_, t', ran⟩
      obtain ⟨bodies, given, counted, distinct, -⟩ :=
        writeDraft_eq_ok_iff.mp (transaction_eq_ok_iff.mp ran)
      exact ⟨⟨bodies, given⟩, counted, distinct⟩
    · rintro ⟨⟨bodies, given⟩, counted, distinct⟩
      exact ⟨(), _, transaction_eq_ok_iff.mpr
        (writeDraft_eq_ok_iff.mpr ⟨bodies, given, counted, distinct, rfl⟩)⟩
  rw [Action.exists_error_iff, accepted, exists_draftBodies_iff, Refused]
  simp only [Classical.not_and_iff_not_or_not, not_forall, not_ok_iff, not_lt, not_le, exists_prop,
    or_assoc, ne_eq]

theorem mem_rulesIn {key : PairKey} {status : String} {row : RuleRow} :
    row ∈ t.rulesIn key status ↔ row ∈ t.rules ∧ row.inSlot key status = true := by
  rw [rulesIn, (List.mergeSort_perm _ _).mem_iff, List.mem_filter]

/-- A ruleset with a header that can be read is read exactly if all of its rules are. -/
theorem exists_readHeader_iff {key : PairKey} {status : RulesetStatus} {row : RulesetRow}
    (read : t.HeadersRead) (mem : row ∈ t.rulesets) :
    (∃ ruleset, readHeader r t key status row = .ok ruleset)
      ↔ ∀ rule ∈ t.rulesIn key status.label, ∃ found, readRule r rule = .ok found := by
  obtain ⟨⟨version, version_read⟩, ⟨thresholds, thresholds_read⟩, cooldown, cooldown_read⟩ :=
    read row mem
  rw [← exists_mapM_eq_ok_iff]
  simp only [readHeader, version_read, thresholds_read, cooldown_read, bind_eq_ok_iff,
    pure_eq_ok_iff, Except.ok.injEq, exists_eq_left']
  constructor
  · rintro ⟨_, rules, rules_read, rfl⟩
    exact ⟨rules, rules_read⟩
  · rintro ⟨rules, rules_read⟩
    exact ⟨_, rules, rules_read, rfl⟩

/-- A draft is committed exactly if it is there and all of its bodies can be decoded. -/
theorem commitDraft_fails_iff {key : PairKey} (read : t.HeadersRead) :
    (∃ e, ((backend r).commitDraft key t).1 = .error e) ↔ Refused r t (.commitDraft key) := by
  have unread : (∃ e, ((backend r).commitDraft key t).1 = .error e)
      ↔ ¬∃ ruleset, readRuleset r t key .draft = .ok (some ruleset) := by
    rw [commitDraft_apply]
    cases readRuleset r t key .draft with
    | error e => simp
    | ok found => cases found <;> simp
  rw [unread, Refused]
  cases found : t.rulesets.find? (·.inSlot key RulesetStatus.draft.label) with
  | none =>
    have no_draft : ∀ row ∈ t.rulesets, row.inSlot key RulesetStatus.draft.label = false := by
      simpa using List.find?_eq_none.mp found
    rw [readRuleset_of_none found]
    simpa using Or.inl no_draft
  | some row =>
    have mem := List.mem_of_find?_eq_some found
    have held : ¬∀ row ∈ t.rulesets, row.inSlot key RulesetStatus.draft.label = false :=
      fun no_draft => absurd (List.find?_some found) (by simp [no_draft row mem])
    have rules := @exists_readHeader_iff r t key .draft row read mem
    have given : (∃ ruleset, readRuleset r t key .draft = .ok (some ruleset))
        ↔ ∃ ruleset, readHeader r t key .draft row = .ok ruleset := by
      simp only [readRuleset_eq_some_iff, found, Option.some.injEq,
        exists_eq_left']
    rw [or_iff_right held, given, rules]
    simp only [mem_rulesIn, not_forall, not_ok_iff, exists_prop, and_assoc]

theorem timestampText_fails_iff {moment : Timestamp} :
    (∃ e, timestampText moment = .error e) ↔ ∃ e, Rfc3339.render moment = .error e := by
  rw [timestampText_eq]
  cases Rfc3339.render moment with
  | ok text => simp [Except.mapError]
  | error e => exact ⟨fun _ => ⟨e, rfl⟩, fun _ => ⟨_, rfl⟩⟩

/-- A score is added exactly if its timestamps have texts and its id is not taken. -/
theorem insertScore_fails_iff {score : Score} :
    (∃ e, ((backend r).insertScore score t).1 = .error e) ↔ Refused r t (.insertScore score) := by
  have accepted : (∃ stored t', (backend r).insertScore score t = (.ok stored, t')) ↔
      (∃ text, score.staleAt.mapM timestampText = .ok text) ∧
        (∃ text, timestampText score.createdAt = .ok text) ∧
        ∀ row ∈ t.scores, row.id ≠ score.id := by
    constructor
    · rintro ⟨_, t', ran⟩
      obtain ⟨staleAt, createdAt, stale, created, new, -, -⟩ :=
        writeScore_eq_ok_iff.mp (transaction_eq_ok_iff.mp ran)
      exact ⟨⟨staleAt, stale⟩, ⟨createdAt, created⟩, new⟩
    · rintro ⟨⟨staleAt, stale⟩, ⟨createdAt, created⟩, new⟩
      exact ⟨_, _, transaction_eq_ok_iff.mpr
        (writeScore_eq_ok_iff.mpr ⟨staleAt, createdAt, stale, created, new, rfl, rfl⟩)⟩
  rw [Action.exists_error_iff, accepted, exists_option_mapM_eq_ok_iff, Refused]
  simp only [Classical.not_and_iff_not_or_not, not_forall, not_ok_iff, timestampText_fails_iff]
  constructor
  · rintro (⟨moment, mem, failed⟩ | failed | ⟨row, mem, taken⟩)
    · exact .inl ⟨moment, .inr mem, failed⟩
    · exact .inl ⟨_, .inl rfl, failed⟩
    · exact .inr ⟨row, mem, not_not.mp taken⟩
  · rintro (⟨moment, rfl | mem, failed⟩ | ⟨row, mem, taken⟩)
    · exact .inr (.inl failed)
    · exact .inl ⟨moment, mem, failed⟩
    · exact .inr (.inr ⟨row, mem, not_not.mpr taken⟩)

/-! ### No trace -/

/-- Writes that fail leave the tables as they were. -/
theorem run_atomic {op : StoreOp} (write : op.IsWrite) : (op.run (backend r)).Atomic id := by
  cases op
  case replaceDraft ruleset => exact (transaction_atomic (writeDraft ruleset)).map _
  case commitDraft key => exact (transaction_atomic (promoteDraft r key)).map _
  case insertScore score => exact (transaction_atomic (writeScore score)).map _
  all_goals exact absurd write id

/-- Writes fail for the reasons to refuse them and no others. -/
theorem run_fails_iff {op : StoreOp} (read : t.HeadersRead) (write : op.IsWrite) :
    (∃ e, (op.run (backend r) t).1 = .error e) ↔ Refused r t op := by
  cases op
  case replaceDraft ruleset => exact Action.map_fails_iff.trans replaceDraft_fails_iff
  case commitDraft key => exact Action.map_fails_iff.trans (commitDraft_fails_iff read)
  case insertScore score => exact Action.map_fails_iff.trans insertScore_fails_iff
  all_goals exact absurd write id

/-- **A failed write leaves no trace.** On tables that operations have led to, a draft, a commit or
a score fails exactly if it is refused, whatever its statements have changed by then, and if it
fails all later operations, under any registry, answer as they would have before it. -/
theorem failed_write_leaves_no_trace {t : Tables} (reached : t.Reachable) (r : Registry)
    {op : StoreOp} (write : op.IsWrite) :
    ((∃ e, (op.run (backend r) t).1 = .error e) ↔ Refused r t op) ∧
      ((∃ e, (op.run (backend r) t).1 = .error e) → ∀ (later : Registry) (ops : List StoreOp),
        StoreOp.answers (backend later) ops (op.run (backend r) t).2
          = StoreOp.answers (backend later) ops t) := by
  refine ⟨run_fails_iff (headersRead_of_reachable reached) write, ?_⟩
  rintro ⟨e, failed⟩ later ops
  have undone : (op.run (backend r) t).2 = t := run_atomic write (Prod.ext failed rfl)
  rw [undone]

/-- A draft with two rules of one id. -/
def repeatedId : Ruleset :=
  { draftOf (negations 0) with
    rules := [⟨"share", "one", "", negations 0⟩, ⟨"share", "other", "", negations 0⟩] }

/-- A draft whose second rule repeats an id is refused once the draft before it is gone and its
first rule is there; the draft before it is still read. -/
theorem repeatedId_leaves_no_trace : ∃ t,
    t = ((StoreOp.replaceDraft (draftOf (negations 0))).run (backend .standard) .empty).2 ∧
    t.rules.map RuleRow.name = ["share"] ∧
    (writeDraft repeatedId t).2.rules.map RuleRow.name = ["one"] ∧
    (∃ e, ((StoreOp.replaceDraft repeatedId).run (backend .standard) t).1 = .error e) ∧
    ∀ (later : Registry) (ops : List StoreOp),
      StoreOp.answers (backend later) ops
          ((StoreOp.replaceDraft repeatedId).run (backend .standard) t).2
        = StoreOp.answers (backend later) ops t := by
  have write : (StoreOp.replaceDraft repeatedId).IsWrite := trivial
  have no_trace := failed_write_leaves_no_trace
    (.after .standard (.replaceDraft (draftOf (negations 0))) .empty) .standard write
  have failed := no_trace.1.mpr (.inr (.inr (.inr (.inr (by decide)))))
  exact ⟨_, rfl, by decide +kernel, by decide +kernel, failed, no_trace.2 failed⟩

end RiskRules.Tables
