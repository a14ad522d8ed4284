import RiskRules.Proofs.Listing
import RiskRules.Proofs.ReadYourWrites
import RiskRules.Proofs.StoreRuns
import RiskRules.Proofs.StoredIndexes
import RiskRules.Proofs.StoredScores

/-!
Tables and memory behave alike. As long as what is written can be held by the tables
(`StoreOp.Storable`) and no score id is used twice, each operation gives the same answer on both
stores and leaves contents that stand for each other (`Tables.Coupled`); so from empty stores on all
answers are the same, failures included (`Tables.answers_eq`).
-/

namespace RiskRules

/-! ### What the tables can hold -/

/-- The text of a timestamp is read as that timestamp. -/
def Timestamp.Exact (moment : Timestamp) : Prop :=
  ∃ text, Rfc3339.render moment = .ok text ∧ Rfc3339.parse text = .ok moment

/-- A draft that tables opened with a registry give back as it is: no id occurs twice, the cooldown
is in whole seconds that a signed number counts, there are no more rules than a list in memory can
have, and every body is read back. -/
structure Ruleset.Storable (r : Registry) (ruleset : Ruleset) : Prop where
  distinct : (ruleset.rules.map Rule.stableId).Nodup
  whole : ruleset.cooldown.nanos = 0
  seconds : ruleset.cooldown.seconds.toNat < 2 ^ 63
  counted : ruleset.rules.length ≤ 2 ^ 63
  readBack : ∀ rule ∈ ruleset.rules, rule.ReadBack r

/-- The drafts and timestamps of an operation can be held by tables opened with a registry. -/
def StoreOp.Storable (r : Registry) : StoreOp → Prop
  | .replaceDraft ruleset => ruleset.Storable r
  | .insertScore score => score.createdAt.Exact ∧ ∀ moment ∈ score.staleAt, moment.Exact
  | _ => True

namespace Tables

variable {r : Registry} {t : Tables} {m : Memory} {ids : List String}

/-- Tables and a store in memory that stand for each other; the ids of their scores are among those
used. -/
structure Coupled (r : Registry) (ids : List String) (t : Tables) (m : Memory) : Prop where
  slots : SlotsMatch r t m
  scores : ScoresMatch t m
  indexes : IndexesMatch t m
  used : ∀ row ∈ t.scores, row.id ∈ ids

theorem coupled_empty : Coupled r [] .empty .empty where
  slots := ⟨fun key status => by cases status <;> rfl, List.nodup_nil, by simp [empty],
    Slots.distinct_nil, Slots.distinct_nil⟩
  scores := ⟨fun _ => rfl, by simp [empty]⟩
  indexes := fun _ _ => rfl
  used := by simp [empty]

/-! ### Drafts -/

/-- A draft that can be held is accepted. -/
theorem replaceDraft_of_storable {ruleset : Ruleset} (storable : ruleset.Storable r)
    (draft : ruleset.status = .draft) (t : Tables) : ∃ bodies, draftBodies ruleset = .ok bodies ∧
      (backend r).replaceDraft ruleset t = (.ok (), drafted t ruleset bodies) := by
  have texts : ∀ rule ∈ ruleset.rules, ∃ body, bodyText rule = .ok body := by
    intro rule mem
    obtain ⟨text, written, -⟩ := storable.readBack rule mem
    exact ⟨text, written⟩
  obtain ⟨bodies, given⟩ := exists_draftBodies_iff.mpr ⟨draft, storable.seconds, texts⟩
  exact ⟨bodies, given, transaction_eq_ok_iff.mpr (writeDraft_eq_ok_iff.mpr
    ⟨bodies, given, storable.counted, storable.distinct, rfl⟩)⟩

/-- What is no draft is refused as in memory. -/
theorem replaceDraft_of_committed {ruleset : Ruleset} (other : ruleset.status ≠ .draft)
    (t : Tables) : (backend r).replaceDraft ruleset t = (.error .notADraft, t) := by
  have refused : draftBodies ruleset = .error (.invalid "only draft rulesets can be replaced") := by
    simp [draftBodies, other, bind, Except.bind]
  have ran : writeDraft ruleset t
      = (.error (.invalid "only draft rulesets can be replaced"), t) := by
    rw [writeDraft, refused]
    rfl
  exact transaction_eq_error_iff.mpr ⟨⟨_, _, ran, rfl⟩, rfl⟩

theorem wholeSeconds_eq {ruleset : Ruleset} (whole : ruleset.cooldown.nanos = 0) :
    wholeSeconds ruleset = ruleset := by
  obtain ⟨key, version, status, name, thresholds, ⟨seconds, nanos, nanos_lt⟩, rules⟩ := ruleset
  cases whole
  rfl

theorem slotsMatch_drafted {ruleset : Ruleset} {bodies : List String} (slots : SlotsMatch r t m)
    (storable : ruleset.Storable r) (given : draftBodies ruleset = .ok bodies) :
    SlotsMatch r (drafted t ruleset bodies)
      { m with drafts := Slots.put ruleset.key ruleset m.drafts } where
  read key status := by
    by_cases own : (key, status.label) = (ruleset.key, RulesetStatus.draft.label)
    · obtain ⟨rfl, label⟩ := Prod.mk.inj own
      have read := (readRuleset_drafted_iff (t := t) given storable.counted).mpr storable.readBack
      rw [wholeSeconds_eq storable.whole] at read
      cases status with
      | draft => rw [read, Memory.slot, Slots.get?_put, if_pos rfl]
      | committed => simp [RulesetStatus.label] at label
    · rw [readRuleset_drafted_other own, slots.read]
      cases status with
      | committed => rfl
      | draft =>
        have elsewhere : key ≠ ruleset.key := fun same => own (same ▸ rfl)
        rw [Memory.slot, Memory.slot, Slots.get?_put, if_neg elsewhere]
  distinct := nodup_slots_drafted slots.distinct
  labelled row mem := by
    rcases List.mem_append.mp mem with mem | mem
    · exact slots.labelled row (List.mem_filter.mp mem).1
    · obtain rfl := List.mem_singleton.mp mem
      exact ⟨.draft, rfl⟩
  drafts_distinct := slots.drafts_distinct.put
  committed_distinct := slots.committed_distinct

/-- A draft that can be held takes the place of the one before in both stores. -/
theorem Coupled.replaceDraft {ruleset : Ruleset} (coupled : Coupled r ids t m)
    (storable : ruleset.Storable r) :
    ((backend r).replaceDraft ruleset t).1 = (Memory.replaceDraft ruleset m).1 ∧
      Coupled r ids ((backend r).replaceDraft ruleset t).2 (Memory.replaceDraft ruleset m).2 := by
  by_cases draft : ruleset.status = .draft
  · obtain ⟨bodies, given, ran⟩ := replaceDraft_of_storable storable draft t
    rw [ran, Memory.replaceDraft, if_pos draft]
    exact ⟨rfl, slotsMatch_drafted coupled.slots storable given,
      ⟨coupled.scores.read, coupled.scores.flag⟩, coupled.indexes, coupled.used⟩
  · rw [replaceDraft_of_committed draft, Memory.replaceDraft, if_neg draft]
    exact ⟨rfl, coupled⟩

/-! ### Committing -/

theorem slotsMatch_promoted {key : PairKey} {draft : Ruleset} (slots : SlotsMatch r t m)
    (held : Slots.get? key m.drafts = some draft) : SlotsMatch r (promoted t key) { m with
      drafts := Slots.remove key m.drafts
      committed := Slots.put key { draft with status := .committed } m.committed } where
  read other status := by
    by_cases own : other = key
    · subst own
      cases status with
      | draft => rw [readRuleset_promoted_draft, Memory.slot, Slots.get?_remove, if_pos rfl]
      | committed =>
        have read := slots.read other .draft
        rw [Memory.slot, held] at read
        rw [readRuleset_promoted, read, Memory.slot, Slots.get?_put, if_pos rfl]
        rfl
    · rw [readRuleset_promoted_other own, slots.read]
      cases status with
      | draft => rw [Memory.slot, Memory.slot, Slots.get?_remove, if_neg own]
      | committed => rw [Memory.slot, Memory.slot, Slots.get?_put, if_neg own]
  distinct := nodup_slots_promoted slots.distinct
  labelled row mem := by
    obtain ⟨before, before_mem, rfl⟩ := List.mem_map.mp mem
    unfold promoteHeader
    split
    · exact ⟨.committed, rfl⟩
    · exact slots.labelled before (List.mem_filter.mp before_mem).1
  drafts_distinct := slots.drafts_distinct.remove
  committed_distinct := slots.committed_distinct.put

/-- A draft is committed in both stores, or missing in both. -/
theorem Coupled.commitDraft {key : PairKey} (coupled : Coupled r ids t m) :
    ((backend r).commitDraft key t).1 = (Memory.commitDraft key m).1 ∧
      Coupled r ids ((backend r).commitDraft key t).2 (Memory.commitDraft key m).2 := by
  rw [commitDraft_apply, coupled.slots.read, Memory.slot, Memory.commitDraft]
  cases held : Slots.get? key m.drafts with
  | none => exact ⟨rfl, coupled⟩
  | some draft =>
    exact ⟨rfl, slotsMatch_promoted coupled.slots held,
      ⟨coupled.scores.read, coupled.scores.flag⟩, coupled.indexes, coupled.used⟩

/-! ### Scores -/

theorem exists_timestampText {moment : Timestamp} (exact : moment.Exact) :
    ∃ text, timestampText moment = .ok text := by
  obtain ⟨text, rendered, -⟩ := exact
  exact ⟨text, by rw [timestampText_eq, rendered]; rfl⟩

/-- A score with a new id is added in both stores. -/
theorem Coupled.insertScore {score : Score} (coupled : Coupled r ids t m)
    (created : score.createdAt.Exact) (stale : ∀ moment ∈ score.staleAt, moment.Exact)
    (fresh : score.id ∉ ids) :
    ((backend r).insertScore score t).1 = (Memory.insertScore score m).1 ∧
      Coupled r (score.id :: ids) ((backend r).insertScore score t).2
        (Memory.insertScore score m).2 := by
  obtain ⟨createdAt, created⟩ := exists_timestampText created
  obtain ⟨staleAt, stale⟩ := exists_option_mapM_eq_ok_iff.mpr fun moment mem =>
    exists_timestampText (stale moment mem)
  have new : ∀ row ∈ t.scores, row.id ≠ score.id := fun row mem same =>
    fresh (same ▸ coupled.used row mem)
  have ran : (backend r).insertScore score t
      = (.ok { score with isCurrent := true }, Tables.scored t score staleAt createdAt) :=
    transaction_eq_ok_iff.mpr (writeScore_eq_ok_iff.mpr
      ⟨staleAt, createdAt, stale, created, new, rfl, rfl⟩)
  rw [ran]
  refine ⟨rfl, ⟨coupled.slots.read, coupled.slots.distinct, coupled.slots.labelled,
    coupled.slots.drafts_distinct, coupled.slots.committed_distinct⟩,
    coupled.scores.scored stale created, coupled.indexes, ?_⟩
  intro row mem
  rcases List.mem_cons.mp mem with rfl | mem
  · exact List.mem_cons_self
  · obtain ⟨before, before_mem, rfl⟩ := List.mem_map.mp mem
    rw [demote_id]
    exact List.mem_cons_of_mem _ (coupled.used before before_mem)

/-! ### Indexes -/

/-- Stores that stand for each other do so with other index states that match. -/
theorem Coupled.withIndexes (coupled : Coupled r ids t m) {rows : List IndexRow}
    {states : List ((String × IndexSpec) × IndexState)}
    (indexes : IndexesMatch { t with indexes := rows } { m with indexes := states }) :
    Coupled r ids { t with indexes := rows } { m with indexes := states } :=
  ⟨⟨coupled.slots.read, coupled.slots.distinct, coupled.slots.labelled,
    coupled.slots.drafts_distinct, coupled.slots.committed_distinct⟩,
    ⟨coupled.scores.read, coupled.scores.flag⟩, indexes, coupled.used⟩

theorem Coupled.markPending (coupled : Coupled r ids t m) (organization : String) (i : IndexSpec) :
    Coupled r ids (markPending organization t i) (Memory.markPending organization m i) := by
  have states := coupled.indexes.markPending organization i
  rw [markPending_eq, Memory.markPending_eq] at states ⊢
  exact coupled.withIndexes states

theorem Coupled.markReady (coupled : Coupled r ids t m) (organization : String) (i : IndexSpec) :
    Coupled r ids (markReady organization t i) (Memory.markReady organization m i) := by
  have states := coupled.indexes.markReady organization i
  rw [markReady_eq] at states ⊢
  exact coupled.withIndexes states

/-! ### Operations and runs -/

/-- An operation that gives one answer on both stores does so whatever is made of the answer. -/
theorem map_same {α : Type} {x : Action Tables StoreError α} {y : Action Memory StoreError α}
    {used : List String} (g : α → StoreAnswer)
    (same : (x t).1 = (y m).1 ∧ Coupled r used (x t).2 (y m).2) :
    ((g <$> x) t).1 = ((g <$> y) m).1 ∧ Coupled r used ((g <$> x) t).2 ((g <$> y) m).2 := by
  rw [Action.map_apply, Action.map_apply]
  exact ⟨congrArg (Except.map g) same.1, same.2⟩

/-- Reading what memory holds gives it on both stores. -/
theorem Coupled.reading {α : Type} (coupled : Coupled r ids t m) {f : Tables → Except TablesError α}
    {g : Memory → α} (read : f t = .ok (g m)) :
    (reading f t).1 = ((Action.view g : Action Memory StoreError α) m).1 ∧
      Coupled r ids (reading f t).2 ((Action.view g : Action Memory StoreError α) m).2 := by
  rw [reading_apply, read]
  exact ⟨rfl, coupled⟩

/-- The step: an operation that tables can hold gives one answer on both stores, and leaves them
standing for each other. -/
theorem Coupled.step {op : StoreOp} (coupled : Coupled r ids t m) (storable : op.Storable r)
    (fresh : ∀ id ∈ op.addedId?, id ∉ ids) :
    (op.run (backend r) t).1 = (op.run Memory.backend m).1 ∧
      Coupled r (op.addedId?.toList ++ ids) (op.run (backend r) t).2
        (op.run Memory.backend m).2 := by
  cases op with
  | committed key => exact map_same _ (coupled.reading (coupled.slots.read key .committed))
  | draft key => exact map_same _ (coupled.reading (coupled.slots.read key .draft))
  | list organization => exact map_same _ (coupled.reading coupled.slots.readList_eq)
  | replaceDraft ruleset => exact map_same _ (coupled.replaceDraft storable)
  | commitDraft key => exact map_same _ coupled.commitDraft
  | currentScore entity =>
    exact map_same _ (coupled.reading (coupled.scores.readCurrent_eq entity))
  | history entity => exact map_same _ (coupled.reading (coupled.scores.read entity))
  | insertScore score =>
    exact map_same _ (coupled.insertScore storable.1 storable.2 (fresh score.id rfl))
  | indexStates organization indexes =>
    exact map_same _ (coupled.reading (coupled.indexes.mapM_readIndex organization indexes))
  | markPending organization indexes =>
    exact map_same _ ⟨rfl, List.foldl_rel coupled fun i _ _ _ coupled =>
      coupled.markPending organization i⟩
  | markReady organization indexes =>
    exact map_same _ ⟨rfl, List.foldl_rel coupled fun i _ _ _ coupled =>
      coupled.markReady organization i⟩

/-- The run: stores that stand for each other answer alike. -/
theorem Coupled.same_answers {ops : List StoreOp} (coupled : Coupled r ids t m)
    (storable : ∀ op ∈ ops, op.Storable r) (fresh : (ops.filterMap StoreOp.addedId?).Nodup)
    (unused : ∀ id ∈ ops.filterMap StoreOp.addedId?, id ∉ ids) :
    StoreOp.answers (backend r) ops t = StoreOp.answers Memory.backend ops m := by
  induction ops generalizing t m ids with
  | nil => rfl
  | cons op rest ih =>
    obtain ⟨storable_here, storable_later⟩ := List.forall_mem_cons.mp storable
    have added : (op :: rest).filterMap StoreOp.addedId?
        = op.addedId?.toList ++ rest.filterMap StoreOp.addedId? := by
      cases given : op.addedId? <;> simp [given]
    rw [added] at fresh unused
    obtain ⟨-, fresh_later, apart⟩ := List.nodup_append.mp fresh
    have unused_here : ∀ id ∈ op.addedId?, id ∉ ids := fun id mem =>
      unused id (List.mem_append_left _ (Option.mem_toList.mpr mem))
    have unused_later : ∀ id ∈ rest.filterMap StoreOp.addedId?, id ∉ op.addedId?.toList ++ ids := by
      intro id mem used
      rcases List.mem_append.mp used with here | before
      · exact apart id here id mem rfl
      · exact unused id (List.mem_append_right _ mem) before
    obtain ⟨same, coupled⟩ := coupled.step storable_here unused_here
    rw [StoreOp.answers, StoreOp.answers, same, ih coupled storable_later fresh_later unused_later]

/-- **Tables and memory behave alike.** From empty stores, operations whose drafts and timestamps
the tables can hold, and no two of which add scores of one id, give the same answers on tables
opened with a registry and in memory. -/
theorem answers_eq (r : Registry) {ops : List StoreOp} (storable : ∀ op ∈ ops, op.Storable r)
    (fresh : (ops.filterMap StoreOp.addedId?).Nodup) :
    StoreOp.answers (backend r) ops .empty = StoreOp.answers Memory.backend ops .empty :=
  coupled_empty.same_answers storable fresh (by simp)

/-- The score of an account, set by hand at the epoch. -/
def scoreOf (id : String) : Score :=
  ⟨id, ⟨"acme", "account", "a-1"⟩, 20, .override, none, some "analyst", none, .epoch, true⟩

/-- A draft of one rule that is stored, committed and then missing; a score that is stored and then
no longer current; and an index that is marked. -/
theorem answers_of_commit_and_scores :
    StoreOp.answers (backend .standard)
        [.replaceDraft (wholeSeconds (draftOf (negations 0))), .draft ⟨"acme", "account"⟩,
          .commitDraft ⟨"acme", "account"⟩, .commitDraft ⟨"acme", "account"⟩,
          .insertScore (scoreOf "one"), .insertScore (scoreOf "other"),
          .history ⟨"acme", "account", "a-1"⟩, .markPending "acme" [⟨"events", "owner"⟩],
          .indexStates "acme" [⟨"events", "owner"⟩, ⟨"events", "kind"⟩]] .empty
      = [.ok .done, .ok (.slot (wholeSeconds (draftOf (negations 0)))),
          .ok (.ruleset { wholeSeconds (draftOf (negations 0)) with status := .committed }),
          .error (.noDraft ⟨"acme", "account"⟩), .ok (.score (scoreOf "one")),
          .ok (.score (scoreOf "other")),
          .ok (.scores [scoreOf "other", { scoreOf "one" with isCurrent := false }]), .ok .done,
          .ok (.states [.pending, .missing])] := by
  obtain ⟨text, written⟩ : ∃ text, bodyText ⟨"share", "share", "", negations 0⟩ = .ok text :=
    ⟨_, bodyText_eq_ok_iff.mpr ⟨readable_negations 0, rfl, by decide +kernel⟩⟩
  have literal : (Value.bool true).KeptByText := trivial
  have kept : (negations 0).KeptByText := by
    simp [negations, Node.keptByText_make_iff, literal]
  have draft : (wholeSeconds (draftOf (negations 0))).Storable .standard :=
    { distinct := by decide
      whole := rfl
      seconds := by decide
      counted := by decide
      readBack := List.forall_mem_singleton.mpr ((Rule.readBack_iff
        (built_negations (by decide)).1 written).mpr ⟨by decide, kept⟩) }
  have epoch : Timestamp.epoch.Exact :=
    ⟨_, Rfc3339.render_eq_ok_iff.mpr ⟨by decide, rfl⟩,
      Rfc3339.parse_of_render (Rfc3339.render_eq_ok_iff.mpr ⟨by decide, rfl⟩)⟩
  refine (answers_eq .standard ?storable ?fresh).trans ?memory
  case storable =>
    simp [StoreOp.Storable, draft, scoreOf, epoch]
  case fresh =>
    decide
  case memory =>
    rfl

end Tables

end RiskRules
