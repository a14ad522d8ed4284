import RiskRules.Proofs.StoredRulesets
import RiskRules.Proofs.Slots
import RiskRules.Proofs.Timestamps
import RiskRules.Store.Memory

/-!
Scores in rows. A score is read back from its row (`Tables.readScore_scoreRow`), and one that is
demoted is read as no longer current (`Tables.readScore_demote`); so if the rows of each entity are
read as its history in memory (`Tables.ScoresMatch`), they still are once a score is added to both
(`Tables.ScoresMatch.scored`), and the current scores are the same
(`Tables.ScoresMatch.readCurrent_eq`).
-/

namespace RiskRules.Tables

variable {t : Tables} {m : Memory} {entity : EntityRef} {row : ScoreRow} {score : Score}

/-! ### One score -/

theorem readTimestamp_of_timestampText {moment : Timestamp} {text : String}
    (written : timestampText moment = .ok text) : readTimestamp text = .ok moment := by
  rw [timestampText_eq] at written
  cases rendered : Rfc3339.render moment with
  | error e =>
    rw [rendered] at written
    cases written
  | ok found =>
    rw [rendered] at written
    cases written
    delta readTimestamp
    rw [Rfc3339.parse_of_render rendered]

/-- A score is read back from its row, as the current one. -/
theorem readScore_scoreRow {staleAt : Option String} {createdAt : String}
    (stale : score.staleAt.mapM timestampText = .ok staleAt)
    (created : timestampText score.createdAt = .ok createdAt) :
    readScore (scoreRow score staleAt createdAt) = .ok { score with isCurrent := true } := by
  have source : readSource score.source.label = .ok score.source := by
    cases score.source <;> rfl
  have version : (score.rulesetVersion.map fun v => Int64.ofNat v.toNat).mapM readVersion
      = .ok score.rulesetVersion := by
    cases score.rulesetVersion with
    | none => rfl
    | some v => simp [readVersion_ofNat]
  have deadline : staleAt.mapM readTimestamp = .ok score.staleAt := by
    cases moment : score.staleAt with
    | none =>
      rw [moment] at stale
      cases stale
      rfl
    | some moment =>
      rw [moment, Option.mapM_some, map_eq_ok_iff] at stale
      obtain ⟨text, written, rfl⟩ := stale
      rw [Option.mapM_some, readTimestamp_of_timestampText written]
      rfl
  have created := readTimestamp_of_timestampText created
  simp only [readScore, scoreRow, source, version, deadline, created, bind, Except.bind]
  rfl

/-- Whether a score is current is read from its flag. -/
theorem readScore_flag (row : ScoreRow) (flag : Int64) :
    readScore { row with isCurrent := flag }
      = (readScore row).map fun score => { score with isCurrent := flag != 0 } := by
  simp only [readScore]
  cases readSource row.source with
  | error e => rfl
  | ok source =>
    cases row.rulesetVersion.mapM readVersion with
    | error e => rfl
    | ok version =>
      cases row.staleAt.mapM readTimestamp with
      | error e => rfl
      | ok staleAt => cases readTimestamp row.createdAt <;> rfl

/-- A demoted score is read as an earlier one. -/
theorem readScore_demote (own : row.ofEntity entity = true)
    (flag : row.isCurrent = 0 ∨ row.isCurrent = 1) (read : readScore row = .ok score) :
    readScore (demote entity row) = .ok { score with isCurrent := false } := by
  have cleared : demote entity row = { row with isCurrent := 0 } := by
    rw [demote, own]
    rcases flag with earlier | current
    · rw [earlier]
      cases row
      cases earlier
      rfl
    · rw [current]
      rfl
  rw [cleared, readScore_flag, read]
  rfl

/-- A score that was read carries its row's entity and flag. -/
theorem isCurrent_of_readScore (flag : row.isCurrent = 0 ∨ row.isCurrent = 1)
    (read : readScore row = .ok score) : score.isCurrent = (row.isCurrent == 1) := by
  simp only [readScore, bind_eq_ok_iff, pure_eq_ok_iff] at read
  obtain ⟨_, -, _, -, _, -, _, -, rfl⟩ := read
  rcases flag with earlier | current
  · simp [earlier]
  · simp [current]

/-! ### Histories -/

@[simp] theorem demote_ofEntity (e entity : EntityRef) (row : ScoreRow) :
    (demote e row).ofEntity entity = row.ofEntity entity := by
  unfold demote
  split <;> rfl

theorem ofEntity_iff : row.ofEntity entity = true ↔ row.organization = entity.organization ∧
    row.entityType = entity.entityType ∧ row.entityId = entity.entityId := by
  simp [ScoreRow.ofEntity, and_assoc]

theorem ofEntity_scoreRow {staleAt : Option String} {createdAt : String} :
    (scoreRow score staleAt createdAt).ofEntity entity = decide (entity = score.entity) := by
  obtain ⟨organization, entityType, entityId⟩ := entity
  rw [Bool.eq_iff_iff, ofEntity_iff, decide_eq_true_iff]
  cases own : score.entity
  simp [scoreRow, own, eq_comm]

/-- A score is of one entity. -/
theorem ofEntity_of_ne {other : EntityRef} (own : row.ofEntity entity = true)
    (elsewhere : entity ≠ other) : row.ofEntity other = false := by
  refine Bool.eq_false_iff.mpr fun both => elsewhere ?_
  obtain ⟨organization, entityType, entityId⟩ := ofEntity_iff.mp own
  obtain ⟨organization', entityType', entityId'⟩ := ofEntity_iff.mp both
  cases entity
  cases other
  simp_all

/-- The rows of each entity are read as its history in memory, and a row is current or it is not. -/
structure ScoresMatch (t : Tables) (m : Memory) : Prop where
  read : ∀ entity, t.readHistory entity = .ok (m.history entity)
  flag : ∀ row ∈ t.scores, row.isCurrent = 0 ∨ row.isCurrent = 1

/-- Rows of an entity that are demoted are read as earlier scores. -/
theorem mapM_demote {rows : List ScoreRow} {scores : List Score}
    (own : ∀ row ∈ rows, row.ofEntity entity = true)
    (flag : ∀ row ∈ rows, row.isCurrent = 0 ∨ row.isCurrent = 1)
    (read : rows.mapM readScore = .ok scores) :
    (rows.map (demote entity)).mapM readScore
      = .ok (scores.map fun score => { score with isCurrent := false }) := by
  have each := mapM_eq_ok_iff.mp read
  refine mapM_eq_ok_iff.mpr ?_
  clear read
  induction each with
  | nil => exact .nil
  | cons here _ ih =>
    obtain ⟨own_here, own_later⟩ := List.forall_mem_cons.mp own
    obtain ⟨flag_here, flag_later⟩ := List.forall_mem_cons.mp flag
    exact .cons (readScore_demote own_here flag_here here) (ih own_later flag_later)

/-- The newest current row is read as the newest current score. -/
theorem mapM_find? {rows : List ScoreRow} {scores : List Score}
    (flag : ∀ row ∈ rows, row.isCurrent = 0 ∨ row.isCurrent = 1)
    (read : rows.mapM readScore = .ok scores) :
    (rows.find? fun row => row.isCurrent == 1).mapM readScore
      = .ok (scores.find? Score.isCurrent) := by
  have each := mapM_eq_ok_iff.mp read
  clear read
  induction each with
  | nil => rfl
  | @cons row score _ _ here _ ih =>
    obtain ⟨flag_here, flag_later⟩ := List.forall_mem_cons.mp flag
    have same := isCurrent_of_readScore flag_here here
    rw [List.find?_cons, List.find?_cons, same]
    cases row.isCurrent == 1 with
    | true =>
      rw [Option.mapM_some, here]
      rfl
    | false => exact ih flag_later

namespace ScoresMatch

theorem readCurrent_eq (scores : ScoresMatch t m) (entity : EntityRef) :
    t.readCurrent entity = .ok (m.currentScore entity) := by
  have found : (t.scores.find? fun row => row.ofEntity entity && row.isCurrent == 1)
      = (t.scores.filter (·.ofEntity entity)).find? fun row => row.isCurrent == 1 := by
    simp only [List.find?_filter, Bool.decide_and, Bool.decide_eq_true]
  rw [readCurrent, found, Memory.currentScore]
  exact mapM_find? (fun row mem => scores.flag row (List.mem_filter.mp mem).1)
    (scores.read entity)

/-- Adding a score to both stores leaves scores that match. -/
theorem scored (scores : ScoresMatch t m) {staleAt : Option String} {createdAt : String}
    (stale : score.staleAt.mapM timestampText = .ok staleAt)
    (created : timestampText score.createdAt = .ok createdAt) :
    ScoresMatch (scored t score staleAt createdAt) (Memory.insertScore score m).2 where
  read entity := by
    have earlier : ((t.scores.map (demote score.entity)).filter (·.ofEntity entity))
        = (t.scores.filter (·.ofEntity entity)).map (demote score.entity) := by
      simp only [List.filter_map, Function.comp_def, demote_ofEntity]
    have history := scores.read entity
    rw [readHistory] at history ⊢
    rw [Tables.scored, List.filter_cons, earlier, ofEntity_scoreRow, Memory.history,
      Memory.insertScore, Slots.get?_put]
    by_cases own : entity = score.entity
    · subst own
      have demoted := mapM_demote (fun row mem => (List.mem_filter.mp mem).2)
        (fun row mem => scores.flag row (List.mem_filter.mp mem).1) history
      rw [decide_eq_true rfl, if_pos rfl, if_pos rfl, Option.getD_some]
      exact mapM_eq_ok_iff.mpr
        (.cons (readScore_scoreRow stale created) (mapM_eq_ok_iff.mp demoted))
    · have untouched : ∀ row ∈ t.scores.filter (·.ofEntity entity),
          demote score.entity row = row := by
        intro row mem
        have here := (List.mem_filter.mp mem).2
        rw [demote, ofEntity_of_ne here own]
        rfl
      rw [List.map_congr_left untouched, List.map_id']
      simpa [own, Memory.history] using history
  flag row mem := by
    rcases List.mem_cons.mp mem with rfl | mem
    · exact .inr rfl
    · obtain ⟨before, before_mem, rfl⟩ := List.mem_map.mp mem
      unfold demote
      split
      · exact .inl rfl
      · exact scores.flag before before_mem

end ScoresMatch

end RiskRules.Tables
