import Mathlib.Tactic.Ring
import RiskRules.Proofs.Action
import RiskRules.Proofs.Results
import RiskRules.Store.Tables

/-!
What the writes of the tables do, statement by statement. A draft is written exactly when it can be
put into rows and its ids are distinct (`Tables.writeDraft_eq_ok_iff`), a score exactly when its
timestamps have texts and its id is new (`Tables.writeScore_eq_ok_iff`). Each of them has changed
rows by the time it can fail, which the transaction around it undoes
(`Tables.transaction_eq_error_iff`).
-/

namespace RiskRules

namespace Action

variable {S ε ε' α : Type} {s t : S}

/-! ### Statements -/

theorem tryUpdate_eq_ok_iff {f : S → Except ε S} {u : Unit} :
    tryUpdate f s = (.ok u, t) ↔ f s = .ok t := by
  rw [tryUpdate]
  cases f s with
  | ok u => simp
  | error e => simp

theorem update_eq_ok_iff {f : S → S} {u : Unit} :
    (update f : Action S ε Unit) s = (.ok u, t) ↔ f s = t := by
  simp [update]

end Action

namespace Tables

variable {key : PairKey} {t t' : Tables} {α : Type}

/-! ### Transactions -/

theorem transaction_eq_ok_iff {statements : Action Tables TablesError α} {a : α} :
    transaction statements t = (.ok a, t') ↔ statements t = (.ok a, t') := by
  rw [transaction]
  cases ran : statements t with
  | mk result written => cases result <;> simp

/-- Whatever the statements of a failed transaction have changed, the tables are as they were. -/
theorem transaction_eq_error_iff {statements : Action Tables TablesError α} {e : StoreError} :
    transaction statements t = (.error e, t')
      ↔ (∃ reason written, statements t = (.error reason, written) ∧ e = reason.toStoreError) ∧
        t' = t := by
  rw [transaction]
  cases ran : statements t with
  | mk result written => cases result <;> simp [eq_comm]

theorem transaction_atomic (statements : Action Tables TablesError α) :
    (transaction statements).Atomic id :=
  fun _ _ _ failed => (transaction_eq_error_iff.mp failed).2

/-- A transaction has done all of its statements or nothing. -/
theorem transaction_cases (statements : Action Tables TablesError α) (t : Tables) :
    (∃ a t', statements t = (.ok a, t') ∧ transaction statements t = (.ok a, t')) ∨
      ∃ e, transaction statements t = (.error e, t) := by
  rw [transaction]
  cases ran : statements t with
  | mk result written =>
    cases result with
    | ok a => exact .inl ⟨a, written, rfl, rfl⟩
    | error reason => exact .inr ⟨_, rfl⟩

/-! ### Clashes -/

theorem insertRow_eq_ok_iff {ρ : Type} {clash? : ρ → List ρ → Option TablesError} {row : ρ}
    {rows rows' : List ρ} : insertRow clash? row rows = .ok rows'
      ↔ clash? row rows = none ∧ rows' = rows ++ [row] := by
  rw [insertRow]
  cases clash? row rows with
  | none => simp [eq_comm]
  | some e => simp

theorem insertRuleset_eq_ok_iff {row : RulesetRow} {u : Unit} : insertRuleset row t = (.ok u, t')
    ↔ row.clash? t.rulesets = none ∧ t' = { t with rulesets := t.rulesets ++ [row] } := by
  rw [insertRuleset, Action.tryUpdate_eq_ok_iff, bind_eq_ok_iff]
  simp only [insertRow_eq_ok_iff, pure_eq_ok_iff]
  constructor
  · rintro ⟨_, ⟨free, rfl⟩, rfl⟩
    exact ⟨free, rfl⟩
  · rintro ⟨free, rfl⟩
    exact ⟨_, ⟨free, rfl⟩, rfl⟩

theorem insertRule_eq_ok_iff {row : RuleRow} {u : Unit} : insertRule row t = (.ok u, t')
    ↔ row.clash? t.rules = none ∧ t' = { t with rules := t.rules ++ [row] } := by
  rw [insertRule, Action.tryUpdate_eq_ok_iff, bind_eq_ok_iff]
  simp only [insertRow_eq_ok_iff, pure_eq_ok_iff]
  constructor
  · rintro ⟨_, ⟨free, rfl⟩, rfl⟩
    exact ⟨free, rfl⟩
  · rintro ⟨free, rfl⟩
    exact ⟨_, ⟨free, rfl⟩, rfl⟩

theorem insertScoreRow_eq_ok_iff {row : ScoreRow} {u : Unit} : insertScoreRow row t = (.ok u, t')
    ↔ row.clash? t.scores = none ∧ t' = { t with scores := row :: t.scores } := by
  rw [insertScoreRow, Action.tryUpdate_eq_ok_iff]
  cases row.clash? t.scores with
  | none => simp [eq_comm]
  | some e => simp

theorem inSlot_iff {row : RuleRow} {status : String} : row.inSlot key status = true
    ↔ row.organization = key.organization ∧ row.entityType = key.entityType ∧
      row.status = status := by
  simp [RuleRow.inSlot, and_assoc]

theorem header_inSlot_iff {row : RulesetRow} {status : String} : row.inSlot key status = true
    ↔ row.organization = key.organization ∧ row.entityType = key.entityType ∧
      row.status = status := by
  simp [RulesetRow.inSlot, and_assoc]

/-- A rule of a draft clashes with rules of that draft alone. -/
theorem clash?_ruleRow_eq_none_iff {position : Int64} {rule : Rule} {body : String}
    {others : List RuleRow} : (ruleRow key position rule body).clash? others = none
      ↔ ∀ other ∈ others, other.inSlot key RulesetStatus.draft.label = true →
        rule.stableId ≠ other.stableId ∧ position ≠ other.position := by
  have slot : ∀ other : RuleRow, (ruleRow key position rule body).sameSlot other
      = other.inSlot key RulesetStatus.draft.label := by
    intro other
    simp only [RuleRow.sameSlot, RuleRow.inSlot, ruleRow]
    rw [BEq.comm, BEq.comm (b := other.entityType), BEq.comm (b := other.status)]
  have id_eq : (ruleRow key position rule body).stableId = rule.stableId := rfl
  have position_eq : (ruleRow key position rule body).position = position := rfl
  rw [RuleRow.clash?]
  simp only [slot, id_eq, position_eq]
  split
  · rename_i repeated
    obtain ⟨other, mem, both⟩ := List.any_eq_true.mp repeated
    simp only [Bool.and_eq_true, beq_iff_eq] at both
    refine ⟨nofun, fun free => absurd both.2 (free other mem both.1).1⟩
  · rename_i new_id
    simp only [List.any_eq_true, Bool.and_eq_true, beq_iff_eq, not_exists, not_and] at new_id
    split
    · rename_i repeated
      obtain ⟨other, mem, both⟩ := List.any_eq_true.mp repeated
      simp only [Bool.and_eq_true, beq_iff_eq] at both
      refine ⟨nofun, fun free => absurd both.2 (free other mem both.1).2⟩
    · rename_i new_position
      simp only [List.any_eq_true, Bool.and_eq_true, beq_iff_eq, not_exists, not_and]
        at new_position
      exact ⟨fun _ other mem slot => ⟨new_id other mem slot, new_position other mem slot⟩,
        fun _ => rfl⟩

/-- A header is refused only if its slot has one. -/
theorem clash?_draftRow_eq_none {ruleset : Ruleset} {others : List RulesetRow}
    (empty : ∀ other ∈ others, other.inSlot ruleset.key RulesetStatus.draft.label = false) :
    (draftRow ruleset).clash? others = none := by
  have none_there : (others.any fun other =>
      other.inSlot ⟨(draftRow ruleset).organization, (draftRow ruleset).entityType⟩
        (draftRow ruleset).status) = false :=
    List.any_eq_false.mpr fun other mem => Bool.eq_false_iff.mp (empty other mem)
  rw [RulesetRow.clash?, none_there]
  rfl

/-! ### Writing a draft -/

/-- The rows of the rules of a draft, with the texts of their bodies, from a position on. -/
def draftRows (key : PairKey) : Nat → List (Rule × String) → List RuleRow
  | _, [] => []
  | position, (rule, body) :: rest =>
    ruleRow key (Int64.ofNat position) rule body :: draftRows key (position + 1) rest

theorem rulePosition_eq_ok_iff {position : Nat} {place : Int64} :
    rulePosition position = .ok place ↔ position < 2 ^ 63 ∧ place = Int64.ofNat position := by
  rw [rulePosition]
  split
  · rename_i large
    have uncounted : ¬position < 2 ^ 63 := by omega
    exact iff_of_false (by simp) fun given => uncounted given.1
  · rename_i small
    have counted : position < 2 ^ 63 := by omega
    rw [Except.ok.injEq, and_iff_right counted, eq_comm]

/-- The rules in a draft's slot stand before a position. -/
def StandBefore (rows : List RuleRow) (key : PairKey) (position : Nat) : Prop :=
  ∀ row ∈ rows, row.inSlot key RulesetStatus.draft.label = true → row.position.toInt < position

theorem StandBefore.added {rows : List RuleRow} {position : Nat} {rule : Rule} {body : String}
    (before : StandBefore rows key position) (small : position < 2 ^ 63) :
    StandBefore (rows ++ [ruleRow key (Int64.ofNat position) rule body]) key (position + 1) := by
  intro row mem slot
  rcases List.mem_append.mp mem with mem | mem
  · have earlier := before row mem slot
    omega
  · obtain rfl := List.mem_singleton.mp mem
    have here := Int64.toInt_ofNat_of_lt small
    simp only [ruleRow, here]
    omega

/-- Behind the rules of its slot, a rule clashes with those of its own id alone. -/
theorem StandBefore.clash?_eq_none_iff {rows : List RuleRow} {position : Nat} {rule : Rule}
    {body : String} (before : StandBefore rows key position) (small : position < 2 ^ 63) :
    (ruleRow key (Int64.ofNat position) rule body).clash? rows = none
      ↔ ∀ row ∈ rows, row.inSlot key RulesetStatus.draft.label = true →
        rule.stableId ≠ row.stableId := by
  rw [clash?_ruleRow_eq_none_iff]
  constructor
  · intro free row mem slot
    exact (free row mem slot).1
  · intro new row mem slot
    refine ⟨new row mem slot, fun same => ?_⟩
    have earlier := before row mem slot
    rw [← same, Int64.toInt_ofNat_of_lt small] at earlier
    omega

/-- Ids are new behind a rule that was added exactly if they were new before it and are not its
own. -/
theorem new_behind_ruleRow_iff {rows : List RuleRow} {place : Int64} {rule : Rule} {body : String}
    {id : String} : (∀ row ∈ rows ++ [ruleRow key place rule body],
        row.inSlot key RulesetStatus.draft.label = true → id ≠ row.stableId)
      ↔ (∀ row ∈ rows, row.inSlot key RulesetStatus.draft.label = true → id ≠ row.stableId) ∧
        id ≠ rule.stableId := by
  have own_slot : (ruleRow key place rule body).inSlot key RulesetStatus.draft.label = true :=
    inSlot_iff.mpr ⟨rfl, rfl, rfl⟩
  rw [List.forall_mem_append, List.forall_mem_singleton, forall_prop_of_true own_slot]
  rfl

theorem counted_succ_iff {count position : Nat} : (∀ i < count + 1, position + i < 2 ^ 63)
    ↔ position < 2 ^ 63 ∧ ∀ i < count, position + 1 + i < 2 ^ 63 := by
  constructor
  · intro counted
    refine ⟨counted 0 (by omega), fun i bound => ?_⟩
    have later := counted (i + 1) (by omega)
    omega
  · rintro ⟨here, later⟩ i bound
    cases i with
    | zero => exact here
    | succ i =>
      have counted := later i (by omega)
      omega

/-- Rules are added behind those before them exactly if their ids are new and all positions can be
counted. -/
theorem insertRules_eq_ok_iff {pairs : List (Rule × String)} {position : Nat} {u : Unit}
    (before : StandBefore t.rules key position) :
    insertRules key position pairs t = (.ok u, t')
      ↔ (∀ i < pairs.length, position + i < 2 ^ 63) ∧
        (pairs.map fun pair => pair.1.stableId).Nodup ∧
        (∀ pair ∈ pairs, ∀ row ∈ t.rules, row.inSlot key RulesetStatus.draft.label = true →
          pair.1.stableId ≠ row.stableId) ∧
        t' = { t with rules := t.rules ++ draftRows key position pairs } := by
  induction pairs generalizing position t with
  | nil =>
    simp only [insertRules, Action.pure_apply, draftRows]
    simpa using eq_comm
  | cons pair rest ih =>
    obtain ⟨rule, body⟩ := pair
    rw [insertRules, Action.bind_eq_ok_iff]
    simp only [Action.ofExcept_eq_ok_iff, rulePosition_eq_ok_iff, Action.bind_eq_ok_iff,
      insertRule_eq_ok_iff]
    rw [List.length_cons, counted_succ_iff, List.map_cons, List.nodup_cons, List.forall_mem_cons,
      List.mem_map]
    constructor
    · rintro ⟨_, _, ⟨⟨small, rfl⟩, rfl⟩, _, _, ⟨free, rfl⟩, ran⟩
      obtain ⟨counted, distinct, new, rfl⟩ := (ih (before.added small)).mp ran
      have apart := fun pair mem => new_behind_ruleRow_iff.mp (new pair mem)
      refine ⟨⟨small, counted⟩, ⟨?_, distinct⟩,
        ⟨(before.clash?_eq_none_iff small).mp free, fun pair mem => (apart pair mem).1⟩, ?_⟩
      · rintro ⟨other, mem, same⟩
        exact (apart other mem).2 same
      · simp [draftRows]
    · rintro ⟨⟨small, counted⟩, ⟨own_id, distinct⟩, ⟨new_here, new⟩, rfl⟩
      have free : (ruleRow key (Int64.ofNat position) rule body).clash? t.rules = none :=
        (before.clash?_eq_none_iff small).mpr new_here
      refine ⟨_, _, ⟨⟨small, rfl⟩, rfl⟩, (), _, ⟨free, rfl⟩,
        (ih (before.added small)).mpr ⟨counted, distinct, fun pair mem => ?_, ?_⟩⟩
      · exact new_behind_ruleRow_iff.mpr ⟨new pair mem, fun same => own_id ⟨pair, mem, same⟩⟩
      · simp [draftRows]

/-- The texts of a draft's bodies are there exactly if it is a draft, its cooldown can be counted
and every body has a text. -/
theorem draftBodies_eq_ok_iff {ruleset : Ruleset} {bodies : List String} :
    draftBodies ruleset = .ok bodies ↔ ruleset.status = .draft ∧
      ruleset.cooldown.seconds.toNat < 2 ^ 63 ∧ ruleset.rules.mapM bodyText = .ok bodies := by
  rw [draftBodies]
  by_cases draft : ruleset.status = .draft
  · by_cases large : 0x8000000000000000 ≤ ruleset.cooldown.seconds.toNat
    · have uncounted : ¬ruleset.cooldown.seconds.toNat < 2 ^ 63 := by omega
      refine iff_of_false ?_ fun given => uncounted given.2.1
      simp [draft, large, bind_eq_ok_iff]
    · have counted : ruleset.cooldown.seconds.toNat < 2 ^ 63 := by omega
      rw [and_iff_right draft, and_iff_right counted]
      simp [draft, large]
  · simp [draft, bind_eq_ok_iff]

theorem exists_draftBodies_iff {ruleset : Ruleset} : (∃ bodies, draftBodies ruleset = .ok bodies)
    ↔ ruleset.status = .draft ∧ ruleset.cooldown.seconds.toNat < 2 ^ 63 ∧
      ∀ rule ∈ ruleset.rules, ∃ body, bodyText rule = .ok body := by
  simp only [draftBodies_eq_ok_iff, exists_and_left, exists_mapM_eq_ok_iff]

theorem deleteSlot_eq_ok_iff {status : String} {u : Unit} :
    deleteSlot key status t = (.ok u, t') ↔ t' = { t with
      rules := t.rules.filter fun row => !row.inSlot key status
      rulesets := t.rulesets.filter fun row => !row.inSlot key status } := by
  rw [deleteSlot, Action.bind_eq_ok_iff]
  simp only [Action.update_eq_ok_iff]
  constructor
  · rintro ⟨-, _, rfl, rfl⟩
    rfl
  · rintro rfl
    exact ⟨(), _, rfl, rfl⟩

/-- The tables with the rows of a draft in the place of those of the draft before. -/
def drafted (t : Tables) (ruleset : Ruleset) (bodies : List String) : Tables :=
  { t with
    rules := (t.rules.filter fun row => !row.inSlot ruleset.key RulesetStatus.draft.label)
      ++ draftRows ruleset.key 0 (ruleset.rules.zip bodies)
    rulesets := (t.rulesets.filter fun row =>
      !row.inSlot ruleset.key RulesetStatus.draft.label) ++ [draftRow ruleset] }

/-- No row stands in a slot that was emptied. -/
theorem inSlot_of_mem_emptied {row : RuleRow} {rows : List RuleRow} {status : String}
    (mem : row ∈ rows.filter fun row => !row.inSlot key status) :
    row.inSlot key status = false := by
  simpa using (List.mem_filter.mp mem).2

/-- A draft's bodies stand beside all of its rules. -/
theorem zip_draftBodies {ruleset : Ruleset} {bodies : List String}
    (given : draftBodies ruleset = .ok bodies) :
    (ruleset.rules.zip bodies).length = ruleset.rules.length ∧
      (ruleset.rules.zip bodies).map (fun pair => pair.1.stableId)
        = ruleset.rules.map Rule.stableId := by
  have same_length := (mapM_eq_ok_iff.mp (draftBodies_eq_ok_iff.mp given).2.2).length_eq
  constructor
  · simp [same_length]
  · calc (ruleset.rules.zip bodies).map (fun pair => pair.1.stableId)
        = ((ruleset.rules.zip bodies).map Prod.fst).map Rule.stableId := by
          rw [List.map_map]
          rfl
      _ = ruleset.rules.map Rule.stableId := by rw [List.map_fst_zip (by omega)]

/-- **What writing a draft asks for.** A draft is written exactly if it can be put into rows and no
two of its rules have one id. -/
theorem writeDraft_eq_ok_iff {ruleset : Ruleset} {u : Unit} :
    writeDraft ruleset t = (.ok u, t') ↔ ∃ bodies, draftBodies ruleset = .ok bodies ∧
      ruleset.rules.length ≤ 2 ^ 63 ∧ (ruleset.rules.map Rule.stableId).Nodup ∧
      t' = drafted t ruleset bodies := by
  rw [writeDraft, Action.bind_eq_ok_iff]
  simp only [Action.ofExcept_eq_ok_iff, Action.bind_eq_ok_iff, deleteSlot_eq_ok_iff,
    insertRuleset_eq_ok_iff]
  have header_free : (draftRow ruleset).clash? (t.rulesets.filter fun row =>
      !row.inSlot ruleset.key RulesetStatus.draft.label) = none := by
    refine clash?_draftRow_eq_none fun other mem => ?_
    simpa using (List.mem_filter.mp mem).2
  have before : StandBefore (t.rules.filter fun row =>
      !row.inSlot ruleset.key RulesetStatus.draft.label) ruleset.key 0 := by
    intro row mem slot
    rw [inSlot_of_mem_emptied mem] at slot
    cases slot
  constructor
  · rintro ⟨bodies, _, ⟨given, rfl⟩, _, _, rfl, _, _, ⟨-, rfl⟩, ran⟩
    obtain ⟨length, ids⟩ := zip_draftBodies given
    obtain ⟨counted, distinct, -, rfl⟩ := (insertRules_eq_ok_iff before).mp ran
    refine ⟨bodies, given, Nat.le_of_not_lt fun long => ?_, ids ▸ distinct, rfl⟩
    rw [length] at counted
    have last := counted (ruleset.rules.length - 1) (by omega)
    omega
  · rintro ⟨bodies, given, short, distinct, rfl⟩
    obtain ⟨length, ids⟩ := zip_draftBodies given
    have new : ∀ pair ∈ ruleset.rules.zip bodies, ∀ row ∈ t.rules.filter fun row =>
        !row.inSlot ruleset.key RulesetStatus.draft.label,
        row.inSlot ruleset.key RulesetStatus.draft.label = true →
          pair.1.stableId ≠ row.stableId := by
      intro pair _ row mem slot
      rw [inSlot_of_mem_emptied mem] at slot
      cases slot
    refine ⟨bodies, _, ⟨given, rfl⟩, (), _, rfl, (), _, ⟨header_free, rfl⟩,
      (insertRules_eq_ok_iff before).mpr ⟨fun i bound => ?_, ids ▸ distinct, new, rfl⟩⟩
    omega

/-! ### Promoting a draft -/

/-- A header moved from the draft's slot to that of the committed ruleset. -/
def promoteHeader (key : PairKey) (row : RulesetRow) : RulesetRow :=
  if row.inSlot key RulesetStatus.draft.label then
    { row with status := RulesetStatus.committed.label }
  else row

/-- A rule moved from the draft's slot to that of the committed ruleset. -/
def promoteRule (key : PairKey) (row : RuleRow) : RuleRow :=
  if row.inSlot key RulesetStatus.draft.label then
    { row with status := RulesetStatus.committed.label }
  else row

/-- The tables with a draft in the place of the committed ruleset. -/
def promoted (t : Tables) (key : PairKey) : Tables :=
  { t with
    rules := (t.rules.filter fun row =>
      !row.inSlot key RulesetStatus.committed.label).map (promoteRule key)
    rulesets := (t.rulesets.filter fun row =>
      !row.inSlot key RulesetStatus.committed.label).map (promoteHeader key) }

/-- A draft is moved and read in its new place. -/
theorem promoteDraft_apply (r : Registry) (key : PairKey) (t : Tables) :
    promoteDraft r key t
      = if t.rulesets.any (·.inSlot key RulesetStatus.draft.label) then
          match readRuleset r (promoted t key) key .committed with
          | .ok (some ruleset) => (.ok ruleset, promoted t key)
          | .ok none => (.error (.corrupt "committed ruleset vanished"), promoted t key)
          | .error e => (.error e, promoted t key)
        else (.error (.invalid ("no draft ruleset for " ++ key.text)), t) := by
  cases drafted : t.rulesets.any (·.inSlot key RulesetStatus.draft.label) with
  | false => simp [promoteDraft, Action.bind_apply, Action.view, drafted, Action.fail]
  | true =>
    have emptied : deleteSlot key RulesetStatus.committed.label t = (.ok (), _) :=
      deleteSlot_eq_ok_iff.mpr rfl
    have moved : ∀ t : Tables, relabel key RulesetStatus.draft.label RulesetStatus.committed.label t
        = (.ok (), { t with
          rules := t.rules.map (promoteRule key)
          rulesets := t.rulesets.map (promoteHeader key) }) := fun _ => rfl
    simp only [promoteDraft, Action.bind_apply, Action.view, drafted, Bool.not_true,
      Bool.false_eq_true, if_false, emptied, moved, Action.consult, pure]
    rw [← promoted]
    cases readRuleset r (promoted t key) key .committed with
    | error e => rfl
    | ok found => cases found <;> rfl

/-! ### Adding a score -/

/-- A timestamp has a text in the tables exactly if it has one. -/
theorem timestampText_eq (moment : Timestamp) : timestampText moment
    = (Rfc3339.render moment).mapError fun e => .invalid e.message := by
  delta timestampText
  cases Rfc3339.render moment <;> rfl

/-- A score that is current no more, if it is of an entity. -/
def demote (entity : EntityRef) (row : ScoreRow) : ScoreRow :=
  if row.ofEntity entity && row.isCurrent == 1 then { row with isCurrent := 0 } else row

@[simp] theorem demote_id (entity : EntityRef) (row : ScoreRow) :
    (demote entity row).id = row.id := by
  unfold demote
  split <;> rfl

/-- The tables with a score in front of those of its entity. -/
def scored (t : Tables) (score : Score) (staleAt : Option String) (createdAt : String) : Tables :=
  { t with scores := scoreRow score staleAt createdAt :: t.scores.map (demote score.entity) }

/-- **What adding a score asks for.** A score is added exactly if its timestamps have texts and no
score has its id. -/
theorem writeScore_eq_ok_iff {score stored : Score} :
    writeScore score t = (.ok stored, t') ↔ ∃ staleAt createdAt,
      score.staleAt.mapM timestampText = .ok staleAt ∧
      timestampText score.createdAt = .ok createdAt ∧
      (∀ row ∈ t.scores, row.id ≠ score.id) ∧ stored = { score with isCurrent := true } ∧
      t' = scored t score staleAt createdAt := by
  have current_free : (t.scores.map (demote score.entity)).any (fun other =>
      other.isCurrent == 1 && other.ofEntity score.entity) = false := by
    refine List.any_eq_false.mpr fun other mem => ?_
    obtain ⟨row, -, rfl⟩ := List.mem_map.mp mem
    rw [demote]
    split
    · simp
    · rename_i earlier
      simpa [and_comm] using earlier
  have clash : ∀ staleAt createdAt, (scoreRow score staleAt createdAt).clash?
      (t.scores.map (demote score.entity)) = none ↔ ∀ row ∈ t.scores, row.id ≠ score.id := by
    intro staleAt createdAt
    have entity_eq : EntityRef.mk (scoreRow score staleAt createdAt).organization
        (scoreRow score staleAt createdAt).entityType
        (scoreRow score staleAt createdAt).entityId = score.entity := rfl
    have id_eq : (scoreRow score staleAt createdAt).id = score.id := rfl
    rw [ScoreRow.clash?, entity_eq, current_free, id_eq]
    simp [eq_comm (a := score.id)]
  rw [writeScore, Action.bind_eq_ok_iff]
  simp only [Action.ofExcept_eq_ok_iff, Action.bind_eq_ok_iff, demoteCurrent,
    Action.update_eq_ok_iff, insertScoreRow_eq_ok_iff]
  constructor
  · rintro ⟨staleAt, _, ⟨stale, rfl⟩, createdAt, _, ⟨created, rfl⟩, -, _, rfl, -, _, ⟨free, rfl⟩,
      given⟩
    obtain ⟨same, rfl⟩ := Prod.mk.inj given
    exact ⟨staleAt, createdAt, stale, created, (clash _ _).mp free, (Except.ok.inj same).symm, rfl⟩
  · rintro ⟨staleAt, createdAt, stale, created, new, rfl, rfl⟩
    exact ⟨staleAt, _, ⟨stale, rfl⟩, createdAt, _, ⟨created, rfl⟩, (), _, rfl, (), _,
      ⟨(clash _ _).mpr new, rfl⟩, rfl⟩

end Tables

end RiskRules
