import RiskRules.Json.Printer
import RiskRules.Store

/-!
A store in four tables: ruleset headers, rules by position, scores by sequence number, and index
states. Bodies and thresholds are kept as JSON text, labels and timestamps as text, and what is read
back is checked. A write is a sequence of statements, each of which changes the tables or fails
without a change. It runs as a transaction (`Tables.transaction`): if one of its statements fails,
what those before it changed is undone.

Of the database below the tables, SQLite, three things are assumed. A transaction that is dropped
before its commit leaves no trace, and a commit of statements that all succeeded does not fail. A
row that violates a key of its table is refused alone, and leaves the table as it was
(`Tables.insertRow`). Texts are kept as they are, whatever their length, and the disk is never full:
the engine's own limits are not modelled, only the lengths that the store itself checks.
-/

namespace RiskRules

/-! ### Rows -/

/-- The header of a ruleset. -/
structure RulesetRow where
  organization : String
  entityType : String
  status : String
  version : Int64
  name : String
  thresholds : String
  cooldown : Int64
  deriving DecidableEq

/-- A rule of a ruleset. -/
structure RuleRow where
  organization : String
  entityType : String
  status : String
  position : Int64
  stableId : String
  name : String
  description : String
  body : String
  deriving DecidableEq

/-- A score of an entity. -/
structure ScoreRow where
  id : String
  organization : String
  entityType : String
  entityId : String
  score : Int64
  source : String
  rulesetVersion : Option Int64
  overriddenBy : Option String
  staleAt : Option String
  createdAt : String
  isCurrent : Int64
  deriving DecidableEq

/-- The state of an index. -/
structure IndexRow where
  organization : String
  table : String
  field : String
  state : String
  deriving DecidableEq

/-- The contents of the tables. Scores stand newest first, everything else oldest first. -/
structure Tables where
  rulesets : List RulesetRow
  rules : List RuleRow
  scores : List ScoreRow
  indexes : List IndexRow
  schemaVersion : Int64
  deriving DecidableEq

/-! ### Failures -/

/-- Why the tables did not give or take what they were asked. -/
inductive TablesError where
  | io (text : String)
  | db (text : String)
  | corrupt (text : String)
  | versionMismatch (version : Int64)
  | invalid (text : String)
  | tooLarge (bytes : Nat)
  deriving DecidableEq, Repr

namespace TablesError

/-- The most bytes of a rule's body. -/
def maxBodyBytes : Nat := 1048576

/-- The text of an unknown schema version. -/
def versionText (version : Int64) : String :=
  "unsupported schema version: " ++ toString version.toInt

/-- The text of a failure. -/
def message : TablesError → String
  | .io text => "sqlite store io error: " ++ text
  | .db text => "sqlite store db error: " ++ text
  | .corrupt text => "sqlite store corruption: " ++ text
  | .versionMismatch version => "sqlite store version mismatch: " ++ versionText version
  | .invalid text => "sqlite store invalid data: " ++ text
  | .tooLarge bytes =>
    "sqlite store payload too large: " ++ toString bytes ++ " bytes (max "
      ++ toString maxBodyBytes ++ ")"

/-- What the tables themselves said. -/
def text : TablesError → String
  | .io text => text
  | .db text => text
  | .corrupt text => text
  | .versionMismatch version => versionText version
  | .invalid text => text
  | .tooLarge bytes => toString bytes

/-- The failure as any store reports it. -/
def toStoreError : TablesError → StoreError
  | .io text => .io text
  | .db text => .store text
  | .corrupt text => .corrupt text
  | .versionMismatch version => .corrupt (versionText version)
  | .invalid text => .invalid text
  | .tooLarge bytes =>
    .corrupt ("rule body exceeds size limit: " ++ toString bytes ++ " bytes (max "
      ++ toString maxBodyBytes ++ ")")

/-- A key of a table would occur twice. -/
def uniqueViolated (table : String) (columns : List String) : TablesError :=
  .db ("UNIQUE constraint failed: "
    ++ ", ".intercalate (columns.map fun column => table ++ "." ++ column))

end TablesError

/-! ### Keys -/

/-- The slot that a header belongs to. -/
def RulesetRow.inSlot (row : RulesetRow) (key : PairKey) (status : String) : Bool :=
  row.organization == key.organization && row.entityType == key.entityType && row.status == status

/-- The slot that a rule belongs to. -/
def RuleRow.inSlot (row : RuleRow) (key : PairKey) (status : String) : Bool :=
  row.organization == key.organization && row.entityType == key.entityType && row.status == status

/-- Two rules of one slot. -/
def RuleRow.sameSlot (a b : RuleRow) : Bool :=
  a.organization == b.organization && a.entityType == b.entityType && a.status == b.status

/-- The entity that a score belongs to. -/
def ScoreRow.ofEntity (row : ScoreRow) (entity : EntityRef) : Bool :=
  row.organization == entity.organization && row.entityType == entity.entityType
    && row.entityId == entity.entityId

/-- The columns of a slot. -/
def slotColumns : List String :=
  ["organization_id", "entity_type", "status"]

/-- A header must be the only one of its slot. -/
def RulesetRow.clash? (row : RulesetRow) (others : List RulesetRow) : Option TablesError :=
  if others.any fun other => other.inSlot ⟨row.organization, row.entityType⟩ row.status then
    some (.uniqueViolated "rulesets" slotColumns)
  else none

/-- A rule must be the only one of its id, and of its position, in its slot. -/
def RuleRow.clash? (row : RuleRow) (others : List RuleRow) : Option TablesError :=
  if others.any fun other => row.sameSlot other && row.stableId == other.stableId then
    some (.uniqueViolated "scoring_rules" (slotColumns ++ ["stable_id"]))
  else if others.any fun other => row.sameSlot other && row.position == other.position then
    some (.uniqueViolated "scoring_rules" (slotColumns ++ ["position"]))
  else none

/-- A score must be the only current one of its entity, and the only one of its id. -/
def ScoreRow.clash? (row : ScoreRow) (others : List ScoreRow) : Option TablesError :=
  if row.isCurrent == 1 && others.any fun other =>
      other.isCurrent == 1 && other.ofEntity ⟨row.organization, row.entityType, row.entityId⟩ then
    some (.uniqueViolated "scores" ["organization_id", "entity_type", "entity_id"])
  else if others.any fun other => row.id == other.id then
    some (.uniqueViolated "scores" ["score_id"])
  else none

/-- An index must be the only one of its organization, table and field. -/
def IndexRow.clash? (row : IndexRow) (others : List IndexRow) : Option TablesError :=
  if others.any fun other => row.organization == other.organization && row.table == other.table
      && row.field == other.field then
    some (.uniqueViolated "indexes" ["organization_id", "table_name", "field_name"])
  else none

namespace Tables

/-- The schema version of the tables. -/
def knownSchema : Int64 := 1

/-- Tables without rows. -/
def empty : Tables :=
  ⟨[], [], [], [], knownSchema⟩

/-- Only tables of the known schema version are opened. -/
def checkSchema (t : Tables) : Except TablesError Unit :=
  if t.schemaVersion = knownSchema then .ok () else .error (.versionMismatch t.schemaVersion)

/-! ### Reading rulesets -/

/-- A ruleset version within 32 bits. -/
def readVersion (version : Int64) : Except TablesError UInt32 :=
  if 0 ≤ version.toInt ∧ version.toInt < 0x100000000 then .ok (UInt32.ofNat version.toInt.toNat)
  else .error (.corrupt ("invalid ruleset version " ++ toString version.toInt))

/-- Thresholds from their text. -/
def readThresholds (text : String) : Except TablesError (List Int64) :=
  match (Json.parse text).bind (·.toList? Json.toInt64?) with
  | some thresholds => .ok thresholds
  | none => .error (.corrupt "invalid thresholds: ...")

/-- A cooldown in whole seconds. -/
def readCooldown (seconds : Int64) : Except TablesError Duration :=
  if 0 ≤ seconds.toInt then .ok (.ofSeconds (UInt64.ofNat seconds.toInt.toNat))
  else .error (.corrupt ("invalid cooldown " ++ toString seconds.toInt))

/-- A rule from its row: its body is measured, read as JSON, and decoded. -/
def readRule (r : Registry) (row : RuleRow) : Except TablesError Rule :=
  let bytes := row.body.utf8ByteSize
  if TablesError.maxBodyBytes < bytes then .error (.tooLarge bytes)
  else
    match (Json.parse row.body).bind Outline.ofJson? with
    | none => .error (.corrupt ("rule " ++ row.stableId ++ " body is not valid json: ..."))
    | some outline =>
      match r.decode outline with
      | .ok body => .ok ⟨row.stableId, row.name, row.description, body⟩
      | .error e =>
        .error (.corrupt ("rule " ++ row.stableId ++ " body is malformed: " ++ e.message))

/-- The rules of a slot by position. -/
def rulesIn (t : Tables) (key : PairKey) (status : String) : List RuleRow :=
  (t.rules.filter (·.inSlot key status)).mergeSort fun a b => decide (a.position ≤ b.position)

/-- The ruleset of a header. -/
def readHeader (r : Registry) (t : Tables) (key : PairKey) (status : RulesetStatus)
    (row : RulesetRow) : Except TablesError Ruleset := do
  let version ← readVersion row.version
  let thresholds ← readThresholds row.thresholds
  let cooldown ← readCooldown row.cooldown
  let rules ← (t.rulesIn key status.label).mapM (readRule r)
  return ⟨key, version, status, row.name, thresholds, cooldown, rules⟩

/-- The ruleset in a slot. -/
def readRuleset (r : Registry) (t : Tables) (key : PairKey) (status : RulesetStatus) :
    Except TablesError (Option Ruleset) :=
  match t.rulesets.find? (·.inSlot key status.label) with
  | none => .ok none
  | some row =>
    match readHeader r t key status row with
    | .ok ruleset => .ok (some ruleset)
    | .error e => .error e

/-- The status of a label. -/
def readStatus : String → Except TablesError RulesetStatus
  | "draft" => .ok .draft
  | "committed" => .ok .committed
  | other => .error (.corrupt ("unknown ruleset status: " ++ other))

/-- A header is listed before another: by kind of entity, drafts first, then by status. -/
def listedBefore (a b : RulesetRow) : Bool :=
  a.entityType < b.entityType
    || (a.entityType == b.entityType
      && (a.status == "draft" || (b.status != "draft" && decide (a.status ≤ b.status))))

/-- The rulesets of an organization. -/
def readList (r : Registry) (t : Tables) (organization : String) :
    Except TablesError (List Ruleset) := do
  let rows := (t.rulesets.filter fun row => row.organization == organization).mergeSort
    listedBefore
  let slots ← rows.mapM fun row => do
    let status ← readStatus row.status
    readRuleset r t ⟨organization, row.entityType⟩ status
  return slots.filterMap id

/-! ### Writing rulesets -/

/-- The text of thresholds. -/
def thresholdsText (thresholds : List Int64) : String :=
  Json.compact (.array (thresholds.map fun t => .int t.toInt))

/-- The text of a body, if it can be written and is not too long. -/
def bodyText (rule : Rule) : Except TablesError String :=
  match (Outline.ofNode rule.body).toJson.written with
  | .error e => .error (.invalid e.message)
  | .ok j =>
    let text := Json.compact j
    let bytes := text.utf8ByteSize
    if TablesError.maxBodyBytes < bytes then
      .error (.invalid ("rule " ++ rule.stableId ++ " body exceeds size limit: " ++ toString bytes
        ++ " bytes (max " ++ toString TablesError.maxBodyBytes ++ ")"))
    else .ok text

/-- The texts of the bodies of a draft that can be written. -/
def draftBodies (ruleset : Ruleset) : Except TablesError (List String) := do
  if ruleset.status ≠ .draft then .error (.invalid "only draft rulesets can be replaced")
  if 0x8000000000000000 ≤ ruleset.cooldown.seconds.toNat then .error (.invalid "cooldown too large")
  ruleset.rules.mapM bodyText

/-- The header of a draft. -/
def draftRow (ruleset : Ruleset) : RulesetRow :=
  ⟨ruleset.key.organization, ruleset.key.entityType, RulesetStatus.draft.label,
    Int64.ofNat ruleset.version.toNat, ruleset.name, thresholdsText ruleset.thresholds,
    Int64.ofNat ruleset.cooldown.seconds.toNat⟩

/-- The position of a rule, if it can be counted. -/
def rulePosition (position : Nat) : Except TablesError Int64 :=
  if 0x8000000000000000 ≤ position then .error (.invalid "too many rules")
  else .ok (Int64.ofNat position)

/-- The row of a rule at a position of a draft. -/
def ruleRow (key : PairKey) (position : Int64) (rule : Rule) (body : String) : RuleRow :=
  ⟨key.organization, key.entityType, RulesetStatus.draft.label, position, rule.stableId, rule.name,
    rule.description, body⟩

/-- Adds a row to others, if it clashes with none of them. It is assumed of the database that it
refuses a row for a clash and for nothing else, in particular not for the length of its texts, and
that the refused row changes nothing. -/
def insertRow {ρ : Type} (clash? : ρ → List ρ → Option TablesError) (row : ρ) (rows : List ρ) :
    Except TablesError (List ρ) :=
  match clash? row rows with
  | some e => .error e
  | none => .ok (rows ++ [row])

/-- Adds a header. -/
def insertRuleset (row : RulesetRow) : Action Tables TablesError Unit :=
  Action.tryUpdate fun t => do
    return { t with rulesets := ← insertRow RulesetRow.clash? row t.rulesets }

/-- Adds a rule. -/
def insertRule (row : RuleRow) : Action Tables TablesError Unit :=
  Action.tryUpdate fun t => do
    return { t with rules := ← insertRow RuleRow.clash? row t.rules }

/-- Adds the rules of a draft with the texts of their bodies, one after the other from a position
on. -/
def insertRules (key : PairKey) : Nat → List (Rule × String) → Action Tables TablesError Unit
  | _, [] => pure ()
  | position, (rule, body) :: rest => do
    let place ← Action.ofExcept id (rulePosition position)
    insertRule (ruleRow key place rule body)
    insertRules key (position + 1) rest

/-- Empties a slot: first of its rules, then of its header. -/
def deleteSlot (key : PairKey) (status : String) : Action Tables TablesError Unit := do
  Action.update fun t => { t with rules := t.rules.filter fun row => !row.inSlot key status }
  Action.update fun t => { t with rulesets := t.rulesets.filter fun row => !row.inSlot key status }

/-- Moves what stands in one slot to another: first the header, then its rules. -/
def relabel (key : PairKey) (status other : String) : Action Tables TablesError Unit := do
  Action.update fun t => { t with
    rulesets := t.rulesets.map fun row =>
      if row.inSlot key status then { row with status := other } else row }
  Action.update fun t => { t with
    rules := t.rules.map fun row =>
      if row.inSlot key status then { row with status := other } else row }

/-- Puts a draft in the place of the one before. -/
def writeDraft (ruleset : Ruleset) : Action Tables TablesError Unit := do
  let bodies ← Action.ofExcept id (draftBodies ruleset)
  deleteSlot ruleset.key RulesetStatus.draft.label
  insertRuleset (draftRow ruleset)
  insertRules ruleset.key 0 (ruleset.rules.zip bodies)

/-- Moves a draft to the place of the committed ruleset and reads it there. -/
def promoteDraft (r : Registry) (key : PairKey) : Action Tables TablesError Ruleset := do
  let drafted ← Action.view fun t => t.rulesets.any (·.inSlot key RulesetStatus.draft.label)
  if !drafted then Action.fail (.invalid ("no draft ruleset for " ++ key.text))
  deleteSlot key RulesetStatus.committed.label
  relabel key RulesetStatus.draft.label RulesetStatus.committed.label
  match ← Action.consult fun t => readRuleset r t key .committed with
  | some ruleset => return ruleset
  | none => Action.fail (.corrupt "committed ruleset vanished")

/-! ### Scores -/

/-- A timestamp from its text. -/
def readTimestamp (text : String) : Except TablesError Timestamp :=
  match Rfc3339.parse text with
  | .ok t => .ok t
  | .error e => .error (.corrupt ("invalid timestamp " ++ text ++ ": " ++ e.message))

/-- A source from its label. -/
def readSource (label : String) : Except TablesError ScoreSource :=
  match ScoreSource.ofLabel? label with
  | some source => .ok source
  | none => .error (.corrupt ("unknown score source: " ++ label))

/-- A score from its row. -/
def readScore (row : ScoreRow) : Except TablesError Score := do
  let source ← readSource row.source
  let version ← row.rulesetVersion.mapM readVersion
  let staleAt ← row.staleAt.mapM readTimestamp
  let createdAt ← readTimestamp row.createdAt
  return ⟨row.id, ⟨row.organization, row.entityType, row.entityId⟩, row.score, source, version,
    row.overriddenBy, staleAt, createdAt, row.isCurrent != 0⟩

/-- The current score of an entity. -/
def readCurrent (t : Tables) (entity : EntityRef) : Except TablesError (Option Score) :=
  (t.scores.find? fun row => row.ofEntity entity && row.isCurrent == 1).mapM readScore

/-- The scores of an entity, newest first. -/
def readHistory (t : Tables) (entity : EntityRef) : Except TablesError (List Score) :=
  (t.scores.filter (·.ofEntity entity)).mapM readScore

/-- The text of a timestamp. -/
def timestampText (t : Timestamp) : Except TablesError String :=
  match Rfc3339.render t with
  | .ok text => .ok text
  | .error e => .error (.invalid e.message)

/-- The row of a current score, with the texts of its timestamps. -/
def scoreRow (score : Score) (staleAt : Option String) (createdAt : String) : ScoreRow :=
  ⟨score.id, score.entity.organization, score.entity.entityType, score.entity.entityId,
    score.score, score.source.label, score.rulesetVersion.map fun v => Int64.ofNat v.toNat,
    score.overriddenBy, staleAt, createdAt, 1⟩

/-- Makes the current score of an entity an earlier one. -/
def demoteCurrent (entity : EntityRef) : Action Tables TablesError Unit :=
  Action.update fun t => { t with
    scores := t.scores.map fun row =>
      if row.ofEntity entity && row.isCurrent == 1 then { row with isCurrent := 0 } else row }

/-- Adds a score. -/
def insertScoreRow (row : ScoreRow) : Action Tables TablesError Unit :=
  Action.tryUpdate fun t =>
    match row.clash? t.scores with
    | some e => .error e
    | none => .ok { t with scores := row :: t.scores }

/-- Adds a score as the current one of its entity. -/
def writeScore (score : Score) : Action Tables TablesError Score := do
  let staleAt ← Action.ofExcept id (score.staleAt.mapM timestampText)
  let createdAt ← Action.ofExcept id (timestampText score.createdAt)
  demoteCurrent score.entity
  insertScoreRow (scoreRow score staleAt createdAt)
  return { score with isCurrent := true }

/-! ### Indexes -/

/-- The row of an index. -/
def IndexRow.isOf (row : IndexRow) (organization : String) (index : IndexSpec) : Bool :=
  row.organization == organization && row.table == index.table && row.field == index.field

/-- The state of an index; one without a row is missing. -/
def readIndex (t : Tables) (organization : String) (index : IndexSpec) :
    Except TablesError IndexState :=
  match t.indexes.find? (IndexRow.isOf · organization index) with
  | none => .ok .missing
  | some row =>
    if row.state = "pending" then .ok .pending
    else if row.state = "ready" then .ok .ready
    else .error (.corrupt ("unknown index state: " ++ row.state))

/-- Adds a pending row for an index that has none. -/
def markPending (organization : String) (t : Tables) (index : IndexSpec) : Tables :=
  if t.indexes.any (IndexRow.isOf · organization index) then t
  else
    let row : IndexRow := ⟨organization, index.table, index.field, IndexState.pending.label⟩
    { t with indexes := t.indexes ++ [row] }

/-- Sets the row of an index to ready, adding it if there is none. -/
def markReady (organization : String) (t : Tables) (index : IndexSpec) : Tables :=
  if t.indexes.any (IndexRow.isOf · organization index) then
    { t with indexes := t.indexes.map fun row =>
        if IndexRow.isOf row organization index then { row with state := IndexState.ready.label }
        else row }
  else
    let row : IndexRow := ⟨organization, index.table, index.field, IndexState.ready.label⟩
    { t with indexes := t.indexes ++ [row] }

/-! ### The backend -/

/-- Reads the tables. -/
def reading {α : Type} (f : Tables → Except TablesError α) : Action Tables StoreError α :=
  (Action.consult f).restate TablesError.toStoreError

/-- Runs statements as a transaction: what they changed is kept only if all succeed. It is assumed
of the database that a transaction dropped at an error is rolled back whole, and that one whose
statements all succeeded can be committed. -/
def transaction {α : Type} (statements : Action Tables TablesError α) :
    Action Tables StoreError α :=
  fun t =>
    match statements t with
    | (.ok a, written) => (.ok a, written)
    | (.error e, _) => (.error e.toStoreError, t)

/-- The operations of the tables; bodies are decoded with a registry. -/
def backend (r : Registry) : Backend Tables where
  committed key := reading fun t => readRuleset r t key .committed
  draft key := reading fun t => readRuleset r t key .draft
  list organization := reading fun t => readList r t organization
  replaceDraft ruleset := transaction (writeDraft ruleset)
  commitDraft key := transaction (promoteDraft r key)
  currentScore entity := reading fun t => t.readCurrent entity
  history entity := reading fun t => t.readHistory entity
  insertScore score := transaction (writeScore score)
  indexStates organization indexes := reading fun t => indexes.mapM (t.readIndex organization)
  markPending organization indexes := Action.update fun t =>
    indexes.foldl (markPending organization) t
  markReady organization indexes := Action.update fun t =>
    indexes.foldl (markReady organization) t

end Tables

end RiskRules
