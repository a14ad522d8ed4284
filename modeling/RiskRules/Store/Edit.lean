import RiskRules.Store.Tables

/-!
Edits of the tables from outside the store: one column is set to a cell in the rows with a given
text in another column, or in all rows. Rows are changed one after the other, each held against all
others as they then stand; an edit that meets a violated constraint leaves the tables as they were.
-/

namespace RiskRules

/-- What a row holds in a column. -/
inductive Cell where
  | null
  | int (n : Int64)
  | text (s : String)
  deriving DecidableEq, Repr

/-- A cell shows a text. -/
def Cell.shows (text : String) : Cell → Bool
  | .null => false
  | .int n => toString n.toInt == text
  | .text s => s == text

/-! ### Columns -/

/-- A column of rows. Setting it gives no row if it cannot hold the cell. -/
structure Column (ρ : Type) where
  name : String
  get : ρ → Cell
  set : Cell → ρ → Option ρ

namespace Column

variable {ρ : Type}

/-- The text that a column of texts keeps of a cell. -/
def textOf? : Cell → Option String
  | .null => none
  | .int n => some (toString n.toInt)
  | .text s => some s

/-- The integer that a column of integers keeps of a cell. -/
def intOf? : Cell → Option Int64
  | .null => none
  | .int n => some n
  | .text s => s.toInt?.map Int64.ofInt

/-- A column of texts. -/
def text (name : String) (get : ρ → String) (set : String → ρ → ρ) : Column ρ :=
  ⟨name, fun row => .text (get row), fun cell row => (textOf? cell).map (set · row)⟩

/-- A column of integers. -/
def int (name : String) (get : ρ → Int64) (set : Int64 → ρ → ρ) : Column ρ :=
  ⟨name, fun row => .int (get row), fun cell row => (intOf? cell).map (set · row)⟩

/-- A column of texts that may be missing. -/
def optionalText (name : String) (get : ρ → Option String) (set : Option String → ρ → ρ) :
    Column ρ :=
  ⟨name, fun row => ((get row).map Cell.text).getD .null,
    fun cell row => some (set (textOf? cell) row)⟩

/-- A column of integers that may be missing. -/
def optionalInt (name : String) (get : ρ → Option Int64) (set : Option Int64 → ρ → ρ) : Column ρ :=
  ⟨name, fun row => ((get row).map Cell.int).getD .null,
    fun cell row => some (set (intOf? cell) row)⟩

end Column

/-- The columns of ruleset headers. -/
def RulesetRow.columns : List (Column RulesetRow) :=
  [.text "organization_id" organization fun s row => { row with organization := s },
    .text "entity_type" entityType fun s row => { row with entityType := s },
    .text "status" status fun s row => { row with status := s },
    .int "version" version fun n row => { row with version := n },
    .text "name" name fun s row => { row with name := s },
    .text "thresholds_json" thresholds fun s row => { row with thresholds := s },
    .int "cooldown_seconds" cooldown fun n row => { row with cooldown := n }]

/-- The columns of rules. -/
def RuleRow.columns : List (Column RuleRow) :=
  [.text "organization_id" organization fun s row => { row with organization := s },
    .text "entity_type" entityType fun s row => { row with entityType := s },
    .text "status" status fun s row => { row with status := s },
    .int "position" position fun n row => { row with position := n },
    .text "stable_id" stableId fun s row => { row with stableId := s },
    .text "name" name fun s row => { row with name := s },
    .text "description" description fun s row => { row with description := s },
    .text "ast_json" body fun s row => { row with body := s }]

/-- The columns of scores. -/
def ScoreRow.columns : List (Column ScoreRow) :=
  [.text "score_id" id fun s row => { row with id := s },
    .text "organization_id" organization fun s row => { row with organization := s },
    .text "entity_type" entityType fun s row => { row with entityType := s },
    .text "entity_id" entityId fun s row => { row with entityId := s },
    .int "score" score fun n row => { row with score := n },
    .text "source" source fun s row => { row with source := s },
    .optionalInt "ruleset_version" rulesetVersion fun n row => { row with rulesetVersion := n },
    .optionalText "overridden_by" overriddenBy fun s row => { row with overriddenBy := s },
    .optionalText "stale_at" staleAt fun s row => { row with staleAt := s },
    .text "created_at" createdAt fun s row => { row with createdAt := s },
    .int "is_current" isCurrent fun n row => { row with isCurrent := n }]

/-- The columns of index states. -/
def IndexRow.columns : List (Column IndexRow) :=
  [.text "organization_id" organization fun s row => { row with organization := s },
    .text "table_name" table fun s row => { row with table := s },
    .text "field_name" field fun s row => { row with field := s },
    .text "state" state fun s row => { row with state := s }]

/-- The column of the schema version. -/
def schemaColumns : List (Column Int64) :=
  [.int "version" id fun n _ => n]

/-! ### Edits -/

/-- An edit of a column of a table, in the rows with a text in another column or in all rows. -/
structure Edit where
  table : String
  column : String
  cell : Cell
  condition : Option (String × String)
  deriving DecidableEq, Repr

namespace Edit

variable {ρ : Type}

/-- An unknown column. -/
def noColumn (name : String) : TablesError :=
  .db ("no such column: " ++ name)

/-- A column that must hold something would hold nothing. -/
def missingCell (e : Edit) : TablesError :=
  .db ("NOT NULL constraint failed: " ++ e.table ++ "." ++ e.column)

/-- The column of a name. -/
def columnOf (columns : List (Column ρ)) (name : String) : Except TablesError (Column ρ) :=
  match columns.find? (·.name == name) with
  | some column => .ok column
  | none => .error (noColumn name)

/-- Which rows an edit is about. -/
def matcher (e : Edit) (columns : List (Column ρ)) : Except TablesError (ρ → Bool) :=
  match e.condition with
  | none => .ok fun _ => true
  | some (name, text) => do
    let column ← columnOf columns name
    return fun row => (column.get row).shows text

/-- Sets a column in the matching rows among those left, after the rows already done; the number of
matching rows, and all rows. -/
def rowsFrom (e : Edit) (column : Column ρ) (isMatch : ρ → Bool)
    (clash? : ρ → List ρ → Option TablesError) :
    List ρ → List ρ → Except TablesError (Nat × List ρ)
  | done, [] => .ok (0, done)
  | done, row :: rest =>
    if isMatch row then
      match column.set e.cell row with
      | none => .error e.missingCell
      | some changed =>
        match clash? changed (done ++ rest) with
        | some error => .error error
        | none => do
          let (count, rows) ← rowsFrom e column isMatch clash? (done ++ [changed]) rest
          return (count + 1, rows)
    else rowsFrom e column isMatch clash? (done ++ [row]) rest

/-- Edits rows, oldest first. -/
def rows (e : Edit) (columns : List (Column ρ)) (clash? : ρ → List ρ → Option TablesError)
    (rows : List ρ) : Except TablesError (Nat × List ρ) := do
  let column ← columnOf columns e.column
  let isMatch ← e.matcher columns
  rowsFrom e column isMatch clash? [] rows

/-- Edits the table that an edit names: the number of matching rows, and the tables after it. -/
def apply (e : Edit) (t : Tables) : Except TablesError (Nat × Tables) :=
  match e.table with
  | "rulesets" => do
    let (count, rows) ← e.rows RulesetRow.columns RulesetRow.clash? t.rulesets
    return (count, { t with rulesets := rows })
  | "scoring_rules" => do
    let (count, rows) ← e.rows RuleRow.columns RuleRow.clash? t.rules
    return (count, { t with rules := rows })
  | "scores" => do
    let (count, rows) ← e.rows ScoreRow.columns ScoreRow.clash? t.scores.reverse
    return (count, { t with scores := rows.reverse })
  | "indexes" => do
    let (count, rows) ← e.rows IndexRow.columns IndexRow.clash? t.indexes
    return (count, { t with indexes := rows })
  | "store_meta" => do
    let (count, rows) ← e.rows schemaColumns (fun _ _ => none) [t.schemaVersion]
    return (count, { t with schemaVersion := rows.headD t.schemaVersion })
  | other => .error (.db ("no such table: " ++ other))

end Edit

end RiskRules
