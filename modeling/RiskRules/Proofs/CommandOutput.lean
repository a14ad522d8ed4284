import RiskRules.Command
import RiskRules.Proofs.PrettyText
import RiskRules.Proofs.RecordDocuments
import RiskRules.Proofs.ShownOffsets

/-!
What a command writes. A task that gives a report writes it as one JSON document, on its own lines,
and a task that fails writes nothing, except where a timestamp in the report has no text: then the
report is there, the document is begun, and the command fails in the middle of it
(`Command.complete_or_absent_iff`). All timestamps in a report come from texts, which show their
offsets (`Command.shown_of_report`), so that only a negative year keeps one from having a text.
-/

namespace RiskRules.Command

/-! ### Reports -/

/-- What a task has to report. -/
inductive Report where
  | evaluation (e : Evaluation)
  | scenario (record : Scenario.Record)
  | scoring (record : ScoringRecord)

namespace Report

/-- The document of a report. -/
def toJson : Report → Json
  | .evaluation e => e.toJson
  | .scenario record => record.toJson
  | .scoring record => record.toJson

/-- The evaluations in a report. -/
def evaluations : Report → List Evaluation
  | .evaluation e => [e]
  | .scenario record => record.trigger :: record.rules.map Scenario.RuleRecord.evaluation
  | .scoring record => record.rules.map RuleScore.evaluation

/-- No timestamp in the report has a negative year. -/
def Dated (report : Report) : Prop :=
  ∀ e ∈ report.evaluations, ∀ t, e.Shows t → 0 ≤ t.date.year

/-- Texts show the offsets of all timestamps in the report. -/
def Shown (report : Report) : Prop :=
  ∀ e ∈ report.evaluations, e.Shown

theorem mem_gapsOfItems_map_iff {α : Type} (document : α → Json) (part : α → Evaluation)
    (gap : Gap) (items : List α)
    (each : ∀ item, gap ∈ (document item).gaps ↔ gap ∈ (part item).toJson.gaps) :
    gap ∈ Json.gapsOfItems (items.map document) ↔ ∃ e ∈ items.map part, gap ∈ e.toJson.gaps := by
  induction items with
  | nil => simp [Json.gapsOfItems]
  | cons item rest ih =>
    rw [List.map_cons, Json.gapsOfItems, List.mem_append, each, ih, List.map_cons,
      List.exists_mem_cons_iff]

/-- The gaps in the document of a report are those in its evaluations. -/
theorem mem_gaps_toJson_iff (report : Report) {gap : Gap} :
    gap ∈ report.toJson.gaps ↔ ∃ e ∈ report.evaluations, gap ∈ e.toJson.gaps := by
  cases report with
  | evaluation e => simp [toJson, evaluations]
  | scenario record =>
    have rules := mem_gapsOfItems_map_iff Scenario.RuleRecord.toJson
      Scenario.RuleRecord.evaluation gap record.rules fun rule => by
        simp [Scenario.RuleRecord.toJson, Json.gaps, Json.gapsOfMembers, Evaluation.gaps_error]
    rw [evaluations, List.exists_mem_cons_iff, ← rules]
    simp [toJson, Scenario.Record.toJson, Json.gaps, Json.gapsOfMembers]
  | scoring record =>
    have rules := mem_gapsOfItems_map_iff RuleScore.toJson RuleScore.evaluation gap record.rules
      fun rule => by simp [RuleScore.toJson, ScoreResult.toJson, Json.gaps, Json.gapsOfMembers]
    rw [evaluations, ← rules]
    simp [toJson, ScoringRecord.toJson, Json.gaps, Json.gapsOfMembers]

/-- Where offsets are shown, a gap in the document of a report is a year that has no text. -/
theorem mem_gaps_toJson_iff_of_shown {report : Report} (shown : report.Shown) {gap : Gap} :
    gap ∈ report.toJson.gaps ↔ gap = .unwritten .yearNotWritable ∧ ¬report.Dated := by
  simp only [mem_gaps_toJson_iff, Evaluation.mem_gaps_toJson_iff, Value.mem_gaps_timestamp_iff]
  have offset {e : Evaluation} (mem : e ∈ report.evaluations) {t : Timestamp} (shows : e.Shows t) :
      Rfc3339.ShownOffset t.offset := by
    obtain ⟨part, below, v, held, within⟩ := shows
    exact shown e mem part below v held t within
  constructor
  · rintro ⟨e, mem, t, shows, failure, failed, rfl⟩
    obtain rfl := Rfc3339.failure_of_shownOffset (offset mem shows) failed
    refine ⟨rfl, fun dated => ?_⟩
    have written := Rfc3339.render_eq_ok_iff.mpr ⟨⟨dated e mem t shows, offset mem shows⟩, rfl⟩
    cases failed.symm.trans written
  · rintro ⟨rfl, undated⟩
    simp only [Dated, not_forall] at undated
    obtain ⟨e, mem, t, shows, signed⟩ := undated
    refine ⟨e, mem, t, shows, .yearNotWritable, ?_, rfl⟩
    rw [Rfc3339.render, if_pos (Int.not_le.mp signed)]

theorem exists_members (report : Report) : ∃ members, report.toJson = .object members := by
  cases report with
  | evaluation e => exact ⟨_, e.toJson_eq⟩
  | scenario record => exact ⟨_, rfl⟩
  | scoring record => exact ⟨_, rfl⟩

end Report

/-! ### What tasks report -/

section

variable (s : Surroundings) (r : Registry)

/-- The record of a tree's evaluation. -/
def evaluation (tree payload : String) (lists : Option String) : Except String Evaluation := do
  let outline ← document s "tree" tree Outline.ofJson?
  let node ← restated "malformed tree: " MalformedTree.message (r.decode outline)
  let f ← facts s payload lists
  restated "" Fault.message (Evaluator.evaluate r f.toEnvironment node)

/-- The record of a scenario's run. -/
def scenarioRecord (scenario payload objectType : String) (lists : Option String) :
    Except String Scenario.Record := do
  let definition ← document s "scenario" scenario Scenario.Definition.ofJson?
  let built ← restated "invalid scenario: " DefinitionError.message (definition.build r)
  let f ← facts s payload lists
  restated "scenario evaluation failed: " Scenario.Failure.message
    (built.run r f.toEnvironment objectType)

/-- The record of an entity's score. -/
def scoringRecord (ruleset payload : String) (lists : Option String) :
    Except String ScoringRecord := do
  let definition ← document s "ruleset" ruleset Ruleset.Definition.ofJson?
  let built ← restated "invalid ruleset: " DefinitionError.message (definition.build r)
  checkShapes built.rules
  let f ← facts s payload lists
  restated "scoring failed: " ScoringError.message (Scoring.execute r f.toEnvironment built)

/-- What a task reports, if it is one that reports something. -/
def report (path : Option String) : Task → Option (Except String Report)
  | .checkConfiguration _ => none
  | .evaluate tree payload lists => some do
    return .evaluation (← evaluation s (← registry s path) tree payload lists)
  | .runScenario scenario payload objectType lists => some do
    return .scenario (← scenarioRecord s (← registry s path) scenario payload objectType lists)
  | .score ruleset payload lists => some do
    return .scoring (← scoringRecord s (← registry s path) ruleset payload lists)

end

section

variable {s : Surroundings} {path : Option String} {task : Task} {args : List String}
  {made : Except String Report}

/-- A task comes to what it reports. -/
theorem carryOut_eq_conclude (reports : report s path task = some made) :
    carryOut s path task = conclude (Report.toJson <$> made) := by
  cases task with
  | checkConfiguration => cases reports
  | evaluate tree payload lists =>
    cases reports
    simp only [carryOut, evaluate, evaluation, bind_pure_comp, map_bind, Functor.map_map]
    rfl
  | runScenario scenario payload objectType lists =>
    cases reports
    simp only [carryOut, runScenario, scenarioRecord, bind_pure_comp, map_bind, Functor.map_map]
    rfl
  | score ruleset payload lists =>
    cases reports
    simp only [carryOut, score, scoringRecord, bind_pure_comp, map_bind, Functor.map_map]
    rfl

/-- A document was read from a JSON value. -/
theorem exists_of_document {α : Type} {label file : String} {read : Json → Option α} {a : α}
    (given : document s label file read = .ok a) : ∃ j, read j = some a := by
  obtain ⟨bytes, -, given⟩ := bind_eq_ok_iff.mp given
  split at given <;> cases given
  obtain ⟨j, -, here⟩ := Option.bind_eq_some_iff.mp ‹_›
  exact ⟨j, here⟩

theorem restated_eq_ok_iff {α ε : Type} {doing : String} {message : ε → String} {x : Except ε α}
    {a : α} : restated doing message x = .ok a ↔ x = .ok a := by
  cases x <;> simp [restated]

theorem shown_of_facts {payload : String} {lists : Option String} {f : Facts}
    (given : facts s payload lists = .ok f) : f.toEnvironment.Shown := by
  obtain ⟨j, -, given⟩ := bind_eq_ok_iff.mp given
  obtain ⟨known, made, given⟩ := bind_eq_ok_iff.mp given
  have known_shown := Facts.shown_of_ofPayload (restated_eq_ok_iff.mp made)
  cases lists with
  | none =>
    cases given
    exact known_shown
  | some file =>
    obtain ⟨j, -, added⟩ := bind_eq_ok_iff.mp given
    exact Facts.shown_of_addLists known_shown (restated_eq_ok_iff.mp added)

theorem shown_of_evaluation {r : Registry} {tree payload : String} {lists : Option String}
    {e : Evaluation} (made : evaluation s r tree payload lists = .ok e) : e.Shown := by
  obtain ⟨outline, read, made⟩ := bind_eq_ok_iff.mp made
  obtain ⟨node, decoded, made⟩ := bind_eq_ok_iff.mp made
  obtain ⟨f, given, evaluated⟩ := bind_eq_ok_iff.mp made
  obtain ⟨j, read⟩ := exists_of_document read
  have node_shown := Node.shown_of_decode (Outline.shown_of_ofJson? read)
    (restated_eq_ok_iff.mp decoded)
  exact Evaluator.shown_of_evaluate node_shown (shown_of_facts given)
    (restated_eq_ok_iff.mp evaluated)

theorem shown_of_scenarioRecord {r : Registry} {scenario payload objectType : String}
    {lists : Option String} {record : Scenario.Record}
    (made : scenarioRecord s r scenario payload objectType lists = .ok record) :
    record.trigger.Shown ∧ ∀ entry ∈ record.rules, entry.evaluation.Shown := by
  obtain ⟨definition, read, made⟩ := bind_eq_ok_iff.mp made
  obtain ⟨scenario, built, made⟩ := bind_eq_ok_iff.mp made
  obtain ⟨f, given, ran⟩ := bind_eq_ok_iff.mp made
  obtain ⟨j, read⟩ := exists_of_document read
  have live_shown := Scenario.Definition.shown_of_build
    (Scenario.Definition.shown_of_ofJson? read) (restated_eq_ok_iff.mp built)
  exact Scenario.shown_of_run live_shown (shown_of_facts given) (restated_eq_ok_iff.mp ran)

theorem shown_of_scoringRecord {r : Registry} {ruleset payload : String} {lists : Option String}
    {record : ScoringRecord} (made : scoringRecord s r ruleset payload lists = .ok record) :
    ∀ entry ∈ record.rules, entry.evaluation.Shown := by
  obtain ⟨definition, read, made⟩ := bind_eq_ok_iff.mp made
  obtain ⟨ruleset, built, made⟩ := bind_eq_ok_iff.mp made
  obtain ⟨-, -, made⟩ := bind_eq_ok_iff.mp made
  obtain ⟨f, given, executed⟩ := bind_eq_ok_iff.mp made
  obtain ⟨j, read⟩ := exists_of_document read
  have rules_shown := Ruleset.Definition.shown_of_build
    (Ruleset.Definition.shown_of_ofJson? read) (restated_eq_ok_iff.mp built)
  exact Scoring.shown_of_execute rules_shown (shown_of_facts given) (restated_eq_ok_iff.mp executed)

/-- The timestamps of a report come from texts, which show their offsets. -/
theorem shown_of_report {report : Report}
    (reports : Command.report s path task = some (.ok report)) : report.Shown := by
  cases task with
  | checkConfiguration => cases reports
  | evaluate tree payload lists =>
    obtain ⟨r, -, reported⟩ := bind_eq_ok_iff.mp (Option.some.inj reports)
    obtain ⟨e, made, same⟩ := bind_eq_ok_iff.mp reported
    cases same
    exact List.forall_mem_singleton.mpr (shown_of_evaluation made)
  | runScenario scenario payload objectType lists =>
    obtain ⟨r, -, reported⟩ := bind_eq_ok_iff.mp (Option.some.inj reports)
    obtain ⟨record, made, same⟩ := bind_eq_ok_iff.mp reported
    cases same
    obtain ⟨trigger_shown, rules_shown⟩ := shown_of_scenarioRecord made
    exact List.forall_mem_cons.mpr ⟨trigger_shown, List.forall_mem_map.mpr rules_shown⟩
  | score ruleset payload lists =>
    obtain ⟨r, -, reported⟩ := bind_eq_ok_iff.mp (Option.some.inj reports)
    obtain ⟨record, made, same⟩ := bind_eq_ok_iff.mp reported
    cases same
    exact List.forall_mem_map.mpr (shown_of_scoringRecord made)

/-- A report without a gap is written as one document. -/
theorem write_of_dated {report : Report} (shown : report.Shown) (dated : report.Dated) :
    write report.toJson = .done (report.toJson.pretty ++ "\n") := by
  have whole : report.toJson.gaps = [] := List.eq_nil_iff_forall_not_mem.mpr fun gap mem =>
    ((report.mem_gaps_toJson_iff_of_shown shown).mp mem).2 dated
  have unbroken := Json.gap_charsToGap 0 report.toJson
  rw [whole, List.head?_nil, Option.map_eq_none_iff] at unbroken
  rw [write, Json.prettyToGap, unbroken]

/-- A report with a gap is begun: its opening bracket at least is written. -/
theorem write_of_not_dated {report : Report} (shown : report.Shown) (undated : ¬report.Dated) :
    ∃ text, text ≠ "" ∧ text.toList <+: report.toJson.pretty.toList ∧
      write report.toJson = .failed text ("failed to serialize output: "
        ++ Rfc3339.WriteError.yearNotWritable.message) := by
  have mem : .unwritten .yearNotWritable ∈ report.toJson.gaps :=
    (report.mem_gaps_toJson_iff_of_shown shown).mpr ⟨rfl, undated⟩
  obtain ⟨gap, first⟩ := Option.isSome_iff_exists.mp
    (List.isSome_head?.mpr (List.ne_nil_of_mem mem))
  obtain ⟨rfl, -⟩ := (report.mem_gaps_toJson_iff_of_shown shown).mp (List.mem_of_mem_head? first)
  have stopped := Json.gap_charsToGap 0 report.toJson
  rw [first, Option.map_eq_some_iff] at stopped
  obtain ⟨begun, broken, gap⟩ := stopped
  refine ⟨String.ofList begun.text, ?_, ?_, ?_⟩
  · obtain ⟨members, object⟩ := report.exists_members
    rw [object, Json.charsToGap, Option.map_eq_some_iff] at broken
    obtain ⟨inside, -, rfl⟩ := broken
    intro empty
    have nothing := congrArg String.toList empty
    rw [String.toList_ofList] at nothing
    cases nothing
  · rw [String.toList_ofList, Json.pretty, String.toList_ofList]
    exact Json.prefix_of_charsToGap broken
  · rw [write, Json.prettyToGap, broken]
    simp only [gap, Gap.message]

end

/-! ### What is written -/

/-- The output is one JSON document and a new line, or there is none because the command failed. -/
def Outcome.CompleteOrAbsent : Outcome → Prop
  | .done output => ∃ text value, output = text ++ "\n" ∧ Json.ofChars text.toList = some value
  | .failed output _ => output = ""
  | .misused => True

/-- The output of a task that reports something is complete or absent exactly if no timestamp in
the report has a negative year. A report without such a year is written to its end, a task without a
report fails with nothing written, and a report with one is begun and broken off. -/
theorem complete_or_absent_iff (s : Surroundings) {args : List String} {path : Option String}
    {task : Task} {made : Except String Report}
    (asked : CommandLine.read args = some (.run path task))
    (reports : report s path task = some made) :
    ((run s args).CompleteOrAbsent ↔ ∀ report, made = .ok report → report.Dated) ∧
    (∀ report, made = .ok report → report.Dated →
      run s args = .done (report.toJson.pretty ++ "\n")) ∧
    (∀ e, made = .error e → run s args = .failed "" e) ∧
    (∀ report, made = .ok report → ¬report.Dated → ∃ text, text ≠ "" ∧
      text.toList <+: report.toJson.pretty.toList ∧ run s args = .failed text
        ("failed to serialize output: " ++ Rfc3339.WriteError.yearNotWritable.message)) := by
  have outcome : run s args = conclude (Report.toJson <$> made) := by
    rw [run, asked]
    exact carryOut_eq_conclude reports
  rw [outcome]
  cases made with
  | error e =>
    refine ⟨iff_of_true rfl nofun, nofun, ?_, nofun⟩
    rintro _ ⟨⟩
    rfl
  | ok report =>
    have shown := shown_of_report reports
    by_cases dated : report.Dated
    · have written : conclude (Report.toJson <$> .ok report) = _ := write_of_dated shown dated
      rw [written]
      refine ⟨iff_of_true ?_ ?_, ?_, nofun, ?_⟩
      · obtain ⟨value, read⟩ := Json.exists_reread report.toJson
        refine ⟨report.toJson.pretty, value, rfl, ?_⟩
        rw [Json.pretty, String.toList_ofList, Json.ofChars_prettyChars, read]
      · rintro _ ⟨⟩
        exact dated
      · rintro _ ⟨⟩ -
        rfl
      · rintro _ ⟨⟩ undated
        exact absurd dated undated
    · obtain ⟨text, begun, part, broken⟩ := write_of_not_dated shown dated
      have written : conclude (Report.toJson <$> .ok report) = _ := broken
      rw [written]
      refine ⟨iff_of_false begun fun each => dated (each report rfl), ?_, nofun, ?_⟩
      · rintro _ ⟨⟩ here
        exact absurd here dated
      · rintro _ ⟨⟩ -
        exact ⟨text, begun, part, rfl⟩

/-! ### Documents in files -/

/-- A document that was written without blank space is read from its file. -/
theorem document_compact {α : Type} {s : Surroundings} {j : Json} (label path : String)
    (read : Json → Option α) (found : s.read path = .ok j.compact.toUTF8)
    (small : 4 * (Json.chars j).length ≤ maxDocumentBytes) : document s label path read =
      match ((Json.ofChars (Json.chars j)).map (Json.cut Json.nestingLimit)).bind read with
      | some a => .ok a
      | none => .error ("invalid " ++ label ++ " json " ++ path ++ ": ...") := by
  have bytes : content s label path = .ok j.compact.toUTF8 := by
    have fits : ¬maxDocumentBytes < j.compact.toUTF8.size :=
      Nat.not_lt.mpr ((Json.utf8ByteSize_compact_le j).trans small)
    simp only [content, found, if_neg fits]
  rw [document, bytes]
  change (match (Json.ofBytes j.compact.toUTF8).bind read with | some a => _ | none => _) = _
  rw [Json.ofBytes_toUTF8, Json.parse_compact, ← Json.ofChars_chars]
  rfl

namespace Sample

/-- The document of a constant. -/
def constant (kind : String) (value : Json) : Json :=
  .object [("name", .string "Constant"),
    ("constant", .object [("type", .string kind), ("value", value)])]

/-- The last second before the first year that has a text. -/
def beforeYearZero : Json :=
  .object [("name", .string "TimeAdd"), ("named_children", .object [
    ("timestamp", constant "timestamp" (.string "0000-01-01T00:00:00Z")),
    ("seconds", constant "int" (.int (-1)))])]

/-- A directory with a tree and an empty payload. -/
def surroundings (tree : Json) : Surroundings where
  read path := .ok (if path = "tree.json" then tree else .object []).compact.toUTF8
  settingsPath := none
  logFilter := none

def task : Task :=
  .evaluate "tree.json" "payload.json" none

def args : List String :=
  ["eval", "--tree", "tree.json", "--payload", "payload.json"]

theorem asked : CommandLine.read args = some (.run none task) := by
  decide +kernel

theorem document_payload (tree : Json) : document (surroundings tree) "payload" "payload.json" plain
    = .ok (.object []) :=
  document_compact (j := .object []) "payload" "payload.json" plain rfl (by decide)

end Sample

/-- A constant is reported and written to its end. -/
theorem constant_complete : ∃ report : Report, report.Dated ∧
    run (Sample.surroundings (Sample.constant "bool" (.bool true))) Sample.args
      = .done (report.toJson.pretty ++ "\n") := by
  have tree := document_compact (s := Sample.surroundings (Sample.constant "bool" (.bool true)))
    "tree" "tree.json" Outline.ofJson? rfl (by decide +kernel)
  have readable : ((report (Sample.surroundings (Sample.constant "bool" (.bool true))) none
      Sample.task).bind Except.toOption).any (fun report => report.toJson.readable) = true := by
    simp only [report, Sample.task, evaluation, facts, tree, Sample.document_payload]
    decide +kernel
  cases reports : report (Sample.surroundings (Sample.constant "bool" (.bool true))) none
      Sample.task with
  | none => simp [reports] at readable
  | some made =>
    cases made with
    | error e => simp [reports, Except.toOption] at readable
    | ok report =>
      have whole : report.toJson.readable = true := by
        simpa [reports, Except.toOption] using readable
      have dated : report.Dated := by
        by_contra undated
        have shown := shown_of_report reports
        have gap := (report.mem_gaps_toJson_iff_of_shown shown).mpr ⟨rfl, undated⟩
        rw [Json.readable_iff.mp whole] at gap
        cases gap
      obtain ⟨-, written, -⟩ := complete_or_absent_iff
        (Sample.surroundings (Sample.constant "bool" (.bool true))) Sample.asked reports
      exact ⟨report, dated, written report rfl dated⟩

/-- The report of the last second before the first year that has a text is begun and broken off. -/
theorem begun_before_year_zero : ∃ text,
    CommandLine.read Sample.args = some (.run none Sample.task) ∧
    run (Sample.surroundings Sample.beforeYearZero) Sample.args = .failed text
      ("failed to serialize output: " ++ Rfc3339.WriteError.yearNotWritable.message) ∧
    text ≠ "" ∧
    ¬(run (Sample.surroundings Sample.beforeYearZero) Sample.args).CompleteOrAbsent := by
  have tree := document_compact (s := Sample.surroundings Sample.beforeYearZero)
    "tree" "tree.json" Outline.ofJson? rfl (by decide +kernel)
  have broken : run (Sample.surroundings Sample.beforeYearZero) Sample.args = .failed
      ("\x7b\n  \"function\": \"TimeAdd\",\n"
        ++ "  \"return_value\": \x7b\n    \"type\": \"timestamp\",\n    \"value\": ")
      ("failed to serialize output: " ++ Rfc3339.WriteError.yearNotWritable.message) := by
    simp only [run, Sample.asked, Sample.task, carryOut, evaluate, facts, tree,
      Sample.document_payload]
    decide +kernel
  rw [broken]
  exact ⟨_, Sample.asked, rfl, by decide, by simp [Outcome.CompleteOrAbsent]⟩

end RiskRules.Command
