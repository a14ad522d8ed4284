import RiskRules.CommandLine
import RiskRules.Configuration
import RiskRules.Evaluator
import RiskRules.Json.Bytes
import RiskRules.Json.Printer
import RiskRules.Scenario.Document
import RiskRules.Scoring.Document
import RiskRules.Ruleset.Document

/-!
What a command does: it reads its documents one after the other, carries out its task, and writes
the record as JSON. The first thing that goes wrong ends it. A record that cannot be written to its
end has by then been written up to the part that has no text. How a reader words what is wrong with
a text is left out and shown as three dots, and nothing is said of log records.
-/

namespace RiskRules

/-- What surrounds a command: the files, and what the environment sets. -/
structure Surroundings where
  read : String → Except FileError ByteArray
  settingsPath : Option String
  logFilter : Option String

namespace Command

/-- What comes of a command: its output, or what it wrote before an error and the error. -/
inductive Outcome where
  | done (output : String)
  | failed (output error : String)
  | misused
  deriving DecidableEq, Repr

/-! ### Documents -/

/-- The most bytes of a document. -/
def maxDocumentBytes : Nat := 4194304

/-- Reads a document that may not be too large. -/
def content (s : Surroundings) (label path : String) : Except String ByteArray :=
  let failure (reason : String) := "failed to read " ++ label ++ " " ++ path ++ ": " ++ reason
  match s.read path with
  | .error e => .error (failure e.message)
  | .ok bytes =>
    if maxDocumentBytes < bytes.size then
      .error (failure ("file is " ++ toString bytes.size ++ " bytes, limit is "
        ++ toString maxDocumentBytes))
    else .ok bytes

/-- Reads a JSON document. -/
def document {α : Type} (s : Surroundings) (label path : String) (read : Json → Option α) :
    Except String α := do
  match (Json.ofBytes (← content s label path)).bind read with
  | some a => return a
  | none => .error ("invalid " ++ label ++ " json " ++ path ++ ": ...")

/-- Any JSON document without unreadable parts. -/
def plain (j : Json) : Option Json :=
  if j.readable then some j else none

/-- Restates an error behind what was being done. -/
def restated {α ε : Type} (doing : String) (message : ε → String) : Except ε α → Except String α
  | .ok a => .ok a
  | .error e => .error (doing ++ message e)

/-- Reads the facts of a payload and, if there are some, of lists. -/
def facts (s : Surroundings) (payload : String) (lists : Option String) :
    Except String Facts := do
  let f ← restated "invalid payload: " EnvironmentError.message
    (Facts.ofPayload (← document s "payload" payload plain))
  match lists with
  | none => return f
  | some path =>
    restated "invalid lists: " EnvironmentError.message
      (f.addLists (← document s "lists" path plain))

/-! ### Tasks -/

/-- Evaluates a tree. -/
def evaluate (s : Surroundings) (r : Registry) (tree payload : String) (lists : Option String) :
    Except String Json := do
  let outline ← document s "tree" tree Outline.ofJson?
  let node ← restated "malformed tree: " MalformedTree.message (r.decode outline)
  let f ← facts s payload lists
  let evaluation ← restated "" Fault.message (Evaluator.evaluate r f.toEnvironment node)
  return evaluation.toJson

/-- Runs a scenario. -/
def runScenario (s : Surroundings) (r : Registry) (scenario payload objectType : String)
    (lists : Option String) : Except String Json := do
  let definition ← document s "scenario" scenario Scenario.Definition.ofJson?
  let built ← restated "invalid scenario: " DefinitionError.message (definition.build r)
  let f ← facts s payload lists
  let record ← restated "scenario evaluation failed: " Scenario.Failure.message
    (built.run r f.toEnvironment objectType)
  return record.toJson

/-- Checks the shapes of rules. -/
def checkShapes : List Rule → Except String Unit
  | [] => .ok ()
  | rule :: rest =>
    match Ruleset.checkShape rule.body with
    | .ok () => checkShapes rest
    | .error e => .error ("invalid ruleset: rule " ++ rule.stableId ++ ": " ++ e.message)

/-- Scores an entity by a ruleset. -/
def score (s : Surroundings) (r : Registry) (ruleset payload : String) (lists : Option String) :
    Except String Json := do
  let definition ← document s "ruleset" ruleset Ruleset.Definition.ofJson?
  let built ← restated "invalid ruleset: " DefinitionError.message (definition.build r)
  checkShapes built.rules
  let f ← facts s payload lists
  let record ← restated "scoring failed: " ScoringError.message
    (Scoring.execute r f.toEnvironment built)
  return record.toJson

/-! ### Running -/

/-- Writes a record as JSON, as far as it goes. -/
def write (j : Json) : Outcome :=
  match j.prettyToGap with
  | none => .done (j.pretty ++ "\n")
  | some begun =>
    .failed (String.ofList begun.text) ("failed to serialize output: " ++ begun.gap.message)

/-- The outcome of a task that gives a record. -/
def conclude : Except String Json → Outcome
  | .ok j => write j
  | .error e => .failed "" e

/-- The settings of a file, or the usual ones. -/
def settings (s : Surroundings) : Option String → Except String Configuration
  | none => .ok .usual
  | some path =>
    restated "failed to load config: " ConfigurationError.message
      (Configuration.load s.read (some path) s.settingsPath)

/-- The registry that settings give, once their log filter is found usable. -/
def registry (s : Surroundings) (path : Option String) : Except String Registry := do
  let c ← settings s path
  let _ ← restated "" LogFilter.Unusable.message (LogFilter.choose s.logFilter c.logLevel)
  return c.registry

/-- Checks a file of settings. -/
def checkConfiguration (s : Surroundings) (path : Option String) : Outcome :=
  match Configuration.load s.read path s.settingsPath with
  | .ok _ => .done "config ok\n"
  | .error e => .failed "" ("failed to load config: " ++ e.message)

/-- Carries out a task under the settings of a file. -/
def carryOut (s : Surroundings) (path : Option String) : Task → Outcome
  | .checkConfiguration checked => checkConfiguration s checked
  | .evaluate tree payload lists =>
    conclude do evaluate s (← registry s path) tree payload lists
  | .runScenario scenario payload objectType lists =>
    conclude do runScenario s (← registry s path) scenario payload objectType lists
  | .score ruleset payload lists =>
    conclude do score s (← registry s path) ruleset payload lists

/-- The name and version of the program. -/
def version : String := "risk-gate 0.1.0\n"

/-- What comes of a command line. -/
def run (s : Surroundings) (args : List String) : Outcome :=
  match CommandLine.read args with
  | none => .misused
  | some .version => .done version
  | some (.run path task) => carryOut s path task

end Command

end RiskRules
