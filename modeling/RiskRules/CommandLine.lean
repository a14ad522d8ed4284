/-!
The command line. Options are written `--name value` or `--name=value`, each at most once; a value
that follows its name must not look like an option. The option `--config` may stand before or after
the names of the task.
-/

namespace RiskRules

/-- What the program is asked to do, with the paths of the documents for it. -/
inductive Task where
  | evaluate (tree payload : String) (lists : Option String)
  | runScenario (scenario payload objectType : String) (lists : Option String)
  | score (ruleset payload : String) (lists : Option String)
  | checkConfiguration (path : Option String)
  deriving DecidableEq, Repr

/-- The paths that a task names. -/
def Task.paths : Task → List String
  | .evaluate tree payload lists => tree :: payload :: lists.toList
  | .runScenario scenario payload _ lists => scenario :: payload :: lists.toList
  | .score ruleset payload lists => ruleset :: payload :: lists.toList
  | .checkConfiguration path => path.toList

/-- What a command line asks for: a task under the settings of a file, or the version. -/
inductive Request where
  | run (settings : Option String) (task : Task)
  | version
  deriving DecidableEq, Repr

/-- The paths that a command line names. -/
def Request.paths : Request → List String
  | .run settings task => settings.toList ++ task.paths
  | .version => []

namespace CommandLine

/-! ### Options -/

/-- Values by the names of their options. -/
abbrev Values := List (String × String)

/-- The name and, after an equals sign, the value of an option. -/
def option? (arg : String) : Option (String × Option String) :=
  match arg.toList with
  | '-' :: '-' :: first :: rest =>
    match (first :: rest).span (· ≠ '=') with
    | (name, []) => some (String.ofList name, none)
    | (name, _ :: value) => some (String.ofList name, some (String.ofList value))
  | _ => none

/-- An argument looks like an option: it begins with a dash that is not all of it. -/
def looksLikeOption (arg : String) : Bool :=
  match arg.toList with
  | '-' :: _ :: _ => true
  | _ => false

/-- Takes up the value of an option that is among those known and has none yet. Only the type of an
object may be an empty value. -/
def take? (known : List String) (found : Values) (name value : String) : Option Values :=
  if name ∈ known ∧ (found.lookup name).isNone ∧ (value ≠ "" ∨ name = "object-type") then
    some ((name, value) :: found)
  else none

/-- The options that end a command line. -/
def options (known : List String) : Values → List String → Option Values
  | found, [] => some found
  | found, [arg] =>
    match option? arg with
    | some (name, some value) => take? known found name value
    | some (_, none) => none
    | none => if arg = "--" then some found else none
  | found, arg :: next :: rest =>
    match option? arg with
    | some (name, some value) => do options known (← take? known found name value) (next :: rest)
    | some (name, none) =>
      if looksLikeOption next then none
      else do options known (← take? known found name next) rest
    | none => none

/-- Where the options before a name end. -/
inductive Front where
  | word (found : Values) (word : String) (rest : List String)
  | version
  deriving DecidableEq, Repr

/-- An argument asks for the version. -/
def asksVersion (arg : String) : Bool :=
  arg = "--version" || "-V".isPrefixOf arg

/-- The options before a name; the version may be asked for among them if `atTop` is set. -/
def front (atTop : Bool) (known : List String) : Values → List String → Option Front
  | _, [] => none
  | found, [arg] =>
    if atTop && asksVersion arg then some .version
    else if looksLikeOption arg then none
    else some (.word found arg [])
  | found, arg :: next :: rest =>
    if atTop && asksVersion arg then some .version
    else
      match option? arg with
      | some (name, some value) => do
        front atTop known (← take? known found name value) (next :: rest)
      | some (name, none) =>
        if looksLikeOption next then none
        else do front atTop known (← take? known found name next) rest
      | none => if looksLikeOption arg then none else some (.word found arg (next :: rest))

/-! ### Tasks -/

/-- The settings file of a task and the task. -/
abbrev Reading := Option String × Task

/-- A task of which the options are left to read. -/
def taskOf (word : String) (rest : List String) : Option Reading :=
  match word with
  | "eval" => do
    let v ← options ["config", "tree", "payload", "lists"] [] rest
    return (v.lookup "config",
      .evaluate (← v.lookup "tree") (← v.lookup "payload") (v.lookup "lists"))
  | "scenario" => do
    let v ← options ["config", "scenario", "payload", "object-type", "lists"] [] rest
    return (v.lookup "config", .runScenario (← v.lookup "scenario") (← v.lookup "payload")
      (← v.lookup "object-type") (v.lookup "lists"))
  | "score" => do
    let v ← options ["config", "ruleset", "payload", "lists"] [] rest
    return (v.lookup "config",
      .score (← v.lookup "ruleset") (← v.lookup "payload") (v.lookup "lists"))
  | "config" => do
    match ← front false ["config"] [] rest with
    | .word found "validate" rest =>
      let v ← options ["config", "path"] [] rest
      return (v.lookup "config" <|> found.lookup "config", .checkConfiguration (v.lookup "path"))
    | _ => none
  | _ => none

/-- What a command line asks for; none if it cannot be understood. -/
def read (args : List String) : Option Request := do
  match ← front true ["config"] [] args with
  | .version => return .version
  | .word found word rest =>
    let (settings, task) ← taskOf word rest
    return .run (settings <|> found.lookup "config") task

end CommandLine

end RiskRules
