import RiskRules.LogFilter
import RiskRules.Registry
import RiskRules.Store.Location
import RiskRules.Toml.Section

/-!
The configuration of the program, in four sections: evaluation, scoring, store and logging. Whatever
is left out is as usual; whatever is there is checked, section by section, and the first setting out
of bounds is reported.
-/

namespace RiskRules

/-- How log records are written. -/
inductive LogFormat where
  | compact | json
  deriving DecidableEq, Repr

/-- The label of a log format. -/
def LogFormat.label : LogFormat → String
  | .compact => "compact"
  | .json => "json"

/-- The log format of a label. -/
def LogFormat.ofLabel? : String → Option LogFormat
  | "compact" => some .compact
  | "json" => some .json
  | _ => none

/-- The settings of the program; without a path, stores are kept in memory. -/
structure Configuration where
  maxTreeDepth : UInt64
  defaultRefresh : UInt64
  backgroundRefresh : Bool
  maxThresholds : UInt64
  storePath : Option String
  busyTimeout : UInt64
  journalMode : JournalMode
  syncMode : SyncMode
  logLevel : String
  logFormat : LogFormat
  deriving DecidableEq, Repr

/-! ### Errors -/

/-- A setting out of bounds, or a file that cannot hold settings. -/
inductive SettingError where
  | treeDepth
  | defaultRefresh
  | maxThresholds
  | blankPath (field : String)
  | longPath (field : String)
  | longName (field : String)
  | busyTimeout
  | blankLevel
  | longLevel
  | levelFilter
  | fileTooLarge
  | fileNotUtf8
  deriving DecidableEq, Repr

/-- The text of a setting out of bounds. -/
def SettingError.message : SettingError → String
  | .treeDepth => "evaluation.max_tree_depth must be between 1 and 256"
  | .defaultRefresh => "scoring.default_refresh_seconds must be greater than zero"
  | .maxThresholds => "scoring.max_thresholds must be between 1 and 1024"
  | .blankPath field => field ++ " must be non-empty"
  | .longPath field => field ++ " exceeds max length"
  | .longName field => field ++ " component too long"
  | .busyTimeout => "store.busy_timeout_ms must be at most 600000"
  | .blankLevel => "logging.level must be non-empty"
  | .longLevel => "logging.level exceeds max length"
  | .levelFilter => "logging.level is not a valid filter: ..."
  | .fileTooLarge => "config file exceeds size limit"
  | .fileNotUtf8 => "config file must be utf-8"

/-- Why there is no configuration. -/
inductive ConfigurationError where
  | io (e : FileError)
  | malformed
  | invalid (e : SettingError)
  deriving DecidableEq, Repr

/-- The text of a missing configuration. -/
def ConfigurationError.message : ConfigurationError → String
  | .io e => "config io error: " ++ e.message
  | .malformed => "config parse error: ..."
  | .invalid e => "invalid config: " ++ e.message

namespace Configuration

/-! ### Reading -/

/-- The usual settings. -/
def usual : Configuration where
  maxTreeDepth := 64
  defaultRefresh := 3600
  backgroundRefresh := true
  maxThresholds := 32
  storePath := none
  busyTimeout := StoreLocation.defaultBusyTimeout
  journalMode := .wal
  syncMode := .full
  logLevel := "info"
  logFormat := .compact

/-- The settings of a document. -/
def ofToml? (t : Toml) : Option Configuration := do
  let document ← t.section?
  let evaluation ← document.setting 0 "evaluation" (.named []) Toml.section?
  let scoring ← document.setting 1 "scoring" (.named []) Toml.section?
  let store ← document.setting 2 "store" (.named []) Toml.section?
  let logging ← document.setting 3 "logging" (.named []) Toml.section?
  return {
    maxTreeDepth := ← evaluation.setting 0 "max_tree_depth" usual.maxTreeDepth Toml.toUInt64?
    defaultRefresh :=
      ← scoring.setting 0 "default_refresh_seconds" usual.defaultRefresh Toml.toUInt64?
    backgroundRefresh :=
      ← scoring.setting 1 "background_refresh" usual.backgroundRefresh Toml.toBool?
    maxThresholds := ← scoring.setting 2 "max_thresholds" usual.maxThresholds Toml.toUInt64?
    storePath := ← store.setting 0 "path" none fun t => t.toString?.map some
    busyTimeout := ← store.setting 1 "busy_timeout_ms" usual.busyTimeout Toml.toUInt64?
    journalMode := ← store.setting 2 "journal_mode" usual.journalMode fun t =>
      t.toLabel?.bind JournalMode.ofLabel?
    syncMode := ← store.setting 3 "sync_mode" usual.syncMode fun t =>
      t.toLabel?.bind SyncMode.ofLabel?
    logLevel := ← logging.setting 0 "level" usual.logLevel Toml.toString?
    logFormat := ← logging.setting 1 "format" usual.logFormat fun t =>
      t.toLabel?.bind LogFormat.ofLabel? }

/-! ### Checks -/

/-- Passes if a condition holds. -/
def require (condition : Bool) (e : SettingError) : Except SettingError Unit :=
  if condition then .ok () else .error e

/-- Checks the names of a path. -/
def checkNames (field path : String) : Except SettingError Unit :=
  require (!Path.hasLongName path) (.longName field)

/-- Checks a path without the blank characters at its ends. -/
def checkPath (field path : String) : Except SettingError Unit := do
  let path := Blank.trim path
  require (!path.isEmpty) (.blankPath field)
  require (!Path.isLong path) (.longPath field)
  checkNames field path

/-- The most bytes of a log level. -/
def maxLevelBytes : Nat := 1024

/-- Checks a log level without the blank characters at its ends. -/
def checkLevel (level : String) : Except SettingError Unit := do
  let level := Blank.trim level
  require (!level.isEmpty) .blankLevel
  require (decide (level.utf8ByteSize ≤ maxLevelBytes)) .longLevel
  require (LogFilter.isValid level) .levelFilter

/-- Checks the settings, section by section. -/
def check (c : Configuration) : Except SettingError Unit := do
  require (1 ≤ c.maxTreeDepth && c.maxTreeDepth ≤ 256) .treeDepth
  require (c.defaultRefresh != 0) .defaultRefresh
  require (1 ≤ c.maxThresholds && c.maxThresholds ≤ 1024) .maxThresholds
  match c.storePath with
  | some path => checkPath "store.path" path
  | none => .ok ()
  require (c.busyTimeout ≤ 600000) .busyTimeout
  checkLevel c.logLevel

/-- The configuration that a document gives. -/
def ofDocument (t : Option Toml) : Except ConfigurationError Configuration :=
  match t.bind ofToml? with
  | none => .error .malformed
  | some c =>
    match c.check with
    | .ok () => .ok c
    | .error e => .error (.invalid e)

/-- The configuration that a text gives. -/
def ofText (text : String) : Except ConfigurationError Configuration :=
  ofDocument (Toml.parse text)

/-! ### Loading -/

/-- The most bytes of a file of settings. -/
def maxFileBytes : Nat := 1048576

/-- The usual path of the file of settings. -/
def usualPath : String := "risk-gate.toml"

/-- The path to load from: the one given, else that of the environment, else the usual one. -/
def resolvePath (given environment : Option String) : Except SettingError String :=
  match given, environment with
  | some path, _ => .ok path
  | none, some path => if Path.isLong path then .error (.longPath "config path") else .ok path
  | none, none => .ok usualPath

/-- The path to load from, its lengths checked. -/
def loadPath (given environment : Option String) : Except SettingError String := do
  let path ← resolvePath given environment
  require (!Path.isLong path) (.longPath "config path")
  checkNames "config path" path
  return path

/-- The configuration that the content of a file gives. -/
def ofBytes (content : ByteArray) : Except ConfigurationError Configuration :=
  if maxFileBytes < content.size then .error (.invalid .fileTooLarge)
  else
    match String.fromUTF8? content with
    | none => .error (.invalid .fileNotUtf8)
    | some text => ofText text

/-- Loads the configuration from a file. -/
def load (read : String → Except FileError ByteArray) (given environment : Option String) :
    Except ConfigurationError Configuration :=
  match loadPath given environment with
  | .error e => .error (.invalid e)
  | .ok path =>
    match read path with
    | .error e => .error (.io e)
    | .ok content => ofBytes content

/-! ### Uses -/

/-- The registry of all functions, with the depth that is set. -/
def registry (c : Configuration) : Registry :=
  Registry.standard.withMaxDepth c.maxTreeDepth.toNat

/-- Where tables are kept, if a path is set. -/
def storeLocation (c : Configuration) : Option StoreLocation :=
  c.storePath.map fun path => ⟨path, c.busyTimeout, c.journalMode, c.syncMode⟩

end Configuration

end RiskRules
