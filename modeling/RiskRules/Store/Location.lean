import RiskRules.Files
import RiskRules.Json.Fields
import RiskRules.Store.Tables

/-!
Where tables are kept: the path of their file, and how writes to it are journalled and made durable.
Opening checks the path, makes the directories above the file, and takes only a file that is new or
empty for tables.
-/

namespace RiskRules

/-- How a transaction can be undone: with a log of what is new, or a copy of what was. -/
inductive JournalMode where
  | wal | delete
  deriving DecidableEq, Repr

/-- The label of a way of journalling. -/
def JournalMode.label : JournalMode → String
  | .wal => "wal"
  | .delete => "delete"

/-- The way of journalling of a label. -/
def JournalMode.ofLabel? : String → Option JournalMode
  | "wal" => some .wal
  | "delete" => some .delete
  | _ => none

/-- How often writes are made durable. -/
inductive SyncMode where
  | full | normal
  deriving DecidableEq, Repr

/-- The label of a degree of durability. -/
def SyncMode.label : SyncMode → String
  | .full => "full"
  | .normal => "normal"

/-- The degree of durability of a label. -/
def SyncMode.ofLabel? : String → Option SyncMode
  | "full" => some .full
  | "normal" => some .normal
  | _ => none

/-- Where tables are kept. -/
structure StoreLocation where
  path : String
  busyTimeout : UInt64
  journalMode : JournalMode
  syncMode : SyncMode
  deriving DecidableEq, Repr

namespace StoreLocation

/-- The usual milliseconds to wait for another writer. -/
def defaultBusyTimeout : UInt64 := 5000

/-- A path, with everything else as usual. -/
def ofPath (path : String) : StoreLocation :=
  ⟨path, defaultBusyTimeout, .wal, .full⟩

/-- Reads a location. -/
def ofJson? (j : Json) : Option StoreLocation := do
  let f ← j.fields? ["path", "busy_timeout_ms", "journal_mode", "sync_mode"]
  return ⟨← f.required "path" Json.toString?,
    ← f.default "busy_timeout_ms" defaultBusyTimeout Json.toUInt64?,
    ← f.default "journal_mode" .wal fun j => j.toLabel?.bind JournalMode.ofLabel?,
    ← f.default "sync_mode" .full fun j => j.toLabel?.bind SyncMode.ofLabel?⟩

/-! ### Checks -/

/-- Checks the lengths of a path and of its names. -/
def checkLengths (path : String) : Except TablesError Unit :=
  if Path.isLong path then .error (.invalid "store path exceeds length limit")
  else if Path.hasLongName path then .error (.invalid "store path contains an overlong component")
  else .ok ()

/-- Checks that a path may be that of a file. -/
def checkPath (f : Files) (path : String) : Except TablesError Unit := do
  checkLengths path
  if f.isDirectory path then .error (.invalid "store path must be a file, not a directory")

/-- Makes the directories above a file. -/
def makeParents (f : Files) (path : String) : Except TablesError Files :=
  match (Path.components path).reverse with
  | [] => .error (.io "store path missing parent directory")
  | _ :: before =>
    if before.any (·.toList.contains '\x00') then .error (.io FileError.nulByte.message)
    else
      match f.makeDirectories (Files.start path) before with
      | .ok f => .ok f
      | .error e => .error (.io e.message)

/-! ### Opening -/

/-- The most bytes of a path to a database. -/
def maxDatabasePath : Nat := 512

/-- The bytes that the name of a journal adds to that of its database. -/
def journalNameBytes : Nat := 8

/-- The file that cannot be opened. -/
def cannotOpen (path : String) : TablesError :=
  .db ("unable to open database file: " ++ path)

/-- A file that holds something else. -/
def notADatabase : TablesError :=
  .db "file is not a database"

/-- A path without dots: two of them take back the name before. -/
def plainPlace (start : List String) (names : List String) : List String :=
  names.foldl (fun place name =>
    if name = "." then place else if name = ".." then Files.above place else place ++ [name]) start

/-- Begins tables in a file, next to which a journal must be able to stand. -/
def beginTables (place : List String) : Except TablesError Tables :=
  if (place.getLastD "").utf8ByteSize + journalNameBytes ≤ Path.maxNameBytes then .ok .empty
  else .error (.db "unable to open database file")

/-- Opens the file at a place: one with a content is no database. -/
def openPlace (f : Files) (path : String) (place : List String) : Except TablesError Tables :=
  if maxDatabasePath < ("/".intercalate place).utf8ByteSize then .error (cannotOpen path)
  else
    match f.at? place with
    | some .directory => .error (cannotOpen path)
    | some (.file content) =>
      if content.size = 0 then beginTables place else .error notADatabase
    | none => beginTables place

/-- Opens the file that a path leads to. -/
def openFile (f : Files) (path : String) : Except TablesError Tables :=
  let front := path.toList.takeWhile (· ≠ '\x00')
  if front.length < path.toList.length then
    .error (.db ("nul byte found in provided data at position: "
      ++ toString (String.ofList front).utf8ByteSize))
  else openPlace f path (plainPlace (Files.start path) (Path.names path))

/-- Opens tables at a location. -/
def openTables (f : Files) (location : StoreLocation) : Except TablesError Tables := do
  checkPath f location.path
  openFile (← makeParents f location.path) location.path

end StoreLocation

end RiskRules
