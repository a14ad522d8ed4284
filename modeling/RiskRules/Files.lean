import RiskRules.Path

/-!
Files and directories as they are found at a moment. A place is a list of names from the working
directory down; the root of all files is the place of the one name `/`, under which nothing is
known.
-/

namespace RiskRules

/-- What is at a place. -/
inductive FileEntry where
  | directory
  | file (content : ByteArray)

/-- What is where below the working directory. -/
structure Files where
  entries : List (List String × FileEntry)

/-- Why a file or directory cannot be had. -/
inductive FileError where
  | notFound | exists | notADirectory | isADirectory | nameTooLong | nulByte
  | other (text : String)
  deriving DecidableEq, Repr

/-- The text of an operating system's error. -/
def FileError.message : FileError → String
  | .notFound => "No such file or directory (os error 2)"
  | .exists => "File exists (os error 17)"
  | .notADirectory => "Not a directory (os error 20)"
  | .isADirectory => "Is a directory (os error 21)"
  | .nameTooLong => "File name too long (os error 36)"
  | .nulByte => "file name contained an unexpected NUL byte"
  | .other text => text

namespace Files

/-! ### Looking -/

/-- The place where a path starts. -/
def start (path : String) : List String :=
  if Path.isAbsolute path then ["/"] else []

/-- What is at a place. -/
def at? (f : Files) (place : List String) : Option FileEntry :=
  if place = [] ∨ place = ["/"] then some .directory
  else (f.entries.find? fun entry => entry.1 = place).map Prod.snd

/-- The place above a place; there is none above those where paths start. -/
def above (place : List String) : List String :=
  if place = ["/"] then place else place.dropLast

/-- Follows names from a place. -/
def walk (f : Files) (place : List String) : List String → Except FileError (List String)
  | [] => .ok place
  | name :: rest =>
    match f.at? place with
    | none => .error .notFound
    | some (.file _) => .error .notADirectory
    | some .directory =>
      if name = "." then walk f place rest
      else if name = ".." then walk f (above place) rest
      else if Path.maxNameBytes < name.utf8ByteSize then .error .nameTooLong
      else walk f (place ++ [name]) rest

/-- What a path leads to. -/
def find (f : Files) (path : String) : Except FileError FileEntry :=
  if path.isEmpty then .error .notFound
  else if path.toList.contains '\x00' then .error .nulByte
  else if Path.maxBytes ≤ path.utf8ByteSize then .error .nameTooLong
  else
    match f.walk (start path) (Path.steps path) with
    | .error e => .error e
    | .ok place =>
      match f.at? place with
      | some entry => .ok entry
      | none => .error .notFound

/-- A path leads to a directory. -/
def isDirectory (f : Files) (path : String) : Bool :=
  match f.find path with
  | .ok .directory => true
  | _ => false

/-- The content of the file that a path leads to. -/
def read (f : Files) (path : String) : Except FileError ByteArray :=
  match f.find path with
  | .ok (.file content) => .ok content
  | .ok .directory => .error .isADirectory
  | .error e => .error e

/-! ### Making directories -/

/-- Makes a directory of a name where other names lead to. -/
def makeDirectory (f : Files) (start names : List String) (name : String) :
    Except FileError Files := do
  let place ← f.walk start names
  match f.at? place with
  | none => .error .notFound
  | some (.file _) => .error .notADirectory
  | some .directory =>
    if name = "." ∨ name = ".." then .error .exists
    else
      match f.at? (place ++ [name]) with
      | some _ => .error .exists
      | none => .ok ⟨(place ++ [name], .directory) :: f.entries⟩

/-- A directory may have been there before it was to be made. -/
def orThere (f : Files) (start names : List String) (e : FileError) : Except FileError Files :=
  match f.walk start names with
  | .error _ => .error e
  | .ok place =>
    match f.at? place with
    | some .directory => .ok f
    | _ => .error e

/-- Makes a directory and those above it where they are missing; the names of its path stand last
first. -/
def makeDirectories (f : Files) (start : List String) : List String → Except FileError Files
  | [] => .ok f
  | name :: before =>
    match f.makeDirectory start before.reverse name with
    | .ok made => .ok made
    | .error .notFound => do
      let f ← makeDirectories f start before
      match f.makeDirectory start before.reverse name with
      | .ok made => .ok made
      | .error e => f.orThere start (name :: before).reverse e
    | .error e => f.orThere start (name :: before).reverse e

end Files

end RiskRules
