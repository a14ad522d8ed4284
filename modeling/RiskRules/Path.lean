/-!
Paths of files: names between slashes. A path that begins with a slash starts at the root of the
files, any other at the working directory.
-/

namespace RiskRules.Path

/-- The most bytes of a path. -/
def maxBytes : Nat := 4096

/-- The most bytes of a name. -/
def maxNameBytes : Nat := 255

/-- What stands between slashes, empty parts included. -/
def splitSlashes : List Char → List (List Char)
  | [] => [[]]
  | c :: rest =>
    if c = '/' then [] :: splitSlashes rest
    else
      match splitSlashes rest with
      | [] => [[c]]
      | part :: parts => (c :: part) :: parts

/-- The names in a path. -/
def names (path : String) : List String :=
  ((splitSlashes path.toList).filter fun part => !part.isEmpty).map String.ofList

/-- A path has too many bytes. -/
def isLong (path : String) : Bool :=
  maxBytes < path.utf8ByteSize

/-- A name in a path has too many bytes. -/
def hasLongName (path : String) : Bool :=
  (names path).any fun name => maxNameBytes < name.utf8ByteSize

/-- A path starts at the root. -/
def isAbsolute (path : String) : Bool :=
  path.toList.head? = some '/'

/-- The names that lead somewhere: a dot stays where it is and counts only as the first name of a
relative path. -/
def components (path : String) : List String :=
  match names path with
  | [] => []
  | first :: rest =>
    (if first = "." ∧ isAbsolute path then [] else [first]) ++ rest.filter (· ≠ ".")

/-- The names that a path leads through; a slash at the end asks for a directory, as a dot there
does. -/
def steps (path : String) : List String :=
  names path ++ if path.toList.getLast? = some '/' then ["."] else []

end RiskRules.Path
