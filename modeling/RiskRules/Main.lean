import RiskRules.Command

/-!
The program. The files that may be wanted are read at the start, the command is carried out on what
was found in them, and its output or error is written.
-/

namespace RiskRules

/-- Why the system could not read a file. -/
def FileError.ofSystem : IO.Error → FileError
  | .noFileOrDirectory .. => .notFound
  | .inappropriateType _ 20 _ => .notADirectory
  | .inappropriateType _ 21 _ => .isADirectory
  | .permissionDenied _ code details | .invalidArgument _ code details
  | .resourceExhausted _ code details =>
    .other (details ++ " (os error " ++ toString code ++ ")")
  | e => .other (toString e)

/-- Reads the files at paths. -/
def readAll : List String → IO (List (String × Except FileError ByteArray))
  | [] => return []
  | path :: rest => do
    let content ← try Except.ok <$> IO.FS.readBinFile path
      catch e => pure (.error (FileError.ofSystem e))
    return (path, content) :: (← readAll rest)

/-- The paths of the files that a command may want. -/
def wanted (args : List String) (settingsPath : Option String) : List String :=
  Configuration.usualPath :: settingsPath.toList
    ++ ((CommandLine.read args).map Request.paths).getD []

/-- How the program is to be called. -/
def usage : String :=
  "usage: risk-gate [--config PATH] (eval | scenario | score | config validate) OPTIONS"

/-- Carries out the command of a command line and gives the code to end with. -/
def perform (args : List String) : IO UInt32 := do
  let settingsPath ← IO.getEnv "RISK_GATE_CONFIG"
  let logFilter ← IO.getEnv "RUST_LOG"
  let contents ← readAll (wanted args settingsPath)
  let read (path : String) := (contents.lookup path).getD (.error .notFound)
  match Command.run ⟨read, settingsPath, logFilter⟩ args with
  | .done output =>
    IO.print output
    return 0
  | .failed output error =>
    IO.print output
    IO.eprintln error
    return 1
  | .misused =>
    IO.eprintln usage
    return 2

end RiskRules

/-- The program. -/
def main (args : List String) : IO UInt32 :=
  RiskRules.perform args
