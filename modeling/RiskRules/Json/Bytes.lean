import RiskRules.Json.Reader
import RiskRules.Text.Utf8

/-!
JSON from bytes. Bytes that belong to no character make the string around them unreadable, and are
an error anywhere else.
-/

namespace RiskRules.Json

/-- One character, or a byte that belongs to none. -/
def Reader.stepUnit : Reader.State → Option Char → Reader.State
  | state, some c => Reader.step state c
  | .text stack isKey t, none =>
    match t.spot with
    | .plain => .text stack isKey { t.dropHalf with sound := false }
    | _ => .failed
  | _, none => .failed

/-- The value that bytes write, brackets nested too deep left out; none if they are no JSON text. -/
def ofBytes (content : ByteArray) : Option Json :=
  match String.fromUTF8? content with
  | some text => parse text
  | none =>
    let units := Utf8.decode content.toList
    (Reader.finish (units.foldl Reader.stepUnit (.value []))).map (cut nestingLimit)

end RiskRules.Json
