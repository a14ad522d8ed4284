import RiskRules.Json.Reader

/-!
JSON text written from a value: `Json.compact` without blank space, `Json.pretty` with one member a
line, two spaces deeper in each bracket. Characters outside ASCII stay as they are.
-/

namespace RiskRules.Json

/-! ### Strings and numbers -/

/-- A hexadecimal digit. -/
def hexChar (n : Nat) : Char :=
  if n < 10 then Char.ofNat (48 + n) else Char.ofNat (87 + n)

/-- A character inside quotes. -/
def escape (c : Char) : List Char :=
  match c with
  | '"' => ['\\', '"']
  | '\\' => ['\\', '\\']
  | '\x08' => ['\\', 'b']
  | '\x0c' => ['\\', 'f']
  | '\n' => ['\\', 'n']
  | '\r' => ['\\', 'r']
  | '\t' => ['\\', 't']
  | c =>
    if c.toNat < 0x20 then
      ['\\', 'u', '0', '0', hexChar (c.toNat / 16), hexChar (c.toNat % 16)]
    else [c]

/-- A string in quotes. -/
def quoted (s : String) : List Char :=
  '"' :: s.toList.flatMap escape ++ ['"']

/-- An integer. -/
def intText (n : Int) : List Char :=
  if n < 0 then '-' :: Nat.toDigits 10 n.natAbs else Nat.toDigits 10 n.natAbs

/-- A number; one that is infinite or no number is written as null. -/
def floatText (x : Float) : List Char :=
  match Binary64.ofFloat x with
  | .finite negative mantissa exponent => (Decimal.render negative mantissa exponent).toList
  | _ => ['n', 'u', 'l', 'l']

/-- A value without parts; null for the rest. -/
def leafText : Json → List Char
  | .bool true => ['t', 'r', 'u', 'e']
  | .bool false => ['f', 'a', 'l', 's', 'e']
  | .int n => intText n
  | .float x => floatText x
  | .string s => quoted s
  | _ => ['n', 'u', 'l', 'l']

/-! ### Without blank space -/

mutual

/-- The text of a value. -/
def chars : Json → List Char
  | .array items => '[' :: itemChars true items
  | .object members => '\x7b' :: memberChars true members
  | leaf => leafText leaf

/-- The items of an array and its closing bracket; commas stand between them. -/
def itemChars (first : Bool) : List Json → List Char
  | [] => [']']
  | item :: rest => (if first then [] else [',']) ++ chars item ++ itemChars false rest

/-- The members of an object and its closing bracket; commas stand between them. -/
def memberChars (first : Bool) : List (String × Json) → List Char
  | [] => ['\x7d']
  | (key, value) :: rest =>
    (if first then [] else [',']) ++ quoted key ++ ':' :: chars value ++ memberChars false rest

end

/-- The text of a value without blank space. -/
def compact (j : Json) : String :=
  String.ofList (chars j)

/-! ### One member a line -/

/-- A new line at a depth. -/
def newline (depth : Nat) : List Char :=
  '\n' :: List.replicate (2 * depth) ' '

mutual

/-- The text of a value whose bracket stands at a depth. -/
def prettyChars (depth : Nat) : Json → List Char
  | .array [] => ['[', ']']
  | .array items => '[' :: prettyItems depth true items
  | .object [] => ['\x7b', '\x7d']
  | .object members => '\x7b' :: prettyMembers depth true members
  | leaf => leafText leaf

/-- The items of an array, each on a line, and its closing bracket. -/
def prettyItems (depth : Nat) (first : Bool) : List Json → List Char
  | [] => newline depth ++ [']']
  | item :: rest =>
    (if first then [] else [',']) ++ newline (depth + 1) ++ prettyChars (depth + 1) item
      ++ prettyItems depth false rest

/-- The members of an object, each on a line, and its closing bracket. -/
def prettyMembers (depth : Nat) (first : Bool) : List (String × Json) → List Char
  | [] => newline depth ++ ['\x7d']
  | (key, value) :: rest =>
    (if first then [] else [',']) ++ newline (depth + 1) ++ quoted key ++ ':' :: ' '
      :: prettyChars (depth + 1) value ++ prettyMembers depth false rest

end

/-- The text of a value with one member a line. -/
def pretty (j : Json) : String :=
  String.ofList (prettyChars 0 j)

/-! ### Up to a gap -/

/-- What was written before a gap, and the gap. -/
structure Begun where
  text : List Char
  gap : Gap

/-- What was written, behind something else. -/
def Begun.behind (lead : List Char) (begun : Begun) : Begun :=
  ⟨lead ++ begun.text, begun.gap⟩

mutual

/-- The text of a value up to its first unreadable part, if it has one. -/
def charsToGap (depth : Nat) : Json → Option Begun
  | .unreadable gap => some ⟨[], gap⟩
  | .array items => (itemsToGap depth true items).map (.behind ['['])
  | .object members => (membersToGap depth true members).map (.behind ['\x7b'])
  | _ => none

/-- The text of items up to the first unreadable part, if there is one. -/
def itemsToGap (depth : Nat) (first : Bool) : List Json → Option Begun
  | [] => none
  | item :: rest =>
    let lead := (if first then [] else [',']) ++ newline (depth + 1)
    match charsToGap (depth + 1) item with
    | some begun => some (begun.behind lead)
    | none => (itemsToGap depth false rest).map (.behind (lead ++ prettyChars (depth + 1) item))

/-- The text of members up to the first unreadable part, if there is one. -/
def membersToGap (depth : Nat) (first : Bool) : List (String × Json) → Option Begun
  | [] => none
  | (key, value) :: rest =>
    let lead := (if first then [] else [',']) ++ newline (depth + 1) ++ quoted key ++ [':', ' ']
    match charsToGap (depth + 1) value with
    | some begun => some (begun.behind lead)
    | none => (membersToGap depth false rest).map (.behind (lead ++ prettyChars (depth + 1) value))

end

/-- The text of a value with one member a line, up to its first unreadable part, if it has one. -/
def prettyToGap (j : Json) : Option Begun :=
  charsToGap 0 j

end RiskRules.Json
