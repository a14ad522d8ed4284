import RiskRules.Json.Number

/-!
JSON text is read by a machine that takes one character at a time and keeps the open brackets on a
stack, so that reading a text followed by another is reading the one and then the other
(`Reader.run_append`).
-/

namespace RiskRules.Json.Reader

open Digits (digit? hexDigit?)

/-! ### States -/

/-- An open bracket and what has been read inside, latest first. An object also holds the key that
waits for its value, and whether all its keys could be read. -/
inductive Frame where
  | array (items : List Json)
  | object (members : List (String × Json)) (key : String) (sound : Bool)

/-- Where in a string the machine stands. -/
inductive Spot where
  | plain
  | escape
  | hex (left value : Nat)

/-- A string being read: its characters so far, latest first; whether all could be read; the first
half of a surrogate pair that waits for the second. -/
structure Text where
  chars : List Char
  sound : Bool
  half : Option Nat
  spot : Spot

/-- A string at its opening quote. -/
def Text.start : Text :=
  ⟨[], true, none, .plain⟩

/-- What the machine expects next. -/
inductive State where
  | value (stack : List Frame)
  | firstItem (stack : List Frame)
  | key (stack : List Frame)
  | firstKey (stack : List Frame)
  | colon (stack : List Frame)
  | next (stack : List Frame)
  | done (result : Json)
  | text (stack : List Frame) (isKey : Bool) (text : Text)
  | number (stack : List Frame) (chars : List Char)
  | word (stack : List Frame) (left : List Char) (result : Json)
  | failed

/-! ### Transitions -/

/-- Blank space between the parts. -/
def isBlank (c : Char) : Bool :=
  c = ' ' || c = '\n' || c = '\t' || c = '\r'

/-- A value is complete: it goes into the bracket around it. -/
def complete (value : Json) : List Frame → State
  | [] => .done value
  | .array items :: rest => .next (.array (value :: items) :: rest)
  | .object members key sound :: rest =>
    .next (.object ((key, value) :: members) "" sound :: rest)

/-- A bracket closes. -/
def close (stack : List Frame) : Frame → State
  | .array items => complete (.array items.reverse) stack
  | .object members _ sound =>
    complete (if sound then .object members.reverse else .unreadable .unread) stack

/-- A value begins. -/
def begin (stack : List Frame) (c : Char) : State :=
  if c = '[' then .firstItem (.array [] :: stack)
  else if c = '{' then .firstKey (.object [] "" true :: stack)
  else if c = '"' then .text stack false .start
  else if c = 't' then .word stack ['r', 'u', 'e'] (.bool true)
  else if c = 'f' then .word stack ['a', 'l', 's', 'e'] (.bool false)
  else if c = 'n' then .word stack ['u', 'l', 'l'] .null
  else if c = '-' ∨ (digit? c).isSome then .number stack [c]
  else .failed

/-- What may follow a complete value. -/
def settle : State → Char → State
  | .done result, c => if isBlank c then .done result else .failed
  | .next (.array items :: rest), c =>
    if isBlank c then .next (.array items :: rest)
    else if c = ',' then .value (.array items :: rest)
    else if c = ']' then close rest (.array items)
    else .failed
  | .next (.object members key sound :: rest), c =>
    if isBlank c then .next (.object members key sound :: rest)
    else if c = ',' then .key (.object members key sound :: rest)
    else if c = '\x7d' then close rest (.object members key sound)
    else .failed
  | _, _ => .failed

/-- A string closes: a value, or the key of the bracket around it. -/
def closeText (stack : List Frame) (isKey : Bool) (t : Text) : State :=
  let sound := t.sound && t.half.isNone
  let s := String.ofList t.chars.reverse
  if isKey then
    match stack with
    | .object members _ keysSound :: rest =>
      .colon (.object members s (keysSound && sound) :: rest)
    | _ => .failed
  else complete (if sound then .string s else .unreadable .unread) stack

/-- A half of a surrogate pair that waited in vain makes the string unreadable. -/
def Text.dropHalf (t : Text) : Text :=
  { t with sound := t.sound && t.half.isNone, half := none }

/-- Appends a character. -/
def Text.push (t : Text) (c : Char) : Text :=
  let t := t.dropHalf
  { t with chars := c :: t.chars, spot := .plain }

/-- Takes a code unit written in hexadecimal digits. -/
def Text.unit (t : Text) (n : Nat) : Text :=
  match t.half with
  | some high =>
    if 0xDC00 ≤ n ∧ n ≤ 0xDFFF then
      let c := Char.ofNat (0x10000 + (high - 0xD800) * 0x400 + (n - 0xDC00))
      { t with chars := c :: t.chars, half := none, spot := .plain }
    else { t with sound := false, half := none, spot := .plain }
  | none =>
    if 0xD800 ≤ n ∧ n ≤ 0xDBFF then { t with half := some n, spot := .plain }
    else if 0xDC00 ≤ n ∧ n ≤ 0xDFFF then { t with sound := false, spot := .plain }
    else t.push (Char.ofNat n)

/-- The character that a letter after a backslash stands for. -/
def escaped? (c : Char) : Option Char :=
  match c with
  | '"' => some '"'
  | '\\' => some '\\'
  | '/' => some '/'
  | 'b' => some '\x08'
  | 'f' => some '\x0c'
  | 'n' => some '\n'
  | 'r' => some '\r'
  | 't' => some '\t'
  | _ => none

/-- One character inside a string. -/
def stepText (stack : List Frame) (isKey : Bool) (t : Text) (c : Char) : State :=
  match t.spot with
  | .plain =>
    if c = '"' then closeText stack isKey t
    else if c = '\\' then .text stack isKey { t with spot := .escape }
    else if c.toNat < 0x20 then .failed
    else .text stack isKey (t.push c)
  | .escape =>
    if c = 'u' then .text stack isKey { t with spot := .hex 4 0 }
    else
      match escaped? c with
      | some e => .text stack isKey (t.push e)
      | none => .failed
  | .hex left value =>
    match hexDigit? c with
    | none => .failed
    | some d =>
      if left ≤ 1 then .text stack isKey (t.unit (value * 16 + d))
      else .text stack isKey { t with spot := .hex (left - 1) (value * 16 + d) }

/-- Characters that number text is made of. -/
def inNumber (c : Char) : Bool :=
  (digit? c).isSome || c = '-' || c = '+' || c = '.' || c = 'e' || c = 'E'

/-- A number is complete. -/
def closeNumber (stack : List Frame) (chars : List Char) : State :=
  match ofNumberText chars.reverse with
  | some value => complete value stack
  | none => .failed

/-- One character. -/
def step : State → Char → State
  | .failed, _ => .failed
  | .value stack, c => if isBlank c then .value stack else begin stack c
  | .firstItem stack, c =>
    if isBlank c then .firstItem stack
    else if c = ']' then
      match stack with
      | frame :: rest => close rest frame
      | [] => .failed
    else begin stack c
  | .key stack, c =>
    if isBlank c then .key stack
    else if c = '"' then .text stack true .start
    else .failed
  | .firstKey stack, c =>
    if isBlank c then .firstKey stack
    else if c = '"' then .text stack true .start
    else if c = '\x7d' then
      match stack with
      | frame :: rest => close rest frame
      | [] => .failed
    else .failed
  | .colon stack, c =>
    if isBlank c then .colon stack
    else if c = ':' then .value stack
    else .failed
  | .next stack, c => settle (.next stack) c
  | .done result, c => settle (.done result) c
  | .text stack isKey t, c => stepText stack isKey t c
  | .number stack chars, c =>
    if inNumber c then .number stack (c :: chars) else settle (closeNumber stack chars) c
  | .word stack left result, c =>
    match left with
    | [] => .failed
    | [expected] => if c = expected then complete result stack else .failed
    | expected :: left => if c = expected then .word stack left result else .failed

/-! ### Runs -/

/-- Reads characters from a state on. -/
def run (text : List Char) (state : State) : State :=
  text.foldl step state

theorem run_append (a b : List Char) (state : State) : run (a ++ b) state = run b (run a state) :=
  List.foldl_append

/-- The value of a finished text. -/
def finish : State → Option Json
  | .done result => some result
  | .number [] chars => ofNumberText chars.reverse
  | _ => none

end RiskRules.Json.Reader

namespace RiskRules.Json

/-- The value that characters write, blank space around it allowed. -/
def ofChars (text : List Char) : Option Json :=
  Reader.finish (Reader.run text (.value []))

/-- The value that a text writes, brackets nested too deep left out; none if it is no JSON text. -/
def parse (text : String) : Option Json :=
  (ofChars text.toList).map (cut nestingLimit)

end RiskRules.Json
