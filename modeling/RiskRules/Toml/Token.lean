import RiskRules.Text.Digits

/-!
The tokens of TOML text, read by a machine that takes one character at a time. Words are told apart
only later, for what is a key in one place is a number in another.
-/

namespace RiskRules.Toml

open Digits (hexDigit?)

/-- A token. Blanks and words keep their characters, strings say whether they may run over lines. -/
inductive Token where
  | newline
  | blank (chars : List Char)
  | equals
  | comma
  | dot
  | openBracket
  | closeBracket
  | openBrace
  | closeBrace
  | word (chars : List Char)
  | quoted (s : String) (long : Bool)
  deriving DecidableEq, Repr

namespace Token

/-! ### States -/

/-- Where in the text the machine stands; characters read so far stand latest first. A string
between triple quotes is `long`, and `quotes` counts the quotes that may close it. -/
inductive Spot where
  | between
  | blank (chars : List Char)
  | word (chars : List Char)
  | comment
  | opening (quote : Char) (count : Nat)
  | short (quote : Char) (chars : List Char)
  | longStart (quote : Char)
  | long (quote : Char) (chars : List Char) (quotes : Nat)
  | escape (isLong : Bool) (chars : List Char)
  | hex (isLong : Bool) (chars : List Char) (left value : Nat)
  | folding (chars : List Char) (pastLine : Bool)
  | failed

/-- The tokens so far, latest first, and the spot. -/
structure State where
  tokens : List Token
  spot : Spot

/-! ### Transitions -/

/-- A character that text may hold on one line. -/
def isPlain (c : Char) : Bool :=
  c = '\t' || (0x20 ≤ c.toNat && c.toNat != 0x7F)

/-- Blank space within a line, the first half of a line's end included. -/
def isBlank (c : Char) : Bool :=
  c = ' ' || c = '\t' || c = '\r'

/-- The token that a character is on its own. -/
def mark? (c : Char) : Option Token :=
  match c with
  | '\n' => some .newline
  | '=' => some .equals
  | ',' => some .comma
  | '.' => some .dot
  | '[' => some .openBracket
  | ']' => some .closeBracket
  | '\x7b' => some .openBrace
  | '\x7d' => some .closeBrace
  | _ => none

/-- A character between tokens. -/
def begin (tokens : List Token) (c : Char) : State :=
  match mark? c with
  | some token => ⟨token :: tokens, .between⟩
  | none =>
    if isBlank c then ⟨tokens, .blank [c]⟩
    else if c = '#' then ⟨tokens, .comment⟩
    else if c = '"' ∨ c = '\'' then ⟨tokens, .opening c 1⟩
    else ⟨tokens, .word [c]⟩

/-- A string is complete. -/
def quote (chars : List Char) (isLong : Bool) : Token :=
  .quoted (String.ofList chars.reverse) isLong

/-- A character in a string between single marks. -/
def stepShort (tokens : List Token) (q : Char) (chars : List Char) (c : Char) : State :=
  if c = q then ⟨quote chars false :: tokens, .between⟩
  else if c = '\\' ∧ q = '"' then ⟨tokens, .escape false chars⟩
  else if isPlain c then ⟨tokens, .short q (c :: chars)⟩
  else ⟨tokens, .failed⟩

/-- A character in a string between triple quotes: of up to five quotes in a row the last three
close it. -/
def stepLong (tokens : List Token) (q : Char) (chars : List Char) (quotes : Nat) (c : Char) :
    State :=
  if c = q then
    if quotes < 4 then ⟨tokens, .long q chars (quotes + 1)⟩
    else ⟨quote (q :: q :: chars) true :: tokens, .between⟩
  else if 3 ≤ quotes then begin (quote (List.replicate (quotes - 3) q ++ chars) true :: tokens) c
  else
    let chars := List.replicate quotes q ++ chars
    if c = '\\' ∧ q = '"' then ⟨tokens, .escape true chars⟩
    else if isPlain c ∨ c = '\n' ∨ c = '\r' then ⟨tokens, .long q (c :: chars) 0⟩
    else ⟨tokens, .failed⟩

/-- The string goes on after an escape. -/
def resume (isLong : Bool) (chars : List Char) : Spot :=
  if isLong then .long '"' chars 0 else .short '"' chars

/-- The character that a letter after a backslash stands for. -/
def escaped? (c : Char) : Option Char :=
  match c with
  | '"' => some '"'
  | '\\' => some '\\'
  | 'b' => some '\x08'
  | 't' => some '\t'
  | 'n' => some '\n'
  | 'f' => some '\x0c'
  | 'r' => some '\r'
  | 'e' => some '\x1b'
  | _ => none

/-- How many hexadecimal digits follow a letter after a backslash. -/
def hexLength? (c : Char) : Option Nat :=
  match c with
  | 'x' => some 2
  | 'u' => some 4
  | 'U' => some 8
  | _ => none

/-- A character after a backslash. -/
def stepEscape (isLong : Bool) (chars : List Char) (c : Char) : Spot :=
  match escaped? c, hexLength? c with
  | some e, _ => resume isLong (e :: chars)
  | none, some digits => .hex isLong chars digits 0
  | none, none =>
    if isLong ∧ (isBlank c ∨ c = '\n') then .folding chars (c = '\n') else .failed

/-- A hexadecimal digit of a character. -/
def stepHex (isLong : Bool) (chars : List Char) (left value : Nat) (c : Char) : Spot :=
  match hexDigit? c with
  | none => .failed
  | some d =>
    let value := value * 16 + d
    if 1 < left then .hex isLong chars (left - 1) value
    else if value.isValidChar then resume isLong (Char.ofNat value :: chars)
    else .failed

/-- One character. -/
def step (s : State) (c : Char) : State :=
  let tokens := s.tokens
  match s.spot with
  | .between => begin tokens c
  | .blank chars =>
    if isBlank c then ⟨tokens, .blank (c :: chars)⟩ else begin (.blank chars.reverse :: tokens) c
  | .word chars =>
    if (mark? c).isSome ∨ isBlank c ∨ c = '#' then begin (.word chars.reverse :: tokens) c
    else ⟨tokens, .word (c :: chars)⟩
  | .comment =>
    if c = '\n' then begin tokens c
    else if isPlain c ∨ c = '\r' then ⟨tokens, .comment⟩
    else ⟨tokens, .failed⟩
  | .opening q count =>
    if count = 1 then
      if c = q then ⟨tokens, .opening q 2⟩ else stepShort tokens q [] c
    else if c = q then ⟨tokens, .longStart q⟩
    else begin (quote [] false :: tokens) c
  | .short q chars => stepShort tokens q chars c
  | .longStart q =>
    if c = '\n' then ⟨tokens, .long q [] 0⟩
    else if c = '\r' then ⟨tokens, .longStart q⟩
    else stepLong tokens q [] 0 c
  | .long q chars quotes => stepLong tokens q chars quotes c
  | .escape isLong chars => ⟨tokens, stepEscape isLong chars c⟩
  | .hex isLong chars left value => ⟨tokens, stepHex isLong chars left value c⟩
  | .folding chars pastLine =>
    if isBlank c then ⟨tokens, .folding chars pastLine⟩
    else if c = '\n' then ⟨tokens, .folding chars true⟩
    else if pastLine then stepLong tokens '"' chars 0 c
    else ⟨tokens, .failed⟩
  | .failed => s

/-! ### Runs -/

/-- The tokens of a finished text. -/
def finish (s : State) : Option (List Token) :=
  let done (tokens : List Token) := some tokens.reverse
  match s.spot with
  | .between | .comment => done s.tokens
  | .blank chars => done (.blank chars.reverse :: s.tokens)
  | .word chars => done (.word chars.reverse :: s.tokens)
  | .opening _ 2 => done (quote [] false :: s.tokens)
  | .long q chars quotes =>
    if 3 ≤ quotes then
      done (quote (List.replicate (quotes - 3) q ++ chars) true :: s.tokens)
    else none
  | _ => none

/-- A return stands only before the end of its line. -/
def returnsPaired : List Char → Bool
  | [] => true
  | '\r' :: rest => rest.head? = some '\n' && returnsPaired rest
  | _ :: rest => returnsPaired rest

/-- The text without a byte order mark in front. -/
def dropMark : List Char → List Char
  | c :: rest => if c = '\uFEFF' then rest else c :: rest
  | [] => []

/-- The tokens of a text. -/
def scan (text : List Char) : Option (List Token) :=
  if returnsPaired text then finish ((dropMark text).foldl step ⟨[], .between⟩) else none

end Token

end RiskRules.Toml
