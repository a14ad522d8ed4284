import RiskRules.Toml.Scalar
import RiskRules.Toml.Token

/-!
TOML documents from their tokens. Lines are headers and pairs; brackets carry a line on over the
ends of lines. A value is read by a machine that takes one token at a time and keeps the open
brackets on a stack.
-/

namespace RiskRules.Toml

/-! ### Keys -/

/-- A character of a key without quotes. -/
def isKeyChar (c : Char) : Bool :=
  c.isAlphanum || c = '-' || c = '_'

/-- The key that a token is. -/
def Token.key? : Token → Option String
  | .word chars => if chars.all isKeyChar then some (String.ofList chars) else none
  | .quoted s false => some s
  | _ => none

/-- A token is blank space. -/
def Token.isSpace : Token → Bool
  | .blank _ => true
  | _ => false

/-- The keys that dots part. -/
def dotted : List Token → Option (List String)
  | [token] => do return [← token.key?]
  | token :: .dot :: rest => do return (← token.key?) :: (← dotted rest)
  | _ => none

/-- A path and its last key, blank space around the keys allowed. -/
def path? (tokens : List Token) : Option (List String × String) := do
  let keys ← dotted (tokens.filter fun token => !token.isSpace)
  return (keys.dropLast, ← keys.getLast?)

/-! ### Values -/

namespace Reader

/-- An open bracket and what has been read inside, items latest first. A table also holds the dotted
key that waits for its value. -/
inductive Frame where
  | array (items : List Toml)
  | table (entries : Entries) (path : List String) (key : String)

/-- What the machine expects next: a value, or the closing bracket if it may come at once; the rest
of a scalar, perhaps after a space; what follows a value; a key and its equals sign, whose tokens so
far stand latest first. -/
inductive State where
  | value (stack : List Frame) (closable : Bool)
  | scalar (stack : List Frame) (chars : List Char)
  | gap (stack : List Frame) (chars : List Char)
  | next (stack : List Frame)
  | key (stack : List Frame) (tokens : List Token)
  | done (value : Toml)
  | failed

/-- The most brackets that may be open. -/
def maxOpen : Nat := 80

/-- A value is complete: it goes into the bracket around it. -/
def complete (value : Toml) : List Frame → State
  | [] => .done value
  | .array items :: rest => .next (.array (value :: items) :: rest)
  | .table entries path key :: rest =>
    match addPair key value path entries with
    | some entries => .next (.table entries [] "" :: rest)
    | none => .failed

/-- A bracket opens. -/
def enter (frame : Frame) (stack : List Frame) : State :=
  if stack.length < maxOpen then
    match frame with
    | .array items => .value (.array items :: stack) true
    | frame => .key (frame :: stack) []
  else .failed

/-- A scalar without quotes is complete. -/
def completeScalar (stack : List Frame) (chars : List Char) : State :=
  match Scalar.read chars with
  | some value => complete value stack
  | none => .failed

/-- Space between the parts in brackets, ends of lines included. -/
def isGap : Token → Bool
  | .newline => true
  | token => token.isSpace

/-- A token after a value. -/
def settle : State → Token → State
  | .done value, token => if token.isSpace then .done value else .failed
  | .next stack, token =>
    if isGap token then .next stack
    else
      match stack, token with
      | .array items :: rest, .comma => .value (.array items :: rest) true
      | .array items :: rest, .closeBracket => complete (.array items.reverse) rest
      | frame :: rest, .comma => .key (frame :: rest) []
      | .table entries _ _ :: rest, .closeBrace => complete (.table .inline entries) rest
      | _, _ => .failed
  | _, _ => .failed

/-- A token where a value is due. -/
def begin (stack : List Frame) (closable : Bool) (token : Token) : State :=
  match token, stack with
  | .word chars, _ => .scalar stack chars
  | .quoted s _, _ => complete (.string s) stack
  | .openBracket, _ => enter (.array []) stack
  | .openBrace, _ => enter (.table [] [] "") stack
  | .closeBracket, .array items :: rest =>
    if closable then complete (.array items.reverse) rest else .failed
  | .newline, .array items :: rest =>
    if closable then .value (.array items :: rest) true else .failed
  | token, _ => if token.isSpace then .value stack closable else .failed

/-- A token of a key, or its equals sign. -/
def stepKey (stack : List Frame) (tokens : List Token) (token : Token) : State :=
  match token, stack, tokens with
  | .equals, .table entries _ _ :: rest, tokens =>
    match path? tokens.reverse with
    | some (path, key) => .value (.table entries path key :: rest) false
    | none => .failed
  | .closeBrace, .table entries _ _ :: rest, [] => complete (.table .inline entries) rest
  | .newline, _, [] => .key stack []
  | token, _, tokens =>
    if token.isSpace ∧ tokens.isEmpty then .key stack [] else .key stack (token :: tokens)

/-- One token. -/
def step : State → Token → State
  | .value stack closable, token => begin stack closable token
  | .scalar stack chars, token =>
    match token with
    | .word more => .scalar stack (chars ++ more)
    | .dot => .scalar stack (chars ++ ['.'])
    | .blank [' '] => .gap stack chars
    | token => settle (completeScalar stack chars) token
  | .gap stack chars, token =>
    match token with
    | .word more => .scalar stack (chars ++ ' ' :: more)
    | token => settle (completeScalar stack chars) token
  | .next stack, token => settle (.next stack) token
  | .key stack tokens, token => stepKey stack tokens token
  | .done value, token => settle (.done value) token
  | .failed, _ => .failed

/-- The value of finished tokens. -/
def finish : State → Option Toml
  | .done value => some value
  | .scalar stack chars | .gap stack chars =>
    match completeScalar stack chars with
    | .done value => some value
    | _ => none
  | _ => none

/-- The value that tokens write. -/
def valueOf (tokens : List Token) : Option Toml :=
  finish (tokens.foldl step (.value [] false))

/-! ### Lines -/

/-- How many brackets are open after a token. -/
def depthAfter (depth : Nat) : Token → Nat
  | .openBracket | .openBrace => depth + 1
  | .closeBracket | .closeBrace => depth - 1
  | _ => depth

/-- Lines latest first, the tokens of the open line latest first, and how many brackets are open. -/
structure Lines where
  done : List (List Token)
  line : List Token
  depth : Nat

/-- The end of a line outside brackets ends it. -/
def Lines.push (l : Lines) (token : Token) : Lines :=
  if token = .newline ∧ l.depth = 0 then ⟨l.line.reverse :: l.done, [], 0⟩
  else ⟨l.done, token :: l.line, depthAfter l.depth token⟩

/-- The lines of tokens. -/
def linesOf (tokens : List Token) : List (List Token) :=
  let l := tokens.foldl Lines.push ⟨[], [], 0⟩
  (l.line.reverse :: l.done).reverse

/-- The document so far, and the path of the header that pairs belong to. -/
structure Document where
  entries : Entries
  header : List String

/-- What a header that ends in some closing brackets names. -/
def headed (closing : List Token) (tokens : List Token) : Option (List String × String) :=
  let backward := tokens.reverse.dropWhile Token.isSpace
  if backward.take closing.length = closing then path? (backward.drop closing.length).reverse
  else none

/-- A header begins to lead to another table. -/
def Document.turn (d : Document) (change : Option Toml → Option Toml)
    (target : Option (List String × String)) : Option Document := do
  let (path, key) ← target
  return ⟨← atHeader change key path d.entries, path ++ [key]⟩

/-- A pair goes into the table of the latest header. -/
def Document.add (d : Document) (line : List Token) : Option Document := do
  let (path, key) ← path? (line.takeWhile (· ≠ .equals))
  let value ← valueOf ((line.dropWhile (· ≠ .equals)).drop 1)
  return { d with entries := ← within (addPair key value path) d.header d.entries }

/-- One line. -/
def Document.push (d : Document) (line : List Token) : Option Document :=
  match line.dropWhile Token.isSpace with
  | [] => some d
  | .openBracket :: .openBracket :: rest =>
    d.turn nameRow (headed [.closeBracket, .closeBracket] rest)
  | .openBracket :: rest => d.turn nameTable (headed [.closeBracket] rest)
  | line => d.add line

end Reader

/-! ### Reading -/

/-- The document that characters write. -/
def ofChars (text : List Char) : Option Toml := do
  let tokens ← Token.scan text
  let document ← (Reader.linesOf tokens).foldlM Reader.Document.push ⟨[], []⟩
  return .table .header document.entries

/-- The document that a text writes. -/
def parse (text : String) : Option Toml :=
  ofChars text.toList

end RiskRules.Toml
