import RiskRules.Text.Blank
import RiskRules.Text.Digits

/-!
Filters of log records: directives parted by commas, each a level, a target, or a target with a
level. A target may be narrowed to spans, in brackets, and spans to fields, in braces. A word that
is no level is a target with every level. Only whether a text is a filter is decided here; log
records themselves are not modelled.
-/

namespace RiskRules.LogFilter

/-! ### Levels -/

/-- The names of the levels. -/
def levelNames : List String :=
  ["off", "error", "warn", "info", "debug", "trace"]

/-- A text is the number of a level, perhaps after a plus. -/
def isLevelNumber (text : List Char) : Bool :=
  let text := if text.head? = some '+' then text.drop 1 else text
  match Digits.leading text with
  | ([], _) => false
  | (digits, rest) => rest.isEmpty && Digits.number 10 digits < levelNames.length

/-- A text names a level, in whatever case, or gives its number; an empty one stands for all. -/
def isLevel (text : List Char) : Bool :=
  text.isEmpty || isLevelNumber text
    || levelNames.contains (String.ofList (text.map Char.toLower))

/-! ### Directives -/

/-- What a directive goes on with. -/
inductive Spot where
  | start
  | target
  | span
  | field (isEmpty : Bool)
  | fields
  | afterSpan
  | level (text : List Char)
  | failed

/-- A character that a target may begin with; every character outside ASCII is taken for a letter.
-/
def beginsTarget (c : Char) : Bool :=
  c = '-' || c = ':' || c = '_' || c.isAlphanum || 0x80 ≤ c.toNat

/-- Takes one character. Those of a level stand latest first. -/
def step : Spot → Char → Spot
  | .start, c => if c = '[' then .span else if beginsTarget c then .target else .failed
  | .target, c => if c = '=' then .level [] else if c = '[' then .span else .target
  | .span, c => if c = ']' then .afterSpan else if c = '\x7b' then .field true else .span
  | .field isEmpty, c =>
    if c = '\x7d' then if isEmpty then .failed else .fields else .field false
  | .fields, c => if c = ']' then .afterSpan else .failed
  | .afterSpan, c => if c = '=' then .level [] else .failed
  | .level text, c => .level (c :: text)
  | .failed, _ => .failed

/-- A directive is valid. Blanks around it are passed over, except beside a level. -/
def isDirective (text : List Char) : Bool :=
  match (Blank.trimChars text).foldl step .start with
  | .target | .afterSpan => true
  | .level level => (Blank.trimChars text).length == text.length && isLevel level.reverse
  | _ => false

/-! ### Filters -/

/-- What stands between commas, empty parts included. -/
def splitCommas : List Char → List (List Char)
  | [] => [[]]
  | c :: rest =>
    if c = ',' then [] :: splitCommas rest
    else
      match splitCommas rest with
      | [] => [[c]]
      | part :: parts => (c :: part) :: parts

/-- A filter is valid: all its directives are, empty ones passed over. -/
def isValid (text : String) : Bool :=
  ((splitCommas text.toList).filter fun part => !part.isEmpty).all isDirective

/-! ### The filter in use -/

/-- A level that is no filter. -/
structure Unusable where
  level : String
  deriving DecidableEq, Repr

/-- The text of a level that is no filter. -/
def Unusable.message (_ : Unusable) : String :=
  "invalid log filter '..."

/-- The filter in use: that of the environment if it is valid, else the level without the blank
characters at its ends. -/
def choose (environment : Option String) (level : String) : Except Unusable String :=
  match environment.filter isValid with
  | some filter => .ok filter
  | none => if isValid (Blank.trim level) then .ok (Blank.trim level) else .error ⟨level⟩

end RiskRules.LogFilter
