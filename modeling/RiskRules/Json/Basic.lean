import RiskRules.Time.Rfc3339

/-!
JSON values.

An object lists its members as written, repetitions included: what a repetition means is decided by
whoever reads the object. `unreadable` stands for a part that is there and yet has no value, or no
text: a number beyond binary64, a string with half a surrogate pair, an object with such a key,
brackets nested too deep, a timestamp that cannot be written. A reader that passes over such a part
is not troubled by it; a writer ends at the first one.
-/

namespace RiskRules

/-- Why a part of a document is unreadable: the text that it was read from has no value, or it
stands for a timestamp that has no text. -/
inductive Gap where
  | unread
  | unwritten (failure : Rfc3339.WriteError)
  deriving DecidableEq, Repr

/-- What a writer says that ends at a gap. What a reader says is not kept. -/
def Gap.message : Gap → String
  | .unread => "..."
  | .unwritten failure => failure.message

/-- A JSON value. An `int` lies between `-2^63` and `2^64 - 1`; a number written with a point or an
exponent, or outside that range, is a `float`. -/
inductive Json where
  | null
  | bool (b : Bool)
  | int (n : Int)
  | float (x : Float)
  | string (s : String)
  | array (items : List Json)
  | object (members : List (String × Json))
  | unreadable (gap : Gap)

namespace Json

mutual

/-- No part is unreadable. -/
def readable : Json → Bool
  | .unreadable _ => false
  | .array items => readableItems items
  | .object members => readableMembers members
  | _ => true

/-- No item is unreadable. -/
def readableItems : List Json → Bool
  | [] => true
  | item :: rest => readable item && readableItems rest

/-- No member is unreadable. -/
def readableMembers : List (String × Json) → Bool
  | [] => true
  | (_, value) :: rest => readable value && readableMembers rest

end

mutual

/-- The unreadable parts, in the order of writing. -/
def gaps : Json → List Gap
  | .unreadable gap => [gap]
  | .array items => gapsOfItems items
  | .object members => gapsOfMembers members
  | _ => []

/-- The unreadable parts of items. -/
def gapsOfItems : List Json → List Gap
  | [] => []
  | item :: rest => gaps item ++ gapsOfItems rest

/-- The unreadable parts of members. -/
def gapsOfMembers : List (String × Json) → List Gap
  | [] => []
  | (_, value) :: rest => gaps value ++ gapsOfMembers rest

end

mutual

/-- Levels of brackets. -/
def nesting : Json → Nat
  | .array items => nestingItems items + 1
  | .object members => nestingMembers members + 1
  | _ => 0

/-- The most levels of brackets in an item. -/
def nestingItems : List Json → Nat
  | [] => 0
  | item :: rest => max (nesting item) (nestingItems rest)

/-- The most levels of brackets in a member. -/
def nestingMembers : List (String × Json) → Nat
  | [] => 0
  | (_, value) :: rest => max (nesting value) (nestingMembers rest)

end

mutual

/-- Leaves as many levels of brackets as given; a bracket below them becomes unreadable. -/
def cut : Nat → Json → Json
  | 0, .array _ => .unreadable .unread
  | 0, .object _ => .unreadable .unread
  | levels + 1, .array items => .array (cutItems levels items)
  | levels + 1, .object members => .object (cutMembers levels members)
  | _, leaf => leaf

/-- Leaves as many levels of brackets in each item. -/
def cutItems (levels : Nat) : List Json → List Json
  | [] => []
  | item :: rest => cut levels item :: cutItems levels rest

/-- Leaves as many levels of brackets in each member. -/
def cutMembers (levels : Nat) : List (String × Json) → List (String × Json)
  | [] => []
  | (key, value) :: rest => (key, cut levels value) :: cutMembers levels rest

end

/-- The most levels of brackets that a text may nest. -/
def nestingLimit : Nat := 127

end Json

end RiskRules
