import RiskRules.Keyed
import RiskRules.Json.Number
import RiskRules.Json.Basic

/-!
Taking JSON values apart. A value of another shape, a missing field or a part without a value gives
none; the reason is not kept, since every reader of documents answers all of them alike.

A record is written as an object, in any order and with unknown members passed over, or as the
array of its fields in order. A known field may stand only once. In the array form a field may be
missing only if it has a default, in the object form also if null would do.
-/

namespace RiskRules.Json

/-! ### Plain values -/

/-- A truth value. -/
def toBool? : Json → Option Bool
  | .bool b => some b
  | _ => none

/-- A text. -/
def toString? : Json → Option String
  | .string s => some s
  | _ => none

/-- An integer of the signed 64-bit range. -/
def toInt64? : Json → Option Int64
  | .int n => if n < 0x8000000000000000 then some (Int64.ofInt n) else none
  | _ => none

/-- A whole number that is not negative. -/
def toCount? : Json → Option Nat
  | .int n => if 0 ≤ n then some n.toNat else none
  | _ => none

/-- A whole number below a bound. -/
def toNat? (bound : Nat) : Json → Option Nat
  | .int n => if 0 ≤ n ∧ n < bound then some n.toNat else none
  | _ => none

/-- A number of 32 bits without sign. -/
def toUInt32? (j : Json) : Option UInt32 :=
  (j.toNat? 0x100000000).map UInt32.ofNat

/-- A number of 64 bits without sign. -/
def toUInt64? (j : Json) : Option UInt64 :=
  (j.toNat? 0x10000000000000000).map UInt64.ofNat

/-- Any number as a binary64 number. -/
def toFloat? : Json → Option Float
  | .int n => some (floatOfInt n)
  | .float x => some x
  | _ => none

/-- A label: a text, or an object whose only member carries nothing. -/
def toLabel? : Json → Option String
  | .string s => some s
  | .object [(label, .null)] => some label
  | _ => none

/-- A list whose items are all of one kind. -/
def toList? {α : Type} (item : Json → Option α) : Json → Option (List α)
  | .array items => items.mapM item
  | _ => none

/-- Null, or a value. -/
def toOption? {α : Type} (value : Json → Option α) : Json → Option (Option α)
  | .null => some none
  | j => (value j).map some

/-- An object read as a map: all values are of one kind, and the last under a key stays. -/
def toMap? {α : Type} (value : Json → Option α) : Json → Option (List (String × α))
  | .object members =>
    (members.mapM fun member => (value member.2).map (member.1, ·)).map Keyed.ofList
  | _ => none

/-! ### Records -/

/-- The fields of a record, and whether they were written as an array. -/
structure Fields (β : Type) where
  entries : List (String × β)
  positional : Bool

namespace Fields

variable {α β : Type}

/-- The fields of a record written as an object, if none of the names is repeated; a strict record
has no other members. -/
def ofMembers? (names : List String) (strict : Bool) (members : List (String × β)) :
    Option (Fields β) :=
  let known := members.filter fun member => names.contains member.1
  if (Keyed.firstRepeat [] (known.map Prod.fst)).isSome then none
  else if strict && known.length != members.length then none
  else some ⟨known, false⟩

/-- The fields of a record written as an array, in the order of the names. -/
def ofItems? (names : List String) (items : List β) : Option (Fields β) :=
  if items.length ≤ names.length then some ⟨names.zip items, true⟩ else none

/-- A field that must be there. -/
def required (f : Fields β) (name : String) (value : β → Option α) : Option α :=
  (Keyed.get? name f.entries).bind value

/-- A field that may be left out for a default. -/
def default (f : Fields β) (name : String) (otherwise : α) (value : β → Option α) : Option α :=
  match Keyed.get? name f.entries with
  | none => some otherwise
  | some part => value part

/-- A field that may be left out of an object, but not of an array. -/
def optional (f : Fields β) (name : String) (otherwise : α) (value : β → Option α) : Option α :=
  match Keyed.get? name f.entries with
  | none => if f.positional then none else some otherwise
  | some part => value part

end Fields

/-- The fields of a record with these names, in this order. -/
def fields? (names : List String) : Json → Option (Fields Json)
  | .object members => Fields.ofMembers? names false members
  | .array items => Fields.ofItems? names items
  | _ => none

/-! ### Tagged alternatives -/

/-- The label of a tagged alternative and its other fields. The tag is a member of the object or the
first item of the array; all the rest must be readable. -/
def tagged? (tag : String) : Json → Option (Json × Json)
  | .object members =>
    let others := members.filter fun member => member.1 != tag
    match members.filter fun member => member.1 == tag with
    | [(_, label)] => if readableMembers others then some (label, .object others) else none
    | _ => none
  | .array (label :: rest) => if readableItems rest then some (label, .array rest) else none
  | _ => none

end RiskRules.Json
