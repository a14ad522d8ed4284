import RiskRules.Toml.Reader

/-!
Sections of settings in TOML. A section is a table; it may also be written as the array of its
settings in order, those at the end left out, and a date stands for a section without settings.
-/

namespace RiskRules.Toml

/-- The settings of a section, by name or by place. -/
inductive Section where
  | named (entries : Entries)
  | placed (items : List Toml)

/-- The settings that a value is a section of. -/
def section? : Toml → Option Section
  | .table _ entries => some (.named entries)
  | .array items => some (.placed items)
  | .rows tables => some (.placed (tables.reverse.map (.table .header)))
  | .dateTime _ => some (.named [])
  | _ => none

/-- The setting of a place and name. -/
def Section.get? (place : Nat) (name : String) : Section → Option Toml
  | .named entries => Keyed.get? name entries
  | .placed items => items[place]?

/-- Reads a setting if it is there. -/
def Section.setting {α : Type} (s : Section) (place : Nat) (name : String) (otherwise : α)
    (read : Toml → Option α) : Option α :=
  match s.get? place name with
  | none => some otherwise
  | some t => read t

/-! ### Reading settings -/

/-- Reads a text. -/
def toString? : Toml → Option String
  | .string s => some s
  | _ => none

/-- Reads a truth value. -/
def toBool? : Toml → Option Bool
  | .bool b => some b
  | _ => none

/-- Reads a whole number of 64 bits without sign. -/
def toUInt64? : Toml → Option UInt64
  | .int n => if 0 ≤ n ∧ n < 0x10000000000000000 then some (UInt64.ofNat n.toNat) else none
  | _ => none

/-- Has nothing in it. -/
def isHollow : Toml → Bool
  | .array [] => true
  | .table _ [] => true
  | _ => false

/-- Reads a label: a text, or a table with one key that holds nothing. -/
def toLabel? : Toml → Option String
  | .string s => some s
  | .table _ [(label, content)] => if isHollow content then some label else none
  | _ => none

end RiskRules.Toml
