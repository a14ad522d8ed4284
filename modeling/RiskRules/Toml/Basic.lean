import RiskRules.Keyed

/-!
TOML documents as tables of entries. A table remembers how it came to be, because that decides what
may still be added to it: a table in braces is closed, a table with a header of its own cannot get a
second one, and a dotted key leads only through tables that no header has named.
-/

namespace RiskRules

/-- How a table came to be: in braces, under a header of its own, on the way to another header, or
on the way of a dotted key. -/
inductive TableForm where
  | inline | header | passed | dotted
  deriving DecidableEq, Repr

/-- A TOML value. `rows` are the tables under a repeated header, latest first. -/
inductive Toml where
  | string (s : String)
  | int (n : Int)
  | float (x : Float)
  | bool (b : Bool)
  | dateTime (text : String)
  | array (items : List Toml)
  | table (form : TableForm) (entries : List (String × Toml))
  | rows (tables : List (List (String × Toml)))

namespace Toml

/-- Keys and values, each key once. -/
abbrev Entries := List (String × Toml)

/-- Sets the value under a key; a new key goes to the end. -/
def put (key : String) (value : Toml) : Entries → Entries
  | [] => [(key, value)]
  | (k, v) :: rest => if k = key then (k, value) :: rest else (k, v) :: put key value rest

/-! ### Adding -/

/-- Adds a value under a dotted key, which must be new. -/
def addPair (key : String) (value : Toml) : List String → Entries → Option Entries
  | [], entries =>
    match Keyed.get? key entries with
    | none => some (put key value entries)
    | some _ => none
  | step :: path, entries =>
    match Keyed.get? step entries with
    | none => do return put step (.table .dotted (← addPair key value path [])) entries
    | some (.table form inner) =>
      if form = .dotted ∨ (form = .passed ∧ path ≠ []) then do
        return put step (.table form (← addPair key value path inner)) entries
      else none
    | some (.rows (inner :: older)) =>
      if path ≠ [] then do
        return put step (.rows ((← addPair key value path inner) :: older)) entries
      else none
    | some _ => none

/-- A header names a table: a new one, or one that headers have only passed through. -/
def nameTable : Option Toml → Option Toml
  | none => some (.table .header [])
  | some (.table .passed entries) => some (.table .header entries)
  | some _ => none

/-- A repeated header begins a further table. -/
def nameRow : Option Toml → Option Toml
  | none => some (.rows [[]])
  | some (.rows older) => some (.rows ([] :: older))
  | some _ => none

/-- Changes what is under the last key of a header's path, passing through the tables before. -/
def atHeader (change : Option Toml → Option Toml) (key : String) :
    List String → Entries → Option Entries
  | [], entries => do return put key (← change (Keyed.get? key entries)) entries
  | step :: path, entries =>
    match Keyed.get? step entries with
    | none => do return put step (.table .passed (← atHeader change key path [])) entries
    | some (.table form inner) =>
      if form = .inline then none
      else do return put step (.table form (← atHeader change key path inner)) entries
    | some (.rows (inner :: older)) => do
      return put step (.rows ((← atHeader change key path inner) :: older)) entries
    | some _ => none

/-- Changes the entries of the table that a header's path leads to. -/
def within (change : Entries → Option Entries) : List String → Entries → Option Entries
  | [], entries => change entries
  | step :: path, entries =>
    match Keyed.get? step entries with
    | some (.table form inner) => do
      return put step (.table form (← within change path inner)) entries
    | some (.rows (inner :: older)) => do
      return put step (.rows ((← within change path inner) :: older)) entries
    | _ => none

end Toml

end RiskRules
