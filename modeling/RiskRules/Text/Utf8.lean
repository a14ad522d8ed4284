/-!
UTF-8 text read character by character: a byte that belongs to no character is read as none and the
reading goes on after it.
-/

namespace RiskRules.Utf8

/-- The low six bits of a byte that goes on with a character. -/
def tail? (b : UInt8) : Option Nat :=
  if 0x80 ≤ b.toNat ∧ b.toNat < 0xC0 then some (b.toNat - 0x80) else none

/-- The character of a code point, if the code point lies within the range that its count of bytes
writes. -/
def char? (least code : Nat) : Option Char :=
  if least ≤ code ∧ code.isValidChar then some (Char.ofNat code) else none

/-- The character that two bytes write. -/
def pair? (a b : UInt8) : Option Char := do
  if 0xC0 ≤ a.toNat ∧ a.toNat < 0xE0 then char? 0x80 ((a.toNat - 0xC0) * 0x40 + (← tail? b))
  else none

/-- The character that three bytes write. -/
def triple? (a b c : UInt8) : Option Char := do
  if 0xE0 ≤ a.toNat ∧ a.toNat < 0xF0 then
    char? 0x800 (((a.toNat - 0xE0) * 0x40 + (← tail? b)) * 0x40 + (← tail? c))
  else none

/-- The character that four bytes write. -/
def quadruple? (a b c d : UInt8) : Option Char := do
  if 0xF0 ≤ a.toNat ∧ a.toNat < 0xF8 then
    char? 0x10000 ((((a.toNat - 0xF0) * 0x40 + (← tail? b)) * 0x40 + (← tail? c)) * 0x40
      + (← tail? d))
  else none

/-- The character at the front of bytes and how many bytes after the first it takes up. -/
def front? (a : UInt8) (rest : List UInt8) : Option (Char × Nat) :=
  if a.toNat < 0x80 then some (Char.ofNat a.toNat, 0)
  else
    match rest with
    | [] => none
    | [b] => (pair? a b).map (·, 1)
    | [b, c] => ((pair? a b).map (·, 1)) <|> ((triple? a b c).map (·, 2))
    | b :: c :: d :: _ =>
      ((pair? a b).map (·, 1)) <|> ((triple? a b c).map (·, 2))
        <|> ((quadruple? a b c d).map (·, 3))

/-- Reads bytes, the first ones of which have been taken up already. -/
def decodeAfter : Nat → List UInt8 → List (Option Char)
  | _, [] => []
  | taken + 1, _ :: rest => decodeAfter taken rest
  | 0, a :: rest =>
    match front? a rest with
    | some (c, more) => some c :: decodeAfter more rest
    | none => none :: decodeAfter 0 rest

/-- The characters of bytes, none for each byte that belongs to no character. -/
def decode (bytes : List UInt8) : List (Option Char) :=
  decodeAfter 0 bytes

end RiskRules.Utf8
