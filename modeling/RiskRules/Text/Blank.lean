/-!
Blank characters, those with the Unicode property `White_Space`, and texts without them at the ends.
-/

namespace RiskRules.Blank

/-- The code points of blank characters, as ranges. -/
def ranges : List (Nat × Nat) :=
  [(0x09, 0x0D), (0x20, 0x20), (0x85, 0x85), (0xA0, 0xA0), (0x1680, 0x1680), (0x2000, 0x200A),
    (0x2028, 0x2029), (0x202F, 0x202F), (0x205F, 0x205F), (0x3000, 0x3000)]

/-- A blank character. -/
def isBlank (c : Char) : Bool :=
  ranges.any fun range => range.1 ≤ c.toNat && c.toNat ≤ range.2

/-- Characters without the blank ones at both ends. -/
def trimChars (text : List Char) : List Char :=
  ((text.dropWhile isBlank).reverse.dropWhile isBlank).reverse

/-- A text without blank characters at its ends. -/
def trim (text : String) : String :=
  String.ofList (trimChars text.toList)

end RiskRules.Blank
