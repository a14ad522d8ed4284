/-!
Maps as lists of slots: each key has at most one.
-/

namespace RiskRules.Slots

variable {α β : Type} [DecidableEq α]

/-- What a key's slot holds. -/
def get? (key : α) : List (α × β) → Option β
  | [] => none
  | (k, b) :: rest => if k = key then some b else get? key rest

/-- Empties the slot of a key. -/
def remove (key : α) (slots : List (α × β)) : List (α × β) :=
  slots.filter fun slot => decide (slot.1 ≠ key)

/-- Fills the slot of a key. -/
def put (key : α) (b : β) (slots : List (α × β)) : List (α × β) :=
  (key, b) :: remove key slots

end RiskRules.Slots
