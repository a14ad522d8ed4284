/-!
Association lists in ascending order of their keys, each key once. Text keys are ordered by
code points, which is also the order of their UTF-8 bytes.
-/

namespace RiskRules.Keyed

variable {α β : Type}

/-- The value under a key. -/
def get? (key : String) : List (String × α) → Option α
  | [] => none
  | (k, v) :: rest => if k = key then some v else get? key rest

/-- Puts a value under a key, in its place in the order, replacing what was there. -/
def insert (key : String) (value : α) : List (String × α) → List (String × α)
  | [] => [(key, value)]
  | (k, v) :: rest =>
    if key < k then (key, value) :: (k, v) :: rest
    else if k = key then (key, value) :: rest
    else (k, v) :: insert key value rest

/-- The pairs in order of their keys; of several values under one key the last stays. -/
def ofList (pairs : List (String × α)) : List (String × α) :=
  pairs.foldl (fun sorted pair => insert pair.1 pair.2 sorted) []

/-- The first key that is among those seen before it. -/
def firstRepeat (seen : List String) : List String → Option String
  | [] => none
  | key :: rest => if key ∈ seen then some key else firstRepeat (key :: seen) rest

end RiskRules.Keyed
