/-!
Actions on a state. An action gives a value or an error and, either way, a state: what it had done
before an error stays done.
-/

namespace RiskRules

/-- From a state to a value or an error, and the state after it. -/
def Action (S ε α : Type) : Type :=
  S → Except ε α × S

namespace Action

variable {S ε ε' α β : Type}

/-- Gives a value and changes nothing. -/
def give (a : α) : Action S ε α :=
  fun s => (.ok a, s)

/-- Gives an error and changes nothing. -/
def fail (e : ε) : Action S ε α :=
  fun s => (.error e, s)

/-- Goes on with the value of an action, unless it gave an error. -/
def andThen (x : Action S ε α) (f : α → Action S ε β) : Action S ε β :=
  fun s =>
    match x s with
    | (.ok a, s) => f a s
    | (.error e, s) => (.error e, s)

instance : Monad (Action S ε) where
  pure := give
  bind := andThen

/-- Reads the state. -/
def view (f : S → α) : Action S ε α :=
  fun s => (.ok (f s), s)

/-- Computes a result from the state. -/
def consult (f : S → Except ε α) : Action S ε α :=
  fun s => (f s, s)

/-- Changes the state. -/
def update (f : S → S) : Action S ε Unit :=
  fun s => (.ok (), f s)

/-- Changes the state, unless it cannot be changed so. -/
def tryUpdate (f : S → Except ε S) : Action S ε Unit :=
  fun s =>
    match f s with
    | .ok t => (.ok (), t)
    | .error e => (.error e, s)

/-- Restates the errors of an action. -/
def restate (f : ε → ε') (x : Action S ε α) : Action S ε' α :=
  fun s =>
    match x s with
    | (.ok a, s) => (.ok a, s)
    | (.error e, s) => (.error (f e), s)

/-- Gives what has been computed, or its error restated. -/
def ofExcept (f : ε' → ε) : Except ε' α → Action S ε α
  | .ok a => give a
  | .error e => fail (f e)

/-- The value of an action that gave none is its error. -/
def attempt (x : Action S ε α) : Action S ε (Except ε α) :=
  fun s =>
    match x s with
    | (r, s) => (.ok r, s)

theorem pure_apply (a : α) (s : S) : (pure a : Action S ε α) s = (.ok a, s) := rfl

theorem bind_apply (x : Action S ε α) (f : α → Action S ε β) (s : S) :
    (x >>= f) s = match x s with
      | (.ok a, s) => f a s
      | (.error e, s) => (.error e, s) := rfl

end Action

end RiskRules
