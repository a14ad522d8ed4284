import RiskRules.Store.Edit
import RiskRules.Store.Memory

/-!
The store that a program holds: one in memory, or tables, which can be closed and opened again.
Closed tables keep their contents and refuse every operation.
-/

namespace RiskRules

/-- A store. The bodies in tables are decoded with a registry. -/
inductive StoreHandle where
  | memory (m : Memory)
  | tables (r : Registry) (t : Tables)
  | closed (r : Registry) (t : Tables)

namespace StoreHandle

/-- The tables are closed. -/
def closedError : StoreError :=
  .store "store is closed"

/-- Does an operation that every kind of store offers. -/
def serve {α : Type} (op : {σ : Type} → Backend σ → Action σ StoreError α) :
    Action StoreHandle StoreError α
  | .memory m =>
    match op Memory.backend m with
    | (r, m) => (r, .memory m)
  | .tables r t =>
    match op (Tables.backend r) t with
    | (a, t) => (a, .tables r t)
  | .closed r t => (.error closedError, .closed r t)

/-- The operations of the store held. -/
def backend : Backend StoreHandle where
  committed key := serve fun b => b.committed key
  draft key := serve fun b => b.draft key
  list organization := serve fun b => b.list organization
  replaceDraft ruleset := serve fun b => b.replaceDraft ruleset
  commitDraft key := serve fun b => b.commitDraft key
  currentScore entity := serve fun b => b.currentScore entity
  history entity := serve fun b => b.history entity
  insertScore score := serve fun b => b.insertScore score
  indexStates organization indexes := serve fun b => b.indexStates organization indexes
  markPending organization indexes := serve fun b => b.markPending organization indexes
  markReady organization indexes := serve fun b => b.markReady organization indexes

/-- Opens tables, if their schema version is the known one. -/
def opened (r : Registry) (t : Tables) : Except TablesError Unit × StoreHandle :=
  match t.checkSchema with
  | .ok () => (.ok (), .tables r t)
  | .error e => (.error e, .closed r t)

/-- Closes tables and opens them again, from then on with another registry if one is given. Tables
of an unknown schema version stay closed. -/
def reopen (registry : Option Registry) : Action StoreHandle TablesError Unit
  | .memory m => (.ok (), .memory m)
  | .tables r t => opened (registry.getD r) t
  | .closed r t => opened (registry.getD r) t

/-- Edits tables from outside, open or closed. -/
def edit (e : Edit) : Action StoreHandle TablesError Nat
  | .memory m => (.ok 0, .memory m)
  | .tables r t =>
    match e.apply t with
    | .ok (count, t) => (.ok count, .tables r t)
    | .error error => (.error error, .tables r t)
  | .closed r t =>
    match e.apply t with
    | .ok (count, t) => (.ok count, .closed r t)
    | .error error => (.error error, .closed r t)

end StoreHandle

end RiskRules
