import RiskRules.Environment

/-!
Planned outages: an environment whose lookups fail or break off where a plan says so, and otherwise
answer as before.
-/

namespace RiskRules

/-- What happens to a lookup. -/
inductive Outage where
  | fails (message : String)
  | breaks (fault : Fault)
  deriving DecidableEq, Repr

/-- The outages of lookups, by kind and name; a related field is named with its table. -/
abbrev OutagePlan := LookupKind → String → Option Outage

namespace Outage

/-- Answers a lookup as planned, or else as given. -/
def guard {α : Type} (outage : Option Outage) (answer : Except (Halt EnvironmentError) α) :
    Except (Halt EnvironmentError) α :=
  match outage with
  | some (.breaks fault) => .error (.fault fault)
  | some (.fails message) => .error (.error (.unavailable message))
  | none => answer

end Outage

/-- The environment under a plan of outages. -/
def Environment.withOutages (env : Environment) (plan : OutagePlan) : Environment where
  payloadField name := Outage.guard (plan .payloadField name) (env.payloadField name)
  listItems name := Outage.guard (plan .list name) (env.listItems name)
  relatedField table field path :=
    Outage.guard (plan .relatedField (table ++ "." ++ field)) (env.relatedField table field path)
  variableValue name := Outage.guard (plan .variable name) (env.variableValue name)

end RiskRules
