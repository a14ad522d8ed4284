import RiskRules.Json.Fields
import RiskRules.Ruleset.Document

/-!
Scores that entities have been given, and the jobs that are queued for later: recomputing an
entity's score and creating indexes. Both are written and read as JSON.
-/

namespace RiskRules

/-! ### Entities -/

/-- An entity of an organization. -/
structure EntityRef where
  organization : String
  entityType : String
  entityId : String
  deriving DecidableEq, Repr

namespace EntityRef

/-- The organization and kind of the entity. -/
def key (e : EntityRef) : PairKey :=
  ⟨e.organization, e.entityType⟩

/-- The text of an entity. -/
def text (e : EntityRef) : String :=
  e.organization ++ "/" ++ e.entityType ++ "/" ++ e.entityId

/-- The members of an entity's document. -/
def members (e : EntityRef) : List (String × Json) :=
  [("organization_id", .string e.organization), ("entity_type", .string e.entityType),
    ("entity_id", .string e.entityId)]

/-- Reads an entity. -/
def ofJson? (j : Json) : Option EntityRef := do
  let f ← j.fields? ["organization_id", "entity_type", "entity_id"]
  return ⟨← f.required "organization_id" Json.toString?,
    ← f.required "entity_type" Json.toString?, ← f.required "entity_id" Json.toString?⟩

end EntityRef

/-! ### Scores -/

/-- Where a score comes from. -/
inductive ScoreSource where
  | ruleset | override
  deriving DecidableEq, Repr

/-- The label of a source. -/
def ScoreSource.label : ScoreSource → String
  | .ruleset => "ruleset"
  | .override => "override"

/-- The source of a label. -/
def ScoreSource.ofLabel? : String → Option ScoreSource
  | "ruleset" => some .ruleset
  | "override" => some .override
  | _ => none

/-- A score that an entity has been given. -/
structure Score where
  id : String
  entity : EntityRef
  score : Int64
  source : ScoreSource
  rulesetVersion : Option UInt32
  overriddenBy : Option String
  staleAt : Option Timestamp
  createdAt : Timestamp
  isCurrent : Bool
  deriving DecidableEq

namespace Score

/-- The document of a score. -/
def toJson (s : Score) : Json :=
  .object [("score_id", .string s.id), ("entity", .object s.entity.members),
    ("score", .int s.score.toInt), ("source", .string s.source.label),
    ("ruleset_version", (s.rulesetVersion.map fun v => Json.int v.toNat).getD .null),
    ("overridden_by", (s.overriddenBy.map Json.string).getD .null),
    ("stale_at", (s.staleAt.map Timestamp.toJson).getD .null),
    ("created_at", s.createdAt.toJson), ("is_current", .bool s.isCurrent)]

/-- The names of the fields of a score. -/
def fieldNames : List String :=
  ["score_id", "entity", "score", "source", "ruleset_version", "overridden_by", "stale_at",
    "created_at", "is_current"]

/-- Reads a score. Its deadline must be there, if only as null. -/
def ofJson? (j : Json) : Option Score := do
  let f ← j.fields? fieldNames
  return ⟨← f.required "score_id" Json.toString?, ← f.required "entity" EntityRef.ofJson?,
    ← f.required "score" Json.toInt64?,
    ← f.required "source" fun j => j.toLabel?.bind ScoreSource.ofLabel?,
    ← f.optional "ruleset_version" none (·.toOption? Json.toUInt32?),
    ← f.optional "overridden_by" none (·.toOption? Json.toString?),
    ← f.required "stale_at" (·.toOption? Timestamp.ofJson?),
    ← f.required "created_at" Timestamp.ofJson?, ← f.required "is_current" Json.toBool?⟩

end Score

/-! ### Jobs -/

/-- Work that is queued. -/
inductive Job where
  | recomputeScore (entity : EntityRef)
  | createIndexes (organization : String) (indexes : List IndexSpec)
  deriving DecidableEq, Repr

namespace Job

/-- The document of a job. -/
def toJson : Job → Json
  | .recomputeScore entity => .object (("job", .string "recompute_score") :: entity.members)
  | .createIndexes organization indexes =>
    .object [("job", .string "create_indexes"), ("organization_id", .string organization),
      ("indexes", .array (indexes.map IndexSpec.toJson))]

/-- Reads a job. -/
def ofJson? (j : Json) : Option Job := do
  let (kind, content) ← j.tagged? "job"
  match ← kind.toString? with
  | "recompute_score" => return .recomputeScore (← EntityRef.ofJson? content)
  | "create_indexes" =>
    let f ← content.fields? ["organization_id", "indexes"]
    return .createIndexes (← f.required "organization_id" Json.toString?)
      (← f.required "indexes" (·.toList? IndexSpec.ofJson?))
  | _ => none

end Job

end RiskRules
