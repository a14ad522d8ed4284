import RiskRules.Evaluation.Document
import RiskRules.Proofs.Evaluation
import RiskRules.Proofs.MemberOrder
import RiskRules.Proofs.ShownOffsets

/-!
Evaluation records kept as JSON. A record whose values can be written is written, and read back from
its document whatever order the members of the objects in it stand in; so two records never share a
document (`Evaluation.kept_by_json`). Values can be written whose numbers are finite and whose
timestamps lie in the years 0 to 9999, with an offset of whole minutes and less than a day: a clock a
whole day ahead of UTC has no document (`Evaluation.day_ahead_without_document`).
-/

namespace RiskRules

open Json (Reordered ReorderedItems ReorderedMembers)

variable {j : Json}

/-! ### Errors -/

theorem Func.ofName?_name (f : Func) : Func.ofName? f.name = some f := by
  cases f <;> rfl

theorem LookupKind.ofJson?_key (lookup : LookupKind) :
    LookupKind.ofJson? (.string lookup.key) = some lookup := by
  cases lookup <;> rfl

/-- A failed lookup is read back from its members in any order. -/
theorem EnvironmentError.ofJson?_of_perm {e : EnvironmentError} {given : List (String × Json)}
    (perm : given.Perm e.members) : EnvironmentError.ofJson? (.object given) = some e := by
  cases e with
  | notFound lookup name =>
    obtain ⟨others, tagged, perm⟩ := Json.tagged?_of_perm perm (by simp) rfl
    obtain ⟨f, read, found⟩ := Json.fields?_of_perm perm (by simp) ["lookup", "name"]
    simp [EnvironmentError.ofJson?, tagged, read, Json.Fields.required, found, Keyed.get?,
      Json.toString?, LookupKind.ofJson?_key]
  | invalidValue lookup name reason =>
    obtain ⟨others, tagged, perm⟩ := Json.tagged?_of_perm perm (by simp) rfl
    obtain ⟨f, read, found⟩ := Json.fields?_of_perm perm (by simp) ["lookup", "name", "reason"]
    simp [EnvironmentError.ofJson?, tagged, read, Json.Fields.required, found, Keyed.get?,
      Json.toString?, LookupKind.ofJson?_key]
  | unavailable message =>
    obtain ⟨others, tagged, perm⟩ := Json.tagged?_of_perm perm (by simp) rfl
    obtain ⟨f, read, found⟩ := Json.fields?_of_perm perm (by simp) ["message"]
    simp [EnvironmentError.ofJson?, tagged, read, Json.Fields.required, found, Keyed.get?,
      Json.toString?]

namespace EvaluationError

/-- The members of an error hold texts and counts, under names other than that of its kind. -/
theorem members_plain (e : EvaluationError) : Json.readableMembers e.members = true ∧
    "kind" ∉ e.members.map Prod.fst ∧
      ∀ same, ReorderedMembers e.members same → same = e.members := by
  cases e with
  | environment e => cases e <;> simp [members, EnvironmentError.members, ReorderedMembers,
      Json.readableMembers, Json.readable]
  | _ => simp [members, ReorderedMembers, Json.readableMembers, Json.readable]

/-- The fields of an error are read back from its members in any order. -/
theorem ofContent?_of_perm {e : EvaluationError} {given : List (String × Json)}
    (perm : given.Perm e.members) : ofContent? e.key (.object given) = some e := by
  have function (f : Func) : Func.ofJson? (.string f.name) = some f := f.ofName?_name
  cases e with
  | environment e => simp [ofContent?, key, EnvironmentError.ofJson?_of_perm perm]
  | divisionByZero => rfl
  | tooDeep limit =>
    obtain ⟨f, read, found⟩ := Json.fields?_of_perm perm (by simp [members]) ["max_depth"]
    simp [ofContent?, key, read, Json.Fields.required, found, members, Keyed.get?, Json.toCount?]
  | overflow func | unsupportedFunction func =>
    obtain ⟨f, read, found⟩ := Json.fields?_of_perm perm (by simp [members]) ["function"]
    simp [ofContent?, key, read, Json.Fields.required, found, members, Keyed.get?, function]
  | nullValue func argument | argumentFailed func argument =>
    obtain ⟨f, read, found⟩ :=
      Json.fields?_of_perm perm (by simp [members]) ["function", "argument"]
    simp [ofContent?, key, read, Json.Fields.required, found, members, Keyed.get?, function,
      Json.toString?]
  | typeMismatch func expected actual =>
    obtain ⟨f, read, found⟩ :=
      Json.fields?_of_perm perm (by simp [members]) ["function", "expected", "found"]
    simp [ofContent?, key, read, Json.Fields.required, found, members, Keyed.get?, function,
      Json.toString?]
  | invalidArgument func argument reason =>
    obtain ⟨f, read, found⟩ :=
      Json.fields?_of_perm perm (by simp [members]) ["function", "argument", "reason"]
    simp [ofContent?, key, read, Json.Fields.required, found, members, Keyed.get?, function,
      Json.toString?]

/-- An error is read back from its document in any order. -/
theorem ofJson?_of_reordered {e : EvaluationError} (reordered : Reordered e.toJson j) :
    ofJson? j = some e := by
  obtain ⟨readable, fresh, plain⟩ := e.members_plain
  obtain ⟨_, ⟨_, same, rfl, rfl, kept⟩, given, perm, rfl⟩ := reordered
  obtain rfl := plain same kept
  obtain ⟨others, tagged, perm⟩ := Json.tagged?_of_perm perm fresh readable
  simp [ofJson?, tagged, Json.toString?, ofContent?_of_perm perm]

theorem readable_toJson (e : EvaluationError) : e.toJson.readable = true :=
  e.members_plain.1

end EvaluationError

/-! ### The parts of a record -/

/-- An object given in any order is not null. -/
theorem Json.toOption?_of_reordered_object {α : Type} {read : Json → Option α}
    {members : List (String × Json)} (reordered : Reordered (.object members) j) :
    j.toOption? read = (read j).map some := by
  obtain ⟨_, _, given, _, rfl⟩ := reordered
  rfl

/-- A list is read in any order as its items are. -/
theorem exists_mapM_of_perm {α β : Type} {f : α → Option β} {items given : List α}
    {values : List β} (perm : given.Perm items) (read : items.mapM f = some values) :
    ∃ others, given.mapM f = some others ∧ others.Perm values := by
  induction perm generalizing values with
  | nil => exact ⟨values, read, .refl _⟩
  | cons item _ ih =>
    simp only [List.mapM_cons, Option.bind_eq_bind, Option.bind_eq_some_iff, Option.pure_def,
      Option.some.injEq] at read ⊢
    obtain ⟨value, first, rest, later, rfl⟩ := read
    obtain ⟨others, others_read, others_perm⟩ := ih later
    exact ⟨value :: others, ⟨value, first, others, others_read, rfl⟩, others_perm.cons value⟩
  | swap first second rest =>
    simp only [List.mapM_cons, Option.bind_eq_bind, Option.bind_eq_some_iff, Option.pure_def,
      Option.some.injEq] at read ⊢
    obtain ⟨a, a_read, _, ⟨b, b_read, values, values_read, rfl⟩, rfl⟩ := read
    exact ⟨b :: a :: values, ⟨b, b_read, _, ⟨a, a_read, values, values_read, rfl⟩, rfl⟩,
      .swap a b values⟩
  | trans _ _ first second =>
    obtain ⟨others, others_read, others_perm⟩ := second read
    obtain ⟨more, more_read, more_perm⟩ := first others_read
    exact ⟨more, more_read, more_perm.trans others_perm⟩

namespace Evaluation

/-- The values of a record and of all records in it can be written, and each keeps its named
children's records as a map, that is in ascending order of their names. -/
structure Writable (e : Evaluation) : Prop where
  values : ∀ part ∈ e.records, ∀ v ∈ part.value, v.Writable
  ordered : ∀ part ∈ e.records, Keyed.Ascending part.named

theorem Writable.child {e child : Evaluation} (writable : e.Writable) (mem : child ∈ e.children) :
    child.Writable :=
  ⟨fun part below => writable.values part (mem_records.mpr (.inr (.inl ⟨child, mem, below⟩))),
    fun part below => writable.ordered part (mem_records.mpr (.inr (.inl ⟨child, mem, below⟩)))⟩

theorem Writable.entry {e : Evaluation} {entry : String × Evaluation} (writable : e.Writable)
    (mem : entry ∈ e.named) : entry.2.Writable :=
  ⟨fun part below => writable.values part (mem_records.mpr (.inr (.inr ⟨entry, mem, below⟩))),
    fun part below => writable.ordered part (mem_records.mpr (.inr (.inr ⟨entry, mem, below⟩)))⟩

theorem value_of_reordered {value : Option Value} (writable : ∀ v ∈ value, v.Writable)
    (reordered : Reordered (valueOrNull value) j) : j.toOption? Value.ofJson? = some value := by
  cases value with
  | none =>
    obtain rfl := reordered
    rfl
  | some v =>
    have object : ∃ members, v.toJson = .object members := by
      cases v <;> exact ⟨_, rfl⟩
    obtain ⟨members, document⟩ := object
    rw [valueOrNull] at reordered
    rw [Json.toOption?_of_reordered_object (document ▸ reordered),
      Value.ofJson?_of_reordered (writable v rfl) reordered]
    rfl

theorem error_of_reordered {error : Option EvaluationError}
    (reordered : Reordered ((error.map EvaluationError.toJson).getD .null) j) :
    j.toOption? EvaluationError.ofJson? = some error := by
  cases error with
  | none =>
    obtain rfl := reordered
    rfl
  | some e =>
    rw [Json.toOption?_of_reordered_object reordered,
      EvaluationError.ofJson?_of_reordered reordered]
    rfl

/-! ### Records -/

/-- The members of the document of a record. -/
def documentMembers (e : Evaluation) : List (String × Json) :=
  [("function", .string e.func.name), ("return_value", valueOrNull e.value),
    ("error", (e.error.map EvaluationError.toJson).getD .null)]
    ++ (if e.children.isEmpty then [] else [("children", .array (toJsonAll e.children))])
    ++ (if e.named.isEmpty then [] else [("named_children", .object (toJsonNamed e.named))])

theorem toJson_eq (e : Evaluation) : e.toJson = .object e.documentMembers := by
  obtain ⟨func, value, error, children, named⟩ := e
  cases children <;> cases named <;> rfl

theorem documentMembers_distinct (e : Evaluation) : (e.documentMembers.map Prod.fst).Nodup := by
  rw [documentMembers]
  split <;> split <;> simp

@[simp] theorem reading_json (j : Json) : (reading j).json = j := by
  cases j <;> simp [reading]

/-- What reading a member gives: its key, and its record. -/
def readMember (member : String × Json) : Option (String × Evaluation) :=
  (ofJson? member.2).map (member.1, ·)

theorem mapM_readingItems (items : List Json) :
    (readingItems items).mapM Reading.record = items.mapM ofJson? := by
  induction items with
  | nil => rfl
  | cons item rest ih => simp [readingItems, ofJson?, ih]

theorem mapM_readingMembers (members : List (String × Json)) :
    (readingMembers members).mapM (fun (m : String × Reading) => m.2.record.map (m.1, ·))
      = members.mapM readMember := by
  induction members with
  | nil => rfl
  | cons member rest ih =>
    obtain ⟨key, value⟩ := member
    simp [readingMembers, readMember, ofJson?, ih]

theorem readingMembers_eq_map (members : List (String × Json)) :
    readingMembers members = members.map fun member => (member.1, reading member.2) := by
  induction members with
  | nil => rfl
  | cons member rest ih => obtain ⟨key, value⟩ := member; rw [readingMembers, ih, List.map_cons]

section Fields

variable {e : Evaluation} {same : List (String × Json)} {f : Json.Fields Reading}

/-- Unnamed children are read back, and none where they are left out. -/
theorem default_children (kept : ReorderedMembers e.documentMembers same)
    (found : Keyed.get? "children" f.entries = (Keyed.get? "children" same).map reading)
    (read : ∀ given, ReorderedItems (toJsonAll e.children) given →
      given.mapM ofJson? = some e.children) :
    f.default "children" [] Reading.items = some e.children := by
  have part : Keyed.get? "children" e.documentMembers =
      if e.children.isEmpty then none else some (.array (toJsonAll e.children)) := by
    rw [documentMembers]
    split <;> split <;> simp [Keyed.get?]
  rw [Json.Fields.default, found]
  split at part
  · rename_i empty
    rw [kept.get?_eq_none part]
    exact congrArg some (List.isEmpty_iff.mp empty).symm
  · obtain ⟨_, given_part, given, rfl, given_same⟩ := kept.get?_eq_some part
    rw [given_part, Option.map_some, reading, ← read given given_same]
    exact mapM_readingItems given

/-- Named children are read back, and none where they are left out. -/
theorem default_named (kept : ReorderedMembers e.documentMembers same)
    (found : Keyed.get? "named_children" f.entries =
      (Keyed.get? "named_children" same).map reading)
    (ordered : Keyed.Ascending e.named)
    (read : ∀ members, ReorderedMembers (toJsonNamed e.named) members →
      members.mapM readMember = some e.named) :
    f.default "named_children" [] Reading.named = some e.named := by
  have part : Keyed.get? "named_children" e.documentMembers =
      if e.named.isEmpty then none else some (.object (toJsonNamed e.named)) := by
    rw [documentMembers]
    split <;> split <;> simp [Keyed.get?]
  rw [Json.Fields.default, found]
  split at part
  · rename_i empty
    rw [kept.get?_eq_none part]
    exact congrArg some (List.isEmpty_iff.mp empty).symm
  · obtain ⟨_, given_part, members, members_same, given, perm, rfl⟩ := kept.get?_eq_some part
    obtain ⟨entries, entries_read, entries_perm⟩ := exists_mapM_of_perm perm (read _ members_same)
    rw [given_part, Option.map_some, reading]
    simp only [mapM_readingMembers, entries_read, Option.map_some]
    rw [ordered.ofList_eq_of_perm entries_perm]

end Fields

/-- A record is read back from its document in any order if its children's are. -/
theorem ofJson?_of_reordered_step {e : Evaluation} (writable : e.Writable)
    (unnamed : ∀ given, ReorderedItems (toJsonAll e.children) given →
      given.mapM ofJson? = some e.children)
    (named : ∀ same, ReorderedMembers (toJsonNamed e.named) same →
      same.mapM readMember = some e.named)
    (reordered : Reordered e.toJson j) : ofJson? j = some e := by
  rw [toJson_eq] at reordered
  obtain ⟨same, kept, given, perm, rfl⟩ := reordered
  have distinct : (same.map Prod.fst).Nodup := kept.keys_eq ▸ e.documentMembers_distinct
  have keys : (readingMembers given).map Prod.fst = given.map Prod.fst := by
    simp [readingMembers_eq_map]
  have given_distinct : ((readingMembers given).map Prod.fst).Nodup :=
    keys ▸ (perm.map Prod.fst).nodup_iff.mpr distinct
  obtain ⟨f, read, -, found⟩ := Json.Fields.ofMembers?_of_distinct given_distinct fieldNames
  have field (name : String) (mem : name ∈ fieldNames) :
      Keyed.get? name f.entries = (Keyed.get? name same).map reading := by
    rw [found name mem, readingMembers_eq_map, Keyed.get?_map, Keyed.get?_of_perm perm distinct]
  obtain ⟨_, function_part, rfl⟩ :=
    kept.get?_eq_some (show Keyed.get? "function" _ = some _ from rfl)
  obtain ⟨_, value_part, value_same⟩ :=
    kept.get?_eq_some (show Keyed.get? "return_value" _ = some _ from rfl)
  obtain ⟨_, error_part, error_same⟩ :=
    kept.get?_eq_some (show Keyed.get? "error" _ = some _ from rfl)
  have children_read := default_children kept (field _ (by simp [fieldNames])) unnamed
  have named_read := default_named kept (field _ (by simp [fieldNames]))
    (writable.ordered e e.self_mem_records) named
  have value_read := value_of_reordered (writable.values e e.self_mem_records) value_same
  have error_read := error_of_reordered error_same
  have function_read : Func.ofJson? (.string e.func.name) = some e.func := e.func.ofName?_name
  simp only [ofJson?, reading, read, Option.bind_some, ofFields?, Json.Fields.required,
    Json.Fields.optional]
  rw [field "function" (by simp [fieldNames]), field "return_value" (by simp [fieldNames]),
    field "error" (by simp [fieldNames]), children_read, named_read, function_part, value_part,
    error_part]
  simp only [Option.bind_some, reading_json, function_read, value_read, error_read,
    Option.map_some, Option.bind_eq_bind, Option.pure_def]
  cases e
  rfl

mutual

/-- A record that can be written is read back from its document in any order. -/
theorem ofJson?_of_reordered : ∀ {e : Evaluation} {j : Json}, e.Writable → Reordered e.toJson j →
    ofJson? j = some e
  | ⟨_, _, _, _, _⟩, _, writable, reordered =>
    ofJson?_of_reordered_step writable
      (fun _ same => mapM_of_reordered (fun _ mem => writable.child mem) same)
      (fun _ same => mapM_of_reorderedMembers (fun _ mem => writable.entry mem) same) reordered

theorem mapM_of_reordered : ∀ {es : List Evaluation} {given : List Json},
    (∀ e ∈ es, e.Writable) → ReorderedItems (toJsonAll es) given → given.mapM ofJson? = some es
  | [], _, _, rfl => rfl
  | e :: rest, _, writable, reordered => by
    obtain ⟨first, later⟩ := List.forall_mem_cons.mp writable
    obtain ⟨head, tail, rfl, head_same, tail_same⟩ := reordered
    rw [List.mapM_cons, ofJson?_of_reordered first head_same, mapM_of_reordered later tail_same]
    rfl

theorem mapM_of_reorderedMembers : ∀ {entries : List (String × Evaluation)}
    {members : List (String × Json)}, (∀ entry ∈ entries, entry.2.Writable) →
      ReorderedMembers (toJsonNamed entries) members → members.mapM readMember = some entries
  | [], _, _, rfl => rfl
  | (name, e) :: rest, _, writable, reordered => by
    obtain ⟨first, later⟩ := List.forall_mem_cons.mp writable
    obtain ⟨head, tail, rfl, head_same, tail_same⟩ := reordered
    rw [List.mapM_cons, readMember, ofJson?_of_reordered first head_same,
      mapM_of_reorderedMembers later tail_same]
    rfl

end

/-! ### Gaps -/

theorem gaps_error (error : Option EvaluationError) :
    ((error.map EvaluationError.toJson).getD .null).gaps = [] := by
  cases error with
  | none => rfl
  | some error => exact Json.readable_iff.mp error.readable_toJson

/-- The gaps that the value of a record leaves. -/
def gapsOfValue (e : Evaluation) : List Gap :=
  (valueOrNull e.value).gaps

mutual

/-- The gaps in the document of a record are those in its value and in the values of the records in
it, in their order. -/
theorem gaps_toJson_eq : ∀ e : Evaluation, e.toJson.gaps = e.records.flatMap gapsOfValue
  | ⟨func, value, error, children, named⟩ => by
    rw [toJson_eq, Json.gaps, documentMembers, records, List.flatMap_cons, List.flatMap_append,
      ← gaps_toJsonAll children, ← gaps_toJsonNamed named]
    cases children <;> cases named <;>
      simp [gapsOfValue, Json.gapsOfMembers, Json.gaps, gaps_error, toJsonAll, toJsonNamed,
        Json.gapsOfItems]

theorem gaps_toJsonAll : ∀ es : List Evaluation,
    Json.gapsOfItems (toJsonAll es) = (recordsAll es).flatMap gapsOfValue
  | [] => rfl
  | e :: rest => by
    rw [toJsonAll, Json.gapsOfItems, recordsAll, List.flatMap_append, gaps_toJson_eq e,
      gaps_toJsonAll rest]

theorem gaps_toJsonNamed : ∀ entries : List (String × Evaluation),
    Json.gapsOfMembers (toJsonNamed entries) = (recordsNamed entries).flatMap gapsOfValue
  | [] => rfl
  | (name, e) :: rest => by
    rw [toJsonNamed, Json.gapsOfMembers, recordsNamed, List.flatMap_append, gaps_toJson_eq e,
      gaps_toJsonNamed rest]

end

/-- The timestamp stands in a value of the record, or of a record in it. -/
def Shows (e : Evaluation) (t : Timestamp) : Prop :=
  ∃ part ∈ e.records, ∃ v ∈ part.value, (Value.timestamp t).Within v

/-- The gaps in the document of a record are those that its timestamps leave. -/
theorem mem_gaps_toJson_iff {gap : Gap} (e : Evaluation) :
    gap ∈ e.toJson.gaps ↔ ∃ t, e.Shows t ∧ gap ∈ t.toJson.gaps := by
  have here (part : Evaluation) : gap ∈ part.gapsOfValue ↔
      ∃ v ∈ part.value, ∃ t, (Value.timestamp t).Within v ∧ gap ∈ t.toJson.gaps := by
    rw [gapsOfValue]
    cases part.value <;> simp [valueOrNull, Json.gaps, Value.mem_gaps_toJson_iff]
  simp only [gaps_toJson_eq, List.mem_flatMap, here, Shows]
  constructor
  · rintro ⟨part, below, v, held, t, within, mem⟩
    exact ⟨t, ⟨part, below, v, held, within⟩, mem⟩
  · rintro ⟨t, ⟨part, below, v, held, within⟩, mem⟩
    exact ⟨part, below, v, held, t, within, mem⟩

theorem gaps_toJson {e : Evaluation} (writable : e.Writable) : e.toJson.gaps = [] := by
  refine List.eq_nil_iff_forall_not_mem.mpr fun gap mem => ?_
  obtain ⟨t, ⟨part, below, v, held, within⟩, mem⟩ := (mem_gaps_toJson_iff e).mp mem
  have t_writable := (writable.values part below v held).timestamps t within
  rw [Value.gaps_timestamp t_writable] at mem
  cases mem

/-- **Records survive as JSON.** A record whose numbers are finite, and whose timestamps have no
negative year and an offset of whole minutes and less than a day, is written, and it is read back
from what was written, in whatever order the members of the objects in it are given. No other such
record has that document, in any order. -/
theorem kept_by_json (e : Evaluation) (writable : e.Writable) :
    e.toJson.written = .ok e.toJson ∧ ofJson? e.toJson = some e ∧
      (∀ j, Reordered e.toJson j → ofJson? j = some e) ∧
      ∀ other : Evaluation, other.Writable →
        ∀ j, Reordered e.toJson j → Reordered other.toJson j → other = e := by
  refine ⟨?_, ?_, fun j reordered => ofJson?_of_reordered writable reordered, ?_⟩
  · exact Json.written_eq_ok_iff.mpr ⟨Json.readable_iff.mpr (gaps_toJson writable), rfl⟩
  · exact ofJson?_of_reordered writable (.refl _)
  · intro other other_writable j reordered other_reordered
    have read := ofJson?_of_reordered writable reordered
    rw [ofJson?_of_reordered other_writable other_reordered] at read
    exact Option.some.inj read

/-- A record of a list and a failed lookup, with a timestamp of the greatest offset that a text can
show, is read back as it was written and with its error put first. -/
theorem kept_by_json_of_failed_lookup :
    let t : Timestamp := ⟨719163 * Timestamp.day, 86340, by decide, by decide⟩
    let list : Value := .list [.int 1, .timestamp t, .null]
    let error : EvaluationError := .environment (.notFound .payloadField "amount")
    let record : Evaluation := ⟨.payload, some list, some error, [], []⟩
    record.Writable ∧ ofJson? record.toJson = some record ∧
      ofJson? (.object [("error", error.toJson), ("function", .string "Payload"),
        ("return_value", list.toJson)]) = some record := by
  intro t list error record
  have finite : list.allFinite = true := rfl
  have t_writable : Rfc3339.Writable t := by decide
  have writable : record.Writable := by
    refine ⟨fun part mem v given => ?_, fun part mem => ?_⟩
    · obtain rfl := List.mem_singleton.mp mem
      obtain rfl := Option.mem_some_iff.mp given
      refine ⟨list.allFinite_eq_true_iff.mp finite, fun u within => ?_⟩
      obtain same | ⟨item, mem, within⟩ := Value.within_list_iff.mp within
      · cases same
      simp only [List.mem_cons, List.not_mem_nil, or_false] at mem
      rcases mem with rfl | rfl | rfl <;> cases within
      exact t_writable
    · obtain rfl := List.mem_singleton.mp mem
      exact Keyed.ascending_nil
  obtain ⟨-, read, in_any_order, -⟩ := kept_by_json record writable
  refine ⟨writable, read, in_any_order _ ⟨_, .refl _, _, ?_, rfl⟩⟩
  have moved (a b c : String × Json) : [c, a, b].Perm [a, b, c] :=
    (List.perm_append_comm : ([c] ++ [a, b]).Perm ([a, b] ++ [c]))
  exact moved _ _ _

/-! ### Offsets of a day and more -/

theorem shown_of_ofFields? {f : Json.Fields Reading} {e : Evaluation}
    (read : ofFields? f = some e) : ∀ v ∈ e.value, v.Shown := by
  simp only [ofFields?, Option.bind_eq_bind, Option.bind_eq_some_iff, Option.pure_def,
    Option.some.injEq] at read
  obtain ⟨func, -, value, value_read, error, -, children, -, named, -, rfl⟩ := read
  rcases Json.Fields.exists_of_optional value_read with rfl | ⟨entry, -, here⟩
  · rintro v ⟨⟩
  · rintro v rfl
    exact Value.shown_of_ofJson? (Json.eq_some_of_toOption? here)

/-- The value of a record that is read from a document has only offsets that texts show. -/
theorem shown_of_ofJson? {e : Evaluation} (read : ofJson? j = some e) : ∀ v ∈ e.value, v.Shown := by
  cases j with
  | array | object =>
    obtain ⟨f, -, read⟩ := Option.bind_eq_some_iff.mp read
    exact shown_of_ofFields? read
  | _ => cases read

/-- A clock may be a whole day ahead of UTC, in whole minutes, and no document shows such an offset:
the record of the timestamp 1970-01-02T00:00:00+24:00 cannot be written, no document is read as it,
and the one that would show it is not read at all. -/
theorem day_ahead_without_document :
    let t : Timestamp := ⟨719163 * Timestamp.day, 86400, by decide, by decide⟩
    let record : Evaluation := ⟨.constant, some (.timestamp t), none, [], []⟩
    (∀ part ∈ record.records, Keyed.Ascending part.named ∧ ∀ v ∈ part.value, v.Finite ∧
      ∀ u, (Value.timestamp u).Within v →
        0 ≤ u.date.year ∧ u.date.year ≤ 9999 ∧ u.offset % 60 = 0) ∧
    record.toJson.written = .error (.unwritten .offsetHourNotWritable) ∧
    (∀ j, ofJson? j ≠ some record) ∧
    ofJson? (.object [("function", .string "Constant"),
      ("return_value", Value.tagged .timestamp (.string "1970-01-02T00:00:00+24:00")),
      ("error", .null)]) = none := by
  intro t record
  have shows : 0 ≤ t.date.year ∧ t.date.year ≤ 9999 ∧ t.offset % 60 = 0 := by decide
  have unshown : ¬Rfc3339.ShownOffset t.offset := fun shown =>
    absurd shown.within_day.2 (by decide)
  refine ⟨fun part mem => ?_, rfl, fun j read => ?_, by decide⟩
  · obtain rfl := List.mem_singleton.mp mem
    refine ⟨Keyed.ascending_nil, ?_⟩
    rintro _ ⟨⟩
    refine ⟨nofun, fun u within => ?_⟩
    cases within
    exact shows
  · exact unshown (Value.shown_timestamp_iff.mp (shown_of_ofJson? read _ rfl))

end Evaluation

end RiskRules
