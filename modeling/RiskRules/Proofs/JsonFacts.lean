import RiskRules.Proofs.FiniteDocuments
import RiskRules.Proofs.MemberOrder

/-!
Facts read from JSON documents. A document has a value of its shape exactly if no object stands in
it, at whatever depth, and then the value has its items, texts, truth values and integers
(`Value.exists_ofPlain_iff`, `Value.mirrors_of_ofPlain`). A payload is an object whose fields all
have such values, lists are an object of arrays that do; what is known afterwards is exactly that,
and otherwise the first key that is to blame is named (`Facts.documents_become_facts`).
-/

namespace RiskRules

/-! ### Documents -/

namespace Json

/-- An object stands in the value, be it the value itself or at some depth of its arrays. -/
inductive HoldsObject : Json → Prop
  | object (members : List (String × Json)) : HoldsObject (.object members)
  | item {item : Json} {items : List Json} (mem : item ∈ items) (holds : HoldsObject item) :
    HoldsObject (.array items)

theorem holdsObject_array_iff {items : List Json} :
    HoldsObject (.array items) ↔ ∃ item ∈ items, item.HoldsObject := by
  constructor
  · intro holds
    cases holds with
    | item mem holds => exact ⟨_, mem, holds⟩
  · rintro ⟨item, mem, holds⟩
    exact .item mem holds

/-- The value that stands last under a key of an object. -/
def lastUnder? (key : String) (members : List (String × Json)) : Option Json :=
  members.reverse.lookup key

/-- The first key in ascending order under which something stands that is to blame. -/
structure FirstBlamed (blame : Json → Prop) (members : List (String × Json)) (key : String)
    (value : Json) : Prop where
  stands : lastUnder? key members = some value
  blamed : blame value
  first : ∀ earlier other, earlier < key → lastUnder? earlier members = some other → ¬blame other

end Json

namespace Keyed

variable {α : Type}

/-- Of several values under one key the last counts. -/
theorem get?_foldl_insert (key : String) (pairs sorted : List (String × α)) :
    get? key (pairs.foldl (fun sorted pair => insert pair.1 pair.2 sorted) sorted)
      = (pairs.reverse.lookup key).or (get? key sorted) := by
  induction pairs generalizing sorted with
  | nil => rfl
  | cons pair rest ih =>
    obtain ⟨k, v⟩ := pair
    rw [List.foldl_cons, ih, get?_insert, List.reverse_cons, List.lookup_append,
      Option.or_assoc, List.lookup_cons]
    by_cases same : k = key
    · subst same
      simp
    · have other : (key == k) = false := beq_false_of_ne (Ne.symm same)
      simp [same, other]

theorem get?_ofList (key : String) (pairs : List (String × α)) :
    get? key (ofList pairs) = pairs.reverse.lookup key := by
  rw [ofList, get?_foldl_insert, get?, Option.or_none]

/-- Pairs in order that are put over others cover these under their own keys. -/
theorem Ascending.get?_foldl_insert {pairs : List (String × α)} (ordered : Ascending pairs)
    (key : String) (sorted : List (String × α)) :
    get? key (pairs.foldl (fun sorted pair => Keyed.insert pair.1 pair.2 sorted) sorted)
      = (get? key pairs).or (get? key sorted) := by
  rw [Keyed.get?_foldl_insert, ← get?_ofList, ordered.ofList_eq]

end Keyed

/-! ### Values -/

namespace Value

/-- The value has the shape of the document: the same items in the same order, the same null, truth
values, texts and numbers. An integer is the same integer as far as signed words reach, and the
nearest binary64 number above; below, documents have none. -/
inductive Mirrors : Json → Value → Prop
  | null : Mirrors .null .null
  | bool (b : Bool) : Mirrors (.bool b) (.bool b)
  | int {n : Int} {v : Value}
    (exact : Signed64.least ≤ n → n ≤ Signed64.greatest → ∃ i, v = .int i ∧ i.toInt = n)
    (nearest : Signed64.greatest < n → v = .float (Json.floatOfInt n)) : Mirrors (.int n) v
  | float (x : Float) : Mirrors (.float x) (.float x)
  | string (s : String) : Mirrors (.string s) (.string s)
  | array {items : List Json} {values : List Value} (each : List.Forall₂ Mirrors items values) :
    Mirrors (.array items) (.list values)

theorem mirrors_int (n : Int) : Mirrors (.int n)
    (if n < 0x8000000000000000 then .int (Int64.ofInt n) else .float (Json.floatOfInt n)) := by
  constructor
  · intro low high
    have small : n < 0x8000000000000000 := by
      rw [Signed64.greatest] at high
      omega
    rw [if_pos small]
    exact ⟨_, rfl, Signed64.toInt_ofInt_of_fits ⟨low, high⟩⟩
  · intro large
    rw [Signed64.greatest] at large
    rw [if_neg (by omega)]

/-- A conversion has gone well if it gives a value of the document's shape and the document holds no
object; it has been refused if the document holds one. -/
inductive Conversion (j : Json) : Except ConversionError Value → Prop
  | converted {v : Value} (plain : ¬j.HoldsObject) (mirrors : Mirrors j v) : Conversion j (.ok v)
  | refused (holds : j.HoldsObject) : Conversion j (.error .object)

mutual

theorem conversion_ofPlain : ∀ j : Json, j.readable = true → Conversion j (ofPlain j)
  | .null, _ => .converted nofun .null
  | .bool b, _ => .converted nofun (.bool b)
  | .int n, _ => .converted nofun (mirrors_int n)
  | .float x, _ => .converted nofun (.float x)
  | .string s, _ => .converted nofun (.string s)
  | .array items, readable => by
    rw [ofPlain]
    rcases conversion_ofPlainItems items readable with ⟨values, all, each, plain⟩ | ⟨refused, holds⟩
    · rw [all]
      refine .converted ?_ (.array each)
      rw [Json.holdsObject_array_iff]
      rintro ⟨item, mem, holds⟩
      exact plain item mem holds
    · rw [refused]
      exact .refused (Json.holdsObject_array_iff.mpr holds)
  | .object members, _ => .refused (.object members)
  | .unreadable _, readable => by cases readable

theorem conversion_ofPlainItems : ∀ items : List Json, Json.readableItems items = true →
    (∃ values, ofPlainItems items = .ok values ∧ List.Forall₂ Mirrors items values ∧
      ∀ item ∈ items, ¬item.HoldsObject) ∨
    ofPlainItems items = .error .object ∧ ∃ item ∈ items, item.HoldsObject
  | [], _ => .inl ⟨[], rfl, .nil, nofun⟩
  | item :: rest, readable => by
    rw [Json.readableItems, Bool.and_eq_true] at readable
    obtain ⟨item_readable, rest_readable⟩ := readable
    have here := conversion_ofPlain item item_readable
    have later := conversion_ofPlainItems rest rest_readable
    rw [ofPlainItems]
    generalize ofPlain item = first at here
    cases here with
    | refused holds => exact .inr ⟨rfl, item, List.mem_cons_self, holds⟩
    | @converted v plain mirrors =>
      rcases later with ⟨values, all, each, rest_plain⟩ | ⟨refused, other, mem, holds⟩
      · rw [all]
        exact .inl ⟨v :: values, rfl, .cons mirrors each, List.forall_mem_cons.mpr ⟨plain, rest_plain⟩⟩
      · rw [refused]
        exact .inr ⟨rfl, other, List.mem_cons_of_mem _ mem, holds⟩

end

section

variable {j : Json}

/-- A document converts exactly if no object stands in it. -/
theorem exists_ofPlain_iff (readable : j.readable = true) :
    (∃ v, ofPlain j = .ok v) ↔ ¬j.HoldsObject := by
  have outcome := conversion_ofPlain j readable
  generalize ofPlain j = result at outcome
  cases outcome with
  | converted plain => simp [plain]
  | refused holds => simp [holds]

theorem ofPlain_eq_error_iff (readable : j.readable = true) {e : ConversionError} :
    ofPlain j = .error e ↔ j.HoldsObject ∧ e = .object := by
  have outcome := conversion_ofPlain j readable
  generalize ofPlain j = result at outcome
  cases outcome with
  | converted plain => simp [plain]
  | refused holds => simp [holds, eq_comm]

theorem mirrors_of_ofPlain (readable : j.readable = true) {v : Value} (taken : ofPlain j = .ok v) :
    Mirrors j v := by
  have outcome := conversion_ofPlain j readable
  rw [taken] at outcome
  cases outcome with
  | converted _ mirrors => exact mirrors

/-- What converts to a list is an array. -/
theorem exists_ofPlain_list_iff (readable : j.readable = true) :
    (∃ values, ofPlain j = .ok (.list values)) ↔
      (∃ items, j = .array items) ∧ ¬j.HoldsObject := by
  rw [← exists_ofPlain_iff readable]
  constructor
  · rintro ⟨values, taken⟩
    refine ⟨?_, _, taken⟩
    cases j with
    | array items => exact ⟨items, rfl⟩
    | int n =>
      rw [ofPlain] at taken
      split at taken <;> cases taken
    | _ => cases taken
  · rintro ⟨⟨items, rfl⟩, v, taken⟩
    have mirrors := mirrors_of_ofPlain readable taken
    cases mirrors with
    | array each => exact ⟨_, taken⟩

end

end Value

/-! ### Objects, member by member -/

namespace Json

/-- The value is an object, and what stands under each of its keys is of a kind. -/
def EachField (ok : Json → Prop) (j : Json) : Prop :=
  ∃ members, j = .object members ∧ ∀ key value, lastUnder? key members = some value → ok value

theorem eachField_object_iff {ok : Json → Prop} {members : List (String × Json)} :
    EachField ok (.object members)
      ↔ ∀ key value, lastUnder? key members = some value → ok value := by
  constructor
  · rintro ⟨_, is, each⟩
    cases is
    exact each
  · intro each
    exact ⟨members, rfl, each⟩

/-- The members that are left once each key stands for its last value. -/
theorem mem_ofList_iff {members : List (String × Json)} {key : String} {value : Json} :
    (key, value) ∈ Keyed.ofList members ↔ lastUnder? key members = some value := by
  rw [← (Keyed.ascending_ofList members).get?_eq_some_iff, Keyed.get?_ofList, lastUnder?]

theorem readable_of_lastUnder? {members : List (String × Json)}
    (readable : (Json.object members).readable = true) {key : String} {value : Json}
    (stands : lastUnder? key members = some value) : value.readable = true := by
  have mem := Keyed.mem_of_mem_ofList (mem_ofList_iff.mpr stands)
  exact readableMembers_iff.mp readable _ mem

end Json

/-! ### Facts -/

namespace Facts

open Json (lastUnder? EachField FirstBlamed)

section Reading

variable {α : Type} {lookup : LookupKind} {convert : Json → Except String α}
  {members : List (String × Json)} {values : List (String × α)} {e : EnvironmentError}

/-- A member whose value is converted; the key is named if the conversion fails. -/
def readMember (lookup : LookupKind) (convert : Json → Except String α) (member : String × Json) :
    Except EnvironmentError (String × α) :=
  match convert member.2 with
  | .ok value => .ok (member.1, value)
  | .error reason => .error (.invalidValue lookup member.1 reason)

theorem readMember_eq_ok_iff {member : String × Json} {pair : String × α} :
    readMember lookup convert member = .ok pair
      ↔ pair.1 = member.1 ∧ convert member.2 = .ok pair.2 := by
  obtain ⟨key, value⟩ := pair
  rw [readMember]
  cases convert member.2 <;> simp [eq_comm]

theorem readMember_eq_error_iff {member : String × Json} :
    readMember lookup convert member = .error e
      ↔ ∃ reason, convert member.2 = .error reason ∧ e = .invalidValue lookup member.1 reason := by
  rw [readMember]
  cases convert member.2 <;> simp [eq_comm]

/-- The members are read exactly if each field converts. -/
theorem exists_readMembers_iff :
    (∃ values, (Keyed.ofList members).mapM (readMember lookup convert) = .ok values)
      ↔ EachField (fun value => ∃ a, convert value = .ok a) (.object members) := by
  rw [exists_mapM_eq_ok_iff, Json.eachField_object_iff]
  constructor
  · intro each key value stands
    obtain ⟨pair, read⟩ := each _ (Json.mem_ofList_iff.mpr stands)
    exact ⟨pair.2, (readMember_eq_ok_iff.mp read).2⟩
  · rintro each ⟨key, value⟩ mem
    obtain ⟨a, converted⟩ := each key value (Json.mem_ofList_iff.mp mem)
    exact ⟨(key, a), readMember_eq_ok_iff.mpr ⟨rfl, converted⟩⟩

/-- Every key is looked up to what its last value converts to. -/
theorem readMembers_get?
    (read : (Keyed.ofList members).mapM (readMember lookup convert) = .ok values) :
    Keyed.Ascending values ∧ ∀ key, Option.Rel (fun value a => convert value = .ok a)
      (lastUnder? key members) (Keyed.get? key values) := by
  have each := mapM_eq_ok_iff.mp read
  simp only [readMember_eq_ok_iff] at each
  have keys : values.map Prod.fst = (Keyed.ofList members).map Prod.fst :=
    map_eq_of_forall₂ each fun _ _ here => here.1
  constructor
  · rw [Keyed.ascending_iff_keys, keys, ← Keyed.ascending_iff_keys]
    exact Keyed.ascending_ofList members
  · intro key
    rw [lastUnder?, ← Keyed.get?_ofList]
    exact Keyed.forall₂_get? (each.imp fun _ _ here => ⟨here.1.symm, here.2⟩) key

/-- What is put over other pairs covers them under the given keys and leaves the others alone. -/
theorem get?_put_readMembers
    (read : (Keyed.ofList members).mapM (readMember lookup convert) = .ok values) (key : String)
    (before : List (String × α)) :
    (∀ value, lastUnder? key members = some value → ∃ a, convert value = .ok a ∧ Keyed.get? key
      (values.foldl (fun sorted pair => Keyed.insert pair.1 pair.2 sorted) before) = some a) ∧
    (lastUnder? key members = none → Keyed.get? key
      (values.foldl (fun sorted pair => Keyed.insert pair.1 pair.2 sorted) before)
        = Keyed.get? key before) := by
  obtain ⟨ordered, found⟩ := readMembers_get? read
  rw [ordered.get?_foldl_insert]
  have here := found key
  generalize lastUnder? key members = standing at here
  generalize Keyed.get? key values = put at here
  cases here with
  | none => exact ⟨nofun, fun _ => rfl⟩
  | some converted =>
    refine ⟨?_, nofun⟩
    rintro _ ⟨⟩
    exact ⟨_, converted, rfl⟩

/-- Reading the members fails at the first key whose value does not convert. -/
theorem readMembers_eq_error_iff :
    (Keyed.ofList members).mapM (readMember lookup convert) = .error e
      ↔ ∃ key value reason, FirstBlamed (fun value => ∃ reason, convert value = .error reason)
          members key value ∧ convert value = .error reason ∧
          e = .invalidValue lookup key reason := by
  have ordered := Keyed.ascending_ofList members
  rw [mapM_eq_error_iff]
  constructor
  · rintro ⟨before, ⟨key, value⟩, later, split, taken, failed⟩
    obtain ⟨reason, refused, rfl⟩ := readMember_eq_error_iff.mp failed
    have stands : lastUnder? key members = some value :=
      Json.mem_ofList_iff.mp (split ▸ List.mem_append_right before List.mem_cons_self)
    refine ⟨key, value, reason, ⟨stands, ⟨reason, refused⟩, ?_⟩, refused, rfl⟩
    intro earlier other less other_stands
    -- a smaller key stands before the failing one, where everything was read
    have mem : (earlier, other) ∈ before ++ (key, value) :: later :=
      split ▸ Json.mem_ofList_iff.mpr other_stands
    rw [split] at ordered
    obtain ⟨-, behind, -⟩ := List.pairwise_append.mp ordered
    rcases List.mem_append.mp mem with mem | mem
    · obtain ⟨pair, read⟩ := taken _ mem
      rintro ⟨_, failed⟩
      rw [(readMember_eq_ok_iff.mp read).2] at failed
      cases failed
    · rcases List.mem_cons.mp mem with same | mem
      · cases same
        exact absurd less (String.lt_irrefl key)
      · have more := (List.pairwise_cons.mp behind).1 _ mem
        exact absurd (String.lt_trans less more) (String.lt_irrefl earlier)
  · rintro ⟨key, value, reason, ⟨stands, -, first⟩, refused, rfl⟩
    obtain ⟨before, later, split⟩ := List.append_of_mem (Json.mem_ofList_iff.mpr stands)
    refine ⟨before, (key, value), later, split, ?_,
      readMember_eq_error_iff.mpr ⟨reason, refused, rfl⟩⟩
    rintro ⟨earlier, other⟩ mem
    rw [split] at ordered
    have less : earlier < key :=
      (List.pairwise_append.mp ordered).2.2 _ mem _ List.mem_cons_self
    have other_stands : lastUnder? earlier members = some other :=
      Json.mem_ofList_iff.mp (split ▸ List.mem_append_left _ mem)
    have plain := first earlier other less other_stands
    rw [← not_ok_iff, not_not] at plain
    obtain ⟨a, converted⟩ := plain
    exact ⟨(earlier, a), readMember_eq_ok_iff.mpr ⟨rfl, converted⟩⟩

/-- If each member is taken by converting its value and putting it, all members are read and then
all is put. -/
theorem addEach_eq {take : Facts → String → Json → Except EnvironmentError Facts}
    {put : Facts → String → α → Facts}
    (taken : ∀ facts key j, take facts key j
      = (fun pair => put facts pair.1 pair.2) <$> readMember lookup convert (key, j))
    (facts : Facts) (members : List (String × Json)) :
    addEach take facts members
      = (fun values => values.foldl (fun facts pair => put facts pair.1 pair.2) facts)
        <$> members.mapM (readMember lookup convert) := by
  induction members generalizing facts with
  | nil => rfl
  | cons member rest ih =>
    obtain ⟨key, value⟩ := member
    rw [addEach, taken, List.mapM_cons]
    cases readMember lookup convert (key, value) with
    | error e => rfl
    | ok pair =>
      refine (ih (put facts pair.1 pair.2)).trans ?_
      cases rest.mapM (readMember lookup convert) <;> rfl

end Reading

/-- A payload field as JSON gives it. -/
def fieldOf (j : Json) : Except String Value :=
  match Value.ofPlain j with
  | .ok value => .ok value
  | .error e => .error e.message

/-- A list as JSON gives it. -/
def listOf (j : Json) : Except String (List Value) :=
  match Value.ofPlain j with
  | .ok (.list values) => .ok values
  | .ok _ => .error "list contents must be a json array"
  | .error e => .error e.message

/-- What is wrong with a payload field. -/
inductive FieldBlame (j : Json) : String → Prop
  | object (holds : j.HoldsObject) : FieldBlame j Value.ConversionError.object.message

/-- What is wrong with a list: an object stands in it, or it is no array. -/
inductive ListBlame (j : Json) : String → Prop
  | object (holds : j.HoldsObject) : ListBlame j Value.ConversionError.object.message
  | shape (plain : ¬j.HoldsObject) (other : ∀ items, j ≠ .array items) :
    ListBlame j "list contents must be a json array"

section

variable {j : Json}

theorem fieldOf_eq_ok_iff {v : Value} : fieldOf j = .ok v ↔ Value.ofPlain j = .ok v := by
  rw [fieldOf]
  cases Value.ofPlain j <;> simp

theorem fieldOf_eq_error_iff (readable : j.readable = true) {reason : String} :
    fieldOf j = .error reason ↔ FieldBlame j reason := by
  have outcome := Value.conversion_ofPlain j readable
  rw [fieldOf]
  generalize Value.ofPlain j = result at outcome
  cases outcome with
  | converted plain =>
    refine iff_of_false nofun ?_
    rintro ⟨holds⟩
    exact plain holds
  | refused holds =>
    constructor
    · rintro ⟨⟩
      exact .object holds
    · rintro ⟨-⟩
      rfl

theorem listOf_eq_ok_iff {values : List Value} :
    listOf j = .ok values ↔ Value.ofPlain j = .ok (.list values) := by
  rw [listOf]
  split <;> simp_all

theorem listOf_eq_error_iff (readable : j.readable = true) {reason : String} :
    listOf j = .error reason ↔ ListBlame j reason := by
  by_cases holds : j.HoldsObject
  · rw [listOf, (Value.ofPlain_eq_error_iff readable).mpr ⟨holds, rfl⟩]
    constructor
    · rintro ⟨⟩
      exact .object holds
    · rintro (- | ⟨plain, -⟩)
      · rfl
      · exact absurd holds plain
  obtain ⟨v, taken⟩ := (Value.exists_ofPlain_iff readable).mpr holds
  have is_list := Value.exists_ofPlain_list_iff readable
  by_cases list : ∃ values, v = .list values
  · obtain ⟨values, rfl⟩ := list
    obtain ⟨⟨items, is_array⟩, -⟩ := is_list.mp ⟨values, taken⟩
    rw [listOf_eq_ok_iff.mpr taken]
    refine iff_of_false nofun ?_
    rintro (here | ⟨-, other⟩)
    · exact holds here
    · exact other items is_array
  · have other : ∀ items, j ≠ .array items := by
      intro items is_array
      obtain ⟨values, given⟩ := is_list.mpr ⟨⟨items, is_array⟩, holds⟩
      rw [taken] at given
      cases given
      exact list ⟨values, rfl⟩
    have refused : listOf j = .error "list contents must be a json array" := by
      rw [listOf, taken]
      cases v with
      | list values => exact absurd ⟨values, rfl⟩ list
      | _ => rfl
    rw [refused]
    constructor
    · rintro ⟨⟩
      exact .shape holds other
    · rintro (here | -)
      · exact absurd here holds
      · rfl

theorem takePayload_eq (facts : Facts) (key : String) (j : Json) : takePayload facts key j
    = (fun pair => facts.withPayload pair.1 pair.2)
      <$> readMember .payloadField fieldOf (key, j) := by
  rw [takePayload, readMember, fieldOf]
  cases Value.ofPlain j <;> rfl

theorem takeList_eq (facts : Facts) (key : String) (j : Json) : takeList facts key j
    = (fun pair => facts.withList pair.1 pair.2) <$> readMember .list listOf (key, j) := by
  rw [takeList, readMember, listOf]
  cases Value.ofPlain j with
  | error e => rfl
  | ok v => cases v <;> rfl

end

/-- Why a document is refused: it is no object, or the first key that is to blame is named. -/
inductive Refusal (lookup : LookupKind) (shape : String) (blame : Json → String → Prop) (j : Json) :
    EnvironmentError → Prop
  | shape (other : ∀ members, j ≠ .object members) :
    Refusal lookup shape blame j (.invalidValue lookup "$" shape)
  | field {members : List (String × Json)} {key : String} {value : Json} {reason : String}
    (is_object : j = .object members)
    (first : FirstBlamed (fun value => ∃ reason, blame value reason) members key value)
    (why : blame value reason) : Refusal lookup shape blame j (.invalidValue lookup key reason)

/-- The environment knows the fields of a payload, converted, and nothing else. -/
structure KnowsPayload (members : List (String × Json)) (env : Environment) : Prop where
  given : ∀ key value, lastUnder? key members = some value →
    ∃ v, Value.ofPlain value = .ok v ∧ env.payloadField key = .ok v
  absent : ∀ key, lastUnder? key members = none →
    env.payloadField key = .error (.error (.notFound .payloadField key))
  lists : ∀ name, env.listItems name = .error (.error (.notFound .list name))
  related : ∀ table field path, env.relatedField table field path
    = .error (.error (.notFound .relatedField (table ++ "." ++ field)))
  values : ∀ name, env.variableValue name = .error (.error (.notFound .variable name))

/-- The environment knows the given lists, converted, and otherwise answers as another does. -/
structure KnowsLists (members : List (String × Json)) (before env : Environment) : Prop where
  given : ∀ key value, lastUnder? key members = some value →
    ∃ values, Value.ofPlain value = .ok (.list values) ∧ env.listItems key = .ok values
  others : ∀ key, lastUnder? key members = none → env.listItems key = before.listItems key
  payload : env.payloadField = before.payloadField
  related : env.relatedField = before.relatedField
  values : env.variableValue = before.variableValue

section

variable {known facts : Facts} {members : List (String × Json)} {e : EnvironmentError} {j : Json}

theorem foldl_withPayload (known : Facts) (values : List (String × Value)) :
    values.foldl (fun facts pair => facts.withPayload pair.1 pair.2) known
      = { known with payload :=
          values.foldl (fun sorted pair => Keyed.insert pair.1 pair.2 sorted) known.payload } := by
  induction values generalizing known with
  | nil => rfl
  | cons pair rest ih => exact ih (known.withPayload pair.1 pair.2)

theorem foldl_withList (known : Facts) (values : List (String × List Value)) :
    values.foldl (fun facts pair => facts.withList pair.1 pair.2) known
      = { known with lists :=
          values.foldl (fun sorted pair => Keyed.insert pair.1 pair.2 sorted) known.lists } := by
  induction values generalizing known with
  | nil => rfl
  | cons pair rest ih => exact ih (known.withList pair.1 pair.2)

theorem knowsPayload_of_ofPayload (made : ofPayload (.object members) = .ok facts) :
    KnowsPayload members facts.toEnvironment := by
  rw [ofPayload, addEach_eq takePayload_eq, map_eq_ok_iff] at made
  obtain ⟨fields, read, rfl⟩ := made
  rw [foldl_withPayload]
  refine ⟨fun key value stands => ?_, fun key stands => ?_, fun _ => rfl, fun _ _ _ => rfl,
    fun _ => rfl⟩
  · obtain ⟨v, converted, put⟩ := (get?_put_readMembers read key []).1 value stands
    exact ⟨v, fieldOf_eq_ok_iff.mp converted, answer_eq_ok_iff.mpr put⟩
  · have nothing := (get?_put_readMembers read key []).2 stands
    exact congrArg (answer .payloadField key) nothing

theorem knowsLists_of_addLists (added : known.addLists (.object members) = .ok facts) :
    KnowsLists members known.toEnvironment facts.toEnvironment := by
  rw [addLists, addEach_eq takeList_eq, map_eq_ok_iff] at added
  obtain ⟨lists, read, rfl⟩ := added
  rw [foldl_withList]
  refine ⟨fun key value stands => ?_, fun key stands => ?_, rfl, rfl, rfl⟩
  · obtain ⟨values, converted, put⟩ := (get?_put_readMembers read key known.lists).1 value stands
    exact ⟨values, listOf_eq_ok_iff.mp converted, answer_eq_ok_iff.mpr put⟩
  · have same := (get?_put_readMembers read key known.lists).2 stands
    exact congrArg (answer .list key) same

/-- Members are refused as the first key to blame says, if a conversion fails as it is blamed. -/
theorem readMembers_refused_iff {α : Type} {lookup : LookupKind}
    {convert : Json → Except String α} {blame : Json → String → Prop} {shape : String}
    (readable : (Json.object members).readable = true)
    (refused : ∀ {j : Json}, j.readable = true → ∀ {reason : String},
      convert j = .error reason ↔ blame j reason) :
    (Keyed.ofList members).mapM (readMember lookup convert) = .error e
      ↔ Refusal lookup shape blame (.object members) e := by
  have same {key value} (stands : lastUnder? key members = some value) {reason : String} :
      convert value = .error reason ↔ blame value reason :=
    refused (Json.readable_of_lastUnder? readable stands)
  rw [readMembers_eq_error_iff]
  constructor
  · rintro ⟨key, value, reason, ⟨stands, -, first⟩, failed, rfl⟩
    have why := (same stands).mp failed
    refine .field rfl ⟨stands, ⟨reason, why⟩, ?_⟩ why
    intro earlier other less other_stands
    simpa only [← same other_stands] using first earlier other less other_stands
  · intro refusal
    cases refusal with
    | shape other => exact absurd rfl (other members)
    | @field _ key value reason is_object first why =>
      cases is_object
      obtain ⟨stands, -, first⟩ := first
      have failed := (same stands).mpr why
      refine ⟨key, value, reason, ⟨stands, ⟨reason, failed⟩, ?_⟩, failed, rfl⟩
      intro earlier other less other_stands
      simpa only [same other_stands] using first earlier other less other_stands

/-- What is no object is refused as such. -/
theorem refusal_other_iff {lookup : LookupKind} {blame : Json → String → Prop} {shape : String}
    (other : ∀ members, j ≠ .object members) :
    Refusal lookup shape blame j e ↔ e = .invalidValue lookup "$" shape := by
  constructor
  · intro refusal
    cases refusal with
    | shape => rfl
    | field is_object => exact absurd is_object (other _)
  · rintro rfl
    exact .shape other

theorem ofPayload_eq_error_iff (readable : j.readable = true) :
    ofPayload j = .error e
      ↔ Refusal .payloadField "payload must be a json object" FieldBlame j e := by
  cases j with
  | object members =>
    rw [ofPayload, addEach_eq takePayload_eq, map_eq_error_iff]
    exact readMembers_refused_iff readable fieldOf_eq_error_iff
  | _ =>
    rw [refusal_other_iff (by nofun), ofPayload, Except.error.injEq]
    · exact eq_comm
    · nofun

theorem addLists_eq_error_iff (readable : j.readable = true) :
    known.addLists j = .error e
      ↔ Refusal .list "lists must be a json object" ListBlame j e := by
  cases j with
  | object members =>
    rw [addLists, addEach_eq takeList_eq, map_eq_error_iff]
    exact readMembers_refused_iff readable listOf_eq_error_iff
  | _ =>
    rw [refusal_other_iff (by nofun), addLists, Except.error.injEq]
    · exact eq_comm
    · nofun

/-- A payload is an object in whose fields no object stands. -/
theorem exists_ofPayload_iff (readable : j.readable = true) :
    (∃ facts, ofPayload j = .ok facts) ↔ j.EachField fun value => ¬value.HoldsObject := by
  cases j with
  | object members =>
    simp only [ofPayload, addEach_eq takePayload_eq, exists_map_eq_ok_iff]
    rw [exists_readMembers_iff, Json.eachField_object_iff, Json.eachField_object_iff]
    refine forall₂_congr fun key value => imp_congr_right fun stands => ?_
    simp only [fieldOf_eq_ok_iff]
    exact Value.exists_ofPlain_iff (Json.readable_of_lastUnder? readable stands)
  | _ => exact iff_of_false nofun nofun

/-- Lists are an object of arrays in which no object stands. -/
theorem exists_addLists_iff (readable : j.readable = true) :
    (∃ facts, known.addLists j = .ok facts)
      ↔ j.EachField fun value => (∃ items, value = .array items) ∧ ¬value.HoldsObject := by
  cases j with
  | object members =>
    simp only [addLists, addEach_eq takeList_eq, exists_map_eq_ok_iff]
    rw [exists_readMembers_iff, Json.eachField_object_iff, Json.eachField_object_iff]
    refine forall₂_congr fun key value => imp_congr_right fun stands => ?_
    simp only [listOf_eq_ok_iff]
    exact Value.exists_ofPlain_list_iff (Json.readable_of_lastUnder? readable stands)
  | _ => exact iff_of_false nofun nofun

end

/-- Documents become facts or are refused by name. A document has a value exactly if no object
stands in it, and the value has its shape. A payload is read exactly if it is an object all of whose
fields have values; its fields are then known and nothing else. Lists are added exactly if each is
an array that has a value; they are then known and everything else is as it was. A document that is
no object is refused under the name `$`, any other under its first key that is to blame. -/
theorem documents_become_facts (known : Facts) {j : Json} (readable : j.readable = true) :
    ((∃ v, Value.ofPlain j = .ok v) ↔ ¬j.HoldsObject) ∧
    (∀ v, Value.ofPlain j = .ok v → Value.Mirrors j v) ∧
    ((∃ facts, ofPayload j = .ok facts) ↔ j.EachField fun value => ¬value.HoldsObject) ∧
    (∀ members facts, j = .object members → ofPayload j = .ok facts →
      KnowsPayload members facts.toEnvironment) ∧
    (∀ e, ofPayload j = .error e
      ↔ Refusal .payloadField "payload must be a json object" FieldBlame j e) ∧
    ((∃ facts, known.addLists j = .ok facts)
      ↔ j.EachField fun value => (∃ items, value = .array items) ∧ ¬value.HoldsObject) ∧
    (∀ members facts, j = .object members → known.addLists j = .ok facts →
      KnowsLists members known.toEnvironment facts.toEnvironment) ∧
    (∀ e, known.addLists j = .error e
      ↔ Refusal .list "lists must be a json object" ListBlame j e) := by
  refine ⟨Value.exists_ofPlain_iff readable, fun v => Value.mirrors_of_ofPlain readable,
    exists_ofPayload_iff readable, ?_, fun e => ofPayload_eq_error_iff readable,
    exists_addLists_iff readable, ?_, fun e => addLists_eq_error_iff readable⟩
  · rintro members facts rfl made
    exact knowsPayload_of_ofPayload made
  · rintro members facts rfl added
    exact knowsLists_of_addLists added

namespace Sample

/-- A payload that gives one field twice. -/
def repeating : Json :=
  .object [("links", .array [.int 1, .null]), ("country", .int 1), ("country", .string "NL")]

/-- A document that has objects in two fields, and under the first key a number. -/
def nested : Json :=
  .object [("names", .object []), ("links", .array [.object []]), ("country", .int 1)]

end Sample

/-- A field given twice has its last value; as a payload the other document is refused for the
first field with an object in it, as lists for the number before that. -/
theorem documents_become_facts_last_given : ∃ facts,
    ofPayload Sample.repeating = .ok facts ∧
    facts.toEnvironment.payloadField "country" = .ok (.string "NL") ∧
    facts.toEnvironment.payloadField "city" =
      .error (.error (.notFound .payloadField "city")) ∧
    ofPayload Sample.nested = .error
      (.invalidValue .payloadField "links" "json objects cannot be converted into a value") ∧
    facts.addLists Sample.nested = .error
      (.invalidValue .list "country" "list contents must be a json array") := by
  obtain ⟨-, -, -, knows, -⟩ := documents_become_facts empty (j := Sample.repeating) rfl
  refine ⟨_, rfl, ?_, (knows _ _ rfl rfl).absent "city" rfl, ?_, ?_⟩
  · obtain ⟨v, converted, found⟩ := (knows _ _ rfl rfl).given "country" _ rfl
    cases converted
    exact found
  · obtain ⟨-, -, -, -, refused, -⟩ := documents_become_facts empty (j := Sample.nested) rfl
    have inside : (Json.array [.object []]).HoldsObject :=
      .item List.mem_cons_self (.object [])
    refine (refused _).mpr (.field rfl ⟨rfl, ⟨_, .object inside⟩, ?_⟩ (.object inside))
    intro earlier other less stands
    have mem : (earlier, other) ∈ [("country", Json.int 1), ("links", .array [.object []]),
      ("names", .object [])] := Json.mem_ofList_iff.mpr stands
    rcases List.mem_cons.mp mem with here | mem
    · cases here
      rintro ⟨_, ⟨holds⟩⟩
      cases holds
    · have later : ∀ pair ∈ [("links", Json.array [.object []]), ("names", .object [])],
        ¬pair.1 < "links" := by decide
      exact absurd less (later _ mem)
  · obtain ⟨-, -, -, -, -, -, -, refused⟩ :=
      documents_become_facts _ (j := Sample.nested) rfl
    have number : ListBlame (.int 1) "list contents must be a json array" := .shape nofun nofun
    refine (refused _).mpr (.field rfl ⟨rfl, ⟨_, number⟩, ?_⟩ number)
    intro earlier other less stands
    have mem : (earlier, other) ∈ [("country", Json.int 1), ("links", .array [.object []]),
      ("names", .object [])] := Json.mem_ofList_iff.mpr stands
    have later : ∀ pair ∈ [("country", Json.int 1), ("links", .array [.object []]),
      ("names", .object [])], ¬pair.1 < "country" := by decide
    exact absurd less (later _ mem)

end Facts

end RiskRules
