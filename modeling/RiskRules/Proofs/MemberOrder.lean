import Mathlib.Data.List.Perm.Basic
import Mathlib.Data.List.Permutation
import RiskRules.Proofs.Construction
import RiskRules.Proofs.ValueText

/-!
JSON values up to the order of members. `Json.Reordered` says that two JSON values differ in nothing
but the order in which the members of their objects stand. Readers of records and of tagged
alternatives look fields up by name and so read a reordered object as they read the object itself
(`Json.fields?_of_perm`, `Json.tagged?_of_perm`); a value that can be written is read back from its
document in any order (`Value.ofJson?_of_reordered`).
-/

namespace RiskRules

/-! ### Pairs of distinct keys -/

namespace Keyed

variable {α : Type} {pairs given : List (String × α)}

/-- Where keys are distinct, a key is looked up to the value that stands under it. -/
theorem get?_eq_some_iff_of_distinct (distinct : (pairs.map Prod.fst).Nodup) {key : String}
    {value : α} : get? key pairs = some value ↔ (key, value) ∈ pairs := by
  induction pairs with
  | nil => simp [get?]
  | cons pair rest ih =>
    obtain ⟨k, v⟩ := pair
    obtain ⟨fresh, distinct⟩ := List.nodup_cons.mp distinct
    rw [get?]
    split
    · rename_i same
      subst same
      have absent : (k, value) ∉ rest := fun mem => fresh (List.mem_map.mpr ⟨_, mem, rfl⟩)
      simp [absent, eq_comm]
    · rename_i other
      simp [ih distinct, Ne.symm other]

/-- Where keys are distinct, it does not matter in which order they stand. -/
theorem get?_of_perm (perm : given.Perm pairs) (distinct : (pairs.map Prod.fst).Nodup)
    (key : String) : get? key given = get? key pairs := by
  have given_distinct : (given.map Prod.fst).Nodup := (perm.map Prod.fst).nodup_iff.mpr distinct
  refine Option.ext fun value => ?_
  rw [get?_eq_some_iff_of_distinct given_distinct, get?_eq_some_iff_of_distinct distinct,
    perm.mem_iff]

theorem get?_filter {key : String} {keep : String → Bool} (kept : keep key = true) :
    get? key (pairs.filter fun pair => keep pair.1) = get? key pairs := by
  induction pairs with
  | nil => rfl
  | cons pair rest ih =>
    obtain ⟨k, v⟩ := pair
    rw [List.filter_cons]
    split
    · rw [get?, get?, ih]
    · rename_i dropped
      have other : k ≠ key := fun same => dropped (same ▸ kept)
      rw [ih, get?, if_neg other]

theorem get?_map {β : Type} (f : α → β) (key : String) :
    get? key (pairs.map fun pair => (pair.1, f pair.2)) = (get? key pairs).map f := by
  induction pairs with
  | nil => rfl
  | cons pair rest ih =>
    rw [List.map_cons, get?, get?, ih]
    split <;> rfl

theorem firstRepeat_eq_none_iff {seen keys : List String} :
    firstRepeat seen keys = none ↔ keys.Nodup ∧ ∀ key ∈ keys, key ∉ seen := by
  induction keys generalizing seen with
  | nil => simp [firstRepeat]
  | cons key rest ih =>
    by_cases repeated : key ∈ seen
    · simp [firstRepeat, repeated]
    · rw [firstRepeat, if_neg repeated, ih, List.nodup_cons, List.forall_mem_cons]
      simp only [List.mem_cons, not_or]
      constructor
      · rintro ⟨distinct, fresh⟩
        exact ⟨⟨fun mem => (fresh key mem).1 rfl, distinct⟩, repeated,
          fun later mem => (fresh later mem).2⟩
      · rintro ⟨⟨absent, distinct⟩, -, fresh⟩
        exact ⟨distinct, fun later mem => ⟨fun same => absent (same ▸ mem), fresh later mem⟩⟩

/-- A pair with a new key is put among the others. -/
theorem insert_perm {key : String} {value : α} (fresh : key ∉ pairs.map Prod.fst) :
    (insert key value pairs).Perm ((key, value) :: pairs) := by
  induction pairs with
  | nil => rfl
  | cons pair rest ih =>
    obtain ⟨k, v⟩ := pair
    rw [List.map_cons, List.mem_cons, not_or] at fresh
    obtain ⟨other, fresh⟩ := fresh
    rw [insert, if_neg (Ne.symm other)]
    split
    · rfl
    · exact ((ih fresh).cons _).trans (.swap _ _ _)

theorem foldl_insert_perm {sorted : List (String × α)}
    (distinct : ((sorted ++ given).map Prod.fst).Nodup) :
    (given.foldl (fun sorted pair => insert pair.1 pair.2 sorted) sorted).Perm
      (sorted ++ given) := by
  induction given generalizing sorted with
  | nil => simp
  | cons next rest ih =>
    have moved : (sorted ++ next :: rest).Perm (next :: (sorted ++ rest)) := List.perm_middle
    have fresh : next.1 ∉ sorted.map Prod.fst := by
      have := (moved.map Prod.fst).nodup_iff.mp distinct
      rw [List.map_cons, List.nodup_cons, List.map_append, List.mem_append] at this
      exact fun mem => this.1 (.inl mem)
    have placed : (insert next.1 next.2 sorted ++ rest).Perm (next :: (sorted ++ rest)) :=
      (insert_perm fresh).append_right rest
    have distinct_placed := ((placed.trans moved.symm).map Prod.fst).nodup_iff.mpr distinct
    exact (ih distinct_placed).trans (placed.trans moved.symm)

/-- Pairs that are some in order, in another order, are put into that order. -/
theorem Ascending.ofList_eq_of_perm (ordered : Ascending pairs) (perm : given.Perm pairs) :
    ofList given = pairs := by
  have distinct : (pairs.map Prod.fst).Nodup := by
    refine List.Pairwise.imp ?_ (ascending_iff_keys.mp ordered)
    rintro a _ less rfl
    exact String.lt_irrefl a less
  have sorted : (ofList given).Perm pairs :=
    (foldl_insert_perm ((perm.map Prod.fst).nodup_iff.mpr distinct)).trans perm
  refine List.Perm.eq_of_pairwise (fun a b _ _ less more => ?_) (ascending_ofList given) ordered
    sorted
  exact absurd (String.lt_trans less more) (String.lt_irrefl _)

end Keyed

namespace Json

/-! ### Members in another order -/

mutual

/-- The JSON value given is the first one with the members of its objects in some order. -/
def Reordered : Json → Json → Prop
  | .array items, j => ∃ given, j = .array given ∧ ReorderedItems items given
  | .object members, j => ∃ same, ReorderedMembers members same ∧
    ∃ given, given.Perm same ∧ j = .object given
  | leaf, j => j = leaf

/-- So are the items given, one by one. -/
def ReorderedItems : List Json → List Json → Prop
  | [], given => given = []
  | item :: rest, given => ∃ head tail, given = head :: tail ∧ Reordered item head ∧
    ReorderedItems rest tail

/-- So are the members given, one by one and under the same keys. -/
def ReorderedMembers : List (String × Json) → List (String × Json) → Prop
  | [], given => given = []
  | (key, value) :: rest, given => ∃ head tail, given = (key, head) :: tail ∧
    Reordered value head ∧ ReorderedMembers rest tail

end

variable {j : Json}

@[simp] theorem reordered_int {n : Int} : Reordered (.int n) j ↔ j = .int n := Iff.rfl

@[simp] theorem reordered_string {s : String} : Reordered (.string s) j ↔ j = .string s := Iff.rfl

mutual

/-- The order may stay as it is. -/
theorem Reordered.refl : ∀ j : Json, Reordered j j
  | .array items => ⟨items, rfl, ReorderedItems.refl items⟩
  | .object members => ⟨members, ReorderedMembers.refl members, members, .refl _, rfl⟩
  | .null | .bool _ | .int _ | .float _ | .string _ | .unreadable _ => rfl

theorem ReorderedItems.refl : ∀ items : List Json, ReorderedItems items items
  | [] => rfl
  | item :: rest => ⟨item, rest, rfl, Reordered.refl item, ReorderedItems.refl rest⟩

theorem ReorderedMembers.refl : ∀ members : List (String × Json), ReorderedMembers members members
  | [] => rfl
  | (_, value) :: rest => ⟨value, rest, rfl, Reordered.refl value, ReorderedMembers.refl rest⟩

end

theorem readableMembers_iff {members : List (String × Json)} :
    readableMembers members = true ↔ ∀ member ∈ members, member.2.readable = true := by
  induction members with
  | nil => simp [readableMembers]
  | cons member rest ih => obtain ⟨key, value⟩ := member; simp [readableMembers, ih]

theorem readableMembers_of_perm {members given : List (String × Json)}
    (perm : given.Perm members) : readableMembers given = readableMembers members := by
  rw [Bool.eq_iff_iff, readableMembers_iff, readableMembers_iff]
  exact forall_congr' fun member => imp_congr_left perm.mem_iff

mutual

/-- A reordered value has unreadable parts exactly if the value has. -/
theorem Reordered.readable_eq : ∀ {j given : Json}, Reordered j given →
    given.readable = j.readable
  | .array items, _, reordered => by
    obtain ⟨given, rfl, same⟩ := reordered
    rw [readable, readable, same.readable_eq]
  | .object members, _, reordered => by
    obtain ⟨same, kept, given, perm, rfl⟩ := reordered
    rw [readable, readable, readableMembers_of_perm perm, kept.readable_eq]
  | .null, _, rfl | .bool _, _, rfl | .int _, _, rfl | .float _, _, rfl | .string _, _, rfl
  | .unreadable _, _, rfl => rfl

theorem ReorderedItems.readable_eq : ∀ {items given : List Json}, ReorderedItems items given →
    readableItems given = readableItems items
  | [], _, rfl => rfl
  | item :: rest, _, reordered => by
    obtain ⟨head, tail, rfl, head_same, tail_same⟩ := reordered
    rw [readableItems, readableItems, head_same.readable_eq, tail_same.readable_eq]

theorem ReorderedMembers.readable_eq : ∀ {members given : List (String × Json)},
    ReorderedMembers members given → readableMembers given = readableMembers members
  | [], _, rfl => rfl
  | (key, value) :: rest, _, reordered => by
    obtain ⟨head, tail, rfl, head_same, tail_same⟩ := reordered
    rw [readableMembers, readableMembers, head_same.readable_eq, tail_same.readable_eq]

end

/-! ### Looking fields up -/

/-- Under each key reordered members have what the members have, reordered. -/
theorem ReorderedMembers.get?_rel (key : String) : ∀ {members given : List (String × Json)},
    ReorderedMembers members given →
      Option.Rel Reordered (Keyed.get? key members) (Keyed.get? key given)
  | [], _, rfl => .none
  | (k, value) :: rest, _, reordered => by
    obtain ⟨head, tail, rfl, head_same, tail_same⟩ := reordered
    rw [Keyed.get?, Keyed.get?]
    split
    · exact .some head_same
    · exact tail_same.get?_rel key

theorem ReorderedMembers.get?_eq_some {key : String} {j : Json}
    {members given : List (String × Json)} (kept : ReorderedMembers members given)
    (found : Keyed.get? key members = some j) :
    ∃ same, Keyed.get? key given = some same ∧ Reordered j same := by
  have rel := kept.get?_rel key
  rw [found] at rel
  cases part : Keyed.get? key given with
  | none => rw [part] at rel; cases rel
  | some same =>
    rw [part] at rel
    cases rel with
    | some reordered => exact ⟨same, rfl, reordered⟩

theorem ReorderedMembers.get?_eq_none {key : String} {members given : List (String × Json)}
    (kept : ReorderedMembers members given) (found : Keyed.get? key members = none) :
    Keyed.get? key given = none := by
  have rel := kept.get?_rel key
  rw [found] at rel
  cases part : Keyed.get? key given with
  | none => rfl
  | some same => rw [part] at rel; cases rel

theorem ReorderedMembers.keys_eq : ∀ {members given : List (String × Json)},
    ReorderedMembers members given → given.map Prod.fst = members.map Prod.fst
  | [], _, rfl => rfl
  | (key, value) :: rest, _, reordered => by
    obtain ⟨head, tail, rfl, -, tail_same⟩ := reordered
    rw [List.map_cons, List.map_cons, tail_same.keys_eq]

/-- The fields of a record of distinct keys are what stands under their names. -/
theorem Fields.ofMembers?_of_distinct {β : Type} {members : List (String × β)}
    (distinct : (members.map Prod.fst).Nodup) (names : List String) :
    ∃ f, Fields.ofMembers? names false members = some f ∧ f.positional = false ∧
      ∀ name ∈ names, Keyed.get? name f.entries = Keyed.get? name members := by
  let known := members.filter fun member => names.contains member.1
  have known_distinct : (known.map Prod.fst).Nodup :=
    (List.filter_sublist.map Prod.fst).nodup distinct
  have unrepeated : Keyed.firstRepeat [] (known.map Prod.fst) = none :=
    Keyed.firstRepeat_eq_none_iff.mpr ⟨known_distinct, by simp⟩
  refine ⟨⟨known, false⟩, ?_, rfl, fun name mem => ?_⟩
  · simp only [Fields.ofMembers?]
    rw [if_neg (by rw [unrepeated]; simp), if_neg (by simp)]
  · have kept : names.contains name = true := List.contains_iff_mem.mpr mem
    exact Keyed.get?_filter kept

/-- The fields of a record are found in whatever order its members stand. -/
theorem fields?_of_perm {members given : List (String × Json)} (perm : given.Perm members)
    (distinct : (members.map Prod.fst).Nodup) (names : List String) :
    ∃ f, fields? names (.object given) = some f ∧
      ∀ name ∈ names, Keyed.get? name f.entries = Keyed.get? name members := by
  have given_distinct := (perm.map Prod.fst).nodup_iff.mpr distinct
  obtain ⟨f, read, -, found⟩ := Fields.ofMembers?_of_distinct given_distinct names
  refine ⟨f, read, fun name mem => ?_⟩
  rw [found name mem, Keyed.get?_of_perm perm distinct]

/-- A tag is found wherever it stands among readable members of other names. -/
theorem tagged?_of_perm {tag : String} {label : Json} {members given : List (String × Json)}
    (perm : given.Perm ((tag, label) :: members)) (fresh : tag ∉ members.map Prod.fst)
    (readable : readableMembers members = true) :
    ∃ others, tagged? tag (.object given) = some (label, .object others) ∧
      others.Perm members := by
  have other : ∀ member ∈ members, member.1 ≠ tag :=
    fun member mem same => fresh (List.mem_map.mpr ⟨member, mem, same⟩)
  have tags : (given.filter fun member => member.1 == tag) = [(tag, label)] := by
    refine List.perm_singleton.mp ((perm.filter _).trans ?_)
    rw [List.filter_cons_of_pos (by simp), List.filter_eq_nil_iff.mpr (by simpa using other)]
  have others : (given.filter fun member => member.1 != tag).Perm members := by
    refine (perm.filter _).trans ?_
    rw [List.filter_cons_of_neg (by simp), List.filter_eq_self.mpr (by simpa using other)]
  refine ⟨_, ?_, others⟩
  simp only [tagged?, tags]
  rw [if_pos ((readableMembers_of_perm others).trans readable)]

end Json

/-! ### Values -/

/-- A value can be written and read again: its numbers are finite, the years of its timestamps are
not negative, and their offsets are of whole minutes below a day, however deep in lists they
stand. -/
structure Value.Writable (v : Value) : Prop where
  finite : ∀ x, (Value.float x).Within v → isFinite x = true
  timestamps : ∀ t, (Value.timestamp t).Within v → Rfc3339.Writable t

namespace Value

open Json (Reordered ReorderedItems)

theorem Writable.item {items : List Value} (writable : Writable (.list items)) {item : Value}
    (mem : item ∈ items) : Writable item :=
  ⟨fun x within => writable.finite x (.item mem within),
    fun t within => writable.timestamps t (.item mem within)⟩

/-- A timestamp that can be written has a text, and is read back from it. -/
theorem timestamp_toJson {t : Timestamp} (writable : Rfc3339.Writable t) :
    ∃ text, t.toJson = .string text ∧ Timestamp.ofJson? (.string text) = some t := by
  have written := Rfc3339.render_eq_ok_iff.mpr ⟨writable, rfl⟩
  refine ⟨.ofList (Rfc3339.fieldsText (Rfc3339.fieldsOf t)), ?_, ?_⟩
  · delta Timestamp.toJson
    rw [written]
  · rw [Timestamp.ofJson?, Rfc3339.parse_of_render written]
    rfl

/-- A score is read back from its document in any order. -/
theorem score_of_reordered {s : ScoreResult} {j : Json} (reordered : Reordered s.toJson j) :
    ScoreResult.ofJson? j = some s := by
  obtain ⟨_, ⟨_, _, rfl, rfl, _, _, rfl, rfl, _, _, rfl, rfl, rfl⟩, given, perm, rfl⟩ := reordered
  obtain ⟨f, read, found⟩ := Json.fields?_of_perm perm (by simp) ["triggered", "modifier", "floor"]
  simp [ScoreResult.ofJson?, read, Json.Fields.required, found, Keyed.get?, Json.toBool?,
    toInt64?_toInt]

/-- A typed value reads the same whether its type or its content stands first, if the content is
readable. -/
theorem ofJson?_of_reordered_tagged {kind : Kind} {content j : Json}
    (reordered : Reordered (tagged kind content) j) (readable : content.readable = true) :
    ∃ same, Reordered content same ∧ ofJson? j = ofJson? (tagged kind same) := by
  obtain ⟨pairs, kept, given, perm, rfl⟩ := reordered
  obtain ⟨_, _, rfl, rfl, same, _, rfl, content_same, rfl⟩ := kept
  refine ⟨same, content_same, ?_⟩
  have same_readable := content_same.readable_eq.trans readable
  rcases List.perm_pair.mp perm with rfl | rfl
  · rfl
  · simp [ofJson?, tagged, reading, readingMembers, ofTypedMembers?, same_readable]

theorem gaps_tagged {kind : Kind} {content : Json} : (tagged kind content).gaps = content.gaps := by
  simp [tagged, Json.gaps, Json.gapsOfMembers]

/-- A timestamp leaves a gap where it has no text, and none where it has one. -/
theorem mem_gaps_timestamp_iff {t : Timestamp} {gap : Gap} : gap ∈ t.toJson.gaps ↔
    ∃ failure, Rfc3339.render t = .error failure ∧ gap = .unwritten failure := by
  rw [Timestamp.toJson]
  cases Rfc3339.render t <;> simp [Json.gaps]

theorem gaps_timestamp {t : Timestamp} (writable : Rfc3339.Writable t) : t.toJson.gaps = [] := by
  obtain ⟨text, written, -⟩ := timestamp_toJson writable
  rw [written]
  rfl

mutual

/-- The gaps in the document of a value are those that its timestamps leave. -/
theorem mem_gaps_toJson_iff {gap : Gap} : ∀ v : Value, gap ∈ v.toJson.gaps ↔
    ∃ t, (Value.timestamp t).Within v ∧ gap ∈ t.toJson.gaps
  | .timestamp t => by
    rw [toJson, gaps_tagged]
    constructor
    · intro mem
      exact ⟨t, .self, mem⟩
    · rintro ⟨_, ⟨⟩, mem⟩
      exact mem
  | .list items => by
    rw [toJson, gaps_tagged, Json.gaps, mem_gaps_toJsonItems_iff items]
    constructor
    · rintro ⟨item, item_mem, t, within, mem⟩
      exact ⟨t, .item item_mem within, mem⟩
    · rintro ⟨t, within, mem⟩
      rcases within_list_iff.mp within with other | ⟨item, item_mem, within⟩
      · cases other
      · exact ⟨item, item_mem, t, within, mem⟩
  | .float x => by
    rw [toJson, gaps_tagged]
    refine iff_of_false ?_ (by rintro ⟨t, ⟨⟩, -⟩)
    split <;> exact List.not_mem_nil
  | .null | .bool _ | .int _ | .string _ | .score _ =>
    iff_of_false List.not_mem_nil (by rintro ⟨t, ⟨⟩, -⟩)

theorem mem_gaps_toJsonItems_iff {gap : Gap} : ∀ items : List Value,
    gap ∈ Json.gapsOfItems (toJsonItems items) ↔
      ∃ item ∈ items, ∃ t, (Value.timestamp t).Within item ∧ gap ∈ t.toJson.gaps
  | [] => by simp [toJsonItems, Json.gapsOfItems]
  | item :: rest => by
    rw [toJsonItems, Json.gapsOfItems, List.mem_append, mem_gaps_toJson_iff item,
      mem_gaps_toJsonItems_iff rest, List.exists_mem_cons_iff]

end

theorem gaps_toJson {v : Value} (writable : Writable v) : v.toJson.gaps = [] := by
  refine List.eq_nil_iff_forall_not_mem.mpr fun gap mem => ?_
  obtain ⟨t, within, mem⟩ := (mem_gaps_toJson_iff v).mp mem
  rw [gaps_timestamp (writable.timestamps t within)] at mem
  cases mem

theorem readable_toJson {v : Value} (writable : Writable v) : v.toJson.readable = true :=
  Json.readable_iff.mpr (gaps_toJson writable)

theorem readable_toJsonItems {items : List Value} (writable : ∀ item ∈ items, Writable item) :
    Json.readableItems (toJsonItems items) = true := by
  induction items with
  | nil => rfl
  | cons item rest ih =>
    obtain ⟨here, later⟩ := List.forall_mem_cons.mp writable
    rw [toJsonItems, Json.readableItems, readable_toJson here, ih later]
    rfl

mutual

/-- A value that can be written is read back from its document in any order. -/
theorem ofJson?_of_reordered : ∀ {v : Value} {j : Json}, Writable v → Reordered v.toJson j →
    ofJson? j = some v
  | .null, j, _, reordered => by
    obtain ⟨_, ⟨_, _, rfl, rfl, rfl⟩, given, perm, rfl⟩ := reordered
    obtain rfl := List.perm_singleton.mp perm
    rfl
  | .bool b, j, writable, reordered => by
    obtain ⟨_, rfl, read⟩ := ofJson?_of_reordered_tagged reordered rfl
    rw [read, ofJson?_tagged]
    rfl
  | .int i, j, writable, reordered => by
    obtain ⟨_, rfl, read⟩ := ofJson?_of_reordered_tagged reordered rfl
    rw [read, ofJson?_tagged]
    simp [ofContent?, toInt64?_toInt]
  | .float x, j, writable, reordered => by
    rw [toJson, if_pos (writable.finite x .self)] at reordered
    obtain ⟨_, rfl, read⟩ := ofJson?_of_reordered_tagged reordered rfl
    rw [read, ofJson?_tagged]
    rfl
  | .string s, j, writable, reordered => by
    obtain ⟨_, rfl, read⟩ := ofJson?_of_reordered_tagged reordered rfl
    rw [read, ofJson?_tagged]
    rfl
  | .timestamp t, j, writable, reordered => by
    obtain ⟨text, written, parsed⟩ := timestamp_toJson (writable.timestamps t .self)
    rw [toJson, written] at reordered
    obtain ⟨_, rfl, read⟩ := ofJson?_of_reordered_tagged reordered rfl
    rw [read, ofJson?_tagged]
    simp [ofContent?, parsed]
  | .list items, j, writable, reordered => by
    have readable := readable_toJsonItems fun item mem => writable.item mem
    obtain ⟨_, ⟨given, rfl, same⟩, read⟩ := ofJson?_of_reordered_tagged reordered readable
    rw [read, ofJson?_tagged]
    simp only [reading]
    rw [mapM_reading, mapM_of_reordered (fun item mem => writable.item mem) same]
    rfl
  | .score s, j, writable, reordered => by
    obtain ⟨_, same, read⟩ := ofJson?_of_reordered_tagged reordered rfl
    rw [read, ofJson?_tagged]
    simp [ofContent?, score_of_reordered same]

theorem mapM_of_reordered : ∀ {items : List Value} {given : List Json},
    (∀ item ∈ items, Writable item) → ReorderedItems (toJsonItems items) given →
      given.mapM ofJson? = some items
  | [], _, _, rfl => rfl
  | item :: rest, _, writable, reordered => by
    obtain ⟨first, later⟩ := List.forall_mem_cons.mp writable
    obtain ⟨head, tail, rfl, head_same, tail_same⟩ := reordered
    rw [List.mapM_cons, ofJson?_of_reordered first head_same, mapM_of_reordered later tail_same]
    rfl

end

end Value

end RiskRules
