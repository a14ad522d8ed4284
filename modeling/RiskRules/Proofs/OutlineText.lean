import RiskRules.Outline.Document
import RiskRules.Proofs.RoundTrip
import RiskRules.Proofs.ValueText

/-!
Trees written as JSON text and read again. A valid tree that can be written is read back exactly if
its document opens no more brackets than a text may nest and the text keeps the binary64 numbers of
its constants (`Node.decode_parse_compact_iff`). A tree level opens two brackets where its children
are listed or named, and a list in a constant two more, so that a tree far within the depth of its
registry may be written and not read back.
-/

namespace RiskRules

namespace Outline

open Json (through throughItems throughMembers)

/-! ### Documents from the documents of the parts -/

/-- The document of a node from the documents of those of its parts that are there. -/
def document (tag : String) (literal children named : Option Json) : Json :=
  .object (("name", .string tag) :: (literal.map ("constant", ·)).toList
    ++ (children.map ("children", ·)).toList ++ (named.map ("named_children", ·)).toList)

/-- The documents of listed children, if there are any. -/
def childrenPart : List Outline → Option Json
  | [] => none
  | child :: rest => some (.array (toJsonAll (child :: rest)))

/-- The documents of named children, if there are any. -/
def namedPart : List (String × Outline) → Option Json
  | [] => none
  | entry :: rest => some (.object (toJsonNamed (entry :: rest)))

theorem toJson_eq_document (tag : String) (literal : Option Value) (children : List Outline)
    (named : List (String × Outline)) : toJson ⟨tag, literal, children, named⟩
      = document tag (literal.map Value.toJson) (childrenPart children) (namedPart named) := by
  have listed : (if (toJsonAll children).isEmpty then []
      else [("children", Json.array (toJsonAll children))])
        = ((childrenPart children).map ("children", ·)).toList := by
    cases children <;> simp [toJsonAll, childrenPart]
  have keyed : (if (toJsonNamed named).isEmpty then []
      else [("named_children", Json.object (toJsonNamed named))])
        = ((namedPart named).map ("named_children", ·)).toList := by
    cases named <;> simp [toJsonNamed, namedPart]
  rw [toJson, listed, keyed, document]
  cases literal <;> rfl

@[simp] theorem reading_json (j : Json) : (reading j).json = j := by
  cases j <;> simp [reading]

/-- A part that is not there is read as what stands for it. -/
def readPart {α : Type} (absent : α) (read : Json → Option α) : Option Json → Option α
  | none => some absent
  | some j => read j

theorem ofJson?_document (tag : String) (literal children named : Option Json) :
    ofJson? (document tag literal children named)
      = (readPart none (·.toOption? Value.ofJson?) literal).bind fun value =>
        (readPart [] (fun j => (reading j).items) children).bind fun items =>
        (readPart [] (fun j => (reading j).named) named).map fun entries =>
          ⟨tag, value, items, entries⟩ := by
  cases literal <;> cases children <;> cases named <;>
    simp [ofJson?, document, reading, readingMembers, Json.Fields.ofMembers?, fieldNames,
      Keyed.firstRepeat, ofFields?, Json.Fields.required, Json.Fields.default, Keyed.get?,
      Json.toString?, readPart, Option.map_eq_bind]

theorem nesting_document (tag : String) (literal children named : Option Json) :
    (document tag literal children named).nesting
      = max (literal.elim 0 Json.nesting)
          (max (children.elim 0 Json.nesting) (named.elim 0 Json.nesting)) + 1 := by
  cases literal <;> cases children <;> cases named <;>
    simp [document, Json.nesting, Json.nestingMembers]

theorem readable_document (tag : String) (literal children named : Option Json) :
    (document tag literal children named).readable = true ↔ (∀ j ∈ literal, j.readable = true) ∧
      (∀ j ∈ children, j.readable = true) ∧ ∀ j ∈ named, j.readable = true := by
  cases literal <;> cases children <;> cases named <;>
    simp [document, Json.readable, Json.readableMembers]

/-! ### Parts through a text -/

/-- What the text of a part reads as, if the part is there. -/
def throughPart (levels : Nat) : Option Json → Option (Option Json)
  | none => some none
  | some j => (through levels j).map some

theorem throughMembers_part (levels : Nat) (key : String) (part : Option Json)
    (rest : List (String × Json)) :
    throughMembers levels ((part.map (key, ·)).toList ++ rest)
      = (throughPart levels part).bind fun part =>
        (throughMembers levels rest).map fun rest => (part.map (key, ·)).toList ++ rest := by
  cases part with
  | none => simp [throughPart]
  | some j =>
    rw [Option.map_some, Option.toList_some, List.singleton_append, Json.throughMembers_cons,
      throughPart, Option.bind_map]
    rfl

theorem through_document (levels : Nat) (tag : String) (literal children named : Option Json) :
    through (levels + 1) (document tag literal children named)
      = (throughPart levels literal).bind fun literal =>
        (throughPart levels children).bind fun children =>
        (throughPart levels named).map fun named => document tag literal children named := by
  have last := throughMembers_part levels "named_children" named []
  rw [List.append_nil, Json.throughMembers_nil] at last
  rw [document, Json.through_object, List.cons_append, List.cons_append, List.append_assoc,
    Json.throughMembers_cons, Json.through_string, throughMembers_part, throughMembers_part, last]
  cases throughPart levels literal <;> cases throughPart levels children <;>
    cases throughPart levels named <;> simp [document]

/-- A node is read back if its parts are. -/
theorem document_through_iff {levels : Nat} {tag : String} {literal children named : Option Json}
    {value : Option Value} {items : List Outline} {entries : List (String × Outline)} :
    (through (levels + 1) (document tag literal children named)).bind ofJson?
        = some ⟨tag, value, items, entries⟩
      ↔ (throughPart levels literal).bind (readPart none (·.toOption? Value.ofJson?))
          = some value ∧
        (throughPart levels children).bind (readPart [] fun j => (reading j).items)
          = some items ∧
        (throughPart levels named).bind (readPart [] fun j => (reading j).named)
          = some entries := by
  rw [through_document]
  cases throughPart levels literal <;> cases throughPart levels children <;>
    cases throughPart levels named <;> simp [ofJson?_document, Option.bind_eq_some_iff]

theorem ofJson?_unreadable : ofJson? (.unreadable .unread) = none := rfl

/-! ### Constants -/

/-- The document of a value is an object, which a text never makes null. -/
theorem value_through_ne_null (levels : Nat) (v : Value) :
    through levels v.toJson ≠ some .null := by
  have object : ∃ members, v.toJson = .object members := by
    cases v <;> exact ⟨_, rfl⟩
  obtain ⟨members, document⟩ := object
  rw [document]
  cases levels with
  | zero => cases read : Json.rereadMembers members <;> simp [through, Json.reread, read, Json.cut]
  | succ levels => simp [Json.through_object]

/-- A constant's value is read back if its document is. -/
theorem literal_through_iff (levels : Nat) {literal : Option Value}
    (finite : ∀ v ∈ literal, v.allFinite = true)
    (readable : ∀ j ∈ literal.map Value.toJson, j.readable = true) :
    (throughPart levels (literal.map Value.toJson)).bind
        (readPart none (·.toOption? Value.ofJson?)) = some literal
      ↔ (literal.map Value.toJson).elim 0 Json.nesting ≤ levels ∧
        ∀ v ∈ literal, v.KeptByText := by
  cases literal with
  | none => simp [throughPart, readPart]
  | some v =>
    have value := Value.ofJson?_through_iff levels v (finite v rfl) (readable v.toJson rfl)
    have some_value : (throughPart levels (some v.toJson)).bind
          (readPart none (·.toOption? Value.ofJson?)) = some (some v)
        ↔ (through levels v.toJson).bind Value.ofJson? = some v := by
      have other := value_through_ne_null levels v
      cases read : through levels v.toJson with
      | none => simp [throughPart, read]
      | some j =>
        have typed : j.toOption? Value.ofJson? = (Value.ofJson? j).map some := by
          rw [read] at other
          cases j <;> first | rfl | exact absurd rfl other
        simp [throughPart, read, readPart, typed]
    simpa [some_value] using value

/-! ### Children -/

theorem mapM_reading (items : List Json) :
    (readingItems items).mapM Reading.node = items.mapM ofJson? := by
  induction items with
  | nil => rfl
  | cons item rest ih => simp [readingItems, ofJson?, ih]

/-- Listed nodes are read back if each of them is. -/
theorem mapM_through_iff {levels : Nat} {outlines : List Outline} :
    (throughItems levels (toJsonAll outlines)).bind (·.mapM ofJson?) = some outlines
      ↔ ∀ o ∈ outlines, (through levels o.toJson).bind ofJson? = some o := by
  induction outlines with
  | nil => simp [toJsonAll]
  | cons o rest ih =>
    rw [toJsonAll, Value.throughItems_bind_cons, List.forall_mem_cons, ← ih]
    cases (through levels o.toJson).bind ofJson? <;>
      cases (throughItems levels (toJsonAll rest)).bind (·.mapM ofJson?) <;> simp

theorem nestingItems_le_iff {levels : Nat} {outlines : List Outline} :
    Json.nestingItems (toJsonAll outlines) ≤ levels
      ↔ ∀ o ∈ outlines, o.toJson.nesting ≤ levels := by
  induction outlines with
  | nil => simp [toJsonAll, Json.nestingItems]
  | cons o rest ih => simp [toJsonAll, Json.nestingItems, ih]

/-- What reading a member gives: its key, and its node. -/
def readMember (member : String × Json) : Option (String × Outline) :=
  (ofJson? member.2).map (member.1, ·)

theorem mapM_readingMembers (members : List (String × Json)) :
    (readingMembers members).mapM (fun (m : String × Reading) => m.2.node.map (m.1, ·))
      = members.mapM readMember := by
  induction members with
  | nil => rfl
  | cons member rest ih =>
    obtain ⟨key, value⟩ := member
    simp [readingMembers, readMember, ofJson?, ih]

theorem throughMembers_bind_cons (levels : Nat) (key : String) (value : Json)
    (rest : List (String × Json)) :
    (throughMembers levels ((key, value) :: rest)).bind (·.mapM readMember)
      = ((through levels value).bind ofJson?).bind fun o =>
          ((throughMembers levels rest).bind (·.mapM readMember)).map ((key, o) :: ·) := by
  rw [Json.throughMembers_cons]
  cases through levels value with
  | none => rfl
  | some j =>
    cases throughMembers levels rest with
    | none => cases first : ofJson? j <;> simp [first]
    | some js =>
      cases first : ofJson? j <;> cases later : js.mapM readMember <;>
        simp [first, later, readMember]

/-- Named nodes are read back if each of them is. -/
theorem mapM_throughMembers_iff {levels : Nat} {named : List (String × Outline)} :
    (throughMembers levels (toJsonNamed named)).bind (·.mapM readMember) = some named
      ↔ ∀ entry ∈ named, (through levels entry.2.toJson).bind ofJson? = some entry.2 := by
  induction named with
  | nil => simp [toJsonNamed]
  | cons entry rest ih =>
    obtain ⟨name, o⟩ := entry
    rw [toJsonNamed, throughMembers_bind_cons, List.forall_mem_cons, ← ih]
    cases (through levels o.toJson).bind ofJson? <;>
      cases (throughMembers levels (toJsonNamed rest)).bind (·.mapM readMember) <;> simp

/-- Reading keeps the keys of members. -/
theorem keys_of_throughMembers {levels : Nat} {named read : List (String × Outline)}
    (given : (throughMembers levels (toJsonNamed named)).bind (·.mapM readMember) = some read) :
    read.map Prod.fst = named.map Prod.fst := by
  induction named generalizing read with
  | nil =>
    obtain rfl : [] = read := by simpa [toJsonNamed] using given
    rfl
  | cons entry rest ih =>
    obtain ⟨name, o⟩ := entry
    rw [toJsonNamed, throughMembers_bind_cons] at given
    obtain ⟨first, -, later⟩ := Option.bind_eq_some_iff.mp given
    obtain ⟨more, more_given, rfl⟩ := Option.map_eq_some_iff.mp later
    simp [ih more_given]

/-- Reading puts named nodes in order, which those that were written in order are already. -/
theorem ofList_through_iff {levels : Nat} {named : List (String × Outline)}
    (ordered : Keyed.Ascending named) :
    ((throughMembers levels (toJsonNamed named)).bind fun members =>
        (members.mapM readMember).map Keyed.ofList) = some named
      ↔ (throughMembers levels (toJsonNamed named)).bind (·.mapM readMember) = some named := by
  have last : ((throughMembers levels (toJsonNamed named)).bind fun members =>
        (members.mapM readMember).map Keyed.ofList)
      = ((throughMembers levels (toJsonNamed named)).bind (·.mapM readMember)).map
          Keyed.ofList := by
    cases throughMembers levels (toJsonNamed named) <;> rfl
  rw [last]
  constructor
  · intro read
    obtain ⟨given, given_read, same⟩ := Option.map_eq_some_iff.mp read
    have given_ordered : Keyed.Ascending given := by
      rw [Keyed.ascending_iff_keys, keys_of_throughMembers given_read]
      exact Keyed.ascending_iff_keys.mp ordered
    rw [given_read, ← same, given_ordered.ofList_eq]
  · intro read
    rw [read, Option.map_some, ordered.ofList_eq]

theorem nestingMembers_le_iff {levels : Nat} {named : List (String × Outline)} :
    Json.nestingMembers (toJsonNamed named) ≤ levels
      ↔ ∀ entry ∈ named, entry.2.toJson.nesting ≤ levels := by
  induction named with
  | nil => simp [toJsonNamed, Json.nestingMembers]
  | cons entry rest ih =>
    obtain ⟨name, o⟩ := entry
    simp [toJsonNamed, Json.nestingMembers, ih]

/-! ### Trees -/

theorem ofNodes_eq_map (nodes : List Node) : ofNodes nodes = nodes.map ofNode := by
  induction nodes with
  | nil => rfl
  | cons node rest ih => simp [ofNodes, ih]

theorem ofNamed_eq_map (entries : List (String × Node)) :
    ofNamed entries = entries.map fun entry => (entry.1, ofNode entry.2) := by
  induction entries with
  | nil => rfl
  | cons entry rest ih =>
    obtain ⟨name, node⟩ := entry
    simp [ofNamed, ih]

theorem ordered_ofNamed {entries : List (String × Node)} (ordered : Keyed.Ascending entries) :
    Keyed.Ascending (ofNamed entries) := by
  rw [ofNamed_eq_map]
  exact List.pairwise_map.mpr ordered

theorem readable_of_mem_children {nodes : List Node}
    (readable : ∀ j ∈ childrenPart (ofNodes nodes), j.readable = true) :
    ∀ n ∈ nodes, (ofNode n).toJson.readable = true := by
  have items : ∀ nodes : List Node, Json.readableItems (toJsonAll (ofNodes nodes)) = true →
      ∀ n ∈ nodes, (ofNode n).toJson.readable = true := by
    intro nodes
    induction nodes with
    | nil => simp
    | cons n rest ih =>
      intro all
      rw [ofNodes, toJsonAll, Json.readableItems, Bool.and_eq_true] at all
      exact List.forall_mem_cons.mpr ⟨all.1, ih all.2⟩
  cases nodes with
  | nil => simp
  | cons n rest => exact items (n :: rest) (readable _ rfl)

theorem readable_of_mem_named {entries : List (String × Node)}
    (readable : ∀ j ∈ namedPart (ofNamed entries), j.readable = true) :
    ∀ entry ∈ entries, (ofNode entry.2).toJson.readable = true := by
  have members : ∀ entries : List (String × Node),
      Json.readableMembers (toJsonNamed (ofNamed entries)) = true →
      ∀ entry ∈ entries, (ofNode entry.2).toJson.readable = true := by
    intro entries
    induction entries with
    | nil => simp
    | cons entry rest ih =>
      obtain ⟨name, n⟩ := entry
      intro all
      rw [ofNamed, toJsonNamed, Json.readableMembers, Bool.and_eq_true] at all
      exact List.forall_mem_cons.mpr ⟨all.1, ih all.2⟩
  cases entries with
  | nil => simp
  | cons entry rest => exact members (entry :: rest) (readable _ rfl)

variable {Kept : Node → Prop}

/-- The list of children opens a bracket of its own. -/
theorem children_through_iff (levels : Nat) {nodes : List Node}
    (each : ∀ n ∈ nodes, ∀ levels,
      (through levels (ofNode n).toJson).bind ofJson? = some (ofNode n)
        ↔ (ofNode n).toJson.nesting ≤ levels ∧ Kept n) :
    (throughPart levels (childrenPart (ofNodes nodes))).bind
        (readPart [] fun j => (reading j).items) = some (ofNodes nodes)
      ↔ (childrenPart (ofNodes nodes)).elim 0 Json.nesting ≤ levels ∧ ∀ n ∈ nodes, Kept n := by
  cases nodes with
  | nil => simp [ofNodes, childrenPart, throughPart, readPart]
  | cons n rest =>
    have part : childrenPart (ofNodes (n :: rest))
        = some (.array (toJsonAll (ofNodes (n :: rest)))) := rfl
    rw [part, throughPart, Option.bind_map, Option.elim_some, Json.nesting]
    cases levels with
    | zero =>
      have nothing := Json.through_zero_array (f := fun j => (reading j).items)
        (toJsonAll (ofNodes (n :: rest))) rfl
      simp [Function.comp_def, readPart, nothing]
    | succ levels =>
      have read : ∀ items, (reading (.array items)).items = items.mapM ofJson? := by
        intro items
        rw [reading, mapM_reading]
      rw [Json.through_array, Option.bind_map]
      simp only [Function.comp_def, readPart, read, mapM_through_iff, Nat.succ_le_succ_iff,
        nestingItems_le_iff]
      rw [ofNodes_eq_map, List.forall_mem_map, List.forall_mem_map, ← forall₂_and]
      exact forall₂_congr fun n mem => each n mem levels

/-- The object of named children opens a bracket of its own. -/
theorem named_through_iff (levels : Nat) {entries : List (String × Node)}
    (ordered : Keyed.Ascending entries)
    (each : ∀ entry ∈ entries, ∀ levels,
      (through levels (ofNode entry.2).toJson).bind ofJson? = some (ofNode entry.2)
        ↔ (ofNode entry.2).toJson.nesting ≤ levels ∧ Kept entry.2) :
    (throughPart levels (namedPart (ofNamed entries))).bind
        (readPart [] fun j => (reading j).named) = some (ofNamed entries)
      ↔ (namedPart (ofNamed entries)).elim 0 Json.nesting ≤ levels ∧
        ∀ entry ∈ entries, Kept entry.2 := by
  cases entries with
  | nil => simp [ofNamed, namedPart, throughPart, readPart]
  | cons entry rest =>
    have part : namedPart (ofNamed (entry :: rest))
        = some (.object (toJsonNamed (ofNamed (entry :: rest)))) := rfl
    rw [part, throughPart, Option.bind_map, Option.elim_some, Json.nesting]
    cases levels with
    | zero =>
      have nothing := Json.through_zero_object (f := fun j => (reading j).named)
        (toJsonNamed (ofNamed (entry :: rest))) rfl
      simp [Function.comp_def, readPart, nothing]
    | succ levels =>
      have read : ∀ members, (reading (.object members)).named
          = (members.mapM readMember).map Keyed.ofList := by
        intro members
        rw [reading, mapM_readingMembers]
      rw [Json.through_object, Option.bind_map]
      simp only [Function.comp_def, readPart, read, ofList_through_iff (ordered_ofNamed ordered),
        mapM_throughMembers_iff, Nat.succ_le_succ_iff, nestingMembers_le_iff]
      rw [ofNamed_eq_map, List.forall_mem_map, List.forall_mem_map, ← forall₂_and]
      exact forall₂_congr fun entry mem => each entry mem levels

end Outline

namespace Node

/-- Every binary64 number in the constants of a tree is what its text reads as. -/
def KeptByText (node : Node) : Prop :=
  ∀ n ∈ node.walk, ∀ v ∈ n.literal, v.KeptByText

theorem keptByText_make_iff {func : Func} {literal : Option Value} {children : List Node}
    {named : List (String × Node)} : (make func literal children named).KeptByText
      ↔ (∀ v ∈ literal, v.KeptByText) ∧ (∀ child ∈ children, child.KeptByText) ∧
        ∀ entry ∈ named, entry.2.KeptByText := by
  constructor
  · intro kept
    refine ⟨kept _ (mem_walk.mpr (.inl rfl)), fun child mem n below => ?_,
      fun entry mem n below => ?_⟩
    · exact kept n (mem_walk.mpr (.inr (.inl ⟨child, mem, below⟩)))
    · exact kept n (mem_walk.mpr (.inr (.inr ⟨entry, mem, below⟩)))
  · rintro ⟨literal_kept, children_kept, named_kept⟩ n mem
    rcases mem_walk.mp mem with rfl | ⟨child, child_mem, below⟩ | ⟨entry, entry_mem, below⟩
    · exact literal_kept
    · exact children_kept child child_mem n below
    · exact named_kept entry entry_mem n below

/-- A valid tree that can be written is read back exactly if no bracket of its document opens too
deep and its text keeps the binary64 numbers of its constants. -/
theorem through_iff {node : Node} (valid : node.Valid)
    (readable : (Outline.ofNode node).toJson.readable = true) (levels : Nat) :
    (Json.through levels (Outline.ofNode node).toJson).bind Outline.ofJson?
        = some (Outline.ofNode node)
      ↔ (Outline.ofNode node).toJson.nesting ≤ levels ∧ node.KeptByText := by
  induction valid generalizing levels with
  | @make func literal children named shape ordered _ _ children_read named_read =>
    rw [keptByText_make_iff]
    rw [make, Outline.ofNode, Outline.toJson_eq_document] at readable ⊢
    obtain ⟨literal_readable, children_readable, named_readable⟩ :=
      Outline.readable_document .. |>.mp readable
    rw [Outline.nesting_document]
    cases levels with
    | zero =>
      rw [Outline.document, Json.through_zero_object _ Outline.ofJson?_unreadable]
      simp
    | succ levels =>
      have literal_iff := Outline.literal_through_iff levels shape.literal_finite literal_readable
      have children_iff := Outline.children_through_iff levels fun n mem levels =>
        children_read n mem (Outline.readable_of_mem_children children_readable n mem) levels
      have named_iff := Outline.named_through_iff levels ordered
        fun entry mem levels => named_read entry mem
          (Outline.readable_of_mem_named named_readable entry mem) levels
      rw [Outline.document_through_iff, literal_iff, children_iff, named_iff]
      simp only [Nat.succ_le_succ_iff, Nat.max_le]
      tauto

/-- The document of a valid tree opens as many brackets as its text is read through. -/
theorem decode_parse_compact_iff {r : Registry} {node : Node} (valid : node.Valid)
    (admitted : node.Admitted r) (readable : (Outline.ofNode node).toJson.readable = true) :
    (∃ outline, (Json.parse (Json.compact (Outline.ofNode node).toJson)).bind Outline.ofJson?
        = some outline ∧ r.decode outline = .ok node)
      ↔ (Outline.ofNode node).toJson.nesting ≤ Json.nestingLimit ∧ node.KeptByText := by
  rw [Json.parse_compact_eq_through, ← through_iff valid readable]
  constructor
  · rintro ⟨outline, read, decoded⟩
    rw [read, Registry.ofNode_of_decode decoded]
  · intro read
    exact ⟨_, read, Registry.decode_ofNode valid admitted⟩

end Node

end RiskRules
