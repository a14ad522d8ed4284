import RiskRules.Proofs.RoundTrip

/-!
What decoding lets through. An outline is decoded exactly if building it from the leaves alone gives
a tree, and that is the tree decoded; both succeed exactly on outlines that are allowed at every
part and no taller than the registry's depth (`Registry.decode_eq_ok_iff_assemble`,
`Registry.exists_assemble_eq_ok_iff`). What decoding calls too deep is refused by a look at the
level of an outline that stands one below the last, never by the builds
(`Registry.decode_as_assembled`).
-/

namespace RiskRules

/-! ### Outlines and their parts -/

namespace Outline

mutual

/-- All outlines in an outline, itself among them. -/
def parts : Outline → List Outline
  | ⟨tag, literal, children, named⟩ =>
    ⟨tag, literal, children, named⟩ :: (partsAll children ++ partsNamed named)

/-- All outlines in the outlines. -/
def partsAll : List Outline → List Outline
  | [] => []
  | outline :: rest => parts outline ++ partsAll rest

/-- All outlines in the named outlines. -/
def partsNamed : List (String × Outline) → List Outline
  | [] => []
  | (_, outline) :: rest => parts outline ++ partsNamed rest

end

mutual

/-- The parts of a tree's outline are the outlines of its nodes. -/
theorem parts_ofNode : ∀ node : Node, (ofNode node).parts = node.walk.map ofNode
  | ⟨func, literal, children, named, depth⟩ => by
    rw [ofNode, parts, Node.walk, List.map_cons, List.map_append,
      partsAll_ofNodes children, partsNamed_ofNamed named, ofNode]

theorem partsAll_ofNodes : ∀ nodes : List Node,
    partsAll (ofNodes nodes) = (Node.walkAll nodes).map ofNode
  | [] => rfl
  | node :: rest => by
    rw [ofNodes, partsAll, Node.walkAll, List.map_append, parts_ofNode node,
      partsAll_ofNodes rest]

theorem partsNamed_ofNamed : ∀ entries : List (String × Node),
    partsNamed (ofNamed entries) = (Node.walkNamed entries).map ofNode
  | [] => rfl
  | (_, node) :: rest => by
    rw [ofNamed, partsNamed, Node.walkNamed, List.map_append, parts_ofNode node,
      partsNamed_ofNamed rest]

end

variable {tag : String} {literal : Option Value} {children : List Outline}
  {named : List (String × Outline)}

theorem mem_partsAll {part : Outline} {outlines : List Outline} :
    part ∈ partsAll outlines ↔ ∃ outline ∈ outlines, part ∈ outline.parts := by
  induction outlines with
  | nil => simp [partsAll]
  | cons head rest ih => simp [partsAll, ih]

theorem mem_partsNamed {part : Outline} {entries : List (String × Outline)} :
    part ∈ partsNamed entries ↔ ∃ entry ∈ entries, part ∈ entry.2.parts := by
  induction entries with
  | nil => simp [partsNamed]
  | cons head rest ih => obtain ⟨name, outline⟩ := head; simp [partsNamed, ih]

/-- What holds of all parts holds of the outline and of all parts of its children. -/
theorem forall_mem_parts {P : Outline → Prop} : (∀ part ∈ parts ⟨tag, literal, children, named⟩,
      P part) ↔ P ⟨tag, literal, children, named⟩ ∧
    (∀ child ∈ children, ∀ part ∈ child.parts, P part) ∧
      ∀ entry ∈ named, ∀ part ∈ entry.2.parts, P part := by
  rw [parts, List.forall_mem_cons, List.forall_mem_append]
  simp only [mem_partsAll, mem_partsNamed]
  constructor
  · rintro ⟨here, unnamed, given⟩
    exact ⟨here, fun child mem part below => unnamed part ⟨child, mem, below⟩,
      fun entry mem part below => given part ⟨entry, mem, below⟩⟩
  · rintro ⟨here, unnamed, given⟩
    exact ⟨here, fun part ⟨child, mem, below⟩ => unnamed child mem part below,
      fun part ⟨entry, mem, below⟩ => given entry mem part below⟩

theorem heightAll_le_iff {outlines : List Outline} {bound : Nat} :
    heightAll outlines ≤ bound ↔ ∀ outline ∈ outlines, outline.height ≤ bound := by
  induction outlines with
  | nil => simp [heightAll]
  | cons head rest ih => rw [heightAll, Nat.max_le, ih, List.forall_mem_cons]

theorem heightNamed_le_iff {entries : List (String × Outline)} {bound : Nat} :
    heightNamed entries ≤ bound ↔ ∀ entry ∈ entries, entry.2.height ≤ bound := by
  induction entries with
  | nil => simp [heightNamed]
  | cons head rest ih =>
    obtain ⟨name, outline⟩ := head
    rw [heightNamed, Nat.max_le, ih, List.forall_mem_cons]

/-- An outline is as tall as its children, and one more. -/
theorem height_le_iff {bound : Nat} : height ⟨tag, literal, children, named⟩ ≤ bound + 1 ↔
    (∀ child ∈ children, child.height ≤ bound) ∧ ∀ entry ∈ named, entry.2.height ≤ bound := by
  rw [height, Nat.add_le_add_iff_right, Nat.max_le, heightAll_le_iff, heightNamed_le_iff]

mutual

/-- What holds of an outline once it holds of its children holds of all. -/
theorem induct {motive : Outline → Prop}
    (step : ∀ tag literal children named, (∀ child ∈ children, motive child) →
      (∀ entry ∈ named, motive entry.2) → motive ⟨tag, literal, children, named⟩) :
    ∀ outline, motive outline
  | ⟨tag, literal, children, named⟩ =>
    step tag literal children named (inductAll step children) (inductNamed step named)

theorem inductAll {motive : Outline → Prop}
    (step : ∀ tag literal children named, (∀ child ∈ children, motive child) →
      (∀ entry ∈ named, motive entry.2) → motive ⟨tag, literal, children, named⟩) :
    ∀ outlines : List Outline, ∀ outline ∈ outlines, motive outline
  | [] => nofun
  | outline :: rest => List.forall_mem_cons.mpr ⟨induct step outline, inductAll step rest⟩

theorem inductNamed {motive : Outline → Prop}
    (step : ∀ tag literal children named, (∀ child ∈ children, motive child) →
      (∀ entry ∈ named, motive entry.2) → motive ⟨tag, literal, children, named⟩) :
    ∀ entries : List (String × Outline), ∀ entry ∈ entries, motive entry.2
  | [] => nofun
  | (_, outline) :: rest => List.forall_mem_cons.mpr ⟨induct step outline, inductNamed step rest⟩

end

/-- What a registry asks of one outline, its children apart: the tag of an enabled function, a
literal on constants alone and no infinite number or non-number in it at any depth of lists, unnamed
children only where the function takes them and enough of them, all required names and none that
the function does not take. -/
structure Allowed (r : Registry) (outline : Outline) (func : Func) : Prop where
  enabled : r.enabled func = true
  tag_eq : func.tag = outline.tag
  literal_iff : outline.literal.isSome = true ↔ func = .constant
  literal_finite : ∀ value ∈ outline.literal, ∀ x, (Value.float x).Within value → isFinite x = true
  unnamed_none : func.descriptor.variadic = none → outline.children = []
  unnamed_least : ∀ least, func.descriptor.variadic = some least → least ≤ outline.children.length
  required_given : ∀ p ∈ func.descriptor.parameters, p.required = true →
    ∃ entry ∈ outline.named, entry.1 = p.name
  given_taken : ∀ entry ∈ outline.named, ∃ p ∈ func.descriptor.parameters, p.name = entry.1

end Outline

namespace Node

variable {func : Func} {literal : Option Value} {children : List Node}
  {named : List (String × Node)}

theorem foldr_max_le_iff {α : Type} {f : α → Nat} {items : List α} {bound : Nat} :
    items.foldr (fun item deepest => max (f item) deepest) 0 ≤ bound ↔
      ∀ item ∈ items, f item ≤ bound := by
  induction items with
  | nil => simp
  | cons head rest ih => simp only [List.foldr_cons, Nat.max_le, ih, List.forall_mem_cons]

/-- A tree is as deep as its children, and one more. -/
theorem depth_make_le_iff {bound : Nat} : (make func literal children named).depth ≤ bound + 1 ↔
    (∀ child ∈ children, child.depth ≤ bound) ∧ ∀ entry ∈ named, entry.2.depth ≤ bound := by
  rw [make, Nat.add_le_add_iff_right, childDepth, Nat.max_le]
  exact and_congr foldr_max_le_iff foldr_max_le_iff

/-- A tree fits in at a level exactly if the level is allowed and its children fit in below. -/
theorem fits_make_iff {level limit : Nat} :
    level + (make func literal children named).depth ≤ limit + 1 ↔ level ≤ limit ∧
      (∀ child ∈ children, level + 1 + child.depth ≤ limit + 1) ∧
        ∀ entry ∈ named, level + 1 + entry.2.depth ≤ limit + 1 := by
  have positive : 0 < (make func literal children named).depth := Nat.succ_pos _
  by_cases allowed : level ≤ limit
  · have bounds (n : Nat) : level + 1 + n ≤ limit + 1 ↔ n ≤ limit - level := by omega
    have whole : level + (make func literal children named).depth ≤ limit + 1 ↔
        (make func literal children named).depth ≤ limit - level + 1 := by omega
    rw [whole, depth_make_le_iff]
    simp only [bounds, allowed, true_and]
  · exact ⟨fun fits => absurd fits (by omega), fun fits => absurd fits.1 allowed⟩

end Node

namespace Registry

variable {r : Registry} {func : Func} {tag : String} {literal : Option Value}
  {children : List Outline} {named : List (String × Outline)} {level : Nat} {node : Node}

/-- The functions found are those enabled, each under its own tag. -/
theorem resolve_eq_ok_iff : r.resolve tag = .ok func ↔ r.enabled func = true ∧ func.tag = tag := by
  constructor
  · intro found
    refine ⟨?_, tag_of_resolve found⟩
    unfold resolve at found
    split at found
    · rename_i f listed
      cases found
      exact (List.mem_filter.mp (List.mem_of_find?_eq_some listed)).2
    · cases found
  · rintro ⟨enabled, rfl⟩
    exact resolve_tag enabled

/-! ### Building from the leaves -/

mutual

/-- Builds the tree of an outline, children first, and looks at no level. -/
def assemble (r : Registry) : Outline → Except MalformedTree Node
  | ⟨tag, literal, children, named⟩ => do
    let func ← r.resolve tag
    let children ← assembleAll r children
    let named ← assembleNamed r named
    r.build func literal children named

/-- Builds the trees of outlines. -/
def assembleAll (r : Registry) : List Outline → Except MalformedTree (List Node)
  | [] => .ok []
  | outline :: rest => return (← assemble r outline) :: (← assembleAll r rest)

/-- Builds the trees of named outlines. -/
def assembleNamed (r : Registry) :
    List (String × Outline) → Except MalformedTree (List (String × Node))
  | [] => .ok []
  | (name, outline) :: rest => return (name, ← assemble r outline) :: (← assembleNamed r rest)

end

theorem assembleAll_eq_mapM (outlines : List Outline) :
    r.assembleAll outlines = outlines.mapM r.assemble := by
  induction outlines with
  | nil => rfl
  | cons head rest ih => rw [assembleAll, List.mapM_cons, ih]

theorem assembleNamed_eq_mapM (entries : List (String × Outline)) : r.assembleNamed entries =
    entries.mapM fun entry => (entry.1, ·) <$> r.assemble entry.2 := by
  induction entries with
  | nil => rfl
  | cons head rest ih => rw [assembleNamed, List.mapM_cons, ih, bind_map_left]

theorem decodeAll_eq_mapM (outlines : List Outline) :
    r.decodeAll level outlines = outlines.mapM (r.decodeAt level) := by
  induction outlines with
  | nil => rfl
  | cons head rest ih => rw [decodeAll, List.mapM_cons, ih]

theorem decodeNamed_eq_mapM (entries : List (String × Outline)) : r.decodeNamed level entries =
    entries.mapM fun entry => (entry.1, ·) <$> r.decodeAt level entry.2 := by
  induction entries with
  | nil => rfl
  | cons head rest ih => rw [decodeNamed, List.mapM_cons, ih, bind_map_left]

theorem assemble_eq_ok_iff : r.assemble ⟨tag, literal, children, named⟩ = .ok node ↔
    ∃ func, r.resolve tag = .ok func ∧ ∃ cs, r.assembleAll children = .ok cs ∧
      ∃ ns, r.assembleNamed named = .ok ns ∧ r.build func literal cs ns = .ok node := by
  rw [assemble]
  simp only [bind_eq_ok_iff]

/-- A node over assembled children is as deep as its outline is tall, if those are. -/
theorem depth_make_of_assembled {cs : List Node} {ns : List (String × Node)}
    (children_same : ∀ child ∈ children, ∀ n, r.assemble child = .ok n → n.depth = child.height)
    (named_same : ∀ entry ∈ named, ∀ n, r.assemble entry.2 = .ok n → n.depth = entry.2.height)
    (cs_made : r.assembleAll children = .ok cs) (ns_made : r.assembleNamed named = .ok ns) :
    (Node.make func literal cs ns).depth = Outline.height ⟨tag, literal, children, named⟩ := by
  rw [assembleAll_eq_mapM] at cs_made
  rw [assembleNamed_eq_mapM] at ns_made
  -- Two numbers are the same if they have the same bounds.
  have bounds (bound : Nat) : (Node.make func literal cs ns).depth ≤ bound + 1 ↔
      Outline.height ⟨tag, literal, children, named⟩ ≤ bound + 1 := by
    rw [Node.depth_make_le_iff, Outline.height_le_iff]
    refine and_congr (forall_mem_values_iff cs_made fun child mem n made => ?_)
      (forall_mem_values_iff ns_made fun entry mem named_node made => ?_)
    · rw [children_same child mem n made]
    · obtain ⟨n, n_made, rfl⟩ := map_eq_ok_iff.mp made
      rw [named_same entry mem n n_made]
  exact Nat.le_antisymm ((bounds _).mpr (Nat.le_refl _)) ((bounds _).mp (Nat.le_refl _))

/-- What is assembled is as deep as its outline is tall. -/
theorem depth_of_assemble {outline : Outline} :
    ∀ node, r.assemble outline = .ok node → node.depth = outline.height := by
  induction outline using Outline.induct with
  | step tag literal children named children_same named_same =>
    intro node made
    obtain ⟨func, -, cs, cs_made, ns, ns_made, built⟩ := assemble_eq_ok_iff.mp made
    obtain ⟨-, -, -, rfl⟩ := build_eq_ok_iff.mp built
    exact depth_make_of_assembled children_same named_same cs_made ns_made

/-- Named children keep their names. -/
theorem names_of_assembleNamed {ns : List (String × Node)} (made : r.assembleNamed named = .ok ns) :
    ns.map Prod.fst = named.map Prod.fst := by
  rw [assembleNamed_eq_mapM, mapM_eq_ok_iff] at made
  refine map_eq_of_forall₂ made fun entry named_node here => ?_
  obtain ⟨n, -, rfl⟩ := map_eq_ok_iff.mp here
  rfl

theorem length_of_assembleAll {cs : List Node} (made : r.assembleAll children = .ok cs) :
    cs.length = children.length := by
  rw [assembleAll_eq_mapM, mapM_eq_ok_iff] at made
  exact made.length_eq.symm

/-! ### Levels and depths -/

/-- Decoding at a level gives the tree built from the leaves where there is room for it below, and
nothing where there is none. -/
def AsAssembled (r : Registry) (level : Nat) (outline : Outline) : Prop :=
  ∀ node, r.decodeAt level outline = .ok node ↔
    r.assemble outline = .ok node ∧ level + node.depth ≤ r.maxDepth + 1

theorem decodeAll_eq_ok_iff (same : ∀ child ∈ children, r.AsAssembled level child)
    {cs : List Node} : r.decodeAll level children = .ok cs ↔
      r.assembleAll children = .ok cs ∧ ∀ n ∈ cs, level + n.depth ≤ r.maxDepth + 1 := by
  rw [decodeAll_eq_mapM, assembleAll_eq_mapM]
  exact mapM_eq_ok_iff_of_demand same

theorem decodeNamed_eq_ok_iff (same : ∀ entry ∈ named, r.AsAssembled level entry.2)
    {ns : List (String × Node)} : r.decodeNamed level named = .ok ns ↔
      r.assembleNamed named = .ok ns ∧ ∀ entry ∈ ns, level + entry.2.depth ≤ r.maxDepth + 1 := by
  rw [decodeNamed_eq_mapM, assembleNamed_eq_mapM]
  refine mapM_eq_ok_iff_of_demand fun entry mem named_node => ?_
  rw [map_eq_ok_iff, map_eq_ok_iff]
  constructor
  · rintro ⟨n, read, rfl⟩
    obtain ⟨made, fits⟩ := (same entry mem n).mp read
    exact ⟨⟨n, made, rfl⟩, fits⟩
  · rintro ⟨⟨n, made, rfl⟩, fits⟩
    exact ⟨n, (same entry mem n).mpr ⟨made, fits⟩, rfl⟩

/-- At every level an outline is decoded exactly if building it from the leaves gives a tree for
which there is room below. -/
theorem asAssembled (r : Registry) (outline : Outline) (level : Nat) :
    r.AsAssembled level outline := by
  induction outline using Outline.induct generalizing level with
  | step tag literal children named children_same named_same =>
    intro node
    have unnamed := @decodeAll_eq_ok_iff r children (level + 1)
      fun child mem => children_same child mem (level + 1)
    have given := @decodeNamed_eq_ok_iff r named (level + 1)
      fun entry mem => named_same entry mem (level + 1)
    simp only [decodeAt_eq_ok_iff, assemble_eq_ok_iff, unnamed, given]
    constructor
    · rintro ⟨allowed, func, found, cs, ⟨cs_made, cs_fit⟩, ns, ⟨ns_made, ns_fit⟩, built⟩
      refine ⟨⟨func, found, cs, cs_made, ns, ns_made, built⟩, ?_⟩
      obtain ⟨-, -, -, rfl⟩ := build_eq_ok_iff.mp built
      exact Node.fits_make_iff.mpr ⟨allowed, cs_fit, ns_fit⟩
    · rintro ⟨⟨func, found, cs, cs_made, ns, ns_made, built⟩, fits⟩
      obtain ⟨-, -, -, rfl⟩ := build_eq_ok_iff.mp built
      obtain ⟨allowed, cs_fit, ns_fit⟩ := Node.fits_make_iff.mp fits
      exact ⟨allowed, func, found, cs, ⟨cs_made, cs_fit⟩, ns, ⟨ns_made, ns_fit⟩, built⟩

/-- Decoding gives the tree that is built from the leaves, and none where that gives none. -/
theorem decode_eq_ok_iff_assemble {outline : Outline} :
    r.decode outline = .ok node ↔ r.assemble outline = .ok node := by
  rw [decode, asAssembled]
  refine and_iff_left_of_imp fun made => ?_
  obtain ⟨tag, literal, children, named⟩ := outline
  obtain ⟨func, -, cs, -, ns, -, built⟩ := assemble_eq_ok_iff.mp made
  obtain ⟨-, -, shallow, rfl⟩ := build_eq_ok_iff.mp built
  omega

/-! ### Allowed outlines -/

/-- What is allowed at one outline is an enabled function under its tag and the shape that this
function asks for. -/
theorem allowed_iff : Outline.Allowed r ⟨tag, literal, children, named⟩ func ↔
    r.resolve tag = .ok func ∧
      WellShaped func literal children.length (named.map Prod.fst) := by
  have taken (name : String) : func.descriptor.takes name = true ↔
      ∃ p ∈ func.descriptor.parameters, p.name = name := by
    simp [Descriptor.takes]
  rw [resolve_eq_ok_iff]
  constructor
  · intro allowed
    refine ⟨⟨allowed.enabled, allowed.tag_eq⟩, allowed.literal_iff, fun value given => ?_,
      fun none => ?_, allowed.unnamed_least, fun p declared required => ?_, ?_⟩
    · exact value.allFinite_eq_true_iff.mpr (allowed.literal_finite value given)
    · exact List.length_eq_zero_iff.mpr (allowed.unnamed_none none)
    · exact List.mem_map.mpr (allowed.required_given p declared required)
    · exact List.forall_mem_map.mpr fun entry mem => (taken _).mpr (allowed.given_taken entry mem)
  · rintro ⟨⟨enabled, tag_eq⟩, shape⟩
    refine ⟨enabled, tag_eq, shape.literal_iff, fun value given => ?_, fun none => ?_,
      shape.unnamed_least, fun p declared required => ?_, fun entry mem => ?_⟩
    · exact value.allFinite_eq_true_iff.mp (shape.literal_finite value given)
    · exact List.length_eq_zero_iff.mp (shape.unnamed_none none)
    · exact List.mem_map.mp (shape.required_given p declared required)
    · exact (taken _).mp (shape.given_taken entry.1 (List.mem_map_of_mem mem))

/-- An outline is built from the leaves exactly if every child is, the function and the shape are
right and the outline is not too tall. -/
theorem exists_assemble_eq_ok_iff_step :
    (∃ node, r.assemble ⟨tag, literal, children, named⟩ = .ok node) ↔
      (∃ func, Outline.Allowed r ⟨tag, literal, children, named⟩ func) ∧
      (∀ child ∈ children, ∃ node, r.assemble child = .ok node) ∧
      (∀ entry ∈ named, ∃ node, r.assemble entry.2 = .ok node) ∧
      Outline.height ⟨tag, literal, children, named⟩ ≤ r.maxDepth := by
  have unnamed : (∃ cs, r.assembleAll children = .ok cs) ↔
      ∀ child ∈ children, ∃ node, r.assemble child = .ok node := by
    rw [assembleAll_eq_mapM, exists_mapM_eq_ok_iff]
  have given : (∃ ns, r.assembleNamed named = .ok ns) ↔
      ∀ entry ∈ named, ∃ node, r.assemble entry.2 = .ok node := by
    simp [assembleNamed_eq_mapM, exists_mapM_eq_ok_iff, map_eq_ok_iff]
  simp only [allowed_iff, ← unnamed, ← given]
  constructor
  · rintro ⟨node, made⟩
    have tall := depth_of_assemble node made
    obtain ⟨func, found, cs, cs_made, ns, ns_made, built⟩ := assemble_eq_ok_iff.mp made
    obtain ⟨-, shape, shallow, rfl⟩ := build_eq_ok_iff.mp built
    rw [length_of_assembleAll cs_made, names_of_assembleNamed ns_made] at shape
    exact ⟨⟨func, found, shape⟩, ⟨cs, cs_made⟩, ⟨ns, ns_made⟩, tall ▸ shallow⟩
  · rintro ⟨⟨func, found, shape⟩, ⟨cs, cs_made⟩, ⟨ns, ns_made⟩, short⟩
    have enabled := (resolve_eq_ok_iff.mp found).1
    have tall : (Node.make func literal cs ns).depth =
        Outline.height ⟨tag, literal, children, named⟩ := depth_make_of_assembled
      (fun _ _ => depth_of_assemble) (fun _ _ => depth_of_assemble) cs_made ns_made
    rw [← length_of_assembleAll cs_made, ← names_of_assembleNamed ns_made] at shape
    exact ⟨_, assemble_eq_ok_iff.mpr ⟨func, found, cs, cs_made, ns, ns_made,
      build_eq_ok_iff.mpr ⟨enabled, shape, tall ▸ short, rfl⟩⟩⟩

/-- An outline is built from the leaves exactly if every part of it is allowed and it is not too
tall. -/
theorem exists_assemble_eq_ok_iff {outline : Outline} : (∃ node, r.assemble outline = .ok node) ↔
    (∀ part ∈ outline.parts, ∃ func, part.Allowed r func) ∧ outline.height ≤ r.maxDepth := by
  induction outline using Outline.induct with
  | step tag literal children named children_same named_same =>
    rw [exists_assemble_eq_ok_iff_step, Outline.forall_mem_parts]
    constructor
    · rintro ⟨allowed, unnamed, given, short⟩
      exact ⟨⟨allowed, fun child mem => ((children_same child mem).mp (unnamed child mem)).1,
        fun entry mem => ((named_same entry mem).mp (given entry mem)).1⟩, short⟩
    · rintro ⟨⟨allowed, unnamed, given⟩, short⟩
      obtain ⟨unnamed_short, given_short⟩ :=
        Outline.height_le_iff.mp (Nat.le_succ_of_le short)
      exact ⟨allowed,
        fun child mem => (children_same child mem).mpr ⟨unnamed child mem, unnamed_short child mem⟩,
        fun entry mem => (named_same entry mem).mpr ⟨given entry mem, given_short entry mem⟩, short⟩

/-! ### How decoding fails -/

/-- The outlines that decoding comes to, each with the level at which it stands: the root, and a
child of an outline whose level is allowed and whose function is found, once all children before it
are decoded. -/
inductive Reaches (r : Registry) (root : Outline) : Nat → Outline → Prop where
  | root : Reaches r root 1 root
  | child {level : Nat} {tag : String} {literal : Option Value} {before after : List Outline}
      {outline : Outline} {named : List (String × Outline)} {func : Func} {cs : List Node}
      (reached : Reaches r root level ⟨tag, literal, before ++ outline :: after, named⟩)
      (allowed : level ≤ r.maxDepth) (found : r.resolve tag = .ok func)
      (earlier : r.decodeAll (level + 1) before = .ok cs) : Reaches r root (level + 1) outline
  | named {level : Nat} {tag name : String} {literal : Option Value} {children : List Outline}
      {before after : List (String × Outline)} {outline : Outline} {func : Func} {cs : List Node}
      {ns : List (String × Node)}
      (reached : Reaches r root level ⟨tag, literal, children, before ++ (name, outline) :: after⟩)
      (allowed : level ≤ r.maxDepth) (found : r.resolve tag = .ok func)
      (unnamed : r.decodeAll (level + 1) children = .ok cs)
      (earlier : r.decodeNamed (level + 1) before = .ok ns) : Reaches r root (level + 1) outline

/-- The builds that decoding asks for: one at each outline that it comes to at an allowed level,
once the function is found and all children are decoded. -/
inductive Builds (r : Registry) (root : Outline) :
    Func → Option Value → List Node → List (String × Node) → Prop where
  | build {level : Nat} {tag : String} {literal : Option Value} {children : List Outline}
      {named : List (String × Outline)} {func : Func} {cs : List Node} {ns : List (String × Node)}
      (reached : Reaches r root level ⟨tag, literal, children, named⟩)
      (allowed : level ≤ r.maxDepth) (found : r.resolve tag = .ok func)
      (unnamed : r.decodeAll (level + 1) children = .ok cs)
      (given : r.decodeNamed (level + 1) named = .ok ns) : Builds r root func literal cs ns

variable {root outline : Outline}

theorem Reaches.level_pos (reached : r.Reaches root level outline) : 1 ≤ level := by
  cases reached <;> omega

/-- Decoding goes no further than one level below the last. -/
theorem Reaches.level_le (reached : r.Reaches root level outline) : level ≤ r.maxDepth + 1 := by
  cases reached with
  | root => omega
  | child _ allowed => omega
  | named _ allowed => omega

/-- A build says that a tree is too deep only of a tree that is. -/
theorem lt_depth_of_build_eq_tooDeep {cs : List Node} {ns : List (String × Node)}
    {limit actual : Nat} (failed : r.build func literal cs ns = .error (.tooDeep limit actual)) :
    r.maxDepth < (Node.make func literal cs ns).depth := by
  have literal_other : checkLiteral func literal ≠ .error (.tooDeep limit actual) := by
    unfold checkLiteral
    split <;> split <;> (try split) <;> simp
  have arity_other : checkArity func cs.length ≠ .error (.tooDeep limit actual) := by
    unfold checkArity
    split <;> split <;> simp
  have names_other : checkNames func (ns.map Prod.fst) ≠ .error (.tooDeep limit actual) := by
    simp only [checkNames]
    split <;> (try split) <;> simp
  unfold build at failed
  by_contra shallow
  by_cases enabled : r.enabled func = true
  · simp [enabled, shallow, bind_eq_error_iff, map_eq_error_iff, literal_other, arity_other,
      names_other] at failed
  · simp [enabled, bind_eq_error_iff] at failed

/-- No build that decoding asks for is of too deep a tree. -/
theorem Builds.depth_le {cs : List Node} {ns : List (String × Node)}
    (asked : r.Builds root func literal cs ns) :
    (Node.make func literal cs ns).depth ≤ r.maxDepth := by
  cases asked with
  | @build level tag literal children named func cs ns reached allowed found unnamed given =>
    have level_pos := reached.level_pos
    have cs_fit := ((decodeAll_eq_ok_iff fun child _ => asAssembled r child _).mp unnamed).2
    have ns_fit := ((decodeNamed_eq_ok_iff fun entry _ => asAssembled r entry.2 _).mp given).2
    have fits : level + (Node.make func literal cs ns).depth ≤ r.maxDepth + 1 :=
      Node.fits_make_iff.mpr ⟨allowed, cs_fit, ns_fit⟩
    omega

/-- An outline fails at its level, at its tag, at a child or in its build. -/
theorem decodeAt_eq_error_iff {error : MalformedTree} :
    r.decodeAt level ⟨tag, literal, children, named⟩ = .error error ↔
      r.maxDepth < level ∧ error = .tooDeep r.maxDepth level ∨ level ≤ r.maxDepth ∧
        (r.resolve tag = .error error ∨ ∃ func, r.resolve tag = .ok func ∧
          (r.decodeAll (level + 1) children = .error error ∨
            ∃ cs, r.decodeAll (level + 1) children = .ok cs ∧
              (r.decodeNamed (level + 1) named = .error error ∨
                ∃ ns, r.decodeNamed (level + 1) named = .ok ns ∧
                  r.build func literal cs ns = .error error))) := by
  rw [decodeAt]
  by_cases deep : r.maxDepth < level
  · simp [deep, Nat.not_le.mpr deep, bind_eq_error_iff]
    exact eq_comm
  · simp [deep, Nat.le_of_not_lt deep, bind_eq_error_iff]

/-- What fails below a reached outline fails as a whole. -/
theorem Reaches.decode_eq_error {error : MalformedTree} (reached : r.Reaches root level outline)
    (failed : r.decodeAt level outline = .error error) : r.decode root = .error error := by
  induction reached with
  | root => exact failed
  | @child level tag literal before after outline named func cs _ allowed found earlier ih =>
    have stopped : r.decodeAll (level + 1) (before ++ outline :: after) = .error error := by
      rw [decodeAll_eq_mapM] at earlier ⊢
      exact mapM_eq_error_iff.mpr
        ⟨before, outline, after, rfl, exists_mapM_eq_ok_iff.mp ⟨cs, earlier⟩, failed⟩
    exact ih (decodeAt_eq_error_iff.mpr (.inr ⟨allowed, .inr ⟨func, found, .inl stopped⟩⟩))
  | @named level tag name literal children before after outline func cs ns _ allowed found unnamed
      earlier ih =>
    have stopped : r.decodeNamed (level + 1) (before ++ (name, outline) :: after) =
        .error error := by
      rw [decodeNamed_eq_mapM] at earlier ⊢
      exact mapM_eq_error_iff.mpr ⟨before, (name, outline), after, rfl,
        exists_mapM_eq_ok_iff.mp ⟨ns, earlier⟩, map_eq_error_iff.mpr failed⟩
    exact ih (decodeAt_eq_error_iff.mpr
      (.inr ⟨allowed, .inr ⟨func, found, .inr ⟨cs, unnamed, .inl stopped⟩⟩⟩))

/-- Decoding a reached outline calls a tree too deep only where it comes to an outline one level
below the last. -/
theorem Reaches.of_tooDeep {limit actual : Nat} (reached : r.Reaches root level outline)
    (failed : r.decodeAt level outline = .error (.tooDeep limit actual)) :
    limit = r.maxDepth ∧ actual = r.maxDepth + 1 ∧
      ∃ part, r.Reaches root (r.maxDepth + 1) part := by
  induction outline using Outline.induct generalizing level with
  | step tag literal children named children_same named_same =>
    obtain ⟨deep, same⟩ | ⟨allowed, failed⟩ := decodeAt_eq_error_iff.mp failed
    · have last : level = r.maxDepth + 1 := by
        have := reached.level_le
        omega
      subst last
      obtain ⟨rfl, rfl⟩ := MalformedTree.tooDeep.inj same
      exact ⟨rfl, rfl, _, reached⟩
    obtain unknown | ⟨func, found, failed⟩ := failed
    · unfold resolve at unknown
      split at unknown <;> cases unknown
    obtain stopped | ⟨cs, unnamed, failed⟩ := failed
    · rw [decodeAll_eq_mapM, mapM_eq_error_iff] at stopped
      obtain ⟨before, child, after, rfl, earlier, failed⟩ := stopped
      obtain ⟨cs, earlier⟩ := exists_mapM_eq_ok_iff.mpr earlier
      rw [← decodeAll_eq_mapM] at earlier
      exact children_same child (by simp) (reached.child allowed found earlier) failed
    obtain stopped | ⟨ns, given, failed⟩ := failed
    · rw [decodeNamed_eq_mapM, mapM_eq_error_iff] at stopped
      obtain ⟨before, ⟨name, child⟩, after, rfl, earlier, failed⟩ := stopped
      obtain ⟨ns, earlier⟩ := exists_mapM_eq_ok_iff.mpr earlier
      rw [← decodeNamed_eq_mapM] at earlier
      exact named_same (name, child) (by simp) (reached.named allowed found unnamed earlier)
        (map_eq_error_iff.mp failed)
    · have asked : r.Builds root func literal cs ns := .build reached allowed found unnamed given
      exact absurd (lt_depth_of_build_eq_tooDeep failed) (Nat.not_lt.mpr asked.depth_le)

/-- Decoding calls a tree too deep exactly if it comes to an outline one level below the last. -/
theorem decode_eq_tooDeep_iff {limit actual : Nat} :
    r.decode root = .error (.tooDeep limit actual) ↔ limit = r.maxDepth ∧
      actual = r.maxDepth + 1 ∧ ∃ part, r.Reaches root (r.maxDepth + 1) part := by
  constructor
  · exact fun failed => Reaches.root.of_tooDeep failed
  · rintro ⟨rfl, rfl, part, reached⟩
    obtain ⟨tag, literal, children, named⟩ := part
    exact reached.decode_eq_error
      (decodeAt_eq_error_iff.mpr (.inl ⟨Nat.lt_succ_self _, rfl⟩))

/-! ### Decoding and construction -/

/-- **Decoding validates exactly as construction does.** It gives the tree that building from the
leaves gives, and it gives one exactly if every part of the outline is allowed and the outline is no
taller than trees may be deep. What it calls too deep is one level below the last, and that is so
exactly if it comes to an outline at that level; of no tree that it builds does the build say so. -/
theorem decode_as_assembled (r : Registry) (root : Outline) :
    (∀ node, r.decode root = .ok node ↔ r.assemble root = .ok node) ∧
    ((∃ node, r.decode root = .ok node) ↔
      (∀ part ∈ root.parts, ∃ func, part.Allowed r func) ∧ root.height ≤ r.maxDepth) ∧
    (∀ limit actual, r.decode root = .error (.tooDeep limit actual) ↔ limit = r.maxDepth ∧
      actual = r.maxDepth + 1 ∧ ∃ part, r.Reaches root (r.maxDepth + 1) part) ∧
    ∀ func literal children named limit actual, r.Builds root func literal children named →
      r.build func literal children named ≠ .error (.tooDeep limit actual) := by
  refine ⟨fun node => decode_eq_ok_iff_assemble, ?_, fun limit actual => decode_eq_tooDeep_iff, ?_⟩
  · rw [← exists_assemble_eq_ok_iff]
    exact exists_congr fun node => decode_eq_ok_iff_assemble
  · intro func literal children named limit actual asked failed
    exact Nat.not_lt.mpr asked.depth_le (lt_depth_of_build_eq_tooDeep failed)

/-- A test for null is built once the constant in it is decoded; where trees are one level deep, the
constant is not looked at. -/
theorem decode_as_assembled_of_null_test :
    let constant : Outline := ⟨"Constant", some .null, [], []⟩
    let test : Outline := ⟨"IsNull", none, [], [("value", constant)]⟩
    let read : Node := Node.make .constant (some .null) [] []
    standard.Builds test .isNull none [] [("value", read)] ∧
      (∀ limit actual, standard.build .isNull none [] [("value", read)] ≠
        .error (.tooDeep limit actual)) ∧
      (∀ part ∈ test.parts, ∃ func, part.Allowed standard func) ∧
      (standard.withMaxDepth 1).Reaches test 2 constant ∧
      (standard.withMaxDepth 1).decode test = .error (.tooDeep 1 2) := by
  intro constant test read
  have asked : standard.Builds test .isNull none [] [("value", read)] :=
    .build .root (by decide) rfl rfl rfl
  have top : (standard.withMaxDepth 1).Reaches test 1
      ⟨"IsNull", none, [], [] ++ ("value", constant) :: []⟩ := .root
  have reached : (standard.withMaxDepth 1).Reaches test 2 constant :=
    top.named (by decide) rfl rfl rfl
  obtain ⟨-, accepted, -, never⟩ := decode_as_assembled standard test
  obtain ⟨-, -, tooDeep, -⟩ := decode_as_assembled (standard.withMaxDepth 1) test
  refine ⟨asked, fun limit actual => never _ _ _ _ limit actual asked, ?_, reached, ?_⟩
  · exact (accepted.mp ⟨_, rfl⟩).1
  · exact (tooDeep 1 2).mpr ⟨rfl, rfl, constant, reached⟩

end Registry

end RiskRules
