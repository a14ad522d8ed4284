import RiskRules.Proofs.Decoding
import RiskRules.Proofs.FiniteDocuments

/-!
The nodes that there are. Clients come by trees only through the calls of registries, which may take
trees that other registries returned, and by taking trees apart (`Node.Obtained`). What one call
returns over valid trees is valid (`Registry.Returns.valid`), hence so is every tree that any
sequence of calls returns. A tree is valid exactly if each of its nodes is as its function's
descriptor asks and knows how tall its tree is (`Node.valid_iff_sound`), and every such tree is
returned by some registry: that is all that can be said of a tree without knowing where it came from
(`Node.representation_invariant`).
-/

namespace RiskRules

/-! ### Outlines in order -/

namespace Outline

variable {tag : String} {literal : Option Value} {children : List Outline}
  {named : List (String × Outline)}

/-- Named children stand in ascending order of their names everywhere in the outline: they are a
map. -/
def Ordered (outline : Outline) : Prop :=
  ∀ part ∈ outline.parts, Keyed.Ascending part.named

theorem ordered_mk_iff : Ordered ⟨tag, literal, children, named⟩ ↔ Keyed.Ascending named ∧
    (∀ child ∈ children, child.Ordered) ∧ ∀ entry ∈ named, entry.2.Ordered :=
  forall_mem_parts

end Outline

/-! ### Nodes as they should be -/

namespace Node

variable {func : Func} {literal : Option Value} {children : List Node}
  {named : List (String × Node)} {node : Node}

/-- A node that is as it should be, its children apart. It has a literal exactly if it is a
constant, and no infinite number or non-number in it at any depth of lists; its names are in order,
every required argument is among them and each is one that the function declares; it has unnamed
children only if its function takes them, and enough of them; and it knows how tall its tree is. -/
structure Sound (node : Node) : Prop where
  literal_iff : node.literal.isSome = true ↔ node.func = .constant
  literal_finite : ∀ value ∈ node.literal, value.Finite
  required_given : ∀ p ∈ node.func.descriptor.parameters, p.required = true →
    p.name ∈ node.named.map Prod.fst
  given_declared : ∀ name ∈ node.named.map Prod.fst,
    ∃ p ∈ node.func.descriptor.parameters, p.name = name
  ordered : Keyed.Ascending node.named
  unnamed_taken : node.children ≠ [] → ∃ least, node.func.descriptor.variadic = some least
  unnamed_least : ∀ least, node.func.descriptor.variadic = some least →
    least ≤ node.children.length
  depth_eq : node.depth = node.height

theorem sound_iff : node.Sound ↔
    WellShaped node.func node.literal node.children.length (node.named.map Prod.fst) ∧
      Keyed.Ascending node.named ∧ node.depth = node.height := by
  have taken (name : String) : node.func.descriptor.takes name = true ↔
      ∃ p ∈ node.func.descriptor.parameters, p.name = name := by
    simp [Descriptor.takes]
  constructor
  · intro sound
    refine ⟨⟨sound.literal_iff, ?_, ?_, sound.unnamed_least, sound.required_given, ?_⟩,
      sound.ordered, sound.depth_eq⟩
    · intro value given
      exact Value.finite_iff.mp (sound.literal_finite value given)
    · intro fixed
      rw [List.length_eq_zero_iff]
      by_contra given
      obtain ⟨least, variadic⟩ := sound.unnamed_taken given
      rw [fixed] at variadic
      cases variadic
    · intro name given
      exact (taken name).mpr (sound.given_declared name given)
  · rintro ⟨shape, ordered, depth_eq⟩
    refine ⟨shape.literal_iff, ?_, shape.required_given, ?_, ordered, ?_, shape.unnamed_least,
      depth_eq⟩
    · intro value given
      exact Value.finite_iff.mpr (shape.literal_finite value given)
    · intro name given
      exact (taken name).mp (shape.given_taken name given)
    · intro given
      apply Option.ne_none_iff_exists'.mp
      intro fixed
      exact given (List.length_eq_zero_iff.mp (shape.unnamed_none fixed))

/-! ### Heights -/

theorem deepest_eq_heightAll (known : ∀ child ∈ children, child.depth = child.height) :
    children.foldr (fun child deepest => max child.depth deepest) 0 = heightAll children := by
  induction children with
  | nil => rfl
  | cons head rest ih =>
    obtain ⟨here, later⟩ := List.forall_mem_cons.mp known
    rw [List.foldr_cons, heightAll, here, ih later]

theorem deepest_eq_heightNamed (known : ∀ entry ∈ named, entry.2.depth = entry.2.height) :
    named.foldr (fun entry deepest => max entry.2.depth deepest) 0 = heightNamed named := by
  induction named with
  | nil => rfl
  | cons head rest ih =>
    obtain ⟨here, later⟩ := List.forall_mem_cons.mp known
    rw [List.foldr_cons, heightNamed, here, ih later]

/-! ### Trees of sound nodes -/

/-- What holds of all nodes of a tree holds of its root and of all nodes of its children. -/
theorem forall_mem_walk {P : Node → Prop} : (∀ part ∈ node.walk, P part) ↔ P node ∧
    (∀ child ∈ node.children, ∀ part ∈ child.walk, P part) ∧
      ∀ entry ∈ node.named, ∀ part ∈ entry.2.walk, P part := by
  constructor
  · intro all
    refine ⟨all node node.self_mem_walk, ?_, ?_⟩
    · intro child mem part below
      exact all part (mem_walk.mpr (.inr (.inl ⟨child, mem, below⟩)))
    · intro entry mem part below
      exact all part (mem_walk.mpr (.inr (.inr ⟨entry, mem, below⟩)))
  · rintro ⟨here, unnamed, given⟩ part mem
    rcases mem_walk.mp mem with rfl | ⟨child, mem, below⟩ | ⟨entry, mem, below⟩
    · exact here
    · exact unnamed child mem part below
    · exact given entry mem part below

/-- Over sound trees a tree is one level taller than the deepest of them. -/
theorem height_eq_of_sound
    (children_sound : ∀ child ∈ node.children, ∀ part ∈ child.walk, part.Sound)
    (named_sound : ∀ entry ∈ node.named, ∀ part ∈ entry.2.walk, part.Sound) :
    node.height = childDepth node.children node.named + 1 := by
  obtain ⟨func, literal, children, named, depth⟩ := node
  rw [height, childDepth, deepest_eq_heightAll, deepest_eq_heightNamed]
  · intro entry mem
    exact (named_sound entry mem entry.2 entry.2.self_mem_walk).depth_eq
  · intro child mem
    exact (children_sound child mem child child.self_mem_walk).depth_eq

/-- A tree is valid exactly if all of its nodes are as they should be. -/
theorem valid_iff_sound : node.Valid ↔ ∀ part ∈ node.walk, part.Sound := by
  constructor
  · intro valid
    induction valid with
    | @make func literal children named shape ordered _ _ children_sound named_sound =>
      have height_eq := @height_eq_of_sound (make func literal children named)
        children_sound named_sound
      have here : (make func literal children named).Sound :=
        sound_iff.mpr ⟨shape, ordered, height_eq.symm⟩
      exact forall_mem_walk.mpr ⟨here, children_sound, named_sound⟩
  · intro sound
    induction node using induct with
    | step node children_valid named_valid =>
      obtain ⟨here, children_sound, named_sound⟩ := forall_mem_walk.mp sound
      obtain ⟨shape, ordered, depth_eq⟩ := sound_iff.mp here
      have height_eq := height_eq_of_sound children_sound named_sound
      have made : node = make node.func node.literal node.children node.named := by
        obtain ⟨func, literal, children, named, depth⟩ := node
        exact congrArg (Node.mk func literal children named) (depth_eq.trans height_eq)
      rw [made]
      apply Valid.make shape ordered
      · intro child mem
        exact children_valid child mem (children_sound child mem)
      · intro entry mem
        exact named_valid entry mem (named_sound entry mem)

end Node

/-! ### What calls return -/

namespace Registry

variable {r : Registry} {kind : Node → Prop} {node : Node}

/-- What the calls of a registry return: what its construction calls give over trees of a kind, and
what it decodes. -/
inductive Returns (r : Registry) (kind : Node → Prop) : Node → Prop where
  | built {node : Node} (given : r.Gives kind node) : Returns r kind node
  | decoded {outline : Outline} {node : Node} (ordered : outline.Ordered)
      (read : r.decode outline = .ok node) : Returns r kind node

/-- What is assembled from an outline in order is valid. -/
theorem valid_of_assemble {outline : Outline} (ordered : outline.Ordered) :
    ∀ node, r.assemble outline = .ok node → node.Valid := by
  induction outline using Outline.induct with
  | step tag literal children named children_valid named_valid =>
    intro node made
    obtain ⟨here, children_ordered, named_ordered⟩ := Outline.ordered_mk_iff.mp ordered
    obtain ⟨func, -, cs, cs_made, ns, ns_made, built⟩ := assemble_eq_ok_iff.mp made
    obtain ⟨-, shape, -, rfl⟩ := build_eq_ok_iff.mp built
    have names := names_of_assembleNamed ns_made
    rw [assembleAll_eq_mapM, mapM_eq_ok_iff] at cs_made
    rw [assembleNamed_eq_mapM, mapM_eq_ok_iff] at ns_made
    apply Node.Valid.make shape
    · rw [Keyed.ascending_iff_keys, names, ← Keyed.ascending_iff_keys]
      exact here
    · intro n mem
      obtain ⟨child, child_mem, n_made⟩ := exists_of_mem_right cs_made mem
      exact children_valid child child_mem (children_ordered child child_mem) n n_made
    · intro entry mem
      obtain ⟨child, child_mem, entry_made⟩ := exists_of_mem_right ns_made mem
      obtain ⟨n, n_made, rfl⟩ := map_eq_ok_iff.mp entry_made
      exact named_valid child child_mem (named_ordered child child_mem) n n_made

/-- **One call.** Over valid trees a call returns a valid tree. -/
theorem Returns.valid (returned : r.Returns kind node) (valid : ∀ part, kind part → part.Valid) :
    node.Valid := by
  cases returned with
  | built given => exact given.valid valid
  | decoded ordered read => exact valid_of_assemble ordered node (decode_eq_ok_iff_assemble.mp read)

/-- A call returns no tree that is deeper than its registry allows, whatever it takes. -/
theorem Returns.depth_le (returned : r.Returns kind node) : node.depth ≤ r.maxDepth := by
  cases returned with
  | built given =>
    obtain ⟨func, literal, children, named, -, -, -, made⟩ := given.exists_build
    obtain ⟨-, -, depth_le, rfl⟩ := build_eq_ok_iff.mp made
    exact depth_le
  | decoded ordered read => exact depth_le_of_decode read

end Registry

/-! ### Sequences of calls -/

namespace Node

variable {node : Node}

/-- Trees that clients come by: what calls on any registries return over trees come by before, and
the trees in such trees. -/
inductive Obtained : Node → Prop where
  | returned {r : Registry} {kind : Node → Prop} {node : Node}
      (kind_obtained : ∀ part, kind part → Obtained part) (returned : r.Returns kind node) :
      Obtained node
  | part {node part : Node} (whole : Obtained node) (mem : part ∈ node.walk) : Obtained part

/-- **All calls.** Whatever the calls and their registries were, the trees obtained are valid. -/
theorem Obtained.valid (obtained : node.Obtained) : node.Valid := by
  induction obtained with
  | returned _ returned kind_valid => exact returned.valid kind_valid
  | part _ mem valid => exact valid.of_mem_walk mem

/-- Every valid tree is built node by node by a registry that is deep enough. -/
theorem Valid.obtained (valid : node.Valid) : node.Obtained := by
  induction valid with
  | @make func literal children named shape ordered _ _ children_obtained named_obtained =>
    have built : (Registry.standard.withMaxDepth
          (Node.make func literal children named).depth).build func literal children named =
        .ok (Node.make func literal children named) :=
      Registry.build_eq_ok_iff.mpr ⟨rfl, shape, Nat.le_max_right 1 _, rfl⟩
    exact .returned (fun _ obtained => obtained)
      (.built (.build children_obtained named_obtained ordered built))

/-- **The representation of trees.** The trees that any sequence of calls on any registries returns,
and the trees in them, are exactly those of which every node has a literal just if it is a constant,
and a finite one; has every required argument and no undeclared one; has unnamed children only where
its function takes them, and enough of them; and knows the height of its tree. The tree that one
call returns is no deeper than the registry called allows. -/
theorem representation_invariant :
    (∀ node : Node, node.Obtained ↔ ∀ part ∈ node.walk, part.Sound) ∧
      ∀ (r : Registry) (kind : Node → Prop) (node : Node), r.Returns kind node →
        node.depth ≤ r.maxDepth := by
  constructor
  · intro node
    rw [← valid_iff_sound]
    exact ⟨Obtained.valid, Valid.obtained⟩
  · intro r kind node returned
    exact returned.depth_le

/-- A conjunction of a constant of one registry and of a test that another has decoded, made by a
third that has neither of their functions, is as it should be throughout; a negation of nothing is
not, so that no calls return one. -/
theorem representation_invariant_of_mixed : ∃ settled test node,
    (Registry.ofFunctions [.constant]).constant (.bool true) = .ok settled ∧
    Registry.standard.decode ⟨"IsNull", none, [],
      [("value", ⟨"Constant", some (.list [.int 1, .list [.float 0.5]]), [], []⟩)]⟩ = .ok test ∧
    ((Registry.ofFunctions [.and]).withMaxDepth 3).variadic .and [settled, test] = .ok node ∧
    (∀ part ∈ node.walk, part.Sound) ∧ node.depth ≤ 3 ∧ ¬Obtained ⟨.not, none, [], [], 1⟩ := by
  obtain ⟨obtained_iff, depth_le⟩ := representation_invariant
  refine ⟨_, _, _, rfl, rfl, rfl, ?_⟩
  have ordered : Outline.Ordered ⟨"IsNull", none, [],
      [("value", ⟨"Constant", some (.list [.int 1, .list [.float 0.5]]), [], []⟩)]⟩ := by
    simp [Outline.ordered_mk_iff, Keyed.Ascending]
  have settled := @Obtained.returned _ (fun _ => False) _ (fun _ => False.elim)
    (.built (@Registry.Gives.constant (.ofFunctions [.constant]) _ (.bool true) _ rfl))
  have test := @Obtained.returned _ (fun _ => False) _ (fun _ => False.elim)
    (@Registry.Returns.decoded .standard _ _ _ ordered rfl)
  have returned := @Registry.Returns.built _ Obtained _
    (@Registry.Gives.variadic ((Registry.ofFunctions [.and]).withMaxDepth 3) _ .and _ _
      (List.forall_mem_cons.mpr ⟨settled, List.forall_mem_singleton.mpr test⟩) rfl)
  have node := Obtained.returned (fun _ obtained => obtained) returned
  refine ⟨(obtained_iff _).mp node, depth_le _ _ _ returned, ?_⟩
  intro bare
  have given := ((obtained_iff _).mp bare _ (self_mem_walk _)).required_given ⟨"value", true⟩
    (by decide) rfl
  cases given

end Node

end RiskRules
