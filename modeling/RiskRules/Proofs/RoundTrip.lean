import RiskRules.Outline
import RiskRules.Proofs.Construction

/-!
Trees written as outlines and read back. A valid tree within the depth of a registry is read back as
it is, unless one of its functions is not enabled (`Registry.decode_ofNode_eq`), and a tree that was
read is written as the very outline that it was read from (`Registry.ofNode_of_decode`). Reading
checks levels from the root and building checks depths from the leaves; the two agree because a tree
that stands at a level and is as deep as the levels left passes both.
-/

namespace RiskRules

namespace Registry

variable {r : Registry} {func : Func} {tag : String} {literal : Option Value}
  {children : List Outline} {named : List (String × Outline)} {level : Nat} {node : Node}

/-! ### Tags -/

/-- An enabled function is found under its tag, whatever else is enabled. -/
theorem resolve_tag (enabled : r.enabled func = true) : r.resolve func.tag = .ok func := by
  have listed : func ∈ r.functions := List.mem_filter.mpr ⟨func.mem_all, enabled⟩
  have found : r.functions.find? (fun f => f.tag == func.tag) = some func := by
    cases h : r.functions.find? (fun f => f.tag == func.tag) with
    | none => exact absurd (List.find?_eq_none.mp h func listed) (by simp)
    | some f =>
      have same : f = func := Func.tag_injective (by simpa using List.find?_some h)
      rw [same]
  rw [resolve, found]

/-- The function found under a tag has that tag. -/
theorem tag_of_resolve (found : r.resolve tag = .ok func) : func.tag = tag := by
  unfold resolve at found
  split at found
  · rename_i f h
    cases found
    simpa using List.find?_some h
  · cases found

/-- The tag of a function that is not enabled is unknown. -/
theorem resolve_tag_of_disabled (disabled : r.enabled func = false) :
    r.resolve func.tag = .error (.unknownTag func.tag) := by
  have unlisted : r.functions.find? (fun f => f.tag == func.tag) = none := by
    refine List.find?_eq_none.mpr fun f listed same => ?_
    have enabled := (List.mem_filter.mp listed).2
    rw [Func.tag_injective (eq_of_beq same), disabled] at enabled
    cases enabled
  rw [resolve, unlisted]

/-! ### One level of reading -/

theorem decodeAt_eq_ok_iff :
    r.decodeAt level ⟨tag, literal, children, named⟩ = .ok node ↔ level ≤ r.maxDepth ∧
      ∃ func, r.resolve tag = .ok func ∧ ∃ cs, r.decodeAll (level + 1) children = .ok cs ∧
        ∃ ns, r.decodeNamed (level + 1) named = .ok ns ∧ r.build func literal cs ns = .ok node := by
  rw [decodeAt]
  by_cases deep : r.maxDepth < level
  · simp [deep, Nat.not_le.mpr deep, bind_eq_ok_iff]
  · simp [deep, Nat.le_of_not_lt deep, bind_eq_ok_iff]

/-! ### Reading what was written -/

/-- The value given where all functions of the nodes are enabled; else the tag of the first that is
not is unknown. -/
def ifEnabled {α : Type} (r : Registry) (nodes : List Node) (a : α) : Except MalformedTree α :=
  match nodes.find? fun n => !r.enabled n.func with
  | none => .ok a
  | some n => .error (.unknownTag n.func.tag)

section IfEnabled

variable {α β γ : Type} {nodes more : List Node} {a : α} {b : β}

theorem ifEnabled_eq_ok_iff {a' : α} :
    r.ifEnabled nodes a = .ok a' ↔ (∀ n ∈ nodes, r.enabled n.func = true) ∧ a = a' := by
  rw [ifEnabled]
  split
  · rename_i none_found
    simpa using fun _ => List.find?_eq_none.mp none_found
  · rename_i n found
    have disabled := List.find?_some found
    refine ⟨nofun, fun ⟨enabled, _⟩ => ?_⟩
    rw [enabled n (List.mem_of_find?_eq_some found)] at disabled
    cases disabled

theorem ifEnabled_cons (enabled : r.enabled node.func = true) :
    r.ifEnabled (node :: nodes) a = r.ifEnabled nodes a := by
  rw [ifEnabled, List.find?_cons_of_neg (by simp [enabled]), ifEnabled]

theorem ifEnabled_cons_of_disabled (disabled : r.enabled node.func = false) :
    r.ifEnabled (node :: nodes) a = .error (.unknownTag node.func.tag) := by
  rw [ifEnabled, List.find?_cons_of_pos (by simp [disabled])]

/-- Nodes are looked at from left to right. -/
theorem ifEnabled_append {f : α → β → γ} :
    r.ifEnabled (nodes ++ more) (f a b) =
      do return f (← r.ifEnabled nodes a) (← r.ifEnabled more b) := by
  rw [ifEnabled, List.find?_append, ifEnabled, ifEnabled]
  cases nodes.find? fun n => !r.enabled n.func with
  | none => cases more.find? fun n => !r.enabled n.func <;> rfl
  | some n => rfl

/-- What comes next is done with the value given. -/
theorem ifEnabled_bind_congr {f g : α → Except MalformedTree β} (same : f a = g a) :
    r.ifEnabled nodes a >>= f = r.ifEnabled nodes a >>= g := by
  rw [ifEnabled]
  split
  · exact same
  · rfl

end IfEnabled

theorem decodeAll_ofNodes {nodes : List Node}
    (read : ∀ n ∈ nodes, r.decodeAt level (.ofNode n) = r.ifEnabled n.walk n) :
    r.decodeAll level (Outline.ofNodes nodes) = r.ifEnabled (Node.walkAll nodes) nodes := by
  induction nodes with
  | nil => rfl
  | cons head rest ih =>
    rw [Outline.ofNodes, decodeAll, read head List.mem_cons_self,
      ih fun n mem => read n (List.mem_cons_of_mem _ mem), Node.walkAll]
    exact ifEnabled_append.symm

theorem decodeNamed_ofNamed {entries : List (String × Node)}
    (read : ∀ entry ∈ entries,
      r.decodeAt level (.ofNode entry.2) = r.ifEnabled entry.2.walk entry.2) :
    r.decodeNamed level (Outline.ofNamed entries) =
      r.ifEnabled (Node.walkNamed entries) entries := by
  induction entries with
  | nil => rfl
  | cons head rest ih =>
    obtain ⟨name, n⟩ := head
    rw [Outline.ofNamed, decodeNamed, read (name, n) List.mem_cons_self,
      ih fun entry mem => read entry (List.mem_cons_of_mem _ mem), Node.walkNamed]
    exact (ifEnabled_append (f := fun n rest => (name, n) :: rest)).symm

/-- A valid tree is read back at any level that leaves room for its depth, unless one of its
functions is not enabled. -/
theorem decodeAt_ofNode (valid : node.Valid) (level_pos : 1 ≤ level)
    (room : level + node.depth ≤ r.maxDepth + 1) :
    r.decodeAt level (.ofNode node) = r.ifEnabled node.walk node := by
  induction valid generalizing level with
  | @make func literal children named shape ordered _ _ children_read named_read =>
    have positive : 0 < (Node.make func literal children named).depth := Nat.succ_pos _
    have unnamed : r.decodeAll (level + 1) (Outline.ofNodes children) =
        r.ifEnabled (Node.walkAll children) children := by
      refine decodeAll_ofNodes fun child mem => children_read child mem (by omega) ?_
      have less : child.depth < (Node.make func literal children named).depth :=
        Node.depth_lt_make_of_mem mem
      omega
    have given : r.decodeNamed (level + 1) (Outline.ofNamed named) =
        r.ifEnabled (Node.walkNamed named) named := by
      refine decodeNamed_ofNamed fun entry mem => named_read entry mem (by omega) ?_
      have less : entry.2.depth < (Node.make func literal children named).depth :=
        Node.depth_lt_make_of_mem_named mem
      omega
    rw [Node.make, Outline.ofNode, decodeAt, if_neg (by omega), Node.walk, unnamed, given]
    by_cases enabled : r.enabled func = true
    · have built : r.build func literal children named = .ok (Node.make func literal children named) :=
        build_eq_ok_iff.mpr ⟨enabled, shape, by omega, rfl⟩
      rw [resolve_tag enabled, ifEnabled_cons enabled]
      refine Eq.trans ?_ (ifEnabled_append (f := Node.make func literal)).symm
      exact ifEnabled_bind_congr (ifEnabled_bind_congr built)
    · have disabled := Bool.eq_false_iff.mpr enabled
      rw [resolve_tag_of_disabled disabled, ifEnabled_cons_of_disabled disabled]
      rfl

/-- A valid tree within the depth is read back, unless one of its functions is not enabled. -/
theorem decode_ofNode_eq (valid : node.Valid) (depth_le : node.depth ≤ r.maxDepth) :
    r.decode (.ofNode node) = r.ifEnabled node.walk node :=
  decodeAt_ofNode valid (Nat.le_refl 1) (by omega)

/-- A valid tree is read back by every registry that admits it. -/
theorem decode_ofNode (valid : node.Valid) (admitted : node.Admitted r) :
    r.decode (.ofNode node) = .ok node := by
  rw [decode_ofNode_eq valid admitted.depth_le, ifEnabled_eq_ok_iff]
  exact ⟨admitted.enabled, rfl⟩

/-- What a registry has decoded is within its depth. -/
theorem depth_le_of_decode {outline : Outline} (read : r.decode outline = .ok node) :
    node.depth ≤ r.maxDepth := by
  obtain ⟨tag, literal, children, named⟩ := outline
  obtain ⟨-, func, -, cs, -, ns, -, built⟩ := decodeAt_eq_ok_iff.mp read
  obtain ⟨-, -, depth_le, rfl⟩ := build_eq_ok_iff.mp built
  exact depth_le

/-- A valid tree is read back by the registries that admit it and by no others. -/
theorem decode_ofNode_eq_ok_iff (valid : node.Valid) :
    r.decode (.ofNode node) = .ok node ↔ node.Admitted r := by
  constructor
  · intro read
    have depth_le := depth_le_of_decode read
    rw [decode_ofNode_eq valid depth_le, ifEnabled_eq_ok_iff] at read
    exact ⟨read.1, depth_le⟩
  · exact decode_ofNode valid

/-! ### Writing what was read -/

mutual

theorem ofNode_of_decodeAt {level : Nat} {node : Node} : ∀ {outline : Outline},
    r.decodeAt level outline = .ok node → Outline.ofNode node = outline
  | ⟨tag, literal, children, named⟩, read => by
    obtain ⟨-, func, found, cs, cs_read, ns, ns_read, built⟩ := decodeAt_eq_ok_iff.mp read
    obtain ⟨-, -, -, rfl⟩ := build_eq_ok_iff.mp built
    rw [Node.make, Outline.ofNode, tag_of_resolve found, ofNodes_of_decodeAll cs_read,
      ofNamed_of_decodeNamed ns_read]

theorem ofNodes_of_decodeAll {level : Nat} {nodes : List Node} : ∀ {outlines : List Outline},
    r.decodeAll level outlines = .ok nodes → Outline.ofNodes nodes = outlines
  | [], read => by
    rw [decodeAll] at read
    cases read
    rfl
  | outline :: rest, read => by
    simp only [decodeAll, bind_eq_ok_iff, pure_eq_ok_iff] at read
    obtain ⟨n, n_read, ns, ns_read, rfl⟩ := read
    rw [Outline.ofNodes, ofNode_of_decodeAt n_read, ofNodes_of_decodeAll ns_read]

theorem ofNamed_of_decodeNamed {level : Nat} {entries : List (String × Node)} :
    ∀ {outlines : List (String × Outline)},
      r.decodeNamed level outlines = .ok entries → Outline.ofNamed entries = outlines
  | [], read => by
    rw [decodeNamed] at read
    cases read
    rfl
  | (name, outline) :: rest, read => by
    simp only [decodeNamed, bind_eq_ok_iff, pure_eq_ok_iff] at read
    obtain ⟨n, n_read, ns, ns_read, rfl⟩ := read
    rw [Outline.ofNamed, ofNode_of_decodeAt n_read, ofNamed_of_decodeNamed ns_read]

end

/-- A tree that was read is written as what it was read from. -/
theorem ofNode_of_decode {outline : Outline} (read : r.decode outline = .ok node) :
    Outline.ofNode node = outline :=
  ofNode_of_decodeAt read

/-! ### The round trip -/

/-- **Writing and reading trees are inverse to each other.** A tree built on a registry alone is
read back by that registry and by every other that enables its functions and allows its depth;
whatever is read from an outline, by any registry, is written as that outline again. -/
theorem round_trip (r : Registry) :
    (∀ node : Node, node.Built (· = r) → r.decode (.ofNode node) = .ok node ∧
      ∀ other : Registry, (∀ n ∈ node.walk, other.enabled n.func = true) →
        node.depth ≤ other.maxDepth → other.decode (.ofNode node) = .ok node) ∧
    ∀ (outline : Outline) (node : Node),
      r.decode outline = .ok node → Outline.ofNode node = outline := by
  refine ⟨fun node built => ⟨?_, fun other enabled depth_le => ?_⟩, fun outline node read => ?_⟩
  · exact decode_ofNode built.valid built.admitted
  · exact decode_ofNode built.valid ⟨enabled, depth_le⟩
  · exact ofNode_of_decode read

/-- The comparison of a payload field with a limit is read back by a registry of just its three
functions and just its three levels, and a test for null is written as it was read. -/
theorem round_trip_of_comparison : (∃ field limit node : Node,
    standard.payload "amount" = .ok field ∧ standard.constant (.int 1000) = .ok limit ∧
    standard.binary .greaterOrEqual field limit = .ok node ∧
    standard.decode (.ofNode node) = .ok node ∧
    ((ofFunctions [.constant, .payload, .greaterOrEqual]).withMaxDepth 3).decode (.ofNode node) =
      .ok node) ∧
    ∃ node : Node,
      standard.decode ⟨"IsNull", none, [], [("value", ⟨"Constant", some .null, [], []⟩)]⟩ =
        .ok node ∧
      .ofNode node = Outline.mk "IsNull" none [] [("value", ⟨"Constant", some .null, [], []⟩)] := by
  refine ⟨⟨_, _, _, rfl, rfl, rfl, ?_⟩, ⟨_, rfl, (round_trip standard).2 _ _ rfl⟩⟩
  have field := @Node.Built.payload (· = standard) standard "amount" _ rfl rfl
  have limit := @Node.Built.constant (· = standard) standard (.int 1000) _ rfl rfl
  have built := @Node.Built.binary (· = standard) standard .greaterOrEqual _ _ _ rfl field limit rfl
  obtain ⟨own, other⟩ := (round_trip standard).1 _ built
  exact ⟨own, other _ (by decide) (by decide)⟩

end Registry

end RiskRules
