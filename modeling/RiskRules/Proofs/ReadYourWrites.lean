import RiskRules.Proofs.StoredRulesets

/-!
Drafts that the tables have accepted and what they give back. Writing a body looks at the length of
its text alone, while reading parses the text, and the two do not take the same trees: an accepted
draft is read back, and committed, as it was given exactly if its text keeps it
(`Tables.draft_read_back_iff`). Two things can be lost. A body that opens more than 127 brackets is
refused when it is read, which a chain of 64 negations does on a registry of the default depth; and
a binary64 number may come back as its neighbour.
-/

namespace RiskRules

/-- The texts of the bodies keep them: no document opens more brackets than a text may nest, and
every binary64 number is what its text reads as. -/
def Ruleset.KeptByText (ruleset : Ruleset) : Prop :=
  ∀ rule ∈ ruleset.rules, (Outline.ofNode rule.body).toJson.nesting ≤ Json.nestingLimit ∧
    rule.body.KeptByText

namespace Tables

/-! ### Drafts of one rule -/

/-- A body that demands a share of a payload to reach a limit. -/
def shareBody (limit : Float) : Node :=
  .make .scoreComputation none []
    [("condition", .make .greaterOrEqual none []
      [("left", .make .payload none []
        [("fieldName", .make .constant (some (.string "share")) [] [])]),
        ("right", .make .constant (some (.float limit)) [] [])]),
      ("modifier", .make .constant (some (.int 20)) [] [])]

/-- A chain of negations of so many levels above a constant. -/
def negations : Nat → Node
  | 0 => .make .constant (some (.bool true)) [] []
  | levels + 1 => .make .not none [] [("value", negations levels)]

/-- A draft of one rule, which waits a minute and a nanosecond between refreshes. -/
def draftOf (body : Node) : Ruleset :=
  ⟨⟨"acme", "account"⟩, 1, .draft, "first", [0, 10], ⟨60, 1, by decide⟩,
    [⟨"share", "share", "", body⟩]⟩

/-- The standard registry builds whatever passes the checks of its function, to its depth. -/
theorem standard_build {func : Func} {literal : Option Value} {named : List (String × Node)}
    (carried : Registry.checkLiteral func literal = .ok ())
    (unnamed : Registry.checkArity func 0 = .ok ())
    (names : Registry.checkNames func (named.map Prod.fst) = .ok ())
    (shallow : (Node.make func literal [] named).depth ≤ 64) :
    Registry.standard.build func literal [] named = .ok (.make func literal [] named) :=
  Registry.build_eq_ok_iff.mpr
    ⟨rfl, Registry.wellShaped_iff_checks.mpr ⟨carried, unnamed, names⟩, shallow, rfl⟩

theorem built_shareBody {limit : Float} (finite : isFinite limit = true) :
    (shareBody limit).Built (· = Registry.standard) := by
  have given : Registry.standard.constant (.float limit)
      = .ok (.make .constant (some (.float limit)) [] []) :=
    standard_build (Registry.checkLiteral_eq_ok_iff.mpr
      ⟨by simp, by simpa [Value.allFinite] using finite⟩) rfl rfl
      (by simp [Node.make, Node.childDepth])
  have left : (Node.make .payload none []
      [("fieldName", .make .constant (some (.string "share")) [] [])]).Built
        (· = Registry.standard) := @Node.Built.payload _ .standard "share" _ rfl rfl
  have right := @Node.Built.constant (· = Registry.standard) .standard (.float limit) _ rfl given
  have modifier := @Node.Built.constant (· = Registry.standard) .standard (.int 20) _ rfl rfl
  have condition := @Node.Built.build (· = Registry.standard) .standard .greaterOrEqual none []
    [("left", _), ("right", _)] _ rfl (by simp) (by simpa using ⟨left, right⟩)
    (Keyed.ascending_iff_keys.mpr (by decide : ["left", "right"].Pairwise (· < ·)))
    (standard_build rfl rfl rfl (by simp [Node.make, Node.childDepth]))
  exact @Node.Built.build (· = Registry.standard) .standard .scoreComputation none []
    [("condition", _), ("modifier", _)] _ rfl (by simp) (by simpa using ⟨condition, modifier⟩)
    (Keyed.ascending_iff_keys.mpr (by decide : ["condition", "modifier"].Pairwise (· < ·)))
    (standard_build rfl rfl rfl (by simp [Node.make, Node.childDepth]))

theorem keptByText_shareBody {limit : Float} :
    (shareBody limit).KeptByText ↔ (Value.float limit).KeptByText := by
  have field : (Value.string "share").KeptByText := trivial
  have modifier : (Value.int 20).KeptByText := trivial
  simp [shareBody, Node.keptByText_make_iff, field, modifier]

theorem built_negations {levels : Nat} (shallow : levels < 64) :
    (negations levels).Built (· = Registry.standard) ∧ (negations levels).depth = levels + 1 := by
  induction levels with
  | zero =>
    have made : Registry.standard.constant (.bool true) = .ok (negations 0) := rfl
    exact ⟨.constant rfl made, rfl⟩
  | succ levels ih =>
    obtain ⟨built, depth⟩ := ih (by omega)
    have deeper : (negations (levels + 1)).depth = levels + 2 := by
      simp [negations, Node.make, Node.childDepth, depth]
    have made : Registry.standard.call .not [("value", negations levels)]
        = .ok (negations (levels + 1)) := standard_build rfl rfl rfl (deeper.trans_le shallow)
    exact ⟨.call rfl (by simpa using built) made, deeper⟩

theorem document_negations (levels : Nat) : (Outline.ofNode (negations (levels + 1))).toJson
    = .object [("name", .string "Not"),
        ("named_children", .object [("value", (Outline.ofNode (negations levels)).toJson)])] :=
  rfl

theorem readable_negations (levels : Nat) :
    (Outline.ofNode (negations levels)).toJson.readable = true := by
  induction levels with
  | zero => decide
  | succ levels ih => simp [document_negations, Json.readable, Json.readableMembers, ih]

/-- Each negation opens two brackets. -/
theorem nesting_negations (levels : Nat) :
    (Outline.ofNode (negations levels)).toJson.nesting = 2 * levels + 2 := by
  induction levels with
  | zero => decide
  | succ levels ih =>
    simp only [document_negations, Json.nesting, Json.nestingMembers, ih]
    omega

theorem length_chars_negations (levels : Nat) :
    (Json.chars (Outline.ofNode (negations levels)).toJson).length = 42 * levels + 59 := by
  induction levels with
  | zero => decide +kernel
  | succ levels ih =>
    have name : (Json.quoted "name").length = 6 := by decide
    have not : (Json.quoted "Not").length = 5 := by decide
    have children : (Json.quoted "named_children").length = 16 := by decide
    have value : (Json.quoted "value").length = 7 := by decide
    simp [document_negations, Json.chars, Json.memberChars, Json.leafText, name, not, children,
      value, ih]
    omega

/-- A draft is accepted if its body has a text of moderate length. -/
theorem accepted_draftOf {body : Node} (readable : (Outline.ofNode body).toJson.readable = true)
    (short : (Json.chars (Outline.ofNode body).toJson).length ≤ 200000) (r : Registry) :
    ∃ t, (backend r).replaceDraft (draftOf body) .empty = (.ok (), t) := by
  have bytes := Json.utf8ByteSize_compact_le (Outline.ofNode body).toJson
  have text : bodyText ⟨"share", "share", "", body⟩
      = .ok (Json.compact (Outline.ofNode body).toJson) := by
    refine bodyText_eq_ok_iff.mpr ⟨readable, rfl, ?_⟩
    rw [TablesError.maxBodyBytes]
    omega
  have seconds : (60 : UInt64).toNat < 2 ^ 63 := by decide
  have bodies : draftBodies (draftOf body) = .ok [Json.compact (Outline.ofNode body).toJson] :=
    draftBodies_eq_ok_iff.mpr ⟨rfl, seconds, mapM_eq_ok_iff.mpr (.cons text .nil)⟩
  have counted : 1 ≤ 2 ^ 63 := by decide
  have written : writeDraft (draftOf body) .empty
      = (.ok (), drafted .empty (draftOf body) [Json.compact (Outline.ofNode body).toJson]) :=
    writeDraft_eq_ok_iff.mpr ⟨_, bodies, counted, List.nodup_singleton _, rfl⟩
  exact ⟨_, transaction_eq_ok_iff.mpr written⟩

/-- A body built on the standard registry whose draft tables accept and neither give back nor commit
as it was. -/
def AcceptedAndLost (body : Node) : Prop :=
  body.Built (· = Registry.standard) ∧ ∃ t,
    (backend .standard).replaceDraft (draftOf body) .empty = (.ok (), t) ∧
    ((backend .standard).draft ⟨"acme", "account"⟩ t).1
      ≠ .ok (some (wholeSeconds (draftOf body))) ∧
    ((backend .standard).commitDraft ⟨"acme", "account"⟩ t).1
      ≠ .ok { wholeSeconds (draftOf body) with status := .committed }

/-- A body with a text of moderate length is lost if that text does not keep it. -/
theorem acceptedAndLost_of_not_kept {body : Node} (built : body.Built (· = Registry.standard))
    (readable : (Outline.ofNode body).toJson.readable = true)
    (short : (Json.chars (Outline.ofNode body).toJson).length ≤ 200000)
    (changed : ¬((Outline.ofNode body).toJson.nesting ≤ Json.nestingLimit ∧ body.KeptByText)) :
    AcceptedAndLost body := by
  obtain ⟨t, accepted⟩ := accepted_draftOf readable short .standard
  have unread : ¬∀ rule ∈ (draftOf body).rules, rule.ReadBack .standard := by
    intro read
    have own : Rule.ReadBack .standard ⟨"share", "share", "", body⟩ := read _ List.mem_cons_self
    obtain ⟨text, written, -⟩ := own
    exact changed ((Rule.readBack_iff built written).mp (read _ List.mem_cons_self))
  exact ⟨built, t, accepted, (draft_accepted_iff accepted).not.mpr unread,
    (commit_accepted_iff accepted).not.mpr unread⟩

/-! ### Reading what was written -/

/-- **What an accepted draft is read back as.** A draft over bodies built on a registry, once it is
accepted by tables opened with that registry, is read back as it was given, but for the part of its
cooldown below a second, exactly if its texts keep it; committing it gives the same, committed,
exactly then. -/
theorem draft_read_back_iff (r : Registry) {ruleset : Ruleset} {t t' : Tables}
    (built : ∀ rule ∈ ruleset.rules, rule.body.Built (· = r))
    (accepted : (backend r).replaceDraft ruleset t = (.ok (), t')) :
    (((backend r).draft ruleset.key t').1 = .ok (some (wholeSeconds ruleset))
        ↔ ruleset.KeptByText) ∧
      (((backend r).commitDraft ruleset.key t').1
          = .ok { wholeSeconds ruleset with status := .committed }
        ↔ ruleset.KeptByText) := by
  obtain ⟨bodies, given, -, -, -⟩ := writeDraft_eq_ok_iff.mp (transaction_eq_ok_iff.mp accepted)
  have written : ∀ rule ∈ ruleset.rules, ∃ body, bodyText rule = .ok body :=
    exists_mapM_eq_ok_iff.mp ⟨bodies, (draftBodies_eq_ok_iff.mp given).2.2⟩
  have kept : (∀ rule ∈ ruleset.rules, rule.ReadBack r) ↔ ruleset.KeptByText := by
    refine forall₂_congr fun rule mem => ?_
    obtain ⟨body, text⟩ := written rule mem
    exact Rule.readBack_iff (built rule mem) text
  exact ⟨(draft_accepted_iff accepted).trans kept, (commit_accepted_iff accepted).trans kept⟩

/-- A limit of one half comes back as it was. -/
theorem half_read_back : ∃ t,
    (backend .standard).replaceDraft (draftOf (shareBody 0.5)) .empty = (.ok (), t) ∧
    ((backend .standard).draft ⟨"acme", "account"⟩ t).1
      = .ok (some (wholeSeconds (draftOf (shareBody 0.5)))) ∧
    ((backend .standard).commitDraft ⟨"acme", "account"⟩ t).1
      = .ok { wholeSeconds (draftOf (shareBody 0.5)) with status := .committed } := by
  have finite : isFinite 0.5 = true := by decide +kernel
  have number : (Value.float 0.5).KeptByText := by
    unfold Value.KeptByText
    decide +kernel
  have kept : (draftOf (shareBody 0.5)).KeptByText := by
    refine List.forall_mem_singleton.mpr ⟨by decide +kernel, ?_⟩
    exact keptByText_shareBody.mpr number
  have readable : (Outline.ofNode (shareBody 0.5)).toJson.readable = true := by decide +kernel
  obtain ⟨t, accepted⟩ := accepted_draftOf readable (by decide +kernel) .standard
  have built : ∀ rule ∈ (draftOf (shareBody 0.5)).rules, rule.body.Built (· = Registry.standard) :=
    List.forall_mem_singleton.mpr (built_shareBody finite)
  have read := draft_read_back_iff .standard built accepted
  exact ⟨t, accepted, read.1.mpr kept, read.2.mpr kept⟩

/-- A limit of one eleventh comes back as another number, and a chain of negations of the default
depth does not come back. -/
theorem eleventh_not_read_back :
    AcceptedAndLost (shareBody (1 / 11)) ∧ AcceptedAndLost (negations 63) := by
  constructor
  · have finite : isFinite (1 / 11) = true := by decide +kernel
    have number : ¬(Value.float (1 / 11)).KeptByText := by
      unfold Value.KeptByText
      decide +kernel
    exact acceptedAndLost_of_not_kept (built_shareBody finite) (by decide +kernel)
      (by decide +kernel) fun kept => number (keptByText_shareBody.mp kept.2)
  · have built := (built_negations (by decide : 63 < 64)).1
    have short : (Json.chars (Outline.ofNode (negations 63)).toJson).length ≤ 200000 := by
      rw [length_chars_negations]
      decide
    have deep : Json.nestingLimit < (Outline.ofNode (negations 63)).toJson.nesting := by
      rw [nesting_negations]
      decide
    exact acceptedAndLost_of_not_kept built (readable_negations 63) short fun kept =>
      absurd kept.1 (Nat.not_le.mpr deep)

end Tables

end RiskRules
