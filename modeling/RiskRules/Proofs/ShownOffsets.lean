import RiskRules.Proofs.Decoding
import RiskRules.Proofs.JsonFacts
import RiskRules.Proofs.Outcomes
import RiskRules.Proofs.RulesetInvariants
import RiskRules.Proofs.Scenario
import RiskRules.Proofs.Scoring
import RiskRules.Proofs.TimestampArithmetic
import RiskRules.Proofs.Timestamps
import RiskRules.Ruleset.Document
import RiskRules.Scenario.Document

/-!
Offsets in documents and evaluations. Documents show the offsets of timestamps in whole minutes and
below a day, so that the values, trees and definitions that are read from documents have no other
offsets in them (`Value.shown_of_ofJson?`, `Outline.shown_of_ofJson?`), and facts from JSON have no
timestamps at all. An evaluation adds none, since a timestamp is moved without changing its offset
(`Evaluator.shown_of_evaluate`), and neither does the run of a scenario or the scoring by a ruleset
(`Scenario.shown_of_run`, `Scoring.shown_of_execute`).
-/

namespace RiskRules

/-! ### Taking documents apart -/

namespace Json

variable {α β : Type}

/-- What a list is read as was read from its items. -/
theorem exists_of_mem_mapM {f : α → Option β} {items : List α} {values : List β}
    (read : items.mapM f = some values) {value : β} (mem : value ∈ values) :
    ∃ item ∈ items, f item = some value := by
  induction items generalizing values with
  | nil =>
    cases read
    cases mem
  | cons item rest ih =>
    simp only [List.mapM_cons, Option.bind_eq_bind, Option.bind_eq_some_iff, Option.pure_def,
      Option.some.injEq] at read
    obtain ⟨first, here, others, later, rfl⟩ := read
    obtain rfl | mem := List.mem_cons.mp mem
    · exact ⟨item, List.mem_cons_self, here⟩
    · obtain ⟨other, other_mem, there⟩ := ih later mem
      exact ⟨other, List.mem_cons_of_mem item other_mem, there⟩

theorem exists_of_toList? {item : Json → Option α} {j : Json} {values : List α}
    (read : j.toList? item = some values) {value : α} (mem : value ∈ values) :
    ∃ part, item part = some value := by
  cases j with
  | array items =>
    obtain ⟨part, -, here⟩ := exists_of_mem_mapM read mem
    exact ⟨part, here⟩
  | _ => cases read

theorem eq_some_of_toOption? {value : Json → Option α} {j : Json} {a : α}
    (read : j.toOption? value = some (some a)) : value j = some a := by
  cases j with
  | null => cases read
  | _ =>
    obtain ⟨b, here, same⟩ := Option.map_eq_some_iff.mp read
    cases same
    exact here

namespace Fields

variable {f : Fields β} {name : String} {value : β → Option α} {a otherwise : α}

theorem mem_of_ofMembers? {names : List String} {strict : Bool} {members : List (String × β)}
    (read : ofMembers? names strict members = some f) : ∀ entry ∈ f.entries, entry ∈ members := by
  simp only [ofMembers?] at read
  split_ifs at read
  cases read
  exact fun entry mem => List.mem_of_mem_filter mem

theorem mem_of_ofItems? {names : List String} {items : List β}
    (read : ofItems? names items = some f) : ∀ entry ∈ f.entries, entry.2 ∈ items := by
  rw [ofItems?] at read
  split_ifs at read
  cases read
  exact fun entry mem => (List.of_mem_zip mem).2

theorem exists_of_required (read : f.required name value = some a) :
    ∃ entry ∈ f.entries, value entry.2 = some a := by
  obtain ⟨part, given, here⟩ := Option.bind_eq_some_iff.mp read
  exact ⟨_, Keyed.mem_of_get? given, here⟩

theorem exists_of_default (read : f.default name otherwise value = some a) :
    a = otherwise ∨ ∃ entry ∈ f.entries, value entry.2 = some a := by
  rw [default] at read
  split at read
  · cases read
    exact .inl rfl
  · rename_i part given
    exact .inr ⟨_, Keyed.mem_of_get? given, read⟩

theorem exists_of_optional (read : f.optional name otherwise value = some a) :
    a = otherwise ∨ ∃ entry ∈ f.entries, value entry.2 = some a := by
  rw [optional] at read
  split at read
  · split at read <;> cases read
    exact .inl rfl
  · rename_i part given
    exact .inr ⟨_, Keyed.mem_of_get? given, read⟩

end Fields

end Json

/-! ### Values -/

namespace Value

variable {v : Value}

/-- Texts show the offsets of all timestamps in the value. -/
def Shown (v : Value) : Prop :=
  ∀ t, (Value.timestamp t).Within v → Rfc3339.ShownOffset t.offset

theorem shown_timestamp_iff {t : Timestamp} :
    (timestamp t).Shown ↔ Rfc3339.ShownOffset t.offset := by
  refine ⟨fun shown => shown t .self, fun shown u within => ?_⟩
  cases within
  exact shown

/-- A value of any other kind has no timestamp in it. -/
theorem shown_of_kind (other : v.kind ≠ .timestamp ∧ v.kind ≠ .list) : v.Shown := by
  intro t within
  cases within with
  | self => exact absurd rfl other.1
  | item => exact absurd rfl other.2

theorem shown_list_iff {items : List Value} :
    (list items).Shown ↔ ∀ item ∈ items, item.Shown := by
  constructor
  · exact fun shown item mem t within => shown t (.item mem within)
  · intro each t within
    obtain same | ⟨item, mem, within⟩ := within_list_iff.mp within
    · cases same
    · exact each item mem t within

theorem shown_of_ofContent? {kind : Kind} {content : Json}
    (read : ofContent? kind content = some v) : v.Shown := by
  cases kind with
  | timestamp =>
    obtain ⟨t, t_read, rfl⟩ := Option.map_eq_some_iff.mp read
    cases content with
    | string text =>
      rw [Timestamp.ofJson?] at t_read
      cases parsed : Rfc3339.parse text with
      | error e => simp [parsed, Except.toOption] at t_read
      | ok u =>
        obtain rfl : u = t := by simpa [parsed, Except.toOption] using t_read
        exact shown_timestamp_iff.mpr (Rfc3339.shownOffset_of_parse parsed)
    | _ => cases t_read
  | null =>
    cases content <;> cases read
    exact shown_of_kind (by simp [kind])
  | list => cases read
  | bool | int | float | string | score =>
    obtain ⟨_, -, rfl⟩ := Option.map_eq_some_iff.mp read
    exact shown_of_kind (by simp [kind])

/-- All that a JSON value reads as is shown. -/
structure Reading.Shown (r : Reading) : Prop where
  value : ∀ v ∈ r.value, v.Shown
  items : ∀ items ∈ r.items, ∀ item ∈ items, item.Shown

theorem shown_of_ofTyped? {type content : Reading} (shown : content.Shown)
    (read : ofTyped? type content = some v) : v.Shown := by
  obtain ⟨kind, -, read⟩ := Option.bind_eq_some_iff.mp read
  split at read
  · obtain ⟨items, given, rfl⟩ := Option.map_eq_some_iff.mp read
    exact shown_list_iff.mpr (shown.items items given)
  · exact shown_of_ofContent? read

theorem shown_of_ofType? {type : Reading} (read : ofType? type = some v) : v.Shown := by
  obtain ⟨kind, -, read⟩ := Option.bind_eq_some_iff.mp read
  split at read <;> cases read
  exact shown_of_kind (by simp [kind])

theorem shown_of_ofTypedMembers? {members : List (String × Reading)}
    (each : ∀ member ∈ members, member.2.Shown) (read : ofTypedMembers? members = some v) :
    v.Shown := by
  rw [ofTypedMembers?] at read
  have kept : ∀ member ∈ members.filter fun member => member.1 == "type" || member.1 == "value",
      member.2.Shown := fun member mem => each member (List.mem_of_mem_filter mem)
  split at read
  · split at read
    · exact shown_of_ofType? read
    · cases read
  · rename_i first a second b two
    rw [two] at kept
    have a_shown : a.Shown := kept (first, a) (by simp)
    have b_shown : b.Shown := kept (second, b) (by simp)
    split_ifs at read
    · exact shown_of_ofTyped? b_shown read
    · exact shown_of_ofTyped? a_shown read
  · cases read

theorem shown_of_ofTypedItems? {items : List Reading} (each : ∀ item ∈ items, item.Shown)
    (read : ofTypedItems? items = some v) : v.Shown := by
  rw [ofTypedItems?.eq_def] at read
  split at read
  · exact shown_of_ofTyped? (each _ (by simp)) read
  · cases read

mutual

theorem shown_reading : ∀ j : Json, (reading j).Shown
  | .array items => by
    have each := shown_readingItems items
    rw [reading]
    refine ⟨fun v read => shown_of_ofTypedItems? each read, fun values read v mem => ?_⟩
    obtain ⟨item, item_mem, here⟩ := Json.exists_of_mem_mapM read mem
    exact (each item item_mem).value v here
  | .object members => by
    rw [reading]
    exact ⟨fun v read => shown_of_ofTypedMembers? (shown_readingMembers members) read, nofun⟩
  | .null | .bool _ | .int _ | .float _ | .string _ | .unreadable _ => ⟨nofun, nofun⟩

theorem shown_readingItems : ∀ items : List Json, ∀ item ∈ readingItems items, item.Shown
  | [] => nofun
  | item :: rest => List.forall_mem_cons.mpr ⟨shown_reading item, shown_readingItems rest⟩

theorem shown_readingMembers : ∀ members : List (String × Json),
    ∀ member ∈ readingMembers members, member.2.Shown
  | [] => nofun
  | (_, value) :: rest => List.forall_mem_cons.mpr ⟨shown_reading value, shown_readingMembers rest⟩

end

/-- A value that is read from a document is shown. -/
theorem shown_of_ofJson? {j : Json} (read : ofJson? j = some v) : v.Shown :=
  (shown_reading j).value v read

/-- A value of the same shape as a document has no timestamp in it. -/
theorem shown_of_ofPlain : ∀ {j : Json} {v : Value}, ofPlain j = .ok v → v.Shown
  | .array items, _, taken => by
    rw [ofPlain, ofPlainItems_eq_mapM, bind_eq_ok_iff] at taken
    obtain ⟨values, all, taken⟩ := taken
    cases taken
    refine shown_list_iff.mpr fun value mem => ?_
    obtain ⟨item, item_mem, here⟩ := exists_of_mem_right (mapM_eq_ok_iff.mp all) mem
    have smaller := List.sizeOf_lt_of_mem item_mem
    exact shown_of_ofPlain here
  | .int _, _, taken => by
    cases taken
    split <;> exact shown_of_kind (by simp [kind])
  | .null, _, rfl | .bool _, _, rfl | .float _, _, rfl | .string _, _, rfl =>
    shown_of_kind (by simp [kind])
termination_by j => sizeOf j

end Value

/-! ### Trees -/

namespace Outline

variable {tag : String} {literal : Option Value} {children : List Outline}
  {named : List (String × Outline)} {o : Outline}

/-- Texts show the offsets of all timestamps in the constants of the outline. -/
def Shown (o : Outline) : Prop :=
  ∀ part ∈ o.parts, ∀ v ∈ part.literal, v.Shown

theorem shown_mk_iff : Shown ⟨tag, literal, children, named⟩ ↔ (∀ v ∈ literal, v.Shown) ∧
    (∀ child ∈ children, child.Shown) ∧ ∀ entry ∈ named, entry.2.Shown :=
  forall_mem_parts

/-- All that a JSON value reads as is shown. -/
structure Reading.Shown (r : Reading) : Prop where
  node : ∀ o ∈ r.node, o.Shown
  items : ∀ items ∈ r.items, ∀ item ∈ items, item.Shown
  named : ∀ entries ∈ r.named, ∀ entry ∈ entries, entry.2.Shown

theorem shown_of_ofFields? {f : Json.Fields Reading} (each : ∀ entry ∈ f.entries, entry.2.Shown)
    (read : ofFields? f = some o) : o.Shown := by
  simp only [ofFields?, Option.bind_eq_bind, Option.bind_eq_some_iff, Option.pure_def,
    Option.some.injEq] at read
  obtain ⟨tag, -, literal, literal_read, children, children_read, named, named_read, rfl⟩ := read
  refine shown_mk_iff.mpr ⟨?_, ?_, ?_⟩
  · rcases Json.Fields.exists_of_default literal_read with rfl | ⟨entry, mem, here⟩
    · exact nofun
    · rintro v rfl
      exact Value.shown_of_ofJson? (Json.eq_some_of_toOption? here)
  · rcases Json.Fields.exists_of_default children_read with rfl | ⟨entry, mem, here⟩
    · exact nofun
    · exact (each entry mem).items children here
  · rcases Json.Fields.exists_of_default named_read with rfl | ⟨entry, mem, here⟩
    · exact nofun
    · exact (each entry mem).named named here

mutual

theorem shown_reading : ∀ j : Json, (reading j).Shown
  | .array items => by
    have each := shown_readingItems items
    rw [reading]
    refine ⟨fun o read => ?_, fun values read o mem => ?_, nofun⟩
    · obtain ⟨f, f_read, read⟩ := Option.bind_eq_some_iff.mp read
      exact shown_of_ofFields?
        (fun entry mem => each entry.2 (Json.Fields.mem_of_ofItems? f_read entry mem)) read
    · obtain ⟨item, item_mem, here⟩ := Json.exists_of_mem_mapM read mem
      exact (each item item_mem).node o here
  | .object members => by
    have each := shown_readingMembers members
    rw [reading]
    refine ⟨fun o read => ?_, nofun, fun entries read entry mem => ?_⟩
    · obtain ⟨f, f_read, read⟩ := Option.bind_eq_some_iff.mp read
      exact shown_of_ofFields?
        (fun entry mem => each entry (Json.Fields.mem_of_ofMembers? f_read entry mem)) read
    · obtain ⟨given, given_read, rfl⟩ := Option.map_eq_some_iff.mp read
      obtain ⟨member, member_mem, here⟩ :=
        Json.exists_of_mem_mapM given_read (Keyed.mem_of_mem_ofList mem)
      obtain ⟨o, o_read, rfl⟩ := Option.map_eq_some_iff.mp here
      exact (each member member_mem).node o o_read
  | .null | .bool _ | .int _ | .float _ | .string _ | .unreadable _ => ⟨nofun, nofun, nofun⟩

theorem shown_readingItems : ∀ items : List Json, ∀ item ∈ readingItems items, item.Shown
  | [] => nofun
  | item :: rest => List.forall_mem_cons.mpr ⟨shown_reading item, shown_readingItems rest⟩

theorem shown_readingMembers : ∀ members : List (String × Json),
    ∀ member ∈ readingMembers members, member.2.Shown
  | [] => nofun
  | (_, value) :: rest => List.forall_mem_cons.mpr ⟨shown_reading value, shown_readingMembers rest⟩

end

/-- An outline that is read from a document is shown. -/
theorem shown_of_ofJson? {j : Json} (read : ofJson? j = some o) : o.Shown :=
  (shown_reading j).node o read

end Outline

namespace Node

/-- Texts show the offsets of all timestamps in the constants of the tree. -/
def Shown (node : Node) : Prop :=
  ∀ n ∈ node.walk, ∀ v ∈ n.literal, v.Shown

/-- A tree that is decoded from a shown outline is shown. -/
theorem shown_of_decode {r : Registry} {outline : Outline} {node : Node} (shown : outline.Shown)
    (read : r.decode outline = .ok node) : node.Shown := by
  obtain rfl := Registry.ofNode_of_decode read
  intro n mem v given
  have part : Outline.ofNode n ∈ (Outline.ofNode node).parts := by
    rw [Outline.parts_ofNode]
    exact List.mem_map_of_mem mem
  have literal : (Outline.ofNode n).literal = n.literal := by
    obtain ⟨func, literal, children, named, depth⟩ := n
    rfl
  exact shown _ part v (literal ▸ given)

end Node

/-! ### Definitions -/

theorem Rule.Definition.shown_of_ofJson? {j : Json} {d : Rule.Definition}
    (read : ofJson? j = some d) : d.body.Shown := by
  simp only [ofJson?, Option.bind_eq_bind, Option.bind_eq_some_iff, Option.pure_def,
    Option.some.injEq] at read
  obtain ⟨f, -, _, -, _, -, _, -, body, body_read, rfl⟩ := read
  obtain ⟨entry, -, here⟩ := Json.Fields.exists_of_required body_read
  exact Outline.shown_of_ofJson? here

theorem Ruleset.Definition.shown_of_ofJson? {j : Json} {d : Ruleset.Definition}
    (read : ofJson? j = some d) : ∀ rule ∈ d.rules, rule.body.Shown := by
  simp only [ofJson?, Option.bind_eq_bind, Option.bind_eq_some_iff, Option.pure_def,
    Option.some.injEq] at read
  obtain ⟨f, -, _, -, _, -, _, -, _, -, _, -, _, -, _, -, rules, rules_read, rfl⟩ := read
  intro rule mem
  rcases Json.Fields.exists_of_default rules_read with rfl | ⟨entry, -, here⟩
  · cases mem
  · obtain ⟨part, there⟩ := Json.exists_of_toList? here mem
    exact Rule.Definition.shown_of_ofJson? there

theorem Ruleset.Definition.shown_of_build {r : Registry} {d : Ruleset.Definition}
    {ruleset : Ruleset} (shown : ∀ rule ∈ d.rules, rule.body.Shown)
    (built : d.build r = .ok ruleset) : ∀ rule ∈ ruleset.rules, rule.body.Shown := by
  obtain ⟨-, rules, rules_built, rfl⟩ := build_eq_ok_iff.mp built
  intro rule mem
  obtain ⟨described, described_mem, here⟩ := exists_of_mem_right (mapM_eq_ok_iff.mp rules_built) mem
  obtain ⟨decoded, -⟩ := Rule.Definition.build_eq_ok_iff.mp here
  exact Node.shown_of_decode (shown described described_mem) decoded

namespace Scenario

/-- The trigger and the formulas of a version are shown. -/
structure Iteration.Definition.Shown (d : Iteration.Definition) : Prop where
  trigger : d.trigger.Shown
  rules : ∀ rule ∈ d.rules, rule.formula.Shown

/-- The trigger and the formulas of a version are shown. -/
structure Iteration.Shown (iteration : Iteration) : Prop where
  trigger : iteration.trigger.Shown
  rules : ∀ rule ∈ iteration.rules, rule.formula.Shown

theorem Rule.Definition.shown_of_ofJson? {j : Json} {d : Rule.Definition}
    (read : ofJson? j = some d) : d.formula.Shown := by
  simp only [ofJson?, Option.bind_eq_bind, Option.bind_eq_some_iff, Option.pure_def,
    Option.some.injEq] at read
  obtain ⟨f, -, _, -, _, -, _, -, formula, formula_read, _, -, rfl⟩ := read
  obtain ⟨entry, -, here⟩ := Json.Fields.exists_of_required formula_read
  exact Outline.shown_of_ofJson? here

theorem Iteration.Definition.shown_of_ofJson? {j : Json} {d : Iteration.Definition}
    (read : ofJson? j = some d) : d.Shown := by
  simp only [ofJson?, Option.bind_eq_bind, Option.bind_eq_some_iff, Option.pure_def,
    Option.some.injEq] at read
  obtain ⟨f, -, _, -, _, -, _, -, trigger, trigger_read, rules, rules_read, _, -, _, -, rfl⟩ := read
  constructor
  · obtain ⟨entry, -, here⟩ := Json.Fields.exists_of_required trigger_read
    exact Outline.shown_of_ofJson? here
  · intro rule mem
    rcases Json.Fields.exists_of_default rules_read with rfl | ⟨entry, -, here⟩
    · cases mem
    · obtain ⟨part, there⟩ := Json.exists_of_toList? here mem
      exact Rule.Definition.shown_of_ofJson? there

theorem Definition.shown_of_ofJson? {j : Json} {d : Definition} (read : ofJson? j = some d) :
    ∀ iteration ∈ d.live, iteration.Shown := by
  simp only [ofJson?, Option.bind_eq_bind, Option.bind_eq_some_iff, Option.pure_def,
    Option.some.injEq] at read
  obtain ⟨f, -, _, -, _, -, _, -, live, live_read, rfl⟩ := read
  rintro iteration rfl
  rcases Json.Fields.exists_of_default live_read with none | ⟨entry, -, here⟩
  · cases none
  · exact Iteration.Definition.shown_of_ofJson? (Json.eq_some_of_toOption? here)

theorem shown_of_decodeIn {r : Registry} {place : TreePlace} {outline : Outline} {node : Node}
    (shown : outline.Shown) (read : r.decodeIn place outline = .ok node) : node.Shown := by
  rw [Registry.decodeIn] at read
  split at read <;> cases read
  exact Node.shown_of_decode shown ‹_›

theorem Rule.Definition.shown_of_build {r : Registry} {d : Rule.Definition} {rule : Rule}
    (shown : d.formula.Shown) (built : d.build r = .ok rule) : rule.formula.Shown := by
  rw [build] at built
  split at built <;> cases built
  exact shown_of_decodeIn shown ‹_›

theorem Iteration.Definition.shown_of_build {r : Registry} {d : Iteration.Definition}
    {iteration : Iteration} (shown : d.Shown) (built : d.build r = .ok iteration) :
    iteration.Shown := by
  rw [build] at built
  split at built
  · obtain ⟨thresholds, -, built⟩ := bind_eq_ok_iff.mp built
    obtain ⟨trigger, trigger_built, built⟩ := bind_eq_ok_iff.mp built
    obtain ⟨rules, rules_built, built⟩ := bind_eq_ok_iff.mp built
    cases built
    refine ⟨shown_of_decodeIn shown.trigger trigger_built, fun rule mem => ?_⟩
    obtain ⟨described, described_mem, here⟩ :=
      exists_of_mem_right (mapM_eq_ok_iff.mp rules_built) mem
    exact Rule.Definition.shown_of_build (shown.rules described described_mem) here
  · cases built

theorem Definition.shown_of_build {r : Registry} {d : Definition} {scenario : Scenario}
    (shown : ∀ iteration ∈ d.live, iteration.Shown) (built : d.build r = .ok scenario) :
    ∀ iteration ∈ scenario.live, iteration.Shown := by
  rw [build] at built
  split at built
  · cases built
    exact nofun
  · rename_i described live
    split at built <;> cases built
    rintro _ ⟨⟩
    exact Iteration.Definition.shown_of_build (shown described live) ‹_›

end Scenario

/-! ### Facts -/

/-- Texts show the offsets of all timestamps that lookups are answered with. -/
def Environment.Shown (env : Environment) : Prop :=
  ∀ v, env.Answers v → v.Shown

namespace Facts

variable {facts known : Facts} {j : Json}

theorem shown_of_ofPayload (made : ofPayload j = .ok facts) : facts.toEnvironment.Shown := by
  cases j with
  | object members =>
    have knows := knowsPayload_of_ofPayload made
    intro v looked_up
    cases looked_up with
    | @payloadField name v found =>
      cases stands : Json.lastUnder? name members with
      | none => cases (knows.absent name stands).symm.trans found
      | some value =>
        obtain ⟨w, taken, given⟩ := knows.given name value stands
        cases given.symm.trans found
        exact Value.shown_of_ofPlain taken
    | listItems found => cases (knows.lists _).symm.trans found
    | relatedField found => cases (knows.related _ _ _).symm.trans found
    | variableValue found => cases (knows.values _).symm.trans found
  | _ => cases made

theorem shown_of_addLists (shown : known.toEnvironment.Shown)
    (added : known.addLists j = .ok facts) : facts.toEnvironment.Shown := by
  cases j with
  | object members =>
    have knows := knowsLists_of_addLists added
    intro v looked_up
    cases looked_up with
    | @listItems name items found =>
      cases stands : Json.lastUnder? name members with
      | none =>
        rw [knows.others name stands] at found
        exact shown _ (.listItems found)
      | some value =>
        obtain ⟨values, taken, given⟩ := knows.given name value stands
        cases given.symm.trans found
        exact Value.shown_of_ofPlain taken
    | payloadField found =>
      rw [knows.payload] at found
      exact shown _ (.payloadField found)
    | relatedField found =>
      rw [knows.related] at found
      exact shown _ (.relatedField found)
    | variableValue found =>
      rw [knows.values] at found
      exact shown _ (.variableValue found)
  | _ => cases added

end Facts

/-! ### Evaluations -/

namespace Evaluator

variable {r : Registry} {env : Environment} {literal : Option Value} {a : Arguments} {v : Value}

theorem shown_of_makes (literal_shown : ∀ v ∈ literal, v.Shown)
    (named_shown : ∀ entry ∈ a.named, ∀ v ∈ entry.2.value, v.Shown) (made : Makes literal a v) :
    v.Shown := by
  cases made with
  | literal given => exact literal_shown v given
  | bool | int | float | string | score => exact Value.shown_of_kind (by simp [Value.kind])
  | read shows => exact Value.shown_timestamp_iff.mpr (Rfc3339.shownOffset_of_parse shows)
  | @moved t moved seconds given added =>
    obtain ⟨func, children, named⟩ := a
    obtain ⟨record, found, came_to⟩ := Arguments.timestamp_eq_ok_iff.mp given
    obtain given | null := record.mem_value_of_outcome came_to
    · have t_shown := named_shown _ (Keyed.mem_of_get? found) (.timestamp t) given
      rw [Value.shown_timestamp_iff] at t_shown ⊢
      rwa [(Timestamp.addSeconds?_eq_some_iff.mp added).2]
    · cases null

end Evaluator

/-- Texts show the offsets of all timestamps in the values of a record and of the records in it. -/
def Evaluation.Shown (e : Evaluation) : Prop :=
  ∀ record ∈ e.records, ∀ v ∈ record.value, v.Shown

/-- Where constants and lookups are shown, so are all values in an evaluation. -/
theorem Evaluator.shown_of_evaluate {r : Registry} {env : Environment} {node : Node}
    {e : Evaluation} (node_shown : node.Shown) (env_shown : env.Shown)
    (evaluated : evaluate r env node = .ok e) : e.Shown := by
  refine forall_records_of_evaluateAt_of_nodes evaluated (fun func => nofun) ?_
  intro n mem cs ns outcome _ _ _ named_shown applied
  cases outcome with
  | error error => exact nofun
  | ok v =>
    rintro _ ⟨⟩
    rcases makes_or_answers_of_apply applied with made | looked_up
    · exact shown_of_makes (node_shown n mem) named_shown made
    · exact env_shown v looked_up

theorem Scoring.shown_of_execute {r : Registry} {env : Environment} {ruleset : Ruleset}
    {record : ScoringRecord} (shown : ∀ rule ∈ ruleset.rules, rule.body.Shown)
    (env_shown : env.Shown) (executed : execute r env ruleset = .ok record) :
    ∀ entry ∈ record.rules, entry.evaluation.Shown := by
  intro entry mem
  obtain ⟨rule, rule_mem, here⟩ := exists_of_mem_right (execute_eq_ok_iff.mp executed).1 mem
  exact Evaluator.shown_of_evaluate (shown rule rule_mem) env_shown here.evaluated

namespace Scenario

theorem shown_of_run {r : Registry} {env : Environment} {objectType : String} {scenario : Scenario}
    {record : Record} (shown : ∀ iteration ∈ scenario.live, iteration.Shown)
    (env_shown : env.Shown) (ran : run r env objectType scenario = .ok record) :
    record.trigger.Shown ∧ ∀ entry ∈ record.rules, entry.evaluation.Shown := by
  obtain ⟨iteration, passes, recorded⟩ := run_eq_ok_iff.mp ran
  obtain ⟨trigger_shown, rules_shown⟩ := shown iteration passes.live
  refine ⟨Evaluator.shown_of_evaluate trigger_shown env_shown passes.matched.evaluated, ?_⟩
  intro entry mem
  obtain ⟨rule, rule_mem, here⟩ := exists_of_mem_right recorded.entries mem
  exact Evaluator.shown_of_evaluate (rules_shown rule rule_mem) env_shown here.evaluated

end Scenario

end RiskRules
