import RiskRules.Proofs.Acceptance
import RiskRules.Proofs.RulesetInvariants
import RiskRules.Proofs.Versions

/-!
Rulesets described and built. Of a ruleset that was built the definition is the one that it was
built from (`Ruleset.Definition.ofRuleset_of_build`), and a ruleset is built back from its
definition exactly if its thresholds are few and ascend, its cooldown is of whole seconds and the
registry admits its bodies (`Ruleset.Definition.build_ofRuleset_iff`). Requests check the same of
thresholds, so that of a stored ruleset only the cooldown is in question, and it is the one
requested (`Session.requested_run`).
-/

namespace RiskRules

/-! ### Definitions -/

/-- A ruleset that its definition says everything of, and that a registry accepts. -/
structure Ruleset.Definable (r : Registry) (ruleset : Ruleset) : Prop where
  few : ruleset.thresholds.length ≤ 1024
  ascending : ruleset.thresholds.Pairwise (· < ·)
  whole_seconds : ruleset.cooldown.nanos = 0
  admitted : ∀ rule ∈ ruleset.rules, rule.body.Admitted r

/-- A span of whole seconds is that of its seconds. -/
theorem Duration.ofSeconds_seconds_iff {d : Duration} : .ofSeconds d.seconds = d ↔ d.nanos = 0 := by
  obtain ⟨seconds, nanos, nanos_lt⟩ := d
  simp [ofSeconds, eq_comm]

namespace Ruleset.Definition

variable {r : Registry} {d : Ruleset.Definition} {ruleset : Ruleset}

/-- A rule that was built is described by the definition that it was built from. -/
theorem ofRule_of_build {d : Rule.Definition} {rule : Rule} (built : d.build r = .ok rule) :
    Rule.Definition.ofRule rule = d := by
  obtain ⟨decoded, id_eq, name_eq, description_eq⟩ := Rule.Definition.build_eq_ok_iff.mp built
  rw [Rule.Definition.ofRule, Registry.ofNode_of_decode decoded, id_eq, name_eq, description_eq]

/-- A ruleset that was built is described by the definition that it was built from. -/
theorem ofRuleset_of_build (built : d.build r = .ok ruleset) : ofRuleset ruleset = d := by
  obtain ⟨-, rules, rules_built, rfl⟩ := build_eq_ok_iff.mp built
  have rules_eq : rules.map Rule.Definition.ofRule = d.rules := by
    rw [← List.map_id d.rules]
    exact map_eq_of_forall₂ (mapM_eq_ok_iff.mp rules_built) fun _ _ here => ofRule_of_build here
  rw [ofRuleset, rules_eq]
  rfl

/-- A rule is built back exactly by the registries that admit its body. -/
theorem build_ofRule_iff {rule : Rule} (valid : rule.body.Valid) :
    (Rule.Definition.ofRule rule).build r = .ok rule ↔ rule.body.Admitted r := by
  rw [Rule.Definition.build_eq_ok_iff, ← Registry.decode_ofNode_eq_ok_iff valid]
  exact and_iff_left ⟨rfl, rfl, rfl⟩

/-- **What is built back.** A ruleset of valid bodies is built back from its definition exactly if
the registry accepts it and the definition says everything of it. -/
theorem build_ofRuleset_iff (valid : ∀ rule ∈ ruleset.rules, rule.body.Valid) :
    (ofRuleset ruleset).build r = .ok ruleset ↔ ruleset.Definable r := by
  have rules_iff : (ruleset.rules.map Rule.Definition.ofRule).mapM (Rule.Definition.build r)
      = .ok ruleset.rules ↔ ∀ rule ∈ ruleset.rules, rule.body.Admitted r := by
    rw [mapM_eq_ok_iff, List.forall₂_map_left_iff, List.forall₂_same]
    exact forall₂_congr fun rule mem => build_ofRule_iff (valid rule mem)
  obtain ⟨key, version, status, name, thresholds, cooldown, rules⟩ := ruleset
  rw [build_eq_ok_iff]
  constructor
  · rintro ⟨⟨few, ascending⟩, built, rules_built, same⟩
    obtain ⟨-, -, -, -, -, cooldown_eq, rfl⟩ := Ruleset.mk.inj same
    exact ⟨few, ascending, Duration.ofSeconds_seconds_iff.mp cooldown_eq.symm,
      rules_iff.mp rules_built⟩
  · rintro ⟨few, ascending, whole_seconds, admitted⟩
    refine ⟨⟨few, ascending⟩, rules, rules_iff.mpr admitted, ?_⟩
    rw [ofRuleset, Duration.ofSeconds_seconds_iff.mpr whole_seconds]

end Ruleset.Definition

/-! ### Requests -/

namespace Workflow

variable {σ : Type} {b : Backend σ} {w after : World σ} {maxThresholds : Nat}
  {request : RulesetRequest} {committed : Option Ruleset} {ruleset : Ruleset}
  {on : Registry → Prop}

/-- A request that is accepted gives the ruleset that it describes beside the committed one. -/
theorem described_of_create (ran : create b maxThresholds request w = (.ok ruleset, after)) :
    ∃ committed read, World.committed b request.key w = (.ok committed, read) ∧
      request.Acceptable maxThresholds committed read.ids read.drawn ∧
      request.Describes committed read.ids read.drawn ruleset := by
  obtain ⟨_, w₁, checked, rest⟩ := Action.bind_eq_ok_iff.mp ran
  obtain ⟨-, rfl⟩ := Action.ofExcept_eq_ok_iff.mp checked
  obtain ⟨committed, read, given, -⟩ := Action.bind_eq_ok_iff.mp rest
  have given := Action.restate_eq_ok_iff.mp given
  by_cases acceptable : request.Acceptable maxThresholds committed read.ids read.drawn
  · obtain ⟨described, describes, reduced⟩ := create_of_acceptable given acceptable
    have created := ran.symm.trans (reduced _ _ rfl)
    split at created <;> cases created
    exact ⟨committed, read, given, acceptable, describes⟩
  · obtain ⟨reason, refused⟩ := create_of_not_acceptable given acceptable
    rw [ran] at refused
    cases refused

end Workflow

/-- The bodies of a ruleset were built. -/
def Ruleset.BodiesBuilt (on : Registry → Prop) (ruleset : Ruleset) : Prop :=
  ∀ rule ∈ ruleset.rules, rule.body.Built on

/-- The bodies that a request brings were built. -/
def RulesetRequest.BodiesBuilt (on : Registry → Prop) (request : RulesetRequest) : Prop :=
  ∀ rule ∈ request.rules, ∀ body ∈ rule.body, body.Built on

/-- A described ruleset has the bodies of its request and of the committed ruleset. -/
theorem RulesetRequest.Describes.bodiesBuilt {committed : Option Ruleset} {ids : Nat → String}
    {drawn : Nat} {request : RulesetRequest} {ruleset : Ruleset} {on : Registry → Prop}
    (describes : request.Describes committed ids drawn ruleset) (brought : request.BodiesBuilt on)
    (copied : ∀ earlier ∈ committed, earlier.BodiesBuilt on) : ruleset.BodiesBuilt on := by
  intro rule mem
  obtain ⟨requested, requested_mem, described⟩ := exists_of_mem_right describes.rules mem
  have found := described.body
  rw [RuleRequest.body?] at found
  split at found
  · rename_i own
    cases found
    exact brought requested requested_mem _ own
  · obtain ⟨id, -, found⟩ := Option.bind_eq_some_iff.mp found
    obtain ⟨earlier_rule, known, same⟩ := Option.map_eq_some_iff.mp found
    obtain ⟨earlier, earlier_mem, known⟩ := Option.bind_eq_some_iff.mp known
    exact same ▸ copied earlier earlier_mem earlier_rule (List.mem_of_find?_eq_some known)

/-! ### Sessions -/

/-- A store in memory holds a ruleset in the slot of a pair. -/
def Memory.Holds (m : Memory) (key : PairKey) (ruleset : Ruleset) : Prop :=
  Slots.get? key m.drafts = some ruleset ∨ Slots.get? key m.committed = some ruleset

theorem Memory.Holds.of_rulesets {m other : Memory} {key : PairKey} {ruleset : Ruleset}
    (held : m.Holds key ruleset) (same : m.rulesets = other.rulesets) :
    other.Holds key ruleset := by
  obtain ⟨drafts, committed⟩ := Prod.mk.inj same
  rwa [Holds, drafts, committed] at held

namespace Session

variable {c : Settings} {w : World Memory} {requested : RulesetRequest → Prop}
  {on : Registry → Prop} {key : PairKey} {ruleset : Ruleset}

/-- A ruleset has the cooldown of a request for its pair, and bodies that were built. -/
structure Requested (requested : RulesetRequest → Prop) (on : Registry → Prop) (key : PairKey)
    (ruleset : Ruleset) : Prop where
  request : ∃ request, requested request ∧ request.key = key ∧
    request.cooldown = ruleset.cooldown
  bodies : ruleset.BodiesBuilt on

/-- The step: requests add rulesets of their own cooldown, and committing moves a ruleset as it
is. -/
theorem requested_after
    (holds : ∀ key ruleset, w.store.Holds key ruleset → Requested requested on key ruleset)
    {step : Step} (created : ∀ request, step = .create request →
      requested request ∧ request.BodiesBuilt on) :
    ∀ key ruleset, (step.after c w).store.Holds key ruleset →
      Requested requested on key ruleset := by
  intro key ruleset held
  cases step with
  | create request =>
    obtain ⟨requested_here, brought⟩ := created request rfl
    cases ran : Workflow.create Memory.backend c.maxThresholds request w with
    | mk r after =>
      rw [Step.after, ran] at held
      cases r with
      | ok draft =>
        obtain ⟨-, -, -, -, stored⟩ := Workflow.store_of_create ran
        obtain ⟨committed, read, given, -, describes⟩ := Workflow.described_of_create ran
        obtain ⟨rfl, -⟩ := World.eq_of_read given
        have bodies : draft.BodiesBuilt on :=
          describes.bodiesBuilt brought fun earlier found => (holds _ earlier (.inr found)).bodies
        rw [stored, Memory.Holds, Slots.get?_put] at held
        split at held
        · rename_i asked
          rcases held with held | held
          · cases held
            exact ⟨⟨request, requested_here, asked.symm, describes.cooldown.symm⟩, bodies⟩
          · exact holds key ruleset (.inr held)
        · exact holds key ruleset held
      | error e =>
        rw [Workflow.create_atomic ran] at held
        exact holds key ruleset held
  | commit other =>
    cases ran : Workflow.commit Memory.backend other w with
    | mk r after =>
      rw [Step.after, ran] at held
      cases r with
      | ok committed =>
        obtain ⟨draft, found, rfl, stored⟩ := Workflow.store_of_commit ran
        rw [stored, Memory.Holds, Slots.get?_put, Slots.get?_remove] at held
        split at held
        · rename_i asked
          subst asked
          rcases held with held | held
          · cases held
          · cases held
            obtain ⟨request, bodies⟩ := holds _ draft (.inl found)
            exact ⟨request, bodies⟩
        · exact holds key ruleset held
      | error e =>
        rw [Workflow.commit_atomic ran] at held
        exact holds key ruleset held
  | _ => exact holds key ruleset (held.of_rulesets (after_rulesets c w rfl))

/-- The run: every stored ruleset has the cooldown of some request for its pair. -/
theorem requested_run
    (holds : ∀ key ruleset, w.store.Holds key ruleset → Requested requested on key ruleset)
    {steps : List Step} (created : ∀ request, .create request ∈ steps →
      requested request ∧ request.BodiesBuilt on) :
    ∀ key ruleset, (run c steps w).store.Holds key ruleset →
      Requested requested on key ruleset := by
  induction steps generalizing w with
  | nil => exact holds
  | cons step rest ih =>
    refine ih (requested_after holds ?_) fun request mem =>
      created request (List.mem_cons_of_mem _ mem)
    rintro request rfl
    exact created request List.mem_cons_self

end Session

/-! ### Both directions -/

namespace Ruleset

open Definition (ofRuleset)

/-- What an accepted request gave is built back, as a draft or committed, if the cooldown requested
is of whole seconds. -/
theorem build_of_create {σ : Type} {b : Backend σ} {maxThresholds : Nat} {request : RulesetRequest}
    {w after : World σ} {ruleset : Ruleset} {on : Registry → Prop}
    (ran : Workflow.create b maxThresholds request w = (.ok ruleset, after))
    (whole_seconds : request.cooldown.nanos = 0) (bodies : ruleset.BodiesBuilt on)
    (status : RulesetStatus) {r : Registry}
    (admitted : ∀ rule ∈ ruleset.rules, rule.body.Admitted r) :
    (ofRuleset { ruleset with status }).build r = .ok { ruleset with status } := by
  obtain ⟨_, _, -, acceptable, describes⟩ := Workflow.described_of_create ran
  have valid : ∀ rule ∈ ({ ruleset with status } : Ruleset).rules, rule.body.Valid :=
    fun rule mem => (bodies rule mem).valid
  refine (Definition.build_ofRuleset_iff valid).mpr ⟨?_, ?_, ?_, admitted⟩
  · exact describes.thresholds ▸ acceptable.few.trans (Nat.min_le_right _ _)
  · exact describes.thresholds ▸ acceptable.ascending
  · exact describes.cooldown ▸ whole_seconds

/-- **Definitions and rulesets are inverse to each other.** The definition of a ruleset that was
built is the one that it was built from. A ruleset of built bodies is built back from its definition
exactly if it has at most 1024 thresholds and they ascend strictly, its cooldown is of whole seconds
and the registry admits the bodies. This is so of every ruleset that an accepted request for a
cooldown of whole seconds gives, on any store, as a draft or committed; and after any session that
starts with an empty store, every ruleset in it has the cooldown of some request for its pair, and
is built back by every registry that admits its bodies if that is of whole seconds. -/
theorem definitions_and_rulesets_inverse :
    (∀ (r : Registry) (d : Definition) (ruleset : Ruleset),
      d.build r = .ok ruleset → ofRuleset ruleset = d) ∧
    (∀ (r : Registry) (on : Registry → Prop) (ruleset : Ruleset), ruleset.BodiesBuilt on →
      ((ofRuleset ruleset).build r = .ok ruleset ↔ ruleset.Definable r)) ∧
    (∀ (σ : Type) (b : Backend σ) (maxThresholds : Nat) (request : RulesetRequest)
      (w after : World σ) (ruleset : Ruleset) (on : Registry → Prop),
      Workflow.create b maxThresholds request w = (.ok ruleset, after) →
      request.cooldown.nanos = 0 → ruleset.BodiesBuilt on →
      ∀ (status : RulesetStatus) (r : Registry), (∀ rule ∈ ruleset.rules, rule.body.Admitted r) →
        (ofRuleset { ruleset with status }).build r = .ok { ruleset with status }) ∧
    ∀ (c : Session.Settings) (steps : List Session.Step) (w : World Memory) (on : Registry → Prop),
      w.store = .empty → (∀ request, .create request ∈ steps → request.BodiesBuilt on) →
      ∀ key ruleset, (Session.run c steps w).store.Holds key ruleset →
        ruleset.BodiesBuilt on ∧ ∃ request, .create request ∈ steps ∧ request.key = key ∧
          request.cooldown = ruleset.cooldown ∧ (request.cooldown.nanos = 0 →
            ∀ r : Registry, (∀ rule ∈ ruleset.rules, rule.body.Admitted r) →
              (ofRuleset ruleset).build r = .ok ruleset) := by
  refine ⟨fun r d ruleset built => Definition.ofRuleset_of_build built,
    fun r on ruleset bodies => Definition.build_ofRuleset_iff fun rule mem =>
      (bodies rule mem).valid,
    fun σ b maxThresholds request w after ruleset on ran whole_seconds bodies status r admitted =>
      build_of_create ran whole_seconds bodies status admitted,
    fun c steps w on started brought key ruleset held => ?_⟩
  have versioned := Session.versioned_run (started ▸ Memory.versioned_empty) (c := c) steps
  have sound : ruleset.Sound c.maxThresholds := by
    rcases held with drafted | committed
    · exact (versioned.draft key ruleset drafted).2.2.2
    · exact (versioned.committed key ruleset committed).2.2.2
  have nothing_held : ∀ key ruleset, w.store.Holds key ruleset →
      Session.Requested (fun request => .create request ∈ steps) on key ruleset := by
    rw [started]
    rintro _ _ (held | held) <;> cases held
  obtain ⟨⟨request, made, key_eq, cooldown_eq⟩, bodies⟩ := Session.requested_run nothing_held
    (fun request mem => ⟨mem, brought request mem⟩) key ruleset held
  refine ⟨bodies, request, made, key_eq, cooldown_eq, fun whole_seconds r admitted => ?_⟩
  refine (Definition.build_ofRuleset_iff fun rule mem => (bodies rule mem).valid).mpr
    ⟨sound.few.trans (Nat.min_le_right _ _), sound.ascending, ?_, admitted⟩
  rw [← cooldown_eq]
  exact whole_seconds

/-- A ruleset is requested and committed. -/
def sampleSteps : List Session.Step :=
  [.create Session.Sample.request, .commit Session.Sample.pair]

/-- What the request gives. -/
def sampleDraft : Ruleset :=
  ⟨Session.Sample.pair, 1, .draft, "first", [0, 10], .ofSeconds 0,
    [⟨"id-0", "large", "", Session.Sample.body⟩]⟩

/-- A ruleset of one rule is built from its definition; another is requested for a cooldown of no
seconds and then committed in a session, and is built back as a draft and committed. -/
theorem definitions_and_rulesets_inverse_of_sample :
    (∃ ruleset, (sampleDefinition 1 1).build .standard = .ok ruleset ∧
      ofRuleset ruleset = sampleDefinition 1 1) ∧
    (∃ after, Workflow.create Memory.backend 32 Session.Sample.request Session.Sample.world
        = (.ok sampleDraft, after)) ∧
    (ofRuleset sampleDraft).build .standard = .ok sampleDraft ∧
    (Session.run Session.Sample.settings sampleSteps Session.Sample.world).store.Holds
      Session.Sample.pair { sampleDraft with status := .committed } ∧
    (ofRuleset { sampleDraft with status := .committed }).build .standard
      = .ok { sampleDraft with status := .committed } := by
  obtain ⟨described, -, requested, stored⟩ := definitions_and_rulesets_inverse
  have body : Session.Sample.body.Built (· = .standard) := by
    have condition := @Node.Built.constant (· = .standard) .standard (.bool true) _ rfl rfl
    have modifier := @Node.Built.constant (· = .standard) .standard (.int 20) _ rfl rfl
    exact @Node.Built.call (· = .standard) .standard .scoreComputation
      [("condition", _), ("modifier", _)] _ rfl
      (List.forall_mem_cons.mpr ⟨condition, List.forall_mem_singleton.mpr modifier⟩) rfl
  have bodies : sampleDraft.BodiesBuilt (· = .standard) := List.forall_mem_singleton.mpr body
  have admitted : ∀ rule ∈ sampleDraft.rules, rule.body.Admitted .standard :=
    List.forall_mem_singleton.mpr body.admitted
  have only {request : RulesetRequest} (made : .create request ∈ sampleSteps) :
      request = Session.Sample.request := by simpa [sampleSteps] using made
  have brought : ∀ request, .create request ∈ sampleSteps →
      request.BodiesBuilt (· = .standard) := by
    intro request made
    obtain rfl := only made
    refine List.forall_mem_singleton.mpr fun given own => ?_
    cases own
    exact body
  obtain ⟨built, built_eq⟩ : ∃ ruleset, (sampleDefinition 1 1).build .standard = .ok ruleset :=
    ⟨_, rfl⟩
  have committed : (Session.run Session.Sample.settings sampleSteps
      Session.Sample.world).store.Holds Session.Sample.pair
        { sampleDraft with status := .committed } := .inr rfl
  obtain ⟨-, request, made, -, -, built_back⟩ :=
    stored _ _ Session.Sample.world _ rfl brought _ _ committed
  obtain rfl := only made
  refine ⟨⟨built, built_eq, described _ _ _ built_eq⟩, ⟨_, rfl⟩, ?_, committed,
    built_back rfl _ admitted⟩
  exact requested _ Memory.backend 32 Session.Sample.request Session.Sample.world _ sampleDraft _
    rfl rfl bodies .draft _ admitted

end Ruleset

end RiskRules
