import RiskRules.Proofs.Decoding
import RiskRules.Proofs.Session
import RiskRules.Proofs.StoredRulesets

/-!
Which requests for rulesets are accepted. What a request asks for is said without the store
(`RulesetRequest.Acceptable`), and so is the ruleset that it describes (`RulesetRequest.Describes`):
both depend on the request, on the committed ruleset and on the ids to be drawn. On any store an
acceptable request comes down to writing the ruleset that it describes
(`Workflow.create_of_acceptable`), and any other is refused as wrong
(`Workflow.create_of_not_acceptable`). The store in memory writes every draft, the tables those that
can be put into rows (`Workflow.create_decided`).
-/

namespace RiskRules

/-! ### Acceptable requests -/

namespace RuleRequest

/-- The body of a requested rule: its own, or that of the committed rule of its id. -/
def body? (committed : Option Ruleset) (request : RuleRequest) : Option Node :=
  match request.body with
  | some body => some body
  | none => request.stableId.bind fun id => (committed.bind (·.rule? id)).map Rule.body

/-- How many ids a requested rule draws. -/
def draws (request : RuleRequest) : Nat :=
  if request.stableId.isNone then 1 else 0

/-- The ids of requested rules: the one that a rule names, or else the next one to be drawn. -/
def stableIds (ids : Nat → String) (drawn : Nat) : List RuleRequest → List String
  | [] => []
  | request :: rest =>
    request.stableId.getD (ids drawn) :: stableIds ids (drawn + request.draws) rest

/-- A rule is what was requested, but for its id. -/
structure Describes (committed : Option Ruleset) (request : RuleRequest) (rule : Rule) : Prop where
  name : rule.name = request.name
  description : rule.description = request.description
  body : request.body? committed = some rule.body

end RuleRequest

open RuleRequest (stableIds)

namespace RulesetRequest

/-- What a request must be, beside a committed ruleset and with the ids that are drawn for it. -/
structure Acceptable (maxThresholds : Nat) (committed : Option Ruleset) (ids : Nat → String)
    (drawn : Nat) (request : RulesetRequest) : Prop where
  few : request.thresholds.length ≤ min maxThresholds 1024
  ascending : request.thresholds.Pairwise (· < ·)
  room : ∀ ruleset ∈ committed, ruleset.version.toNat < 0xFFFFFFFF
  bodies : ∀ rule ∈ request.rules, rule.body.isSome ∨ ∃ id ∈ rule.stableId, ∃ ruleset ∈ committed,
    id ∈ ruleset.rules.map Rule.stableId
  shaped : ∀ rule ∈ request.rules, ∀ body, rule.body? committed = some body →
    Ruleset.checkShape body = .ok ()
  distinct : (stableIds ids drawn request.rules).Nodup

/-- The version after the committed one. -/
def versionAfter : Option Ruleset → Nat
  | none => 1
  | some committed => committed.version.toNat + 1

/-- A ruleset is the draft that was requested. -/
structure Describes (committed : Option Ruleset) (ids : Nat → String) (drawn : Nat)
    (request : RulesetRequest) (ruleset : Ruleset) : Prop where
  key : ruleset.key = request.key
  version : ruleset.version.toNat = versionAfter committed
  status : ruleset.status = .draft
  name : ruleset.name = request.name
  thresholds : ruleset.thresholds = request.thresholds
  cooldown : ruleset.cooldown = request.cooldown
  stableIds : ruleset.rules.map Rule.stableId = stableIds ids drawn request.rules
  rules : List.Forall₂ (RuleRequest.Describes committed) request.rules ruleset.rules

/-- What the tables ask of a request beyond that: a cooldown and rules that can be counted, and
bodies that have texts of moderate length. -/
structure FitsTables (committed : Option Ruleset) (request : RulesetRequest) : Prop where
  cooldown : request.cooldown.seconds.toNat < 2 ^ 63
  counted : request.rules.length ≤ 2 ^ 63
  written : ∀ rule ∈ request.rules, ∀ body, rule.body? committed = some body →
    (Outline.ofNode body).toJson.readable = true ∧
      (Json.compact (Outline.ofNode body).toJson).utf8ByteSize ≤ 1048576

end RulesetRequest

namespace Workflow

open World

variable {σ : Type} {w after : World σ}

/-! ### Requested rules -/

section Rules

variable {committed : Option Ruleset} {request : RuleRequest} {seen : List String}
  {requests : List RuleRequest}

/-- The world once so many more ids have been drawn. -/
def drawing (count : Nat) (w : World σ) : World σ :=
  { w with drawn := w.drawn + count }

theorem idAndBody_of_body? {body : Node} (given : request.body? committed = some body)
    (w : World σ) : idAndBody committed request w
      = (.ok (request.stableId.getD (w.ids w.drawn), body), drawing request.draws w) := by
  obtain ⟨stableId, name, description, own⟩ := request
  cases own with
  | some own =>
    cases given
    cases stableId <;> rfl
  | none =>
    cases stableId with
    | none => cases given
    | some id =>
      obtain ⟨rule, found, rfl⟩ := Option.map_eq_some_iff.mp given
      simp only [idAndBody, found]
      rfl

theorem idAndBody_of_none (missing : request.body? committed = none) (w : World σ) :
    ∃ e, idAndBody committed request w = (.error e, w) := by
  obtain ⟨stableId, name, description, own⟩ := request
  cases own with
  | some own => cases missing
  | none =>
    cases stableId with
    | none => exact ⟨_, rfl⟩
    | some id =>
      have unknown : committed.bind (·.rule? id) = none := Option.map_eq_none_iff.mp missing
      simp only [idAndBody, unknown]
      exact ⟨_, rfl⟩

/-- A requested rule is resolved exactly if it has a body of the shape of rules, and to what was
requested. -/
theorem resolve_eq_ok_iff {rule : Rule} : resolve committed request w = (.ok rule, after)
    ↔ rule.stableId = request.stableId.getD (w.ids w.drawn) ∧ request.Describes committed rule ∧
      Ruleset.checkShape rule.body = .ok () ∧ after = drawing request.draws w := by
  rw [resolve, Action.bind_eq_ok_iff]
  constructor
  · rintro ⟨⟨id, body⟩, w₁, given, ran⟩
    obtain ⟨_, w₂, checked, ran⟩ := Action.bind_eq_ok_iff.mp ran
    obtain ⟨shaped, rfl⟩ := Action.ofExcept_eq_ok_iff.mp checked
    cases found : request.body? committed with
    | none =>
      obtain ⟨e, failed⟩ := idAndBody_of_none found w
      cases failed.symm.trans given
    | some own =>
      cases (idAndBody_of_body? found w).symm.trans given
      cases ran
      exact ⟨rfl, ⟨rfl, rfl, found⟩, shaped, rfl⟩
  · rintro ⟨id_eq, ⟨name_eq, description_eq, body_eq⟩, shaped, rfl⟩
    refine ⟨_, _, idAndBody_of_body? body_eq w, ?_⟩
    refine Action.bind_eq_ok_iff.mpr ⟨(), _, Action.ofExcept_eq_ok_iff.mpr ⟨shaped, rfl⟩, ?_⟩
    obtain ⟨_, _, _, _⟩ := rule
    subst id_eq name_eq description_eq
    rfl

/-- Resolved rules are what was requested, with the ids that were named or drawn. -/
theorem described_of_resolveAll {rules : List Rule}
    (ran : resolveAll committed seen requests w = (.ok rules, after)) :
    rules.map Rule.stableId = stableIds w.ids w.drawn requests ∧
      List.Forall₂ (RuleRequest.Describes committed) requests rules ∧
      after = drawing (requests.map RuleRequest.draws).sum w := by
  induction requests generalizing seen w rules with
  | nil =>
    cases ran
    exact ⟨rfl, .nil, rfl⟩
  | cons request rest ih =>
    obtain ⟨rule, w₁, resolved, ran⟩ := Action.bind_eq_ok_iff.mp ran
    obtain ⟨id_eq, described, -, rfl⟩ := resolve_eq_ok_iff.mp resolved
    split at ran
    · cases ran
    · obtain ⟨later, w₂, later_resolved, ran⟩ := Action.bind_eq_ok_iff.mp ran
      cases ran
      obtain ⟨ids_eq, later_described, rfl⟩ := ih later_resolved
      refine ⟨?_, .cons described later_described, ?_⟩
      · rw [List.map_cons, stableIds, id_eq, ids_eq]
        rfl
      · simp only [drawing, List.map_cons, List.sum_cons, Nat.add_assoc]

/-- Rules that are what was requested, with the ids that are named or drawn, are resolved if they
have the shape of rules and ids that differ from each other and from those seen. -/
theorem resolveAll_of_described {rules : List Rule}
    (ids_eq : rules.map Rule.stableId = stableIds w.ids w.drawn requests)
    (described : List.Forall₂ (RuleRequest.Describes committed) requests rules)
    (shaped : ∀ rule ∈ rules, Ruleset.checkShape rule.body = .ok ())
    (distinct : (rules.map Rule.stableId).Nodup)
    (unseen : ∀ rule ∈ rules, rule.stableId ∉ seen) :
    resolveAll committed seen requests w
      = (.ok rules, drawing (requests.map RuleRequest.draws).sum w) := by
  induction described generalizing seen w with
  | nil => rfl
  | @cons request rule rest later here described ih =>
    obtain ⟨id_eq, later_ids⟩ := List.cons.inj ids_eq
    obtain ⟨shaped_here, shaped_later⟩ := List.forall_mem_cons.mp shaped
    obtain ⟨unseen_here, unseen_later⟩ := List.forall_mem_cons.mp unseen
    obtain ⟨own_id, distinct_later⟩ := List.nodup_cons.mp distinct
    have resolved := resolve_eq_ok_iff.mpr ⟨id_eq, here, shaped_here, rfl⟩
    have later_unseen : ∀ other ∈ later, other.stableId ∉ rule.stableId :: seen := by
      intro other mem again
      rcases List.mem_cons.mp again with same | again
      · exact own_id (same ▸ List.mem_map_of_mem mem)
      · exact unseen_later other mem again
    have later_resolved := ih (w := drawing request.draws w) later_ids shaped_later distinct_later
      later_unseen
    refine Action.bind_eq_ok_iff.mpr ⟨rule, _, resolved, ?_⟩
    rw [if_neg unseen_here]
    refine Action.bind_eq_ok_iff.mpr ⟨later, _, later_resolved, ?_⟩
    simp only [drawing, List.map_cons, List.sum_cons, Nat.add_assoc]
    rfl

/-- A requested rule has a body exactly if it has one of its own or names a committed rule. -/
theorem exists_body?_iff : (∃ body, request.body? committed = some body)
    ↔ request.body.isSome ∨ ∃ id ∈ request.stableId, ∃ ruleset ∈ committed,
      id ∈ ruleset.rules.map Rule.stableId := by
  obtain ⟨stableId, name, description, own⟩ := request
  cases own with
  | some own => simp [RuleRequest.body?]
  | none =>
    cases stableId with
    | none => simp [RuleRequest.body?]
    | some id =>
      cases committed with
      | none => simp [RuleRequest.body?]
      | some ruleset =>
        have known : (∃ rule, ruleset.rule? id = some rule)
            ↔ ∃ rule ∈ ruleset.rules, rule.stableId = id := by
          rw [← Option.isSome_iff_exists, Ruleset.rule?, List.find?_isSome]
          simp
        simpa [RuleRequest.body?] using known

/-- Requested rules that have bodies describe rules. -/
theorem exists_described (given : ∀ request ∈ requests, ∃ body, request.body? committed = some body)
    (ids : Nat → String) (drawn : Nat) : ∃ rules : List Rule,
      rules.map Rule.stableId = stableIds ids drawn requests ∧
        List.Forall₂ (RuleRequest.Describes committed) requests rules := by
  induction requests generalizing drawn with
  | nil => exact ⟨[], rfl, .nil⟩
  | cons request rest ih =>
    obtain ⟨⟨body, body_eq⟩, later⟩ := List.forall_mem_cons.mp given
    obtain ⟨rules, ids_eq, described⟩ := ih later (drawn + request.draws)
    refine ⟨⟨request.stableId.getD (ids drawn), request.name, request.description, body⟩ :: rules,
      ?_, .cons ⟨rfl, rfl, body_eq⟩ described⟩
    rw [List.map_cons, ids_eq, stableIds]

end Rules

/-! ### Versions -/

theorem toNat_of_nextVersion {committed : Option Ruleset} {version : UInt32}
    (next : nextVersion committed = .ok version) :
    version.toNat = RulesetRequest.versionAfter committed := by
  cases committed with
  | none => exact nextVersion_none next
  | some ruleset => exact nextVersion_some next

theorem exists_nextVersion_iff {committed : Option Ruleset} :
    (∃ version, nextVersion committed = .ok version)
      ↔ ∀ ruleset ∈ committed, ruleset.version.toNat < 0xFFFFFFFF := by
  cases committed with
  | none => simp [nextVersion]
  | some ruleset =>
    rw [nextVersion]
    split <;> simp <;> omega

/-! ### Creating -/

section Creating

variable {b : Backend σ} {maxThresholds : Nat} {request : RulesetRequest}
  {committed : Option Ruleset} {read : World σ}

/-- An acceptable request comes down to writing the ruleset that it describes. -/
theorem create_of_acceptable
    (given : World.committed b request.key w = (.ok committed, read))
    (acceptable : request.Acceptable maxThresholds committed read.ids read.drawn) :
    ∃ ruleset, request.Describes committed read.ids read.drawn ruleset ∧
      ∀ result after, World.replaceDraft b ruleset
          (drawing (request.rules.map RuleRequest.draws).sum read) = (result, after) →
        create b maxThresholds request w = match result with
          | .ok () => (.ok ruleset, after)
          | .error e => (.error (.store e), after) := by
  have checked : Thresholds.check request.thresholds (min maxThresholds Thresholds.maxCount)
      = .ok () := Thresholds.check_eq_ok_iff.mpr ⟨acceptable.few, acceptable.ascending⟩
  obtain ⟨version, next⟩ := exists_nextVersion_iff.mpr acceptable.room
  obtain ⟨rules, ids_eq, described⟩ := exists_described
    (fun rule mem => exists_body?_iff.mpr (acceptable.bodies rule mem)) read.ids read.drawn
  have shaped : ∀ rule ∈ rules, Ruleset.checkShape rule.body = .ok () := by
    intro rule mem
    obtain ⟨requested, requested_mem, describes⟩ := exists_of_mem_right described mem
    exact acceptable.shaped requested requested_mem rule.body describes.body
  have resolved := resolveAll_of_described ids_eq described shaped
    (ids_eq ▸ acceptable.distinct) fun _ _ => List.not_mem_nil
  refine ⟨⟨request.key, version, .draft, request.name, request.thresholds, request.cooldown, rules⟩,
    ⟨rfl, toNat_of_nextVersion next, rfl, rfl, rfl, rfl, ids_eq, described⟩,
    fun result after written => ?_⟩
  rw [create, Action.bind_of_ok (Action.ofExcept_eq_ok_iff.mpr ⟨checked, rfl⟩),
    Action.bind_of_ok (Action.restate_eq_ok_iff.mpr given),
    Action.bind_of_ok (Action.ofExcept_eq_ok_iff.mpr ⟨next, rfl⟩),
    Action.bind_of_ok (Action.restate_eq_ok_iff.mpr resolved)]
  cases result with
  | ok _ => exact Action.bind_of_ok (Action.restate_eq_ok_iff.mpr written)
  | error e => exact Action.bind_of_error (Action.restate_of_error written)

/-- A request that is not acceptable is refused as wrong. -/
theorem create_of_not_acceptable
    (given : World.committed b request.key w = (.ok committed, read))
    (refused : ¬request.Acceptable maxThresholds committed read.ids read.drawn) :
    ∃ reason, (create b maxThresholds request w).1 = .error (.badRequest reason) := by
  rw [create]
  cases checked : Thresholds.check request.thresholds (min maxThresholds Thresholds.maxCount) with
  | error e => exact ⟨.thresholds e, rfl⟩
  | ok _ =>
    rw [Action.bind_of_ok (Action.ofExcept_eq_ok_iff.mpr ⟨rfl, rfl⟩),
      Action.bind_of_ok (Action.restate_eq_ok_iff.mpr given)]
    cases next : nextVersion committed with
    | error e => exact ⟨e, rfl⟩
    | ok version =>
      rw [Action.bind_of_ok (Action.ofExcept_eq_ok_iff.mpr ⟨rfl, rfl⟩)]
      cases ran : resolveAll committed [] request.rules read with
      | mk result after =>
        cases result with
        | error e => exact ⟨e, by rw [Action.bind_of_error (Action.restate_of_error ran)]⟩
        | ok rules =>
          obtain ⟨few, ascending⟩ := Thresholds.check_eq_ok_iff.mp checked
          obtain ⟨ids_eq, described, -⟩ := described_of_resolveAll ran
          obtain ⟨sound, distinct⟩ := resolveAll_sound ran
          refine absurd ⟨few, ascending, exists_nextVersion_iff.mp ⟨version, next⟩, ?_, ?_,
            ids_eq ▸ distinct⟩ refused
          · intro requested mem
            obtain ⟨rule, -, describes⟩ := exists_of_mem_right described.flip mem
            exact exists_body?_iff.mp ⟨rule.body, describes.body⟩
          · intro requested mem body body_eq
            obtain ⟨rule, rule_mem, describes⟩ := exists_of_mem_right described.flip mem
            rw [← Option.some.inj (describes.body.symm.trans body_eq)]
            exact (sound rule rule_mem).1

end Creating

/-! ### Stores -/

/-- No failure is planned for the calls that a request for a ruleset makes. -/
structure Answering (w : World σ) : Prop where
  reads : PlannedFailure.take? .committedRuleset w.planned = none
  writes : PlannedFailure.take? .replaceDraft w.planned = none

theorem call_of_ran {α : Type} {c : Call} {op : Action σ StoreError α} {store : σ}
    {result : Except StoreError α} (unplanned : PlannedFailure.take? c w.planned = none)
    (ran : op w.store = (result, store)) : call c op w = (result, { w with store }) := by
  rw [call_of_unplanned unplanned, ran]

section Memory

variable {w after : World Memory} {maxThresholds : Nat} {request : RulesetRequest}
  {answer : Except WorkflowError Ruleset}

/-- Exactly the acceptable requests are accepted in memory. -/
theorem create_in_memory (answering : Answering w)
    (ran : create Memory.backend maxThresholds request w = (answer, after)) :
    (request.Acceptable maxThresholds (Slots.get? request.key w.store.committed) w.ids w.drawn ∧
      ∃ ruleset, answer = .ok ruleset ∧
        request.Describes (Slots.get? request.key w.store.committed) w.ids w.drawn ruleset ∧
        after.store = { w.store with drafts := Slots.put request.key ruleset w.store.drafts }) ∨
    (¬request.Acceptable maxThresholds (Slots.get? request.key w.store.committed) w.ids w.drawn ∧
      (∃ reason, answer = .error (.badRequest reason)) ∧ after.store = w.store) := by
  have given : World.committed Memory.backend request.key w
      = (.ok (Slots.get? request.key w.store.committed), w) := read_of_unplanned answering.reads
  by_cases acceptable : request.Acceptable maxThresholds
      (Slots.get? request.key w.store.committed) w.ids w.drawn
  · obtain ⟨ruleset, describes, reduced⟩ := create_of_acceptable given acceptable
    have unplanned : PlannedFailure.take? .replaceDraft
        (drawing (request.rules.map RuleRequest.draws).sum w).planned = none := answering.writes
    have created := reduced _ _ (call_of_ran unplanned (if_pos describes.status))
    rw [describes.key] at created
    cases ran.symm.trans created
    exact .inl ⟨acceptable, ruleset, rfl, describes, rfl⟩
  · obtain ⟨reason, failed⟩ := create_of_not_acceptable given acceptable
    rw [ran] at failed
    cases failed
    exact .inr ⟨acceptable, ⟨reason, rfl⟩, create_atomic ran⟩

end Memory

section Tables

variable {w after : World Tables} {maxThresholds : Nat} {request : RulesetRequest}
  {answer : Except WorkflowError Ruleset} {r : Registry}

/-- What a request describes fits the tables exactly if the request does. -/
theorem fitsTables_iff {committed : Option Ruleset} {ids : Nat → String} {drawn : Nat}
    {ruleset : Ruleset} (describes : request.Describes committed ids drawn ruleset) :
    request.FitsTables committed ↔ (∃ bodies, Tables.draftBodies ruleset = .ok bodies) ∧
      ruleset.rules.length ≤ 2 ^ 63 := by
  have written : (∀ rule ∈ ruleset.rules, ∃ body, Tables.bodyText rule = .ok body)
      ↔ ∀ rule ∈ request.rules, ∀ body, rule.body? committed = some body →
        (Outline.ofNode body).toJson.readable = true ∧
          (Json.compact (Outline.ofNode body).toJson).utf8ByteSize ≤ 1048576 := by
    constructor
    · intro texts requested mem body body_eq
      obtain ⟨rule, rule_mem, described⟩ := exists_of_mem_right describes.rules.flip mem
      obtain ⟨text, written⟩ := texts rule rule_mem
      obtain ⟨readable, rfl, short⟩ := Tables.bodyText_eq_ok_iff.mp written
      rw [← Option.some.inj (described.body.symm.trans body_eq)]
      exact ⟨readable, short⟩
    · intro texts rule mem
      obtain ⟨requested, requested_mem, described⟩ := exists_of_mem_right describes.rules mem
      obtain ⟨readable, short⟩ := texts requested requested_mem rule.body described.body
      exact ⟨_, Tables.bodyText_eq_ok_iff.mpr ⟨readable, rfl, short⟩⟩
  rw [Tables.exists_draftBodies_iff, written, ← describes.rules.length_eq, describes.cooldown]
  constructor
  · rintro ⟨cooldown, counted, written⟩
    exact ⟨⟨describes.status, cooldown, written⟩, counted⟩
  · rintro ⟨⟨-, cooldown, written⟩, counted⟩
    exact ⟨cooldown, counted, written⟩

/-- A request for a ruleset that fails leaves the tables alone. -/
theorem create_in_tables_atomic :
    (create (Tables.backend r) maxThresholds request).Atomic World.store := by
  have reads : (World.committed (Tables.backend r) request.key).Keeps World.store :=
    call_keeps quiet_store fun w => Tables.reading_keeps _ w.store
  exact (Action.keeps_ofExcept _ _ _).bind_atomic fun _ => reads.restate.bind_atomic fun _ =>
    (Action.keeps_ofExcept _ _ _).bind_atomic fun _ =>
      (resolveAll_keeps quiet_store).restate.bind_atomic fun _ =>
        (call_atomic (Tables.transaction_atomic _)).restate.bind_pure fun _ => _

theorem committed_of_answering (answering : Answering w) (key : PairKey) :
    World.committed (Tables.backend r) key w
      = ((Tables.readRuleset r w.store key .committed).mapError TablesError.toStoreError, w) :=
  call_of_ran answering.reads (Tables.reading_apply _ w.store)

/-- Beside a committed ruleset that can be read, exactly the acceptable requests that fit the tables
are accepted there. -/
theorem create_in_tables {committed : Option Ruleset} (answering : Answering w)
    (read : Tables.readRuleset r w.store request.key .committed = .ok committed)
    (ran : create (Tables.backend r) maxThresholds request w = (answer, after)) :
    (request.Acceptable maxThresholds committed w.ids w.drawn ∧ request.FitsTables committed ∧
      ∃ ruleset bodies, answer = .ok ruleset ∧
        request.Describes committed w.ids w.drawn ruleset ∧
        Tables.draftBodies ruleset = .ok bodies ∧
        after.store = Tables.drafted w.store ruleset bodies) ∨
    (request.Acceptable maxThresholds committed w.ids w.drawn ∧ ¬request.FitsTables committed ∧
      ∃ e, answer = .error (.store e)) ∨
    (¬request.Acceptable maxThresholds committed w.ids w.drawn ∧
      ∃ reason, answer = .error (.badRequest reason)) := by
  have given : World.committed (Tables.backend r) request.key w = (.ok committed, w) := by
    rw [committed_of_answering answering, read]
    rfl
  by_cases acceptable : request.Acceptable maxThresholds committed w.ids w.drawn
  · obtain ⟨ruleset, describes, reduced⟩ := create_of_acceptable given acceptable
    have unplanned : PlannedFailure.take? .replaceDraft
        (drawing (request.rules.map RuleRequest.draws).sum w).planned = none := answering.writes
    rcases Tables.replaceDraft_cases r ruleset w.store with
      ⟨bodies, given, counted, -, written⟩ | ⟨e, failed⟩
    · have created := reduced _ _ (call_of_ran unplanned written)
      cases ran.symm.trans created
      exact .inl ⟨acceptable, (fitsTables_iff describes).mpr ⟨⟨bodies, given⟩, counted⟩, ruleset,
        bodies, rfl, describes, given, rfl⟩
    · have created := reduced _ _ (call_of_ran unplanned failed)
      cases ran.symm.trans created
      refine .inr (.inl ⟨acceptable, fun fits => ?_, e, rfl⟩)
      obtain ⟨⟨bodies, given⟩, counted⟩ := (fitsTables_iff describes).mp fits
      have written : (Tables.backend r).replaceDraft ruleset w.store
          = (.ok (), Tables.drafted w.store ruleset bodies) :=
        Tables.transaction_eq_ok_iff.mpr (Tables.writeDraft_eq_ok_iff.mpr
          ⟨bodies, given, counted, describes.stableIds ▸ acceptable.distinct, rfl⟩)
      cases failed.symm.trans written
  · obtain ⟨reason, failed⟩ := create_of_not_acceptable given acceptable
    rw [ran] at failed
    exact .inr (.inr ⟨acceptable, reason, failed⟩)

/-- Beside a committed ruleset that cannot be read, no request is accepted. -/
theorem create_of_unread {failure : TablesError} (answering : Answering w)
    (unread : Tables.readRuleset r w.store request.key .committed = .error failure)
    (ran : create (Tables.backend r) maxThresholds request w = (answer, after)) :
    ∃ e, answer = .error e ∧
      ((∃ reason, e = .badRequest reason) ∨ ∃ failure, e = .store failure) := by
  have failed : World.committed (Tables.backend r) request.key w
      = (.error failure.toStoreError, w) := by
    rw [committed_of_answering answering, unread]
    rfl
  rw [create] at ran
  cases checked : Thresholds.check request.thresholds (min maxThresholds Thresholds.maxCount) with
  | error reason =>
    rw [checked] at ran
    cases ran
    exact ⟨_, rfl, .inl ⟨.thresholds reason, rfl⟩⟩
  | ok _ =>
    rw [Action.bind_of_ok (Action.ofExcept_eq_ok_iff.mpr ⟨checked, rfl⟩),
      Action.bind_of_error (Action.restate_of_error failed)] at ran
    cases ran
    exact ⟨_, rfl, .inr ⟨_, rfl⟩⟩

end Tables

/-! ### Both stores -/

/-- **Which requests become drafts.** In memory exactly the acceptable requests do, and then the
draft of their pair is the ruleset that they describe; all others are refused as wrong and change
nothing. In tables exactly the acceptable requests do that fit the tables and beside which the
committed ruleset can be read, and then the rows of the draft are those of the ruleset that they
describe, which is read back from them, its cooldown in whole seconds, exactly if all its bodies
are; all others change nothing, and beside a committed ruleset that can be read they are
refused as wrong exactly if they are not acceptable, and by the store otherwise. -/
theorem create_decided (maxThresholds : Nat) (request : RulesetRequest) :
    (∀ (w after : World Memory) (answer : Except WorkflowError Ruleset), Answering w →
      create Memory.backend maxThresholds request w = (answer, after) →
      ((∃ ruleset, answer = .ok ruleset) ↔ request.Acceptable maxThresholds
        (Slots.get? request.key w.store.committed) w.ids w.drawn) ∧
      (∀ ruleset, answer = .ok ruleset →
        request.Describes (Slots.get? request.key w.store.committed) w.ids w.drawn ruleset ∧
        Slots.get? request.key after.store.drafts = some ruleset ∧
        after.store = { w.store with drafts := Slots.put request.key ruleset w.store.drafts }) ∧
      ∀ e, answer = .error e → (∃ reason, e = .badRequest reason) ∧ after.store = w.store) ∧
    ∀ (r : Registry) (w after : World Tables) (answer : Except WorkflowError Ruleset), Answering w →
      create (Tables.backend r) maxThresholds request w = (answer, after) →
      ((∃ ruleset, answer = .ok ruleset) ↔ ∃ committed,
        Tables.readRuleset r w.store request.key .committed = .ok committed ∧
        request.Acceptable maxThresholds committed w.ids w.drawn ∧
        request.FitsTables committed) ∧
      (∀ ruleset, answer = .ok ruleset → ∃ committed bodies,
        Tables.readRuleset r w.store request.key .committed = .ok committed ∧
        request.Describes committed w.ids w.drawn ruleset ∧
        Tables.draftBodies ruleset = .ok bodies ∧
        after.store = Tables.drafted w.store ruleset bodies ∧
        (Tables.readRuleset r after.store request.key .draft
            = .ok (some (Tables.wholeSeconds ruleset))
          ↔ ∀ rule ∈ ruleset.rules, rule.ReadBack r)) ∧
      ∀ e, answer = .error e → after.store = w.store ∧
        ((∃ reason, e = .badRequest reason) ∨ ∃ failure, e = .store failure) ∧
        ∀ committed, Tables.readRuleset r w.store request.key .committed = .ok committed →
          ((∃ reason, e = .badRequest reason) ↔
            ¬request.Acceptable maxThresholds committed w.ids w.drawn) := by
  constructor
  · intro w after answer answering ran
    rcases create_in_memory answering ran with
      ⟨acceptable, ruleset, rfl, describes, stored⟩ | ⟨refused, ⟨reason, rfl⟩, unchanged⟩
    · refine ⟨iff_of_true ⟨_, rfl⟩ acceptable, fun other same => ?_, nofun⟩
      cases same
      exact ⟨describes, by rw [stored, Slots.get?_put, if_pos rfl], stored⟩
    · refine ⟨iff_of_false nofun refused, nofun, fun e same => ?_⟩
      cases same
      exact ⟨⟨reason, rfl⟩, unchanged⟩
  · intro r w after answer answering ran
    cases read : Tables.readRuleset r w.store request.key .committed with
    | error failure =>
      obtain ⟨e, rfl, sort⟩ := create_of_unread answering read ran
      refine ⟨iff_of_false nofun nofun, nofun, fun e same => ?_⟩
      cases same
      exact ⟨create_in_tables_atomic ran, sort, nofun⟩
    | ok committed =>
      rcases create_in_tables answering read ran with
        ⟨acceptable, fits, ruleset, bodies, rfl, describes, given, stored⟩ |
        ⟨acceptable, unfit, e, rfl⟩ | ⟨refused, reason, rfl⟩
      · refine ⟨iff_of_true ⟨_, rfl⟩ ⟨committed, rfl, acceptable, fits⟩, fun other same => ?_,
          nofun⟩
        cases same
        refine ⟨committed, bodies, rfl, describes, given, stored, ?_⟩
        rw [stored, ← describes.key]
        exact Tables.readRuleset_drafted_iff given ((fitsTables_iff describes).mp fits).2
      · refine ⟨iff_of_false nofun ?_, nofun, fun e same => ?_⟩
        · rintro ⟨_, same, -, fits⟩
          cases same
          exact unfit fits
        · cases same
          refine ⟨create_in_tables_atomic ran, .inr ⟨_, rfl⟩, ?_⟩
          rintro _ ⟨⟩
          exact iff_of_false nofun (not_not_intro acceptable)
      · refine ⟨iff_of_false nofun ?_, nofun, fun e same => ?_⟩
        · rintro ⟨_, same, acceptable, -⟩
          cases same
          exact refused acceptable
        · cases same
          refine ⟨create_in_tables_atomic ran, .inl ⟨_, rfl⟩, ?_⟩
          rintro _ ⟨⟩
          exact iff_of_true ⟨_, rfl⟩ refused

/-- A rule that was committed. -/
def Sample.large : Rule :=
  ⟨"large", "large", "", Session.Sample.body⟩

/-- A world with that rule committed in the seventh version of its ruleset. -/
def Sample.world : World Memory :=
  { Session.Sample.world with store := { Memory.empty with committed :=
      [(Session.Sample.pair, ⟨Session.Sample.pair, 7, .committed, "first", [10], .ofSeconds 0,
        [Sample.large]⟩)] } }

/-- A request for a rule of its own and for the committed rule under another name. -/
def Sample.keeping : RulesetRequest :=
  ⟨Session.Sample.pair, "second", [10, 20], .ofSeconds 0,
    [⟨none, "new", "", some Session.Sample.body⟩, ⟨some "large", "kept", "as before", none⟩]⟩

/-- The committed rule is taken over into the eighth version. -/
theorem create_decided_keeping : ∃ ruleset after,
    create Memory.backend 32 Sample.keeping Sample.world = (.ok ruleset, after) ∧
    ruleset.version.toNat = 8 ∧ ruleset.rules.map Rule.stableId = ["id-0", "large"] ∧
    Slots.get? Session.Sample.pair after.store.drafts = some ruleset := by
  have acceptable : Sample.keeping.Acceptable 32
      (Slots.get? Sample.keeping.key Sample.world.store.committed) Sample.world.ids
      Sample.world.drawn := by
    have same : ∀ body, some Session.Sample.body = some body →
        Ruleset.checkShape body = .ok () := by
      rintro _ ⟨⟩
      rfl
    exact ⟨by decide, by decide, by decide, by decide,
      List.forall_mem_cons.mpr ⟨same, List.forall_mem_singleton.mpr same⟩, by decide⟩
  obtain ⟨accepted, stored, -⟩ :=
    (create_decided 32 Sample.keeping).1 Sample.world _ _ ⟨rfl, rfl⟩ rfl
  obtain ⟨ruleset, answered⟩ := accepted.mpr acceptable
  obtain ⟨describes, held, -⟩ := stored ruleset answered
  exact ⟨ruleset, _, Prod.ext answered rfl, describes.version, describes.stableIds, held⟩

/-- A request for a rule that always triggers and for a cooldown of `2^63` seconds. -/
def Sample.lasting : RulesetRequest :=
  { Session.Sample.request with cooldown := .ofSeconds 0x8000000000000000 }

/-- A request for half a second of cooldown and no rules. -/
def Sample.brief : RulesetRequest :=
  ⟨Session.Sample.pair, "first", [], ⟨0, 500000000, by decide⟩, []⟩

/-- Tables in which the committed ruleset has a negative version. -/
def Sample.damaged : Tables :=
  { Tables.empty with rulesets := [⟨"acme", "account", "committed", -1, "first", "[]", 0⟩] }

/-- A request to tables in a world that is otherwise new. -/
def Sample.asked (r : Registry) (t : Tables) (request : RulesetRequest) :
    Except WorkflowError Ruleset × World Tables :=
  create (Tables.backend r) 32 request (.fresh t .epoch Session.Sample.world.ids)

/-- A registry without functions reads no body back. -/
theorem not_readBack_of_disabled {r : Registry} (disabled : ∀ func, r.enabled func = false)
    (rule : Rule) : ¬rule.ReadBack r := by
  rintro ⟨text, -, ⟨tag, literal, children, named⟩, -, decoded⟩
  obtain ⟨-, func, resolved, -⟩ := Registry.decodeAt_eq_ok_iff.mp decoded
  exact Bool.false_ne_true ((disabled func).symm.trans (Registry.resolve_eq_ok_iff.mp resolved).1)

/-- Tables need not accept an acceptable request, since they cannot count every cooldown, and then
it is not refused as wrong. What they accept they may store with another cooldown, or with bodies
that they cannot read. A committed ruleset that cannot be read is no wrong of the request either. -/
theorem tables_decide_otherwise :
    (Tables.readRuleset .standard .empty Sample.lasting.key .committed = .ok none ∧
      Sample.lasting.Acceptable 32 none Session.Sample.world.ids 0 ∧
      (Sample.asked .standard .empty Sample.lasting).1
        = .error (.store (.invalid "cooldown too large"))) ∧
    (∃ ruleset stored, (Sample.asked .standard .empty Sample.brief).1 = .ok ruleset ∧
      Tables.readRuleset .standard (Sample.asked .standard .empty Sample.brief).2.store
        Sample.brief.key .draft = .ok (some stored) ∧ stored ≠ ruleset) ∧
    (∃ ruleset, (Sample.asked (.ofFunctions []) .empty Session.Sample.request).1 = .ok ruleset ∧
      Tables.readRuleset (.ofFunctions [])
        (Sample.asked (.ofFunctions []) .empty Session.Sample.request).2.store
        Session.Sample.request.key .draft ≠ .ok (some ruleset)) ∧
    (Sample.asked .standard Sample.damaged Sample.brief).1
      = .error (.store (.corrupt "invalid ruleset version -1")) := by
  have shaped : ∀ body, some Session.Sample.body = some body →
      Ruleset.checkShape body = .ok () := by
    rintro _ ⟨⟩
    rfl
  have lasting : Sample.lasting.Acceptable 32 none Session.Sample.world.ids 0 :=
    ⟨by decide, by decide, by decide, by decide, List.forall_mem_singleton.mpr shaped, by decide⟩
  refine ⟨⟨rfl, lasting, rfl⟩, ?brief, ?unread, rfl⟩
  case brief =>
    refine ⟨_, _, rfl, (Tables.readRuleset_drafted_iff rfl (by decide)).mpr nofun, fun same => ?_⟩
    exact absurd (congrArg (·.cooldown.nanos) same) (by decide)
  case unread =>
    have acceptable : Session.Sample.request.Acceptable 32 none Session.Sample.world.ids 0 :=
      ⟨by decide, by decide, by decide, by decide, List.forall_mem_singleton.mpr shaped, by decide⟩
    have fits : Session.Sample.request.FitsTables none := by
      refine ⟨by decide, by decide, List.forall_mem_singleton.mpr ?_⟩
      rintro _ ⟨⟩
      exact ⟨by decide, by decide +kernel⟩
    cases ran : Sample.asked (.ofFunctions []) .empty Session.Sample.request with
    | mk answer after =>
      rcases create_in_tables ⟨rfl, rfl⟩ rfl ran with
        ⟨-, -, ruleset, bodies, rfl, describes, given, stored⟩ | ⟨-, unfit, -⟩ | ⟨refused, -⟩
      · refine ⟨ruleset, rfl, fun read => ?_⟩
        have whole : Tables.wholeSeconds ruleset = ruleset := by
          obtain ⟨_, _, _, _, _, cooldown, _⟩ := ruleset
          cases describes.cooldown
          rfl
        rw [stored, ← describes.key] at read
        have all_read := (Tables.readRuleset_drafted_iff given
          ((fitsTables_iff describes).mp fits).2).mp (whole ▸ read)
        obtain ⟨rule, mem, -⟩ :=
          exists_of_mem_right describes.rules.flip (List.mem_singleton_self _)
        exact not_readBack_of_disabled (fun _ => rfl) rule (all_read rule mem)
      · exact absurd fits unfit
      · exact absurd acceptable refused

end Workflow

end RiskRules
