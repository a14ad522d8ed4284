import RiskRules.Proofs.Discretization
import RiskRules.Proofs.Versions

/-!
Score histories over whole sessions. A step adds at most one score, made from the ruleset that is
committed at that time (`Session.scores_after_cases`), and a commit never lowers the version of the
committed ruleset. So in every reachable state the newest score of a history is its only current
one, versions never rise towards older scores, and every score is one that the ruleset it names
allows (`Session.histories_of_run`).
-/

namespace RiskRules

/-! ### Scores of a ruleset -/

namespace Scoring

variable {r : Registry} {env : Environment} {ruleset : Ruleset} {record : ScoringRecord}

/-- A computed score is at least 1, whatever the rules came to. -/
theorem one_le_score_of_execute (executed : execute r env ruleset = .ok record) :
    1 ≤ record.score := by
  rw [execute] at executed
  split at executed
  · cases executed
    exact one_le_finalScore _ _ _
  · cases executed

end Scoring

/-- A score that a ruleset allows: computed from it and without a deadline, or set within its range
by an actor who may. -/
structure Score.Lawful (allowed : List String) (r : Ruleset) (s : Score) : Prop where
  version : s.rulesetVersion = some r.version
  positive : 1 ≤ s.score
  by_hand : s.source = .override ↔ s.overriddenBy.isSome = true
  permitted : ∀ actor, s.overriddenBy = some actor → actor ∈ allowed ∧ s.score ≤ r.maxScore
  no_deadline : s.source = .ruleset → s.staleAt = none

theorem Score.Lawful.superseded {allowed : List String} {r : Ruleset} {s : Score}
    (lawful : s.Lawful allowed r) : s.superseded.Lawful allowed r :=
  ⟨lawful.version, lawful.positive, lawful.by_hand, lawful.permitted, lawful.no_deadline⟩

/-- The number of the ruleset that a score comes from. -/
def Score.version (s : Score) : Nat :=
  (s.rulesetVersion.map UInt32.toNat).getD 0

theorem Score.Lawful.version_eq {allowed : List String} {r : Ruleset} {s : Score}
    (lawful : s.Lawful allowed r) : s.version = r.version.toNat := by
  rw [Score.version, lawful.version]
  rfl

/-! ### The invariant -/

namespace Memory

variable {allowed : List String} {given : PairKey → List Ruleset} {m m' : Memory} {score : Score}

/-- A score that may be put into a store: a current one that the committed ruleset of its pair
allows. -/
def Admits (allowed : List String) (m : Memory) (score : Score) : Prop :=
  score.isCurrent = true ∧
    ∃ r, Slots.get? score.entity.key m.committed = some r ∧ score.Lawful allowed r

/-- A history of scores of an entity, all from rulesets that have been committed: the newest is the
only current one, and versions never rise towards older ones. -/
structure Orderly (allowed : List String) (given : List Ruleset) (entity : EntityRef)
    (history : List Score) : Prop where
  lawful : ∀ s ∈ history, s.entity = entity ∧ ∃ r ∈ given, s.Lawful allowed r
  newest_current : ∀ s ∈ history.head?, s.isCurrent = true
  older_not_current : ∀ s ∈ history.tail, s.isCurrent = false
  descending : history.Pairwise fun newer older => older.version ≤ newer.version

/-- Once there is a newer score, only the newest of an orderly history is another one. -/
theorem Orderly.map_superseded {given : List Ruleset} {entity : EntityRef} {history : List Score}
    (orderly : Orderly allowed given entity history) :
    history.map Score.superseded = history.modifyHead Score.superseded := by
  cases history with
  | nil => rfl
  | cons newest rest =>
    have same : rest.map Score.superseded = rest := by
      refine (List.map_congr_left fun s mem => ?_).trans (List.map_id rest)
      have outdated : s.isCurrent = false := orderly.older_not_current s mem
      rw [Score.superseded, ← outdated]
      rfl
    rw [List.map_cons, same, List.modifyHead_cons]

/-- The current score of an entity with an orderly history is the newest. -/
theorem Orderly.currentScore_eq {given : List Ruleset} {entity : EntityRef}
    (orderly : Orderly allowed given entity (m.history entity)) :
    m.currentScore entity = (m.history entity).head? := by
  rw [currentScore]
  cases held : m.history entity with
  | nil => rfl
  | cons newest rest =>
    rw [held] at orderly
    rw [List.find?_cons_of_pos (orderly.newest_current newest rfl), List.head?_cons]

/-- What may happen to histories: nothing, or one of them gets a new score in front, that before it
is not current any more, and everything else in the store stays as it is. -/
def Extended (m m' : Memory) : Prop :=
  (∀ entity, m'.history entity = m.history entity) ∨
  ∃ score, m'.history score.entity
      = score :: (m.history score.entity).modifyHead Score.superseded ∧
    (∀ other ≠ score.entity, m'.history other = m.history other) ∧
    m' = { m with scores := m'.scores }

/-- The committed rulesets are the last that have been committed, each of the version of its place,
and every history is one of scores from them. -/
structure Recorded (allowed : List String) (given : PairKey → List Ruleset) (m : Memory) :
    Prop where
  numbered : ∀ key i r, (given key)[i]? = some r → r.version.toNat = i + 1
  committed : ∀ key, Slots.get? key m.committed = (given key).getLast?
  orderly : ∀ entity, Orderly allowed (given entity.key) entity (m.history entity)

theorem orderly_nil (allowed : List String) (given : List Ruleset) (entity : EntityRef) :
    Orderly allowed given entity [] where
  lawful := by simp
  newest_current := by simp
  older_not_current := by simp
  descending := List.Pairwise.nil

theorem recorded_empty : Recorded allowed (fun _ => []) empty where
  numbered _ _ _ := nofun
  committed _ := rfl
  orderly entity := orderly_nil allowed [] entity

/-- Nothing but commits and new scores matters. -/
theorem Recorded.of_same (recorded : Recorded allowed given m) (scores : m'.scores = m.scores)
    (committed : m'.committed = m.committed) : Recorded allowed given m' where
  numbered := recorded.numbered
  committed key := committed ▸ recorded.committed key
  orderly entity := by
    rw [history, scores]
    exact recorded.orderly entity

/-- The last of the committed rulesets has as many versions up to its own as there are. -/
theorem Recorded.version_of_held (recorded : Recorded allowed given m) {key : PairKey}
    {last : Ruleset} (held : Slots.get? key m.committed = some last) :
    last ∈ given key ∧ last.version.toNat = (given key).length := by
  have is_last := (recorded.committed key).symm.trans held
  have nonempty : 0 < (given key).length := by
    rw [List.length_pos_iff]
    rintro empty
    simp [empty] at is_last
  refine ⟨List.mem_of_getLast? is_last, ?_⟩
  rw [List.getLast?_eq_getElem?] at is_last
  rw [recorded.numbered key _ last is_last]
  omega

theorem Recorded.version_of_given (recorded : Recorded allowed given m) {key : PairKey}
    {r : Ruleset} (mem : r ∈ given key) :
    1 ≤ r.version.toNat ∧ r.version.toNat ≤ (given key).length := by
  obtain ⟨i, inside, rfl⟩ := List.getElem_of_mem mem
  rw [recorded.numbered key i _ (List.getElem?_eq_getElem inside)]
  omega

/-- An admitted score in front keeps a history orderly. -/
theorem Recorded.orderly_cons (recorded : Recorded allowed given m)
    (admitted : m.Admits allowed score) :
    Orderly allowed (given score.entity.key) score.entity
      (score :: (m.history score.entity).map Score.superseded) := by
  obtain ⟨current, r, held, lawful⟩ := admitted
  obtain ⟨given_last, version_last⟩ := recorded.version_of_held held
  obtain ⟨earlier, -, -, descending⟩ := recorded.orderly score.entity
  constructor
  · rintro s (_ | ⟨_, mem⟩)
    · exact ⟨rfl, r, given_last, lawful⟩
    · obtain ⟨older, older_mem, rfl⟩ := List.mem_map.mp mem
      obtain ⟨owned, r', given_r', lawful'⟩ := earlier older older_mem
      exact ⟨owned, r', given_r', lawful'.superseded⟩
  · rintro s ⟨⟩
    exact current
  · intro s mem
    obtain ⟨older, -, rfl⟩ := List.mem_map.mp mem
    rfl
  · apply List.pairwise_cons.mpr
    constructor
    · intro s mem
      obtain ⟨older, older_mem, rfl⟩ := List.mem_map.mp mem
      obtain ⟨-, r', given_r', lawful'⟩ := earlier older older_mem
      rw [lawful'.superseded.version_eq, lawful.version_eq, version_last]
      exact (recorded.version_of_given given_r').2
    · exact List.pairwise_map.mpr descending

theorem Recorded.insertScore (recorded : Recorded allowed given m)
    (admitted : m.Admits allowed score) :
    Recorded allowed given (insertScore score m).2 where
  numbered := recorded.numbered
  committed := recorded.committed
  orderly entity := by
    have prepended := prepended_insertScore (m := m) rfl admitted.1
    by_cases asked : entity = score.entity
    · subst asked
      rw [prepended.history]
      exact recorded.orderly_cons admitted
    · rw [prepended.others entity asked]
      exact recorded.orderly entity

/-- A history stays orderly when more rulesets are committed. -/
theorem Orderly.mono {given given' : List Ruleset} {entity : EntityRef} {history : List Score}
    (orderly : Orderly allowed given entity history) (more : given ⊆ given') :
    Orderly allowed given' entity history where
  lawful s mem := by
    obtain ⟨owned, r, given_r, lawful⟩ := orderly.lawful s mem
    exact ⟨owned, r, more given_r, lawful⟩
  newest_current := orderly.newest_current
  older_not_current := orderly.older_not_current
  descending := orderly.descending

/-- A ruleset of the next version that is committed is the last of its pair. -/
theorem Recorded.commit (recorded : Recorded allowed given m) {key : PairKey} {r : Ruleset}
    (next : r.version.toNat = (given key).length + 1) (scores : m'.scores = m.scores)
    (committed : m'.committed = Slots.put key r m.committed) :
    Recorded allowed (fun k => given k ++ (if key = k then some r else none).toList) m' where
  numbered k i r' found := by
    by_cases asked : k = key
    · subst asked
      rw [if_pos rfl, Option.toList_some, List.getElem?_append] at found
      split at found
      · exact recorded.numbered k i r' found
      · rename_i beyond
        rw [List.getElem?_singleton] at found
        split at found
        · cases found
          omega
        · cases found
    · rw [if_neg (Ne.symm asked), Option.toList_none, List.append_nil] at found
      exact recorded.numbered k i r' found
  committed k := by
    rw [committed, Slots.get?_put]
    by_cases asked : k = key
    · simp [asked]
    · simpa [asked, Ne.symm asked] using recorded.committed k
  orderly entity := by
    rw [history, scores]
    exact (recorded.orderly entity).mono (List.subset_append_left _ _)

end Memory

/-! ### What steps do -/

namespace Lifecycle

variable {c : LifecycleConfig} {entity : EntityRef} {w after : World Memory} {score : Score}

/-- A computed score may be put into the store. -/
theorem admits_of_refresh (ran : refresh Memory.backend c entity w = (.ok score, after)) :
    w.store.Admits c.allowed score ∧ after.store = (Memory.insertScore score w.store).2 := by
  obtain ⟨ruleset, env, record, committed, -, executed, rfl, rfl⟩ := eq_of_refresh ran
  refine ⟨⟨rfl, ruleset, committed, rfl, ?_, by simp, nofun, fun _ => rfl⟩, rfl⟩
  exact Scoring.one_le_score_of_execute executed

/-- A score set by hand may be put into the store. -/
theorem admits_of_override {actor : String} {value : Int64} {staleAt : Option Timestamp}
    (ran : override Memory.backend c actor entity value staleAt w = (.ok score, after)) :
    w.store.Admits c.allowed score ∧ after.store = (Memory.insertScore score w.store).2 := by
  obtain ⟨allowed, -, ruleset, committed, low, high, rfl, rfl⟩ := eq_of_override ran
  refine ⟨⟨rfl, ruleset, committed, rfl, low, by simp, ?_, nofun⟩, rfl⟩
  rintro _ ⟨⟩
  exact ⟨allowed, high⟩

end Lifecycle

namespace Session

variable {c : Settings} {given : PairKey → List Ruleset} {w : World Memory} {step : Step}

/-- The ruleset of a pair that the step commits. -/
def Step.committed (key : PairKey) (w : World Memory) : Step → Option Ruleset
  | .commit k => if k = key then (Workflow.commit Memory.backend k w).1.toOption else none
  | _ => none

/-- The rulesets of a pair that the steps of a run commit, one after the other. -/
def committed (c : Settings) (key : PairKey) : List Step → World Memory → List Ruleset
  | [], _ => []
  | step :: rest, w => (step.committed key w).toList ++ committed c key rest (step.after c w)

theorem length_committed (key : PairKey) (step : Step) (w : World Memory) :
    (step.committed key w).toList.length = (commits key step w).toNat := by
  cases step with
  | commit k =>
    rw [Step.committed, commits]
    by_cases asked : k = key
    · cases (Workflow.commit Memory.backend k w).1 <;>
        simp [asked, Except.toOption, Except.isOk, Except.toBool]
    · simp [asked]
  | _ => rfl

/-- What a step does to the scores in the store: nothing, or it adds one. -/
theorem scores_after_cases (c : Settings) (w : World Memory) (step : Step) :
    (step.after c w).store.scores = w.store.scores ∨
    ∃ score, w.store.Admits c.lifecycle.allowed score ∧
      (step.after c w).store = (Memory.insertScore score w.store).2 := by
  have refreshing : ∀ (entity : EntityRef) (w : World Memory),
      (Lifecycle.refresh Memory.backend c.lifecycle entity w).2.store.scores = w.store.scores ∨
      ∃ score, w.store.Admits c.lifecycle.allowed score ∧
        (Lifecycle.refresh Memory.backend c.lifecycle entity w).2.store
          = (Memory.insertScore score w.store).2 := by
    intro entity w
    cases ran : Lifecycle.refresh Memory.backend c.lifecycle entity w with
    | mk r after =>
      cases r with
      | ok score => exact .inr ⟨score, Lifecycle.admits_of_refresh ran⟩
      | error e => exact .inl (congrArg Memory.scores (Lifecycle.refresh_atomic ran))
  cases step with
  | refresh entity => exact refreshing entity w
  | work position =>
    rw [Step.after]
    split
    · exact .inl rfl
    · rename_i job rest taken
      rw [← takeJob?_keeps taken]
      cases job with
      | recomputeScore entity =>
        simp only [Lifecycle.work_recomputeScore_snd]
        exact refreshing entity rest
      | createIndexes organization indexes =>
        exact .inl (Lifecycle.work_createIndexes_keeps (World.quiet_of_store Memory.scores)
          (fun _ _ => rfl) rest)
  | getActive policy entity =>
    cases ran : Lifecycle.getActive Memory.backend c.lifecycle policy entity w with
    | mk r after =>
      rw [Step.after, ran]
      cases r with
      | ok score =>
        rcases Lifecycle.refresh_of_getActive ran with ⟨w₁, same, refreshed⟩ | ⟨-, kept⟩
        · rw [← same]
          exact .inr ⟨score, Lifecycle.admits_of_refresh refreshed⟩
        · exact .inl (congrArg Memory.scores kept)
      | error e => exact .inl (congrArg Memory.scores (Lifecycle.getActive_atomic ran))
  | override actor entity value staleAt =>
    cases ran : Lifecycle.override Memory.backend c.lifecycle actor entity value staleAt w with
    | mk r after =>
      rw [Step.after, ran]
      cases r with
      | ok score => exact .inr ⟨score, Lifecycle.admits_of_override ran⟩
      | error e => exact .inl (congrArg Memory.scores (Lifecycle.override_atomic ran))
  | _ => exact .inl (after_scores c w rfl)

/-- Only commits change committed rulesets. -/
theorem after_committed (c : Settings) (w : World Memory) (silent : ∀ key, step ≠ .commit key) :
    (step.after c w).store.committed = w.store.committed := by
  refine after_keeps (World.quiet_of_store Memory.committed) c (fun write made w => ?_) w
  cases write with
  | commitDraft key => cases step <;> simp_all [Step.Makes]
  | replaceDraft ruleset => rw [Write.apply, Memory.replaceDraft_eq]
  | markPending organization i => rw [Write.apply, Memory.markPending_eq]
  | _ => rfl

/-! ### Steps and runs -/

/-- The step: what it commits is the next version of its pair, and the score that it adds is one of
the committed ruleset. -/
theorem recorded_after
    (versioned : w.store.Versioned c.maxThresholds fun key => (given key).length)
    (recorded : w.store.Recorded c.lifecycle.allowed given) (step : Step) :
    (step.after c w).store.Recorded c.lifecycle.allowed
      fun key => given key ++ (step.committed key w).toList := by
  by_cases committing : ∃ key, step = .commit key
  · obtain ⟨key, rfl⟩ := committing
    cases ran : Workflow.commit Memory.backend key w with
    | mk r after =>
      rw [Step.after, ran]
      simp only [Step.committed, ran]
      cases r with
      | ok ruleset =>
        -- The draft has been one version above all that had been committed.
        obtain ⟨draft, held, rfl, stored⟩ := Workflow.store_of_commit ran
        obtain ⟨-, -, next, -⟩ := versioned.draft key draft held
        rw [stored]
        exact recorded.commit next rfl rfl
      | error e =>
        rw [Workflow.commit_atomic ran]
        simpa [Except.toOption] using recorded
  · have silent : ∀ key, step ≠ .commit key := fun key same => committing ⟨key, same⟩
    have none_committed : ∀ key, step.committed key w = none := by
      intro key
      cases step with
      | commit k => exact absurd rfl (silent k)
      | _ => rfl
    simp only [none_committed, Option.toList_none, List.append_nil]
    rcases scores_after_cases c w step with same | ⟨score, admitted, added⟩
    · exact recorded.of_same same (after_committed c w silent)
    · rw [added]
      exact recorded.insertScore admitted

theorem recorded_run
    (versioned : w.store.Versioned c.maxThresholds fun key => (given key).length)
    (recorded : w.store.Recorded c.lifecycle.allowed given) (steps : List Step) :
    (run c steps w).store.Recorded c.lifecycle.allowed
      fun key => given key ++ committed c key steps w := by
  induction steps generalizing given w with
  | nil => simpa [run, committed] using recorded
  | cons step rest ih =>
    have counted := versioned_after versioned step
    simp only [← length_committed, ← List.length_append] at counted
    have later := ih counted (recorded_after versioned recorded step)
    simp only [List.append_assoc] at later
    exact later

/-- The step: from an orderly store, a history gets at most one score in front. -/
theorem extended_after (recorded : w.store.Recorded c.lifecycle.allowed given) (step : Step) :
    w.store.Extended (step.after c w).store := by
  rcases scores_after_cases c w step with same | ⟨score, admitted, added⟩
  · refine .inl fun entity => ?_
    rw [Memory.history, Memory.history, same]
  · have prepended := Memory.prepended_insertScore (m := w.store) rfl admitted.1
    rw [added]
    refine .inr ⟨score, ?_, prepended.others, prepended.rest⟩
    rw [prepended.history, (recorded.orderly score.entity).map_superseded]

/-- **Histories over a whole session.** After any steps from an empty store, every history is
orderly: its first score is its only current one and the one given as current, every score is one
that a ruleset committed for its pair allows, and versions never rise towards older scores. They lie
between 1 and the version of the committed ruleset, and name the committed rulesets in their order.
Every further step leaves all histories as they are or puts one score in front of one of them. -/
theorem histories_of_run (c : Settings) (steps : List Step) {w : World Memory}
    (started : w.store = .empty) (entity : EntityRef) {m : Memory}
    (reached : m = (run c steps w).store) :
    Memory.Orderly c.lifecycle.allowed (committed c entity.key steps w) entity
      (m.history entity) ∧
    m.currentScore entity = (m.history entity).head? ∧
    (∀ s ∈ m.history entity, ∃ v last, s.rulesetVersion = some v ∧
      Slots.get? entity.key m.committed = some last ∧
      1 ≤ v.toNat ∧ v.toNat ≤ last.version.toNat) ∧
    (∀ i r, (committed c entity.key steps w)[i]? = some r → r.version.toNat = i + 1) ∧
    ∀ step : Step, m.Extended (step.after c (run c steps w)).store := by
  have first_version : w.store.Versioned c.maxThresholds fun _ => ([] : List Ruleset).length :=
    started ▸ Memory.versioned_empty
  have no_record : w.store.Recorded c.lifecycle.allowed fun _ => [] :=
    started ▸ Memory.recorded_empty
  have recorded := recorded_run first_version no_record steps
  simp only [List.nil_append] at recorded
  have extended := extended_after recorded
  rw [← reached] at recorded extended
  have orderly := recorded.orderly entity
  refine ⟨orderly, orderly.currentScore_eq, ?_, recorded.numbered entity.key, extended⟩
  intro s mem
  obtain ⟨-, r, given_r, lawful⟩ := orderly.lawful s mem
  obtain ⟨last, held⟩ : ∃ last, Slots.get? entity.key m.committed = some last := by
    rw [recorded.committed entity.key]
    exact ⟨_, List.getLast?_eq_some_getLast (List.ne_nil_of_mem given_r)⟩
  obtain ⟨low, high⟩ := recorded.version_of_given given_r
  obtain ⟨-, version_last⟩ := recorded.version_of_held held
  exact ⟨r.version, last, lawful.version, held, low, version_last ▸ high⟩

/-- An entity is scored and its score set by hand; then a ruleset with more thresholds is committed,
and the entity scored again. -/
def Sample.rescored : List Step :=
  [.create Sample.request, .commit Sample.pair,
    .putEntity Sample.entity Facts.empty.toEnvironment, .getActive ⟨none, false⟩ Sample.entity,
    .override "analyst" Sample.entity 2 none,
    .create { Sample.request with thresholds := [0, 5, 10] }, .commit Sample.pair,
    .refresh Sample.entity]

/-- Three scores, of which the newest is current and from the second ruleset, and the one set by hand
is within the range of the first. -/
theorem histories_of_run_rescored : ∃ m newest set first,
    m = (run Sample.settings Sample.rescored Sample.world).store ∧
    m.history Sample.entity = [newest, set, first] ∧
    m.currentScore Sample.entity = some newest ∧
    newest.score = 4 ∧ newest.version = 2 ∧ set.version = 1 ∧ first.version = 1 ∧
    set.source = .override ∧ set.isCurrent = false ∧
    ∃ r ∈ committed Sample.settings Sample.pair Sample.rescored Sample.world,
      set.Lawful ["analyst"] r := by
  obtain ⟨orderly, current, -⟩ :=
    histories_of_run Sample.settings Sample.rescored (w := Sample.world) rfl Sample.entity rfl
  refine ⟨_, _, _, _, rfl, rfl, current, rfl, rfl, rfl, rfl, rfl, rfl, ?_⟩
  exact (orderly.lawful _ (.tail _ (.head _))).2

end Session

end RiskRules
