import RiskRules.Proofs.Session

/-!
Drafts, committed rulesets and their versions over whole sessions. The invariant counts the commits
of each pair: a committed ruleset has that number as its version and a draft the next one
(`Memory.Versioned`). Creating and committing keep it, whatever else happens in between, so it
holds after every session that starts with an empty store (`Session.rulesets_of_run`).
-/

namespace RiskRules

/-! ### The invariant -/

/-- Every slot holds a sound ruleset of its own pair and of its own status, with the number of
commits of the pair as the version of a committed ruleset and the next number as that of a draft. -/
structure Memory.Versioned (maxThresholds : Nat) (commits : PairKey → Nat) (m : Memory) : Prop where
  drafts_distinct : Slots.Distinct m.drafts
  committed_distinct : Slots.Distinct m.committed
  draft : ∀ key r, Slots.get? key m.drafts = some r → r.status = .draft ∧ r.key = key ∧
    r.version.toNat = commits key + 1 ∧ r.Sound maxThresholds
  committed : ∀ key r, Slots.get? key m.committed = some r → r.status = .committed ∧ r.key = key ∧
    r.version.toNat = commits key ∧ r.Sound maxThresholds
  uncommitted : ∀ key, Slots.get? key m.committed = none → commits key = 0

namespace Memory

variable {maxThresholds : Nat} {commits : PairKey → Nat} {m : Memory}

theorem versioned_empty : Versioned maxThresholds (fun _ => 0) empty where
  drafts_distinct := Slots.distinct_nil
  committed_distinct := Slots.distinct_nil
  draft := nofun
  committed := nofun
  uncommitted _ _ := rfl

theorem Versioned.of_rulesets {other : Memory} (versioned : Versioned maxThresholds commits m)
    (same : other.rulesets = m.rulesets) : Versioned maxThresholds commits other := by
  obtain ⟨same_drafts, same_committed⟩ := Prod.mk.inj same
  obtain ⟨drafts_distinct, committed_distinct, draft, committed, uncommitted⟩ := versioned
  rw [← same_drafts] at drafts_distinct draft
  rw [← same_committed] at committed_distinct committed uncommitted
  exact ⟨drafts_distinct, committed_distinct, draft, committed, uncommitted⟩

/-- The version after the committed one is one more than the number of commits. -/
theorem Versioned.next (versioned : Versioned maxThresholds commits m) {key : PairKey}
    {version : UInt32}
    (next : Workflow.nextVersion (Slots.get? key m.committed) = .ok version) :
    version.toNat = commits key + 1 := by
  cases found : Slots.get? key m.committed with
  | none =>
    rw [found] at next
    rw [Workflow.nextVersion_none next, versioned.uncommitted key found]
  | some committed =>
    rw [found] at next
    rw [Workflow.nextVersion_some next, (versioned.committed key committed found).2.2.1]

/-- A sound draft of the next version may take the place of any draft of its pair. -/
theorem Versioned.replaceDraft (versioned : Versioned maxThresholds commits m) {r : Ruleset}
    (status : r.status = .draft) (version : r.version.toNat = commits r.key + 1)
    (sound : r.Sound maxThresholds) :
    Versioned maxThresholds commits { m with drafts := Slots.put r.key r m.drafts } where
  drafts_distinct := versioned.drafts_distinct.put
  committed_distinct := versioned.committed_distinct
  draft key held found := by
    rw [Slots.get?_put] at found
    split at found
    · rename_i asked
      cases found
      exact ⟨status, asked.symm, asked ▸ version, sound⟩
    · exact versioned.draft key held found
  committed := versioned.committed
  uncommitted := versioned.uncommitted

/-- Moving a draft to the place of the committed ruleset is one more commit of its pair. -/
theorem Versioned.commitDraft (versioned : Versioned maxThresholds commits m) {key : PairKey}
    {draft : Ruleset} (held : Slots.get? key m.drafts = some draft) :
    Versioned maxThresholds (fun k => commits k + (decide (key = k)).toNat) { m with
      drafts := Slots.remove key m.drafts
      committed := Slots.put key { draft with status := .committed } m.committed } where
  drafts_distinct := versioned.drafts_distinct.remove
  committed_distinct := versioned.committed_distinct.put
  draft k r found := by
    rw [Slots.get?_remove] at found
    split at found
    · cases found
    · rename_i other
      simpa [Ne.symm other] using versioned.draft k r found
  committed k r found := by
    rw [Slots.get?_put] at found
    split at found
    · rename_i asked
      subst asked
      cases found
      obtain ⟨-, key_eq, version, sound⟩ := versioned.draft k draft held
      exact ⟨rfl, key_eq, by simpa using version, ⟨sound.1, sound.2, sound.3, sound.4⟩⟩
    · rename_i other
      simpa [Ne.symm other] using versioned.committed k r found
  uncommitted k found := by
    rw [Slots.get?_put] at found
    split at found
    · cases found
    · rename_i other
      simpa [Ne.symm other] using versioned.uncommitted k found

end Memory

namespace Session

variable {c : Settings} {counted : PairKey → Nat} {w : World Memory}

/-! ### Steps and runs -/

/-- The step: whatever happens, commits are counted and everything else stays as it was. -/
theorem versioned_after (versioned : w.store.Versioned c.maxThresholds counted) (step : Step) :
    (step.after c w).store.Versioned c.maxThresholds
      fun key => counted key + (commits key step w).toNat := by
  cases step with
  | create request =>
    cases ran : Workflow.create Memory.backend c.maxThresholds request w with
    | mk r after =>
      rw [Step.after, ran]
      cases r with
      | ok ruleset =>
        obtain ⟨key_eq, draft, next, sound, stored⟩ := Workflow.store_of_create ran
        rw [← key_eq] at next stored
        rw [stored]
        exact versioned.replaceDraft draft (versioned.next next) sound
      | error e =>
        rw [Workflow.create_atomic ran]
        exact versioned
  | commit key =>
    cases ran : Workflow.commit Memory.backend key w with
    | mk r after =>
      rw [Step.after, ran]
      simp only [commits, ran]
      cases r with
      | ok ruleset =>
        obtain ⟨draft, held, rfl, stored⟩ := Workflow.store_of_commit ran
        rw [stored]
        simpa using versioned.commitDraft held
      | error e =>
        rw [Workflow.commit_atomic ran]
        simpa using versioned
  | _ => exact versioned.of_rulesets (after_rulesets c w rfl)

theorem versioned_run (versioned : w.store.Versioned c.maxThresholds counted)
    (steps : List Step) : (run c steps w).store.Versioned c.maxThresholds
      fun key => counted key + occurrences c (commits key) steps w := by
  induction steps generalizing counted w with
  | nil => exact versioned
  | cons step rest ih =>
    have later := ih (versioned_after versioned step)
    simp only [Nat.add_assoc] at later
    exact later

/-- **Rulesets over a whole session.** After any steps from an empty store, the draft of a pair is a
draft of that pair, of the version after the committed one or of version 1; the committed ruleset is
a committed one of that pair, with as many commits of the pair behind it as its version says; and
every stored ruleset is sound, whatever ids were drawn and whatever failed. -/
theorem rulesets_of_run (c : Settings) (steps : List Step) {w : World Memory}
    (started : w.store = .empty) (key : PairKey) {m : Memory}
    (reached : m = (run c steps w).store) :
    (∀ draft, Slots.get? key m.drafts = some draft → draft.status = .draft ∧ draft.key = key ∧
      (Slots.get? key m.committed = none → draft.version.toNat = 1) ∧
      ∀ committed, Slots.get? key m.committed = some committed →
        draft.version.toNat = committed.version.toNat + 1) ∧
    (∀ committed, Slots.get? key m.committed = some committed →
      committed.status = .committed ∧ committed.key = key ∧
      committed.version.toNat = occurrences c (commits key) steps w) ∧
    (Slots.get? key m.committed = none → occurrences c (commits key) steps w = 0) ∧
    ∀ slot ∈ m.drafts ++ m.committed, slot.2.Sound c.maxThresholds := by
  have versioned := versioned_run (started ▸ Memory.versioned_empty) (c := c) steps
  rw [← reached] at versioned
  simp only [Nat.zero_add] at versioned
  refine ⟨fun draft held => ?_, fun committed held => ?_, versioned.uncommitted key, ?_⟩
  · obtain ⟨status, key_eq, version, -⟩ := versioned.draft key draft held
    refine ⟨status, key_eq, fun none_committed => ?_, fun committed found => ?_⟩
    · rw [version, versioned.uncommitted key none_committed]
    · rw [version, (versioned.committed key committed found).2.2.1]
  · obtain ⟨status, key_eq, version, -⟩ := versioned.committed key committed held
    exact ⟨status, key_eq, version⟩
  · intro slot mem
    rcases List.mem_append.mp mem with mem | mem
    · have held := versioned.drafts_distinct.get?_eq_some_iff.mpr mem
      exact (versioned.draft slot.1 slot.2 held).2.2.2
    · have held := versioned.committed_distinct.get?_eq_some_iff.mpr mem
      exact (versioned.committed slot.1 slot.2 held).2.2.2

/-- A ruleset is committed, and its rule taken over under the drawn id into a draft with another
rule. -/
def Sample.takeOver : List Step :=
  [.create Sample.request, .commit Sample.pair, .create { Sample.request with rules :=
    [⟨some "id-0", "large", "", none⟩, ⟨none, "other", "", some Sample.body⟩] }]

/-- The draft that takes a rule over is one version above the committed ruleset. -/
theorem rulesets_of_run_takeOver : ∃ m draft committed,
    m = (run Sample.settings Sample.takeOver Sample.world).store ∧
    Slots.get? Sample.pair m.drafts = some draft ∧
    Slots.get? Sample.pair m.committed = some committed ∧
    draft.rules.map Rule.stableId = ["id-0", "id-1"] ∧ draft.status = .draft ∧
    draft.version.toNat = committed.version.toNat + 1 ∧ committed.version.toNat = 1 ∧
    ∀ slot ∈ m.drafts ++ m.committed, slot.2.Sound Sample.settings.maxThresholds := by
  refine ⟨_, _, _, rfl, rfl, rfl, rfl, ?_⟩
  obtain ⟨drafts, committed, -, sound⟩ :=
    rulesets_of_run Sample.settings Sample.takeOver (w := Sample.world) rfl Sample.pair rfl
  obtain ⟨status, -, -, version⟩ := drafts _ rfl
  obtain ⟨-, -, counted⟩ := committed _ rfl
  exact ⟨status, version _ rfl, counted, sound⟩

end Session

end RiskRules
