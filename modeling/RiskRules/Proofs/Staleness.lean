import RiskRules.Lifecycle
import RiskRules.Proofs.Action
import RiskRules.Store.Memory

/-!
When scores go stale, with any store and whatever its calls answer. A score with a deadline is
judged by it alone (`Lifecycle.isStale_of_deadline`) and one set by hand without a deadline is never
stale (`Lifecycle.isStale_of_override`); a computed one without a deadline is judged by a window that
does not depend on the time (`Lifecycle.isStale_of_computed`). So what is stale stays stale
(`Lifecycle.isStale_later`), and the more so the shorter the window (`Lifecycle.isStale_shorter`).
-/

namespace RiskRules

namespace Duration

/-- A span that is no longer than another has no more whole seconds. -/
theorem seconds_le_of_toNanos_le {shorter longer : Duration}
    (le : shorter.toNanos ≤ longer.toNanos) : shorter.seconds.toNat ≤ longer.seconds.toNat := by
  have below := shorter.nanos_lt
  have below' := longer.nanos_lt
  rw [toNanos, toNanos] at le
  omega

end Duration

namespace Lifecycle

variable {σ : Type} {b : Backend σ} {c : LifecycleConfig} {policy : RefreshPolicy} {score : Score}
  {created now later : Timestamp} {window shorter longer : Duration} {w : World σ}

/-! ### Outlived windows -/

theorem outlived_iff : outlived created now window = true ↔
    window.seconds.toNat < 0x8000000000000000 ∧
      (window.toNanos : Int) < now.instant - created.instant := by
  rw [outlived, Bool.and_eq_true, decide_eq_true_iff, decide_eq_true_iff]

theorem outlived_later (le : now.instant ≤ later.instant)
    (before : outlived created now window = true) : outlived created later window = true := by
  obtain ⟨counted, less⟩ := outlived_iff.mp before
  exact outlived_iff.mpr ⟨counted, by omega⟩

theorem outlived_shorter (le : shorter.toNanos ≤ longer.toNanos)
    (beyond : outlived created now longer = true) : outlived created now shorter = true := by
  obtain ⟨counted, less⟩ := outlived_iff.mp beyond
  have seconds := Duration.seconds_le_of_toNanos_le le
  exact outlived_iff.mpr ⟨by omega, by omega⟩

/-- No window is outlived by a score that is not older than now, not even an empty one. -/
theorem outlived_of_not_after (le : now.instant ≤ created.instant) :
    outlived created now window = false := by
  rw [← Bool.not_eq_true, outlived_iff]
  omega

/-! ### Staleness -/

/-- The window that counts: the one that was asked for, or else the lifetime of scores of the
entity. -/
def windowFor (b : Backend σ) (c : LifecycleConfig) (policy : RefreshPolicy) (entity : EntityRef) :
    Action (World σ) LifecycleError Duration :=
  match policy.window with
  | some window => Action.give window
  | none => rulesetWindow b c entity

theorem isStale_of_deadline {deadline : Timestamp} (until_then : score.staleAt = some deadline) :
    isStale b c policy now score w = (.ok (decide (deadline.instant ≤ now.instant)), w) := by
  rw [isStale, until_then]
  rfl

theorem isStale_of_override (endless : score.staleAt = none) (by_hand : score.source = .override) :
    isStale b c policy now score w = (.ok false, w) := by
  rw [isStale, endless]
  simp only [by_hand, if_true]
  rfl

/-- A computed score without a deadline is judged by the window that counts, which the time does not
change. -/
theorem isStale_of_computed (endless : score.staleAt = none) (computed : score.source = .ruleset) :
    isStale b c policy now score =
      (outlived score.createdAt now ·) <$> windowFor b c policy score.entity := by
  rw [isStale, endless, windowFor]
  simp only [computed, reduceCtorEq, if_false]
  cases policy.window with
  | some window => rfl
  | none => rfl

/-- A computed score without a deadline is stale exactly if it outlived the window that counts. -/
theorem isStale_computed_iff (endless : score.staleAt = none) (computed : score.source = .ruleset) :
    (isStale b c policy now score w).1 = .ok true ↔
      ∃ window, (windowFor b c policy score.entity w).1 = .ok window ∧
        outlived score.createdAt now window = true := by
  rw [isStale_of_computed endless computed, Action.map_apply]
  cases (windowFor b c policy score.entity w).1 <;> simp [Except.map]

/-- A score that is stale stays so. -/
theorem isStale_later (le : now.instant ≤ later.instant)
    (stale : (isStale b c policy now score w).1 = .ok true) :
    (isStale b c policy later score w).1 = .ok true := by
  cases until_then : score.staleAt with
  | some deadline =>
    rw [isStale_of_deadline until_then] at stale ⊢
    have passed : deadline.instant ≤ now.instant := by simpa using stale
    simp only [Int.le_trans passed le, decide_true]
  | none =>
    cases source : score.source with
    | override =>
      rw [isStale_of_override until_then source] at stale
      cases stale
    | ruleset =>
      rw [isStale_computed_iff until_then source] at stale ⊢
      obtain ⟨window, counts, before⟩ := stale
      exact ⟨window, counts, outlived_later le before⟩

/-- A score that is stale under a window is stale under a shorter one. -/
theorem isStale_shorter {background background' : Bool} (le : shorter.toNanos ≤ longer.toNanos)
    (stale : (isStale b c ⟨some longer, background⟩ now score w).1 = .ok true) :
    (isStale b c ⟨some shorter, background'⟩ now score w).1 = .ok true := by
  cases until_then : score.staleAt with
  | some deadline =>
    rw [isStale_of_deadline until_then] at stale ⊢
    exact stale
  | none =>
    cases source : score.source with
    | override =>
      rw [isStale_of_override until_then source] at stale
      cases stale
    | ruleset =>
      rw [isStale_computed_iff until_then source] at stale ⊢
      obtain ⟨window, counts, beyond⟩ := stale
      cases counts
      exact ⟨shorter, rfl, outlived_shorter le beyond⟩

/-- A computed score without a deadline is not stale before it has any age. -/
theorem isStale_of_not_after (endless : score.staleAt = none) (computed : score.source = .ruleset)
    (le : now.instant ≤ score.createdAt.instant) :
    (isStale b c policy now score w).1 ≠ .ok true := by
  rw [Ne, isStale_computed_iff endless computed]
  rintro ⟨window, -, beyond⟩
  rw [outlived_of_not_after le] at beyond
  cases beyond

/-- **Staleness never turns back.** Whatever the store and its state, under one policy a score that
is stale at a time is stale at any later time, and one that is stale under a window of its own is
stale under every shorter window, however long the two are. A score with a deadline is stale exactly
from the deadline on, under every policy; one set by hand without a deadline is never stale; and a
computed one without a deadline is not stale at or before the time of its creation. -/
theorem staleness_monotone (b : Backend σ) (c : LifecycleConfig) (score : Score) (w : World σ) :
    (∀ (policy : RefreshPolicy) (now later : Timestamp), now.instant ≤ later.instant →
      (isStale b c policy now score w).1 = .ok true →
      (isStale b c policy later score w).1 = .ok true) ∧
    (∀ (shorter longer : Duration) (background background' : Bool) (now : Timestamp),
      shorter.toNanos ≤ longer.toNanos →
      (isStale b c ⟨some longer, background⟩ now score w).1 = .ok true →
      (isStale b c ⟨some shorter, background'⟩ now score w).1 = .ok true) ∧
    (∀ deadline, score.staleAt = some deadline → ∀ (policy : RefreshPolicy) (now : Timestamp),
      (isStale b c policy now score w).1 = .ok (decide (deadline.instant ≤ now.instant))) ∧
    (score.source = .override → score.staleAt = none →
      ∀ (policy : RefreshPolicy) (now : Timestamp),
        (isStale b c policy now score w).1 = .ok false) ∧
    (score.source = .ruleset → score.staleAt = none →
      ∀ (policy : RefreshPolicy) (now : Timestamp), now.instant ≤ score.createdAt.instant →
        (isStale b c policy now score w).1 ≠ .ok true) := by
  refine ⟨fun _ _ _ => isStale_later, fun _ _ _ _ _ => isStale_shorter,
    fun deadline until_then policy now => ?_, fun by_hand endless policy now => ?_,
    fun computed endless _ _ => isStale_of_not_after endless computed⟩
  · rw [isStale_of_deadline until_then]
  · rw [isStale_of_override endless by_hand]

namespace Sample

/-- A score that has been computed at the epoch. -/
def computed : Score :=
  ⟨"id-0", ⟨"acme", "account", "a-1"⟩, 2, .ruleset, some 1, none, none, .epoch, true⟩

/-- The epoch and some seconds. -/
def after (seconds : Int) : Timestamp :=
  Timestamp.epoch.advance (seconds * Timestamp.second)

/-- Scores that last an hour. -/
def config : LifecycleConfig :=
  ⟨.standard, [], .ofSeconds 3600, true⟩

/-- A world without rulesets. -/
def world : World Memory :=
  .fresh .empty .epoch fun n => "id-" ++ toString n

/-- A score is stale in that world. -/
def stale (policy : RefreshPolicy) (now : Timestamp) (score : Score) : Except LifecycleError Bool :=
  (isStale Memory.backend config policy now score world).1

end Sample

/-- A score that is stale by the default after an hour and a second is so after a day, and under an
empty window it is stale at any age but none; a window beyond 63 bits of seconds never ends. -/
theorem staleness_monotone_of_sample :
    Sample.stale ⟨none, false⟩ (Sample.after 3600) Sample.computed = .ok false ∧
    Sample.stale ⟨none, false⟩ (Sample.after 86400) Sample.computed = .ok true ∧
    Sample.stale ⟨some (.ofSeconds 0), true⟩ (Sample.after 3600) Sample.computed = .ok true ∧
    Sample.stale ⟨some (.ofSeconds 0), true⟩ .epoch Sample.computed ≠ .ok true ∧
    Sample.stale ⟨some (.ofSeconds 0xffffffffffffffff), false⟩ (Sample.after 86400)
      Sample.computed = .ok false ∧
    Sample.stale ⟨none, false⟩ (Sample.after 60)
      { Sample.computed with staleAt := some (Sample.after 60) } = .ok true ∧
    Sample.stale ⟨some (.ofSeconds 0), false⟩ (Sample.after 86400)
      { Sample.computed with source := .override } = .ok false := by
  obtain ⟨stays, shorter, -, -, unaged⟩ :=
    staleness_monotone Memory.backend Sample.config Sample.computed Sample.world
  obtain ⟨-, -, deadline, -, -⟩ :=
    staleness_monotone Memory.backend Sample.config
      { Sample.computed with staleAt := some (Sample.after 60) } Sample.world
  obtain ⟨-, -, -, by_hand, -⟩ :=
    staleness_monotone Memory.backend Sample.config { Sample.computed with source := .override }
      Sample.world
  refine ⟨rfl, ?_, ?_, ?_, rfl, ?_, ?_⟩
  · exact stays ⟨none, false⟩ (Sample.after 3601) (Sample.after 86400) (by decide) rfl
  · exact shorter (.ofSeconds 0) (.ofSeconds 60) true false (Sample.after 3600) (by decide) rfl
  · exact unaged rfl rfl ⟨some (.ofSeconds 0), true⟩ .epoch (by decide)
  · exact deadline (Sample.after 60) rfl ⟨none, false⟩ (Sample.after 60)
  · exact by_hand rfl rfl ⟨some (.ofSeconds 0), false⟩ (Sample.after 86400)

end Lifecycle

end RiskRules
