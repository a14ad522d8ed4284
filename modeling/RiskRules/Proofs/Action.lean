import RiskRules.Action

/-!
Taking actions apart. What a sequence of actions did is what its first action did and then its
second, unless the first gave an error (`Action.bind_cases`). A part of the state that no action of
a sequence changes is kept by the sequence (`Action.Keeps`); if only its last action changes it, and
not when it fails, the sequence changes it only if it succeeds (`Action.Atomic`). States that no
action of a sequence tells apart are not told apart by the sequence (`Action.Respects`).
-/

namespace RiskRules.Action

variable {S ε ε' α β γ : Type} {x : Action S ε α} {f : α → Action S ε β} {part : S → γ} {s t : S}

/-! ### Results -/

theorem bind_cases {r : Except ε β} (ran : (x >>= f) s = (r, t)) :
    (∃ a u, x s = (.ok a, u) ∧ f a u = (r, t)) ∨ ∃ e, x s = (.error e, t) ∧ r = .error e := by
  rw [bind_apply] at ran
  cases h : x s with
  | mk result u =>
    rw [h] at ran
    cases result with
    | ok a => exact .inl ⟨a, u, rfl, ran⟩
    | error e =>
      obtain ⟨rfl, rfl⟩ := Prod.mk.inj ran
      exact .inr ⟨e, rfl, rfl⟩

theorem bind_eq_ok_iff {b : β} :
    (x >>= f) s = (.ok b, t) ↔ ∃ a u, x s = (.ok a, u) ∧ f a u = (.ok b, t) := by
  constructor
  · intro ran
    rcases bind_cases ran with ran | ⟨_, _, failed⟩
    · exact ran
    · cases failed
  · rintro ⟨a, u, given, ran⟩
    rw [bind_apply, given]
    exact ran

theorem bind_of_ok {a : α} (given : x s = (.ok a, t)) : (x >>= f) s = f a t := by
  rw [bind_apply, given]

theorem bind_of_error {e : ε} (failed : x s = (.error e, t)) : (x >>= f) s = (.error e, t) := by
  rw [bind_apply, failed]

theorem map_apply (g : α → β) (x : Action S ε α) (s : S) :
    (g <$> x) s = ((x s).1.map g, (x s).2) := by
  change (x >>= fun a => pure (g a)) s = _
  rw [bind_apply]
  cases x s with
  | mk result t => cases result <;> rfl

/-- What comes after an action and only puts its value in another form leaves the state. -/
theorem snd_bind_pure (g : α → β) (x : Action S ε α) (s : S) :
    ((x >>= fun a => pure (g a)) s).2 = (x s).2 := by
  rw [bind_apply]
  cases x s with
  | mk result t => cases result <;> rfl

theorem snd_restate (g : ε → ε') (x : Action S ε α) (s : S) : (x.restate g s).2 = (x s).2 := by
  rw [restate]
  cases x s with
  | mk result t => cases result <;> rfl

theorem map_fails_iff {g : α → β} :
    (∃ e, ((g <$> x) s).1 = .error e) ↔ ∃ e, (x s).1 = .error e := by
  rw [map_apply]
  cases (x s).1 <;> simp [Except.map]

/-- An action fails exactly if it gives nothing. -/
theorem exists_error_iff : (∃ e, (x s).1 = .error e) ↔ ¬∃ a t, x s = (.ok a, t) := by
  cases x s with
  | mk result t => cases result <;> simp

theorem restate_cases {g : ε → ε'} {r : Except ε' α} (ran : x.restate g s = (r, t)) :
    (∃ a, x s = (.ok a, t) ∧ r = .ok a) ∨ ∃ e, x s = (.error e, t) ∧ r = .error (g e) := by
  rw [restate] at ran
  cases h : x s with
  | mk result u =>
    rw [h] at ran
    cases result with
    | ok a =>
      obtain ⟨rfl, rfl⟩ := Prod.mk.inj ran
      exact .inl ⟨a, rfl, rfl⟩
    | error e =>
      obtain ⟨rfl, rfl⟩ := Prod.mk.inj ran
      exact .inr ⟨e, rfl, rfl⟩

theorem restate_eq_ok_iff {g : ε → ε'} {a : α} :
    x.restate g s = (.ok a, t) ↔ x s = (.ok a, t) := by
  constructor
  · intro ran
    rcases restate_cases ran with ⟨_, ran, same⟩ | ⟨_, _, failed⟩
    · rwa [Except.ok.inj same]
    · cases failed
  · intro ran
    rw [restate, ran]

theorem restate_of_error {g : ε → ε'} {e : ε} (failed : x s = (.error e, t)) :
    x.restate g s = (.error (g e), t) := by
  rw [restate, failed]

theorem ofExcept_eq_ok_iff {g : ε' → ε} {result : Except ε' α} {a : α} :
    (ofExcept g result : Action S ε α) s = (.ok a, t) ↔ result = .ok a ∧ s = t := by
  cases result with
  | ok b => simp [ofExcept, give]
  | error e => simp [ofExcept, fail]

theorem attempt_cases {r : Except ε (Except ε α)} (ran : x.attempt s = (r, t)) :
    ∃ result, x s = (result, t) ∧ r = .ok result := by
  obtain ⟨rfl, rfl⟩ := Prod.mk.inj ran
  exact ⟨_, rfl, rfl⟩

/-! ### What is left alone -/

/-- Leaves a part of the state as it is, whatever it gives. -/
def Keeps (part : S → γ) (x : Action S ε α) : Prop :=
  ∀ s, part (x s).2 = part s

theorem keeps_give (a : α) : (give a : Action S ε α).Keeps part :=
  fun _ => rfl

theorem keeps_pure (a : α) : (pure a : Action S ε α).Keeps part :=
  fun _ => rfl

theorem keeps_fail (e : ε) : (fail e : Action S ε α).Keeps part :=
  fun _ => rfl

theorem keeps_view (part : S → γ) (g : S → α) : (view g : Action S ε α).Keeps part :=
  fun _ => rfl

theorem keeps_ofExcept (part : S → γ) (g : ε' → ε) (result : Except ε' α) :
    (ofExcept g result : Action S ε α).Keeps part := by
  cases result with
  | ok a => exact keeps_give a
  | error e => exact keeps_fail (g e)

theorem Keeps.restate {g : ε → ε'} (keeps : x.Keeps part) : (x.restate g).Keeps part := by
  intro s
  cases ran : x.restate g s with
  | mk r t =>
    have kept := keeps s
    rcases restate_cases ran with ⟨a, given, -⟩ | ⟨e, given, -⟩ <;> rwa [given] at kept

theorem Keeps.bind (first : x.Keeps part) (second : ∀ a, (f a).Keeps part) :
    (x >>= f).Keeps part := by
  intro s
  cases ran : (x >>= f) s with
  | mk r t =>
    rcases bind_cases ran with ⟨a, u, given, ran⟩ | ⟨e, given, rfl⟩
    · have kept := first s
      rw [given] at kept
      have kept_on := second a u
      rw [ran] at kept_on
      exact kept_on.trans kept
    · have kept := first s
      rw [given] at kept
      exact kept

/-- A part of the state is what it was before, whatever was given. -/
theorem Keeps.after {r : Except ε α} (keeps : x.Keeps part) (ran : x s = (r, t)) :
    part t = part s := by
  have kept := keeps s
  rwa [ran] at kept

/-- What comes after an action and changes nothing leaves the action's state and its error. -/
theorem bind_cases_of_keeps {r : Except ε β} (still : ∀ a, (f a).Keeps id)
    (ran : (x >>= f) s = (r, t)) : ∃ first, x s = (first, t) ∧ ∀ e, first = .error e → r = .error e := by
  rcases bind_cases ran with ⟨a, u, given, ran⟩ | ⟨e, failed, rfl⟩
  · obtain rfl : t = u := (still a).after ran
    exact ⟨.ok a, given, fun e impossible => by cases impossible⟩
  · exact ⟨.error e, failed, fun _ same => by cases same; rfl⟩

/-! ### What is left alone by failures -/

/-- Leaves a part of the state as it is if it gives an error. -/
def Atomic (part : S → γ) (x : Action S ε α) : Prop :=
  ∀ ⦃s e t⦄, x s = (.error e, t) → part t = part s

theorem Keeps.atomic (keeps : x.Keeps part) : x.Atomic part :=
  fun _ _ _ ran => keeps.after ran

/-- What keeps a part of the state may come before what changes it. -/
theorem Keeps.bind_atomic (first : x.Keeps part) (second : ∀ a, (f a).Atomic part) :
    (x >>= f).Atomic part := by
  intro s e t ran
  rcases bind_cases ran with ⟨a, u, given, ran⟩ | ⟨_, given, -⟩
  · exact (second a ran).trans (first.after given)
  · exact first.after given

/-- What never fails may come after what changes a part of the state. -/
theorem Atomic.bind_pure (atomic : x.Atomic part) (g : α → β) :
    (x >>= fun a => pure (g a)).Atomic part := by
  intro s e t ran
  rcases bind_cases ran with ⟨a, u, -, ran⟩ | ⟨_, given, -⟩
  · cases ran
  · exact atomic given

theorem Atomic.map (atomic : x.Atomic part) (g : α → β) : (g <$> x).Atomic part :=
  atomic.bind_pure g

theorem Atomic.restate {g : ε → ε'} (atomic : x.Atomic part) : (x.restate g).Atomic part := by
  intro s e t ran
  rcases restate_cases ran with ⟨_, _, failed⟩ | ⟨_, given, -⟩
  · cases failed
  · exact atomic given

/-! ### What is not told apart -/

variable {R : S → S → Prop}

/-- Gives the same from related states, and related states after it. -/
def Respects (R : S → S → Prop) (x : Action S ε α) : Prop :=
  ∀ s t, R s t → (x s).1 = (x t).1 ∧ R (x s).2 (x t).2

theorem respects_give (a : α) : (give a : Action S ε α).Respects R :=
  fun _ _ related => ⟨rfl, related⟩

theorem respects_pure (a : α) : (pure a : Action S ε α).Respects R :=
  fun _ _ related => ⟨rfl, related⟩

theorem respects_fail (e : ε) : (fail e : Action S ε α).Respects R :=
  fun _ _ related => ⟨rfl, related⟩

theorem respects_ofExcept (g : ε' → ε) (result : Except ε' α) :
    (ofExcept g result : Action S ε α).Respects R := by
  cases result with
  | ok a => exact respects_give a
  | error e => exact respects_fail (g e)

theorem respects_view {g : S → α} (same : ∀ s t, R s t → g s = g t) :
    (view g : Action S ε α).Respects R :=
  fun s t related => ⟨congrArg Except.ok (same s t related), related⟩

theorem Respects.restate {g : ε → ε'} (respects : x.Respects R) : (x.restate g).Respects R := by
  intro s t related
  obtain ⟨same, after⟩ := respects s t related
  rw [Action.restate, Action.restate]
  cases first : x s with
  | mk r s' =>
    cases second : x t with
    | mk r' t' =>
      rw [first, second] at same after
      obtain rfl : r = r' := same
      cases r <;> exact ⟨rfl, after⟩

theorem Respects.attempt (respects : x.Respects R) : x.attempt.Respects R := by
  intro s t related
  obtain ⟨same, after⟩ := respects s t related
  exact ⟨congrArg Except.ok same, after⟩

/-- What comes after an action need respect the relation only for what the action gives. -/
theorem Respects.bind_given (first : x.Respects R)
    (second : ∀ s t, R s t → ∀ a u, x s = (.ok a, u) → (f a).Respects R) :
    (x >>= f).Respects R := by
  intro s t related
  obtain ⟨same, after⟩ := first s t related
  rw [bind_apply, bind_apply]
  cases ran : x s with
  | mk r s' =>
    cases ran' : x t with
    | mk r' t' =>
      rw [ran, ran'] at same after
      obtain rfl : r = r' := same
      cases r with
      | ok a => exact second s t related a s' ran s' t' after
      | error e => exact ⟨rfl, after⟩

theorem Respects.bind (first : x.Respects R) (second : ∀ a, (f a).Respects R) :
    (x >>= f).Respects R :=
  first.bind_given fun _ _ _ a _ _ => second a

end RiskRules.Action
