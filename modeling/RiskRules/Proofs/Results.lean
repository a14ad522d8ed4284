import Mathlib.Data.List.Forall2

/-!
Taking results apart: a sequence of computations gives a value exactly when each of them has given
one.
-/

namespace RiskRules

variable {ε α β : Type}

theorem bind_eq_ok_iff {x : Except ε α} {f : α → Except ε β} {b : β} :
    (x >>= f) = .ok b ↔ ∃ a, x = .ok a ∧ f a = .ok b := by
  cases x with
  | ok a => simp [bind, Except.bind]
  | error e => simp [bind, Except.bind]

theorem bind_eq_error_iff {x : Except ε α} {f : α → Except ε β} {e : ε} :
    (x >>= f) = .error e ↔ x = .error e ∨ ∃ a, x = .ok a ∧ f a = .error e := by
  cases x with
  | ok a => simp [bind, Except.bind]
  | error e => simp [bind, Except.bind]

/-- What stands behind a check gives a value only if the check did not fail. -/
theorem check_eq_ok_iff {p : Prop} [Decidable p] {e : ε} {f : PUnit → Except ε α} {a : α} :
    (if p then .error e >>= f else f ⟨⟩) = .ok a ↔ ¬p ∧ f ⟨⟩ = .ok a := by
  split <;> simp [*, bind, Except.bind]

theorem map_eq_ok_iff {f : α → β} {x : Except ε α} {b : β} :
    f <$> x = .ok b ↔ ∃ a, x = .ok a ∧ f a = b := by
  cases x with
  | ok a => simp [Functor.map, Except.map]
  | error e => simp [Functor.map, Except.map]

theorem exists_map_eq_ok_iff {f : α → β} {x : Except ε α} :
    (∃ b, f <$> x = .ok b) ↔ ∃ a, x = .ok a := by
  simp [map_eq_ok_iff]

theorem map_eq_error_iff {f : α → β} {x : Except ε α} {e : ε} :
    f <$> x = .error e ↔ x = .error e := by
  cases x with
  | ok a => simp [Functor.map, Except.map]
  | error e => simp [Functor.map, Except.map]

theorem pure_eq_ok_iff {a b : α} : (pure a : Except ε α) = .ok b ↔ a = b := by
  simp [pure, Except.pure]

/-- A list of computations gives the list of their values. -/
theorem mapM_eq_ok_iff {f : α → Except ε β} {items : List α} {values : List β} :
    items.mapM f = .ok values ↔ List.Forall₂ (fun a b => f a = .ok b) items values := by
  induction items generalizing values with
  | nil =>
    rw [List.mapM_nil, pure_eq_ok_iff, List.forall₂_nil_left_iff]
    exact eq_comm
  | cons item rest ih =>
    rw [List.mapM_cons, bind_eq_ok_iff]
    simp only [bind_eq_ok_iff, pure_eq_ok_iff, ih]
    constructor
    · rintro ⟨value, given, more, more_given, rfl⟩
      exact .cons given more_given
    · intro all
      cases all with
      | cons given more_given => exact ⟨_, given, _, more_given, rfl⟩

/-- A list of computations fails as the first of them that fails. -/
theorem mapM_eq_error_iff {f : α → Except ε β} {items : List α} {e : ε} :
    items.mapM f = .error e ↔ ∃ before item later, items = before ++ item :: later ∧
      (∀ earlier ∈ before, ∃ value, f earlier = .ok value) ∧ f item = .error e := by
  induction items with
  | nil => simp [pure, Except.pure]
  | cons first rest ih =>
    rw [List.mapM_cons]
    constructor
    · intro failed
      cases given : f first with
      | error e' =>
        rw [given] at failed
        cases failed
        exact ⟨[], first, rest, rfl, by simp, given⟩
      | ok value =>
        have rest_failed : rest.mapM f = .error e := by
          cases later : rest.mapM f with
          | error e' => rw [given, later] at failed; cases failed; rfl
          | ok values => rw [given, later] at failed; cases failed
        obtain ⟨before, item, later, rfl, earlier, item_failed⟩ := ih.mp rest_failed
        exact ⟨first :: before, item, later, rfl,
          List.forall_mem_cons.mpr ⟨⟨value, given⟩, earlier⟩, item_failed⟩
    · rintro ⟨before, item, later, split, earlier, failed⟩
      cases before with
      | nil =>
        obtain ⟨rfl, rfl⟩ := List.cons.inj split
        rw [failed]
        rfl
      | cons head before =>
        obtain ⟨rfl, rfl⟩ := List.cons.inj split
        obtain ⟨⟨value, given⟩, earlier⟩ := List.forall_mem_cons.mp earlier
        rw [given, ih.mpr ⟨before, item, later, rfl, earlier, failed⟩]
        rfl

/-- What stands behind a computation that fails does not matter. -/
theorem mapM_eq_of_error {f : α → Except ε β} {item : α} {e : ε} (failed : f item = .error e)
    (before later later' : List α) :
    (before ++ item :: later).mapM f = (before ++ item :: later').mapM f := by
  induction before with
  | nil => simp only [List.nil_append, List.mapM_cons, failed]; rfl
  | cons first rest ih =>
    rw [List.cons_append, List.cons_append, List.mapM_cons, List.mapM_cons, ih]

/-- A list of computations gives values exactly if each of them gives one. -/
theorem exists_mapM_eq_ok_iff {f : α → Except ε β} {items : List α} :
    (∃ values, items.mapM f = .ok values) ↔ ∀ item ∈ items, ∃ value, f item = .ok value := by
  induction items with
  | nil => simp [pure, Except.pure]
  | cons item rest ih =>
    rw [List.forall_mem_cons, ← ih]
    simp only [mapM_eq_ok_iff, List.forall₂_cons_left_iff]
    constructor
    · rintro ⟨_, value, more, given, more_given, rfl⟩
      exact ⟨⟨value, given⟩, more, more_given⟩
    · rintro ⟨⟨value, given⟩, more, more_given⟩
      exact ⟨_, value, more, given, more_given, rfl⟩

/-- Whatever stands in a list belongs to something in a list that is related to it item by item. -/
theorem exists_of_mem_right {R : α → β → Prop} {xs : List α} {ys : List β}
    (related : List.Forall₂ R xs ys) {y : β} (mem : y ∈ ys) : ∃ x ∈ xs, R x y := by
  induction related with
  | nil => exact absurd mem List.not_mem_nil
  | cons head rest ih =>
    rcases List.mem_cons.mp mem with rfl | mem
    · exact ⟨_, List.mem_cons_self, head⟩
    · obtain ⟨x, x_mem, holds⟩ := ih mem
      exact ⟨x, List.mem_cons_of_mem _ x_mem, holds⟩

theorem exists_of_mem_left {R : α → β → Prop} {xs : List α} {ys : List β}
    (related : List.Forall₂ R xs ys) {x : α} (mem : x ∈ xs) : ∃ y ∈ ys, R x y :=
  exists_of_mem_right related.flip mem

/-- Lists that are related item by item are related position by position. -/
theorem forall₂_getElem? {R : α → β → Prop} {as : List α} {bs : List β}
    (all : List.Forall₂ R as bs) (i : Nat) : Option.Rel R as[i]? bs[i]? := by
  induction all generalizing i with
  | nil => exact .none
  | cons here later ih =>
    cases i with
    | zero => exact .some here
    | succ i => exact ih i

/-- Related options go on to related options if what they hold does. -/
theorem optionRel_bind {γ δ : Type} {R : α → β → Prop} {S : γ → δ → Prop} {a : Option α}
    {b : Option β} {f : α → Option γ} {g : β → Option δ} (here : Option.Rel R a b)
    (later : ∀ x y, R x y → Option.Rel S (f x) (g y)) :
    Option.Rel S (a.bind f) (b.bind g) := by
  cases here with
  | none => exact .none
  | some related => exact later _ _ related

/-- What an option holds belongs to something that a related option holds. -/
theorem exists_of_optionRel {R : α → β → Prop} {a : Option α} {b : Option β} {y : β}
    (related : Option.Rel R a b) (held : b = some y) : ∃ x, a = some x ∧ R x y := by
  cases related with
  | none => cases held
  | some holds =>
    cases held
    exact ⟨_, rfl, holds⟩

theorem isSome_eq_of_optionRel {R : α → β → Prop} {a : Option α} {b : Option β}
    (related : Option.Rel R a b) : a.isSome = b.isSome := by
  cases related <;> rfl

/-- Where two lists have the same item, the items that it is related to are the same, if it is
related to one only. -/
theorem getElem?_eq_of_forall₂ {R : α → β → Prop} {as as' : List α} {bs bs' : List β}
    (unique : ∀ a b b', R a b → R a b' → b = b') {i : Nat} (all : List.Forall₂ R as bs)
    (all' : List.Forall₂ R as' bs') (same : as[i]? = as'[i]?) : bs[i]? = bs'[i]? := by
  have here := forall₂_getElem? all i
  have there := forall₂_getElem? all' i
  rw [← same] at there
  generalize as[i]? = a at here there
  generalize bs[i]? = b at here ⊢
  generalize bs'[i]? = b' at there ⊢
  cases here with
  | none => cases there; rfl
  | some related =>
    cases there with
    | some related' => exact congrArg some (unique _ _ _ related related')

/-- Values of which a part is taken from their items have that part in the order of the items. -/
theorem map_eq_of_forall₂ {γ : Type} {R : α → β → Prop} {part : α → γ} {part' : β → γ}
    {items : List α} {values : List β} (related : List.Forall₂ R items values)
    (same : ∀ item value, R item value → part' value = part item) :
    values.map part' = items.map part := by
  rw [← List.forall₂_eq_eq_eq, List.forall₂_map_left_iff, List.forall₂_map_right_iff]
  exact related.flip.imp fun value item => same item value

/-- What holds of the values is what makes it hold of them on the items. -/
theorem forall_mem_values_iff {f : α → Except ε β} {items : List α} {values : List β}
    {P : α → Prop} {Q : β → Prop} (given : items.mapM f = .ok values)
    (same : ∀ item ∈ items, ∀ value, f item = .ok value → (Q value ↔ P item)) :
    (∀ value ∈ values, Q value) ↔ ∀ item ∈ items, P item := by
  rw [mapM_eq_ok_iff] at given
  induction given with
  | nil => simp
  | cons here _ ih =>
    obtain ⟨same_here, same_later⟩ := List.forall_mem_cons.mp same
    rw [List.forall_mem_cons, List.forall_mem_cons, same_here _ here, ih same_later]

/-- Computations that differ by a demand on each value differ on a list by that demand on all. -/
theorem mapM_eq_ok_iff_of_demand {f g : α → Except ε β} {items : List α} {values : List β}
    {P : β → Prop}
    (same : ∀ item ∈ items, ∀ value, f item = .ok value ↔ g item = .ok value ∧ P value) :
    items.mapM f = .ok values ↔ items.mapM g = .ok values ∧ ∀ value ∈ values, P value := by
  rw [mapM_eq_ok_iff, mapM_eq_ok_iff]
  induction items generalizing values with
  | nil => simp +contextual
  | cons item rest ih =>
    obtain ⟨same_here, same_later⟩ := List.forall_mem_cons.mp same
    cases values with
    | nil => simp
    | cons value values =>
      rw [List.forall₂_cons, List.forall₂_cons, List.forall_mem_cons, same_here, ih same_later]
      exact and_and_and_comm

/-- A computation on what may be missing gives something exactly if it gives a value where there is
one. -/
theorem exists_option_mapM_eq_ok_iff {f : α → Except ε β} {item : Option α} :
    (∃ value, item.mapM f = .ok value) ↔ ∀ a ∈ item, ∃ b, f a = .ok b := by
  cases item with
  | none => simp [pure, Except.pure]
  | some a => simp [map_eq_ok_iff]

/-- Computations that are the same on every item of a list are the same on the list. -/
theorem mapM_congr {f g : α → Except ε β} {items : List α}
    (same : ∀ item ∈ items, f item = g item) : items.mapM f = items.mapM g := by
  induction items with
  | nil => rfl
  | cons item rest ih =>
    obtain ⟨here, later⟩ := List.forall_mem_cons.mp same
    rw [List.mapM_cons, List.mapM_cons, here, ih later]

theorem not_ok_iff {ε α : Type} {x : Except ε α} : (¬∃ a, x = .ok a) ↔ ∃ e, x = .error e := by
  cases x <;> simp

@[simp] theorem isOk_ok {a : α} : (.ok a : Except ε α).isOk = true := rfl

@[simp] theorem isOk_error {e : ε} : (.error e : Except ε α).isOk = false := rfl

end RiskRules
