import Mathlib.Data.List.Forall2
import RiskRules.Keyed

/-!
Pairs in ascending order of their keys. A pair stands in such a list exactly when its key is looked
up to its value (`Ascending.get?_eq_some_iff`), and `Keyed.ofList` gives such a list whatever order
its pairs come in (`ascending_ofList`), with no pair that it was not given (`mem_of_mem_ofList`). A
list that is in order already stays as it is (`Ascending.ofList_eq`).
-/

namespace RiskRules.Keyed

variable {α β : Type}

theorem mem_of_get? {key : String} {value : α} {pairs : List (String × α)}
    (found : get? key pairs = some value) : (key, value) ∈ pairs := by
  induction pairs with
  | nil => cases found
  | cons pair rest ih =>
    obtain ⟨k, v⟩ := pair
    rw [get?] at found
    split at found
    · rename_i same
      cases found
      exact same ▸ List.mem_cons_self
    · exact List.mem_cons_of_mem _ (ih found)

/-- Something is found under every key that is there. -/
theorem exists_get?_of_mem_keys {key : String} {pairs : List (String × α)}
    (mem : key ∈ pairs.map Prod.fst) : ∃ value, get? key pairs = some value := by
  induction pairs with
  | nil => cases mem
  | cons pair rest ih =>
    obtain ⟨k, v⟩ := pair
    rw [get?]
    split
    · exact ⟨v, rfl⟩
    · rename_i other
      exact ih ((List.mem_cons.mp mem).resolve_left (Ne.symm other))

/-- Pairs with the same keys and related values are looked up to related values. -/
theorem forall₂_get? {R : α → β → Prop} {as : List (String × α)} {bs : List (String × β)}
    (all : List.Forall₂ (fun a b => a.1 = b.1 ∧ R a.2 b.2) as bs) (key : String) :
    Option.Rel R (get? key as) (get? key bs) := by
  induction all with
  | nil => exact .none
  | @cons a b as bs here later ih =>
    obtain ⟨k, a⟩ := a
    obtain ⟨l, b⟩ := b
    obtain ⟨rfl, related⟩ := here
    rw [get?, get?]
    split
    · exact .some related
    · exact ih

/-- Each key is smaller than the keys behind it. -/
def Ascending (pairs : List (String × α)) : Prop :=
  pairs.Pairwise fun a b => a.1 < b.1

theorem ascending_nil : Ascending ([] : List (String × α)) :=
  List.Pairwise.nil

theorem ascending_cons {pair : String × α} {rest : List (String × α)} :
    Ascending (pair :: rest) ↔ (∀ later ∈ rest, pair.1 < later.1) ∧ Ascending rest :=
  List.pairwise_cons

/-- The order is one of the keys alone. -/
theorem ascending_iff_keys {pairs : List (String × α)} :
    Ascending pairs ↔ (pairs.map Prod.fst).Pairwise (· < ·) :=
  List.pairwise_map.symm

/-- A key is looked up to the value that stands under it. -/
theorem Ascending.get?_eq_some_iff {key : String} {value : α} {pairs : List (String × α)}
    (ordered : Ascending pairs) : get? key pairs = some value ↔ (key, value) ∈ pairs := by
  induction pairs with
  | nil => simp [get?]
  | cons pair rest ih =>
    obtain ⟨k, v⟩ := pair
    obtain ⟨before, ordered⟩ := ascending_cons.mp ordered
    rw [get?]
    split
    · rename_i same
      subst same
      have absent : (k, value) ∉ rest := fun mem => String.lt_irrefl k (before _ mem)
      simp [absent, eq_comm]
    · rename_i other
      simp [ih ordered, Ne.symm other]

/-- Lists in order are the same if the same pairs stand in them. -/
theorem Ascending.eq_of_mem_iff {pairs others : List (String × α)} (ordered : Ascending pairs)
    (others_ordered : Ascending others) (same : ∀ pair, pair ∈ pairs ↔ pair ∈ others) :
    pairs = others := by
  have distinct {sorted : List (String × α)} (ordered : Ascending sorted) : sorted.Nodup := by
    refine List.Pairwise.imp ?_ ordered
    rintro pair _ less rfl
    exact String.lt_irrefl pair.1 less
  have perm : pairs.Perm others :=
    (List.perm_ext_iff_of_nodup (distinct ordered) (distinct others_ordered)).mpr same
  refine perm.eq_of_pairwise (fun a b _ _ less more => ?_) ordered others_ordered
  exact absurd (String.lt_trans less more) (String.lt_irrefl _)

/-- What is looked up is what was put under the key last. -/
theorem get?_insert {key name : String} {value : α} {pairs : List (String × α)} :
    get? name (insert key value pairs) = if key = name then some value else get? name pairs := by
  induction pairs with
  | nil => rfl
  | cons pair rest ih =>
    obtain ⟨k, v⟩ := pair
    rw [insert]
    split
    · rfl
    · split
      · rename_i same
        subst same
        simp only [get?]
        split <;> rfl
      · rename_i other
        simp only [get?, ih]
        split
        · rename_i here
          rw [if_neg fun there => other (here.trans there.symm)]
        · rfl

/-- An inserted list holds the new pair and pairs of the old list. -/
theorem mem_of_mem_insert {key : String} {value : α} {pair : String × α}
    {pairs : List (String × α)} (mem : pair ∈ insert key value pairs) :
    pair = (key, value) ∨ pair ∈ pairs := by
  induction pairs with
  | nil => simpa [insert] using mem
  | cons head rest ih =>
    obtain ⟨k, v⟩ := head
    rw [insert] at mem
    split at mem
    · simpa using mem
    · split at mem
      · rcases List.mem_cons.mp mem with here | later
        · exact .inl here
        · exact .inr (List.mem_cons_of_mem _ later)
      · rcases List.mem_cons.mp mem with here | later
        · exact .inr (here ▸ List.mem_cons_self)
        · exact (ih later).imp_right (List.mem_cons_of_mem _)

theorem Ascending.insert {key : String} {value : α} {pairs : List (String × α)}
    (ordered : Ascending pairs) : Ascending (insert key value pairs) := by
  induction pairs with
  | nil => exact List.pairwise_singleton _ _
  | cons head rest ih =>
    obtain ⟨k, v⟩ := head
    obtain ⟨before, rest_ordered⟩ := ascending_cons.mp ordered
    rw [Keyed.insert]
    split
    · rename_i smaller
      refine ascending_cons.mpr ⟨fun later mem => ?_, ordered⟩
      rcases List.mem_cons.mp mem with here | mem
      · exact here ▸ smaller
      · exact String.lt_trans smaller (before later mem)
    · split
      · rename_i same
        exact ascending_cons.mpr ⟨fun later mem => same ▸ before later mem, rest_ordered⟩
      · rename_i smaller other
        have greater : k < key := String.not_le.mp fun below =>
          other (String.le_antisymm (String.not_lt.mp smaller) below)
        refine ascending_cons.mpr ⟨fun later mem => ?_, ih rest_ordered⟩
        rcases mem_of_mem_insert mem with here | mem
        · exact here ▸ greater
        · exact before later mem

/-- Putting pairs into their places keeps the order and adds no other pairs. -/
theorem foldl_insert {given sorted : List (String × α)} (ordered : Ascending sorted) :
    Ascending (given.foldl (fun sorted pair => insert pair.1 pair.2 sorted) sorted) ∧
      ∀ pair ∈ given.foldl (fun sorted pair => insert pair.1 pair.2 sorted) sorted,
        pair ∈ sorted ∨ pair ∈ given := by
  induction given generalizing sorted with
  | nil => exact ⟨ordered, fun _ mem => .inl mem⟩
  | cons next rest ih =>
    have next_ordered : Ascending (insert next.1 next.2 sorted) := ordered.insert
    obtain ⟨result_ordered, origin⟩ := ih next_ordered
    refine ⟨result_ordered, fun pair mem => ?_⟩
    rcases origin pair mem with mem | mem
    · rcases mem_of_mem_insert mem with here | mem
      · exact .inr (here ▸ List.mem_cons_self)
      · exact .inl mem
    · exact .inr (List.mem_cons_of_mem _ mem)

theorem ascending_ofList (given : List (String × α)) : Ascending (ofList given) :=
  (foldl_insert ascending_nil).1

theorem mem_of_mem_ofList {given : List (String × α)} {pair : String × α}
    (mem : pair ∈ ofList given) : pair ∈ given :=
  ((foldl_insert ascending_nil).2 pair mem).resolve_left List.not_mem_nil

/-- A pair whose key comes after all others goes to the end. -/
theorem insert_last {key : String} {value : α} {sorted : List (String × α)}
    (after : ∀ pair ∈ sorted, pair.1 < key) :
    insert key value sorted = sorted ++ [(key, value)] := by
  induction sorted with
  | nil => rfl
  | cons head rest ih =>
    obtain ⟨k, v⟩ := head
    have smaller : k < key := after (k, v) List.mem_cons_self
    have other : k ≠ key := fun same => String.lt_irrefl key (same ▸ smaller)
    have not_before : ¬key < k := fun before =>
      String.lt_irrefl k (String.lt_trans smaller before)
    rw [insert, if_neg not_before, if_neg other,
      ih fun pair mem => after pair (List.mem_cons_of_mem _ mem)]
    rfl

/-- Pairs in order stay as they are. -/
theorem Ascending.ofList_eq {pairs : List (String × α)} (ordered : Ascending pairs) :
    ofList pairs = pairs := by
  have go : ∀ given sorted : List (String × α), Ascending (sorted ++ given) →
      given.foldl (fun sorted pair => Keyed.insert pair.1 pair.2 sorted) sorted
        = sorted ++ given := by
    intro given
    induction given with
    | nil => simp
    | cons next rest ih =>
      intro sorted ordered
      have after : ∀ pair ∈ sorted, pair.1 < next.1 := fun pair mem =>
        (List.pairwise_append.mp ordered).2.2 pair mem next List.mem_cons_self
      rw [List.foldl_cons, insert_last after, ih]
      · simp
      · simpa using ordered
  exact go pairs [] ordered

end RiskRules.Keyed
