import Mathlib.Data.List.Perm.Basic
import RiskRules.Number.Signed64

/-!
Sums kept within 64 bits. Adding words one after the other, each sum kept at the end of the range
that it would leave, gives the exact sum as long as no sum leaves the range. Which sums leave it
depends on the order: the outcome is the exact sum, kept within the range, in every order exactly
when the gains and the losses each fit by themselves or there are only gains or only losses
(`Signed64.orderFree_iff_exact`), and otherwise two orders differ (`Signed64.orderFree_iff_same`).
-/

namespace RiskRules.Signed64

/-! ### Words -/

/-- A clamped integer is the nearest one of the range. -/
theorem toInt_clamp (n : Int) : (clamp n).toInt =
    if n < least then least else if greatest < n then greatest else n := by
  rw [clamp]
  split
  · rfl
  · split
    · rfl
    · rename_i low high
      rw [least] at low
      rw [greatest] at high
      exact Int64.toInt_ofInt_of_le (by omega) (by omega)

theorem least_le_toInt (a : Int64) : least ≤ a.toInt :=
  Int64.le_toInt a

theorem toInt_le_greatest (a : Int64) : a.toInt ≤ greatest :=
  Int.le_of_lt_add_one (Int64.toInt_lt a)

/-- The integer lies in the range. -/
def Fits (n : Int) : Prop :=
  least ≤ n ∧ n ≤ greatest

instance (n : Int) : Decidable (Fits n) :=
  inferInstanceAs (Decidable (least ≤ n ∧ n ≤ greatest))

theorem fits_toInt (a : Int64) : Fits a.toInt :=
  ⟨least_le_toInt a, toInt_le_greatest a⟩

theorem toInt_ofInt_of_fits {n : Int} (fits : Fits n) : (Int64.ofInt n).toInt = n := by
  obtain ⟨low, high⟩ := fits
  rw [least] at low
  rw [greatest] at high
  exact Int64.toInt_ofInt_of_le (by omega) (by omega)

/-- An integer is fitted as the word that stands for it, and as no other. -/
theorem fit?_eq_some_iff {n : Int} {a : Int64} : fit? n = some a ↔ a.toInt = n := by
  rw [fit?]
  split
  · rename_i fits
    rw [Option.some.injEq, ← Int64.toInt_inj, toInt_ofInt_of_fits fits, eq_comm]
  · rename_i outside
    refine iff_of_false nofun ?_
    rintro rfl
    exact outside (fits_toInt a)

theorem fit?_eq_none_iff {n : Int} : fit? n = none ↔ ¬Fits n := by
  rw [fit?, Fits]
  split <;> simp [*]

theorem toInt_clamp_of_fits {n : Int} (low : least ≤ n) (high : n ≤ greatest) :
    (clamp n).toInt = n := by
  rw [toInt_clamp, if_neg (Int.not_lt.mpr low), if_neg (Int.not_lt.mpr high)]

/-- Clamping keeps the order of integers. -/
theorem clamp_mono {m n : Int} (le : m ≤ n) : clamp m ≤ clamp n := by
  have ends : least ≤ greatest := by decide
  rw [Int64.le_iff_toInt_le, toInt_clamp, toInt_clamp]
  omega

theorem one_le_clamp {n : Int} (positive : 1 ≤ n) : 1 ≤ clamp n := by
  rw [Int64.le_iff_toInt_le, toInt_clamp, least, greatest]
  change 1 ≤ _
  split <;> omega

theorem le_max_left (a b : Int64) : a ≤ max a b := by
  change a ≤ if a ≤ b then b else a
  split
  · assumption
  · exact Int64.le_refl a

theorem le_max_right (a b : Int64) : b ≤ max a b := by
  change b ≤ if a ≤ b then b else a
  split
  · exact Int64.le_refl b
  · rename_i above
    exact Int64.le_of_lt (Int64.not_le.mp above)

theorem max_eq_or (a b : Int64) : max a b = a ∨ max a b = b := by
  change (if a ≤ b then b else a) = a ∨ (if a ≤ b then b else a) = b
  split
  · exact .inr rfl
  · exact .inl rfl

theorem max_le {a b c : Int64} (left : a ≤ c) (right : b ≤ c) : max a b ≤ c := by
  obtain here | here := max_eq_or a b <;> rwa [here]

/-- A sum stays in the range or is kept at the end that it would leave. -/
theorem addClamped_cases (a b : Int64) :
    (a.toInt + b.toInt < least ∧ (addClamped a b).toInt = least) ∨
    (greatest < a.toInt + b.toInt ∧ (addClamped a b).toInt = greatest) ∨
    (least ≤ a.toInt + b.toInt ∧ a.toInt + b.toInt ≤ greatest ∧
      (addClamped a b).toInt = a.toInt + b.toInt) := by
  rw [addClamped, toInt_clamp]
  split
  · rename_i low
    exact .inl ⟨low, rfl⟩
  · split
    · rename_i high
      exact .inr (.inl ⟨high, rfl⟩)
    · exact .inr (.inr ⟨by omega, by omega, rfl⟩)

@[simp] theorem addClamped_zero (a : Int64) : addClamped a 0 = a := by
  apply Int64.toInt_inj.mp
  have low := least_le_toInt a
  have high := toInt_le_greatest a
  have zero : (0 : Int64).toInt = 0 := rfl
  obtain ⟨below, -⟩ | ⟨above, -⟩ | ⟨-, -, exactly⟩ := addClamped_cases a 0 <;> omega

/-! ### Exact sums -/

/-- The exact sum of what is counted of each word. -/
def sumOf (part : Int64 → Int) (words : List Int64) : Int :=
  words.foldr (fun word sum => part word + sum) 0

/-- What is gained by a word. -/
def gain (word : Int64) : Int :=
  if 0 ≤ word.toInt then word.toInt else 0

/-- What is lost by a word, as a negative integer. -/
def loss (word : Int64) : Int :=
  if 0 ≤ word.toInt then 0 else word.toInt

/-- The exact sum of words. -/
def sum (words : List Int64) : Int :=
  sumOf Int64.toInt words

/-- The exact sum of the words that are not negative. -/
def gains (words : List Int64) : Int :=
  sumOf gain words

/-- The exact sum of the negative words. -/
def losses (words : List Int64) : Int :=
  sumOf loss words

section Sums

variable {part : Int64 → Int} {words words' : List Int64}

@[simp] theorem sumOf_nil : sumOf part [] = 0 := rfl

@[simp] theorem sumOf_cons (word : Int64) (words : List Int64) :
    sumOf part (word :: words) = part word + sumOf part words := rfl

theorem sum_nil : sum [] = 0 := rfl

theorem sum_cons (word : Int64) (words : List Int64) :
    sum (word :: words) = word.toInt + sum words := rfl

theorem gains_cons (word : Int64) (words : List Int64) :
    gains (word :: words) = gain word + gains words := rfl

theorem losses_cons (word : Int64) (words : List Int64) :
    losses (word :: words) = loss word + losses words := rfl

theorem sumOf_append (words words' : List Int64) :
    sumOf part (words ++ words') = sumOf part words + sumOf part words' := by
  induction words with
  | nil => simp
  | cons word rest ih => simp [ih, Int.add_assoc]

theorem sumOf_perm (perm : words.Perm words') : sumOf part words = sumOf part words' := by
  induction perm with
  | nil => rfl
  | cons word _ ih => rw [sumOf_cons, sumOf_cons, ih]
  | swap first second rest => simp only [sumOf_cons]; omega
  | trans _ _ ih ih' => exact ih.trans ih'

theorem sumOf_filter (part : Int64 → Int) (p : Int64 → Bool) (words : List Int64) :
    sumOf part words = sumOf part (words.filter p) + sumOf part (words.filter (!p ·)) := by
  rw [← sumOf_append, sumOf_perm (List.filter_append_perm p words)]

/-- Words of which nothing is counted add up to nothing. -/
theorem sumOf_eq_zero (uncounted : ∀ word ∈ words, part word = 0) : sumOf part words = 0 := by
  induction words with
  | nil => rfl
  | cons word rest ih =>
    obtain ⟨here, later⟩ := List.forall_mem_cons.mp uncounted
    rw [sumOf_cons, here, ih later, Int.add_zero]

theorem sum_eq (words : List Int64) : sum words = gains words + losses words := by
  induction words with
  | nil => rfl
  | cons word rest ih =>
    rw [sum_cons, gains_cons, losses_cons, ih, gain, loss]
    split <;> omega

theorem gains_nonneg (words : List Int64) : 0 ≤ gains words := by
  induction words with
  | nil => exact Int.le_refl 0
  | cons word rest ih =>
    rw [gains_cons, gain]
    split <;> omega

theorem losses_nonpos (words : List Int64) : losses words ≤ 0 := by
  induction words with
  | nil => exact Int.le_refl 0
  | cons word rest ih =>
    rw [losses_cons, loss]
    split <;> omega

end Sums

/-! ### Clamped sums -/

section Clamped

variable {words words' : List Int64} {start : Int64}

/-- Without losses a clamped sum rises, and once it has reached the end of the range it stays
there. -/
theorem toInt_foldl_of_no_losses (none_lost : losses words = 0) (start : Int64) :
    (words.foldl addClamped start).toInt =
      if greatest < start.toInt + sum words then greatest else start.toInt + sum words := by
  induction words generalizing start with
  | nil =>
    have high := toInt_le_greatest start
    rw [List.foldl_nil, sum_nil, if_neg (by omega), Int.add_zero]
  | cons word rest ih =>
    have low := least_le_toInt start
    have rest_gained := gains_nonneg rest
    have rest_sum := sum_eq rest
    obtain ⟨word_kept, rest_kept⟩ : 0 ≤ word.toInt ∧ losses rest = 0 := by
      have rest_lost := losses_nonpos rest
      rw [losses_cons, loss] at none_lost
      split at none_lost <;> omega
    rw [List.foldl_cons, ih rest_kept, sum_cons]
    obtain ⟨below, -⟩ | ⟨above, stuck⟩ | ⟨-, -, exactly⟩ := addClamped_cases start word
    · omega
    · rw [stuck]
      split <;> split <;> omega
    · rw [exactly, Int.add_assoc]

/-- Without gains a clamped sum falls, and once it has reached the end of the range it stays
there. -/
theorem toInt_foldl_of_no_gains (none_gained : gains words = 0) (start : Int64) :
    (words.foldl addClamped start).toInt =
      if start.toInt + sum words < least then least else start.toInt + sum words := by
  induction words generalizing start with
  | nil =>
    have low := least_le_toInt start
    rw [List.foldl_nil, sum_nil, if_neg (by omega), Int.add_zero]
  | cons word rest ih =>
    have high := toInt_le_greatest start
    have rest_lost := losses_nonpos rest
    have rest_sum := sum_eq rest
    obtain ⟨word_kept, rest_kept⟩ : word.toInt ≤ 0 ∧ gains rest = 0 := by
      have rest_gained := gains_nonneg rest
      rw [gains_cons, gain] at none_gained
      split at none_gained <;> omega
    rw [List.foldl_cons, ih rest_kept, sum_cons]
    obtain ⟨below, stuck⟩ | ⟨above, -⟩ | ⟨-, -, exactly⟩ := addClamped_cases start word
    · rw [stuck]
      split <;> split <;> omega
    · omega
    · rw [exactly, Int.add_assoc]

/-- A clamped sum whose gains and losses each stay in the range is exact. -/
theorem toInt_foldl_of_fits (gains_fit : start.toInt + gains words ≤ greatest)
    (losses_fit : least ≤ start.toInt + losses words) :
    (words.foldl addClamped start).toInt = start.toInt + sum words := by
  induction words generalizing start with
  | nil => exact (Int.add_zero _).symm
  | cons word rest ih =>
    have rest_lost := losses_nonpos rest
    have rest_gained := gains_nonneg rest
    have low := least_le_toInt start
    have high := toInt_le_greatest start
    rw [gains_cons, gain] at gains_fit
    rw [losses_cons, loss] at losses_fit
    have exactly : (addClamped start word).toInt = start.toInt + word.toInt := by
      obtain ⟨below, -⟩ | ⟨above, -⟩ | ⟨-, -, exactly⟩ := addClamped_cases start word
      · split at losses_fit <;> omega
      · split at gains_fit <;> omega
      · exact exactly
    rw [List.foldl_cons, ih, exactly, sum_cons, Int.add_assoc]
    · rw [exactly]
      split at gains_fit <;> omega
    · rw [exactly]
      split at losses_fit <;> omega

/-- The gains of words and their losses each fit into the range, or there are only gains or only
losses. -/
def OrderFree (words : List Int64) : Prop :=
  (gains words ≤ greatest ∧ least ≤ losses words) ∨ losses words = 0 ∨ gains words = 0

theorem orderFree_perm (perm : words.Perm words') : OrderFree words ↔ OrderFree words' := by
  rw [OrderFree, OrderFree, gains, gains, losses, losses, sumOf_perm perm, sumOf_perm perm]

/-- A clamped sum that no order can change is the exact sum, kept within the range. -/
theorem OrderFree.foldl_eq (free : OrderFree words) :
    words.foldl addClamped 0 = clamp (sum words) := by
  have gained := gains_nonneg words
  have lost := losses_nonpos words
  have parts := sum_eq words
  have low : least ≤ 0 := by decide
  have high : 0 ≤ greatest := by decide
  have zero : (0 : Int64).toInt = 0 := rfl
  apply Int64.toInt_inj.mp
  rw [toInt_clamp]
  obtain ⟨gains_fit, losses_fit⟩ | none_lost | none_gained := free
  · rw [toInt_foldl_of_fits (by omega) (by omega), zero, Int.zero_add]
    split
    · omega
    · split <;> omega
  · rw [toInt_foldl_of_no_losses none_lost, zero, Int.zero_add, if_neg (c := sum words < least)]
    omega
  · rw [toInt_foldl_of_no_gains none_gained, zero, Int.zero_add, if_neg (c := greatest < sum words)]
    omega

/-! ### The two extreme orders -/

/-- The word is not negative. -/
def gaining (word : Int64) : Bool :=
  decide (0 ≤ word.toInt)

theorem losses_gaining (words : List Int64) : losses (words.filter gaining) = 0 := by
  refine sumOf_eq_zero fun word mem => ?_
  rw [loss, if_pos (of_decide_eq_true (List.mem_filter.mp mem).2)]

theorem gains_losing (words : List Int64) : gains (words.filter (!gaining ·)) = 0 := by
  refine sumOf_eq_zero fun word mem => ?_
  have losing := (List.mem_filter.mp mem).2
  rw [gain, if_neg (by simpa [gaining] using losing)]

theorem gains_gaining (words : List Int64) : gains (words.filter gaining) = gains words := by
  have parts := sumOf_filter gain gaining words
  have losing := gains_losing words
  rw [gains] at losing ⊢
  rw [gains]
  omega

theorem losses_losing (words : List Int64) :
    losses (words.filter (!gaining ·)) = losses words := by
  have parts := sumOf_filter loss gaining words
  have gaining := losses_gaining words
  rw [losses] at gaining ⊢
  rw [losses]
  omega

/-- The clamped sum of words whose gains come first. -/
theorem toInt_foldl_gains_first (words : List Int64) :
    ((words.filter gaining ++ words.filter (!gaining ·)).foldl addClamped 0).toInt =
      if (if greatest < gains words then greatest else gains words) + losses words < least then
        least
      else (if greatest < gains words then greatest else gains words) + losses words := by
  have first_sum := sum_eq (words.filter gaining)
  have second_sum := sum_eq (words.filter (!gaining ·))
  rw [gains_gaining, losses_gaining, Int.add_zero] at first_sum
  rw [gains_losing, losses_losing, Int.zero_add] at second_sum
  have zero : (0 : Int64).toInt = 0 := rfl
  rw [List.foldl_append, toInt_foldl_of_no_gains (gains_losing words),
    toInt_foldl_of_no_losses (losses_gaining words), zero, Int.zero_add, first_sum, second_sum]

/-- The clamped sum of words whose losses come first. -/
theorem toInt_foldl_losses_first (words : List Int64) :
    ((words.filter (!gaining ·) ++ words.filter gaining).foldl addClamped 0).toInt =
      if greatest < (if losses words < least then least else losses words) + gains words
        then greatest
      else (if losses words < least then least else losses words) + gains words := by
  have first_sum := sum_eq (words.filter (!gaining ·))
  have second_sum := sum_eq (words.filter gaining)
  rw [gains_gaining, losses_gaining, Int.add_zero] at second_sum
  rw [gains_losing, losses_losing, Int.zero_add] at first_sum
  have zero : (0 : Int64).toInt = 0 := rfl
  rw [List.foldl_append, toInt_foldl_of_no_losses (losses_gaining words),
    toInt_foldl_of_no_gains (gains_losing words), zero, Int.zero_add, first_sum, second_sum]

/-- Gains and losses that do not both fit come out differently in the two extreme orders. -/
theorem orderFree_of_extremes_eq
    (same : (words.filter gaining ++ words.filter (!gaining ·)).foldl addClamped 0 =
      (words.filter (!gaining ·) ++ words.filter gaining).foldl addClamped 0) :
    OrderFree words := by
  have same := congrArg Int64.toInt same
  rw [toInt_foldl_gains_first, toInt_foldl_losses_first, least, greatest] at same
  have gained := gains_nonneg words
  have lost := losses_nonpos words
  rw [OrderFree, least, greatest]
  by_contra unfree
  split at same <;> split at same <;> split at same <;> split at same <;> omega

/-- **When the order does not matter.** Every order of words has the same clamped sum exactly if gains
and losses each fit into the range, or there are only gains or only losses. -/
theorem orderFree_iff_same : OrderFree words ↔
    ∀ words', words.Perm words' → words'.foldl addClamped 0 = words.foldl addClamped 0 := by
  constructor
  · intro free words' perm
    rw [free.foldl_eq, ((orderFree_perm perm).mp free).foldl_eq, sum, sum, sumOf_perm perm]
  · intro same
    have gains_first := List.filter_append_perm gaining words
    exact orderFree_of_extremes_eq <| (same _ gains_first.symm).trans
      (same _ (List.perm_append_comm.trans gains_first).symm).symm

/-- **When the sum is exact.** Every order of words has the exact sum, kept within the range, as its
clamped sum exactly if gains and losses each fit into the range, or there are only gains or only
losses. -/
theorem orderFree_iff_exact : OrderFree words ↔
    ∀ words', words.Perm words' → words'.foldl addClamped 0 = clamp (sum words) := by
  constructor
  · intro free words' perm
    rw [orderFree_iff_same.mp free words' perm, free.foldl_eq]
  · intro exactly
    exact orderFree_iff_same.mpr fun words' perm =>
      (exactly words' perm).trans (exactly words (.refl _)).symm

end Clamped

end RiskRules.Signed64
