import RiskRules.Proofs.Comparisons
import RiskRules.Proofs.Signed64

/-!
Timestamps moved by seconds and the seconds between them. Moving a clock by whole seconds moves its
instant by them and keeps its offset (`Timestamp.addSeconds?_eq_some_iff`), so that the seconds
between are those it was moved by; cut toward zero, the seconds between two instants change only
their sign when the instants change places (`Timestamp.secondsBetween_swap`). Clocks do not count so
far that seconds between them would leave the range of words (`Timestamp.fits_secondsBetween`).
The functions of timestamps undo each other (`Evaluator.timestamp_functions_inverse`), on values and
so on trees that come to them (`Evaluator.secondsBetween_of_moved_tree`).
-/

namespace RiskRules

/-! ### Timestamps -/

namespace Timestamp

variable {t u w a b : Timestamp} {m n : Int}

/-- A clock moved by seconds counts so many more, and keeps its offset. -/
theorem addSeconds?_eq_some_iff :
    t.addSeconds? n = some u ↔ u.count = t.count + n * second ∧ u.offset = t.offset := by
  obtain ⟨count, offset, count_inRange, offset_inRange⟩ := u
  rw [addSeconds?, addNanos?]
  split
  · simp only [Option.some.injEq, mk.injEq, @eq_comm _ count, @eq_comm _ offset]
  · rename_i outside
    refine iff_of_false nofun ?_
    rintro ⟨rfl, -⟩
    exact outside count_inRange

theorem instant_of_addSeconds? (moved : t.addSeconds? n = some u) :
    u.instant = t.instant + n * second := by
  obtain ⟨count_eq, offset_eq⟩ := addSeconds?_eq_some_iff.mp moved
  rw [instant, instant, count_eq, offset_eq]
  omega

/-- The seconds from a clock to where it was moved are those that it was moved by. -/
theorem secondsBetween_of_addSeconds? (moved : t.addSeconds? n = some u) :
    t.secondsBetween u = n := by
  rw [secondsBetween, instant_of_addSeconds? moved, add_sub_cancel_left]
  exact Int.mul_tdiv_cancel n (by decide)

/-- A clock moved twice is moved by the sum. -/
theorem addSeconds?_add (first : t.addSeconds? m = some u) (second : u.addSeconds? n = some w) :
    t.addSeconds? (m + n) = some w := by
  rw [addSeconds?_eq_some_iff] at first second ⊢
  rw [second.1, second.2, first.1, first.2, Int.add_mul, Int.add_assoc]
  exact ⟨rfl, rfl⟩

/-- Cutting toward zero treats both directions alike. -/
theorem secondsBetween_swap (a b : Timestamp) : a.secondsBetween b = -b.secondsBetween a := by
  rw [secondsBetween, secondsBetween, ← Int.neg_tdiv, Int.neg_sub]

/-- Instants lie some ten thousand years around the first. -/
theorem instant_bounds (t : Timestamp) :
    -1000000000000000000000 < t.instant ∧ t.instant < 1000000000000000000000 := by
  obtain ⟨low, high⟩ := t.count_inRange
  obtain ⟨offset_low, offset_high⟩ := t.offset_inRange
  have start : -400000000000000000000 ≤ earliest := by decide
  have finish : latest ≤ 400000000000000000000 := by decide
  rw [instant, second]
  omega

/-- The seconds between two timestamps are a word. -/
theorem fits_secondsBetween (a b : Timestamp) : Signed64.Fits (a.secondsBetween b) := by
  obtain ⟨a_low, a_high⟩ := a.instant_bounds
  obtain ⟨b_low, b_high⟩ := b.instant_bounds
  have size : (a.secondsBetween b).natAbs = (b.instant - a.instant).natAbs / 1000000000 :=
    Int.natAbs_tdiv _ _
  rw [Signed64.Fits, Signed64.least, Signed64.greatest]
  omega

/-- Where seconds have passed, the one instant is before the other. -/
theorem compare_eq_lt_of_secondsBetween (positive : 0 < a.secondsBetween b) :
    a.compare b = .lt := by
  have later : a.instant < b.instant := by
    by_contra not_later
    have := Int.tdiv_nonneg (a := a.instant - b.instant) (b := second) (by omega) (by decide)
    rw [secondsBetween_swap] at positive
    rw [secondsBetween] at positive
    omega
  exact Int.compare_eq_lt.mpr later

end Timestamp

/-! ### Functions of timestamps -/

namespace Evaluator

variable {env : Environment} {t u a b : Timestamp} {s : Int64}

/-- The arguments of moving a timestamp by seconds. -/
def shift (t : Timestamp) (s : Int64) : List (String × Value) :=
  [("seconds", .int s), ("timestamp", .timestamp t)]

/-- The arguments of the seconds between two timestamps. -/
def interval (start finish : Timestamp) : List (String × Value) :=
  [("end", .timestamp finish), ("start", .timestamp start)]

/-- A timestamp is moved as its clock is. -/
theorem on_timeAdd_iff : on env .timeAdd (shift t s) = .ok (.timestamp u) ↔
    t.addSeconds? s.toInt = some u := by
  have demanded : demand none (.ofValues .timeAdd (shift t s)) =
      (t.addSeconds? s.toInt).elim (.error (.overflow .timeAdd))
        fun moved => .ok (.value (.timestamp moved)) := by
    cases moved : t.addSeconds? s.toInt <;>
      simp [demand, Arguments.timestamp, Arguments.int, Arguments.value, Arguments.optional,
        Arguments.ofValues, Arguments.expect, Keyed.get?, shift, Value.timestamp?, Value.int?,
        Evaluation.ofOutcome, Evaluation.outcome, bind, Except.bind, pure, Except.pure, moved]
  rw [on, dispatch, demanded]
  cases t.addSeconds? s.toInt <;> simp [answer]

/-- The seconds between two timestamps are always a word, and the exact one. -/
theorem exists_on_secondsBetween (env : Environment) (a b : Timestamp) : ∃ n : Int64,
    on env .secondsBetween (interval a b) = .ok (.int n) ∧ n.toInt = a.secondsBetween b :=
  ⟨Int64.ofInt (a.secondsBetween b), rfl,
    Signed64.toInt_ofInt_of_fits (Timestamp.fits_secondsBetween a b)⟩

theorem on_secondsBetween_iff : on env .secondsBetween (interval a b) = .ok (.int s) ↔
    s.toInt = a.secondsBetween b := by
  obtain ⟨n, between, exactly⟩ := exists_on_secondsBetween env a b
  rw [between, Except.ok.injEq, Value.int.injEq, ← Int64.toInt_inj, exactly]
  exact eq_comm

/-- **Functions of timestamps invert each other.** If a timestamp is moved by some seconds, then so
many seconds lie between it and where it was moved, and their negation the other way round. If it is
moved twice, by seconds whose sum is a word, then moving it by the sum gives the same. And between
any two timestamps, whatever their offsets and fractions of seconds, there is a number of seconds,
cut toward zero and no overflow; the other way round it is its negation; and where it is positive
the first timestamp is less than the second. -/
theorem timestamp_functions_inverse (env : Environment) :
    (∀ (t u : Timestamp) (s : Int64), on env .timeAdd (shift t s) = .ok (.timestamp u) →
      on env .secondsBetween (interval t u) = .ok (.int s) ∧
      ∃ back : Int64, on env .secondsBetween (interval u t) = .ok (.int back) ∧
        back.toInt = -s.toInt) ∧
    (∀ (t u w : Timestamp) (a b sum : Int64), on env .timeAdd (shift t a) = .ok (.timestamp u) →
      on env .timeAdd (shift u b) = .ok (.timestamp w) → sum.toInt = a.toInt + b.toInt →
      on env .timeAdd (shift t sum) = .ok (.timestamp w)) ∧
    ∀ a b : Timestamp, ∃ n m : Int64,
      on env .secondsBetween (interval a b) = .ok (.int n) ∧
      on env .secondsBetween (interval b a) = .ok (.int m) ∧
      n.toInt = (b.instant - a.instant).tdiv Timestamp.second ∧ n.toInt = -m.toInt ∧
      (0 < n.toInt → on env .less (operands (.timestamp a) (.timestamp b)) = .ok (.bool true)) := by
  refine ⟨fun t u s moved => ?_, fun t u w a b sum first second sum_eq => ?_, fun a b => ?_⟩
  · rw [on_timeAdd_iff] at moved
    have between := Timestamp.secondsBetween_of_addSeconds? moved
    obtain ⟨back, backward, back_eq⟩ := exists_on_secondsBetween env u t
    refine ⟨on_secondsBetween_iff.mpr between.symm, back, backward, ?_⟩
    rw [back_eq, Timestamp.secondsBetween_swap, between]
  · rw [on_timeAdd_iff] at first second ⊢
    rw [sum_eq]
    exact Timestamp.addSeconds?_add first second
  · obtain ⟨n, forward, n_eq⟩ := exists_on_secondsBetween env a b
    obtain ⟨m, backward, m_eq⟩ := exists_on_secondsBetween env b a
    refine ⟨n, m, forward, backward, n_eq, ?_, fun positive => ?_⟩
    · rw [n_eq, m_eq, Timestamp.secondsBetween_swap]
    · rw [n_eq] at positive
      exact on_less_iff.mpr
        (congrArg Except.ok (Timestamp.compare_eq_lt_of_secondsBetween positive))

/-- Half a second past the epoch on a clock that is ahead as far as clocks can be, moved by an hour
and back by a minute, and nearly two seconds before a clock at UTC. -/
theorem timestamp_functions_inverse_across_offsets :
    let env := Facts.empty.toEnvironment
    let at? (nanos offset : Int) := Timestamp.of? (719162 * Timestamp.day + nanos) offset
    ∃ t u w later : Timestamp,
      at? 93599500000000 93599 = some t ∧ at? 97199500000000 93599 = some u ∧
      at? 97139500000000 93599 = some w ∧ at? 2400000000 0 = some later ∧
      on env .timeAdd (shift t 3600) = .ok (.timestamp u) ∧
      on env .secondsBetween (interval t u) = .ok (.int 3600) ∧
      on env .timeAdd (shift u (-60)) = .ok (.timestamp w) ∧
      on env .timeAdd (shift t 3540) = .ok (.timestamp w) ∧
      on env .secondsBetween (interval t later) = .ok (.int 1) ∧
      on env .less (operands (.timestamp t) (.timestamp later)) = .ok (.bool true) := by
  intro env at?
  let clock (nanos : Int) (counted : Timestamp.InRange (719162 * Timestamp.day + nanos)) :
      Timestamp := ⟨719162 * Timestamp.day + nanos, 93599, counted, by decide⟩
  let t := clock 93599500000000 (by decide)
  let u := clock 97199500000000 (by decide)
  let w := clock 97139500000000 (by decide)
  let later : Timestamp := ⟨719162 * Timestamp.day + 2400000000, 0, by decide, by decide⟩
  obtain ⟨inverse, composed, between⟩ := timestamp_functions_inverse env
  have hour : on env .timeAdd (shift t 3600) = .ok (.timestamp u) := rfl
  have minute_back : on env .timeAdd (shift u (-60)) = .ok (.timestamp w) := rfl
  obtain ⟨n, -, forward, -, n_eq, -, less⟩ := between t later
  obtain rfl : n = 1 := Int64.toInt_inj.mp n_eq
  exact ⟨t, u, w, later, rfl, rfl, rfl, rfl, hour, (inverse t u 3600 hour).1, minute_back,
    composed t u w 3600 (-60) 3540 hour minute_back rfl, forward, less (by decide)⟩

/-- **Timestamps of trees.** The seconds between what a tree comes to and what it is moved to by
another are those that the other comes to. -/
theorem secondsBetween_of_moved_tree {r : Registry} {level : Nat} {time seconds : Node}
    (allowed : level + 1 ≤ r.maxDepth)
    (enabled : r.enabled .timeAdd = true ∧ r.enabled .secondsBetween = true)
    (start : ComesTo r env (level + 1) time (.ok (.timestamp t)))
    (came_to : ComeTo r env (level + 2) [("seconds", seconds), ("timestamp", time)] (shift t s))
    (moved : t.addSeconds? s.toInt = some u) :
    let shifted : Node := .make .timeAdd none [] [("seconds", seconds), ("timestamp", time)]
    ComesTo r env (level + 1) shifted (.ok (.timestamp u)) ∧
      ComesTo r env level (.make .secondsBetween none [] [("end", shifted), ("start", time)])
        (.ok (.int s)) := by
  intro shifted
  have finish : ComesTo r env (level + 1) shifted (.ok (.timestamp u)) :=
    evaluateAt_of_values allowed enabled.1 came_to (on_timeAdd_iff.mpr moved)
  have ends : ComeTo r env (level + 1) [("end", shifted), ("start", time)] (interval t u) :=
    .cons ⟨rfl, finish⟩ (.cons ⟨rfl, start⟩ .nil)
  refine ⟨finish, evaluateAt_of_values (Nat.le_of_succ_le allowed) enabled.2 ends ?_⟩
  exact on_secondsBetween_iff.mpr (Timestamp.secondsBetween_of_addSeconds? moved).symm

end Evaluator

end RiskRules
