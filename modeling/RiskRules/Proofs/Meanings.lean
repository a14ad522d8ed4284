import RiskRules.Proofs.Construction
import RiskRules.Proofs.ExactNumbers
import RiskRules.Value.Order

/-!
What values stand for. Integers and binary64 numbers stand for numbers, timestamps for instants, and
lists for the lists of what their items stand for; a value in which something is not a number stands
for nothing (`Value.meaning?`). Two values are equal exactly if they stand for the same
(`Value.equal_iff`), and they are ordered as what they stand for (`Value.compare_eq_ok_iff`), so
that equality and order agree although each has its own cases.
-/

namespace RiskRules

/-- What a value stands for. -/
inductive Meaning where
  | null
  | bool (b : Bool)
  | number (p : Extended)
  | text (s : String)
  | instant (t : Int)
  | list (items : List Meaning)
  | score (s : ScoreResult)

/-! ### Order -/

namespace Meaning

variable {d e f : Meaning} {o : Ordering}

/-- The order of numbers, of texts and of instants; nothing else has one. -/
def order? : Meaning → Meaning → Option Ordering
  | .number p, .number q => some (compare p q)
  | .text s, .text t => some (compare s t)
  | .instant s, .instant t => some (compare s t)
  | _, _ => none

theorem order?_swap (d e : Meaning) : e.order? d = (d.order? e).map Ordering.swap := by
  cases d <;> cases e <;> simp [order?, ← Std.OrientedOrd.eq_swap]

/-- What has an order comes out the same exactly if it is. -/
theorem eq_iff_of_order? (ordered : d.order? e = some o) : o = .eq ↔ d = e := by
  cases d <;> cases e <;> simp only [order?, Option.some.injEq, reduceCtorEq] at ordered <;>
    subst ordered <;> simp

theorem order?_lt_trans (less : d.order? e = some .lt) (less' : e.order? f = some .lt) :
    d.order? f = some .lt := by
  cases d <;> cases e <;> simp only [order?, Option.some.injEq, reduceCtorEq] at less <;>
    cases f <;> simp only [order?, Option.some.injEq, reduceCtorEq] at less' ⊢ <;>
    exact Std.TransCmp.lt_trans less less'

end Meaning

/-! ### Values -/

namespace Value

mutual

/-- What a value stands for; nothing if there is something in it that is not a number. -/
def meaning? : Value → Option Meaning
  | .null => some .null
  | .bool b => some (.bool b)
  | .int i => some (.number (.ofRat i.toInt))
  | .float x => (Extended.ofFloat? x).map .number
  | .string s => some (.text s)
  | .timestamp t => some (.instant t.instant)
  | .list items => (meanings? items).map .list
  | .score s => some (.score s)

/-- What the values stand for. -/
def meanings? : List Value → Option (List Meaning)
  | [] => some []
  | item :: rest => (meaning? item).bind fun d => (meanings? rest).map (d :: ·)

end

/-! #### Equality -/

theorem meanings?_nil : meanings? [] = some [] := by
  rw [meanings?]

theorem meanings?_cons_eq_some_iff {item : Value} {rest : List Value} {ds : List Meaning} :
    meanings? (item :: rest) = some ds
      ↔ ∃ d, item.meaning? = some d ∧ ∃ es, meanings? rest = some es ∧ d :: es = ds := by
  simp only [meanings?, Option.bind_eq_some_iff, Option.map_eq_some_iff]

theorem sameNumber_iff {x y : Float} : sameNumber x y = true
    ↔ ∃ p, Extended.ofFloat? x = some p ∧ Extended.ofFloat? y = some p := by
  rw [sameNumber, beq_iff_eq, Binary64.compare_ofFloat, Option.bind_eq_some_iff]
  simp only [Option.map_eq_some_iff, cmp_eq_eq_iff, exists_eq_right']

theorem compareInt_eq_some_eq_iff {i : Int64} {x : Float} :
    Binary64.compareInt i (.ofFloat x) = some .eq
      ↔ Extended.ofFloat? x = some (.ofRat i.toInt) := by
  rw [Binary64.compareInt_ofFloat, Option.map_eq_some_iff]
  simp only [cmp_eq_eq_iff, exists_eq_right']

mutual

/-- Two values are equal exactly if they stand for the same. -/
theorem equal_iff : ∀ a b : Value,
    a.equal b = true ↔ ∃ d, a.meaning? = some d ∧ b.meaning? = some d
  | .null, b => by cases b <;> simp [equal, meaning?]
  | .bool a, b => by cases b <;> simp [equal, meaning?, @eq_comm _ a]
  | .int i, b => by
    cases b <;>
      simp [equal, meaning?, compareInt_eq_some_eq_iff, ← Int64.toInt_inj, @eq_comm _ i.toInt]
  | .float x, b => by
    cases b <;> simp [equal, meaning?, compareInt_eq_some_eq_iff, sameNumber_iff]
  | .string s, b => by cases b <;> simp [equal, meaning?, @eq_comm _ s]
  | .timestamp t, b => by
    cases b <;> simp [equal, meaning?, Timestamp.same, @eq_comm _ t.instant]
  | .list as, b => by
    cases b with
    | list bs => simp [equal, meaning?, equalItems_iff as bs]
    | _ => simp [equal, meaning?]
  | .score s, b => by cases b <;> simp [equal, meaning?, @eq_comm _ s]

theorem equalItems_iff : ∀ as bs : List Value,
    equalItems as bs = true ↔ ∃ ds, meanings? as = some ds ∧ meanings? bs = some ds
  | [], [] => by simp [equalItems, meanings?]
  | [], b :: bs => by simp [equalItems, meanings?_nil, meanings?_cons_eq_some_iff]
  | a :: as, [] => by simp [equalItems, meanings?_nil, meanings?_cons_eq_some_iff]
  | a :: as, b :: bs => by
    rw [equalItems, Bool.and_eq_true, equal_iff a b, equalItems_iff as bs]
    simp only [meanings?_cons_eq_some_iff]
    constructor
    · rintro ⟨⟨d, a_eq, b_eq⟩, ds, as_eq, bs_eq⟩
      exact ⟨d :: ds, ⟨d, a_eq, ds, as_eq, rfl⟩, d, b_eq, ds, bs_eq, rfl⟩
    · rintro ⟨_, ⟨d, a_eq, ds, as_eq, rfl⟩, e, b_eq, es, bs_eq, same⟩
      obtain ⟨rfl, rfl⟩ := List.cons.inj same
      exact ⟨⟨e, a_eq, b_eq⟩, es, as_eq, bs_eq⟩

end

theorem equal_symm {a b : Value} (equal : a.equal b = true) : b.equal a = true := by
  obtain ⟨d, a_eq, b_eq⟩ := (equal_iff a b).mp equal
  exact (equal_iff b a).mpr ⟨d, b_eq, a_eq⟩

theorem equal_comm (a b : Value) : a.equal b = b.equal a :=
  Bool.eq_iff_iff.mpr ⟨equal_symm, equal_symm⟩

theorem equal_trans {a b c : Value} (equal : a.equal b = true) (equal' : b.equal c = true) :
    a.equal c = true := by
  obtain ⟨d, a_eq, b_eq⟩ := (equal_iff a b).mp equal
  obtain ⟨e, b_eq', c_eq⟩ := (equal_iff b c).mp equal'
  obtain rfl := Option.some.inj (b_eq.symm.trans b_eq')
  exact (equal_iff a c).mpr ⟨d, a_eq, c_eq⟩

/-- Equal values are equal to the same values. -/
theorem equal_congr {a b : Value} (equal : a.equal b = true) (c : Value) :
    a.equal c = b.equal c :=
  Bool.eq_iff_iff.mpr ⟨equal_trans (equal_symm equal), equal_trans equal⟩

/-- Lists are equal exactly if they are equal item by item. -/
theorem equalItems_iff_forall₂ {as bs : List Value} :
    equalItems as bs = true ↔ List.Forall₂ (fun a b => a.equal b = true) as bs := by
  induction as generalizing bs with
  | nil => cases bs <;> simp [equalItems]
  | cons a as ih => cases bs <;> simp [equalItems, ih]

mutual

/-- A value stands for something exactly if every number in it is one. -/
theorem exists_meaning?_iff : ∀ v : Value,
    (∃ d, v.meaning? = some d) ↔ ∀ x, Within (.float x) v → x.isNaN = false
  | .null | .bool _ | .int _ | .string _ | .timestamp _ | .score _ => by
    simp only [meaning?, Option.some.injEq, exists_eq', true_iff]
    rintro x ⟨⟩
  | .float y => by
    have given : (∃ d, (Value.float y).meaning? = some d) ↔ y.isNaN = false := by
      rw [meaning?, ← Option.isSome_iff_exists, Option.isSome_map, Option.isSome_iff_exists,
        Binary64.exists_ofFloat?_iff]
    rw [given]
    constructor
    · rintro number x ⟨⟩
      exact number
    · exact fun all => all y .self
  | .list items => by
    have given : (∃ d, (Value.list items).meaning? = some d)
        ↔ ∃ ds, meanings? items = some ds := by
      rw [meaning?, ← Option.isSome_iff_exists, Option.isSome_map, Option.isSome_iff_exists]
    rw [given, exists_meanings?_iff items]
    simp only [within_list_iff, reduceCtorEq, false_or]
    exact ⟨fun all x ⟨item, mem, within⟩ => all item mem x within,
      fun all item mem x within => all x ⟨item, mem, within⟩⟩

theorem exists_meanings?_iff : ∀ items : List Value, (∃ ds, meanings? items = some ds)
    ↔ ∀ item ∈ items, ∀ x, Within (.float x) item → x.isNaN = false
  | [] => by simp [meanings?]
  | item :: rest => by
    rw [List.forall_mem_cons, ← exists_meaning?_iff item, ← exists_meanings?_iff rest]
    simp only [meanings?_cons_eq_some_iff]
    constructor
    · rintro ⟨_, d, here, ds, later, -⟩
      exact ⟨⟨d, here⟩, ds, later⟩
    · rintro ⟨⟨d, here⟩, ds, later⟩
      exact ⟨_, d, here, ds, later, rfl⟩

end

/-- A value is equal to itself exactly if every number in it is one. -/
theorem equal_self_iff {v : Value} :
    v.equal v = true ↔ ∀ x, Within (.float x) v → x.isNaN = false := by
  rw [equal_iff, ← exists_meaning?_iff]
  simp only [and_self]

/-! #### Order -/

theorem orderOf_eq_ok_iff {found : Option Ordering} {o : Ordering} :
    orderOf found = .ok o ↔ found = some o := by
  cases found <;> simp [orderOf]

theorem compare_ints (i j : Int64) :
    Ord.compare i j = Ord.compare (Extended.ofRat i.toInt) (Extended.ofRat j.toInt) := by
  rw [Binary64.compare_words, ← cmp_eq_compare, Extended.cmp_ofRat, Int.cast_strictMono.cmp_map_eq]

/-- Values are ordered as what they stand for. -/
theorem compare_eq_ok_iff {a b : Value} {o : Ordering} : a.compare b = .ok o
    ↔ ∃ d, a.meaning? = some d ∧ ∃ e, b.meaning? = some e ∧ d.order? e = some o := by
  -- Every two kinds are a case of their own; all but six of them have no order on either side.
  cases a <;> cases b <;> simp only [compare, meaning?, Meaning.order?, orderOf_eq_ok_iff,
    compare_ints, Timestamp.compare, Binary64.compareInt_ofFloat, Binary64.compare_ofFloat,
    cmp_eq_compare, ← Std.OrientedOrd.eq_swap, Option.bind_eq_some_iff, Option.map_eq_some_iff,
    Option.some.injEq, Except.ok.injEq, exists_eq_left', exists_exists_and_eq_and, reduceCtorEq,
    and_false, exists_false]

variable {a b c : Value} {o : Ordering}

/-- The order turns with its operands. -/
theorem compare_swap (ordered : a.compare b = .ok o) : b.compare a = .ok o.swap := by
  obtain ⟨d, a_eq, e, b_eq, order⟩ := compare_eq_ok_iff.mp ordered
  refine compare_eq_ok_iff.mpr ⟨e, b_eq, d, a_eq, ?_⟩
  rw [Meaning.order?_swap, order, Option.map_some]

/-- Values that have an order come out the same exactly if they are equal. -/
theorem eq_iff_of_compare (ordered : a.compare b = .ok o) : o = .eq ↔ a.equal b = true := by
  obtain ⟨d, a_eq, e, b_eq, order⟩ := compare_eq_ok_iff.mp ordered
  rw [Meaning.eq_iff_of_order? order, equal_iff]
  constructor
  · rintro rfl
    exact ⟨d, a_eq, b_eq⟩
  · rintro ⟨f, a_eq', b_eq'⟩
    exact Option.some.inj (a_eq.symm.trans (a_eq'.trans (b_eq'.symm.trans b_eq)))

theorem compare_lt_trans (less : a.compare b = .ok .lt) (less' : b.compare c = .ok .lt) :
    a.compare c = .ok .lt := by
  obtain ⟨d, a_eq, e, b_eq, order⟩ := compare_eq_ok_iff.mp less
  obtain ⟨e', b_eq', f, c_eq, order'⟩ := compare_eq_ok_iff.mp less'
  obtain rfl := Option.some.inj (b_eq.symm.trans b_eq')
  exact compare_eq_ok_iff.mpr ⟨d, a_eq, f, c_eq, Meaning.order?_lt_trans order order'⟩

/-- An integer, or a binary64 number that is one. -/
inductive IsNumber : Value → Prop
  | int (i : Int64) : IsNumber (.int i)
  | float {x : Float} : x.isNaN = false → IsNumber (.float x)

/-- Two numbers, two texts or two timestamps. -/
inductive Comparable : Value → Value → Prop
  | numbers {a b : Value} : a.IsNumber → b.IsNumber → Comparable a b
  | texts (s t : String) : Comparable (.string s) (.string t)
  | timestamps (s t : Timestamp) : Comparable (.timestamp s) (.timestamp t)

theorem isNumber_iff : a.IsNumber ↔ ∃ p, a.meaning? = some (.number p) := by
  constructor
  · rintro (i | number)
    · exact ⟨_, rfl⟩
    · obtain ⟨p, stands⟩ := Binary64.exists_ofFloat?_iff.mpr number
      exact ⟨p, by rw [meaning?, stands, Option.map_some]⟩
  · rintro ⟨p, stands⟩
    cases a with
    | int i => exact .int i
    | float x =>
      exact .float (Binary64.exists_ofFloat?_iff.mp ⟨p, by simpa [meaning?] using stands⟩)
    | _ => simp [meaning?] at stands

theorem eq_string_of_meaning? {s : String} (stands : a.meaning? = some (.text s)) :
    a = .string s := by
  cases a with
  | string t => simpa [meaning?] using stands
  | _ => simp [meaning?] at stands

theorem exists_timestamp_of_meaning? {n : Int} (stands : a.meaning? = some (.instant n)) :
    ∃ t, a = .timestamp t := by
  cases a with
  | timestamp t => exact ⟨t, rfl⟩
  | _ => simp [meaning?] at stands

/-- Exactly comparable values have an order. -/
theorem exists_compare_iff : (∃ o, a.compare b = .ok o) ↔ Comparable a b := by
  constructor
  · rintro ⟨o, ordered⟩
    obtain ⟨d, a_eq, e, b_eq, order⟩ := compare_eq_ok_iff.mp ordered
    match d, e, order with
    | .number p, .number q, _ =>
      exact .numbers (isNumber_iff.mpr ⟨p, a_eq⟩) (isNumber_iff.mpr ⟨q, b_eq⟩)
    | .text s, .text t, _ =>
      obtain rfl := eq_string_of_meaning? a_eq
      obtain rfl := eq_string_of_meaning? b_eq
      exact .texts s t
    | .instant _, .instant _, _ =>
      obtain ⟨s, rfl⟩ := exists_timestamp_of_meaning? a_eq
      obtain ⟨t, rfl⟩ := exists_timestamp_of_meaning? b_eq
      exact .timestamps s t
  · intro comparable
    cases comparable with
    | numbers number number' =>
      obtain ⟨p, a_eq⟩ := isNumber_iff.mp number
      obtain ⟨q, b_eq⟩ := isNumber_iff.mp number'
      exact ⟨_, compare_eq_ok_iff.mpr ⟨_, a_eq, _, b_eq, rfl⟩⟩
    | texts s t => exact ⟨_, rfl⟩
    | timestamps s t => exact ⟨_, rfl⟩

end Value

end RiskRules
