import Mathlib.Data.List.TakeWhile
import Mathlib.Tactic.Ring
import RiskRules.Time.Rfc3339
import RiskRules.Proofs.Calendar
import RiskRules.Proofs.Digits
import RiskRules.Proofs.Results

/-!
Timestamps written and read. A timestamp has a text unless its year has a sign or its offset is not
of whole minutes below a day (`Rfc3339.render_eq_ok_iff`), and it is read back from the text,
nanoseconds and offset included (`Rfc3339.parse_of_render`). Texts show such offsets only, so that
of what has been read only the year can be in the way of writing it
(`Rfc3339.shownOffset_of_parse`, `Rfc3339.failure_of_shownOffset`).
-/

namespace RiskRules.Rfc3339

open Digits (isDigit_iff isDigit_of_mem_toDigits)

variable {c : Char} {cs : List Char} {rest : List UInt8}

/-! ### Bytes -/

/-- The byte of an ASCII character. -/
def byte (c : Char) : UInt8 :=
  c.val.toUInt8

theorem bytes_ofList {text : List Char} (ascii : ∀ c ∈ text, c.val ≤ 127) :
    (String.ofList text).toUTF8.data.toList = text.map byte := by
  have single : ∀ text : List Char, (∀ c ∈ text, c.val ≤ 127) →
      text.flatMap String.utf8EncodeChar = text.map byte := by
    intro text ascii
    induction text with
    | nil => rfl
    | cons c text ih =>
      have size : c.utf8Size = 1 := Char.utf8Size_eq_one_iff.mpr (ascii c List.mem_cons_self)
      rw [List.flatMap_cons, String.utf8EncodeChar_eq_singleton size,
        ih fun c mem => ascii c (List.mem_cons_of_mem _ mem)]
      rfl
  have encoded : (String.ofList text).toUTF8.data.toList = text.flatMap String.utf8EncodeChar := by
    simp [String.toUTF8, List.utf8Encode]
  rw [encoded, single text ascii]

theorem digit?_byte (digit : c.isDigit = true) : digit? (byte c) = some (c.toNat - '0'.toNat) := by
  obtain ⟨d, small, rfl⟩ := Digits.exists_digitChar digit
  have ten : ∀ d < 10, digit? (byte d.digitChar) = some (d.digitChar.toNat - '0'.toNat) := by
    decide
  exact ten d small

theorem ascii_of_isDigit (digit : c.isDigit = true) : c.val ≤ 127 := by
  obtain ⟨d, small, rfl⟩ := Digits.exists_digitChar digit
  have ten : ∀ d < 10, d.digitChar.val ≤ 127 := by decide
  exact ten d small

/-! ### Digits of fixed width -/

theorem digits_bytes (part : Part) (all : ∀ c ∈ cs, c.isDigit = true) (value : Nat)
    (rest : List UInt8) :
    digits part cs.length value (cs.map byte ++ rest)
      = .ok (Nat.ofDigitChars 10 cs value, rest) := by
  induction cs generalizing value with
  | nil => rfl
  | cons c cs ih =>
    have here := digit?_byte (all c List.mem_cons_self)
    have later := ih fun c mem => all c (List.mem_cons_of_mem _ mem)
    rw [Nat.ofDigitChars_cons, Nat.mul_comm, ← later]
    simp [digits, here]

theorem isDigit_of_mem_padded {width n : Nat} (mem : c ∈ padded width n) : c.isDigit = true := by
  rcases List.mem_append.mp mem with mem | mem
  · rw [List.eq_of_mem_replicate mem]
    rfl
  · exact isDigit_of_mem_toDigits mem

theorem length_padded {width n : Nat} (positive : 0 < width) (small : n < 10 ^ width) :
    (padded width n).length = width := by
  have fits := (Nat.length_toDigits_le_iff (by omega) positive).mpr small
  simp only [padded, List.length_append, List.length_replicate]
  omega

theorem ofDigitChars_padded (width n : Nat) : Nat.ofDigitChars 10 (padded width n) 0 = n := by
  rw [padded, Nat.ofDigitChars_append, Nat.ofDigitChars_replicate_zero, Nat.mul_zero,
    Nat.ofDigitChars_ten_toDigits]

/-- A number of fixed width is read back. -/
theorem digits_padded (part : Part) {width n : Nat} (positive : 0 < width)
    (small : n < 10 ^ width) (rest : List UInt8) :
    digits part width 0 ((padded width n).map byte ++ rest) = .ok (n, rest) := by
  have read := digits_bytes part (fun _ => @isDigit_of_mem_padded _ width n) 0 rest
  rwa [length_padded positive small, ofDigitChars_padded] at read

/-! ### Fractions -/

/-- Digits of a fraction add up, each counting a tenth of the one before. -/
theorem fraction_bytes {places : Nat} (all : ∀ c ∈ cs, c.isDigit = true)
    (short : cs.length ≤ places + 1) (stops : ∀ b ∈ rest.head?, digit? b = none) (nanos : Nat) :
    fraction (10 ^ places) nanos (cs.map byte ++ rest)
      = (nanos + Nat.ofDigitChars 10 cs 0 * 10 ^ (places + 1 - cs.length), rest) := by
  have stopped : ∀ unit nanos, fraction unit nanos rest = (nanos, rest) := by
    intro unit nanos
    cases rest with
    | nil => rfl
    | cons b rest => simp [fraction, stops b rfl]
  induction cs generalizing places nanos with
  | nil => simp [stopped]
  | cons c cs ih =>
    have here := digit?_byte (all c List.mem_cons_self)
    have more : ∀ c ∈ cs, c.isDigit = true := fun c mem => all c (List.mem_cons_of_mem _ mem)
    rw [List.map_cons, List.cons_append, fraction, here]
    dsimp only
    rw [Nat.ofDigitChars_cons, Nat.mul_zero, Nat.zero_add, Nat.ofDigitChars_eq_ofDigitChars_zero]
    cases places with
    | zero =>
      have last : cs = [] := by simpa using short
      simp [last, stopped]
    | succ places =>
      have fits : cs.length ≤ places + 1 := by simpa using short
      have tenth : 10 ^ (places + 1) / 10 = 10 ^ places := by simp [Nat.pow_succ]
      have width : 10 ^ (places + 1) = 10 ^ cs.length * 10 ^ (places + 1 - cs.length) := by
        rw [← Nat.pow_add, Nat.add_sub_cancel' fits]
      rw [tenth, ih more fits, List.length_cons, Nat.add_sub_add_right, width]
      congr 1
      ring

/-- Zeros at the end can be put back. -/
theorem exists_dropped_zeros (text : List Char) : ∃ n,
    text = (text.reverse.dropWhile (· == '0')).reverse ++ List.replicate n '0' := by
  have zeros : text.reverse.takeWhile (· == '0')
      = List.replicate (text.reverse.takeWhile (· == '0')).length '0' := by
    refine List.eq_replicate_iff.mpr ⟨rfl, fun c mem => ?_⟩
    simpa using List.mem_takeWhile_imp mem
  refine ⟨(text.reverse.takeWhile (· == '0')).length, ?_⟩
  rw [← List.reverse_replicate, ← zeros, ← List.reverse_append, List.takeWhile_append_dropWhile,
    List.reverse_reverse]

/-- A fraction is read back, whatever comes behind it. -/
theorem subsecond_fractionText {nanos : Nat} (small : nanos < 1000000000)
    (stops : ∀ b ∈ rest.head?, digit? b = none ∧ b ≠ 46) :
    subsecond ((fractionText nanos).map byte ++ rest) = .ok (nanos, rest) := by
  rw [fractionText]
  split
  · rename_i zero
    cases rest with
    | nil => simp [subsecond, zero]
    | cons b rest =>
      have point : b ≠ 46 := (stops b rfl).2
      simp [subsecond, zero, point]
  · rename_i positive
    obtain ⟨n, padded_eq⟩ := exists_dropped_zeros (padded 9 nanos)
    generalize ((padded 9 nanos).reverse.dropWhile (· == '0')).reverse = ds at padded_eq
    have all : ∀ c ∈ ds, c.isDigit = true := fun c mem =>
      isDigit_of_mem_padded (padded_eq ▸ List.mem_append_left _ mem)
    have length : ds.length + n = 9 := by
      have total := length_padded (by decide : 0 < 9) small
      rw [padded_eq] at total
      simpa using total
    have value : Nat.ofDigitChars 10 ds 0 * 10 ^ n = nanos := by
      have total := ofDigitChars_padded 9 nanos
      rw [padded_eq, Nat.ofDigitChars_append, Nat.ofDigitChars_replicate_zero] at total
      rw [Nat.mul_comm]
      exact total
    cases ds with
    | nil =>
      simp at value
      omega
    | cons d ds =>
      have first := digit?_byte (all d List.mem_cons_self)
      have places : 8 + 1 - (d :: ds).length = n := by omega
      have short : (d :: ds).length ≤ 8 + 1 := by omega
      have read := fraction_bytes all short (fun b mem => (stops b mem).1) 0
      rw [places, value, Nat.zero_add] at read
      have point : byte '.' = 46 := by decide
      rw [List.map_cons, List.map_cons, List.cons_append, List.cons_append, point, subsecond, first]
      exact congrArg Except.ok read

/-! ### Offsets -/

/-- Offsets that texts show are of whole minutes and of less than a day. -/
structure ShownOffset (seconds : Int) : Prop where
  within_day : -86400 < seconds ∧ seconds < 86400
  whole_minutes : seconds % 60 = 0

/-- An offset is read back. -/
theorem offset_offsetText {seconds : Int} (shown : ShownOffset seconds) :
    offset ((offsetText seconds).map byte) = .ok (seconds, []) := by
  obtain ⟨⟨least, greatest⟩, whole_minutes⟩ := shown
  rw [offsetText]
  split
  · rename_i zero
    rw [zero]
    rfl
  · rename_i nonzero
    obtain ⟨size, abs_eq⟩ : ∃ size, seconds.natAbs / 60 = size := ⟨_, rfl⟩
    have hours : size / 60 < 10 ^ 2 ∧ ¬23 < size / 60 := by omega
    have sixtieth : size % 60 < 10 ^ 2 ∧ ¬59 < size % 60 := by omega
    have whole : size / 60 * 60 + size % 60 = size := by omega
    have minutes_read := digits_padded .offsetMinute (by omega) sixtieth.1 []
    have hours_read := digits_padded .offsetHour (by omega) hours.1
      (58 :: (padded 2 (size % 60)).map byte)
    have colon : byte ':' = 58 := by decide
    rw [List.append_nil] at minutes_read
    rw [abs_eq]
    by_cases negative : seconds < 0
    · have sign : byte '-' = 45 := by decide
      simp only [negative, if_true, List.map_cons, List.map_append, colon, sign, offset]
      simp [hours_read, literal, minutes_read, hours.2, sixtieth.2, whole, bind, Except.bind]
      omega
    · have sign : byte '+' = 43 := by decide
      simp only [negative, if_false, List.map_cons, List.map_append, colon, sign, offset]
      simp [hours_read, literal, minutes_read, hours.2, sixtieth.2, whole, bind, Except.bind]
      omega

/-- An offset that is read is one that texts show. -/
theorem shownOffset_of_offset {text : List UInt8} {seconds : Int}
    (read : offset text = .ok (seconds, rest)) : ShownOffset seconds := by
  rw [offset.eq_def] at read
  split at read
  · cases read
  split at read
  · cases read
    exact ⟨by decide, rfl⟩
  split at read
  · obtain ⟨⟨hours, behind⟩, -, read⟩ := bind_eq_ok_iff.mp read
    dsimp only at read
    split at read
    · cases read
    obtain ⟨behind, -, read⟩ := bind_eq_ok_iff.mp read
    obtain ⟨⟨minutes, behind⟩, -, read⟩ := bind_eq_ok_iff.mp read
    dsimp only at read
    split at read
    · cases read
    cases read
    constructor <;> split <;> omega
  · cases read

theorem stops_offsetText {seconds : Int} {b : UInt8}
    (head : b ∈ ((offsetText seconds).map byte).head?) : digit? b = none ∧ b ≠ 46 := by
  rw [offsetText] at head
  split at head
  · obtain rfl : byte 'Z' = b := by simpa using head
    decide
  · split at head
    · obtain rfl : byte '-' = b := by simpa using head
      decide
    · obtain rfl : byte '+' = b := by simpa using head
      decide

/-! ### Parts -/

/-- The text of the parts of a timestamp. -/
def fieldsText (f : Fields) : List Char :=
  padded 4 f.year ++ '-' :: padded 2 f.month ++ '-' :: padded 2 f.day
    ++ 'T' :: padded 2 f.hour ++ ':' :: padded 2 f.minute
    ++ ':' :: padded 2 f.second ++ fractionText f.nanos
    ++ offsetText f.offset

/-- The parts stay within the digits that are written of them. -/
structure Fields.Writable (f : Fields) : Prop where
  year : f.year < 10 ^ 4
  month : 1 ≤ f.month ∧ f.month < 10 ^ 2
  day : f.day < 10 ^ 2
  hour : f.hour < 10 ^ 2
  minute : f.minute < 10 ^ 2
  second : f.second < 10 ^ 2
  nanos : f.nanos < 1000000000
  offset : ShownOffset f.offset

theorem fields_fieldsText {f : Fields} (writable : f.Writable) :
    fields ((fieldsText f).map byte) = .ok f := by
  obtain ⟨year, ⟨month_positive, month⟩, day, hour, minute, second, nanos, shown⟩ := writable
  have dash : byte '-' = 45 := by decide
  have colon : byte ':' = 58 := by decide
  have month_nonzero : f.month ≠ 0 := by omega
  have read_year := digits_padded .year (by omega) year
  have read_month := digits_padded .month (by omega) month
  have read_day := digits_padded .day (by omega) day
  have read_hour := digits_padded .hour (by omega) hour
  have read_minute := digits_padded .minute (by omega) minute
  have read_second := digits_padded .second (by omega) second
  have read_nanos := subsecond_fractionText nanos fun _ => @stops_offsetText f.offset _
  have read_offset := offset_offsetText shown
  simp [fields, fieldsText, bind, Except.bind, read_year, read_month, read_day, read_hour,
    read_minute, read_second, read_nanos, read_offset, dash, colon, literal, month_nonzero]

theorem ascii_fieldsText (f : Fields) : ∀ c ∈ fieldsText f, c.val ≤ 127 := by
  have digits : ∀ width n, ∀ c ∈ padded width n, c.val ≤ 127 :=
    fun _ _ _ mem => ascii_of_isDigit (isDigit_of_mem_padded mem)
  have fraction : ∀ c ∈ fractionText f.nanos, c.val ≤ 127 := by
    intro c mem
    rw [fractionText] at mem
    split at mem
    · cases mem
    · rcases List.mem_cons.mp mem with rfl | mem
      · decide
      · exact digits 9 f.nanos c
          (List.mem_reverse.mp ((List.dropWhile_sublist _).subset (List.mem_reverse.mp mem)))
  have offset : ∀ c ∈ offsetText f.offset, c.val ≤ 127 := by
    rw [offsetText]
    split
    · exact List.forall_mem_singleton.mpr (by decide)
    · have sign : (if f.offset < 0 then '-' else '+').val ≤ 127 := by
        split <;> decide
      simp only [List.cons_append, List.forall_mem_append, List.forall_mem_cons]
      exact ⟨sign, digits _ _, by decide, digits _ _⟩
  simp only [fieldsText, List.forall_mem_append, List.forall_mem_cons]
  have dash : '-'.val ≤ 127 := by decide
  have colon : ':'.val ≤ 127 := by decide
  have letter : 'T'.val ≤ 127 := by decide
  exact ⟨⟨⟨⟨⟨⟨⟨digits _ _, dash, digits _ _⟩, dash, digits _ _⟩, letter, digits _ _⟩,
    colon, digits _ _⟩, colon, digits _ _⟩, fraction⟩, offset⟩

/-! ### Timestamps -/

/-- The parts that a timestamp is written in. -/
def fieldsOf (t : Timestamp) : Fields where
  year := t.date.year.toNat
  month := t.date.month
  day := t.date.day
  hour := t.timeOfDay / 1000000000 / 3600
  minute := t.timeOfDay / 1000000000 / 60 % 60
  second := t.timeOfDay / 1000000000 % 60
  nanos := t.timeOfDay % 1000000000
  offset := t.offset

/-- A timestamp whose year has no sign, and whose offset texts show. -/
structure Writable (t : Timestamp) : Prop where
  year_nonneg : 0 ≤ t.date.year
  offset : ShownOffset t.offset

theorem writable_iff {t : Timestamp} : Writable t ↔
    ¬t.date.year < 0 ∧ ¬86400 ≤ t.offset.natAbs ∧ t.offset % 60 = 0 := by
  constructor
  · rintro ⟨year_nonneg, ⟨above, below⟩, whole_minutes⟩
    omega
  · rintro ⟨year_nonneg, small, whole_minutes⟩
    exact ⟨by omega, by omega, whole_minutes⟩

instance (t : Timestamp) : Decidable (Writable t) :=
  decidable_of_iff _ writable_iff.symm

/-- A timestamp has a text unless its year has a sign or its offset cannot be shown. -/
theorem render_eq_ok_iff {t : Timestamp} {text : String} :
    render t = .ok text ↔ Writable t ∧ text = String.ofList (fieldsText (fieldsOf t)) := by
  rw [render, writable_iff]
  dsimp only
  split_ifs with signed large odd
  · simp [signed]
  · simp [large]
  · simp [odd]
  · rw [Except.ok.injEq, and_iff_right ⟨signed, large, not_not.mp odd⟩]
    exact eq_comm

/-- Of a timestamp whose offset texts show, only the year can be in the way. -/
theorem failure_of_shownOffset {t : Timestamp} {failure : WriteError} (shown : ShownOffset t.offset)
    (failed : render t = .error failure) : failure = .yearNotWritable := by
  obtain ⟨⟨above, below⟩, whole_minutes⟩ := shown
  rw [render] at failed
  dsimp only at failed
  split_ifs at failed with signed large odd
  · cases failed
    rfl
  · omega
  · exact absurd whole_minutes odd

theorem timeOfDay_lt (t : Timestamp) : t.timeOfDay < 86400 * 1000000000 := by
  rw [Timestamp.timeOfDay, Timestamp.day, Timestamp.second]
  omega

/-- The clock's count is that of its date and time. -/
theorem count_eq (t : Timestamp) :
    Calendar.dayNumber t.date * Timestamp.day + (t.timeOfDay : Int) = t.count := by
  have number : Calendar.dayNumber t.date = t.count / Timestamp.day :=
    (Calendar.ofDayNumber_spec _).2.2
  rw [number, Timestamp.timeOfDay, Timestamp.day, Timestamp.second]
  omega

/-- Clocks count no further than to the year 9999. -/
theorem year_le (t : Timestamp) : t.date.year ≤ 9999 := by
  obtain ⟨year, -, -⟩ := Calendar.ofDayNumber_spec (t.count / Timestamp.day)
  obtain ⟨after, -⟩ := Calendar.yearOfDay_spec (t.count / Timestamp.day)
  have latest : t.count ≤ Calendar.daysBeforeYear 10000 * Timestamp.day - 1 := t.count_inRange.2
  have before : t.count / Timestamp.day < Calendar.daysBeforeYear 10000 := by
    rw [Timestamp.day, Timestamp.second] at *
    omega
  by_contra late
  have later : (10000 : Int) ≤ Calendar.yearOfDay (t.count / Timestamp.day) := by
    rw [Timestamp.date, year] at late
    omega
  have beyond := Calendar.daysBeforeYear_le later
  omega

theorem writable_fieldsOf {t : Timestamp} (shown : ShownOffset t.offset) :
    (fieldsOf t).Writable := by
  obtain ⟨-, ⟨month_low, month_high, day_low, day_high⟩, -⟩ :=
    Calendar.ofDayNumber_spec (t.count / Timestamp.day)
  have month_days := Calendar.daysInMonth_le t.date.year t.date.month
  have year := year_le t
  have time := timeOfDay_lt t
  rw [← Timestamp.date] at *
  constructor <;> simp only [fieldsOf] <;> omega

/-- The parts of a timestamp are put together again. -/
theorem assemble_fieldsOf {t : Timestamp} (unsigned : 0 ≤ t.date.year) :
    assemble (fieldsOf t) = .ok t := by
  obtain ⟨-, ⟨month_low, month_high, day_low, day_high⟩, -⟩ :=
    Calendar.ofDayNumber_spec (t.count / Timestamp.day)
  rw [← Timestamp.date] at *
  have time := timeOfDay_lt t
  have year : ((fieldsOf t).year : Int) = t.date.year := Int.toNat_of_nonneg unsigned
  have month : ¬12 < (fieldsOf t).month := by simpa [fieldsOf] using month_high
  have day : ¬((fieldsOf t).day < 1 ∨
      Calendar.daysInMonth (fieldsOf t).year (fieldsOf t).month < (fieldsOf t).day) := by
    rw [year]
    simp only [fieldsOf]
    omega
  have hour : ¬23 < (fieldsOf t).hour := by
    simp only [fieldsOf]
    omega
  have minute : ¬59 < (fieldsOf t).minute := by
    simp only [fieldsOf]
    omega
  have second : ¬60 < (fieldsOf t).second ∧ ((fieldsOf t).second == 60) = false := by
    simp only [fieldsOf, beq_eq_false_iff_ne]
    omega
  have count : Calendar.dayNumber ⟨(fieldsOf t).year, (fieldsOf t).month, (fieldsOf t).day⟩
        * Timestamp.day
      + ((((fieldsOf t).hour * 60 + (fieldsOf t).minute) * 60 + (fieldsOf t).second : Nat) : Int)
        * Timestamp.second + ((fieldsOf t).nanos : Int) = t.count := by
    have clock := count_eq t
    rw [year]
    have date : (⟨t.date.year, (fieldsOf t).month, (fieldsOf t).day⟩ : Calendar.Date) = t.date :=
      rfl
    rw [date, ← clock, Timestamp.second]
    simp only [fieldsOf]
    omega
  have whole : Timestamp.of? t.count (fieldsOf t).offset = some t := by
    have in_range : Timestamp.InRange t.count ∧ Timestamp.OffsetInRange (fieldsOf t).offset :=
      ⟨t.count_inRange, t.offset_inRange⟩
    rw [Timestamp.of?, dif_pos in_range]
    rfl
  simp only [assemble, bind, Except.bind, if_neg month, if_neg day, if_neg hour, if_neg minute,
    if_neg second.1, second.2, Bool.false_eq_true, if_false, count, whole, Bool.false_and]

/-- A timestamp is read back from its text. -/
theorem parse_of_render {t : Timestamp} {text : String} (written : render t = .ok text) :
    parse text = .ok t := by
  obtain ⟨⟨unsigned, shown⟩, rfl⟩ := render_eq_ok_iff.mp written
  rw [parse, bytes_ofList (ascii_fieldsText _), fields_fieldsText (writable_fieldsOf shown)]
  exact assemble_fieldsOf unsigned

/-- The offset among the parts that are read is one that texts show. -/
theorem shownOffset_of_fields {text : List UInt8} {f : Fields} (read : fields text = .ok f) :
    ShownOffset f.offset := by
  obtain ⟨⟨year, text⟩, -, read⟩ := bind_eq_ok_iff.mp read
  obtain ⟨text, -, read⟩ := bind_eq_ok_iff.mp read
  obtain ⟨⟨month, text⟩, -, read⟩ := bind_eq_ok_iff.mp read
  obtain ⟨-, read⟩ := check_eq_ok_iff.mp read
  obtain ⟨text, -, read⟩ := bind_eq_ok_iff.mp read
  obtain ⟨⟨day, _ | ⟨separator, text⟩⟩, -, read⟩ := bind_eq_ok_iff.mp read
  · cases read
  obtain ⟨text, -, read⟩ := bind_eq_ok_iff.mp read
  obtain ⟨⟨hour, text⟩, -, read⟩ := bind_eq_ok_iff.mp read
  obtain ⟨text, -, read⟩ := bind_eq_ok_iff.mp read
  obtain ⟨⟨minute, text⟩, -, read⟩ := bind_eq_ok_iff.mp read
  obtain ⟨text, -, read⟩ := bind_eq_ok_iff.mp read
  obtain ⟨⟨second, text⟩, -, read⟩ := bind_eq_ok_iff.mp read
  obtain ⟨⟨nanos, text⟩, -, read⟩ := bind_eq_ok_iff.mp read
  obtain ⟨⟨seconds, _ | ⟨next, text⟩⟩, shown, read⟩ := bind_eq_ok_iff.mp read
  · cases read
    exact shownOffset_of_offset shown
  · cases read

theorem offset_of_of? {count seconds : Int} {t : Timestamp}
    (made : Timestamp.of? count seconds = some t) : t.offset = seconds := by
  rw [Timestamp.of?] at made
  split at made <;> cases made
  rfl

/-- Putting parts together keeps the offset. -/
theorem offset_of_assemble {f : Fields} {t : Timestamp} (made : assemble f = .ok t) :
    t.offset = f.offset := by
  rw [assemble] at made
  obtain ⟨-, made⟩ := check_eq_ok_iff.mp made
  obtain ⟨-, made⟩ := check_eq_ok_iff.mp made
  obtain ⟨-, made⟩ := check_eq_ok_iff.mp made
  obtain ⟨-, made⟩ := check_eq_ok_iff.mp made
  obtain ⟨-, made⟩ := check_eq_ok_iff.mp made
  dsimp only at made
  split at made
  · cases made
  · rename_i whole
    split at made <;> cases made
    exact offset_of_of? whole

/-- A timestamp that is read from a text has an offset that texts show. -/
theorem shownOffset_of_parse {text : String} {t : Timestamp} (read : parse text = .ok t) :
    ShownOffset t.offset := by
  obtain ⟨f, parts, made⟩ := bind_eq_ok_iff.mp read
  rw [offset_of_assemble made]
  exact shownOffset_of_fields parts

end RiskRules.Rfc3339
