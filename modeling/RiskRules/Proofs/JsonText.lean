import RiskRules.Proofs.NumberText

/-!
JSON text written without blank space and read again. What is read is the value that was written,
except that a number counts for what its own text reads as, that a part without a text is null
(`Json.reread`), and that brackets nested too deep are left out (`Json.parse_compact`).

The machine that reads is followed through the text of a value, whatever brackets are open around
it. Behind a number it cannot tell yet whether the number goes on, so its state is described by what
it does next (`Reader.Behind`).
-/

namespace RiskRules.Json

/-! ### What a text reads as -/

mutual

/-- What the text of a value reads as, if it is the text of a value. -/
def reread : Json → Option Json
  | .int n => ofNumberText (intText n)
  | .float x => if isFinite x then ofNumberText (floatText x) else some .null
  | .array items => (rereadItems items).map .array
  | .object members => (rereadMembers members).map .object
  | .unreadable _ => some .null
  | .null => some .null
  | .bool b => some (.bool b)
  | .string s => some (.string s)

/-- What the texts of items read as. -/
def rereadItems : List Json → Option (List Json)
  | [] => some []
  | item :: rest => (reread item).bind fun value => (rereadItems rest).map (value :: ·)

/-- What the texts of members read as; keys stay. -/
def rereadMembers : List (String × Json) → Option (List (String × Json))
  | [] => some []
  | (key, value) :: rest =>
    (reread value).bind fun value => (rereadMembers rest).map ((key, value) :: ·)

end

namespace Reader

open Digits (digit?)

variable {stack : List Frame} {result : Option Json} {state : State}

/-! ### Behind a value -/

/-- A value goes into the bracket around it; no value, and reading has failed. -/
def completed (stack : List Frame) : Option Json → State
  | some value => complete value stack
  | none => .failed

/-- The states behind the text of a value: the value is complete, or it is a number that may still
go on. -/
inductive Behind (stack : List Frame) (result : Option Json) : State → Prop
  | settled : Behind stack result (completed stack result)
  | number (chars : List Char) (reads : ofNumberText chars.reverse = result) :
    Behind stack result (.number stack chars)

theorem step_complete (value : Json) (stack : List Frame) (c : Char) :
    step (complete value stack) c = settle (complete value stack) c := by
  cases stack with
  | nil => rfl
  | cons frame rest => cases frame <;> rfl

/-- What ends a number completes the value before it is looked at. -/
theorem Behind.step {c : Char} (behind : Behind stack result state)
    (other : inNumber c = false) : step state c = settle (completed stack result) c := by
  cases behind with
  | settled =>
    cases result with
    | none => rfl
    | some value => exact step_complete value stack c
  | number chars reads =>
    rw [Reader.step, if_neg (by simp [other]), closeNumber, reads]
    cases result <;> rfl

theorem Behind.finish (behind : Behind [] result state) : finish state = result := by
  cases behind with
  | settled => cases result <;> rfl
  | number chars reads => exact reads

theorem run_cons (c : Char) (text : List Char) (state : State) :
    run (c :: text) state = run text (Reader.step state c) := rfl

theorem run_failed (text : List Char) : run text .failed = .failed := by
  induction text with
  | nil => rfl
  | cons c text ih => exact ih

/-! ### Numbers -/

theorem run_number {text : List Char} (all : ∀ c ∈ text, inNumber c = true) (chars : List Char) :
    run text (.number stack chars) = .number stack (text.reverse ++ chars) := by
  induction text generalizing chars with
  | nil => rfl
  | cons c text ih =>
    have here : inNumber c = true := all c List.mem_cons_self
    rw [run_cons, Reader.step, if_pos here, ih fun c mem => all c (List.mem_cons_of_mem _ mem)]
    simp

/-- A number text begins like no other value. -/
theorem begin_number {c : Char} (first : c = '-' ∨ c.isDigit = true) (stack : List Frame) :
    begin stack c = .number stack [c] ∧ isBlank c = false ∧ c ≠ ']' := by
  have other : ∀ d : Char, d ≠ '-' → d.isDigit = false → c ≠ d := by
    rintro d minus digit rfl
    simp [minus, digit] at first
  have taken : c = '-' ∨ (digit? c).isSome = true := by simpa using first
  have blank : isBlank c = false := by
    simp [isBlank, other]
  refine ⟨?_, blank, other ']' (by decide) (by decide)⟩
  simp only [begin]
  rw [if_neg (other '[' (by decide) (by decide)), if_neg (other '\x7b' (by decide) (by decide)),
    if_neg (other '"' (by decide) (by decide)), if_neg (other 't' (by decide) (by decide)),
    if_neg (other 'f' (by decide) (by decide)), if_neg (other 'n' (by decide) (by decide)),
    if_pos taken]

theorem behind_number {text : List Char} (number : IsNumberText text) (stack : List Frame) :
    Behind stack (ofNumberText text) (run text (.value stack)) := by
  obtain ⟨c, rest, rfl, first⟩ := number.begins
  obtain ⟨begins, blank, -⟩ := begin_number first stack
  have later : ∀ c ∈ rest, inNumber c = true := fun c mem =>
    number.inNumber c (List.mem_cons_of_mem _ mem)
  have ran : run (c :: rest) (.value stack) = .number stack (c :: rest).reverse := by
    rw [run_cons, Reader.step, blank]
    simp only [Bool.false_eq_true, if_false]
    rw [begins, run_number later]
    simp
  rw [ran]
  exact .number _ (by simp)

/-! ### Strings -/

theorem hexDigit?_hexChar : ∀ d < 16, Digits.hexDigit? (hexChar d) = some d := by
  decide

/-- A control character is read back from its code. -/
theorem run_control {n : Nat} (small : n < 0x20) (isKey : Bool) (chars : List Char) :
    run ['\\', 'u', '0', '0', hexChar (n / 16), hexChar (n % 16)]
        (.text stack isKey ⟨chars, true, none, .plain⟩)
      = .text stack isKey ⟨Char.ofNat n :: chars, true, none, .plain⟩ := by
  have high := hexDigit?_hexChar (n / 16) (by omega)
  have low := hexDigit?_hexChar (n % 16) (by omega)
  have zero : Digits.hexDigit? '0' = some 0 := by decide
  have same : n / 16 * 16 + n % 16 = n := by omega
  have below : ¬(0xD800 ≤ n ∧ n ≤ 0xDBFF) ∧ ¬(0xDC00 ≤ n ∧ n ≤ 0xDFFF) := by omega
  simp [run, step, stepText, zero, high, low, Text.unit, same, below, Text.push, Text.dropHalf]

/-- A character of a string is read back from its escape. -/
theorem run_escape (c : Char) (isKey : Bool) (chars : List Char) :
    run (escape c) (.text stack isKey ⟨chars, true, none, .plain⟩)
      = .text stack isKey ⟨c :: chars, true, none, .plain⟩ := by
  unfold escape
  split
  · rfl
  · rfl
  · rfl
  · rfl
  · rfl
  · rfl
  · rfl
  · rename_i quote backslash _ _ _ _ _
    split
    · rename_i small
      rw [run_control small, Char.ofNat_toNat]
    · rename_i large
      simp only [run, List.foldl_cons, List.foldl_nil, step, stepText]
      rw [if_neg quote, if_neg backslash, if_neg large]
      rfl

theorem run_flatMap_escape (text : List Char) (isKey : Bool) (chars : List Char) :
    run (text.flatMap escape) (.text stack isKey ⟨chars, true, none, .plain⟩)
      = .text stack isKey ⟨text.reverse ++ chars, true, none, .plain⟩ := by
  induction text generalizing chars with
  | nil => rfl
  | cons c text ih =>
    rw [List.flatMap_cons, run_append, run_escape, ih]
    simp

/-- The quotes of a string close it. -/
theorem run_quoted (s : String) (stack : List Frame) (isKey : Bool) :
    run (s.toList.flatMap escape ++ ['"']) (.text stack isKey .start)
      = closeText stack isKey ⟨s.toList.reverse, true, none, .plain⟩ := by
  rw [run_append, Text.start, run_flatMap_escape, List.append_nil]
  rfl

theorem run_string (s : String) (stack : List Frame) :
    run (quoted s) (.value stack) = complete (.string s) stack := by
  have closed := run_quoted s stack false
  simp only [closeText, List.reverse_reverse, String.ofList_toList] at closed
  exact closed

/-- A key waits in the bracket around it for its value. -/
theorem run_key (s : String) (members : List (String × Json)) (key : String)
    (stack : List Frame) :
    run (quoted s) (.key (.object members key true :: stack))
        = .colon (.object members s true :: stack) ∧
      run (quoted s) (.firstKey (.object members key true :: stack))
        = .colon (.object members s true :: stack) := by
  have closed := run_quoted s (.object members key true :: stack) true
  simp only [closeText, List.reverse_reverse, String.ofList_toList] at closed
  exact ⟨closed, closed⟩

/-! ### Values -/

/-- No value begins with blank space or with a closing bracket. -/
theorem run_firstItem (j : Json) (text : List Char) (stack : List Frame) :
    run (chars j ++ text) (.firstItem stack) = run (chars j ++ text) (.value stack) := by
  have first : ∃ c rest, chars j = c :: rest ∧ isBlank c = false ∧ c ≠ ']' := by
    have number : ∀ {text}, IsNumberText text →
        ∃ c rest, text = c :: rest ∧ isBlank c = false ∧ c ≠ ']' := by
      intro text number
      obtain ⟨c, rest, same, first⟩ := number.begins
      exact ⟨c, rest, same, (begin_number first []).2⟩
    cases j with
    | null => exact ⟨'n', _, rfl, rfl, by decide⟩
    | bool b => cases b <;> exact ⟨_, _, rfl, rfl, by decide⟩
    | int n => exact number (isNumberText_intText n)
    | float x =>
      by_cases finite : isFinite x = true
      · exact number (isNumberText_floatText finite)
      · exact ⟨'n', _, floatText_of_not_finite finite, rfl, by decide⟩
    | string s => exact ⟨'"', _, rfl, rfl, by decide⟩
    | array items => exact ⟨'[', _, rfl, rfl, by decide⟩
    | object members => exact ⟨'\x7b', _, rfl, rfl, by decide⟩
    | unreadable gap => exact ⟨'n', _, rfl, rfl, by decide⟩
  obtain ⟨c, rest, text_eq, blank, bracket⟩ := first
  rw [text_eq, List.cons_append, run_cons, run_cons]
  simp [step, blank, bracket]

/-- What is behind a value ends it, or goes on in the bracket around it. -/
theorem Behind.run_cons {c : Char} {text : List Char} (behind : Behind stack result state)
    (other : inNumber c = false) :
    run (c :: text) state = run text (settle (completed stack result) c) := by
  rw [Reader.run_cons, behind.step other]

mutual

/-- A value is read as what its text reads as, and goes into the bracket around it. -/
theorem behind_chars (stack : List Frame) : ∀ j : Json,
    Behind stack (reread j) (run (chars j) (.value stack))
  | .null => .settled
  | .bool true => .settled
  | .bool false => .settled
  | .int n => behind_number (isNumberText_intText n) stack
  | .float x => by
    by_cases finite : isFinite x = true
    · have read := behind_number (isNumberText_floatText finite) stack
      rwa [reread, if_pos finite]
    · have null : chars (.float x) = ['n', 'u', 'l', 'l'] := floatText_of_not_finite finite
      rw [reread, if_neg finite, null]
      exact .settled
  | .string s => by
    have read : run (chars (.string s)) (.value stack) = completed stack (reread (.string s)) :=
      run_string s stack
    rw [read]
    exact .settled
  | .array items => by
    have read : run (chars (.array items)) (.value stack)
        = completed stack (reread (.array items)) :=
      run_itemChars_first stack items
    rw [read]
    exact .settled
  | .object members => by
    have read : run (chars (.object members)) (.value stack)
        = completed stack (reread (.object members)) :=
      run_memberChars_first stack members
    rw [read]
    exact .settled
  | .unreadable _ => .settled

/-- The items of a list behind its opening bracket. -/
theorem run_itemChars_first (stack : List Frame) : ∀ items : List Json,
    run (itemChars true items) (.firstItem (.array [] :: stack))
      = completed stack ((rereadItems items).map .array)
  | [] => rfl
  | item :: rest => by
    have behind := behind_chars (.array [] :: stack) item
    have later := run_itemChars stack [] behind rest
    simp only [itemChars, if_true, List.nil_append]
    rw [run_firstItem, run_append, later, rereadItems]
    cases reread item <;> simp [Option.map_map, Function.comp_def]

/-- The items of a list behind the first. -/
theorem run_itemChars {result : Option Json} {state : State} (stack : List Frame)
    (done : List Json) (behind : Behind (.array done :: stack) result state) :
    ∀ items : List Json, run (itemChars false items) state
      = completed stack (result.bind fun value => (rereadItems items).map fun later =>
          .array (done.reverse ++ value :: later))
  | [] => by
    rw [itemChars, behind.run_cons (by decide)]
    cases result with
    | none => rfl
    | some value => simp [completed, complete, settle, isBlank, close, run, rereadItems]
  | item :: rest => by
    simp only [itemChars, Bool.false_eq_true, if_false, List.cons_append, List.nil_append]
    rw [behind.run_cons (by decide)]
    cases result with
    | none => exact run_failed _
    | some value =>
      have next : settle (completed (.array done :: stack) (some value)) ','
          = .value (.array (value :: done) :: stack) := rfl
      have behind := behind_chars (.array (value :: done) :: stack) item
      have later := run_itemChars stack (value :: done) behind rest
      rw [next, run_append, later, rereadItems]
      cases reread item <;> simp [Option.map_map, Function.comp_def]

/-- The members of an object behind its opening bracket. -/
theorem run_memberChars_first (stack : List Frame) : ∀ members : List (String × Json),
    run (memberChars true members) (.firstKey (.object [] "" true :: stack))
      = completed stack ((rereadMembers members).map .object)
  | [] => rfl
  | (key, value) :: rest => by
    have behind := behind_chars (.object [] key true :: stack) value
    have later := run_memberChars stack [] key behind rest
    simp only [memberChars, if_true, List.nil_append, List.append_assoc, List.cons_append]
    rw [run_append, (run_key key [] "" stack).2, Reader.run_cons]
    have colon : step (.colon (.object [] key true :: stack)) ':'
        = .value (.object [] key true :: stack) := rfl
    rw [colon, run_append, later, rereadMembers]
    cases reread value <;> simp [Option.map_map, Function.comp_def]

/-- The members of an object behind the first. -/
theorem run_memberChars {result : Option Json} {state : State} (stack : List Frame)
    (done : List (String × Json)) (key : String)
    (behind : Behind (.object done key true :: stack) result state) :
    ∀ members : List (String × Json), run (memberChars false members) state
      = completed stack (result.bind fun value => (rereadMembers members).map fun later =>
          .object (done.reverse ++ (key, value) :: later))
  | [] => by
    rw [memberChars, behind.run_cons (by decide)]
    cases result with
    | none => rfl
    | some value => simp [completed, complete, settle, isBlank, close, run, rereadMembers]
  | (next, value) :: rest => by
    simp only [memberChars, Bool.false_eq_true, if_false, List.cons_append, List.nil_append,
      List.append_assoc]
    rw [behind.run_cons (by decide)]
    cases result with
    | none => exact run_failed _
    | some first =>
      have comma : settle (completed (.object done key true :: stack) (some first)) ','
          = .key (.object ((key, first) :: done) "" true :: stack) := rfl
      have colon : step (.colon (.object ((key, first) :: done) next true :: stack)) ':'
          = .value (.object ((key, first) :: done) next true :: stack) := rfl
      have behind := behind_chars (.object ((key, first) :: done) next true :: stack) value
      have later := run_memberChars stack ((key, first) :: done) next behind rest
      rw [comma, run_append, (run_key next _ "" stack).1, Reader.run_cons, colon, run_append,
        later, rereadMembers]
      cases reread value <;> simp [Option.map_map, Function.comp_def]

end

end Reader

/-! ### Whole texts -/

theorem ofChars_chars (j : Json) : ofChars (chars j) = reread j :=
  (Reader.behind_chars [] j).finish

/-- A text written without blank space is read as what its parts read as, up to the brackets nested
too deep. -/
theorem parse_compact (j : Json) : parse (compact j) = (reread j).map (cut nestingLimit) := by
  rw [parse, compact, String.toList_ofList, ofChars_chars]

/-- A text takes at most four bytes for each of its characters. -/
theorem utf8ByteSize_compact_le (j : Json) : (compact j).utf8ByteSize ≤ 4 * (chars j).length := by
  have encoded : ∀ text : List Char, (text.flatMap String.utf8EncodeChar).length
      ≤ 4 * text.length := by
    intro text
    induction text with
    | nil => simp
    | cons c text ih =>
      have size : c.utf8Size ≤ 4 := c.utf8Size_le_four
      rw [List.flatMap_cons, List.length_append, String.length_utf8EncodeChar, List.length_cons]
      omega
  have bytes : (compact j).utf8ByteSize = ((chars j).flatMap String.utf8EncodeChar).length := by
    rw [compact, ← String.size_toByteArray, String.toByteArray_ofList, List.utf8Encode]
    simp
  rw [bytes]
  exact encoded (chars j)

end RiskRules.Json
