import RiskRules.Json.Bytes
import RiskRules.Proofs.JsonText
import RiskRules.Proofs.NumberSyntax

/-!
JSON text written with one member a line. It is read as the text without blank space is
(`Json.ofChars_prettyChars`), and every text is read (`Json.exists_reread`). A value is written up
to its first gap, and to its end if it has none (`Json.gap_charsToGap`).

The machine that reads is followed through the text as it is through text without blank space: it
stays where it is on the blanks of a new line, except behind a number, which they end.
-/

namespace RiskRules.Json

/-! ### Every text is read -/

mutual

/-- The text of a value is the text of some value. -/
theorem exists_reread : ∀ j : Json, ∃ value, reread j = some value
  | .int n => exists_ofNumberText_intText n
  | .float x => by
    by_cases finite : isFinite x = true
    · obtain ⟨j, read⟩ := exists_ofNumberText_floatText finite
      exact ⟨j, by rw [reread, if_pos finite, read]⟩
    · exact ⟨.null, by rw [reread, if_neg finite]⟩
  | .array items => by
    obtain ⟨values, read⟩ := exists_rereadItems items
    exact ⟨.array values, by rw [reread, read]; rfl⟩
  | .object members => by
    obtain ⟨values, read⟩ := exists_rereadMembers members
    exact ⟨.object values, by rw [reread, read]; rfl⟩
  | .unreadable _ | .null => ⟨.null, rfl⟩
  | .bool b => ⟨.bool b, rfl⟩
  | .string s => ⟨.string s, rfl⟩

theorem exists_rereadItems : ∀ items : List Json, ∃ values, rereadItems items = some values
  | [] => ⟨[], rfl⟩
  | item :: rest => by
    obtain ⟨value, read⟩ := exists_reread item
    obtain ⟨values, later⟩ := exists_rereadItems rest
    exact ⟨value :: values, by rw [rereadItems, read, later]; rfl⟩

theorem exists_rereadMembers : ∀ members : List (String × Json),
    ∃ values, rereadMembers members = some values
  | [] => ⟨[], rfl⟩
  | (key, value) :: rest => by
    obtain ⟨same, read⟩ := exists_reread value
    obtain ⟨values, later⟩ := exists_rereadMembers rest
    exact ⟨(key, same) :: values, by rw [rereadMembers, read, later]; rfl⟩

end

namespace Reader

variable {stack : List Frame} {result : Option Json} {state : State}

/-! ### Blanks of a new line -/

/-- The machine stays where it is on blank space. -/
def Waits (state : State) : Prop :=
  ∀ c, isBlank c = true → step state c = state

theorem run_blanks {blanks : List Char} (each : ∀ c ∈ blanks, isBlank c = true)
    (waits : Waits state) : run blanks state = state := by
  induction blanks with
  | nil => rfl
  | cons c rest ih =>
    obtain ⟨here, later⟩ := List.forall_mem_cons.mp each
    rw [run_cons, waits c here, ih later]

theorem isBlank_of_mem_newline (depth : Nat) : ∀ c ∈ newline depth, isBlank c = true := by
  intro c mem
  rcases List.mem_cons.mp mem with rfl | mem
  · rfl
  · rw [List.eq_of_mem_replicate mem]
    rfl

theorem run_newline (waits : Waits state) (depth : Nat) (text : List Char) :
    run (newline depth ++ text) state = run text state := by
  rw [run_append, run_blanks (isBlank_of_mem_newline depth) waits]

theorem waits_value (stack : List Frame) : Waits (.value stack) :=
  fun _ blank => by simp [step, blank]

theorem waits_firstItem (stack : List Frame) : Waits (.firstItem stack) :=
  fun _ blank => by simp [step, blank]

theorem waits_key (stack : List Frame) : Waits (.key stack) :=
  fun _ blank => by simp [step, blank]

theorem waits_firstKey (stack : List Frame) : Waits (.firstKey stack) :=
  fun _ blank => by simp [step, blank]

theorem waits_completed (stack : List Frame) (result : Option Json) :
    Waits (completed stack result) := by
  intro c blank
  cases result with
  | none => rfl
  | some value =>
    cases stack with
    | nil => simp [completed, complete, step, settle, blank]
    | cons frame rest => cases frame <;> simp [completed, complete, step, settle, blank]

/-- Behind a value, a new line is passed over, and ends a number. -/
theorem Behind.run_newline (behind : Behind stack result state) (depth : Nat) (text : List Char) :
    run (newline depth ++ text) state = run text (completed stack result) := by
  have stays : ∀ c, isBlank c = true →
      settle (completed stack result) c = completed stack result := by
    intro c blank
    have waits := waits_completed stack result c blank
    cases result with
    | none => rfl
    | some value => rwa [completed, step_complete] at waits
  rw [newline, List.cons_append, behind.run_cons rfl, stays '\n' rfl, run_append]
  have blanks : ∀ c ∈ List.replicate (2 * depth) ' ', isBlank c = true := by
    intro c mem
    rw [List.eq_of_mem_replicate mem]
    rfl
  rw [run_blanks blanks (waits_completed stack result)]

/-! ### Values -/

theorem run_firstItem_pretty (depth : Nat) (j : Json) (text : List Char) (stack : List Frame) :
    run (prettyChars depth j ++ text) (.firstItem stack)
      = run (prettyChars depth j ++ text) (.value stack) := by
  cases j with
  | array items => cases items <;> rfl
  | object members => cases members <;> rfl
  | null => exact run_firstItem .null text stack
  | bool b => exact run_firstItem (.bool b) text stack
  | int n => exact run_firstItem (.int n) text stack
  | float x => exact run_firstItem (.float x) text stack
  | string s => exact run_firstItem (.string s) text stack
  | unreadable gap => exact run_firstItem (.unreadable gap) text stack

mutual

/-- A value is read as what its text reads as, and goes into the bracket around it. -/
theorem behind_prettyChars (depth : Nat) (stack : List Frame) : ∀ j : Json,
    Behind stack (reread j) (run (prettyChars depth j) (.value stack))
  | .null => .settled
  | .bool b => behind_chars stack (.bool b)
  | .int n => behind_chars stack (.int n)
  | .float x => behind_chars stack (.float x)
  | .string s => behind_chars stack (.string s)
  | .array [] => .settled
  | .array (item :: rest) => by
    have read : run (prettyChars depth (.array (item :: rest))) (.value stack)
        = completed stack (reread (.array (item :: rest))) :=
      run_prettyItems_first depth stack (item :: rest)
    rw [read]
    exact .settled
  | .object [] => .settled
  | .object (member :: rest) => by
    have read : run (prettyChars depth (.object (member :: rest))) (.value stack)
        = completed stack (reread (.object (member :: rest))) :=
      run_prettyMembers_first depth stack (member :: rest)
    rw [read]
    exact .settled
  | .unreadable _ => .settled

/-- The items of a list behind its opening bracket. -/
theorem run_prettyItems_first (depth : Nat) (stack : List Frame) : ∀ items : List Json,
    run (prettyItems depth true items) (.firstItem (.array [] :: stack))
      = completed stack ((rereadItems items).map .array)
  | [] => by
    rw [prettyItems, run_newline (waits_firstItem _)]
    rfl
  | item :: rest => by
    have behind := behind_prettyChars (depth + 1) (.array [] :: stack) item
    have later := run_prettyItems depth stack [] behind rest
    simp only [prettyItems, if_true, List.nil_append, List.append_assoc]
    rw [run_newline (waits_firstItem _), run_firstItem_pretty, run_append, later, rereadItems]
    cases reread item <;> simp [Option.map_map, Function.comp_def]

/-- The items of a list behind the first. -/
theorem run_prettyItems {result : Option Json} {state : State} (depth : Nat) (stack : List Frame)
    (done : List Json) (behind : Behind (.array done :: stack) result state) :
    ∀ items : List Json, run (prettyItems depth false items) state
      = completed stack (result.bind fun value => (rereadItems items).map fun later =>
          .array (done.reverse ++ value :: later))
  | [] => by
    rw [prettyItems, behind.run_newline]
    cases result with
    | none => rfl
    | some value => simp [completed, complete, step, settle, isBlank, close, run, rereadItems]
  | item :: rest => by
    simp only [prettyItems, Bool.false_eq_true, if_false, List.cons_append, List.nil_append,
      List.append_assoc]
    rw [behind.run_cons (by decide)]
    cases result with
    | none => exact run_failed _
    | some value =>
      have next : settle (completed (.array done :: stack) (some value)) ','
          = .value (.array (value :: done) :: stack) := rfl
      have behind := behind_prettyChars (depth + 1) (.array (value :: done) :: stack) item
      have later := run_prettyItems depth stack (value :: done) behind rest
      rw [next, run_newline (waits_value _), run_append, later, rereadItems]
      cases reread item <;> simp [Option.map_map, Function.comp_def]

/-- The members of an object behind its opening bracket. -/
theorem run_prettyMembers_first (depth : Nat) (stack : List Frame) :
    ∀ members : List (String × Json),
      run (prettyMembers depth true members) (.firstKey (.object [] "" true :: stack))
        = completed stack ((rereadMembers members).map .object)
  | [] => by
    rw [prettyMembers, run_newline (waits_firstKey _)]
    rfl
  | (key, value) :: rest => by
    have behind := behind_prettyChars (depth + 1) (.object [] key true :: stack) value
    have later := run_prettyMembers depth stack [] key behind rest
    simp only [prettyMembers, if_true, List.nil_append, List.append_assoc, List.cons_append]
    rw [run_newline (waits_firstKey _), run_append, (run_key key [] "" stack).2, Reader.run_cons,
      Reader.run_cons]
    have colon : step (step (.colon (.object [] key true :: stack)) ':') ' '
        = .value (.object [] key true :: stack) := rfl
    rw [colon, run_append, later, rereadMembers]
    cases reread value <;> simp [Option.map_map, Function.comp_def]

/-- The members of an object behind the first. -/
theorem run_prettyMembers {result : Option Json} {state : State} (depth : Nat)
    (stack : List Frame) (done : List (String × Json)) (key : String)
    (behind : Behind (.object done key true :: stack) result state) :
    ∀ members : List (String × Json), run (prettyMembers depth false members) state
      = completed stack (result.bind fun value => (rereadMembers members).map fun later =>
          .object (done.reverse ++ (key, value) :: later))
  | [] => by
    rw [prettyMembers, behind.run_newline]
    cases result with
    | none => rfl
    | some value => simp [completed, complete, step, settle, isBlank, close, run, rereadMembers]
  | (next, value) :: rest => by
    simp only [prettyMembers, Bool.false_eq_true, if_false, List.cons_append, List.nil_append,
      List.append_assoc]
    rw [behind.run_cons (by decide)]
    cases result with
    | none => exact run_failed _
    | some first =>
      have comma : settle (completed (.object done key true :: stack) (some first)) ','
          = .key (.object ((key, first) :: done) "" true :: stack) := rfl
      have colon : step (step (.colon (.object ((key, first) :: done) next true :: stack)) ':') ' '
          = .value (.object ((key, first) :: done) next true :: stack) := rfl
      have behind :=
        behind_prettyChars (depth + 1) (.object ((key, first) :: done) next true :: stack) value
      have later := run_prettyMembers depth stack ((key, first) :: done) next behind rest
      rw [comma, run_newline (waits_key _), run_append, (run_key next _ "" stack).1,
        Reader.run_cons, Reader.run_cons, colon, run_append, later, rereadMembers]
      cases reread value <;> simp [Option.map_map, Function.comp_def]

end

end Reader

/-! ### Whole texts -/

/-- A text with one member a line is read as what its parts read as. -/
theorem ofChars_prettyChars (j : Json) : ofChars (prettyChars 0 j) = reread j :=
  (Reader.behind_prettyChars 0 [] j).finish

/-- The bytes of a text are read as the text. -/
theorem ofBytes_toUTF8 (text : String) : ofBytes text.toUTF8 = parse text := by
  have valid : text.toUTF8.IsValidUTF8 := text.isValidUTF8
  rw [ofBytes, String.fromUTF8?, dif_pos valid]
  rfl

/-! ### Gaps -/

mutual

/-- A value is written up to its first gap, and to its end if it has none. -/
theorem gap_charsToGap (depth : Nat) : ∀ j : Json,
    (charsToGap depth j).map Begun.gap = j.gaps.head?
  | .unreadable _ => rfl
  | .array items => by
    rw [charsToGap, Option.map_map, gaps, ← gap_itemsToGap depth true items]
    rfl
  | .object members => by
    rw [charsToGap, Option.map_map, gaps, ← gap_membersToGap depth true members]
    rfl
  | .null | .bool _ | .int _ | .float _ | .string _ => by simp [charsToGap, gaps]

theorem gap_itemsToGap (depth : Nat) (first : Bool) : ∀ items : List Json,
    (itemsToGap depth first items).map Begun.gap = (gapsOfItems items).head?
  | [] => rfl
  | item :: rest => by
    have here := gap_charsToGap (depth + 1) item
    have later := gap_itemsToGap depth false rest
    rw [itemsToGap, gapsOfItems, List.head?_append, ← here, ← later]
    cases charsToGap (depth + 1) item with
    | some begun => rfl
    | none => simp [Function.comp_def, Begun.behind]

theorem gap_membersToGap (depth : Nat) (first : Bool) : ∀ members : List (String × Json),
    (membersToGap depth first members).map Begun.gap = (gapsOfMembers members).head?
  | [] => rfl
  | (key, value) :: rest => by
    have here := gap_charsToGap (depth + 1) value
    have later := gap_membersToGap depth false rest
    rw [membersToGap, gapsOfMembers, List.head?_append, ← here, ← later]
    cases charsToGap (depth + 1) value with
    | some begun => rfl
    | none => simp [Function.comp_def, Begun.behind]

end

mutual

/-- What is written up to a gap begins the whole text. -/
theorem prefix_of_charsToGap {depth : Nat} {begun : Begun} : ∀ {j : Json},
    charsToGap depth j = some begun → begun.text <+: prettyChars depth j
  | .unreadable _, broken => by
    cases broken
    exact List.nil_prefix
  | .array [], broken => by cases broken
  | .array (item :: rest), broken => by
    rw [charsToGap, Option.map_eq_some_iff] at broken
    obtain ⟨inside, stopped, rfl⟩ := broken
    exact (List.prefix_cons_inj '[').mpr (prefix_of_itemsToGap stopped)
  | .object [], broken => by cases broken
  | .object (member :: rest), broken => by
    rw [charsToGap, Option.map_eq_some_iff] at broken
    obtain ⟨inside, stopped, rfl⟩ := broken
    exact (List.prefix_cons_inj '\x7b').mpr (prefix_of_membersToGap stopped)

theorem prefix_of_itemsToGap {depth : Nat} {first : Bool} {begun : Begun} :
    ∀ {items : List Json}, itemsToGap depth first items = some begun →
      begun.text <+: prettyItems depth first items
  | [], broken => by cases broken
  | item :: rest, broken => by
    rw [itemsToGap] at broken
    rw [prettyItems]
    cases here : charsToGap (depth + 1) item with
    | some inside =>
      rw [here] at broken
      cases broken
      refine List.IsPrefix.trans ?_ (List.prefix_append _ _)
      exact (List.prefix_append_right_inj _).mpr (prefix_of_charsToGap here)
    | none =>
      rw [here] at broken
      obtain ⟨later, stopped, rfl⟩ := Option.map_eq_some_iff.mp broken
      exact (List.prefix_append_right_inj _).mpr (prefix_of_itemsToGap stopped)

theorem prefix_of_membersToGap {depth : Nat} {first : Bool} {begun : Begun} :
    ∀ {members : List (String × Json)}, membersToGap depth first members = some begun →
      begun.text <+: prettyMembers depth first members
  | [], broken => by cases broken
  | (key, value) :: rest, broken => by
    rw [membersToGap] at broken
    have shape : prettyMembers depth first ((key, value) :: rest)
        = ((if first then [] else [',']) ++ newline (depth + 1) ++ quoted key ++ [':', ' '])
          ++ (prettyChars (depth + 1) value ++ prettyMembers depth false rest) := by
      simp [prettyMembers]
    rw [shape]
    cases here : charsToGap (depth + 1) value with
    | some inside =>
      rw [here] at broken
      cases broken
      refine (List.prefix_append_right_inj _).mpr ?_
      exact (prefix_of_charsToGap here).trans (List.prefix_append _ _)
    | none =>
      rw [here] at broken
      obtain ⟨later, stopped, rfl⟩ := Option.map_eq_some_iff.mp broken
      rw [← List.append_assoc]
      exact (List.prefix_append_right_inj _).mpr (prefix_of_membersToGap stopped)

end

end RiskRules.Json
