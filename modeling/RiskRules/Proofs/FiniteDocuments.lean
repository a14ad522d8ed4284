import RiskRules.Environment
import RiskRules.Json.Reader
import RiskRules.Proofs.Construction
import RiskRules.Proofs.FiniteNumbers
import RiskRules.Proofs.Keyed
import RiskRules.Proofs.Results

/-!
Documents without infinite numbers. Every number that is read in a text is finite, so that at each
character the machine that reads holds finite values only (`Json.Reader.State.Finite.step`) and a
text reads as one (`Json.finite_of_parse`). A value of the same shape as a finite document is finite
(`Value.finite_of_ofPlain`), and so are the facts that are taken from such documents
(`Facts.finite_of_ofPayload`, `Facts.finite_of_addLists`).
-/

namespace RiskRules

namespace Json

/-- No number in the document is infinite or a non-number, however deep in brackets it stands. -/
inductive Finite : Json → Prop where
  | null : Finite .null
  | bool (b : Bool) : Finite (.bool b)
  | int (n : Int) : Finite (.int n)
  | float {x : Float} (finite : isFinite x = true) : Finite (.float x)
  | string (s : String) : Finite (.string s)
  | array {items : List Json} (each : ∀ item ∈ items, Finite item) : Finite (.array items)
  | object {members : List (String × Json)} (each : ∀ member ∈ members, Finite member.2) :
      Finite (.object members)
  | unreadable (gap : Gap) : Finite (.unreadable gap)

/-! ### Numbers -/

theorem finite_ofScaled {negative : Bool} {n : Nat} {exponent : Int} :
    (ofScaled negative (scaled n exponent)).Finite := by
  cases taken : scaled n exponent with
  | none => exact .unreadable _
  | some x =>
    refine .float ?_
    split
    · exact Binary64.isFinite_neg (isFinite_of_scaled taken)
    · exact isFinite_of_scaled taken

theorem finite_ofParts {negative : Bool} {whole fraction : List Nat} {exponent : Int} :
    (ofParts negative whole fraction exponent).Finite :=
  finite_ofScaled

theorem finite_wholeNumber {negative : Bool} {digits : List Nat} :
    (wholeNumber negative digits).Finite := by
  simp only [wholeNumber]
  split_ifs
  · exact .int _
  · exact finite_ofParts
  · exact .int _
  · exact finite_ofParts

theorem finite_of_ofNumberText {text : List Char} {j : Json} (read : ofNumberText text = some j) :
    j.Finite := by
  simp only [ofNumberText] at read
  repeat' split at read
  all_goals cases read
  all_goals first
    | exact finite_wholeNumber
    | exact finite_ofParts

/-! ### Reading -/

namespace Reader

variable {stack : List Frame} {state : State} {value : Json} {c : Char}

/-- What has been read inside a bracket is finite. -/
def Frame.Finite : Frame → Prop
  | .array items => ∀ item ∈ items, item.Finite
  | .object members _ _ => ∀ member ∈ members, member.2.Finite

/-- What has been read is finite. -/
def State.Finite : State → Prop
  | .value stack | .firstItem stack | .key stack | .firstKey stack | .colon stack | .next stack
  | .text stack _ _ | .number stack _ => ∀ frame ∈ stack, frame.Finite
  | .word stack _ result => (∀ frame ∈ stack, frame.Finite) ∧ result.Finite
  | .done result => result.Finite
  | .failed => True

theorem finite_complete (value_finite : value.Finite) (around : ∀ frame ∈ stack, frame.Finite) :
    (complete value stack).Finite := by
  cases stack with
  | nil => exact value_finite
  | cons frame rest =>
    obtain ⟨inside, outside⟩ := List.forall_mem_cons.mp around
    cases frame with
    | array items =>
      exact List.forall_mem_cons.mpr ⟨List.forall_mem_cons.mpr ⟨value_finite, inside⟩, outside⟩
    | object members key sound =>
      exact List.forall_mem_cons.mpr ⟨List.forall_mem_cons.mpr ⟨value_finite, inside⟩, outside⟩

theorem finite_close {frame : Frame} (finite : ∀ f ∈ frame :: stack, f.Finite) :
    (close stack frame).Finite := by
  obtain ⟨inside, around⟩ := List.forall_mem_cons.mp finite
  cases frame with
  | array items =>
    exact finite_complete (.array fun item mem => inside item (List.mem_reverse.mp mem)) around
  | object members key sound =>
    refine finite_complete ?_ around
    split
    · exact .object fun member mem => inside member (List.mem_reverse.mp mem)
    · exact .unreadable _

theorem finite_begin (around : ∀ frame ∈ stack, frame.Finite) : (begin stack c).Finite := by
  have opened : (Frame.array []).Finite ∧ (Frame.object [] "" true).Finite := ⟨nofun, nofun⟩
  simp only [begin]
  split_ifs
  · exact List.forall_mem_cons.mpr ⟨opened.1, around⟩
  · exact List.forall_mem_cons.mpr ⟨opened.2, around⟩
  · exact around
  · exact ⟨around, .bool true⟩
  · exact ⟨around, .bool false⟩
  · exact ⟨around, .null⟩
  · exact around
  · trivial

theorem State.Finite.settle (finite : state.Finite) : (settle state c).Finite := by
  fun_cases Reader.settle state c
  all_goals first
    | exact finite
    | exact finite_close finite
    | trivial

theorem finite_closeText {isKey : Bool} {t : Text} (around : ∀ frame ∈ stack, frame.Finite) :
    (closeText stack isKey t).Finite := by
  simp only [closeText]
  split
  · split
    · obtain ⟨inside, around⟩ := List.forall_mem_cons.mp around
      exact List.forall_mem_cons.mpr ⟨inside, around⟩
    · trivial
  · refine finite_complete ?_ around
    split
    · exact .string _
    · exact .unreadable _

theorem finite_stepText {isKey : Bool} {t : Text} (around : ∀ frame ∈ stack, frame.Finite) :
    (stepText stack isKey t c).Finite := by
  fun_cases stepText stack isKey t c
  all_goals first
    | exact finite_closeText around
    | exact around
    | trivial

theorem finite_closeNumber {chars : List Char} (around : ∀ frame ∈ stack, frame.Finite) :
    (closeNumber stack chars).Finite := by
  rw [closeNumber]
  split
  · exact finite_complete (finite_of_ofNumberText ‹_›) around
  · trivial

/-- Whatever character comes, what has been read stays finite. -/
theorem State.Finite.step (finite : state.Finite) : (step state c).Finite := by
  cases state with
  | failed => trivial
  | value stack =>
    simp only [Reader.step]
    split
    · exact finite
    · exact finite_begin finite
  | firstItem stack =>
    simp only [Reader.step]
    split_ifs
    · exact finite
    · cases stack with
      | nil => trivial
      | cons frame rest => exact finite_close finite
    · exact finite_begin finite
  | key stack =>
    simp only [Reader.step]
    split_ifs
    · exact finite
    · exact finite
    · trivial
  | firstKey stack =>
    simp only [Reader.step]
    split_ifs
    · exact finite
    · exact finite
    · cases stack with
      | nil => trivial
      | cons frame rest => exact finite_close finite
    · trivial
  | colon stack =>
    simp only [Reader.step]
    split_ifs
    · exact finite
    · exact finite
    · trivial
  | next stack => exact State.Finite.settle finite
  | done result => exact State.Finite.settle finite
  | text stack isKey t => exact finite_stepText finite
  | number stack chars =>
    simp only [Reader.step]
    split
    · exact finite
    · exact (finite_closeNumber finite).settle
  | word stack left result =>
    cases left with
    | nil => trivial
    | cons expected left =>
      cases left <;> simp only [Reader.step] <;> split
      · exact finite_complete finite.2 finite.1
      · trivial
      · exact finite
      · trivial

theorem State.Finite.run {text : List Char} (finite : state.Finite) : (run text state).Finite := by
  induction text generalizing state with
  | nil => exact finite
  | cons c rest ih => exact ih finite.step

theorem finite_of_finish (finite : state.Finite) (read : finish state = some value) :
    value.Finite := by
  cases state with
  | done result =>
    cases read
    exact finite
  | number stack chars =>
    cases stack with
    | nil => exact finite_of_ofNumberText read
    | cons frame rest => cases read
  | _ => cases read

end Reader

/-! ### Texts -/

theorem cutItems_eq_map (levels : Nat) (items : List Json) :
    cutItems levels items = items.map (cut levels) := by
  induction items with
  | nil => rfl
  | cons item rest ih => rw [cutItems, ih, List.map_cons]

theorem cutMembers_eq_map (levels : Nat) (members : List (String × Json)) :
    cutMembers levels members = members.map fun member => (member.1, cut levels member.2) := by
  induction members with
  | nil => rfl
  | cons member rest ih => rw [cutMembers, ih, List.map_cons]

/-- Leaving out brackets keeps the rest finite. -/
theorem Finite.cut {j : Json} (finite : j.Finite) (levels : Nat) : (cut levels j).Finite := by
  induction finite generalizing levels with
  | array _ each =>
    cases levels with
    | zero => exact .unreadable _
    | succ levels =>
      rw [Json.cut, cutItems_eq_map]
      exact .array (List.forall_mem_map.mpr fun item mem => each item mem levels)
  | object _ each =>
    cases levels with
    | zero => exact .unreadable _
    | succ levels =>
      rw [Json.cut, cutMembers_eq_map]
      exact .object (List.forall_mem_map.mpr fun member mem => each member mem levels)
  | null => cases levels <;> exact .null
  | bool b => cases levels <;> exact .bool b
  | int n => cases levels <;> exact .int n
  | float finite => cases levels <;> exact .float finite
  | string s => cases levels <;> exact .string s
  | unreadable => cases levels <;> exact .unreadable _

/-- Whatever a text reads as is finite. -/
theorem finite_of_parse {text : String} {j : Json} (read : parse text = some j) : j.Finite := by
  obtain ⟨whole, taken, rfl⟩ := Option.map_eq_some_iff.mp read
  have start : (Reader.State.value []).Finite := nofun
  exact (Reader.finite_of_finish start.run taken).cut nestingLimit

end Json

/-! ### Values -/

namespace Value

/-- No number in the value is infinite or a non-number, however deep in lists it stands. -/
def Finite (v : Value) : Prop :=
  ∀ x, (Value.float x).Within v → x.isNaN = false ∧ x.isInf = false

theorem finite_iff {v : Value} : v.Finite ↔ v.allFinite = true := by
  simp only [Finite, allFinite_eq_true_iff, Binary64.isFinite_iff]

theorem finite_list_iff {items : List Value} :
    (Value.list items).Finite ↔ ∀ item ∈ items, item.Finite := by
  simp only [finite_iff]
  exact allFiniteItems_eq_true_iff

theorem ofPlainItems_eq_mapM (items : List Json) : ofPlainItems items = items.mapM ofPlain := by
  induction items with
  | nil => rfl
  | cons item rest ih => rw [ofPlainItems, ih, List.mapM_cons]

/-- A value of the same shape as a finite document is finite. -/
theorem finite_of_ofPlain {j : Json} {v : Value} (finite : j.Finite) (taken : ofPlain j = .ok v) :
    v.Finite := by
  induction finite generalizing v with
  | array _ each =>
    rw [ofPlain, ofPlainItems_eq_mapM, bind_eq_ok_iff] at taken
    obtain ⟨values, all, taken⟩ := taken
    cases taken
    refine finite_list_iff.mpr fun value mem => ?_
    obtain ⟨item, item_mem, here⟩ := exists_of_mem_right (mapM_eq_ok_iff.mp all) mem
    exact each item item_mem here
  | int n =>
    cases taken
    split
    · exact finite_iff.mpr rfl
    · exact finite_iff.mpr (Json.isFinite_floatOfInt n)
  | float finite =>
    cases taken
    exact finite_iff.mpr finite
  | null | bool | string =>
    cases taken
    exact finite_iff.mpr rfl
  | object | unreadable => cases taken

end Value

/-! ### Facts -/

/-- The environment answers with finite values. -/
structure Environment.Finite (env : Environment) : Prop where
  payloadField : ∀ name v, env.payloadField name = .ok v → v.Finite
  listItems : ∀ name items, env.listItems name = .ok items → ∀ item ∈ items, item.Finite
  relatedField : ∀ table field path v, env.relatedField table field path = .ok v → v.Finite
  variableValue : ∀ name v, env.variableValue name = .ok v → v.Finite

namespace Facts

variable {facts facts' : Facts} {key : String}

theorem answer_eq_ok_iff {α : Type} {lookup : LookupKind} {name : String} {found : Option α}
    {a : α} : answer lookup name found = .ok a ↔ found = some a := by
  cases found <;> simp [answer]

theorem finite_empty : empty.toEnvironment.Finite :=
  ⟨nofun, nofun, nofun, nofun⟩

theorem finite_withPayload (finite : facts.toEnvironment.Finite) {value : Value}
    (value_finite : value.Finite) : (facts.withPayload key value).toEnvironment.Finite := by
  refine ⟨fun name v found => ?_, finite.listItems, finite.relatedField, finite.variableValue⟩
  rw [toEnvironment, answer_eq_ok_iff, withPayload, Keyed.get?_insert] at found
  split at found
  · cases found
    exact value_finite
  · exact finite.payloadField name v (answer_eq_ok_iff.mpr found)

theorem finite_withList (finite : facts.toEnvironment.Finite) {values : List Value}
    (values_finite : ∀ value ∈ values, value.Finite) :
    (facts.withList key values).toEnvironment.Finite := by
  refine ⟨finite.payloadField, fun name items found => ?_, finite.relatedField,
    finite.variableValue⟩
  rw [toEnvironment, answer_eq_ok_iff, withList, Keyed.get?_insert] at found
  split at found
  · cases found
    exact values_finite
  · exact finite.listItems name items (answer_eq_ok_iff.mpr found)

theorem finite_of_takePayload {j : Json} (finite : facts.toEnvironment.Finite)
    (j_finite : j.Finite) (taken : takePayload facts key j = .ok facts') :
    facts'.toEnvironment.Finite := by
  rw [takePayload] at taken
  split at taken
  · rename_i value plain
    cases taken
    exact finite_withPayload finite (Value.finite_of_ofPlain j_finite plain)
  · cases taken

theorem finite_of_takeList {j : Json} (finite : facts.toEnvironment.Finite)
    (j_finite : j.Finite) (taken : takeList facts key j = .ok facts') :
    facts'.toEnvironment.Finite := by
  rw [takeList] at taken
  split at taken
  · rename_i values plain
    cases taken
    exact finite_withList finite
      (Value.finite_list_iff.mp (Value.finite_of_ofPlain j_finite plain))
  · cases taken
  · cases taken

/-- Facts stay finite under every member if they stay so under one. -/
theorem finite_of_addEach {take : Facts → String → Json → Except EnvironmentError Facts}
    {members : List (String × Json)}
    (step : ∀ {facts facts' : Facts} {key : String} {j : Json}, facts.toEnvironment.Finite →
      j.Finite → take facts key j = .ok facts' → facts'.toEnvironment.Finite)
    (finite : facts.toEnvironment.Finite) (members_finite : ∀ member ∈ members, member.2.Finite)
    (added : addEach take facts members = .ok facts') : facts'.toEnvironment.Finite := by
  induction members generalizing facts with
  | nil =>
    cases added
    exact finite
  | cons member rest ih =>
    obtain ⟨here, later⟩ := List.forall_mem_cons.mp members_finite
    rw [addEach] at added
    split at added
    · rename_i taken
      exact ih (step finite here taken) later added
    · cases added

/-- The members of an object, each key once, are members of it. -/
theorem finite_of_mem_ofList {members : List (String × Json)}
    (finite : (Json.object members).Finite) : ∀ member ∈ Keyed.ofList members, member.2.Finite := by
  cases finite with
  | object each => exact fun member mem => each member (Keyed.mem_of_mem_ofList mem)

/-- Facts whose payload is a finite document are finite. -/
theorem finite_of_ofPayload {j : Json} (finite : j.Finite) (made : ofPayload j = .ok facts) :
    facts.toEnvironment.Finite := by
  cases j with
  | object members =>
    exact finite_of_addEach finite_of_takePayload finite_empty (finite_of_mem_ofList finite) made
  | _ => cases made

/-- Finite facts stay so with the lists of a finite document. -/
theorem finite_of_addLists {j : Json} (facts_finite : facts.toEnvironment.Finite)
    (finite : j.Finite) (added : facts.addLists j = .ok facts') :
    facts'.toEnvironment.Finite := by
  cases j with
  | object members =>
    exact finite_of_addEach finite_of_takeList facts_finite (finite_of_mem_ofList finite) added
  | _ => cases added

end Facts

end RiskRules
