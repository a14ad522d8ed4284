import RiskRules.Configuration
import RiskRules.Proofs.Results

/-!
Paths of stores from configurations. The blank characters at the ends of a path are not looked at
when the path is configured, but they are part of it when the store is opened. Names inside a path
are the same for both; so a configured path is short enough for the store exactly if all of it is,
and its first and its last name are, blanks included (`Configuration.open_configured`).
-/

namespace RiskRules

/-! ### Parts of a path -/

namespace Path

section

variable {front l m back : List Char} {P : List Char → Prop}

theorem splitSlashes_eq_splitOnP (l : List Char) : splitSlashes l = l.splitOnP (· == '/') := by
  induction l with
  | nil => rfl
  | cons c rest ih =>
    rw [splitSlashes, List.splitOnP_cons_eq_if_modifyHead, ih]
    by_cases slash : c = '/'
    · simp [slash]
    · rw [if_neg slash, if_neg (by simpa using slash)]
      cases parts : rest.splitOnP (· == '/') with
      | nil => exact absurd parts (List.splitOnP_ne_nil _ rest)
      | cons part parts => rfl

theorem splitSlashes_of_not_mem (whole : '/' ∉ l) : splitSlashes l = [l] := by
  rw [splitSlashes_eq_splitOnP]
  refine List.splitOnP_eq_singleton fun c mem => beq_false_of_ne ?_
  rintro rfl
  exact whole mem

theorem splitSlashes_append_slash (l m : List Char) :
    splitSlashes (l ++ '/' :: m) = splitSlashes l ++ splitSlashes m := by
  simp only [splitSlashes_eq_splitOnP]
  exact List.splitOnP_append_cons l m rfl

/-- What stands before the first slash. -/
def beforeSlash (l : List Char) : List Char :=
  l.takeWhile (· ≠ '/')

/-- What stands behind the last slash. -/
def behindSlash (l : List Char) : List Char :=
  (l.reverse.takeWhile (· ≠ '/')).reverse

theorem beforeSlash_of_not_mem (whole : '/' ∉ l) : beforeSlash l = l := by
  have kept : ∀ c ∈ l, decide (c ≠ '/') = true := fun c mem =>
    decide_eq_true (ne_of_mem_of_not_mem mem whole)
  have all : (l ++ []).takeWhile (· ≠ '/') = l ++ [].takeWhile (· ≠ '/') :=
    List.takeWhile_append_of_pos kept
  rwa [List.takeWhile_nil, List.append_nil] at all

theorem beforeSlash_append_slash (l m : List Char) :
    beforeSlash (l ++ '/' :: m) = beforeSlash l := by
  induction l with
  | nil => rfl
  | cons c rest ih =>
    simp only [beforeSlash, List.cons_append, List.takeWhile_cons] at ih ⊢
    rw [ih]

theorem behindSlash_of_not_mem (whole : '/' ∉ l) : behindSlash l = l := by
  have reversed := beforeSlash_of_not_mem (l := l.reverse) (by simpa using whole)
  exact List.reverse_eq_iff.mpr reversed

theorem behindSlash_append_slash (l m : List Char) :
    behindSlash (l ++ '/' :: m) = behindSlash m := by
  have reversed : (l ++ '/' :: m).reverse = m.reverse ++ '/' :: l.reverse := by simp
  rw [behindSlash, reversed]
  exact congrArg List.reverse (beforeSlash_append_slash m.reverse l.reverse)

/-- What is put behind a text without slashes changes its last part only. -/
theorem forall_splitSlashes_append (back_whole : '/' ∉ back)
    (each : ∀ part ∈ splitSlashes l, P part) :
    (∀ part ∈ splitSlashes (l ++ back), P part) ↔ P (behindSlash (l ++ back)) := by
  by_cases slash : '/' ∈ l
  · obtain ⟨before, last, rfl, last_whole⟩ :
        ∃ before last, l = before ++ '/' :: last ∧ '/' ∉ last := by
      obtain ⟨last, before, reversed, whole⟩ :=
        List.eq_append_cons_of_mem (List.mem_reverse.mpr slash)
      refine ⟨before.reverse, last.reverse, ?_, by simpa using whole⟩
      rw [← List.reverse_reverse l, reversed]
      simp
    have whole : '/' ∉ last ++ back := by simp [last_whole, back_whole]
    rw [splitSlashes_append_slash, List.forall_mem_append] at each
    rw [List.append_assoc, List.cons_append, splitSlashes_append_slash,
      splitSlashes_of_not_mem whole, behindSlash_append_slash, behindSlash_of_not_mem whole,
      List.forall_mem_append, List.forall_mem_singleton]
    exact and_iff_right each.1
  · have whole : '/' ∉ l ++ back := by simp [slash, back_whole]
    rw [splitSlashes_of_not_mem whole, behindSlash_of_not_mem whole, List.forall_mem_singleton]

/-- What is put around a text without slashes changes its first and its last part only. -/
theorem forall_splitSlashes_surrounded (front_whole : '/' ∉ front) (back_whole : '/' ∉ back)
    (each : ∀ part ∈ splitSlashes l, P part) :
    (∀ part ∈ splitSlashes (front ++ l ++ back), P part)
      ↔ P (beforeSlash (front ++ l ++ back)) ∧ P (behindSlash (front ++ l ++ back)) := by
  by_cases slash : '/' ∈ l
  · obtain ⟨first, rest, rfl, first_whole⟩ := List.eq_append_cons_of_mem slash
    have whole : '/' ∉ front ++ first := by simp [front_whole, first_whole]
    have shape : front ++ (first ++ '/' :: rest) ++ back
        = (front ++ first) ++ '/' :: (rest ++ back) := by simp
    rw [splitSlashes_append_slash, List.forall_mem_append] at each
    rw [shape, splitSlashes_append_slash, splitSlashes_of_not_mem whole, beforeSlash_append_slash,
      beforeSlash_of_not_mem whole, behindSlash_append_slash, List.forall_mem_append,
      List.forall_mem_singleton, forall_splitSlashes_append back_whole each.2]
  · have whole : '/' ∉ front ++ l ++ back := by simp [front_whole, slash, back_whole]
    rw [splitSlashes_of_not_mem whole, beforeSlash_of_not_mem whole, behindSlash_of_not_mem whole,
      List.forall_mem_singleton, and_self]

end

/-- A path has no long name exactly if nothing between its slashes is long. -/
theorem hasLongName_eq_false_iff (path : String) : hasLongName path = false
    ↔ ∀ part ∈ splitSlashes path.toList, (String.ofList part).utf8ByteSize ≤ maxNameBytes := by
  simp only [hasLongName, names, List.any_eq_false, List.forall_mem_map, List.mem_filter]
  constructor
  · intro short part mem
    by_cases empty : part = []
    · subst empty
      exact Nat.zero_le _
    · have kept := short part ⟨mem, by simpa using empty⟩
      simpa using kept
  · rintro short part ⟨mem, -⟩
    simpa using short part mem

/-- The name before the first slash of a path, blanks included. -/
def firstName (path : String) : String :=
  String.ofList (beforeSlash path.toList)

/-- The name behind the last slash of a path, blanks included. -/
def lastName (path : String) : String :=
  String.ofList (behindSlash path.toList)

/-- A path is short, and so are its first and its last name. -/
structure EndsFit (path : String) : Prop where
  whole : path.utf8ByteSize ≤ maxBytes
  first : (firstName path).utf8ByteSize ≤ maxNameBytes
  last : (lastName path).utf8ByteSize ≤ maxNameBytes

end Path

/-! ### Blanks at the ends -/

namespace Blank

theorem exists_around_trim (text : List Char) : ∃ front back,
    text = front ++ trimChars text ++ back ∧ (∀ c ∈ front, isBlank c = true) ∧
    ∀ c ∈ back, isBlank c = true := by
  refine ⟨text.takeWhile isBlank, ((text.dropWhile isBlank).reverse.takeWhile isBlank).reverse,
    ?_, ?_, ?_⟩
  · rw [trimChars, List.append_assoc, ← List.reverse_append, List.takeWhile_append_dropWhile,
      List.reverse_reverse, List.takeWhile_append_dropWhile]
  · exact fun c mem => List.all_eq_true.mp List.all_takeWhile c mem
  · exact fun c mem => List.all_eq_true.mp List.all_takeWhile c (List.mem_reverse.mp mem)

/-- A slash is no blank character. -/
theorem not_mem_of_blank {blanks : List Char} (each : ∀ c ∈ blanks, isBlank c = true) :
    '/' ∉ blanks := by
  intro mem
  have blank := each _ mem
  revert blank
  decide

end Blank

namespace Path

/-- Of a path whose names are short without the blanks at its ends, the names at the ends decide. -/
theorem hasLongName_eq_false_of_trim {path : String} (short : hasLongName (Blank.trim path) = false) :
    hasLongName path = false ↔ (firstName path).utf8ByteSize ≤ maxNameBytes ∧
      (lastName path).utf8ByteSize ≤ maxNameBytes := by
  obtain ⟨front, back, around, front_blank, back_blank⟩ := Blank.exists_around_trim path.toList
  rw [hasLongName_eq_false_iff, Blank.trim, String.toList_ofList] at short
  rw [hasLongName_eq_false_iff, firstName, lastName, around]
  exact forall_splitSlashes_surrounded (Blank.not_mem_of_blank front_blank)
    (Blank.not_mem_of_blank back_blank) short

end Path

/-! ### Opening a store -/

namespace StoreLocation

variable {path : String} {location : StoreLocation} {e : TablesError}

/-- The errors of paths that are too long for the store. -/
def lengthErrors : List TablesError :=
  [.invalid "store path exceeds length limit", .invalid "store path contains an overlong component"]

theorem checkLengths_eq_ok_iff : checkLengths path = .ok ()
    ↔ path.utf8ByteSize ≤ Path.maxBytes ∧ Path.hasLongName path = false := by
  rw [checkLengths, Path.isLong]
  by_cases long : Path.maxBytes < path.utf8ByteSize
  · simp [long, Nat.not_le_of_lt long]
  · have short : path.utf8ByteSize ≤ Path.maxBytes := Nat.le_of_not_lt long
    cases Path.hasLongName path <;> simp [short, long]

theorem mem_lengthErrors_of_checkLengths (refused : checkLengths path = .error e) :
    e ∈ lengthErrors := by
  rw [checkLengths] at refused
  split at refused
  · cases refused
    exact List.mem_cons_self
  · split at refused
    · cases refused
      exact List.mem_cons_of_mem _ List.mem_cons_self
    · cases refused

theorem exists_io_of_makeParents {f : Files} (failed : makeParents f path = .error e) :
    ∃ text, e = .io text := by
  rw [makeParents] at failed
  split at failed
  · exact ⟨_, (Except.error.inj failed).symm⟩
  · split at failed
    · exact ⟨_, (Except.error.inj failed).symm⟩
    · split at failed
      · cases failed
      · exact ⟨_, (Except.error.inj failed).symm⟩

theorem exists_db_of_beginTables {place : List String} (failed : beginTables place = .error e) :
    ∃ text, e = .db text := by
  rw [beginTables] at failed
  split at failed
  · cases failed
  · exact ⟨_, (Except.error.inj failed).symm⟩

theorem exists_db_of_openFile {f : Files} (failed : openFile f path = .error e) :
    ∃ text, e = .db text := by
  simp only [openFile] at failed
  split at failed
  · exact ⟨_, (Except.error.inj failed).symm⟩
  rw [openPlace] at failed
  split at failed
  · exact ⟨_, (Except.error.inj failed).symm⟩
  split at failed
  · exact ⟨_, (Except.error.inj failed).symm⟩
  · split at failed
    · exact exists_db_of_beginTables failed
    · exact ⟨_, (Except.error.inj failed).symm⟩
  · exact exists_db_of_beginTables failed

/-- A store is refused for the length of its path exactly if the path fails the check of lengths. -/
theorem openTables_length_error_iff (f : Files) :
    (∃ e ∈ lengthErrors, openTables f location = .error e)
      ↔ checkLengths location.path ≠ .ok () := by
  constructor
  · rintro ⟨e, mem, failed⟩ passed
    -- what fails behind the check are directories and the file itself
    rw [openTables, checkPath, passed] at failed
    rcases bind_eq_error_iff.mp failed with directory | ⟨_, -, behind⟩
    · change (if f.isDirectory location.path = true then _ else _) = _ at directory
      split at directory
      · cases directory
        revert mem
        decide
      · cases directory
    · rcases bind_eq_error_iff.mp behind with parents | ⟨_, -, file⟩
      · obtain ⟨text, rfl⟩ := exists_io_of_makeParents parents
        simp [lengthErrors] at mem
      · obtain ⟨text, rfl⟩ := exists_db_of_openFile file
        simp [lengthErrors] at mem
  · intro refused
    cases checked : checkLengths location.path with
    | ok => exact absurd checked refused
    | error e =>
      refine ⟨e, mem_lengthErrors_of_checkLengths checked, ?_⟩
      rw [openTables, checkPath, checked]
      rfl

end StoreLocation

namespace Configuration

variable {text : String} {c : Configuration} {path : String}

theorem require_eq_ok_iff {condition : Bool} {e : SettingError} {u : Unit} :
    require condition e = .ok u ↔ condition = true := by
  cases condition <;> simp [require]

/-- What a text gives has been read from its characters and then checked. -/
theorem ofText_eq_ok_iff : ofText text = .ok c
    ↔ (Toml.ofChars text.toList).bind ofToml? = some c ∧ c.check = .ok () := by
  rw [ofText, ofDocument, Toml.parse]
  cases (Toml.ofChars text.toList).bind ofToml? with
  | none => simp
  | some read =>
    simp only [Option.some.injEq]
    constructor
    · intro accepted
      split at accepted
      · rename_i checked
        cases accepted
        exact ⟨rfl, checked⟩
      · cases accepted
    · rintro ⟨rfl, checked⟩
      rw [checked]

theorem checkPath_eq_ok_iff {field : String} : checkPath field path = .ok ()
    ↔ (Blank.trim path).isEmpty = false ∧ (Blank.trim path).utf8ByteSize ≤ Path.maxBytes ∧
      Path.hasLongName (Blank.trim path) = false := by
  simp [checkPath, checkNames, bind_eq_ok_iff, require_eq_ok_iff, Path.isLong]

/-- The path of a store that has been checked is short without the blanks at its ends. -/
theorem trim_short_of_check (checked : c.check = .ok ()) (given : c.storePath = some path) :
    (Blank.trim path).utf8ByteSize ≤ Path.maxBytes ∧
      Path.hasLongName (Blank.trim path) = false := by
  rw [check, given] at checked
  simp only [bind_eq_ok_iff] at checked
  obtain ⟨_, -, _, -, _, -, _, path_checked, -⟩ := checked
  exact (checkPath_eq_ok_iff.mp path_checked).2

/-- A store whose path is configured is refused for the length of the path exactly if the path is
too long as a whole, or its first or its last name is, the blank characters at its ends counted. So
it is never refused if there are no such characters. -/
theorem open_configured (f : Files) {location : StoreLocation} (accepted : ofText text = .ok c)
    (given : c.storeLocation = some location) :
    (StoreLocation.checkLengths location.path = .ok () ↔ Path.EndsFit location.path) ∧
    ((∃ e ∈ StoreLocation.lengthErrors, StoreLocation.openTables f location = .error e)
      ↔ ¬Path.EndsFit location.path) ∧
    (Blank.trim location.path = location.path → Path.EndsFit location.path) := by
  obtain ⟨path, stored, rfl⟩ := Option.map_eq_some_iff.mp given
  obtain ⟨short, names_short⟩ := trim_short_of_check (ofText_eq_ok_iff.mp accepted).2 stored
  have passes : StoreLocation.checkLengths path = .ok () ↔ Path.EndsFit path := by
    rw [StoreLocation.checkLengths_eq_ok_iff, Path.hasLongName_eq_false_of_trim names_short]
    exact ⟨fun ⟨whole, first, last⟩ => ⟨whole, first, last⟩,
      fun ⟨whole, first, last⟩ => ⟨whole, first, last⟩⟩
  refine ⟨passes, ?_, ?_⟩
  · exact (StoreLocation.openTables_length_error_iff f).trans (not_congr passes)
  · intro trimmed
    rw [trimmed] at short names_short
    exact passes.mp (StoreLocation.checkLengths_eq_ok_iff.mpr ⟨short, names_short⟩)

namespace Sample

/-- A configuration with a path and otherwise the usual settings. -/
def withPath (path : String) : Configuration :=
  { usual with storePath := some path }

/-- A store at a path, with the usual settings. -/
def location (path : String) : StoreLocation :=
  ⟨path, usual.busyTimeout, usual.journalMode, usual.syncMode⟩

/-- A name with blanks behind it, short without them and long with them. -/
def padded : List Char :=
  List.replicate 250 'a' ++ List.replicate 10 ' '

end Sample

/-- A path without blanks at its ends passes, whatever files there are. -/
theorem open_configured_plain :
    ofText "[store]\npath = \"data/store.db\"" = .ok (Sample.withPath "data/store.db") ∧
    ¬∃ e ∈ StoreLocation.lengthErrors, StoreLocation.openTables ⟨[]⟩
      (Sample.location "data/store.db") = .error e := by
  have accepted : ofText "[store]\npath = \"data/store.db\""
      = .ok (Sample.withPath "data/store.db") := rfl
  have given : (Sample.withPath "data/store.db").storeLocation
      = some (Sample.location "data/store.db") := rfl
  obtain ⟨-, refused, plain⟩ := open_configured ⟨[]⟩ accepted given
  have fits : Path.EndsFit "data/store.db" := plain (by decide)
  exact ⟨accepted, fun long => refused.mp long fits⟩

/-- Blanks behind a name are not counted when the path is configured, but when it is opened. -/
theorem padded_path_refused :
    ofText ("[store]\npath = \"" ++ String.ofList Sample.padded ++ "\"")
      = .ok (Sample.withPath (String.ofList Sample.padded)) ∧
    (Sample.withPath (String.ofList Sample.padded)).storeLocation
      = some (Sample.location (String.ofList Sample.padded)) ∧
    StoreLocation.checkLengths (String.ofList Sample.padded)
      = .error (.invalid "store path contains an overlong component") ∧
    StoreLocation.openTables ⟨[]⟩ (Sample.location (String.ofList Sample.padded))
      = .error (.invalid "store path contains an overlong component") := by
  have long : StoreLocation.checkLengths (String.ofList Sample.padded)
      = .error (.invalid "store path contains an overlong component") := by
    have one_name : Path.hasLongName (String.ofList Sample.padded) = true := by
      rw [← Bool.not_eq_false, Path.hasLongName_eq_false_iff, String.toList_ofList,
        Path.splitSlashes_of_not_mem (by decide +kernel), List.forall_mem_singleton]
      decide +kernel
    rw [StoreLocation.checkLengths, if_neg (by decide +kernel), if_pos one_name]
  have trimmed : Blank.trim (String.ofList Sample.padded)
      = String.ofList (List.replicate 250 'a') := by
    rw [Blank.trim, String.toList_ofList]
    exact congrArg String.ofList (by decide +kernel)
  have path_checked : checkPath "store.path" (String.ofList Sample.padded) = .ok () := by
    rw [checkPath_eq_ok_iff, trimmed, Path.hasLongName_eq_false_iff, String.toList_ofList,
      Path.splitSlashes_of_not_mem (by decide +kernel), List.forall_mem_singleton]
    decide +kernel
  refine ⟨ofText_eq_ok_iff.mpr ⟨?_, ?_⟩, rfl, long, ?_⟩
  · have read : (Toml.ofChars ("[store]\npath = \"".toList ++ Sample.padded ++ "\"".toList)).bind
        ofToml? = some (Sample.withPath (String.ofList Sample.padded)) := by
      decide +kernel
    simp only [String.toList_append, String.toList_ofList]
    exact read
  · simp only [check, Sample.withPath, path_checked]
    decide +kernel
  · rw [StoreLocation.openTables, StoreLocation.checkPath, Sample.location, long]
    rfl

end Configuration

end RiskRules
