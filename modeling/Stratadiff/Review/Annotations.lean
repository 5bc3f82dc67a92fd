import Stratadiff.Lib.Escape
import Stratadiff.Review.Delta

/-!
# Annotations of a review delta

A review delta is shown on GitHub through workflow commands, one on a line. Paths come
from the repository under review, so they are escaped. GitHub reads back exactly the
commands that the delta calls for, each with the text it was made of.
-/

namespace Stratadiff

/-! ## Workflow commands -/

/-- A command that GitHub reads from a line of output. -/
structure WorkflowCommand where
  name : String
  properties : List (String × String)
  data : String
  deriving DecidableEq, Repr

namespace WorkflowCommand

def dataEscapes : EscapeTable Char where
  mark := '%'
  codes := [('%', '2', '5'), ('\r', '0', 'D'), ('\n', '0', 'A')]
  marked := by simp
  distinct := by simp
  plain := by simp

def propertyEscapes : EscapeTable Char where
  mark := '%'
  codes := [('%', '2', '5'), ('\r', '0', 'D'), ('\n', '0', 'A'), (':', '3', 'A'), (',', '2', 'C')]
  marked := by simp
  distinct := by simp
  plain := by simp

/-- The text before the first `::`, and the text after it. -/
def cutMark : List Char → Option (List Char × List Char)
  | ':' :: ':' :: rest => some ([], rest)
  | c :: rest => (cutMark rest).map fun cut => (c :: cut.1, cut.2)
  | [] => none

def readProperty (text : List Char) : Option (String × String) :=
  let cut := text.cutAt '='
  if '=' ∈ text then some (.ofList cut.1, .ofList (propertyEscapes.unescape cut.2)) else none

/-- Read `::name key=value,key=value::data`. -/
def read (line : List Char) : Option WorkflowCommand :=
  match line with
  | ':' :: ':' :: rest =>
      (cutMark rest).map fun cut =>
        let head := cut.1.cutAt ' '
        ⟨.ofList head.1, (head.2.splitOn ',').filterMap readProperty,
          .ofList (dataEscapes.unescape cut.2)⟩
  | _ => none

def writeProperty (property : String × String) : List Char :=
  property.1.toList ++ '=' :: propertyEscapes.escape property.2.toList

def head (command : WorkflowCommand) : List Char :=
  command.name.toList ++ ' ' :: [','].intercalate (command.properties.map writeProperty)

def write (command : WorkflowCommand) : List Char :=
  ':' :: ':' :: (command.head ++ ':' :: ':' :: dataEscapes.escape command.data.toList)

/-- The characters that have a meaning on the line of a command. -/
def IsSpecial (c : Char) : Prop := c ∈ ['\r', '\n', ':', ',', '=', ' ']

instance : DecidablePred IsSpecial := fun _ => inferInstanceAs (Decidable (_ ∈ _))

/-- A command whose name and keys are plain words. -/
structure Plain (command : WorkflowCommand) : Prop where
  name : ∀ c ∈ command.name.toList, ¬ IsSpecial c
  keys : ∀ property ∈ command.properties, ∀ c ∈ property.1.toList, ¬ IsSpecial c
  properties : command.properties ≠ []

theorem cutMark_append {text rest : List Char} (free : ':' ∉ text) :
    cutMark (text ++ ':' :: ':' :: rest) = some (text, rest) := by
  induction text with
  | nil => rfl
  | cons c text ih =>
      simp only [List.mem_cons, not_or] at free
      rw [List.cons_append, cutMark, ih free.2]
      · rfl
      · rintro tail rfl
        exact absurd rfl free.1

/-- An escaped value has no separator of properties or of lines. -/
theorem mem_escape_property {text : List Char} {c : Char}
    (member : c ∈ propertyEscapes.escape text) : c ≠ ':' ∧ c ≠ ',' ∧ c ≠ '\r' ∧ c ≠ '\n' := by
  rcases EscapeTable.mem_escape member with plain | rfl
  · simp [EscapeTable.escaped, propertyEscapes] at plain
    tauto
  · decide

theorem mem_escape_data {text : List Char} {c : Char}
    (member : c ∈ dataEscapes.escape text) : c ≠ '\r' ∧ c ≠ '\n' := by
  rcases EscapeTable.mem_escape member with plain | rfl
  · simp [EscapeTable.escaped, dataEscapes] at plain
    tauto
  · decide

variable {command : WorkflowCommand}

theorem readProperty_writeProperty {property : String × String}
    (plain : ∀ c ∈ property.1.toList, ¬ IsSpecial c) :
    readProperty (writeProperty property) = some property := by
  have free : '=' ∉ property.1.toList := fun member => plain _ member (by decide)
  rw [readProperty, writeProperty, List.cutAt_append free, if_pos (by simp),
    EscapeTable.unescape_escape, String.ofList_toList, String.ofList_toList]

theorem mem_writeProperty {property : String × String} {c : Char}
    (plain : ∀ c ∈ property.1.toList, ¬ IsSpecial c) (member : c ∈ writeProperty property) :
    c ≠ ':' ∧ c ≠ ',' ∧ c ≠ '\r' ∧ c ≠ '\n' := by
  rcases List.mem_append.mp member with key | member
  · have := plain c key
    simp only [IsSpecial, List.mem_cons, not_or] at this
    tauto
  rcases List.mem_cons.mp member with rfl | value
  · decide
  · exact mem_escape_property value

theorem mem_head {c : Char} (plain : command.Plain) (member : c ∈ command.head) :
    c ≠ ':' ∧ c ≠ '\r' ∧ c ≠ '\n' := by
  rcases List.mem_append.mp member with name | member
  · have := plain.name c name
    simp only [IsSpecial, List.mem_cons, not_or] at this
    tauto
  rcases List.mem_cons.mp member with rfl | properties
  · decide
  rcases List.mem_intercalate properties with rfl | ⟨text, there, inside⟩
  · decide
  obtain ⟨property, listed, rfl⟩ := List.mem_map.mp there
  obtain ⟨colon, _, breaks⟩ := mem_writeProperty (plain.keys property listed) inside
  exact ⟨colon, breaks⟩

/-- A command is on one line. -/
theorem mem_write {c : Char} (plain : command.Plain) (member : c ∈ command.write) :
    c ≠ '\r' ∧ c ≠ '\n' := by
  rcases List.mem_cons.mp member with rfl | member
  · decide
  rcases List.mem_cons.mp member with rfl | member
  · decide
  rcases List.mem_append.mp member with inside | member
  · exact (mem_head plain inside).2
  rcases List.mem_cons.mp member with rfl | member
  · decide
  rcases List.mem_cons.mp member with rfl | data
  · decide
  · exact mem_escape_data data

/-- GitHub reads back the command that was written. -/
theorem read_write (plain : command.Plain) : read command.write = some command := by
  have noColon : ':' ∉ command.head := fun member => (mem_head plain member).1 rfl
  have noSpace : ' ' ∉ command.name.toList := fun member => plain.name _ member (by decide)
  have parts : ([','].intercalate (command.properties.map writeProperty)).splitOn ',' =
      command.properties.map writeProperty := by
    refine List.splitOn_intercalate ',' ?_ (by simpa using plain.properties)
    intro text member comma
    obtain ⟨property, there, rfl⟩ := List.mem_map.mp member
    exact (mem_writeProperty (plain.keys property there) comma).2.1 rfl
  have properties : (command.properties.map writeProperty).filterMap readProperty =
      command.properties := by
    rw [List.filterMap_map]
    refine (List.filterMap_congr fun property there => ?_).trans List.filterMap_some
    exact readProperty_writeProperty (plain.keys property there)
  rw [write, read, cutMark_append noColon, Option.map_some, head, List.cutAt_append noSpace]
  simp only [parts, properties, EscapeTable.unescape_escape, String.ofList_toList]

end WorkflowCommand

/-- The pieces of a text between its line breaks. -/
def textLines (text : String) : List (List Char) :=
  text.toList.splitOnP fun c => c = '\r' || c = '\n'

/-- Commands that are written a line each are the lines of the text. -/
theorem textLines_of_commands {text : String} {commands : List WorkflowCommand}
    (plain : ∀ command ∈ commands, command.Plain)
    (written : text.toList = commands.flatMap fun command => command.write ++ ['\n']) :
    textLines text = commands.map WorkflowCommand.write ++ [[]] := by
  rw [textLines, written]
  clear written
  induction commands with
  | nil => rfl
  | cons command commands ih =>
      have unbroken : ∀ c ∈ command.write, (decide (c = '\r') || decide (c = '\n')) = false := by
        intro c member
        have apart := WorkflowCommand.mem_write (plain command (by simp)) member
        simp [apart.1, apart.2]
      rw [List.flatMap_cons, List.append_assoc, List.singleton_append,
        List.splitOnP_append_cons_of_forall_mem unbroken '\n' (by decide),
        ih fun other member => plain other (List.mem_cons_of_mem _ member)]
      rfl

/-! ## Escaping -/

/-- `str::replace`, of one character. -/
def replaceChar (value : String) (c : Char) (replacement : String) : String :=
  .ofList (value.toList.flatMap fun d => if d = c then replacement.toList else [d])

def githubCommandData (value : String) : String :=
  replaceChar (replaceChar (replaceChar value '%' "%25") '\r' "%0D") '\n' "%0A"

def githubCommandProperty (value : String) : String :=
  replaceChar (replaceChar (githubCommandData value) ':' "%3A") ',' "%2C"

/-- The marks are escaped first, so the replacements after them make none twice. -/
theorem githubCommandData_toList (value : String) :
    (githubCommandData value).toList = WorkflowCommand.dataEscapes.escape value.toList := by
  simp only [githubCommandData, replaceChar, String.toList_ofList, List.flatMap_assoc]
  refine List.flatMap_congr fun c _ => ?_
  by_cases percent : c = '%'
  · subst percent
    decide
  by_cases carriage : c = '\r'
  · subst carriage
    decide
  by_cases newline : c = '\n'
  · subst newline
    decide
  rw [EscapeTable.escapeChar_of_notMem]
  · simp [percent, carriage, newline]
  · simp [EscapeTable.escaped, WorkflowCommand.dataEscapes, percent, carriage, newline]

theorem githubCommandProperty_toList (value : String) :
    (githubCommandProperty value).toList =
      WorkflowCommand.propertyEscapes.escape value.toList := by
  simp only [githubCommandProperty, githubCommandData, replaceChar, String.toList_ofList,
    List.flatMap_assoc]
  refine List.flatMap_congr fun c _ => ?_
  by_cases percent : c = '%'
  · subst percent
    decide
  by_cases carriage : c = '\r'
  · subst carriage
    decide
  by_cases newline : c = '\n'
  · subst newline
    decide
  by_cases colon : c = ':'
  · subst colon
    decide
  by_cases comma : c = ','
  · subst comma
    decide
  rw [EscapeTable.escapeChar_of_notMem]
  · simp [percent, carriage, newline, colon, comma]
  · simp [EscapeTable.escaped, WorkflowCommand.propertyEscapes, percent, carriage, newline, colon,
      comma]

/-! ## Annotations -/

def maxGithubWorkflowAnnotations : Nat := 20

def fileWord (count : Nat) : String := if count = 1 then "file" else "files"

def githubAnnotationPath (file : ReviewFile) : Option String :=
  match file.afterPath, file.afterPathEncoding with
  | some path, some .utf8 => some path
  | _, _ =>
      match file.beforePath, file.beforePathEncoding with
      | some path, some .utf8 => some path
      | _, _ => none

def ReviewDeltaBaselineBasis.message : ReviewDeltaBaselineBasis → String
  | reconstructedReviewBaseline =>
      "This file differs from the exact review baseline reconstructed across the base change."
  | currentBaseFallback =>
      "An exact review baseline could not be reconstructed; review the complete " ++
        "current-base-to-head file change."
  | checkpointHeadFallback =>
      "A retired checkpoint change could not be rebased exactly; review this conservative " ++
        "checkpoint-to-head file change."
  | checkpointSnapshot => "This file changed after the reviewed checkpoint."
  | currentBaseNoCheckpointChange =>
      "This current PR file has no corresponding change at the reviewed checkpoint."

def ReviewDeltaUnresolvedReason.message : ReviewDeltaUnresolvedReason → String
  | nonUtf8GitPath => "non-UTF-8 Git path"

def annotateEntry (entry : ReviewDeltaFile) : String :=
  match githubAnnotationPath entry.file with
  | some path =>
      "::error file=" ++ githubCommandProperty path ++
        ",title=Review required after checkpoint::" ++
        githubCommandData entry.baselineBasis.message ++ "\n"
  | none =>
      "::error title=Review required after checkpoint::" ++
        githubCommandData entry.file.displayPath ++ " needs review. " ++
        githubCommandData entry.baselineBasis.message ++ "\n"

def annotateUnresolved (change : ReviewDeltaUnresolvedChange) : String :=
  "::error title=Unresolved retired review change::" ++ githubCommandData change.path ++
    " could not be reconstructed or displayed (" ++ githubCommandData change.reason.message ++
    ") and still requires review.\n"

def annotateOmitted (omitted : Nat) : String :=
  "::notice title=Additional review delta::" ++ toString omitted ++ " additional " ++
    fileWord omitted ++
    " need review; open the Review Resume Workbench for the complete queue.\n"

def githubReviewDeltaAnnotations (delta : ReviewDelta) : String :=
  let output := (delta.entries.take maxGithubWorkflowAnnotations).foldl
    (fun output entry => output ++ annotateEntry entry) ""
  let remainingSlots := maxGithubWorkflowAnnotations - delta.entries.length
  let output := (delta.unresolvedRetiredChanges.take remainingSlots).foldl
    (fun output change => output ++ annotateUnresolved change) output
  let omitted := delta.summary.needsReviewFiles - maxGithubWorkflowAnnotations
  if omitted > 0 then output ++ annotateOmitted omitted else output

/-! ## What GitHub reads -/

/-- The command for a file that needs review. -/
def entryCommand (entry : ReviewDeltaFile) : WorkflowCommand :=
  let title := ("title", "Review required after checkpoint")
  match githubAnnotationPath entry.file with
  | some path => ⟨"error", [("file", path), title], entry.baselineBasis.message⟩
  | none => ⟨"error", [title],
      entry.file.displayPath ++ " needs review. " ++ entry.baselineBasis.message⟩

def unresolvedCommand (change : ReviewDeltaUnresolvedChange) : WorkflowCommand :=
  ⟨"error", [("title", "Unresolved retired review change")],
    change.path ++ " could not be reconstructed or displayed (" ++ change.reason.message ++
      ") and still requires review."⟩

def omittedCommand (omitted : Nat) : WorkflowCommand :=
  ⟨"notice", [("title", "Additional review delta")],
    toString omitted ++ " additional " ++ fileWord omitted ++
      " need review; open the Review Resume Workbench for the complete queue."⟩

section

open WorkflowCommand

theorem annotateEntry_toList (entry : ReviewDeltaFile) :
    (annotateEntry entry).toList = (entryCommand entry).write ++ ['\n'] := by
  unfold annotateEntry entryCommand write head
  cases githubAnnotationPath entry.file with
  | some path =>
      simp (disch := decide) [githubCommandProperty_toList, githubCommandData_toList,
        writeProperty, List.intercalate, EscapeTable.escapeChar_of_notMem]
  | none =>
      simp (disch := decide) [githubCommandData_toList, writeProperty, List.intercalate,
        EscapeTable.escapeChar_of_notMem]

theorem annotateUnresolved_toList (change : ReviewDeltaUnresolvedChange) :
    (annotateUnresolved change).toList = (unresolvedCommand change).write ++ ['\n'] := by
  unfold annotateUnresolved unresolvedCommand write head
  simp (disch := decide) [githubCommandData_toList, writeProperty, List.intercalate,
    EscapeTable.escapeChar_of_notMem]

/-- A number has no character that is escaped. -/
theorem escape_toString (n : Nat) :
    dataEscapes.escape (toString n).toList = (toString n).toList := by
  refine EscapeTable.escape_eq_self fun c member special => ?_
  rw [Nat.toString_eq_repr, Nat.toList_repr] at member
  have digit : c.isDigit = true :=
    Nat.isDigit_of_mem_toDigits (b := 10) (by decide) (by decide) member
  simp only [EscapeTable.escaped, dataEscapes, List.map_cons, List.map_nil, List.mem_cons,
    List.not_mem_nil, or_false] at special
  rcases special with rfl | rfl | rfl <;> simp at digit

theorem annotateOmitted_toList (omitted : Nat) :
    (annotateOmitted omitted).toList = (omittedCommand omitted).write ++ ['\n'] := by
  have word : dataEscapes.escape (fileWord omitted).toList = (fileWord omitted).toList := by
    rw [fileWord]
    split <;> decide
  unfold annotateOmitted omittedCommand write head
  simp (disch := decide) [-Nat.toString_eq_repr, writeProperty, List.intercalate,
    EscapeTable.escapeChar_of_notMem, escape_toString, word]

end

/-- How many changes a delta leaves to be reviewed. -/
def ReviewDelta.total (delta : ReviewDelta) : Nat :=
  delta.entries.length + delta.unresolvedRetiredChanges.length

/-- The commands for single files, up to the limit. -/
def fileCommands (delta : ReviewDelta) : List WorkflowCommand :=
  (delta.entries.map entryCommand ++ delta.unresolvedRetiredChanges.map unresolvedCommand).take
    maxGithubWorkflowAnnotations

/-- The command that counts the rest. -/
def restCommands (rest : Nat) : List WorkflowCommand :=
  if rest = 0 then [] else [omittedCommand rest]

theorem plain_of_entry (entry : ReviewDeltaFile) : (entryCommand entry).Plain := by
  rw [entryCommand]
  cases githubAnnotationPath entry.file with
  | some path => exact ⟨by simp; decide, by simp; decide, by simp⟩
  | none => exact ⟨by simp; decide, by simp; decide, by simp⟩

theorem plain_of_unresolved (change : ReviewDeltaUnresolvedChange) :
    (unresolvedCommand change).Plain :=
  ⟨by simp [unresolvedCommand]; decide, by simp [unresolvedCommand]; decide,
    by simp [unresolvedCommand]⟩

theorem plain_of_omitted (omitted : Nat) : (omittedCommand omitted).Plain :=
  ⟨by simp [omittedCommand]; decide, by simp [omittedCommand]; decide, by simp [omittedCommand]⟩

theorem foldl_append_toList {α : Type} {text : α → String} {values : List α} {output : String} :
    (values.foldl (fun output value => output ++ text value) output).toList =
      output.toList ++ values.flatMap fun value => (text value).toList := by
  induction values generalizing output with
  | nil => simp
  | cons value values ih => rw [List.foldl_cons, ih]; simp

theorem githubReviewDeltaAnnotations_toList (delta : ReviewDelta) :
    (githubReviewDeltaAnnotations delta).toList =
      (fileCommands delta ++
        restCommands (delta.summary.needsReviewFiles - maxGithubWorkflowAnnotations)).flatMap
          fun command => command.write ++ ['\n'] := by
  have files : ((delta.unresolvedRetiredChanges.take
      (maxGithubWorkflowAnnotations - delta.entries.length)).foldl
        (fun output change => output ++ annotateUnresolved change)
          ((delta.entries.take maxGithubWorkflowAnnotations).foldl
            (fun output entry => output ++ annotateEntry entry) "")).toList =
      (fileCommands delta).flatMap fun command => command.write ++ ['\n'] := by
    rw [foldl_append_toList, foldl_append_toList, fileCommands, List.take_append, List.length_map,
      List.flatMap_append, ← List.map_take, ← List.map_take, List.flatMap_map, List.flatMap_map]
    simp only [annotateEntry_toList, annotateUnresolved_toList]
    rfl
  rw [githubReviewDeltaAnnotations, List.flatMap_append, ← files, restCommands]
  by_cases omitted : delta.summary.needsReviewFiles - maxGithubWorkflowAnnotations = 0
  · rw [if_neg (by omega), if_pos omitted, List.flatMap_nil, List.append_nil]
  · rw [if_pos (by omega), if_neg omitted, String.toList_append, annotateOmitted_toList,
      List.flatMap_singleton]

theorem ReviewDelta.validate_total {delta : ReviewDelta} (h : delta.validate = .ok ()) :
    delta.summary.needsReviewFiles = delta.total := by
  rw [ReviewDelta.validate] at h
  obtain ⟨_, h⟩ := Result.check_bind_eq_ok.mp h
  obtain ⟨_, h⟩ := Result.check_bind_eq_ok.mp h
  obtain ⟨_, h⟩ := Result.check_bind_eq_ok.mp h
  obtain ⟨_, h⟩ := Result.check_bind_eq_ok.mp h
  obtain ⟨_, h⟩ := Result.check_bind_eq_ok.mp h
  exact Result.ensure_eq_ok.mp (Result.check_bind_eq_ok.mp h).1

/-- The annotations of a delta are lines of which GitHub reads one command each, with the
paths and reasons that they were made of: a command for each file up to the limit, and then,
if the delta is valid, one that counts the files left out. -/
theorem github_review_delta_annotations_read (delta : ReviewDelta) :
    let rest := delta.summary.needsReviewFiles - maxGithubWorkflowAnnotations
    (∃ lines, textLines (githubReviewDeltaAnnotations delta) = lines ++ [[]] ∧
      lines.map WorkflowCommand.read = (fileCommands delta ++ restCommands rest).map some) ∧
    (fileCommands delta).length = min maxGithubWorkflowAnnotations delta.total ∧
    (delta.validate = .ok () → rest = delta.total - (fileCommands delta).length) := by
  intro rest
  have plain : ∀ command ∈ fileCommands delta ++ restCommands rest, command.Plain := by
    intro command member
    rcases List.mem_append.mp member with file | other
    · rcases List.mem_append.mp (List.mem_of_mem_take file) with listed | unresolved
      · obtain ⟨entry, _, rfl⟩ := List.mem_map.mp listed
        exact plain_of_entry entry
      · obtain ⟨change, _, rfl⟩ := List.mem_map.mp unresolved
        exact plain_of_unresolved change
    · rw [restCommands] at other
      split at other
      · exact absurd other List.not_mem_nil
      · exact List.mem_singleton.mp other ▸ plain_of_omitted rest
  have length : (fileCommands delta).length = min maxGithubWorkflowAnnotations delta.total := by
    rw [fileCommands, List.length_take, List.length_append, List.length_map, List.length_map]
    rfl
  refine ⟨⟨_, textLines_of_commands plain (githubReviewDeltaAnnotations_toList delta), ?_⟩,
    length, fun valid => ?_⟩
  · rw [List.map_map]
    exact List.map_congr_left fun command member => WorkflowCommand.read_write
      (plain command member)
  · have total := ReviewDelta.validate_total valid
    change delta.summary.needsReviewFiles - maxGithubWorkflowAnnotations = _
    omega

end Stratadiff
