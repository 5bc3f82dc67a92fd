import Stratadiff.Core.Decode
import Stratadiff.Verifier.Limits

/-!
# The preflight of a report's JSON

`json_preflight.rs` walks the text of a report before it is decoded and counts, by the path of
member names alone, the elements of its collections against the limits. It knows nothing of the
types of a report.
-/

namespace Stratadiff

open Document

def maxRelationEvidence : Nat := 4

structure Scanner where
  relations : Nat
  ambiguityGroups : Nat
  ambiguityEndpoints : Nat
  ambiguityPairs : Nat
  changes : Nat
  patchEdits : Nat
  deriving DecidableEq, Repr

def Scanner.new : Scanner := ⟨0, 0, 0, 0, 0, 0⟩

inductive ObjectKind where
  | report
  | relation
  | ambiguity
  | constraint
  | patch
  deriving DecidableEq, Repr

def ObjectKind.description : ObjectKind → String
  | .report => "a StrataDiff report object"
  | .relation => "a relation object"
  | .ambiguity => "an ambiguity group object"
  | .constraint => "an ambiguity constraint object"
  | .patch => "a patch object"

inductive SequenceKind where
  | relations
  | ambiguities
  | changes
  | patchEdits
  | ambiguityEndpoints
  | ambiguityPairs
  | relationEvidence
  deriving DecidableEq, Repr

def SequenceKind.description : SequenceKind → String
  | .relations => "the relations array"
  | .ambiguities => "the ambiguity groups array"
  | .changes => "the changes array"
  | .patchEdits => "the patch edits array"
  | .ambiguityEndpoints => "an ambiguity endpoints array"
  | .ambiguityPairs => "an ambiguity possible-pairs array"
  | .relationEvidence => "a relation evidence array"

def countElement (observed limit : Nat) (label : String) : Result Nat := do
  let next ← Result.ofOption (.invalid s!"{label} exceeds usize capacity") (checkedAdd observed 1)
  Result.ensure (next ≤ limit)
    (.invalid s!"{label} limit exceeded: observed {next}, limit {limit}")
  return next

inductive Field where
  | relations
  | ambiguities
  | changes
  | patch
  | evidence
  | before
  | after
  | constraint
  | possiblePairs
  | edits
  | other
  deriving DecidableEq, Repr

def Field.ofName (name : String) : Field :=
  if name = "relations" then .relations
  else if name = "ambiguities" then .ambiguities
  else if name = "changes" then .changes
  else if name = "patch" then .patch
  else if name = "evidence" then .evidence
  else if name = "before" then .before
  else if name = "after" then .after
  else if name = "constraint" then .constraint
  else if name = "possible_pairs" then .possiblePairs
  else if name = "edits" then .edits
  else .other

/-- What is done with the value of a member. -/
inductive Visit where
  | sequence (kind : SequenceKind)
  | object (kind : ObjectKind)
  | ignored
  deriving DecidableEq, Repr

def ObjectKind.visit : ObjectKind → Field → Visit
  | .report, .relations => .sequence .relations
  | .report, .ambiguities => .sequence .ambiguities
  | .report, .changes => .sequence .changes
  | .report, .patch => .object .patch
  | .relation, .evidence => .sequence .relationEvidence
  | .ambiguity, .before | .ambiguity, .after => .sequence .ambiguityEndpoints
  | .ambiguity, .constraint => .object .constraint
  | .constraint, .possiblePairs => .sequence .ambiguityPairs
  | .patch, .edits => .sequence .patchEdits
  | _, _ => .ignored

section

variable (limits : VerificationLimits)

/-- The evidence of a relation is counted for its own array only. -/
def Scanner.count (scanner : Scanner) (relationEvidence : Nat) :
    SequenceKind → Result (Scanner × Nat)
  | .relations => do
      let relations ← countElement scanner.relations limits.maxRelations "relations"
      return ({ scanner with relations }, relationEvidence)
  | .ambiguities => do
      let ambiguityGroups ←
        countElement scanner.ambiguityGroups limits.maxAmbiguityGroups "ambiguity groups"
      return ({ scanner with ambiguityGroups }, relationEvidence)
  | .changes => do
      let changes ← countElement scanner.changes limits.maxChanges "changes"
      return ({ scanner with changes }, relationEvidence)
  | .patchEdits => do
      let patchEdits ← countElement scanner.patchEdits limits.maxPatchEdits "patch edits"
      return ({ scanner with patchEdits }, relationEvidence)
  | .ambiguityEndpoints => do
      let ambiguityEndpoints ← countElement scanner.ambiguityEndpoints
        limits.maxAmbiguityEndpoints "ambiguity endpoints"
      return ({ scanner with ambiguityEndpoints }, relationEvidence)
  | .ambiguityPairs => do
      let ambiguityPairs ←
        countElement scanner.ambiguityPairs limits.maxAmbiguityPairs "ambiguity possible pairs"
      return ({ scanner with ambiguityPairs }, relationEvidence)
  | .relationEvidence => do
      let relationEvidence ←
        countElement relationEvidence maxRelationEvidence "relation evidence"
      return (scanner, relationEvidence)

mutual

/-- `ObjectSeed`. -/
def scanObject (kind : ObjectKind) : Document → Scanner → Result Scanner
  | .object members, scanner => scanMembers kind members scanner
  | .malformed, _ => .error unreadable
  | _, _ => .error (unexpected kind.description)

/-- `ObjectVisitor::visit_map`. -/
def scanMembers (kind : ObjectKind) :
    List (Option String × Document) → Scanner → Result Scanner
  | [], scanner => .ok scanner
  | (none, _) :: _, _ => .error unreadable
  | (some name, value) :: members, scanner => do
      let scanner ← match kind.visit (Field.ofName name) with
        | .sequence kind => scanSequence kind value scanner
        | .object kind => scanObject kind value scanner
        | .ignored => do
            value.ignore
            pure scanner
      scanMembers kind members scanner

/-- `SequenceSeed`. -/
def scanSequence (kind : SequenceKind) : Document → Scanner → Result Scanner
  | .array elements, scanner => scanElements kind elements scanner 0
  | .malformed, _ => .error unreadable
  | _, _ => .error (unexpected kind.description)

/-- `SequenceVisitor::visit_seq`, an `ElementSeed` at a time. -/
def scanElements (kind : SequenceKind) : List Document → Scanner → Nat → Result Scanner
  | [], scanner, _ => .ok scanner
  | element :: elements, scanner, relationEvidence => do
      let (scanner, relationEvidence) ← scanner.count limits relationEvidence kind
      let scanner ← match kind with
        | .relations => scanObject .relation element scanner
        | .ambiguities => scanObject .ambiguity element scanner
        | _ => do
            element.ignore
            pure scanner
      scanElements kind elements scanner relationEvidence

end

/-- What `serde_json` meets in the bytes of a text, and whether only white space is left behind
the first value. -/
structure JsonText where
  document : Document
  ends : Bool

/-- `preflight_json_collections`, with the counts of its scanner. -/
def preflightJsonCollections (text : JsonText) : Result Scanner := do
  let scanner ← scanObject limits .report text.document .new
  Result.ensure text.ends (.invalid "trailing characters")
  return scanner

def readJsonText (text : JsonText) : Result DiffReport := do
  let report ← readDiffReport text.document
  Result.ensure text.ends (.invalid "trailing characters")
  return report

/-- `decode_report_bytes`; `serdeJson` is what `serde_json` meets in the bytes of a text. -/
def decodeReportBytes (serdeJson : Bytes → JsonText) (reportBytes : Bytes) : Result DiffReport := do
  checkLimit "report bytes" reportBytes.length limits.maxReportBytes
  let _ ← preflightJsonCollections limits (serdeJson reportBytes)
  (readJsonText (serdeJson reportBytes)).mapError
    (Failure.withContext "failed to decode StrataDiff report JSON: ")

/-! ## One visit -/

variable {limits : VerificationLimits} {scanner after : Scanner}

/-- Carry out what a member's name asks for. -/
def visitValue (limits : VerificationLimits) : Visit → Document → Scanner → Result Scanner
  | .sequence kind, value, scanner => scanSequence limits kind value scanner
  | .object kind, value, scanner => scanObject limits kind value scanner
  | .ignored, value, scanner => do
      value.ignore
      return scanner

/-- What is done with the elements of a sequence, once counted. -/
def SequenceKind.element : SequenceKind → Visit
  | .relations => .object .relation
  | .ambiguities => .object .ambiguity
  | _ => .ignored

theorem scanMembers_cons (kind : ObjectKind) (name : String) (value : Document)
    (entries : List (Option String × Document)) :
    scanMembers limits kind ((some name, value) :: entries) scanner =
      visitValue limits (kind.visit (Field.ofName name)) value scanner >>=
        scanMembers limits kind entries := by
  rw [scanMembers]
  cases kind.visit (Field.ofName name) with
  | sequence _ => rfl
  | object _ => rfl
  | ignored => simp only [visitValue, bind_assoc, pure_bind]

theorem scanElements_cons (kind : SequenceKind) (element : Document) (elements : List Document)
    (relationEvidence : Nat) :
    scanElements limits kind (element :: elements) scanner relationEvidence = (do
      let (scanner, relationEvidence) ← scanner.count limits relationEvidence kind
      let scanner ← visitValue limits kind.element element scanner
      scanElements limits kind elements scanner relationEvidence) := by
  rw [scanElements]
  cases kind <;> simp only [visitValue, SequenceKind.element, bind_assoc, pure_bind]

/-! ## What is counted

The counts of the scanner as one function, and what a visit adds to them.
-/

def Scanner.observed (scanner : Scanner) : SequenceKind → Nat
  | .relations => scanner.relations
  | .ambiguities => scanner.ambiguityGroups
  | .changes => scanner.changes
  | .patchEdits => scanner.patchEdits
  | .ambiguityEndpoints => scanner.ambiguityEndpoints
  | .ambiguityPairs => scanner.ambiguityPairs
  | .relationEvidence => 0

def VerificationLimits.allowed (limits : VerificationLimits) : SequenceKind → Nat
  | .relations => limits.maxRelations
  | .ambiguities => limits.maxAmbiguityGroups
  | .changes => limits.maxChanges
  | .patchEdits => limits.maxPatchEdits
  | .ambiguityEndpoints => limits.maxAmbiguityEndpoints
  | .ambiguityPairs => limits.maxAmbiguityPairs
  | .relationEvidence => maxRelationEvidence

/-- What one element adds. -/
def SequenceKind.unit (kind : SequenceKind) : SequenceKind → Nat :=
  if kind = .relationEvidence then 0 else Pi.single kind 1

def Scanner.Within (limits : VerificationLimits) (scanner : Scanner) : Prop :=
  ∀ kind, scanner.observed kind ≤ limits.allowed kind

theorem countElement_eq_ok {observed limit next : Nat} {label : String} :
    countElement observed limit label = .ok next ↔
      observed + 1 ≤ usizeMax ∧ next ≤ limit ∧ next = observed + 1 := by
  rw [countElement, Result.ofOption_bind_eq_ok]
  constructor
  · rintro ⟨value, added, done⟩
    obtain ⟨bounded, done⟩ := Result.check_bind_eq_ok.mp done
    rw [Result.ensure_eq_ok] at bounded
    cases done
    obtain ⟨small, rfl⟩ := checkedAdd_eq_some.mp added
    exact ⟨small, bounded, rfl⟩
  · rintro ⟨small, bounded, rfl⟩
    exact ⟨observed + 1, checkedAdd_of_le small,
      Result.check_bind_eq_ok.mpr ⟨Result.ensure_of bounded, rfl⟩⟩

theorem Scanner.count_eq_ok {kind : SequenceKind} {relationEvidence next : Nat}
    (counted : scanner.count limits relationEvidence kind = .ok (after, next)) :
    after.observed = scanner.observed + kind.unit ∧
      (after.observed kind ≤ limits.allowed kind) ∧
      (kind = .relationEvidence → next = relationEvidence + 1 ∧ next ≤ maxRelationEvidence) := by
  cases kind
  all_goals
    obtain ⟨value, found, counted⟩ := Result.bind_eq_ok.mp counted
    obtain ⟨_, bounded, rfl⟩ := countElement_eq_ok.mp found
    cases counted
    refine ⟨funext fun other => ?_, ?_, ?_⟩
  all_goals first
    | exact fun _ => ⟨rfl, bounded⟩
    | exact bounded
    | exact Nat.zero_le _
    | exact fun wrong => absurd wrong (by decide)
    | cases other <;> rfl

/-! ## What a visit adds -/

theorem Field.ofName_eq {name : String} :
    Field.ofName name = .other ∨ ∃ field, Field.ofName name = field ∧
      (field, name) ∈ [(Field.relations, "relations"), (.ambiguities, "ambiguities"),
        (.changes, "changes"), (.patch, "patch"), (.evidence, "evidence"), (.before, "before"),
        (.after, "after"), (.constraint, "constraint"), (.possiblePairs, "possible_pairs"),
        (.edits, "edits")] := by
  unfold Field.ofName
  split_ifs <;> simp_all

/-- The names whose values are counted in an object. -/
def ObjectKind.counted : ObjectKind → List String
  | .report => ["relations", "ambiguities", "changes", "patch"]
  | .relation => ["evidence"]
  | .ambiguity => ["before", "after", "constraint"]
  | .constraint => ["possible_pairs"]
  | .patch => ["edits"]

theorem ObjectKind.visit_of_not_counted {kind : ObjectKind} {name : String}
    (absent : name ∉ kind.counted) : kind.visit (Field.ofName name) = .ignored := by
  obtain other | ⟨field, found, member⟩ := @Field.ofName_eq name
  · rw [other]
    cases kind <;> rfl
  · rw [found]
    revert absent
    fin_cases member <;> cases kind <;> decide

theorem ObjectKind.counted_nodup (kind : ObjectKind) : kind.counted.Nodup := by
  cases kind <;> decide

/-- Only an object is visited as one. -/
theorem object_of_visited {kind : ObjectKind} {document : Document}
    (done : visitValue limits (.object kind) document scanner = .ok after) :
    ∃ entries, document = .object entries := by
  cases document with
  | object entries => exact ⟨entries, rfl⟩
  | _ =>
      rw [visitValue, scanObject] at done
      all_goals cases done

theorem visitValue_ignored {value : Document}
    (done : visitValue limits .ignored value scanner = .ok after) : after = scanner := by
  obtain ⟨_, done⟩ := Result.check_bind_eq_ok.mp done
  cases done
  rfl

/-- Whenever the visit succeeds it adds these counts. -/
def Gains (limits : VerificationLimits) (visit : Visit) (value : Document)
    (gain : SequenceKind → Nat) : Prop :=
  ∀ scanner after, visitValue limits visit value scanner = .ok after →
    after.observed = scanner.observed + gain

theorem gains_ignored (value : Document) : Gains limits .ignored value 0 := by
  intro scanner after done
  rw [visitValue_ignored done, add_zero]

theorem scanMembers_gain {kind : ObjectKind} {fields : Fields} {gain : String → SequenceKind → Nat}
    (each : ∀ field ∈ fields,
      Gains limits (kind.visit (Field.ofName field.1)) field.2 (gain field.1))
    (done : scanMembers limits kind (members fields) scanner = .ok after) :
    after.observed = scanner.observed + (fields.map fun field => gain field.1).sum := by
  induction fields generalizing scanner with
  | nil =>
      cases done
      exact (add_zero _).symm
  | cons field fields ih =>
      obtain ⟨name, value⟩ := field
      rw [members_cons, scanMembers_cons] at done
      obtain ⟨middle, first, done⟩ := Result.bind_eq_ok.mp done
      have head := each (name, value) List.mem_cons_self _ _ first
      have rest := ih (fun field member => each field (List.mem_cons_of_mem _ member)) done
      rw [rest, head, List.map_cons, List.sum_cons, add_assoc]

theorem scanElements_gain {α : Type} {kind : SequenceKind} {elements : List Document}
    {values : List α} {gain : α → SequenceKind → Nat} {relationEvidence : Nat}
    (each : List.Forall₂ (fun element value => Gains limits kind.element element (gain value))
      elements values)
    (done : scanElements limits kind elements scanner relationEvidence = .ok after) :
    after.observed =
      scanner.observed + values.length • kind.unit + (values.map gain).sum := by
  induction each generalizing scanner relationEvidence with
  | nil =>
      cases done
      simp
  | @cons element value elements values head _ ih =>
      rw [scanElements_cons] at done
      obtain ⟨⟨counted, next⟩, count, done⟩ := Result.bind_eq_ok.mp done
      obtain ⟨middle, first, done⟩ := Result.bind_eq_ok.mp done
      have added := (Scanner.count_eq_ok count).1
      rw [ih done, head _ _ first, added, List.length_cons, List.map_cons, List.sum_cons,
        succ_nsmul]
      abel

/-- A sequence adds its length and what its elements add. -/
theorem gains_sequence {α : Type} {kind : SequenceKind} {document : Document} {values : List α}
    {read : Document → Result α} {gain : α → SequenceKind → Nat}
    (done : readVec read document = .ok values)
    (each : ∀ element value, read element = .ok value →
      Gains limits kind.element element (gain value)) :
    Gains limits (.sequence kind) document
      (values.length • kind.unit + (values.map gain).sum) := by
  obtain ⟨elements, rfl, pairs⟩ := readVec_eq_ok done
  intro scanner after scanned
  rw [← add_assoc]
  exact scanElements_gain (pairs.imp fun element value => each element value) scanned

/-- A sequence whose elements are passed over. -/
theorem gains_leaves {α : Type} {kind : SequenceKind} {document : Document} {values : List α}
    {read : Document → Result α} (leaf : kind.element = .ignored)
    (done : readVec read document = .ok values) :
    Gains limits (.sequence kind) document (values.length • kind.unit) := by
  have gains : Gains limits (.sequence kind) document
      (values.length • kind.unit + (values.map fun _ => (0 : SequenceKind → Nat)).sum) :=
    gains_sequence done fun element _ _ => leaf ▸ gains_ignored element
  simpa using gains

/-- A record adds what its counted fields add. -/
theorem gains_record {kind : ObjectKind} {document : Document} {names : List String}
    {fields : Fields} {gain : String → SequenceKind → Nat}
    (read : readFields names document = .ok fields)
    (present : ∀ name ∈ kind.counted, ∃ value, fields.lookup name = some value ∧
      Gains limits (kind.visit (Field.ofName name)) value (gain name)) :
    Gains limits (.object kind) document (kind.counted.map gain).sum := by
  intro scanner after done
  obtain ⟨entries, rfl⟩ := object_of_visited done
  obtain ⟨rfl, distinct, _⟩ := readFields_object read
  let gained : String → SequenceKind → Nat := fun name =>
    if name ∈ kind.counted then gain name else 0
  have each : ∀ field ∈ fields,
      Gains limits (kind.visit (Field.ofName field.1)) field.2 (gained field.1) := by
    intro field member
    by_cases counted : field.1 ∈ kind.counted
    · obtain ⟨value, found, gains⟩ := present field.1 counted
      have same := (OrderedMap.lookup_eq_some distinct).mpr member
      rw [found] at same
      cases same
      simpa only [gained, if_pos counted] using gains
    · simpa only [gained, if_neg counted, ObjectKind.visit_of_not_counted counted] using
        gains_ignored field.2
  have subset : kind.counted.toFinset ⊆ (fields.map Prod.fst).toFinset := by
    intro name member
    obtain ⟨value, found, _⟩ := present name (List.mem_toFinset.mp member)
    exact List.mem_toFinset.mpr
      (List.mem_map_of_mem ((OrderedMap.lookup_eq_some distinct).mp found))
  have sum : (fields.map fun field => gained field.1).sum = (kind.counted.map gain).sum :=
    calc (fields.map fun field => gained field.1).sum
        = ((fields.map Prod.fst).map gained).sum := by rw [List.map_map]; rfl
      _ = ∑ name ∈ (fields.map Prod.fst).toFinset, gained name :=
          (List.sum_toFinset gained distinct).symm
      _ = ∑ name ∈ kind.counted.toFinset, gained name :=
          (Finset.sum_subset subset fun name _ absent =>
            if_neg fun member => absent (List.mem_toFinset.mpr member)).symm
      _ = (kind.counted.map gained).sum := List.sum_toFinset gained kind.counted_nodup
      _ = (kind.counted.map gain).sum := by
          rw [List.map_congr_left fun name member => if_pos member]
  rw [← sum]
  exact scanMembers_gain each done

/-- A record without a counted field adds nothing. -/
theorem gains_unlisted {kind : ObjectKind} {document : Document} {names : List String}
    {fields : Fields} (read : readFields names document = .ok fields)
    (unlisted : ∀ name ∈ names, name ∉ kind.counted) : Gains limits (.object kind) document 0 := by
  intro scanner after done
  obtain ⟨entries, rfl⟩ := object_of_visited done
  obtain ⟨rfl, _, listed⟩ := readFields_object read
  have each : ∀ field ∈ fields, Gains limits (kind.visit (Field.ofName field.1)) field.2 0 := by
    intro field member
    rw [ObjectKind.visit_of_not_counted (unlisted field.1 (listed field member))]
    exact gains_ignored field.2
  have gained := @scanMembers_gain limits scanner after kind fields (fun _ => 0) each done
  simpa using gained

/-! ## What the parts of a report add -/

/-- Relations add to no count but their own. -/
theorem gains_relation {document : Document} {relation : Relation}
    (read : readRelation document = .ok relation) :
    Gains limits (.object .relation) document 0 := by
  obtain ⟨fields, opened, read⟩ := Result.bind_eq_ok.mp read
  obtain ⟨_, _, read⟩ := Result.bind_eq_ok.mp read
  obtain ⟨_, _, read⟩ := Result.bind_eq_ok.mp read
  obtain ⟨_, _, read⟩ := Result.bind_eq_ok.mp read
  obtain ⟨_, _, read⟩ := Result.bind_eq_ok.mp read
  obtain ⟨_, evidence, read⟩ := Result.bind_eq_ok.mp read
  obtain ⟨value, found, listed⟩ := Fields.required_eq_ok.mp evidence
  have counted : Gains limits (.object .relation) document
      (ObjectKind.relation.counted.map fun _ => (0 : SequenceKind → Nat)).sum := by
    refine gains_record opened fun name member => ?_
    cases List.mem_singleton.mp member
    have leaves : Gains limits (.sequence .relationEvidence) value
        (relation.evidence.length • SequenceKind.unit .relationEvidence) := by
      cases read
      exact gains_leaves rfl listed
    exact ⟨value, found, by simpa [SequenceKind.unit, ObjectKind.visit, Field.ofName] using leaves⟩
  simpa [ObjectKind.counted] using counted

/-- The number of pairs a constraint lists. -/
def AmbiguityConstraint.pairCount : AmbiguityConstraint → Nat
  | .exactOrderedAlignment _ _ possiblePairs => possiblePairs.length
  | .symbolicAbstention _ _ => 0

/-- Passing over a member adds nothing. -/
theorem scanMembers_filter {kind : ObjectKind} {tag : String}
    {entries : List (Option String × Document)}
    (ignored : kind.visit (Field.ofName tag) = .ignored)
    (done : scanMembers limits kind entries scanner = .ok after) :
    scanMembers limits kind (entries.filter fun member => member.1 ≠ some tag) scanner =
      .ok after := by
  induction entries generalizing scanner with
  | nil => exact done
  | cons entry entries ih =>
      obtain ⟨_ | name, value⟩ := entry
      · rw [scanMembers] at done
        cases done
      · rw [scanMembers_cons] at done
        obtain ⟨middle, first, done⟩ := Result.bind_eq_ok.mp done
        by_cases same : name = tag
        · subst same
          rw [ignored] at first
          obtain ⟨_, first⟩ := Result.check_bind_eq_ok.mp first
          cases first
          simpa using ih done
        · rw [List.filter_cons_of_pos (by simpa using same), scanMembers_cons, first]
          exact ih done

theorem gains_constraint {document : Document} {constraint : AmbiguityConstraint}
    (read : readAmbiguityConstraint document = .ok constraint) :
    Gains limits (.object .constraint) document
      (constraint.pairCount • SequenceKind.unit .ambiguityPairs) := by
  intro scanner after done
  obtain ⟨entries, rfl⟩ := object_of_visited done
  obtain ⟨⟨kind, record⟩, tagged, read⟩ := Result.bind_eq_ok.mp read
  obtain ⟨kind, _, read⟩ := Result.bind_eq_ok.mp read
  have rest : visitValue limits (.object .constraint) record scanner = .ok after := by
    rw [readTag_object tagged]
    exact scanMembers_filter (by decide) done
  revert rest
  split at read
  · obtain ⟨fields, opened, read⟩ := Result.bind_eq_ok.mp read
    obtain ⟨_, _, read⟩ := Result.bind_eq_ok.mp read
    obtain ⟨_, _, read⟩ := Result.bind_eq_ok.mp read
    obtain ⟨pairs, possible, read⟩ := Result.bind_eq_ok.mp read
    cases read
    obtain ⟨value, found, listed⟩ := Fields.required_eq_ok.mp possible
    have counted : Gains limits (.object .constraint) record
        (ObjectKind.constraint.counted.map fun _ =>
          pairs.length • SequenceKind.unit .ambiguityPairs).sum := by
      refine gains_record opened fun name member => ?_
      cases List.mem_singleton.mp member
      exact ⟨value, found, gains_leaves rfl listed⟩
    simpa [ObjectKind.counted, AmbiguityConstraint.pairCount] using counted scanner after
  · split at read
    · obtain ⟨fields, opened, read⟩ := Result.bind_eq_ok.mp read
      obtain ⟨_, _, read⟩ := Result.bind_eq_ok.mp read
      obtain ⟨_, _, read⟩ := Result.bind_eq_ok.mp read
      cases read
      have nothing : Gains limits (.object .constraint) record 0 :=
        gains_unlisted opened (by decide)
      simpa [AmbiguityConstraint.pairCount] using nothing scanner after
    · cases read

/-- What a group adds to the counts. -/
def AmbiguityGroup.gain (group : AmbiguityGroup) : SequenceKind → Nat :=
  (group.before.length + group.after.length) • SequenceKind.unit .ambiguityEndpoints +
    group.constraint.pairCount • SequenceKind.unit .ambiguityPairs

theorem gains_group {document : Document} {group : AmbiguityGroup}
    (read : readAmbiguityGroup document = .ok group) :
    Gains limits (.object .ambiguity) document group.gain := by
  obtain ⟨fields, opened, read⟩ := Result.bind_eq_ok.mp read
  obtain ⟨_, _, read⟩ := Result.bind_eq_ok.mp read
  obtain ⟨_, _, read⟩ := Result.bind_eq_ok.mp read
  obtain ⟨beforeNodes, readBefore, read⟩ := Result.bind_eq_ok.mp read
  obtain ⟨afterNodes, readAfter, read⟩ := Result.bind_eq_ok.mp read
  obtain ⟨constraint, readConstraint, read⟩ := Result.bind_eq_ok.mp read
  obtain ⟨_, _, read⟩ := Result.bind_eq_ok.mp read
  cases read
  obtain ⟨beforeValue, beforeFound, listedBefore⟩ := Fields.required_eq_ok.mp readBefore
  obtain ⟨afterValue, afterFound, listedAfter⟩ := Fields.required_eq_ok.mp readAfter
  obtain ⟨constraintValue, constraintFound, decoded⟩ := Fields.required_eq_ok.mp readConstraint
  let gain : String → SequenceKind → Nat := fun name =>
    if name = "before" then beforeNodes.length • SequenceKind.unit .ambiguityEndpoints
    else if name = "after" then afterNodes.length • SequenceKind.unit .ambiguityEndpoints
    else constraint.pairCount • SequenceKind.unit .ambiguityPairs
  have counted : Gains limits (.object .ambiguity) document
      (ObjectKind.ambiguity.counted.map gain).sum := by
    refine gains_record opened (List.forall_mem_cons.mpr ⟨?_, List.forall_mem_cons.mpr ⟨?_,
      List.forall_mem_singleton.mpr ?_⟩⟩)
    · exact ⟨beforeValue, beforeFound, gains_leaves rfl listedBefore⟩
    · exact ⟨afterValue, afterFound, gains_leaves rfl listedAfter⟩
    · exact ⟨constraintValue, constraintFound, gains_constraint decoded⟩
  simpa [ObjectKind.counted, gain, AmbiguityGroup.gain, add_smul, add_assoc] using counted

theorem gains_patch {document : Document} {patch : LosslessPatch}
    (read : readLosslessPatch document = .ok patch) :
    Gains limits (.object .patch) document
      (patch.edits.length • SequenceKind.unit .patchEdits) := by
  obtain ⟨fields, opened, read⟩ := Result.bind_eq_ok.mp read
  obtain ⟨_, _, read⟩ := Result.bind_eq_ok.mp read
  obtain ⟨edits, readEdits, read⟩ := Result.bind_eq_ok.mp read
  cases read
  obtain ⟨value, found, listed⟩ := Fields.required_eq_ok.mp readEdits
  have counted : Gains limits (.object .patch) document
      (ObjectKind.patch.counted.map fun _ => edits.length • SequenceKind.unit .patchEdits).sum := by
    refine gains_record opened (List.forall_mem_singleton.mpr ?_)
    exact ⟨value, found, gains_leaves rfl listed⟩
  simpa [ObjectKind.counted] using counted

/-- The numbers of elements of the collections of a report. -/
def DiffReport.observed (report : DiffReport) : SequenceKind → Nat
  | .relations => report.relations.length
  | .ambiguities => report.ambiguities.length
  | .changes => report.changes.length
  | .patchEdits => report.patch.edits.length
  | .ambiguityEndpoints =>
      (report.ambiguities.map fun group => group.before.length + group.after.length).sum
  | .ambiguityPairs => (report.ambiguities.map fun group => group.constraint.pairCount).sum
  | .relationEvidence => 0

theorem gains_report {document : Document} {report : DiffReport}
    (read : readDiffReport document = .ok report) :
    Gains limits (.object .report) document report.observed := by
  obtain ⟨fields, opened, read⟩ := Result.bind_eq_ok.mp read
  obtain ⟨_, _, read⟩ := Result.bind_eq_ok.mp read
  obtain ⟨_, _, read⟩ := Result.bind_eq_ok.mp read
  obtain ⟨_, _, read⟩ := Result.bind_eq_ok.mp read
  obtain ⟨_, _, read⟩ := Result.bind_eq_ok.mp read
  obtain ⟨_, _, read⟩ := Result.bind_eq_ok.mp read
  obtain ⟨relations, readRelations, read⟩ := Result.bind_eq_ok.mp read
  obtain ⟨ambiguities, readAmbiguities, read⟩ := Result.bind_eq_ok.mp read
  obtain ⟨changes, readChanges, read⟩ := Result.bind_eq_ok.mp read
  obtain ⟨patch, readPatch, read⟩ := Result.bind_eq_ok.mp read
  obtain ⟨_, _, read⟩ := Result.bind_eq_ok.mp read
  obtain ⟨_, _, read⟩ := Result.bind_eq_ok.mp read
  cases read
  obtain ⟨relationsValue, relationsFound, listedRelations⟩ :=
    Fields.required_eq_ok.mp readRelations
  obtain ⟨ambiguitiesValue, ambiguitiesFound, listedAmbiguities⟩ :=
    Fields.required_eq_ok.mp readAmbiguities
  obtain ⟨changesValue, changesFound, listedChanges⟩ := Fields.required_eq_ok.mp readChanges
  obtain ⟨patchValue, patchFound, decodedPatch⟩ := Fields.required_eq_ok.mp readPatch
  let gain : String → SequenceKind → Nat := fun name =>
    if name = "relations" then
      relations.length • SequenceKind.unit .relations + (relations.map fun _ => 0).sum
    else if name = "ambiguities" then
      ambiguities.length • SequenceKind.unit .ambiguities +
        (ambiguities.map AmbiguityGroup.gain).sum
    else if name = "changes" then changes.length • SequenceKind.unit .changes
    else patch.edits.length • SequenceKind.unit .patchEdits
  have counted : Gains limits (.object .report) document
      (ObjectKind.report.counted.map gain).sum := by
    refine gains_record opened (List.forall_mem_cons.mpr ⟨?_, List.forall_mem_cons.mpr ⟨?_,
      List.forall_mem_cons.mpr ⟨?_, List.forall_mem_singleton.mpr ?_⟩⟩⟩)
    · exact ⟨relationsValue, relationsFound,
        gains_sequence listedRelations fun _ _ read => gains_relation read⟩
    · exact ⟨ambiguitiesValue, ambiguitiesFound,
        gains_sequence listedAmbiguities fun _ _ read => gains_group read⟩
    · exact ⟨changesValue, changesFound, gains_leaves rfl listedChanges⟩
    · exact ⟨patchValue, patchFound, gains_patch decodedPatch⟩
  convert counted using 1
  funext kind
  cases kind <;>
    simp [DiffReport.observed, ObjectKind.counted, gain, AmbiguityGroup.gain, SequenceKind.unit,
      Pi.list_sum_apply, Function.comp_def]

/-! ## What passes is within the limits -/

theorem Scanner.count_within {kind : SequenceKind} {relationEvidence next : Nat}
    (counted : scanner.count limits relationEvidence kind = .ok (after, next))
    (within : scanner.Within limits) : after.Within limits := by
  obtain ⟨added, bounded, _⟩ := Scanner.count_eq_ok counted
  intro other
  by_cases same : other = kind
  · exact same ▸ bounded
  · have unchanged : kind.unit other = 0 := by
      rw [SequenceKind.unit]
      split
      · rfl
      · exact Pi.single_eq_of_ne same 1
    rw [added, Pi.add_apply, unchanged]
    exact within other

/-- A visit of the value leaves the counts within the limits. -/
def StaysWithin (limits : VerificationLimits) (value : Document) : Prop :=
  ∀ visit scanner after, visitValue limits visit value scanner = .ok after →
    scanner.Within limits → after.Within limits

theorem scanMembers_within {kind : ObjectKind} {entries : List (Option String × Document)}
    (each : ∀ entry ∈ entries, StaysWithin limits entry.2)
    (done : scanMembers limits kind entries scanner = .ok after)
    (within : scanner.Within limits) : after.Within limits := by
  induction entries generalizing scanner with
  | nil =>
      cases done
      exact within
  | cons entry entries ih =>
      obtain ⟨_ | name, value⟩ := entry
      · rw [scanMembers] at done
        cases done
      · rw [scanMembers_cons] at done
        obtain ⟨middle, first, done⟩ := Result.bind_eq_ok.mp done
        exact ih (fun entry member => each entry (List.mem_cons_of_mem _ member)) done
          (each (some name, value) List.mem_cons_self _ _ _ first within)

theorem scanElements_within {kind : SequenceKind} {elements : List Document}
    {relationEvidence : Nat} (each : ∀ element ∈ elements, StaysWithin limits element)
    (done : scanElements limits kind elements scanner relationEvidence = .ok after)
    (within : scanner.Within limits) : after.Within limits := by
  induction elements generalizing scanner relationEvidence with
  | nil =>
      cases done
      exact within
  | cons element elements ih =>
      rw [scanElements_cons] at done
      obtain ⟨⟨counted, next⟩, count, done⟩ := Result.bind_eq_ok.mp done
      obtain ⟨middle, first, done⟩ := Result.bind_eq_ok.mp done
      exact ih (fun element member => each element (List.mem_cons_of_mem _ member)) done
        (each element List.mem_cons_self _ _ _ first (Scanner.count_within count within))

theorem staysWithin (value : Document) : StaysWithin limits value := by
  induction value with
  | array elements ih =>
      rintro (kind | kind | _) scanner after done within
      · exact scanElements_within ih done within
      · cases done
      · exact (visitValue_ignored done).symm ▸ within
  | object members ih =>
      rintro (kind | kind | _) scanner after done within
      · cases done
      · exact scanMembers_within ih done within
      · exact (visitValue_ignored done).symm ▸ within
  | _ =>
      rintro (kind | kind | _) scanner after done within
      · cases done
      · cases done
      · exact (visitValue_ignored done).symm ▸ within

/-! ## Every element is looked at -/

theorem scanMembers_visited {kind : ObjectKind} {fields : Fields}
    (done : scanMembers limits kind (members fields) scanner = .ok after)
    {field : String × Document}
    (member : field ∈ fields) :
    ∃ first second, visitValue limits (kind.visit (Field.ofName field.1)) field.2 first =
      .ok second := by
  induction fields generalizing scanner with
  | nil => exact absurd member List.not_mem_nil
  | cons head fields ih =>
      obtain ⟨name, value⟩ := head
      rw [members_cons, scanMembers_cons] at done
      obtain ⟨middle, first, done⟩ := Result.bind_eq_ok.mp done
      rcases List.mem_cons.mp member with rfl | member
      · exact ⟨scanner, middle, first⟩
      · exact ih done member

theorem scanElements_visited {kind : SequenceKind} {elements : List Document}
    {relationEvidence : Nat}
    (done : scanElements limits kind elements scanner relationEvidence = .ok after)
    {element : Document} (member : element ∈ elements) :
    ∃ first second, visitValue limits kind.element element first = .ok second := by
  induction elements generalizing scanner relationEvidence with
  | nil => exact absurd member List.not_mem_nil
  | cons head elements ih =>
      rw [scanElements_cons] at done
      obtain ⟨⟨counted, next⟩, _, done⟩ := Result.bind_eq_ok.mp done
      obtain ⟨middle, first, done⟩ := Result.bind_eq_ok.mp done
      rcases List.mem_cons.mp member with rfl | member
      · exact ⟨counted, middle, first⟩
      · exact ih done member

theorem evidence_bounded {elements : List Document} {relationEvidence : Nat}
    (done : scanElements limits .relationEvidence elements scanner relationEvidence = .ok after)
    (bounded : relationEvidence ≤ maxRelationEvidence) :
    relationEvidence + elements.length ≤ maxRelationEvidence := by
  induction elements generalizing scanner relationEvidence with
  | nil => exact bounded
  | cons element elements ih =>
      rw [scanElements_cons] at done
      obtain ⟨⟨counted, next⟩, count, done⟩ := Result.bind_eq_ok.mp done
      obtain ⟨middle, _, done⟩ := Result.bind_eq_ok.mp done
      obtain ⟨rfl, bounded⟩ := (Scanner.count_eq_ok count).2.2 rfl
      have rest := ih done bounded
      rw [List.length_cons]
      omega

/-- The value of a counted field of a record was visited. -/
theorem visited_of_record {kind : ObjectKind} {document value : Document} {names : List String}
    {fields : Fields} {name : String} (read : readFields names document = .ok fields)
    (found : fields.lookup name = some value)
    (done : visitValue limits (.object kind) document scanner = .ok after) :
    ∃ first second, visitValue limits (kind.visit (Field.ofName name)) value first =
      .ok second := by
  obtain ⟨entries, rfl⟩ := object_of_visited done
  obtain ⟨rfl, distinct, _⟩ := readFields_object read
  exact scanMembers_visited done ((OrderedMap.lookup_eq_some distinct).mp found)

theorem relation_evidence_bounded {document : Document} {relation : Relation}
    (read : readRelation document = .ok relation)
    (done : visitValue limits (.object .relation) document scanner = .ok after) :
    relation.evidence.length ≤ maxRelationEvidence := by
  obtain ⟨fields, opened, read⟩ := Result.bind_eq_ok.mp read
  obtain ⟨_, _, read⟩ := Result.bind_eq_ok.mp read
  obtain ⟨_, _, read⟩ := Result.bind_eq_ok.mp read
  obtain ⟨_, _, read⟩ := Result.bind_eq_ok.mp read
  obtain ⟨_, _, read⟩ := Result.bind_eq_ok.mp read
  obtain ⟨evidence, readEvidence, read⟩ := Result.bind_eq_ok.mp read
  cases read
  obtain ⟨value, found, listed⟩ := Fields.required_eq_ok.mp readEvidence
  obtain ⟨first, second, scanned⟩ := visited_of_record opened found done
  obtain ⟨elements, rfl, pairs⟩ := readVec_eq_ok listed
  have bounded := evidence_bounded scanned (Nat.zero_le _)
  rw [← pairs.length_eq]
  omega

theorem report_evidence_bounded {document : Document} {report : DiffReport}
    (read : readDiffReport document = .ok report)
    (done : scanObject limits .report document scanner = .ok after) :
    ∀ relation ∈ report.relations, relation.evidence.length ≤ maxRelationEvidence := by
  obtain ⟨fields, opened, read⟩ := Result.bind_eq_ok.mp read
  obtain ⟨_, _, read⟩ := Result.bind_eq_ok.mp read
  obtain ⟨_, _, read⟩ := Result.bind_eq_ok.mp read
  obtain ⟨_, _, read⟩ := Result.bind_eq_ok.mp read
  obtain ⟨_, _, read⟩ := Result.bind_eq_ok.mp read
  obtain ⟨_, _, read⟩ := Result.bind_eq_ok.mp read
  obtain ⟨relations, readRelations, read⟩ := Result.bind_eq_ok.mp read
  obtain ⟨_, _, read⟩ := Result.bind_eq_ok.mp read
  obtain ⟨_, _, read⟩ := Result.bind_eq_ok.mp read
  obtain ⟨_, _, read⟩ := Result.bind_eq_ok.mp read
  obtain ⟨_, _, read⟩ := Result.bind_eq_ok.mp read
  obtain ⟨_, _, read⟩ := Result.bind_eq_ok.mp read
  cases read
  obtain ⟨value, found, listed⟩ := Fields.required_eq_ok.mp readRelations
  obtain ⟨first, second, scanned⟩ := visited_of_record opened found done
  obtain ⟨elements, rfl, pairs⟩ := readVec_eq_ok listed
  intro relation member
  obtain ⟨index, bound, rfl⟩ := List.getElem_of_mem member
  obtain ⟨length, each⟩ := List.forall₂_iff_get.mp pairs
  have decoded := each index (length ▸ bound) bound
  obtain ⟨first, second, visited⟩ :=
    scanElements_visited scanned (List.getElem_mem (length ▸ bound))
  exact relation_evidence_bounded decoded visited

/-- A report that is decoded is within the limits, and the preflight has counted at least what
is in it. -/
theorem decode_within_limits (serdeJson : Bytes → JsonText) (reportBytes : Bytes)
    (limits : VerificationLimits) (report : DiffReport)
    (decoded : decodeReportBytes limits serdeJson reportBytes = .ok report) :
    ∃ scanner, preflightJsonCollections limits (serdeJson reportBytes) = .ok scanner ∧
      (report.relations.length ≤ scanner.relations ∧ scanner.relations ≤ limits.maxRelations) ∧
      (report.ambiguities.length ≤ scanner.ambiguityGroups ∧
        scanner.ambiguityGroups ≤ limits.maxAmbiguityGroups) ∧
      ((report.ambiguities.map fun group => group.before.length + group.after.length).sum ≤
          scanner.ambiguityEndpoints ∧
        scanner.ambiguityEndpoints ≤ limits.maxAmbiguityEndpoints) ∧
      ((report.ambiguities.map fun group => group.constraint.pairCount).sum ≤
          scanner.ambiguityPairs ∧
        scanner.ambiguityPairs ≤ limits.maxAmbiguityPairs) ∧
      (report.changes.length ≤ scanner.changes ∧ scanner.changes ≤ limits.maxChanges) ∧
      (report.patch.edits.length ≤ scanner.patchEdits ∧
        scanner.patchEdits ≤ limits.maxPatchEdits) ∧
      ∀ relation ∈ report.relations, relation.evidence.length ≤ maxRelationEvidence := by
  obtain ⟨_, decoded⟩ := Result.check_bind_eq_ok.mp decoded
  obtain ⟨scanner, preflight, decoded⟩ := Result.bind_eq_ok.mp decoded
  obtain ⟨_, scanned, ended⟩ := Result.bind_eq_ok.mp preflight
  obtain ⟨_, ended⟩ := Result.check_bind_eq_ok.mp ended
  cases ended
  obtain ⟨_, read, ended⟩ := Result.bind_eq_ok.mp (Result.mapError_eq_ok.mp decoded)
  obtain ⟨_, ended⟩ := Result.check_bind_eq_ok.mp ended
  cases ended
  have same : scanner.observed = report.observed := by
    rw [gains_report read _ _ scanned]
    funext kind
    cases kind <;> exact Nat.zero_add _
  have within : scanner.Within limits :=
    staysWithin _ (.object .report) _ _ scanned fun kind => by
      cases kind <;> exact Nat.zero_le _
  refine ⟨scanner, preflight, ⟨?_, within .relations⟩, ⟨?_, within .ambiguities⟩,
    ⟨?_, within .ambiguityEndpoints⟩, ⟨?_, within .ambiguityPairs⟩, ⟨?_, within .changes⟩,
    ⟨?_, within .patchEdits⟩, report_evidence_bounded read scanned⟩
  · exact (congrFun same .relations).ge
  · exact (congrFun same .ambiguities).ge
  · exact (congrFun same .ambiguityEndpoints).ge
  · exact (congrFun same .ambiguityPairs).ge
  · exact (congrFun same .changes).ge
  · exact (congrFun same .patchEdits).ge

/-- A text with records written in both ways and its members out of order. -/
def sampleReportText : String :=
  "\x7b\"relations\":[\x7b\"evidence\":[\"e\"],\"before\":[0,\"k\",true,false,false,null,[0,0," ++
    "[0,0],[0,0]],1,\"h\",\"h\"],\"after\":[0,\"k\",true,false,false,null,[0,0,[0,0],[0,0]],1," ++
    "\"h\",\"h\"],\"predicate\":\"input_pair\",\"correspondence\":\"input_pair\"\x7d]," ++
    "\"ambiguities\":[\x7b\"parent_before\":0,\"parent_after\":0,\"before\":[[0,\"k\",true," ++
    "false,false,null,[0,0,[0,0],[0,0]],1,\"h\",\"h\"]],\"after\":[[0,\"k\",true,false,false," ++
    "null,[0,0,[0,0],[0,0]],1,\"h\",\"h\"]],\"constraint\":\x7b\"possible_pairs\":[[0,0]]," ++
    "\"kind\":\"exact_ordered_alignment\",\"predicate\":\"shape_equal\"," ++
    "\"required_matches\":1\x7d,\"reason\":\"r\"\x7d],\"changes\":[\x7b\"kind\":\"insert\"," ++
    "\"after\":[0,\"k\",true,false,false,null,[0,0,[0,0],[0,0]],1,\"h\",\"h\"]," ++
    "\"detail\":\"d\"\x7d],\"patch\":\x7b\"edits\":[[0,0,\"\"]],\"algorithm\":\"a\"\x7d," ++
    "\"schema\":\"s\",\"engine_version\":\"v\",\"before\":[\"p\",0,\"h\"],\"after\":[\"p\",0," ++
    "\"h\"],\"parser\":[\"e\",\"v\",\"json\",\"g\",\"v\",0,\"h\",\"u\",\"r\",1,1,true]," ++
    "\"certificate\":[\"h\",\"h\",\"h\",0,0,true],\"summary\":[0,0,0,0]\x7d"

def sampleNode : Document :=
  .array [natural 0, text "k", .bool true, .bool false, .bool false, .null,
    .array [natural 0, natural 0, .array [natural 0, natural 0], .array [natural 0, natural 0]],
    natural 1, text "h", text "h"]

def sampleReportDocument : Document :=
  .object [
    (some "relations", .array [.object [(some "evidence", .array [text "e"]),
      (some "before", sampleNode), (some "after", sampleNode),
      (some "predicate", text "input_pair"), (some "correspondence", text "input_pair")]]),
    (some "ambiguities", .array [.object [(some "parent_before", natural 0),
      (some "parent_after", natural 0), (some "before", .array [sampleNode]),
      (some "after", .array [sampleNode]),
      (some "constraint", .object [
        (some "possible_pairs", .array [.array [natural 0, natural 0]]),
        (some "kind", text "exact_ordered_alignment"), (some "predicate", text "shape_equal"),
        (some "required_matches", natural 1)]),
      (some "reason", text "r")]]),
    (some "changes", .array [.object [(some "kind", text "insert"), (some "after", sampleNode),
      (some "detail", text "d")]]),
    (some "patch", .object [
      (some "edits", .array [.array [natural 0, natural 0, text ""]]),
      (some "algorithm", text "a")]),
    (some "schema", text "s"), (some "engine_version", text "v"),
    (some "before", .array [text "p", natural 0, text "h"]),
    (some "after", .array [text "p", natural 0, text "h"]),
    (some "parser", .array [text "e", text "v", text "json", text "g", text "v", natural 0,
      text "h", text "u", text "r", natural 1, natural 1, .bool true]),
    (some "certificate", .array [text "h", text "h", text "h", natural 0, natural 0, .bool true]),
    (some "summary", .array [natural 0, natural 0, natural 0, natural 0])]

/-- Read that text, given its bytes. -/
def sampleSerdeJson (sampleBytes bytes : Bytes) : JsonText :=
  if bytes = sampleBytes then ⟨sampleReportDocument, true⟩ else ⟨.malformed, true⟩

def sampleNodeRef : NodeRef where
  id := 0
  kind := "k"
  named := true
  extra := false
  missing := false
  field := none
  span := ⟨0, 0, ⟨0, 0⟩, ⟨0, 0⟩⟩
  subtreeSize := 1
  syntaxHash := "h"
  shapeHash := "h"

def sampleReport : DiffReport where
  schema := "s"
  engineVersion := "v"
  before := ⟨"p", 0, "h"⟩
  after := ⟨"p", 0, "h"⟩
  parser := ⟨"e", "v", .json, "g", "v", 0, "h", "u", "r", 1, 1, true⟩
  relations := [⟨sampleNodeRef, sampleNodeRef, .inputPair, .inputPair, ["e"]⟩]
  ambiguities := [⟨0, 0, [sampleNodeRef], [sampleNodeRef],
    .exactOrderedAlignment .shapeEqual 1 [⟨0, 0⟩], "r"⟩]
  changes := [⟨.insert, none, some sampleNodeRef, "d"⟩]
  patch := ⟨"a", [⟨0, 0, []⟩]⟩
  certificate := ⟨"h", "h", "h", 0, 0, true⟩
  summary := ⟨0, 0, 0, 0⟩

/-- The text may be as long as it is. -/
def sampleLimits (bytes : Bytes) : VerificationLimits :=
  { VerificationLimits.default with maxReportBytes := bytes.length }

theorem sampleReport_decoded (bytes : Bytes) :
    decodeReportBytes (sampleLimits bytes) (sampleSerdeJson bytes) bytes = .ok sampleReport := by
  have text : sampleSerdeJson bytes bytes = ⟨sampleReportDocument, true⟩ := if_pos rfl
  have short : checkLimit "report bytes" bytes.length (sampleLimits bytes).maxReportBytes =
      .ok () := checkLimit_eq_ok.mpr le_rfl
  have scanned : scanObject (sampleLimits bytes) .report sampleReportDocument .new =
      .ok ⟨1, 1, 2, 1, 1, 1⟩ := rfl
  have read : readDiffReport sampleReportDocument = .ok sampleReport := by decide +kernel
  rw [decodeReportBytes, text, short, Result.ok_bind, preflightJsonCollections, scanned,
    readJsonText, read]
  rfl

theorem decode_within_limits_sample :
    ∃ scanner, preflightJsonCollections (sampleLimits (utf8Bytes sampleReportText))
        (sampleSerdeJson (utf8Bytes sampleReportText) (utf8Bytes sampleReportText)) = .ok scanner ∧
      1 ≤ scanner.relations ∧ 2 ≤ scanner.ambiguityEndpoints ∧ 1 ≤ scanner.ambiguityPairs ∧
      1 ≤ scanner.patchEdits := by
  obtain ⟨scanner, passed, relations, _, endpoints, pairs, _, edits, _⟩ :=
    decode_within_limits (sampleSerdeJson (utf8Bytes sampleReportText))
      (utf8Bytes sampleReportText) (sampleLimits (utf8Bytes sampleReportText)) sampleReport
      (sampleReport_decoded _)
  exact ⟨scanner, passed, relations.1, endpoints.1, pairs.1, edits.1⟩

end

end Stratadiff
