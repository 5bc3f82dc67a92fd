import Stratadiff.Lib.Stateful
import Stratadiff.Review.Model

/-!
# Loading sources within budgets

The blob loader and the analysis context of `review.rs`. The loader caches sizes,
bytes and failures of the objects it has asked Git for; the context adds the
budgets of one review and the changes and files it has already worked out. Both
are plain state. `Faithful` says what the caches mean: they hold what Git would
answer again.
-/

namespace Stratadiff

open Run

structure Blob where
  size : Option Nat
  unavailableReason : Option String
  deriving DecidableEq, Repr

structure BlobLoader where
  sizes : List (String × Nat)
  bytes : List (String × Bytes)
  errors : List (String × String)
  structuralOids : List String
  structuralSourceBytes : Nat
  lineStatSourceBytes : Nat
  lineChanges : List ((Option String × Option String) × Option LineChangeEnvelope)

def BlobLoader.default : BlobLoader := ⟨[], [], [], [], 0, 0, []⟩

inductive BlobLoad where
  | available
  | unavailable (reason : String)

inductive StructuralBlobPair where
  | available (before after : Bytes)
  | unavailable (reason : String)

def isRegularFile (mode : String) : Bool := mode = "100644" || mode = "100755"

section

variable (repository : Repository) (limits : VerificationLimits)

/-- The size of an object, asked for once. -/
def knownSize (objectId : String) : Run BlobLoader (Except String Nat) := do
  let loader ← get
  match loader.sizes.lookup objectId with
  | some size => return .ok size
  | none =>
      match repository.objectSize objectId with
      | .ok size => do
          modify fun loader => { loader with sizes := (objectId, size) :: loader.sizes }
          return .ok size
      | .error error => do
          let reason := s!"Git blob metadata {objectId} is unavailable: {error}"
          modify fun loader => { loader with errors := (objectId, reason) :: loader.errors }
          return .error reason

def inspectOptionalBlob (objectId mode : Option String) : Run BlobLoader (Option Blob) :=
  match objectId with
  | none => return none
  | some objectId => do
      lift (.ensure (isObjectId objectId) (.invalid "git diff returned an invalid object id"))
      let mode ← lift (.ofOption (.invalid "git object is missing its file mode") mode)
      if mode = "160000" then
        return some ⟨none, some "gitlink/submodule target changed and requires manual review"⟩
      else if ¬ isRegularFile mode then
        return some ⟨none, some s!"Git object mode {mode} is not a regular source file"⟩
      else do
        let loader ← get
        match loader.errors.lookup objectId with
        | some reason => return some ⟨none, some reason⟩
        | none => do
            match ← knownSize repository objectId with
            | .error reason => return some ⟨none, some reason⟩
            | .ok size =>
                let maxSourceBytes := limits.maxSourceBytes
                if size > maxSourceBytes then
                  return some ⟨some size,
                    some s!"blob exceeds the {maxSourceBytes} byte per-file analysis limit"⟩
                else return some ⟨some size, none⟩

def readBlob (objectId : String) (size : Nat) : Except String Bytes := do
  let stdout ← repository.objectBytes objectId
  if stdout.length = size then return stdout
  else throw s!"git blob size changed while reading {objectId}"

def loadBlobOnce (objectId : String) (size : Nat) : Run BlobLoader BlobLoad := do
  let loader ← get
  if (loader.bytes.lookup objectId).isSome then return .available
  else
    match loader.errors.lookup objectId with
    | some reason => return .unavailable reason
    | none =>
        match readBlob repository objectId size with
        | .ok bytes => do
            modify fun loader => { loader with bytes := (objectId, bytes) :: loader.bytes }
            return .available
        | .error error => do
            let reason := s!"Git blob {objectId} is unavailable: {error}"
            modify fun loader => { loader with errors := (objectId, reason) :: loader.errors }
            return .unavailable reason

/-- Load a list of objects in order, up to the first that is unavailable. -/
def loadBlobs : List (String × Nat) → Run BlobLoader BlobLoad
  | [] => return .available
  | (objectId, size) :: rest => do
      match ← loadBlobOnce repository objectId size with
      | .available => loadBlobs rest
      | .unavailable reason => return .unavailable reason

/-- Sum of sizes in a machine word. -/
def totalSize (failure : Failure) : List (String × Nat) → Nat → Result Nat
  | [], total => .ok total
  | (_, size) :: rest, total => do
      let total ← Result.ofOption failure (checkedAdd total size)
      totalSize failure rest total

def loadStructuralBlobPair (beforeId : String) (beforeSize : Nat) (afterId : String)
    (afterSize : Nat) : Run BlobLoader StructuralBlobPair := do
  let loader ← get
  let overflow : Failure := .invalid "aggregate source byte count exceeds usize capacity"
  let first := if loader.structuralOids.contains beforeId then [] else [(beforeId, beforeSize)]
  let missing := first ++
    (if loader.structuralOids.contains afterId || first.any (fun entry => entry.1 = afterId) then []
      else [(afterId, afterSize)])
  let additionalBytes ← lift (totalSize overflow missing 0)
  let nextTotal ← lift (.ofOption overflow
    (checkedAdd loader.structuralSourceBytes additionalBytes))
  if nextTotal > maxReviewTotalSourceBytes then
    return .unavailable
      s!"repository review exceeds the {maxReviewTotalSourceBytes} byte aggregate analysis limit"
  else
    match ← loadBlobs repository missing with
    | .unavailable reason => return .unavailable reason
    | .available => do
        modify fun loader => { loader with
          structuralOids := missing.map Prod.fst ++ loader.structuralOids
          structuralSourceBytes := nextTotal }
        let loader ← get
        let before ← lift (.ofOption (.invalid "before structural blob was not cached")
          (loader.bytes.lookup beforeId))
        let after ← lift (.ofOption (.invalid "after structural blob was not cached")
          (loader.bytes.lookup afterId))
        return .available before after

end

/-! ## What the caches hold -/

/-- The bytes in the cache are those Git would answer again. -/
def BlobLoader.Faithful (repository : Repository) (loader : BlobLoader) : Prop :=
  ∀ objectId bytes, loader.bytes.lookup objectId = some bytes →
    repository.objectBytes objectId = .ok bytes

section

variable {repository : Repository} {limits : VerificationLimits}

theorem knownSize_keeps (objectId : String) :
    Keeps (BlobLoader.Faithful repository) (knownSize repository objectId) fun _ => True := by
  refine .bind .get fun loader _ => ?_
  split
  · exact .pure trivial
  · split
    · exact .bind (.modify fun _ kept => kept) fun _ _ => .pure trivial
    · exact .bind (.modify fun _ kept => kept) fun _ _ => .pure trivial

theorem inspectOptionalBlob_keeps (objectId mode : Option String) :
    Keeps (BlobLoader.Faithful repository) (inspectOptionalBlob repository limits objectId mode)
      fun _ => True := by
  unfold inspectOptionalBlob
  split
  · exact .pure trivial
  · refine .lift_bind fun _ _ =>
      .lift_bind fun mode _ => ?_
    split
    · exact .pure trivial
    · split
      · exact .pure trivial
      · refine .bind .get fun loader _ => ?_
        split
        · exact .pure trivial
        · refine .bind (knownSize_keeps _) fun size _ => ?_
          split
          · exact .pure trivial
          · dsimp only
            split <;> exact .pure trivial

theorem readBlob_ok {objectId : String} {size : Nat} {bytes : Bytes}
    (h : readBlob repository objectId size = .ok bytes) :
    repository.objectBytes objectId = .ok bytes := by
  unfold readBlob at h
  cases stdout : repository.objectBytes objectId with
  | error error => simp [stdout, bind, Except.bind] at h
  | ok found =>
      simp only [stdout, bind, Except.bind] at h
      split at h
      · cases h
        rfl
      · cases h

theorem loadBlobOnce_keeps (objectId : String) (size : Nat) :
    Keeps (BlobLoader.Faithful repository) (loadBlobOnce repository objectId size)
      fun _ => True := by
  refine .bind .get fun loader _ => ?_
  split
  · exact .pure trivial
  · split
    · exact .pure trivial
    · split
      · next bytes read =>
        refine .bind (.modify fun loader kept other found lookup => ?_) fun _ _ => .pure trivial
        simp only [List.lookup_cons] at lookup
        split at lookup
        · next same =>
          cases lookup
          rw [beq_iff_eq.mp same]
          exact readBlob_ok read
        · exact kept other found lookup
      · exact .bind (.modify fun _ kept => kept) fun _ _ => .pure trivial

theorem loadBlobs_keeps (missing : List (String × Nat)) :
    Keeps (BlobLoader.Faithful repository) (loadBlobs repository missing) fun _ => True := by
  induction missing with
  | nil => exact .pure trivial
  | cons entry rest ih =>
      refine .bind (loadBlobOnce_keeps _ _) fun load _ => ?_
      split
      · exact ih
      · exact .pure trivial

/-- A pair that is available has the bytes of its two objects. -/
theorem loadStructuralBlobPair_keeps (beforeId afterId : String) (beforeSize afterSize : Nat) :
    Keeps (BlobLoader.Faithful repository)
      (loadStructuralBlobPair repository beforeId beforeSize afterId afterSize)
      fun pair => ∀ before after, pair = .available before after →
        repository.objectBytes beforeId = .ok before ∧
          repository.objectBytes afterId = .ok after := by
  refine .bind .get fun loader _ => .lift_bind fun additional _ => .lift_bind fun total _ => ?_
  split
  · exact .pure fun _ _ impossible => by cases impossible
  · refine .bind (loadBlobs_keeps _) fun load _ => ?_
    split
    · exact .pure fun _ _ impossible => by cases impossible
    · refine .bind (.modify fun _ kept => kept) fun _ _ => .bind .get fun loader kept =>
        .bind (.lift fun _ found => Result.ofOption_eq_ok.mp found) fun before hbefore =>
          .bind (.lift fun _ found => Result.ofOption_eq_ok.mp found) fun after hafter => ?_
      refine .pure fun _ _ same => ?_
      cases same
      exact ⟨kept _ _ hbefore, kept _ _ hafter⟩

end

/-! ## The analysis context -/

structure ReviewAnalysisContext where
  maxFileVisits : Option Nat
  fileVisits : Nat
  maxSourceBytes : Option Nat
  sourceBytes : Nat
  processedSourceBytes : Nat
  metadataBytes : Nat
  diffQueries : Nat
  sourceOids : List String
  retainSourceOverrides : Bool
  changes : List ((String × String) × List GitChange)
  analyzedFiles : List (GitChange × ReviewFile)
  blobLoader : BlobLoader

def ReviewAnalysisContext.unbounded : ReviewAnalysisContext :=
  ⟨none, 0, none, 0, 0, 0, 0, [], true, [], [], .default⟩

abbrev Review (α : Type) := Run ReviewAnalysisContext α

/-- Run a loader operation inside the context. -/
def onLoader {α : Type} (x : Run BlobLoader α) : Review α :=
  Run.zoom ReviewAnalysisContext.blobLoader
    (fun loader context => { context with blobLoader := loader }) x

def analysisBudgetExceeded (resource : String) (observed limit : Nat) : Failure :=
  .budget
    s!"review analysis {resource} budget exceeded: observed at least {observed}, limit {limit}"

def checkedAnalysisBudgetAdd (current additional limit : Nat) (resource : String) : Result Nat :=
  match checkedAdd current additional with
  | none => .error (analysisBudgetExceeded resource usizeMax limit)
  | some observed =>
      if observed > limit then .error (analysisBudgetExceeded resource observed limit)
      else .ok observed

def consumeFileVisits (additional : Nat) : Review Unit := do
  let context ← get
  match context.maxFileVisits with
  | none => return ()
  | some limit => do
      let fileVisits ← lift
        (checkedAnalysisBudgetAdd context.fileVisits additional limit "file visit")
      modify fun context => { context with fileVisits }

def consumeDiffQuery : Review Unit := do
  let context ← get
  match context.maxFileVisits with
  | none => return ()
  | some limit => do
      let diffQueries ← lift (checkedAnalysisBudgetAdd context.diffQueries 1 limit "diff query")
      modify fun context => { context with diffQueries }

def consumeMetadataBytes (additional : Nat) : Review Unit := do
  let context ← get
  match context.maxSourceBytes with
  | none => return ()
  | some limit => do
      let metadataBytes ← lift
        (checkedAnalysisBudgetAdd context.metadataBytes additional limit "diff metadata byte")
      modify fun context => { context with metadataBytes }

def consumeProcessedSourceBytes (additional : Nat) : Review Unit := do
  let context ← get
  match context.maxSourceBytes with
  | none => return ()
  | some limit => do
      let processedSourceBytes ← lift (checkedAnalysisBudgetAdd context.processedSourceBytes
        additional limit "processed source byte")
      modify fun context => { context with processedSourceBytes }

/-- How much of a raw diff the remaining metadata budget allows to read. -/
def diffOutputLimit (context : ReviewAnalysisContext) : Nat :=
  match context.maxSourceBytes with
  | none => maxGitRawDiffBytes
  | some limit => min (limit - context.metadataBytes) maxGitRawDiffBytes

section

variable (repository : Repository) (limits : VerificationLimits)

/-- `ReviewAnalysisContext::discover_changes`. At most `outputLimit` bytes of Git's
output are read. -/
def discoverChanges (fromCommit toCommit : String) : Review (List GitChange) := do
  let context ← get
  match context.changes.lookup (fromCommit, toCommit) with
  | some changes => return changes
  | none => do
      consumeDiffQuery
      let outputLimit := diffOutputLimit context
      let stdout ← lift (match
          repository.rawDiff (repository.tree fromCommit) (repository.tree toCommit) with
        | .ok stdout => .ok stdout
        | .error error => .error (.invalid error))
      let exceeded : Bool := outputLimit < stdout.length
      consumeMetadataBytes (saturatingAdd (min stdout.length outputLimit) exceeded.toNat)
      let context ← get
      if exceeded then
        lift (.error (if outputLimit < maxGitRawDiffBytes then
            analysisBudgetExceeded "diff metadata byte"
              (saturatingAdd context.metadataBytes 1) (context.maxSourceBytes.getD 0)
          else
            analysisBudgetExceeded "raw diff metadata byte" (maxGitRawDiffBytes + 1)
              maxGitRawDiffBytes))
      else do
        let changes ← lift (parseGitChangeOutput stdout)
        modify fun context => { context with
          changes := ((fromCommit, toCommit), changes) :: context.changes }
        return changes

/-- The regular files among the sides of the changes that are not reserved yet. -/
def reservationCandidates (sourceOids : List String) : List GitChange → List (String × String)
  | changes => (changes.flatMap fun change =>
      [(change.beforeBlob, change.beforeMode), (change.afterBlob, change.afterMode)]).foldl
    (fun candidates side => match side with
      | (some objectId, some mode) =>
          if ¬ isRegularFile mode || sourceOids.contains objectId ||
              candidates.any (fun entry => entry.1 = objectId) then candidates
          else candidates ++ [(objectId, mode)]
      | _ => candidates) []

/-- The size of a source that can be analyzed. -/
def availableSize (objectId mode : String) : Review (Option Nat) := do
  let blob ← onLoader (inspectOptionalBlob repository limits (some objectId) (some mode))
  return blob.bind fun blob => if blob.unavailableReason = none then blob.size else none

def reserveCandidates : List (String × String) → Nat → List String → Review (Nat × List String)
  | [], additionalBytes, reservations => return (additionalBytes, reservations)
  | (objectId, mode) :: rest, additionalBytes, reservations => do
      match ← availableSize repository limits objectId mode with
      | none => reserveCandidates rest additionalBytes reservations
      | some size => do
          let additionalBytes ← lift
            (checkedAnalysisBudgetAdd additionalBytes size usizeMax "source byte")
          reserveCandidates rest additionalBytes (reservations ++ [objectId])

def reserveSources (changes : List GitChange) : Review Unit := do
  let context ← get
  match context.maxSourceBytes with
  | none => return ()
  | some limit => do
      let candidates := reservationCandidates context.sourceOids changes
      let (additionalBytes, reservations) ← reserveCandidates repository limits candidates 0 []
      let context ← get
      let sourceBytes ← lift
        (checkedAnalysisBudgetAdd context.sourceBytes additionalBytes limit "source byte")
      modify fun context => { context with
        sourceBytes, sourceOids := reservations ++ context.sourceOids }

def sourceWorkBytes : List (Option String × Option String) → Nat → Review Nat
  | [], bytes => return bytes
  | (some objectId, some mode) :: rest, bytes => do
      match ← availableSize repository limits objectId mode with
      | none => sourceWorkBytes rest bytes
      | some size => do
          let bytes ← lift (checkedAnalysisBudgetAdd bytes size usizeMax "processed source byte")
          sourceWorkBytes rest bytes
  | _ :: rest, bytes => sourceWorkBytes rest bytes

def changeSides (change : GitChange) : List (Option String × Option String) :=
  [(change.beforeBlob, change.beforeMode), (change.afterBlob, change.afterMode)]

end

end Stratadiff
