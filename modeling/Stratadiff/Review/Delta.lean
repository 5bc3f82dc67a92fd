import Stratadiff.Review.Range

/-!
# Review deltas

A delta lists what still has to be looked at: entries that can be displayed, and
reviewed changes that could not be resolved. Its gate passes when both lists are
empty. This is the part of `review.rs` that builds and validates entries.
-/

namespace Stratadiff

open Run

inductive ReviewDeltaUnresolvedReason where
  | nonUtf8GitPath
  deriving DecidableEq, Repr

inductive ReviewDeltaSource where
  | gitObject (commit objectId : String) (byteLen : Option Nat)
  | reconstructedBytes (blake3 : String) (byteLen : Nat)
  | empty
  deriving DecidableEq, Repr

structure ReviewDeltaFile where
  file : ReviewFile
  baselineBasis : ReviewDeltaBaselineBasis
  beforeSource : ReviewDeltaSource
  afterSource : ReviewDeltaSource
  baselineReconstruction : Option ReviewBaselineReconstruction
  fallbackReason : Option ReviewDeltaFallbackReason
  sourceOverride : Option (Bytes × Bytes)
  deriving DecidableEq, Repr

structure ReviewDeltaUnresolvedChange where
  path : String
  pathEncoding : PathEncoding
  reason : ReviewDeltaUnresolvedReason
  deriving DecidableEq, Repr

structure ReviewDeltaSummary where
  displayableFiles : Nat
  unresolvedRetiredChanges : Nat
  needsReviewFiles : Nat
  gatePassed : Bool
  deriving DecidableEq, Repr

structure ReviewDelta where
  schema : String
  engineVersion : String
  comparison : ReviewDeltaComparison
  oldBaseCommit : String
  checkpointCommit : String
  currentBaseCommit : String
  headCommit : String
  summary : ReviewDeltaSummary
  entries : List ReviewDeltaFile
  unresolvedRetiredChanges : List ReviewDeltaUnresolvedChange
  deriving DecidableEq, Repr

def reviewDeltaSchema : String :=
  "https://raw.githubusercontent.com/gcomfident-crypto/stratadiff/main/schema/" ++
    "review-delta-v1.schema.json"

def summarizeReviewDelta (entries : List ReviewDeltaFile)
    (unresolved : List ReviewDeltaUnresolvedChange) : ReviewDeltaSummary :=
  ⟨entries.length, unresolved.length, entries.length + unresolved.length,
    entries.length + unresolved.length = 0⟩

/-! ## Validation -/

/-- `is_blake3`: 64 lowercase hexadecimal digits. -/
def isBlake3 (value : String) : Bool :=
  value.toList.length = 64 && value.toList.all fun c => c.isDigit || ('a' ≤ c ∧ c ≤ 'f')

def validateReviewDeltaGitSource (source : ReviewDeltaSource) (expectedCommit : String)
    (expectedObjectId : Option String) (expectedByteLen : Option Nat) : Result Unit :=
  match source with
  | .gitObject commit objectId byteLen => do
      Result.ensure (isObjectId objectId) (.invalid "review delta source has an invalid object id")
      Result.ensure (commit = expectedCommit ∧ some objectId = expectedObjectId ∧
        byteLen = expectedByteLen) (.invalid "review delta Git source metadata is inconsistent")
  | .empty => .ensure (expectedObjectId = none ∧ expectedByteLen = none)
      (.invalid "empty review delta source contradicts file metadata")
  | .reconstructedBytes _ _ => .error (.invalid "unexpected reconstructed Git source")

def validateReconstruction (entry : ReviewDeltaFile) : Result Unit := do
  let reconstruction ← Result.ofOption
    (.invalid "reconstructed review delta has no reconstruction evidence")
    entry.baselineReconstruction
  Result.ensure (entry.fallbackReason = none)
    (.invalid "reconstructed review delta unexpectedly records a fallback")
  Result.ensure (reconstruction.algorithm = "bidirectional_noninteracting_byte_replay_v1")
    (.invalid "unsupported review baseline reconstruction algorithm")
  Result.ensure (reconstruction.reviewedOnCurrentBaseBlake3 =
      reconstruction.upstreamOnCheckpointBlake3 ∧
      reconstruction.reconstructedBlake3 = reconstruction.reviewedOnCurrentBaseBlake3)
    (.invalid "review baseline replay orders disagree")
  Result.ensure ([reconstruction.oldBaseBlob, reconstruction.reviewedBlob,
      reconstruction.currentBaseBlob].all isObjectId)
    (.invalid "review baseline reconstruction contains an invalid object id")
  Result.ensure ([reconstruction.reviewedOnCurrentBaseBlake3,
      reconstruction.upstreamOnCheckpointBlake3, reconstruction.reconstructedBlake3].all isBlake3)
    (.invalid "review baseline reconstruction contains an invalid digest")
  match entry.beforeSource with
  | .reconstructedBytes blake3 byteLen =>
      Result.ensure (isBlake3 blake3 ∧ blake3 = reconstruction.reconstructedBlake3 ∧
          byteLen = reconstruction.byteLen ∧ entry.file.beforeBytes = some byteLen ∧
          entry.file.beforeBlob = none)
        (.invalid "reconstructed review baseline metadata is inconsistent")
  | _ => .error (.invalid "reconstructed review delta has the wrong before source")

def validateReviewDeltaEntry (delta : ReviewDelta) (entry : ReviewDeltaFile) : Result Unit := do
  let expectedBeforeCommit := match entry.baselineBasis with
    | .checkpointSnapshot | .checkpointHeadFallback => delta.checkpointCommit
    | _ => delta.currentBaseCommit
  match entry.baselineBasis with
  | .reconstructedReviewBaseline => validateReconstruction entry
  | .currentBaseFallback | .checkpointHeadFallback => do
      Result.ensure (entry.fallbackReason ≠ none) (.invalid "review delta fallback has no reason")
      Result.ensure (entry.baselineReconstruction = none)
        (.invalid "review delta fallback unexpectedly has reconstruction evidence")
      validateReviewDeltaGitSource entry.beforeSource expectedBeforeCommit entry.file.beforeBlob
        entry.file.beforeBytes
  | .checkpointSnapshot | .currentBaseNoCheckpointChange => do
      Result.ensure (entry.fallbackReason = none ∧ entry.baselineReconstruction = none)
        (.invalid "exact review delta entry contains fallback evidence")
      validateReviewDeltaGitSource entry.beforeSource expectedBeforeCommit entry.file.beforeBlob
        entry.file.beforeBytes
  validateReviewDeltaGitSource entry.afterSource delta.headCommit entry.file.afterBlob
    entry.file.afterBytes

def validateUnresolved : List String → List ReviewDeltaUnresolvedChange → Result Unit
  | _, [] => .ok ()
  | seen, change :: changes => do
      Result.ensure (change.reason ≠ .nonUtf8GitPath ∨
          change.pathEncoding = .gitBytesPercentEncoded)
        (.invalid "non-UTF-8 unresolved change has the wrong path encoding")
      Result.ensure (change.path ≠ "" ∧ change.path ∉ seen)
        (.invalid "review delta contains an empty or duplicate unresolved path")
      validateUnresolved (change.path :: seen) changes

/-- `ReviewDelta::validate`. -/
def ReviewDelta.validate (delta : ReviewDelta) : Result Unit := do
  Result.ensure (delta.schema = reviewDeltaSchema) (.invalid "unsupported review delta schema")
  Result.ensure (delta.engineVersion ≠ "") (.invalid "review delta engine version is empty")
  Result.ensure ([delta.oldBaseCommit, delta.checkpointCommit, delta.currentBaseCommit,
    delta.headCommit].all isObjectId) (.invalid "review delta contains an invalid commit id")
  Result.ensure (delta.summary.displayableFiles = delta.entries.length)
    (.invalid "review delta displayable file count is inconsistent")
  Result.ensure
    (delta.summary.unresolvedRetiredChanges = delta.unresolvedRetiredChanges.length)
    (.invalid "review delta unresolved retired change count is inconsistent")
  let needsReviewFiles := delta.entries.length + delta.unresolvedRetiredChanges.length
  Result.ensure (delta.summary.needsReviewFiles = needsReviewFiles)
    (.invalid "review delta queue total is inconsistent")
  Result.ensure (delta.summary.gatePassed = decide (needsReviewFiles = 0))
    (.invalid "review delta gate state is inconsistent")
  Result.ensure (delta.comparison ≠ .checkpointToHead ∨
      delta.oldBaseCommit = delta.currentBaseCommit)
    (.invalid "checkpoint-to-head delta has inconsistent merge bases")
  delta.entries.forM (validateReviewDeltaEntry delta)
  validateUnresolved [] delta.unresolvedRetiredChanges

/-! ## Entries -/

def reviewDeltaGitSource (commit : String) (objectId : Option String) (byteLen : Option Nat) :
    Result ReviewDeltaSource :=
  match objectId with
  | some objectId => do
      Result.ensure (isObjectId objectId) (.invalid "review delta source has an invalid object id")
      return .gitObject commit objectId byteLen
  | none => do
      Result.ensure (byteLen = none)
        (.invalid "empty review delta source has an unexpected byte length")
      return .empty

def reviewDeltaGitEntry (file : ReviewFile) (baselineBasis : ReviewDeltaBaselineBasis)
    (beforeCommit afterCommit : String) (fallbackReason : Option ReviewDeltaFallbackReason) :
    Result ReviewDeltaFile := do
  let beforeSource ← reviewDeltaGitSource beforeCommit file.beforeBlob file.beforeBytes
  let afterSource ← reviewDeltaGitSource afterCommit file.afterBlob file.afterBytes
  return ⟨file, baselineBasis, beforeSource, afterSource, none, fallbackReason, none⟩

section

variable (engine : Engine) (limits : VerificationLimits)

def unavailableReconstruction (reason : String) : FileVerdict :=
  unverified ("review delta uses a reconstructed baseline" ++ reason)

/-- Both sides of a reconstructed entry have the path of the current change, so there is
one language to detect. -/
def analyzeMaterializedReviewDelta (path : GitPath) (before after : Bytes) :
    Result FileVerdict := do
  Result.ensure (before.length ≤ limits.maxSourceBytes ∧ after.length ≤ limits.maxSourceBytes)
    (.limit "reconstructed review delta exceeds the per-file source limit")
  if path.encoding ≠ .utf8 then
    return unavailableReconstruction ", but the Git path is not UTF-8"
  else
    match engine.detectLanguage path.display with
    | .error error =>
        return unavailableReconstruction s!"; before path has no supported parser: {error}"
    | .ok language => return ⟨some language,
        engine.analyzeReconstructed path.display path.display language before after⟩

def reconstructedDeltaEntry (currentFile : ReviewFile) (currentChange : GitChange)
    (reconstruction : ReconstructedReviewBaseline) (headCommit : String)
    (retainSourceOverride : Bool) : Result ReviewDeltaFile := do
  let path ← Result.ofOption
    (.invalid "reconstructed review delta is missing its current path") currentChange.afterPath
  let afterBlob ← Result.ofOption
    (.invalid "reconstructed review delta is missing its head blob") currentChange.afterBlob
  let afterMode ← Result.ofOption
    (.invalid "reconstructed review delta is missing its head mode") currentChange.afterMode
  let beforeMode ← Result.ofOption
    (.invalid "reconstructed review delta is missing its baseline mode") currentChange.beforeMode
  let baseline := reconstruction.baseline
  let currentAfter := reconstruction.currentAfter
  let verdict ← analyzeMaterializedReviewDelta engine limits path baseline currentAfter
  let file : ReviewFile :=
    { status := .modified
      similarityPercent := none
      beforePath := some path.display
      beforePathEncoding := some path.encoding
      afterPath := some path.display
      afterPathEncoding := some path.encoding
      beforeMode := some beforeMode
      afterMode := some afterMode
      beforeBlob := none
      afterBlob := some afterBlob
      beforeBytes := some baseline.length
      afterBytes := some currentAfter.length
      lineChangeEnvelope := lineChanges baseline currentAfter
      language := verdict.language
      priority := verdict.analysis.priority
      lane := verdict.analysis.lane
      checkpointState := some .needsReviewNow
      checkpointMatchBasis := none
      reason := verdict.analysis.reason }
  Result.ensure (currentFile.checkpointState ≠ some .unchangedSinceCheckpoint)
    (.invalid "reconstructed review delta was created for a carried current change")
  Result.ensure (engine.blake3 baseline = reconstruction.evidence.reconstructedBlake3)
    (.invalid "reconstructed review baseline digest changed")
  return ⟨file, .reconstructedReviewBaseline,
    .reconstructedBytes (engine.blake3 baseline) baseline.length,
    .gitObject headCommit afterBlob (some currentAfter.length), some reconstruction.evidence, none,
    if retainSourceOverride then some (baseline, currentAfter) else none⟩

end

/-! ## Tree entries -/

/-- `git_output_bounded`. -/
def gitOutputBounded (output : Except String Bytes) (maxStdoutBytes : Nat) : Result Bytes :=
  match output with
  | .error error => .error (.invalid error)
  | .ok stdout => do
      Result.ensure (stdout.length ≤ maxStdoutBytes)
        (.invalid s!"git raw diff exceeds the {maxStdoutBytes} byte metadata limit")
      return stdout

/-- The entry in what `git ls-tree` lists for a path. -/
def parseTreeEntry (path : GitPath) (stdout : Bytes) : Result (Option GitTreeEntry) :=
  if stdout = [] then .ok none
  else do
    let record ← Result.ofOption
      (.invalid "git ls-tree record is missing its NUL terminator")
      (if stdout.getLast? = some 0 then some stdout.dropLast else none)
    Result.ensure (0 ∉ record)
      (.invalid "git ls-tree returned multiple entries for one file path")
    let tab ← Result.ofOption (.invalid "git ls-tree record is missing its path separator")
      (record.idxOf? 9)
    let metadata ← Result.ofOption (.invalid "git ls-tree metadata is not valid UTF-8")
      (utf8? (record.take tab))
    match asciiWords metadata with
    | [mode, objectType, objectId] => do
        Result.ensure (record.drop (tab + 1) = utf8Bytes path.display)
          (.invalid "git ls-tree returned an unexpected path")
        Result.ensure (objectType = "blob" ∨ objectType = "commit")
          (.invalid "git ls-tree returned an unsupported object type")
        Result.ensure (isObjectId objectId) (.invalid "git ls-tree returned an invalid object id")
        return some ⟨mode, objectId⟩
    | _ => .error (.invalid "unexpected git ls-tree metadata")

/-- `load_tree_entry`. The path is given to Git as a pathspec, without `--literal-pathspecs`. -/
def loadTreeEntry (repository : Repository) (commit : String) (path : GitPath) :
    Result (Option GitTreeEntry) :=
  if path.encoding ≠ .utf8 then .ok none
  else do
    let stdout ← gitOutputBounded (repository.lsTree commit (utf8Bytes path.display))
      (saturatingAdd (utf8Bytes path.display).length 512)
    parseTreeEntry path stdout

/-- The change of a reviewed path between the current base and head, when both have it. -/
def samePathSnapshotChange (repository : Repository) (currentBaseCommit headCommit : String)
    (checkpoint : GitChange) : Result (Option GitChange) :=
  if checkpoint.status ≠ .modified then .ok none
  else
    match checkpoint.beforePath with
    | none => .ok none
    | some path =>
        if checkpoint.afterPath ≠ some path ∨ path.encoding ≠ .utf8 then .ok none
        else do
          match ← loadTreeEntry repository currentBaseCommit path with
          | none => return none
          | some before =>
              match ← loadTreeEntry repository headCommit path with
              | none => return none
              | some after =>
                  return some ⟨if before.mode = after.mode then .modified else .typeChanged, none,
                    some path, some path, some before.mode, some after.mode,
                    some before.objectId, some after.objectId⟩

def fallbackReasonText : String :=
  "; the reviewed change no longer has a current PR identity and could not be rebased exactly, " ++
    "so this conservative checkpoint-to-head fallback may include upstream edits"

/-- The change of one path between the checkpoint and the head, when it differs. -/
def fallbackChange (path : GitPath) (checkpointEntry headEntry : Option GitTreeEntry) :
    GitChange where
  status := match checkpointEntry, headEntry with
    | none, _ => .added
    | some _, none => .deleted
    | some before, some after => if before.mode = after.mode then .modified else .typeChanged
  similarityPercent := none
  beforePath := checkpointEntry.map fun _ => path
  afterPath := headEntry.map fun _ => path
  beforeMode := checkpointEntry.map GitTreeEntry.mode
  afterMode := headEntry.map GitTreeEntry.mode
  beforeBlob := checkpointEntry.map GitTreeEntry.objectId
  afterBlob := headEntry.map GitTreeEntry.objectId

structure CheckpointHeadFallback where
  entries : List ReviewDeltaFile
  unresolved : List ReviewDeltaUnresolvedChange

section

variable (engine : Engine) (limits : VerificationLimits)

/-- The loop of `checkpoint_head_fallback_entries`. -/
def fallbackEntries (checkpointCommit headCommit : String) :
    List GitPath → CheckpointHeadFallback → Review CheckpointHeadFallback
  | [], fallback => return fallback
  | path :: paths, fallback =>
      if path.encoding ≠ .utf8 then
        fallbackEntries checkpointCommit headCommit paths { fallback with
          unresolved := fallback.unresolved ++ [⟨path.display, path.encoding, .nonUtf8GitPath⟩] }
      else do
        let checkpointEntry ← lift (loadTreeEntry engine.repository checkpointCommit path)
        let headEntry ← lift (loadTreeEntry engine.repository headCommit path)
        if checkpointEntry = headEntry then
          fallbackEntries checkpointCommit headCommit paths fallback
        else do
          let change := fallbackChange path checkpointEntry headEntry
          reserveSources engine.repository limits [change]
          let file ← analyzeChange engine limits change
          let file := { file with
            checkpointState := some .needsReviewNow
            reason := file.reason ++ fallbackReasonText }
          let entry ← lift (reviewDeltaGitEntry file .checkpointHeadFallback checkpointCommit
            headCommit (some .unsupportedChange))
          fallbackEntries checkpointCommit headCommit paths { fallback with
            entries := fallback.entries ++ [entry] }

def checkpointHeadFallbackEntries (paths : List GitPath) (checkpointCommit headCommit : String) :
    Review CheckpointHeadFallback := do
  lift (.ensure (paths ≠ []) (.invalid "checkpoint fallback has no unassociated path"))
  consumeFileVisits paths.length
  fallbackEntries engine limits checkpointCommit headCommit paths ⟨[], []⟩

end

end Stratadiff
