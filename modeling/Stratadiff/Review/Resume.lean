import Stratadiff.Review.Delta

/-!
# Resuming a review

`review_git_resume_delta_with_analysis`: what a reviewer who has seen a checkpoint
still has to look at. With an unmoved base this is the diff from the checkpoint to
the head. When the base has moved, every current change is carried, replayed or
listed, and every checkpoint change whose paths were not accounted for on the way
is replayed on the current snapshot of its path or compared entry by entry.
-/

namespace Stratadiff

open Run

def checkpointChangePaths (change : GitChange) : List GitPath :=
  match change.beforePath, change.afterPath with
  | some before, some after => if before = after then [before] else [before, after]
  | some before, none => [before]
  | none, some after => [after]
  | none, none => []

/-- The paths of a checkpoint change, tagged with its index. -/
def allCheckpointPaths (index : Nat) (change : GitChange) : List (Nat × GitPath) :=
  (checkpointChangePaths change).map fun path => (index, path)

def relatedCheckpointPaths (checkpointChanges : List GitChange) (current : GitChange) :
    List (Nat × GitPath) :=
  checkpointChanges.zipIdx.flatMap fun entry =>
    ((checkpointChangePaths entry.1).filter fun path =>
      some path = current.beforePath ∨ some path = current.afterPath).map
        fun path => (entry.2, path)

def reviewFileForChange (review : RepositoryReview) (change : GitChange) : Result ReviewFile :=
  match review.files.filter fun file => reviewFileMatchesChange file change with
  | [] => .error (.invalid "current Git change is missing from the repository review")
  | [file] => .ok file
  | _ :: _ :: _ =>
      .error (.invalid "current Git change matches multiple repository review files")

/-- What the loops of the resume delta accumulate. -/
structure ResumeState where
  associated : List (Nat × GitPath)
  entries : List ReviewDeltaFile
  unresolved : List ReviewDeltaUnresolvedChange

def ResumeState.associate (state : ResumeState) (paths : List (Nat × GitPath)) : ResumeState :=
  { state with associated := state.associated ++ paths }

def ResumeState.push (state : ResumeState) (entry : ReviewDeltaFile) : ResumeState :=
  { state with entries := state.entries ++ [entry] }

def reviewDeltaFileBefore (left right : ReviewDeltaFile) : Bool :=
  (compare (priorityRank left.file.priority) (priorityRank right.file.priority)
    |>.then (compare (laneRank left.file.lane) (laneRank right.file.lane))
    |>.then (compare left.file.displayPath right.file.displayPath)).isLE

section

variable (engine : Engine) (limits : VerificationLimits)

def reviewFiles : List GitChange → List ReviewFile → Review (List ReviewFile)
  | [], files => return files
  | change :: changes, files => do
      let file ← analyzeChange engine limits change
      reviewFiles changes (files ++ [file])

def snapshotFileBefore (left right : ReviewFile) : Bool :=
  (compare (priorityRank left.priority) (priorityRank right.priority)
    |>.then (compare (laneRank left.lane) (laneRank right.lane))
    |>.then (compare left.displayPath right.displayPath)).isLE

/-- `review_git_snapshot_delta_with_analysis` on resolved commits. -/
def reviewGitSnapshotDelta (fromCommit toCommit : String) : Review ReviewDelta := do
  let changes ← discoverChanges engine.repository fromCommit toCommit
  let limits := VerificationLimits.default
  consumeFileVisits changes.length
  reserveSources engine.repository limits changes
  let files ← reviewFiles engine limits changes []
  let entries ← lift ((files.insertionSort fun left right => snapshotFileBefore left right).mapM
    fun file => reviewDeltaGitEntry file .checkpointSnapshot fromCommit toCommit none)
  let delta : ReviewDelta := ⟨reviewDeltaSchema, "0.5.0", .checkpointToHead, fromCommit, fromCommit,
    fromCommit, toCommit, summarizeReviewDelta entries [], entries, []⟩
  lift delta.validate
  return delta

/-- One round of the loop over the current changes. -/
def resumeCurrentChange (review : RepositoryReview) (checkpointChanges : List GitChange)
    (current : GitChange) (state : ResumeState) : Review ResumeState := do
  let file ← lift (reviewFileForChange review current)
  let state := state.associate ((exactIndices checkpointChanges current).flatMap fun index =>
    (checkpointChanges[index]?.map (allCheckpointPaths index)).getD [])
  if file.checkpointState = some .unchangedSinceCheckpoint then
    match uniqueReplayCandidate checkpointChanges current with
    | some (index, checkpointChange) =>
        return state.associate (allCheckpointPaths index checkpointChange)
    | none => return state
  else
    match uniqueReplayCandidate checkpointChanges current with
    | some (index, checkpointChange) => do
        let state := state.associate (allCheckpointPaths index checkpointChange)
        match ← contextReconstructReviewBaseline engine limits checkpointChange current with
        | .reconstructed reconstruction =>
            if reconstruction.baseline ≠ reconstruction.currentAfter then do
              let context ← get
              let entry ← lift (reconstructedDeltaEntry engine limits file current reconstruction
                review.headCommit context.retainSourceOverrides)
              return state.push entry
            else return state
        | .unavailable reason => do
            let entry ← lift (reviewDeltaGitEntry file .currentBaseFallback review.baseCommit
              review.headCommit (some reason))
            return state.push entry
    | none =>
        match relatedCheckpointPaths checkpointChanges current with
        | [] => do
            let entry ← lift (reviewDeltaGitEntry file .currentBaseNoCheckpointChange
              review.baseCommit review.headCommit none)
            return state.push entry
        | related => do
            let entry ← lift (reviewDeltaGitEntry file .currentBaseFallback review.baseCommit
              review.headCommit (some .unsupportedChange))
            return (state.associate related).push entry

def resumeCurrentChanges (review : RepositoryReview) (checkpointChanges : List GitChange) :
    List GitChange → ResumeState → Review ResumeState
  | [], state => return state
  | current :: currents, state => do
      let state ← resumeCurrentChange engine limits review checkpointChanges current state
      resumeCurrentChanges review checkpointChanges currents state

/-- The entries of the unassociated paths of a checkpoint change. -/
def resumeFallback (review : RepositoryReview) (checkpointCommit : String) (paths : List GitPath)
    (state : ResumeState) : Review ResumeState := do
  let fallback ← checkpointHeadFallbackEntries engine limits paths checkpointCommit
    review.headCommit
  return { state with
    entries := state.entries ++ fallback.entries
    unresolved := state.unresolved ++ fallback.unresolved }

/-- One round of the loop over the checkpoint changes. -/
def resumeCheckpointChange (review : RepositoryReview) (checkpointCommit : String) (index : Nat)
    (checkpointChange : GitChange) (state : ResumeState) : Review ResumeState := do
  let unassociated := (checkpointChangePaths checkpointChange).filter fun path =>
    ¬ state.associated.contains (index, path)
  if unassociated = [] then return state
  else do
    consumeFileVisits 1
    match ← lift (samePathSnapshotChange engine.repository review.baseCommit review.headCommit
        checkpointChange) with
    | none => resumeFallback engine limits review checkpointCommit unassociated state
    | some currentSnapshot => do
        reserveSources engine.repository limits [currentSnapshot]
        match ← contextReconstructReviewBaseline engine limits checkpointChange
            currentSnapshot with
        | .reconstructed reconstruction =>
            if reconstruction.baseline ≠ reconstruction.currentAfter then do
              let file ← analyzeChange engine limits currentSnapshot
              let context ← get
              let entry ← lift (reconstructedDeltaEntry engine limits file currentSnapshot
                reconstruction review.headCommit context.retainSourceOverrides)
              return state.push entry
            else return state
        | .unavailable _ => resumeFallback engine limits review checkpointCommit unassociated state

def resumeCheckpointChanges (review : RepositoryReview) (checkpointCommit : String) :
    List (GitChange × Nat) → ResumeState → Review ResumeState
  | [], state => return state
  | (checkpointChange, index) :: rest, state => do
      let state ← resumeCheckpointChange engine limits review checkpointCommit index
        checkpointChange state
      resumeCheckpointChanges review checkpointCommit rest state

/-- Remove runs of equal items. -/
def dedupRuns : List ReviewDeltaUnresolvedChange → List ReviewDeltaUnresolvedChange
  | [] => []
  | [change] => [change]
  | first :: second :: rest =>
      if first = second then dedupRuns (second :: rest) else first :: dedupRuns (second :: rest)

def reviewGitResumeDelta (review : RepositoryReview) : Review ReviewDelta := do
  let checkpoint ← lift (.ofOption (.invalid "review residue requires a checkpoint")
    review.checkpoint)
  if checkpoint.baseCommit = review.baseCommit then do
    let delta ← reviewGitSnapshotDelta engine checkpoint.commit review.headCommit
    let delta := { delta with
      oldBaseCommit := checkpoint.baseCommit
      currentBaseCommit := review.baseCommit }
    lift delta.validate
    return delta
  else do
    let checkpointChanges ← discoverChanges engine.repository checkpoint.baseCommit
      checkpoint.commit
    let currentChanges ← discoverChanges engine.repository review.baseCommit review.headCommit
    let limits := VerificationLimits.default
    consumeFileVisits checkpointChanges.length
    consumeFileVisits currentChanges.length
    reserveSources engine.repository limits (checkpointChanges ++ currentChanges)
    let state ← resumeCurrentChanges engine limits review checkpointChanges currentChanges
      ⟨[], [], []⟩
    let state ← resumeCheckpointChanges engine limits review checkpoint.commit
      checkpointChanges.zipIdx state
    let entries := state.entries.insertionSort fun left right => reviewDeltaFileBefore left right
    let unresolved := dedupRuns (state.unresolved.insertionSort
      fun left right => left.path ≤ right.path)
    let delta : ReviewDelta := ⟨reviewDeltaSchema, "0.5.0", .perFileReviewBaselineToHead,
      checkpoint.baseCommit, checkpoint.commit, review.baseCommit, review.headCommit,
      summarizeReviewDelta entries unresolved, entries, unresolved⟩
    lift delta.validate
    return delta

end

end Stratadiff
