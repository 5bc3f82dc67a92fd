import Stratadiff.Review.Analyze

/-!
# Reviewing a range against a checkpoint

`review_git_range_with_resolved_bases`. Every current change is compared with the
changes of the checkpoint: it is carried when it is one of them, or when the base
has moved and the only candidate replays onto the new base with exactly the bytes
of the new head.
-/

namespace Stratadiff

open Run

def checkpointStateRank : Option CheckpointState → Nat
  | none => 0
  | some .needsReviewNow => 0
  | some .unchangedSinceCheckpoint => 1

def priorityRank : ReviewPriority → Nat
  | .reviewFirst => 0
  | .evidenceFollowUp => 1

def laneRank : ReviewLane → Nat
  | .unverified => 0
  | .reviewFirst => 1
  | .contentPreserved => 2
  | .syntaxPreserved => 3

def reviewFileBefore (left right : ReviewFile) : Bool :=
  (compare (checkpointStateRank left.checkpointState) (checkpointStateRank right.checkpointState)
    |>.then (compare (priorityRank left.priority) (priorityRank right.priority))
    |>.then (compare (laneRank left.lane) (laneRank right.lane))
    |>.then (compare left.displayPath right.displayPath)).isLE

/-- The indices of the checkpoint changes with exactly this identity. -/
def exactIndices (checkpointChanges : List GitChange) (change : GitChange) : List Nat :=
  (checkpointChanges.zipIdx.filter fun entry => entry.1 = change).map Prod.snd

/-- How a current change stands to the checkpoint, and the checkpoint changes used up. -/
structure CheckpointMatch where
  state : CheckpointState
  basis : Option CheckpointCarryBasis
  matchedIndices : List Nat

def replayCarryReason : String :=
  "; checkpoint carry-forward was proven by exact non-interacting four-way byte replay across " ++
    "the base change"

section

variable (engine : Engine) (limits : VerificationLimits)

def matchCheckpoint (checkpointChanges : List GitChange) (baseChanged : Bool) (change : GitChange)
    (matchedIndices : List Nat) : Review CheckpointMatch :=
  match exactIndices checkpointChanges change with
  | index :: indices =>
      return ⟨.unchangedSinceCheckpoint, some .exactGitChangeIdentity,
        index :: indices ++ matchedIndices⟩
  | [] =>
      if baseChanged then
        match uniqueReplayCandidate checkpointChanges change with
        | none => return ⟨.needsReviewNow, none, matchedIndices⟩
        | some (index, checkpointChange) =>
            if matchedIndices.contains index then
              return ⟨.needsReviewNow, none, matchedIndices⟩
            else do
              match ← observe
                  (independentFourWayReplayMatches engine limits checkpointChange change) with
              | .ok true => return ⟨.unchangedSinceCheckpoint,
                  some .exactNoninteractingFourWayByteReplay, index :: matchedIndices⟩
              | .ok false => return ⟨.needsReviewNow, none, matchedIndices⟩
              | .error (.budget message) => lift (.error (.budget message))
              -- Any other failure of a replay only means that nothing is carried.
              | .error _ => return ⟨.needsReviewNow, none, matchedIndices⟩
      else return ⟨.needsReviewNow, none, matchedIndices⟩

/-- One round of the loop over the current changes. -/
def reviewChange (checkpointChanges : Option (List GitChange)) (baseChanged : Bool)
    (change : GitChange) (matchedIndices : List Nat) : Review (ReviewFile × List Nat) :=
  match checkpointChanges with
  | none => do
      let file ← analyzeChange engine limits change
      return ({ file with checkpointState := none, checkpointMatchBasis := none }, matchedIndices)
  | some checkpointChanges => do
      let found ← matchCheckpoint engine limits checkpointChanges baseChanged change matchedIndices
      let file ← analyzeChange engine limits change
      let reason :=
        if found.basis = some .exactNoninteractingFourWayByteReplay then
          file.reason ++ replayCarryReason
        else file.reason
      return ({ file with
        checkpointState := some found.state
        checkpointMatchBasis := found.basis
        reason }, found.matchedIndices)

def reviewChanges (checkpointChanges : Option (List GitChange)) (baseChanged : Bool) :
    List GitChange → List Nat → List ReviewFile → Review (List ReviewFile)
  | [], _, files => return files
  | change :: changes, matchedIndices, files => do
      let (file, matchedIndices) ← reviewChange engine limits checkpointChanges baseChanged change
        matchedIndices
      reviewChanges checkpointChanges baseChanged changes matchedIndices (files ++ [file])

def discoverCheckpointChanges (checkpoint : Option ReviewCheckpoint) :
    Review (Option (List GitChange)) :=
  match checkpoint with
  | none => return none
  | some checkpoint => do
      return some (← discoverChanges engine.repository checkpoint.baseCommit checkpoint.commit)

def reviewGitRangeWithResolvedBases (headCommit baseCommit : String)
    (checkpoint : Option ReviewCheckpoint) : Review RepositoryReview := do
  let checkpointChanges ← discoverCheckpointChanges engine checkpoint
  let changes ← discoverChanges engine.repository baseCommit headCommit
  let baseChanged := checkpoint.any fun checkpoint => checkpoint.baseCommit ≠ baseCommit
  let limits := VerificationLimits.default
  consumeFileVisits changes.length
  consumeFileVisits (checkpointChanges.getD []).length
  reserveSources engine.repository limits (changes ++ checkpointChanges.getD [])
  let files ← reviewChanges engine limits checkpointChanges baseChanged changes [] []
  return ⟨baseCommit, headCommit, checkpoint,
    files.insertionSort fun left right => reviewFileBefore left right⟩

end

/-! ## What a carried file means -/

/-- A current change that is one of the checkpoint's, or is replayed from its only
candidate with the bytes of the current head. -/
def Carried (engine : Engine) (checkpointChanges : List GitChange) (change : GitChange) : Prop :=
  change ∈ checkpointChanges ∨ ∃ index checkpointChange bytes,
    uniqueReplayCandidate checkpointChanges change = some (index, checkpointChange) ∧
      FourWayReplay engine checkpointChange change bytes bytes

/-- Every file that a review reports as unchanged stands for a carried change. -/
def RepositoryReview.CarriesOnly (engine : Engine) (review : RepositoryReview) : Prop :=
  ∀ checkpoint, review.checkpoint = some checkpoint →
    ∃ checkpointChanges,
      Discovered engine.repository checkpoint.baseCommit checkpoint.commit checkpointChanges ∧
      ∀ file ∈ review.files, file.checkpointState = some .unchangedSinceCheckpoint →
        ∃ change, file.Describes change ∧ Carried engine checkpointChanges change

section

variable {engine : Engine} {limits : VerificationLimits}

theorem exactIndices_mem {checkpointChanges : List GitChange} {change : GitChange} {index : Nat}
    (h : index ∈ exactIndices checkpointChanges change) :
    checkpointChanges[index]? = some change := by
  simp only [exactIndices, List.mem_map, List.mem_filter, decide_eq_true_eq] at h
  obtain ⟨⟨found, position⟩, ⟨member, rfl⟩, rfl⟩ := h
  exact List.mem_zipIdx_iff_getElem?.mp member

theorem matchCheckpoint_keeps (checkpointChanges : List GitChange) (baseChanged : Bool)
    (change : GitChange) (matchedIndices : List Nat) :
    Keeps (ReviewAnalysisContext.Faithful engine.repository)
      (matchCheckpoint engine limits checkpointChanges baseChanged change matchedIndices)
      fun found => found.state = .unchangedSinceCheckpoint →
        Carried engine checkpointChanges change := by
  rw [matchCheckpoint]
  split
  · next index indices exact =>
    refine .pure fun _ => .inl ?_
    have first : index ∈ exactIndices checkpointChanges change := by
      rw [exact]
      simp
    exact List.mem_of_getElem? (exactIndices_mem first)
  split
  · split
    · exact .pure nofun
    next index checkpointChange candidate =>
    split
    · exact .pure nofun
    refine .bind (.observe (independentFourWayReplayMatches_keeps _ _)) fun result replayed => ?_
    split
    · obtain ⟨bytes, replay⟩ := replayed _ rfl rfl
      exact .pure fun _ => .inr ⟨index, checkpointChange, bytes, candidate, replay⟩
    · exact .pure nofun
    · exact .lift nofun
    · exact .pure nofun
  · exact .pure nofun

theorem reviewChange_keeps (checkpointChanges : Option (List GitChange)) (baseChanged : Bool)
    (change : GitChange) (matchedIndices : List Nat) :
    Keeps (ReviewAnalysisContext.Faithful engine.repository)
      (reviewChange engine limits checkpointChanges baseChanged change matchedIndices)
      fun result => result.1.Describes change ∧ ∀ changes, checkpointChanges = some changes →
        result.1.checkpointState = some .unchangedSinceCheckpoint →
          Carried engine changes change := by
  cases checkpointChanges with
  | none => exact .bind (analyzeChange_keeps _) fun file described => .pure ⟨described, nofun⟩
  | some checkpointChanges =>
      refine .bind (matchCheckpoint_keeps _ _ _ _) fun found carried =>
        .bind (analyzeChange_keeps _) fun file described => .pure ⟨described, ?_⟩
      intro changes same state
      cases same
      exact carried (Option.some.inj state)

/-- Files that are reported as unchanged only for carried changes. -/
def CarriedFiles (engine : Engine) (checkpointChanges : Option (List GitChange))
    (files : List ReviewFile) : Prop :=
  ∀ changes, checkpointChanges = some changes → ∀ file ∈ files,
    file.checkpointState = some .unchangedSinceCheckpoint →
      ∃ change, file.Describes change ∧ Carried engine changes change

theorem reviewChanges_keeps (checkpointChanges : Option (List GitChange)) (baseChanged : Bool)
    (changes : List GitChange) (matchedIndices : List Nat) (files : List ReviewFile)
    (sound : CarriedFiles engine checkpointChanges files) :
    Keeps (ReviewAnalysisContext.Faithful engine.repository)
      (reviewChanges engine limits checkpointChanges baseChanged changes matchedIndices files)
      (CarriedFiles engine checkpointChanges) := by
  induction changes generalizing matchedIndices files with
  | nil => exact .pure sound
  | cons change changes ih =>
      refine .bind (reviewChange_keeps _ _ _ _) fun result reviewed => ih _ _ ?_
      intro found same file member state
      rcases List.mem_append.mp member with old | new
      · exact sound found same file old state
      · rw [List.mem_singleton.mp new] at state ⊢
        exact ⟨change, reviewed.1, reviewed.2 found same state⟩

theorem discoverCheckpointChanges_keeps (checkpoint : Option ReviewCheckpoint) :
    Keeps (ReviewAnalysisContext.Faithful engine.repository)
      (discoverCheckpointChanges engine checkpoint)
      fun found => ∀ reached, checkpoint = some reached → ∃ changes, found = some changes ∧
        Discovered engine.repository reached.baseCommit reached.commit changes := by
  cases checkpoint with
  | none => exact .pure nofun
  | some checkpoint =>
      refine .bind (discoverChanges_keeps _ _) fun changes discovered => .pure ?_
      intro reached same
      cases same
      exact ⟨changes, rfl, discovered⟩

theorem reviewGitRangeWithResolvedBases_keeps (headCommit baseCommit : String)
    (checkpoint : Option ReviewCheckpoint) :
    Keeps (ReviewAnalysisContext.Faithful engine.repository)
      (reviewGitRangeWithResolvedBases engine headCommit baseCommit checkpoint)
      fun review => review.baseCommit = baseCommit ∧ review.headCommit = headCommit ∧
        review.checkpoint = checkpoint ∧ review.CarriesOnly engine := by
  rw [reviewGitRangeWithResolvedBases]
  refine .bind (discoverCheckpointChanges_keeps _) fun found discovered => ?_
  refine .bind (discoverChanges_keeps _ _) fun changes _ => ?_
  refine .bind (consumeFileVisits_keeps _) fun _ _ => .bind (consumeFileVisits_keeps _) fun _ _ =>
    ?_
  refine .bind (reserveSources_keeps _) fun _ _ => ?_
  have start : CarriedFiles engine found [] := fun _ _ _ member => absurd member (List.not_mem_nil)
  refine .bind (reviewChanges_keeps _ _ _ _ _ start) fun files sound => ?_
  refine .pure ⟨rfl, rfl, rfl, ?_⟩
  intro reached same
  obtain ⟨changes, rfl, listed⟩ := discovered reached same
  refine ⟨changes, listed, fun file member state => ?_⟩
  exact sound changes rfl file ((List.mem_insertionSort _).mp member) state

end

end Stratadiff
