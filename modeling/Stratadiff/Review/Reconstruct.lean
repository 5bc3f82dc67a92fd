import Stratadiff.Patch.Replay
import Stratadiff.Review.Blobs
import Stratadiff.Review.Translate

/-!
# Reconstructing a review baseline

When the base of a review moves, a reviewed modification is carried over by a
four-way replay: the reviewed edit and the upstream edit of the same file are
patches on the old base, and if they do not interact each is replayed on the
other's result. Both orders must give the same bytes, which are then what the
reviewer would have seen on the new base.
-/

namespace Stratadiff

open EditScript Run

def replayCandidateMetadataMatches (checkpoint current : GitChange) : Bool :=
  if checkpoint.status ≠ .modified || current.status ≠ .modified then false
  else
    match checkpoint.beforePath with
    | none => false
    | some path =>
        if checkpoint.afterPath ≠ some path || current.beforePath ≠ some path ||
            current.afterPath ≠ some path then false
        else
          match checkpoint.beforeMode with
          | none => false
          | some mode => isRegularFile mode && checkpoint.afterMode = some mode &&
              current.beforeMode = some mode && current.afterMode = some mode

/-- The only checkpoint change a current change can be replayed from, with its index. -/
def uniqueReplayCandidate (checkpointChanges : List GitChange) (current : GitChange) :
    Option (Nat × GitChange) :=
  match checkpointChanges.zipIdx.filter
      fun entry => replayCandidateMetadataMatches entry.1 current with
  | [(checkpoint, index)] => some (index, checkpoint)
  | _ => none

structure ReviewBaselineReconstruction where
  algorithm : String
  oldBaseBlob : String
  reviewedBlob : String
  currentBaseBlob : String
  reviewedOnCurrentBaseBlake3 : String
  upstreamOnCheckpointBlake3 : String
  reconstructedBlake3 : String
  byteLen : Nat
  deriving DecidableEq, Repr

structure ReconstructedReviewBaseline where
  baseline : Bytes
  currentAfter : Bytes
  evidence : ReviewBaselineReconstruction
  deriving DecidableEq, Repr

inductive BaselineReconstructionOutcome where
  | reconstructed (reconstruction : ReconstructedReviewBaseline)
  | unavailable (reason : ReviewDeltaFallbackReason)
  deriving DecidableEq, Repr

section

variable (engine : Engine) (limits : VerificationLimits)

def loadReplayBlobPair (change : GitChange) : Run BlobLoader (Option (Bytes × Bytes)) := do
  let repository := engine.repository
  let beforeId ← lift (.ofOption (.invalid "replay candidate is missing its before blob")
    change.beforeBlob)
  let afterId ← lift (.ofOption (.invalid "replay candidate is missing its after blob")
    change.afterBlob)
  let before ← inspectOptionalBlob repository limits (some beforeId) change.beforeMode
  let before ← lift (.ofOption (.invalid "replay candidate is missing before blob metadata") before)
  let after ← inspectOptionalBlob repository limits (some afterId) change.afterMode
  let after ← lift (.ofOption (.invalid "replay candidate is missing after blob metadata") after)
  if before.unavailableReason ≠ none ∨ after.unavailableReason ≠ none then return none
  else do
    let beforeSize ← lift (.ofOption (.invalid "replay before blob size is unavailable")
      before.size)
    let afterSize ← lift (.ofOption (.invalid "replay after blob size is unavailable") after.size)
    match ← loadStructuralBlobPair repository beforeId beforeSize afterId afterSize with
    | .available before after => return some (before, after)
    | .unavailable _ => return none

/-- The part of `reconstruct_review_baseline` that works on the four sources. -/
def replayFourWay (checkpointBefore checkpointAfter currentBefore : Bytes) :
    Result (Except ReviewDeltaFallbackReason (Bytes × Bytes)) := do
  let reviewedPatch := createPatch engine.captureDiffSlices checkpointBefore checkpointAfter
  let upstreamPatch := createPatch engine.captureDiffSlices checkpointBefore currentBefore
  if patchesInteract reviewedPatch upstreamPatch then return .error .overlapOrAdjacent
  else
    match translatePatch reviewedPatch upstreamPatch with
    | none => return .error .translationFailed
    | some reviewedOnCurrent =>
        match translatePatch upstreamPatch reviewedPatch with
        | none => return .error .translationFailed
        | some upstreamOnReviewed => do
            let reviewedResult ← applyPatch currentBefore reviewedOnCurrent
            let upstreamResult ← applyPatch checkpointAfter upstreamOnReviewed
            if reviewedResult ≠ upstreamResult then return .error .replayOrdersMismatch
            else if reviewedResult.length > limits.maxSourceBytes then
              return .error .sourceUnavailable
            else return .ok (reviewedResult, upstreamResult)

def reconstructReviewBaseline (checkpoint current : GitChange) :
    Run BlobLoader BaselineReconstructionOutcome := do
  if ¬ replayCandidateMetadataMatches checkpoint current then return .unavailable .unsupportedChange
  else
    match ← loadReplayBlobPair engine limits checkpoint with
    | none => return .unavailable .sourceUnavailable
    | some (checkpointBefore, checkpointAfter) =>
        match ← loadReplayBlobPair engine limits current with
        | none => return .unavailable .sourceUnavailable
        | some (currentBefore, currentAfter) =>
            if [checkpointBefore, checkpointAfter, currentBefore, currentAfter].any
                (fun bytes => bytes.contains 0) then return .unavailable .binaryNul
            else
              match ← lift (replayFourWay engine limits checkpointBefore checkpointAfter
                  currentBefore) with
              | .error reason => return .unavailable reason
              | .ok (reviewedResult, upstreamResult) => do
                  let oldBaseBlob ← lift (.ofOption
                    (.invalid "replay candidate is missing its old-base blob")
                    checkpoint.beforeBlob)
                  let reviewedBlob ← lift (.ofOption
                    (.invalid "replay candidate is missing its reviewed blob")
                    checkpoint.afterBlob)
                  let currentBaseBlob ← lift (.ofOption
                    (.invalid "replay candidate is missing its current-base blob")
                    current.beforeBlob)
                  return .reconstructed ⟨reviewedResult, currentAfter,
                    ⟨"bidirectional_noninteracting_byte_replay_v1", oldBaseBlob, reviewedBlob,
                      currentBaseBlob, engine.blake3 reviewedResult, engine.blake3 upstreamResult,
                      engine.blake3 reviewedResult, reviewedResult.length⟩⟩

end

/-- The sources of a change, as Git answers them. -/
def Sources (repository : Repository) (change : GitChange) (before after : Bytes) : Prop :=
  ∃ beforeId afterId, change.beforeBlob = some beforeId ∧ change.afterBlob = some afterId ∧
    repository.objectBytes beforeId = .ok before ∧ repository.objectBytes afterId = .ok after

/-- A four-way replay of a checkpoint change onto the base of a current one: the reviewed
edit, moved past the upstream edit, and the upstream edit, moved past the reviewed one,
both give `baseline`. -/
def FourWayReplay (engine : Engine) (checkpoint current : GitChange)
    (baseline currentAfter : Bytes) : Prop :=
  replayCandidateMetadataMatches checkpoint current = true ∧
    ∃ oldBase reviewed currentBase, Sources engine.repository checkpoint oldBase reviewed ∧
      Sources engine.repository current currentBase currentAfter ∧
      ∃ reviewedOnCurrent upstreamOnReviewed,
        patchesInteract (createPatch engine.captureDiffSlices oldBase reviewed)
          (createPatch engine.captureDiffSlices oldBase currentBase) = false ∧
        translatePatch (createPatch engine.captureDiffSlices oldBase reviewed)
          (createPatch engine.captureDiffSlices oldBase currentBase) = some reviewedOnCurrent ∧
        translatePatch (createPatch engine.captureDiffSlices oldBase currentBase)
          (createPatch engine.captureDiffSlices oldBase reviewed) = some upstreamOnReviewed ∧
        applyPatch currentBase reviewedOnCurrent = .ok baseline ∧
        applyPatch reviewed upstreamOnReviewed = .ok baseline

section

variable {engine : Engine} {limits : VerificationLimits}

theorem loadReplayBlobPair_keeps (change : GitChange) :
    Keeps (BlobLoader.Faithful engine.repository) (loadReplayBlobPair engine limits change)
      fun pair => ∀ before after, pair = some (before, after) →
        Sources engine.repository change before after := by
  refine .bind (.lift fun _ h => Result.ofOption_eq_ok.mp h) fun beforeId hbefore =>
    .bind (.lift fun _ h => Result.ofOption_eq_ok.mp h) fun afterId hafter =>
    .bind (inspectOptionalBlob_keeps _ _) fun _ _ =>
    .lift_bind fun before _ =>
    .bind (inspectOptionalBlob_keeps _ _) fun _ _ =>
    .lift_bind fun after _ => ?_
  split
  · exact .pure fun _ _ impossible => by cases impossible
  · refine .lift_bind fun _ _ =>
      .lift_bind fun _ _ =>
      .bind (loadStructuralBlobPair_keeps _ _ _ _) fun pair loaded => ?_
    split
    · refine .pure fun _ _ same => ?_
      cases same
      obtain ⟨before, after⟩ := loaded _ _ rfl
      exact ⟨beforeId, afterId, hbefore, hafter, before, after⟩
    · exact .pure fun _ _ impossible => by cases impossible

/-- Every object fits a buffer. -/
def Repository.BlobsFit (repository : Repository) : Prop :=
  ∀ objectId bytes, repository.objectBytes objectId = .ok bytes → bytes.length ≤ isizeMax

theorem replayFourWay_ok {checkpointBefore checkpointAfter currentBefore baseline upstream : Bytes}
    (h : replayFourWay engine limits checkpointBefore checkpointAfter currentBefore =
      .ok (.ok (baseline, upstream))) :
    ∃ reviewedOnCurrent upstreamOnReviewed,
      patchesInteract (createPatch engine.captureDiffSlices checkpointBefore checkpointAfter)
        (createPatch engine.captureDiffSlices checkpointBefore currentBefore) = false ∧
      translatePatch (createPatch engine.captureDiffSlices checkpointBefore checkpointAfter)
        (createPatch engine.captureDiffSlices checkpointBefore currentBefore) =
          some reviewedOnCurrent ∧
      translatePatch (createPatch engine.captureDiffSlices checkpointBefore currentBefore)
        (createPatch engine.captureDiffSlices checkpointBefore checkpointAfter) =
          some upstreamOnReviewed ∧
      applyPatch currentBefore reviewedOnCurrent = .ok baseline ∧
      applyPatch checkpointAfter upstreamOnReviewed = .ok baseline := by
  unfold replayFourWay at h
  dsimp only at h
  split at h
  · simp at h
  next apart =>
  split at h
  · simp at h
  next reviewedOnCurrent reviewed =>
  split at h
  · simp at h
  next upstreamOnReviewed upstream =>
  obtain ⟨reviewedResult, first, h⟩ := Result.bind_eq_ok.mp h
  obtain ⟨upstreamResult, second, h⟩ := Result.bind_eq_ok.mp h
  split at h
  · simp at h
  next same =>
  split at h
  · simp at h
  simp only [Result.pure_eq_ok, Except.ok.injEq, Prod.mk.injEq] at h
  obtain ⟨rfl, rfl⟩ := h
  rw [not_not] at same
  exact ⟨reviewedOnCurrent, upstreamOnReviewed, by simpa using apart, reviewed, upstream, first,
    same ▸ second⟩

/-- Patches that do not interact are translated, and the two replay orders agree. -/
theorem replayFourWay_reason {checkpointBefore checkpointAfter currentBefore : Bytes}
    {reason : ReviewDeltaFallbackReason}
    (tiling : CaptureDiffSlices.Tiling engine.captureDiffSlices)
    (baseFits : checkpointBefore.length ≤ isizeMax)
    (reviewedFits : checkpointAfter.length ≤ isizeMax)
    (upstreamFits : currentBefore.length ≤ isizeMax)
    (h : replayFourWay engine limits checkpointBefore checkpointAfter currentBefore =
      .ok (.error reason)) :
    reason ≠ .translationFailed ∧ reason ≠ .replayOrdersMismatch := by
  obtain ⟨ps, validReviewed, reviewedResult⟩ :=
    createPatch_valid tiling checkpointBefore checkpointAfter
  obtain ⟨qs, validUpstream, upstreamResult⟩ :=
    createPatch_valid tiling checkpointBefore currentBefore
  unfold replayFourWay at h
  dsimp only at h
  split at h
  · cases h
    simp
  next apart =>
  have apart : Apart ps qs := editsInteract_apart validReviewed.denotes validUpstream.denotes
    validReviewed.within validUpstream.within (by simpa [patchesInteract] using apart)
  obtain ⟨reviewedOnCurrent, reviewed, reviewedValid⟩ :=
    translatePatch_valid validReviewed validUpstream apart baseFits
      (by rw [upstreamResult]; exact upstreamFits)
  obtain ⟨upstreamOnReviewed, upstream, upstreamValid⟩ :=
    translatePatch_valid validUpstream validReviewed apart.symm baseFits
      (by rw [reviewedResult]; exact reviewedFits)
  rw [reviewed, upstream] at h
  obtain ⟨first, firstRun, h⟩ := Result.bind_eq_ok.mp h
  obtain ⟨second, secondRun, h⟩ := Result.bind_eq_ok.mp h
  rw [upstreamResult] at reviewedValid
  rw [reviewedResult] at upstreamValid
  have same : first = second := by
    rw [replayPatchWithLimits_ok reviewedValid firstRun,
      replayPatchWithLimits_ok upstreamValid secondRun, ← upstreamResult, ← reviewedResult]
    exact apply_comm validReviewed.within validUpstream.within apart
  rw [if_neg (by simpa using same)] at h
  split at h
  · cases h
    simp
  · simp at h

/-- What an outcome of the reconstruction says about the two changes. -/
structure BaselineReconstructionOutcome.Sound (engine : Engine) (checkpoint current : GitChange)
    (outcome : BaselineReconstructionOutcome) : Prop where
  replay : ∀ reconstruction, outcome = .reconstructed reconstruction →
    FourWayReplay engine checkpoint current reconstruction.baseline reconstruction.currentAfter
  reason : ∀ reason, outcome = .unavailable reason →
    CaptureDiffSlices.Tiling engine.captureDiffSlices → engine.repository.BlobsFit →
      reason ≠ .translationFailed ∧ reason ≠ .replayOrdersMismatch

theorem BaselineReconstructionOutcome.Sound.unavailable {checkpoint current : GitChange}
    {reason : ReviewDeltaFallbackReason} (first : reason ≠ .translationFailed)
    (second : reason ≠ .replayOrdersMismatch) :
    BaselineReconstructionOutcome.Sound engine checkpoint current (.unavailable reason) :=
  ⟨nofun, fun _ same _ _ => by cases same; exact ⟨first, second⟩⟩

theorem reconstructReviewBaseline_keeps (checkpoint current : GitChange) :
    Keeps (BlobLoader.Faithful engine.repository)
      (reconstructReviewBaseline engine limits checkpoint current)
      (BaselineReconstructionOutcome.Sound engine checkpoint current) := by
  unfold reconstructReviewBaseline
  split
  · exact .pure (.unavailable (by simp) (by simp))
  next metadata =>
  rw [not_not] at metadata
  refine .bind (loadReplayBlobPair_keeps checkpoint) fun checkpointPair checkpointSources => ?_
  split
  · exact .pure (.unavailable (by simp) (by simp))
  next checkpointBefore checkpointAfter =>
  refine .bind (loadReplayBlobPair_keeps current) fun currentPair currentSources => ?_
  split
  · exact .pure (.unavailable (by simp) (by simp))
  next currentBefore currentAfter =>
  have checkpointSources := checkpointSources _ _ rfl
  have currentSources := currentSources _ _ rfl
  split
  · exact .pure (.unavailable (by simp) (by simp))
  refine .bind (.lift fun result run => run) fun result run => ?_
  split
  · next reason =>
    refine .pure ⟨nofun, fun _ same tiling fits => ?_⟩
    cases same
    obtain ⟨_, _, _, _, before, after⟩ := checkpointSources
    obtain ⟨_, _, _, _, upstream, _⟩ := currentSources
    exact replayFourWay_reason tiling (fits _ _ before) (fits _ _ after) (fits _ _ upstream) run
  · next baseline upstreamResult =>
    refine .lift_bind fun _ _ =>
      .lift_bind fun _ _ =>
      .lift_bind fun _ _ => ?_
    refine .pure ⟨fun _ same => ?_, nofun⟩
    cases same
    exact ⟨metadata, checkpointBefore, checkpointAfter, currentBefore, checkpointSources,
      currentSources, replayFourWay_ok run⟩

end

/-! ## Commutation -/

/-- Two valid patches on one base that do not interact can be replayed in either order,
and so a reconstruction never fails for want of a translation or of agreement. -/
theorem patches_commute :
    (∀ (base : Bytes) (reviewed upstream : LosslessPatch) (ps qs : List (Edit UInt8)),
      ValidOn base reviewed ps → ValidOn base upstream qs →
      patchesInteract reviewed upstream = false → base.length ≤ isizeMax →
      (apply base ps).length ≤ isizeMax → (apply base qs).length ≤ isizeMax →
      ∃ reviewedOnCurrent upstreamOnReviewed ps' qs',
        translatePatch reviewed upstream = some reviewedOnCurrent ∧
        translatePatch upstream reviewed = some upstreamOnReviewed ∧
        ValidOn (apply base qs) reviewedOnCurrent ps' ∧
        ValidOn (apply base ps) upstreamOnReviewed qs' ∧
        ∀ limits, Admits limits base reviewed ps → Admits limits base upstream qs →
          Admits limits (apply base qs) reviewedOnCurrent ps' →
          Admits limits (apply base ps) upstreamOnReviewed qs' →
          ∃ result,
            (do let bytes ← replayPatchWithLimits base reviewed limits
                replayPatchWithLimits bytes upstreamOnReviewed limits) = .ok result ∧
            (do let bytes ← replayPatchWithLimits base upstream limits
                replayPatchWithLimits bytes reviewedOnCurrent limits) = .ok result) ∧
    (∀ (engine : Engine) (limits : VerificationLimits) (checkpoint current : GitChange)
      (loader : BlobLoader), CaptureDiffSlices.Tiling engine.captureDiffSlices →
      engine.repository.BlobsFit → loader.Faithful engine.repository →
      (outcome (reconstructReviewBaseline engine limits checkpoint current) loader).1 ≠
          .ok (.unavailable .translationFailed) ∧
        (outcome (reconstructReviewBaseline engine limits checkpoint current) loader).1 ≠
          .ok (.unavailable .replayOrdersMismatch)) := by
  constructor
  · intro base reviewed upstream ps qs hp hq quiet baseFits reviewedFits upstreamFits
    have apart : Apart ps qs :=
      editsInteract_apart hp.denotes hq.denotes hp.within hq.within quiet
    obtain ⟨reviewedOnCurrent, translatedReviewed, validReviewed⟩ :=
      translatePatch_valid hp hq apart baseFits upstreamFits
    obtain ⟨upstreamOnReviewed, translatedUpstream, validUpstream⟩ :=
      translatePatch_valid hq hp apart.symm baseFits reviewedFits
    refine ⟨reviewedOnCurrent, upstreamOnReviewed, _, _, translatedReviewed, translatedUpstream,
      validReviewed, validUpstream, fun limits first second third fourth => ?_⟩
    refine ⟨apply (apply base ps) (translate 0 qs ps), ?_, ?_⟩
    · rw [replayPatchWithLimits_of_valid hp first, Result.ok_bind,
        replayPatchWithLimits_of_valid validUpstream fourth]
    · rw [replayPatchWithLimits_of_valid hq second, Result.ok_bind,
        replayPatchWithLimits_of_valid validReviewed third,
        apply_comm hp.within hq.within apart]
  · intro engine limits checkpoint current loader tiling fits faithful
    rcases run : outcome (reconstructReviewBaseline engine limits checkpoint current) loader with
      ⟨result, loader'⟩
    have never : ∀ reason, result = .ok (.unavailable reason) →
        reason ≠ .translationFailed ∧ reason ≠ .replayOrdersMismatch := by
      rintro reason rfl
      exact ((reconstructReviewBaseline_keeps checkpoint current).of_ok faithful run).2.reason
        reason rfl tiling fits
    exact ⟨fun failed => (never _ failed).1 rfl, fun failed => (never _ failed).2 rfl⟩

/-- A file `abc` whose first letter was reviewed as `X` while `YZ` was added upstream. -/
def movedBaseObjects : List (String × Bytes) :=
  [("aaaaaaaaaaaaaaaaaaaaaaaaaaaaaaaaaaaaaaaa", [97, 98, 99]),
   ("bbbbbbbbbbbbbbbbbbbbbbbbbbbbbbbbbbbbbbbb", [88, 98, 99]),
   ("cccccccccccccccccccccccccccccccccccccccc", [97, 98, 99, 89, 90])]

def movedBaseEngine : Engine where
  repository :=
    { tree := fun _ => ∅
      rawDiff := fun _ _ => .ok []
      lsTree := fun _ _ => .ok []
      objectSize := fun objectId => match movedBaseObjects.lookup objectId with
        | some bytes => .ok bytes.length
        | none => .error "missing"
      objectBytes := fun objectId => match movedBaseObjects.lookup objectId with
        | some bytes => .ok bytes
        | none => .error "missing" }
  captureDiffSlices := compareWhole
  blake3 := fun _ => ""
  detectLanguage := fun _ => .error "unknown extension"
  analyze := fun _ _ _ _ _ => ⟨.unverified, .reviewFirst, ""⟩
  analyzeReconstructed := fun _ _ _ _ _ => ⟨.unverified, .reviewFirst, ""⟩

/-- A modification of the file from one object to another. -/
def movedBaseChange (before after : String) : GitChange :=
  ⟨.modified, none, some ⟨"f", .utf8⟩, some ⟨"f", .utf8⟩, some "100644", some "100644",
    some before, some after⟩

theorem patches_commute_moved_base :
    (∃ reviewedOnCurrent upstreamOnReviewed,
      translatePatch ⟨patchAlgorithm, [⟨0, 1, [87, 65, 61, 61]⟩]⟩
        ⟨patchAlgorithm, [⟨3, 3, [87, 86, 111, 61]⟩]⟩ = some reviewedOnCurrent ∧
      translatePatch ⟨patchAlgorithm, [⟨3, 3, [87, 86, 111, 61]⟩]⟩
        ⟨patchAlgorithm, [⟨0, 1, [87, 65, 61, 61]⟩]⟩ = some upstreamOnReviewed) ∧
    (outcome (reconstructReviewBaseline movedBaseEngine .default
        (movedBaseChange "aaaaaaaaaaaaaaaaaaaaaaaaaaaaaaaaaaaaaaaa"
          "bbbbbbbbbbbbbbbbbbbbbbbbbbbbbbbbbbbbbbbb")
        (movedBaseChange "cccccccccccccccccccccccccccccccccccccccc"
          "bbbbbbbbbbbbbbbbbbbbbbbbbbbbbbbbbbbbbbbb"))
      .default).1 ≠ .ok (.unavailable .translationFailed) := by
  constructor
  · obtain ⟨reviewed, upstream, _, _, first, second, _⟩ := patches_commute.1 [97, 98, 99]
      ⟨patchAlgorithm, [⟨0, 1, [87, 65, 61, 61]⟩]⟩ ⟨patchAlgorithm, [⟨3, 3, [87, 86, 111, 61]⟩]⟩
      [⟨0, 1, [88]⟩] [⟨3, 3, [89, 90]⟩] ⟨rfl, .cons rfl .nil, by simp [Within]⟩
      ⟨rfl, .cons rfl .nil, by simp [Within]⟩ (by simp [patchesInteract, editsInteract])
      (by decide) (by decide) (by decide)
    exact ⟨reviewed, upstream, first, second⟩
  · refine (patches_commute.2 movedBaseEngine .default _ _ .default compareWhole_tiling ?_ ?_).1
    · intro objectId bytes found
      have small : ∀ entry ∈ movedBaseObjects, entry.2.length ≤ isizeMax := by decide
      simp only [movedBaseEngine] at found
      split at found
      · next held =>
        cases found
        obtain ⟨_, _, split, _⟩ := List.lookup_eq_some_iff.mp held
        exact small (objectId, bytes) (by simp [split])
      · cases found
    · intro objectId bytes cached
      simp [BlobLoader.default] at cached

end Stratadiff
