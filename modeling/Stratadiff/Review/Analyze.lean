import Stratadiff.Review.Reconstruct

/-!
# Analyzing one change

`analyze_change` and the line counts of `review.rs`. The result is a review file
that repeats the change's own metadata; everything else in it is advice. What the
rest of the review relies on is `ReviewFile.Describes`: the file stands for this
change and no other.
-/

namespace Stratadiff

open Run

/-- `line_changes`: the lines between the common lines at both ends. -/
def lineChanges (before after : Bytes) : Option LineChangeEnvelope := do
  let _ ← utf8? before
  let _ ← utf8? after
  let beforeLines := splitLines before
  let afterLines := splitLines after
  let agreement (left right : List Bytes) : Nat :=
    ((left.zip right).takeWhile fun pair => pair.1 = pair.2).length
  let head := agreement beforeLines afterLines
  let tailLimit := min beforeLines.length afterLines.length - head
  let tail := (((beforeLines.reverse.zip afterLines.reverse).take tailLimit).takeWhile
    fun pair => pair.1 = pair.2).length
  return ⟨afterLines.length - head - tail, beforeLines.length - head - tail⟩

def availableLineSource (objectId : Option String) (blob : Option Blob) : Option (String × Nat) :=
  match objectId, blob with
  | some objectId, some blob =>
      if blob.unavailableReason ≠ none then none else blob.size.map fun size => (objectId, size)
  | _, _ => none

/-- The sources a line count needs, or `none` when one of them is unavailable. -/
def lineSources (status : FileStatus) (before after : Option (String × Nat)) :
    Option (List (String × Nat)) :=
  match status with
  | .added => after.map fun source => [source]
  | .deleted => before.map fun source => [source]
  | _ => do return [← before, ← after]

section

variable (engine : Engine) (limits : VerificationLimits)

def cacheLineChanges (key : Option String × Option String) (changes : Option LineChangeEnvelope) :
    Run BlobLoader (Option LineChangeEnvelope) := do
  modify fun loader => { loader with lineChanges := (key, changes) :: loader.lineChanges }
  return changes

/-- Bytes of a cached side; a missing side is empty. -/
def cachedSide (loader : BlobLoader) (side : Option String) (absent notCached : String) :
    Result Bytes := do
  let objectId ← Result.ofOption (.invalid absent) side
  Result.ofOption (.invalid notCached) (loader.bytes.lookup objectId)

def loadLineChanges (status : FileStatus) (beforeId : Option String) (before : Option Blob)
    (afterId : Option String) (after : Option Blob) :
    Run BlobLoader (Option LineChangeEnvelope) := do
  let loader ← get
  match loader.lineChanges.lookup (beforeId, afterId) with
  | some changes => return changes
  | none =>
      match lineSources status (availableLineSource beforeId before)
          (availableLineSource afterId after) with
      | none => return none
      | some sources => do
          let overflow : Failure := .invalid "line-stat source byte count exceeds usize capacity"
          let additionalBytes ← lift (totalSize overflow sources 0)
          let nextTotal ← lift (.ofOption overflow
            (checkedAdd loader.lineStatSourceBytes additionalBytes))
          if nextTotal > maxReviewTotalLineStatBytes then
            cacheLineChanges (beforeId, afterId) none
          else
            match ← loadBlobs engine.repository sources with
            | .unavailable _ => cacheLineChanges (beforeId, afterId) none
            | .available => do
                modify fun loader => { loader with lineStatSourceBytes := nextTotal }
                let loader ← get
                match status with
                | .added => do
                    let after ← lift (cachedSide loader afterId
                      "added file is missing its blob id" "added line-stat blob was not cached")
                    cacheLineChanges (beforeId, afterId) (lineChanges [] after)
                | .deleted => do
                    let before ← lift (cachedSide loader beforeId
                      "deleted file is missing its blob id"
                      "deleted line-stat blob was not cached")
                    cacheLineChanges (beforeId, afterId) (lineChanges before [])
                | _ => do
                    let before ← lift (cachedSide loader beforeId
                      "paired file is missing its before blob id"
                      "before line-stat blob was not cached")
                    let after ← lift (cachedSide loader afterId
                      "paired file is missing its after blob id"
                      "after line-stat blob was not cached")
                    cacheLineChanges (beforeId, afterId) (lineChanges before after)

/-- The file of a change before anything is said about its content. -/
def describedFile (change : GitChange) (before after : Option Blob)
    (lineChangeEnvelope : Option LineChangeEnvelope) : ReviewFile where
  status := change.status
  similarityPercent := change.similarityPercent
  beforePath := change.beforePath.map GitPath.display
  beforePathEncoding := change.beforePath.map GitPath.encoding
  afterPath := change.afterPath.map GitPath.display
  afterPathEncoding := change.afterPath.map GitPath.encoding
  beforeMode := change.beforeMode
  afterMode := change.afterMode
  beforeBlob := change.beforeBlob
  afterBlob := change.afterBlob
  beforeBytes := before.bind Blob.size
  afterBytes := after.bind Blob.size
  lineChangeEnvelope := lineChangeEnvelope
  language := none
  priority := .reviewFirst
  lane := .reviewFirst
  checkpointState := none
  checkpointMatchBasis := none
  reason := ""

/-- What is said about a file's content. -/
structure FileVerdict where
  language : Option String
  analysis : FileAnalysis

def ReviewFile.withVerdict (file : ReviewFile) (verdict : FileVerdict) : ReviewFile :=
  { file with
    language := verdict.language
    priority := verdict.analysis.priority
    lane := verdict.analysis.lane
    reason := verdict.analysis.reason }

def unverified (reason : String) : FileVerdict := ⟨none, ⟨.unverified, .reviewFirst, reason⟩⟩

/-- The tail of `analyze_change`, for a pair of regular sources of one language. -/
def structuralVerdict (beforePath afterPath language : String) (beforeBlob : String)
    (beforeSize : Nat) (afterBlob : String) (afterSize : Nat) : Run BlobLoader FileVerdict := do
  match ← loadStructuralBlobPair engine.repository beforeBlob beforeSize afterBlob afterSize with
  | .unavailable reason => return ⟨some language, ⟨.unverified, .reviewFirst, reason⟩⟩
  | .available before after =>
      return ⟨some language, engine.analyze beforePath afterPath language before after⟩

/-- The middle of `analyze_change`, for a change with two different sides. -/
def pairedVerdict (change : GitChange) (before after : Option Blob) :
    Run BlobLoader FileVerdict := do
  let before ← lift (.ofOption (.invalid "paired git change is missing its before blob") before)
  let after ← lift (.ofOption (.invalid "paired git change is missing its after blob") after)
  match before.unavailableReason, after.unavailableReason with
  | some reason, _ => return unverified reason
  | none, some reason => return unverified reason
  | none, none => do
      let beforePath ← lift (.ofOption
        (.invalid "paired git change is missing its before path") change.beforePath)
      let afterPath ← lift (.ofOption
        (.invalid "paired git change is missing its after path") change.afterPath)
      match engine.detectLanguage beforePath.display with
      | .error error => return unverified s!"before path has no supported parser: {error}"
      | .ok beforeLanguage =>
          match engine.detectLanguage afterPath.display with
          | .error error => return unverified s!"after path has no supported parser: {error}"
          | .ok afterLanguage =>
              if beforeLanguage ≠ afterLanguage then
                return unverified
                  s!"file language changed from {beforeLanguage} to {afterLanguage}"
              else do
                let beforeBlob ← lift (.ofOption
                  (.invalid "paired structural change is missing its before blob")
                  change.beforeBlob)
                let beforeSize ← lift (.ofOption (.invalid "before blob size is unavailable")
                  before.size)
                let afterBlob ← lift (.ofOption
                  (.invalid "paired structural change is missing its after blob")
                  change.afterBlob)
                let afterSize ← lift (.ofOption (.invalid "after blob size is unavailable")
                  after.size)
                structuralVerdict engine beforePath.display afterPath.display beforeLanguage
                  beforeBlob beforeSize afterBlob afterSize

def sameObjectReason (beforeMode : Option String) : String :=
  if beforeMode = some "160000" then
    "Git reports the same gitlink target commit; path and repository effects remain in the " ++
      "first pass"
  else
    "Git reports the same object ID; path, copy, type, and file-mode effects remain in the " ++
      "first pass"

def changeVerdict (change : GitChange) (before after : Option Blob) :
    Run BlobLoader FileVerdict := do
  let loader ← get
  match (change.beforeBlob.toList ++ change.afterBlob.toList).findSome?
      (fun objectId => loader.errors.lookup objectId) with
  | some reason => return unverified reason
  | none =>
      if (change.beforePath.toList ++ change.afterPath.toList).any
          (fun path => path.encoding ≠ .utf8) then
        return unverified
          "Git path is not UTF-8; the reversible git-bytes:%XX label is retained for manual review"
      else
        match change.status with
        | .added => return ⟨none, ⟨.reviewFirst, .reviewFirst,
            "new file; all content remains in the intrinsic review-first pass"⟩⟩
        | .deleted => return ⟨none, ⟨.reviewFirst, .reviewFirst,
            "deleted file; the removal remains in the intrinsic review-first pass"⟩⟩
        | _ =>
            if change.beforeBlob = change.afterBlob then
              return ⟨none, ⟨.contentPreserved, .reviewFirst, sameObjectReason change.beforeMode⟩⟩
            else pairedVerdict engine change before after

/-- The free function `analyze_change`. -/
def analyzeLoadedChange (change : GitChange) : Run BlobLoader ReviewFile := do
  let before ← inspectOptionalBlob engine.repository limits change.beforeBlob change.beforeMode
  let after ← inspectOptionalBlob engine.repository limits change.afterBlob change.afterMode
  let lineChangeEnvelope ← loadLineChanges engine change.status change.beforeBlob before
    change.afterBlob after
  let verdict ← changeVerdict engine change before after
  return (describedFile change before after lineChangeEnvelope).withVerdict verdict

def reserveChangeWork (change : GitChange) : Review Unit := do
  let bytes ← sourceWorkBytes engine.repository limits (changeSides change) 0
  consumeProcessedSourceBytes bytes

/-- `ReviewAnalysisContext::analyze_change`. -/
def analyzeChange (change : GitChange) : Review ReviewFile := do
  let context ← get
  match context.analyzedFiles.lookup change with
  | some file => return file
  | none => do
      reserveChangeWork engine limits change
      let file ← onLoader (analyzeLoadedChange engine limits change)
      modify fun context => { context with
        analyzedFiles := (change, file) :: context.analyzedFiles }
      return file

/-- `ReviewAnalysisContext::reconstruct_review_baseline`. -/
def contextReconstructReviewBaseline (checkpoint current : GitChange) :
    Review BaselineReconstructionOutcome := do
  if replayCandidateMetadataMatches checkpoint current then
    let bytes ← sourceWorkBytes engine.repository limits
      (changeSides checkpoint ++ changeSides current) 0
    consumeProcessedSourceBytes bytes
  onLoader (reconstructReviewBaseline engine limits checkpoint current)

def independentFourWayReplayMatches (checkpoint current : GitChange) : Review Bool := do
  match ← contextReconstructReviewBaseline engine limits checkpoint current with
  | .reconstructed reconstruction =>
      return reconstruction.baseline = reconstruction.currentAfter
  | .unavailable _ => return false

end

/-- `review_file_matches_change`. -/
def reviewFileMatchesChange (file : ReviewFile) (change : GitChange) : Bool :=
  file.status = change.status && file.similarityPercent = change.similarityPercent &&
    file.beforePath = change.beforePath.map GitPath.display &&
    file.beforePathEncoding = change.beforePath.map GitPath.encoding &&
    file.afterPath = change.afterPath.map GitPath.display &&
    file.afterPathEncoding = change.afterPath.map GitPath.encoding &&
    file.beforeMode = change.beforeMode && file.afterMode = change.afterMode &&
    file.beforeBlob = change.beforeBlob && file.afterBlob = change.afterBlob

/-! ## What the context keeps -/

/-- A file that stands for a change and says nothing about a checkpoint yet. -/
def ReviewFile.Describes (file : ReviewFile) (change : GitChange) : Prop :=
  reviewFileMatchesChange file change = true

/-- The changes Git lists between two commits, as this code reads them. -/
def Discovered (repository : Repository) (fromCommit toCommit : String)
    (changes : List GitChange) : Prop :=
  ∃ stdout, repository.rawDiff (repository.tree fromCommit) (repository.tree toCommit) =
      .ok stdout ∧ parseGitChangeOutput stdout = .ok changes

/-- The caches of a context hold what would be computed again. -/
structure ReviewAnalysisContext.Faithful (repository : Repository)
    (context : ReviewAnalysisContext) : Prop where
  blobs : context.blobLoader.Faithful repository
  changes : ∀ fromCommit toCommit changes,
    context.changes.lookup (fromCommit, toCommit) = some changes →
      Discovered repository fromCommit toCommit changes
  files : ∀ change file, context.analyzedFiles.lookup change = some file → file.Describes change

theorem ReviewAnalysisContext.Faithful.unbounded (repository : Repository) :
    ReviewAnalysisContext.unbounded.Faithful repository := by
  refine ⟨?_, ?_, ?_⟩
  · intro objectId bytes cached
    simp [ReviewAnalysisContext.unbounded, BlobLoader.default] at cached
  · intro fromCommit toCommit changes cached
    simp [ReviewAnalysisContext.unbounded] at cached
  · intro change file cached
    simp [ReviewAnalysisContext.unbounded] at cached

section

variable {engine : Engine} {limits : VerificationLimits}

theorem cacheLineChanges_keeps (key : Option String × Option String)
    (changes : Option LineChangeEnvelope) :
    Keeps (BlobLoader.Faithful engine.repository) (cacheLineChanges key changes)
      fun _ => True :=
  .bind (.modify fun _ kept => kept) fun _ _ => .pure trivial

theorem loadLineChanges_keeps (status : FileStatus) (beforeId afterId : Option String)
    (before after : Option Blob) :
    Keeps (BlobLoader.Faithful engine.repository)
      (loadLineChanges engine status beforeId before afterId after) fun _ => True := by
  refine .bind .get fun loader _ => ?_
  split
  · exact .pure trivial
  split
  · exact .pure trivial
  refine .lift_bind fun _ _ =>
    .lift_bind fun _ _ => ?_
  split
  · exact cacheLineChanges_keeps _ _
  refine .bind (loadBlobs_keeps _) fun load _ => ?_
  split
  · exact cacheLineChanges_keeps _ _
  refine .bind (.modify fun _ kept => kept) fun _ _ => .bind .get fun loader _ => ?_
  split
  · exact .lift_bind fun _ _ =>
      cacheLineChanges_keeps _ _
  · exact .lift_bind fun _ _ =>
      cacheLineChanges_keeps _ _
  · exact .lift_bind fun _ _ =>
      .lift_bind fun _ _ =>
        cacheLineChanges_keeps _ _

theorem pairedVerdict_keeps (change : GitChange) (before after : Option Blob) :
    Keeps (BlobLoader.Faithful engine.repository) (pairedVerdict engine change before after)
      fun _ => True := by
  refine .lift_bind fun before _ =>
    .lift_bind fun after _ => ?_
  split
  · exact .pure trivial
  · exact .pure trivial
  refine .lift_bind fun beforePath _ =>
    .lift_bind fun afterPath _ => ?_
  split
  · exact .pure trivial
  split
  · exact .pure trivial
  split
  · exact .pure trivial
  refine .lift_bind fun _ _ =>
    .lift_bind fun _ _ =>
    .lift_bind fun _ _ =>
    .lift_bind fun _ _ =>
    .bind (loadStructuralBlobPair_keeps _ _ _ _) fun pair _ => ?_
  split <;> exact .pure trivial

theorem changeVerdict_keeps (change : GitChange) (before after : Option Blob) :
    Keeps (BlobLoader.Faithful engine.repository) (changeVerdict engine change before after)
      fun _ => True := by
  refine .bind .get fun loader _ => ?_
  split
  · exact .pure trivial
  split
  · exact .pure trivial
  split
  · exact .pure trivial
  · exact .pure trivial
  · split
    · exact .pure trivial
    · exact pairedVerdict_keeps _ _ _

theorem describes_withVerdict (change : GitChange) (before after : Option Blob)
    (lines : Option LineChangeEnvelope) (verdict : FileVerdict) :
    ((describedFile change before after lines).withVerdict verdict).Describes change := by
  simp [ReviewFile.Describes, reviewFileMatchesChange, describedFile, ReviewFile.withVerdict]

theorem analyzeLoadedChange_keeps (change : GitChange) :
    Keeps (BlobLoader.Faithful engine.repository) (analyzeLoadedChange engine limits change)
      fun file => file.Describes change :=
  .bind (inspectOptionalBlob_keeps _ _) fun _ _ => .bind (inspectOptionalBlob_keeps _ _) fun _ _ =>
    .bind (loadLineChanges_keeps _ _ _ _ _) fun _ _ => .bind (changeVerdict_keeps _ _ _)
      fun _ _ => .pure (describes_withVerdict _ _ _ _ _)

theorem onLoader_keeps {α : Type} {x : Run BlobLoader α} {Q : α → Prop}
    (h : Keeps (BlobLoader.Faithful engine.repository) x Q) :
    Keeps (ReviewAnalysisContext.Faithful engine.repository) (onLoader x) Q :=
  .zoom h (fun _ kept => kept.blobs) (fun _ _ kept blobs => ⟨blobs, kept.changes, kept.files⟩)

/-- Counting against a budget changes no cache. -/
theorem budget_keeps {limit : Option Nat} {charge : Nat → Result Nat}
    {record : Nat → ReviewAnalysisContext → ReviewAnalysisContext}
    (blobs : ∀ n context, (record n context).blobLoader = context.blobLoader)
    (changes : ∀ n context, (record n context).changes = context.changes)
    (files : ∀ n context, (record n context).analyzedFiles = context.analyzedFiles) :
    Keeps (ReviewAnalysisContext.Faithful engine.repository)
      (match limit with
        | none => (pure () : Review Unit)
        | some limit => do
            let total ← lift (charge limit)
            modify (record total)) fun _ => True := by
  split
  · exact .pure trivial
  · refine .lift_bind fun total _ => .modify fun context kept => ⟨?_, ?_, ?_⟩
    · rw [blobs]
      exact kept.blobs
    · rw [changes]
      exact kept.changes
    · rw [files]
      exact kept.files

theorem consumeFileVisits_keeps (additional : Nat) :
    Keeps (ReviewAnalysisContext.Faithful engine.repository) (consumeFileVisits additional)
      fun _ => True :=
  .bind .get fun _ _ => budget_keeps (fun _ _ => rfl) (fun _ _ => rfl) (fun _ _ => rfl)

theorem consumeDiffQuery_keeps :
    Keeps (ReviewAnalysisContext.Faithful engine.repository) consumeDiffQuery fun _ => True :=
  .bind .get fun _ _ => budget_keeps (fun _ _ => rfl) (fun _ _ => rfl) (fun _ _ => rfl)

theorem consumeMetadataBytes_keeps (additional : Nat) :
    Keeps (ReviewAnalysisContext.Faithful engine.repository) (consumeMetadataBytes additional)
      fun _ => True :=
  .bind .get fun _ _ => budget_keeps (fun _ _ => rfl) (fun _ _ => rfl) (fun _ _ => rfl)

theorem consumeProcessedSourceBytes_keeps (additional : Nat) :
    Keeps (ReviewAnalysisContext.Faithful engine.repository)
      (consumeProcessedSourceBytes additional) fun _ => True :=
  .bind .get fun _ _ => budget_keeps (fun _ _ => rfl) (fun _ _ => rfl) (fun _ _ => rfl)

theorem discoverChanges_keeps (fromCommit toCommit : String) :
    Keeps (ReviewAnalysisContext.Faithful engine.repository)
      (discoverChanges engine.repository fromCommit toCommit)
      (Discovered engine.repository fromCommit toCommit) := by
  refine .bind .get fun context kept => ?_
  split
  · next changes cached => exact .pure (kept.changes _ _ _ cached)
  refine .bind consumeDiffQuery_keeps fun _ _ => .lift_bind fun stdout answered =>
    .bind (consumeMetadataBytes_keeps _) fun _ _ => .bind .get fun context _ => ?_
  have listed : engine.repository.rawDiff (engine.repository.tree fromCommit)
      (engine.repository.tree toCommit) = .ok stdout := by
    split at answered
    · next found =>
      cases answered
      exact found
    · cases answered
  split
  · exact .lift nofun
  · refine .lift_bind fun changes parsed => ?_
    have discovered : Discovered engine.repository fromCommit toCommit changes :=
      ⟨stdout, listed, parsed⟩
    refine .bind (.modify fun context kept => ⟨kept.blobs, ?_, kept.files⟩) fun _ _ =>
      .pure discovered
    intro fromCommit' toCommit' changes' cached
    simp only [List.lookup_cons] at cached
    split at cached
    · next same =>
      simp only [beq_iff_eq, Prod.mk.injEq] at same
      obtain ⟨rfl, rfl⟩ := same
      cases cached
      exact discovered
    · exact kept.changes _ _ _ cached

theorem availableSize_keeps (objectId mode : String) :
    Keeps (ReviewAnalysisContext.Faithful engine.repository)
      (availableSize engine.repository limits objectId mode) fun _ => True :=
  .bind (onLoader_keeps (inspectOptionalBlob_keeps _ _)) fun _ _ => .pure trivial

theorem reserveCandidates_keeps (candidates : List (String × String)) (additionalBytes : Nat)
    (reservations : List String) :
    Keeps (ReviewAnalysisContext.Faithful engine.repository)
      (reserveCandidates engine.repository limits candidates additionalBytes reservations)
      fun _ => True := by
  induction candidates generalizing additionalBytes reservations with
  | nil => exact .pure trivial
  | cons candidate rest ih =>
      refine .bind (availableSize_keeps _ _) fun size _ => ?_
      split
      · exact ih _ _
      · exact .lift_bind fun _ _ => ih _ _

theorem reserveSources_keeps (changes : List GitChange) :
    Keeps (ReviewAnalysisContext.Faithful engine.repository)
      (reserveSources engine.repository limits changes) fun _ => True := by
  refine .bind .get fun context _ => ?_
  split
  · exact .pure trivial
  · refine .bind (reserveCandidates_keeps _ _ _) fun reserved _ => .bind .get fun context _ =>
      .lift_bind fun sourceBytes _ => .modify fun context kept => ?_
    exact ⟨kept.blobs, kept.changes, kept.files⟩

theorem sourceWorkBytes_keeps (sources : List (Option String × Option String)) (bytes : Nat) :
    Keeps (ReviewAnalysisContext.Faithful engine.repository)
      (sourceWorkBytes engine.repository limits sources bytes) fun _ => True := by
  induction sources generalizing bytes with
  | nil => exact .pure trivial
  | cons source rest ih =>
      obtain ⟨objectId | objectId, mode | mode⟩ := source
      · exact ih _
      · exact ih _
      · exact ih _
      · refine .bind (availableSize_keeps _ _) fun size _ => ?_
        split
        · exact ih _
        · exact .lift_bind fun _ _ => ih _

theorem analyzeChange_keeps (change : GitChange) :
    Keeps (ReviewAnalysisContext.Faithful engine.repository) (analyzeChange engine limits change)
      fun file => file.Describes change := by
  refine .bind .get fun context kept => ?_
  split
  · next file cached => exact .pure (kept.files _ _ cached)
  · refine .bind (.bind (sourceWorkBytes_keeps _ _) fun _ _ =>
      consumeProcessedSourceBytes_keeps _) fun _ _ =>
      .bind (onLoader_keeps (analyzeLoadedChange_keeps _)) fun file described => ?_
    refine .bind (.modify fun context kept => ⟨kept.blobs, kept.changes, ?_⟩) fun _ _ =>
      .pure described
    intro change' file' cached
    simp only [List.lookup_cons] at cached
    split at cached
    · next same =>
      cases cached
      rw [beq_iff_eq.mp same]
      exact described
    · exact kept.files _ _ cached

theorem contextReconstructReviewBaseline_keeps (checkpoint current : GitChange) :
    Keeps (ReviewAnalysisContext.Faithful engine.repository)
      (contextReconstructReviewBaseline engine limits checkpoint current)
      (BaselineReconstructionOutcome.Sound engine checkpoint current) := by
  have reconstruct : Keeps (ReviewAnalysisContext.Faithful engine.repository)
      (onLoader (reconstructReviewBaseline engine limits checkpoint current))
      (BaselineReconstructionOutcome.Sound engine checkpoint current) :=
    onLoader_keeps (reconstructReviewBaseline_keeps checkpoint current)
  rw [contextReconstructReviewBaseline]
  split
  · exact .bind (sourceWorkBytes_keeps _ _) fun _ _ =>
      .bind (consumeProcessedSourceBytes_keeps _) fun _ _ => reconstruct
  · exact reconstruct

theorem independentFourWayReplayMatches_keeps (checkpoint current : GitChange) :
    Keeps (ReviewAnalysisContext.Faithful engine.repository)
      (independentFourWayReplayMatches engine limits checkpoint current)
      fun matched => matched = true →
        ∃ bytes, FourWayReplay engine checkpoint current bytes bytes := by
  refine .bind (contextReconstructReviewBaseline_keeps _ _) fun outcome sound => ?_
  split
  · next reconstruction =>
    refine .pure fun same => ⟨reconstruction.baseline, ?_⟩
    have replay := sound.replay _ rfl
    rwa [← of_decide_eq_true same] at replay
  · exact .pure nofun

end

end Stratadiff
