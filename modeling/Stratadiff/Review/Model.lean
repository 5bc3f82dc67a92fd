import Stratadiff.Git.Repository
import Stratadiff.Patch.Create

/-!
# The data of a repository review

The types of `review.rs` that a review and its resume delta are made of, and the
discovery of the changes between two commits.

What the structural analysis finds in a file (`FileAnalysis`) is the business of
other modules. Here only the lane and the priority it assigns are read, to order
the files; the counts of a review's summary and the evidence attached to a file
are not modelled.
-/

namespace Stratadiff

inductive PathEncoding where
  | utf8
  | gitBytesPercentEncoded
  deriving DecidableEq, Repr

structure GitPath where
  display : String
  encoding : PathEncoding
  deriving DecidableEq, Repr

abbrev GitChange := Change GitPath

inductive ReviewLane where
  | reviewFirst
  | syntaxPreserved
  | contentPreserved
  | unverified
  deriving DecidableEq, Repr

inductive ReviewPriority where
  | reviewFirst
  | evidenceFollowUp
  deriving DecidableEq, Repr

inductive CheckpointState where
  | needsReviewNow
  | unchangedSinceCheckpoint
  deriving DecidableEq, Repr

inductive CheckpointCarryBasis where
  | exactGitChangeIdentity
  | exactNoninteractingFourWayByteReplay
  deriving DecidableEq, Repr

inductive ReviewDeltaComparison where
  | checkpointToHead
  | perFileReviewBaselineToHead
  deriving DecidableEq, Repr

inductive ReviewDeltaBaselineBasis where
  | checkpointSnapshot
  | currentBaseNoCheckpointChange
  | reconstructedReviewBaseline
  | currentBaseFallback
  | checkpointHeadFallback
  deriving DecidableEq, Repr

inductive ReviewDeltaFallbackReason where
  | overlapOrAdjacent
  | binaryNul
  | sourceUnavailable
  | unsupportedChange
  | translationFailed
  | replayOrdersMismatch
  deriving DecidableEq, Repr

structure LineChangeEnvelope where
  additions : Nat
  deletions : Nat
  deriving DecidableEq, Repr

structure ReviewFile where
  status : FileStatus
  similarityPercent : Option Nat
  beforePath : Option String
  beforePathEncoding : Option PathEncoding
  afterPath : Option String
  afterPathEncoding : Option PathEncoding
  beforeMode : Option String
  afterMode : Option String
  beforeBlob : Option String
  afterBlob : Option String
  beforeBytes : Option Nat
  afterBytes : Option Nat
  lineChangeEnvelope : Option LineChangeEnvelope
  language : Option String
  priority : ReviewPriority
  lane : ReviewLane
  checkpointState : Option CheckpointState
  checkpointMatchBasis : Option CheckpointCarryBasis
  reason : String
  deriving DecidableEq, Repr

def ReviewFile.displayPath (file : ReviewFile) : String :=
  match file.beforePath, file.afterPath with
  | some before, some after => if before ≠ after then before ++ " -> " ++ after else after
  | none, some after => after
  | some before, none => before
  | none, none => "<unknown>"

structure ReviewCheckpoint where
  commit : String
  baseCommit : String
  deriving DecidableEq, Repr

structure RepositoryReview where
  baseCommit : String
  headCommit : String
  checkpoint : Option ReviewCheckpoint
  files : List ReviewFile
  deriving DecidableEq, Repr

/-- What the structural analysis says about one pair of sources. -/
structure FileAnalysis where
  lane : ReviewLane
  priority : ReviewPriority
  reason : String
  deriving DecidableEq, Repr

/-- Everything outside this code that a review consults. -/
structure Engine where
  repository : Repository
  captureDiffSlices : CaptureDiffSlices
  blake3 : Bytes → String
  detectLanguage : String → Except String String
  /-- The analysis of two sources of one language. -/
  analyze : (beforePath afterPath language : String) → Bytes → Bytes → FileAnalysis
  /-- The analysis of a reconstructed baseline against the head. -/
  analyzeReconstructed : (beforePath afterPath language : String) → Bytes → Bytes → FileAnalysis

def maxReviewFiles : Nat := 1000
def maxReviewTotalSourceBytes : Nat := 128 * 1024 * 1024
def maxReviewTotalLineStatBytes : Nat := 128 * 1024 * 1024
def maxGitRawDiffBytes : Nat := 16 * 1024 * 1024

/-- `is_object_id`: a hexadecimal SHA-1 or SHA-256. -/
def isObjectId (value : String) : Bool :=
  (value.toList.length = 40 || value.toList.length = 64) && value.toList.all isAsciiHexdigit

/-! ## Paths -/

def hexDigit (digit : Nat) : Char :=
  if digit < 10 then Char.ofNat (48 + digit) else Char.ofNat (55 + digit)

def percentEncodeGitPath (bytes : Bytes) : String :=
  String.ofList ("git-bytes:".toList ++
    bytes.flatMap fun byte => ['%', hexDigit (byte.toNat / 16), hexDigit (byte.toNat % 16)])

/-- The path of a record: its text, or a reversible label when it is not UTF-8. -/
def gitPath (bytes : Bytes) : GitPath :=
  match utf8? bytes with
  | some path => ⟨path, .utf8⟩
  | none => ⟨percentEncodeGitPath bytes, .gitBytesPercentEncoded⟩

theorem utf8?_injective {bytes bytes' : Bytes} {text : String} (h : utf8? bytes = some text)
    (h' : utf8? bytes' = some text) : bytes = bytes' := by
  have recover : ∀ {b : Bytes}, utf8? b = some text → b = utf8Bytes text := by
    intro b hb
    simp only [utf8?, String.fromUTF8?] at hb
    split at hb
    · cases hb
      rfl
    · cases hb
  rw [recover h, recover h']

theorem hexDigit_injective {a b : Nat} (ha : a < 16) (hb : b < 16) (h : hexDigit a = hexDigit b) :
    a = b := by
  have all : ∀ a : Fin 16, ∀ b : Fin 16, hexDigit a = hexDigit b → a = b := by decide
  exact Fin.mk.inj_iff.mp (all ⟨a, ha⟩ ⟨b, hb⟩ h)

theorem percentEncodeGitPath_injective : Function.Injective percentEncodeGitPath := by
  intro bytes bytes' h
  have labels := List.append_cancel_left (String.ofList_injective h)
  clear h
  induction bytes generalizing bytes' with
  | nil =>
      cases bytes' with
      | nil => rfl
      | cons byte bytes' => simp at labels
  | cons byte bytes ih =>
      cases bytes' with
      | nil => simp at labels
      | cons byte' bytes' =>
          simp only [List.flatMap_cons, List.cons_append, List.nil_append, List.cons.injEq,
            true_and] at labels
          obtain ⟨high, low, rest⟩ := labels
          have := byte.toNat_lt
          have := byte'.toNat_lt
          have high := hexDigit_injective (by omega) (by omega) high
          have low := hexDigit_injective (by omega) (by omega) low
          have same : byte = byte' := UInt8.toNat_inj.mp (by omega)
          rw [same, ih rest]

theorem gitPath_injective : Function.Injective gitPath := by
  intro bytes bytes' h
  unfold gitPath at h
  split at h
  · next text valid =>
    split at h
    · next text' valid' =>
      simp only [GitPath.mk.injEq, and_true] at h
      exact utf8?_injective valid (h ▸ valid')
    · simp at h
  · split at h
    · simp at h
    · simp only [GitPath.mk.injEq, and_true] at h
      exact percentEncodeGitPath_injective h

/-! ## Discovering changes -/

def parseSimilarity (status : List Char) : Result Nat := do
  let value ← Result.ofOption (.invalid "invalid rename or copy similarity")
    (parseU8 (status.drop 1))
  Result.ensure (value ≤ 100) (.invalid s!"git similarity exceeds 100%: {value}")
  return value

def nextPath (bytes : Bytes) : Result GitPath := do
  Result.ensure (bytes ≠ []) (.invalid "git diff path is empty")
  return gitPath bytes

/-- The raw diff as `review.rs` reads it. -/
def reviewDiffFormat (maxFiles : Nat) : RawDiffFormat GitPath where
  nextPath
  missingPath := "git diff record is missing a path"
  checkHeader _ _ _ _ := .ok ()
  parseSimilarity
  recordName := "git diff record"
  maxChanges := maxFiles
  limitMessage observed :=
    s!"changed file limit exceeded: observed at least {observed}, limit {maxFiles}"

def parseRawDiff (bytes : Bytes) (maxFiles : Nat) : Result (List GitChange) :=
  parseRawDiffWith (reviewDiffFormat maxFiles) bytes

def pairUniqueExactRelocations (changes : List GitChange) : List GitChange :=
  pairRelocations changes

/-- Order of the changes by `git_change_sort_key`. -/
def gitChangeBefore (left right : GitChange) : Bool :=
  let display (path : Option GitPath) : String := (path.map GitPath.display).getD ""
  (compare (display left.beforePath) (display right.beforePath)
    |>.then (compare (display left.afterPath) (display right.afterPath))
    |>.then (compare (fileStatusRank left.status) (fileStatusRank right.status))
    |>.then (compare (left.beforeBlob.getD "") (right.beforeBlob.getD ""))
    |>.then (compare (left.afterBlob.getD "") (right.afterBlob.getD ""))).isLE

def parseGitChangeOutput (stdout : Bytes) : Result (List GitChange) := do
  let changes ← parseRawDiff stdout (maxReviewFiles * 2)
  let changes := pairUniqueExactRelocations changes
  let observed := changes.length
  Result.ensure (changes.length ≤ maxReviewFiles)
    (.limit s!"changed file limit exceeded: observed {observed}, limit {maxReviewFiles}")
  return changes.insertionSort (fun left right => gitChangeBefore left right)

end Stratadiff
