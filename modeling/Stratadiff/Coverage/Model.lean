import Stratadiff.Review.Resume
import Stratadiff.Coverage.Ownership

/-!
# Review coverage

`coverage.rs` after the Git analysis: the requirements of a pull request are its current
changes and the residue that checkpoints leave at paths no current change has; a
requirement is covered by a receipt of one of the owners of its path whose checkpoint
proof carries it.
-/

namespace Stratadiff

def PathEncoding.rank : PathEncoding → Nat
  | utf8 => 0
  | gitBytesPercentEncoded => 1

structure ReviewChangeIdentity where
  status : FileStatus
  similarityPercent : Option Nat
  beforePath : Option String
  beforePathEncoding : Option PathEncoding
  afterPath : Option String
  afterPathEncoding : Option PathEncoding
  beforeMode : Option String
  afterMode : Option String
  beforeBlob : Option String
  afterBlob : Option String
  deriving DecidableEq, Repr

/-- The derived order: the fields one after another. -/
def ReviewChangeIdentity.compare (left right : ReviewChangeIdentity) : Ordering :=
  Ord.compare (fileStatusRank left.status) (fileStatusRank right.status)
    |>.then (Ord.compare left.similarityPercent right.similarityPercent)
    |>.then (Ord.compare left.beforePath right.beforePath)
    |>.then (Ord.compare (left.beforePathEncoding.map (·.rank))
      (right.beforePathEncoding.map (·.rank)))
    |>.then (Ord.compare left.afterPath right.afterPath)
    |>.then (Ord.compare (left.afterPathEncoding.map (·.rank))
      (right.afterPathEncoding.map (·.rank)))
    |>.then (Ord.compare left.beforeMode right.beforeMode)
    |>.then (Ord.compare left.afterMode right.afterMode)
    |>.then (Ord.compare left.beforeBlob right.beforeBlob)
    |>.then (Ord.compare left.afterBlob right.afterBlob)

def ReviewFile.changeIdentity (file : ReviewFile) : ReviewChangeIdentity :=
  ⟨file.status, file.similarityPercent, file.beforePath, file.beforePathEncoding, file.afterPath,
    file.afterPathEncoding, file.beforeMode, file.afterMode, file.beforeBlob, file.afterBlob⟩

/-- The path a change is owned at: the new one, or the old one of a deletion. -/
def ReviewFile.ownershipPath (file : ReviewFile) : Option (String × PathEncoding) :=
  let zip (path : Option String) (encoding : Option PathEncoding) :=
    path.bind fun path => encoding.map fun encoding => (path, encoding)
  (zip file.afterPath file.afterPathEncoding).or (zip file.beforePath file.beforePathEncoding)

namespace Coverage

open Ledger (GithubReviewReceipt eqIgnoreAsciiCase)

structure CarriedChange where
  change : ReviewChangeIdentity
  basis : CheckpointCarryBasis
  deriving DecidableEq, Repr

inductive CheckpointCoverageProofResult where
  | verified (carriedChanges : List CarriedChange) (reviewDelta : ReviewDelta)
  | unavailable (reason : String)
  deriving DecidableEq, Repr

structure CheckpointCoverageProof where
  checkpointCommit : String
  reviewIds : List Nat
  reviewerIds : List Nat
  result : CheckpointCoverageProofResult
  deriving DecidableEq, Repr

inductive FileCoverageState where
  | covered
  | needsReview
  | blocked
  deriving DecidableEq, Repr

inductive CoverageFileScope where
  | currentChange
  | retiredResidue
  deriving DecidableEq, Repr

def scopeRank : CoverageFileScope → Nat
  | .currentChange => 0
  | .retiredResidue => 1

structure OwnerCoverage where
  owner : CodeownerIdentity
  eligibleReviewerIds : List Nat
  activeReviewIds : List Nat
  coveringReviewIds : List Nat
  blockers : List String
  deriving DecidableEq, Repr

structure FileCoverage where
  scope : CoverageFileScope
  change : ReviewChangeIdentity
  path : String
  pathEncoding : PathEncoding
  matchingRule : Option CodeownerRuleMatch
  ownerAlternatives : List OwnerCoverage
  state : FileCoverageState
  reason : String
  deriving DecidableEq, Repr

structure UnresolvedCoverage where
  checkpointCommit : String
  path : String
  pathEncoding : PathEncoding
  reason : String
  deriving DecidableEq, Repr

structure ReviewCoverageSummary where
  currentFiles : Nat
  retiredResidueFiles : Nat
  unresolvedResidue : Nat
  totalRequirements : Nat
  coveredFiles : Nat
  needsReviewFiles : Nat
  blockedFiles : Nat
  activeReviewReceipts : Nat
  uniqueCheckpointProofs : Nat
  gatePassed : Bool
  deriving DecidableEq, Repr

def maxReviewCoverageRequirements : Nat := 1000
def maxReviewCoverageOwnerCells : Nat := 10000
def maxReviewCoverageExpandedCells : Nat := 50000
def maxReviewCoverageOwnerResultItems : Nat := 10000

/-- What coverage is computed from. -/
structure CoverageInput where
  /-- The current changes. -/
  files : List ReviewFile
  policy : Except String CodeownersPolicy
  ownership : GithubOwnershipIndex
  /-- The active receipts, one for each reviewer. -/
  receipts : List GithubReviewReceipt
  /-- The proofs, one for each checkpoint commit. -/
  proofs : List CheckpointCoverageProof

namespace CoverageInput

def receiptByReviewer (input : CoverageInput) (id : Nat) : Option GithubReviewReceipt :=
  lastWith (·.reviewerId) input.receipts id

def proofByCheckpoint (input : CoverageInput) (commit : String) : Option CheckpointCoverageProof :=
  lastWith (·.checkpointCommit) input.proofs commit

def currentIdentities (input : CoverageInput) : List ReviewChangeIdentity :=
  input.files.map (·.changeIdentity)

def currentPaths (input : CoverageInput) : List (String × PathEncoding) :=
  input.files.filterMap (·.ownershipPath)

end CoverageInput

/-! ## Requirements -/

def checkedCount (what limitText : String) (limit current additional : Nat) : Result Nat := do
  let observed ← Result.ofOption (.invalid ("review coverage " ++ what ++ " count overflow"))
    (checkedAdd current additional)
  Result.ensure (observed ≤ limit) (.invalid ("review coverage " ++ what ++
    " limit exceeded: observed at least " ++ toString observed ++ ", limit " ++ limitText))
  return observed

def checkedRequirementCount : Nat → Nat → Result Nat :=
  checkedCount "requirement" "1000" maxReviewCoverageRequirements

def checkedOwnerCellCount : Nat → Nat → Result Nat :=
  checkedCount "owner cell" "10000" maxReviewCoverageOwnerCells

/-- The residue found so far, in the order of its keys. -/
structure Residue where
  requirementCount : Nat
  retiredPaths : List ((String × PathEncoding) × ReviewChangeIdentity)
  unresolved : List UnresolvedCoverage
  deriving DecidableEq, Repr

def retiredBefore (left right : (String × PathEncoding) × ReviewChangeIdentity) : Bool :=
  (compare left.1.1 right.1.1 |>.then (compare left.1.2.rank right.1.2.rank)).isLE

def unresolvedBefore (left right : UnresolvedCoverage) : Bool :=
  (compare left.checkpointCommit right.checkpointCommit
    |>.then (compare left.path right.path)
    |>.then (compare left.pathEncoding.rank right.pathEncoding.rank)
    |>.then (compare left.reason right.reason)).isLE

/-- The Debug name of the reason, in lower case. -/
def unresolvedReasonText : ReviewDeltaUnresolvedReason → String
  | .nonUtf8GitPath => "nonutf8gitpath"

namespace CoverageInput

def addEntry (input : CoverageInput) (residue : Residue) (entry : ReviewDeltaFile) :
    Result Residue :=
  let identity := entry.file.changeIdentity
  if identity ∈ input.currentIdentities then .ok residue
  else match entry.file.ownershipPath with
    | none => .ok residue
    | some key =>
        if key ∈ input.currentPaths then .ok residue
        else if key ∈ residue.retiredPaths.map Prod.fst then .ok residue
        else do
          let requirementCount ← checkedRequirementCount residue.requirementCount 1
          return { residue with
            requirementCount
            retiredPaths := residue.retiredPaths.orderedInsert
              (fun left right => retiredBefore left right) (key, identity) }

def addUnresolved (input : CoverageInput) (checkpointCommit : String) (residue : Residue)
    (change : ReviewDeltaUnresolvedChange) : Result Residue :=
  if (change.path, change.pathEncoding) ∈ input.currentPaths then .ok residue
  else
    let unresolved : UnresolvedCoverage := ⟨checkpointCommit, change.path, change.pathEncoding,
      unresolvedReasonText change.reason⟩
    if unresolved ∈ residue.unresolved then .ok residue
    else do
      let requirementCount ← checkedRequirementCount residue.requirementCount 1
      return { residue with
        requirementCount
        unresolved := residue.unresolved.orderedInsert
          (fun left right => unresolvedBefore left right) unresolved }

def addProof (input : CoverageInput) (residue : Residue) (proof : CheckpointCoverageProof) :
    Result Residue :=
  match proof.result with
  | .unavailable _ => .ok residue
  | .verified _ delta => do
      let residue ← delta.entries.foldlM input.addEntry residue
      delta.unresolvedRetiredChanges.foldlM (input.addUnresolved proof.checkpointCommit) residue

def collectResidue (input : CoverageInput) : Result Residue := do
  let requirementCount ← checkedRequirementCount 0 input.files.length
  input.proofs.foldlM input.addProof ⟨requirementCount, [], []⟩

end CoverageInput

def preflightOwnerCells (policy : Except String CodeownersPolicy) :
    Nat → List (String × PathEncoding) → Result Unit
  | _, [] => .ok ()
  | ownerCells, (path, encoding) :: paths =>
      match policy with
      | .error _ => .ok ()
      | .ok loaded =>
          if encoding ≠ .utf8 then preflightOwnerCells policy ownerCells paths
          else match loaded.matchingOwnerCount path with
            | .ok (some additional) => do
                let ownerCells ← checkedOwnerCellCount ownerCells additional
                preflightOwnerCells policy ownerCells paths
            | _ => preflightOwnerCells policy ownerCells paths

/-! ## One requirement -/

/-- Whether a path is left with nothing to look at. -/
def leavesNoResidue (delta : ReviewDelta) (path : String) : Bool :=
  !(delta.entries.any fun entry => entry.file.ownershipPath.any fun owned => owned.1 = path) &&
    !(delta.unresolvedRetiredChanges.any fun entry => entry.path = path)

def proofCovers (result : CheckpointCoverageProofResult) (scope : CoverageFileScope)
    (change : ReviewChangeIdentity) (path : String) : Except String Bool :=
  match result with
  | .unavailable reason => .error reason
  | .verified carried delta =>
      match scope with
      | .currentChange => .ok (carried.any fun carried => carried.change = change)
      | .retiredResidue => .ok (leavesNoResidue delta path)

/-- The owners resolved so far and the room they took. -/
structure Expansion where
  resolutionCache : List (CodeownerIdentity × Except String (List Nat))
  expandedCells : Nat

def reserve (additional : Nat) : Run Expansion Unit := do
  let expansion ← get
  let observed ← Run.lift (.ofOption (.invalid "review coverage expanded cell count overflow")
    (checkedAdd expansion.expandedCells additional))
  Run.lift (.ensure (observed ≤ maxReviewCoverageExpandedCells)
    (.invalid ("review coverage expanded cell limit exceeded: observed at least " ++
      toString observed ++ ", limit 50000")))
  modify fun expansion => { expansion with expandedCells := observed }

def ensureOwnerResultCount (observed : Nat) (field : String) : Result Unit :=
  .ensure (observed ≤ maxReviewCoverageOwnerResultItems)
    (.invalid ("review coverage " ++ field ++ " item limit exceeded: observed " ++
      toString observed ++ ", limit 10000"))

def reserveResolvedOwner (reviewerCount : Nat) : Run Expansion Unit := do
  Run.lift (ensureOwnerResultCount reviewerCount "eligible_reviewer_ids")
  let additional ← Run.lift (.ofOption
    (.invalid "review coverage expanded cell count overflow") (checkedMul reviewerCount 4))
  reserve additional

def reserveResolutionBlocker : Run Expansion Unit := reserve 1

namespace CoverageInput

variable (input : CoverageInput)

def resolveOwner (owner : CodeownerIdentity) : Run Expansion (Except String (List Nat)) := do
  match (← get).resolutionCache.lookup owner with
  | some resolution => return resolution
  | none =>
      let resolution := (input.ownership.resolve owner).mapError (·.text)
      modify fun expansion =>
        { expansion with resolutionCache := (owner, resolution) :: expansion.resolutionCache }
      return resolution

/-- One reviewer that may review for an owner. -/
def visitReviewer (scope : CoverageFileScope) (change : ReviewChangeIdentity) (path : String)
    (alternative : OwnerCoverage) (reviewerId : Nat) : OwnerCoverage :=
  let block (text : String) := { alternative with blockers := alternative.blockers ++ [text] }
  match input.receiptByReviewer reviewerId with
  | none => alternative
  | some receipt =>
      match input.ownership.user reviewerId with
      | none => block ("ownership snapshot is missing reviewer ID " ++ toString reviewerId)
      | some user =>
          if !eqIgnoreAsciiCase user.login receipt.reviewerLogin then
            block ("review receipt " ++ toString receipt.reviewId ++ " login " ++
              receipt.reviewerLogin ++ " conflicts with ownership identity " ++ user.login)
          else
            let alternative := { alternative with
              activeReviewIds := alternative.activeReviewIds ++ [receipt.reviewId] }
            match input.proofByCheckpoint receipt.commitId with
            | none => { alternative with blockers := alternative.blockers ++
                ["review receipt " ++ toString receipt.reviewId ++ " has no checkpoint proof"] }
            | some proof =>
                match proofCovers proof.result scope change path with
                | .ok true => { alternative with
                    coveringReviewIds := alternative.coveringReviewIds ++ [receipt.reviewId] }
                | .ok false => alternative
                | .error reason => { alternative with blockers := alternative.blockers ++
                    ["review receipt " ++ toString receipt.reviewId ++
                      " checkpoint proof is unavailable: " ++ reason] }

def sortedIds (ids : List Nat) : List Nat := ids.insertionSort (· ≤ ·)

def ownerAlternative (scope : CoverageFileScope) (change : ReviewChangeIdentity) (path : String)
    (owner : CodeownerIdentity) : Run Expansion OwnerCoverage := do
  match ← input.resolveOwner owner with
  | .ok reviewerIds => do
      reserveResolvedOwner reviewerIds.length
      return reviewerIds.foldl (input.visitReviewer scope change path)
        ⟨owner, reviewerIds, [], [], []⟩
  | .error error => do
      reserveResolutionBlocker
      return ⟨owner, [], [], [], [error]⟩

def checkedAlternative (alternative : OwnerCoverage) : Result OwnerCoverage := do
  ensureOwnerResultCount alternative.eligibleReviewerIds.length "eligible_reviewer_ids"
  ensureOwnerResultCount alternative.activeReviewIds.length "active_review_ids"
  ensureOwnerResultCount alternative.coveringReviewIds.length "covering_review_ids"
  ensureOwnerResultCount alternative.blockers.length "blockers"
  return { alternative with
    activeReviewIds := sortedIds alternative.activeReviewIds
    coveringReviewIds := sortedIds alternative.coveringReviewIds }

def evaluateOwner (scope : CoverageFileScope) (change : ReviewChangeIdentity) (path : String)
    (owner : CodeownerIdentity) : Run Expansion OwnerCoverage := do
  let alternative ← input.ownerAlternative scope change path owner
  Run.lift (checkedAlternative alternative)

def blockedFile (change : ReviewChangeIdentity) (path : String) (encoding : PathEncoding)
    (scope : CoverageFileScope) (rule : Option CodeownerRuleMatch) (reason : String) :
    FileCoverage :=
  ⟨scope, change, path, encoding, rule, [], .blocked, reason⟩

/-- The state of a requirement with its alternatives evaluated. -/
def stateOf (alternatives : List OwnerCoverage) : FileCoverageState × String :=
  if alternatives.any fun alternative => alternative.coveringReviewIds ≠ [] then
    (.covered, "at least one authorized owner has an active receipt whose exact checkpoint " ++
      "proof carries this complete Git change identity")
  else if alternatives.any fun alternative => alternative.blockers ≠ [] then
    (.blocked, "ownership or checkpoint evidence is incomplete; coverage fails closed")
  else
    (.needsReview, "no authorized owner has an active review receipt carrying this complete Git " ++
      "change identity")

def evaluateChangeCoverage (change : ReviewChangeIdentity) (path : String)
    (encoding : PathEncoding) (scope : CoverageFileScope) : Run Expansion FileCoverage :=
  if encoding ≠ .utf8 then
    return blockedFile change path encoding scope none
      "non-UTF-8 Git paths cannot be matched against CODEOWNERS"
  else match input.policy with
    | .error reason => return blockedFile change path encoding scope none reason
    | .ok policy =>
        match policy.resolveUtf8Path path with
        | .error error => return blockedFile change path encoding scope none error
        | .ok none =>
            return blockedFile change path encoding scope none
              "no CODEOWNERS rule matches this review requirement"
        | .ok (some rule) =>
            if rule.ownerAlternatives = [] then
              return blockedFile change path encoding scope (some rule)
                "the winning CODEOWNERS rule explicitly leaves this file unowned"
            else do
              let alternatives ← rule.ownerAlternatives.mapM (input.evaluateOwner scope change path)
              let (state, reason) := stateOf alternatives
              return ⟨scope, change, path, encoding, some rule, alternatives, state, reason⟩

def evaluateFileCoverage (file : ReviewFile) : Run Expansion FileCoverage :=
  match file.ownershipPath with
  | none =>
      return blockedFile file.changeIdentity "<unknown>" .utf8 .currentChange none
        "Git change has no path"
  | some (path, encoding) =>
      input.evaluateChangeCoverage file.changeIdentity path encoding .currentChange

/-! ## All requirements -/

def evaluateAll (retired : List ((String × PathEncoding) × ReviewChangeIdentity)) :
    Run Expansion (List FileCoverage) := do
  let current ← input.files.mapM input.evaluateFileCoverage
  let residue ← retired.mapM fun ((path, encoding), change) =>
    input.evaluateChangeCoverage change path encoding .retiredResidue
  return current ++ residue

end CoverageInput

def fileCoverageBefore (left right : FileCoverage) : Bool :=
  (compare left.path right.path
    |>.then (compare (scopeRank left.scope) (scopeRank right.scope))
    |>.then (left.change.compare right.change)).isLE

def countState (state : FileCoverageState) (files : List FileCoverage) : Nat :=
  files.countP fun file => file.state = state

structure CoverageReport where
  files : List FileCoverage
  unresolvedResidue : List UnresolvedCoverage
  summary : ReviewCoverageSummary
  deriving DecidableEq, Repr

/-- `compute_review_coverage_body` from the requirements to the summary. -/
def CoverageInput.assess (input : CoverageInput) : Result CoverageReport := do
  let residue ← input.collectResidue
  preflightOwnerCells input.policy 0 (input.currentPaths ++ residue.retiredPaths.map Prod.fst)
  let files ← (Run.outcome (input.evaluateAll residue.retiredPaths) ⟨[], 0⟩).1
  let files := files.insertionSort fun left right => fileCoverageBefore left right
  let unresolved := residue.unresolved
  let blockedFiles ← Result.ofOption
    (.invalid "review coverage blocked requirement count overflow")
    (checkedAdd (countState .blocked files) unresolved.length)
  let totalRequirements ← Result.ofOption (.invalid "review coverage requirement count overflow")
    (checkedAdd files.length unresolved.length)
  Result.ensure (totalRequirements = residue.requirementCount)
    (.invalid "review coverage requirement accounting mismatch")
  return ⟨files, unresolved, ⟨input.files.length, residue.retiredPaths.length, unresolved.length,
    totalRequirements, countState .covered files, countState .needsReview files, blockedFiles,
    input.receipts.length, input.proofs.length,
    countState .covered files = totalRequirements⟩⟩

end Coverage

end Stratadiff
