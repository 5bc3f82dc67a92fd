import Stratadiff.Lib.Table

/-!
# The data of the governor

The rows of the governor's database, the events it ingests, and the leases its workers
hold. Rows are known by their places in their tables, where the database has ids.
Columns that no operation reads (creation and update times, the last delivery of a
row, attempts and errors of outbox items) are left out.

The constraints of the schema are in the types where one row decides them: a lease has
an owner and an expiry or neither, a row is quarantined when it names a delivery, a
pull-request gate has a pair and a merge-group gate has none.
-/

namespace Stratadiff.Governor

/-- Milliseconds. -/
abbrev Time := Int

abbrev PairId := Nat
abbrev GateId := Nat
abbrev OutboxId := Nat
abbrev WorkerId := String

structure RepositoryRef where
  installationId : Nat
  repositoryId : Nat
  fullName : String
  owner : String
  name : String
  deriving DecidableEq, Repr

inductive PullState where
  | opened
  | closed
  deriving DecidableEq, Repr

structure PullPairRef where
  number : Nat
  baseSha : String
  headSha : String
  state : PullState
  draft : Bool
  sourceUpdatedAt : Time
  deriving DecidableEq, Repr

structure LivePullRequest extends PullPairRef where
  merged : Bool
  deriving DecidableEq, Repr

/-! ## Evidence -/

inductive EvidenceKind where
  | issueComment
  | review
  | status
  deriving DecidableEq, Repr

/-- Who wrote a piece of evidence. -/
structure Author where
  id : Nat
  login : String
  kind : String
  htmlUrl : String
  deriving DecidableEq, Repr

/-- The facts that `events.ts` takes from a payload. -/
inductive Facts where
  | issueComment (author : Author) (createdAt updatedAt : Time) (fullReviewFinished : Bool)
      (commandInvocationId : Option String) (bodySha256 : String)
  | review (author : Author) (state commitId : String) (submittedAt : Time)
      (hasReviewMarker : Bool) (bodySha256 : Option String)
  | status (author : Author) (state context : String) (description avatarUrl : Option String)
      (createdAt : Time)
  deriving DecidableEq, Repr

namespace Facts

def kind : Facts → EvidenceKind
  | .issueComment .. => .issueComment
  | .review .. => .review
  | .status .. => .status

def author : Facts → Author
  | .issueComment author .. => author
  | .review author .. => author
  | .status author .. => author

end Facts

structure EvidenceInput where
  sourceId : Nat
  sourceUpdatedAt : Time
  valid : Bool
  facts : Facts
  deriving DecidableEq, Repr

structure EvidenceRecord extends EvidenceInput where
  pairId : PairId
  pairEpoch : Nat
  deriving DecidableEq, Repr

/-! ## Events -/

inductive MergeGroupAction where
  | checksRequested
  | destroyed
  deriving DecidableEq, Repr

inductive ReconcileReason where
  | push
  | malformedSignedEvent
  deriving DecidableEq, Repr

inductive GithubImpact where
  | pullRequest (repository : RepositoryRef) (pair : PullPairRef)
  | pullEvidence (repository : RepositoryRef) (pullNumber : Nat)
      (expectedHeadSha : Option String) (evidence : EvidenceInput)
  | shaEvidence (repository : RepositoryRef) (headSha : String) (evidence : EvidenceInput)
  | repositoryReconcile (repository : RepositoryRef) (reason : ReconcileReason)
  | mergeGroup (repository : RepositoryRef) (action : MergeGroupAction)
      (headSha baseSha headRef : String)
  | ignored (repository : RepositoryRef)
  deriving DecidableEq, Repr

structure IngestRequest where
  deliveryId : String
  eventName : String
  payloadSha256 : String
  receivedAt : Time
  impact : GithubImpact
  deriving DecidableEq, Repr

structure UnscopedQuarantineRequest where
  deliveryId : String
  eventName : String
  payloadSha256 : String
  receivedAt : Time
  deriving DecidableEq, Repr

inductive IngestDisposition where
  | applied
  | ignored
  | stale
  deriving DecidableEq, Repr

structure IngestResult where
  duplicate : Bool
  disposition : IngestDisposition
  touchedSubjects : List GateId
  deriving DecidableEq, Repr

/-! ## Rows -/

structure Lease where
  owner : WorkerId
  expiresAt : Time
  deriving DecidableEq, Repr

structure Pair where
  installationId : Nat
  repositoryId : Nat
  repositoryFullName : String
  pullNumber : Nat
  baseSha : String
  headSha : String
  epoch : Nat
  fence : Nat
  lease : Option Lease
  active : Bool
  /-- The delivery that quarantined the pair. -/
  quarantine : Option String
  draft : Bool
  state : PullState
  sourceUpdatedAt : Time
  deriving DecidableEq, Repr

inductive GateState where
  | revoked
  | pending
  | success
  | failure
  | cancelled
  deriving DecidableEq, Repr

/-- What a gate is about: its type and key, and the pair of a pull request. -/
inductive Subject where
  | pullRequest (number : Nat) (pairId : PairId)
  | mergeGroup (headRef : String)
  deriving DecidableEq, Repr

structure Gate where
  installationId : Nat
  repositoryId : Nat
  repositoryFullName : String
  subject : Subject
  epoch : Nat
  headSha : String
  baseSha : String
  active : Bool
  quarantine : Option String
  revision : Nat
  fence : Nat
  lease : Option Lease
  desiredState : GateState
  desiredSummary : String
  checkRunId : Option Nat
  publishedRevision : Option Nat
  publishedState : Option GateState
  deriving DecidableEq, Repr

inductive DispatchState where
  | planned
  | attempting
  | sent
  | abandoned
  deriving DecidableEq, Repr

/-- A command to the one provider there is. -/
structure Dispatch where
  pairId : PairId
  pairEpoch : Nat
  state : DispatchState
  commandCommentId : Option Nat
  dispatchedAt : Option Time
  evidenceDeadlineAt : Option Time
  plannedAt : Time
  deriving DecidableEq, Repr

/-- The topic of an outbox item, with its payload. -/
inductive OutboxPayload where
  | publishGate (subjectId : GateId) (epoch revision : Nat)
  | evaluatePair (pairId : PairId) (epoch gateRevision : Nat)
  | dispatchReview (pairId : PairId) (epoch : Nat)
  | reconcileRepository (repository : RepositoryRef) (deliveryId : String)
  deriving DecidableEq, Repr

inductive DedupeKey where
  | publish (gateId : GateId) (revision : Nat)
  | evaluate (pairId : PairId) (epoch revision : Nat)
  | evaluateTimeout (pairId : PairId) (epoch : Nat)
  | dispatch (pairId : PairId) (epoch : Nat)
  | reconcile (repositoryId : Nat) (deliveryId : String)
  deriving DecidableEq, Repr

structure OutboxItem where
  payload : OutboxPayload
  dedupeKey : DedupeKey
  availableAt : Time
  lease : Option Lease
  leaseFence : Nat
  completedAt : Option Time
  deriving DecidableEq, Repr

structure Delivery where
  deliveryId : String
  eventName : String
  payloadSha256 : String
  /-- Absent while the delivery is processing. -/
  disposition : Option IngestDisposition
  deriving DecidableEq, Repr

structure Collision where
  deliveryId : String
  eventName : String
  payloadSha256 : String
  deriving DecidableEq, Repr

structure Database where
  deliveries : List Delivery
  collisions : List Collision
  pairs : List Pair
  dispatches : List Dispatch
  evidence : List EvidenceRecord
  gates : List Gate
  outbox : List OutboxItem
  /-- Reconcile generations by repository. -/
  generations : List (Nat × Nat)
  deriving DecidableEq, Repr

def Database.empty : Database := ⟨[], [], [], [], [], [], [], []⟩

/-! ## Leases and snapshots -/

structure PairLease where
  pairId : PairId
  epoch : Nat
  fence : Nat
  workerId : WorkerId
  expiresAt : Time
  deriving DecidableEq, Repr

structure GateLease where
  subjectId : GateId
  epoch : Nat
  revision : Nat
  fence : Nat
  workerId : WorkerId
  expiresAt : Time
  deriving DecidableEq, Repr

structure OutboxLease where
  id : OutboxId
  payload : OutboxPayload
  fence : Nat
  workerId : WorkerId
  deriving DecidableEq, Repr

structure RepositorySnapshotToken where
  repository : RepositoryRef
  generation : Nat
  deriving DecidableEq, Repr

inductive RepositoryReconcileResult where
  | applied
  | stale
  deriving DecidableEq, Repr

structure PairSnapshot where
  id : PairId
  installationId : Nat
  repositoryId : Nat
  repositoryFullName : String
  pullNumber : Nat
  baseSha : String
  headSha : String
  epoch : Nat
  active : Bool
  quarantine : Option String
  draft : Bool
  state : PullState
  dispatch : Option Dispatch
  evidence : List EvidenceRecord
  deriving DecidableEq, Repr

def Pair.quarantined (pair : Pair) : Bool := pair.quarantine.isSome
def Gate.quarantined (gate : Gate) : Bool := gate.quarantine.isSome
def PairSnapshot.quarantined (snapshot : PairSnapshot) : Bool := snapshot.quarantine.isSome

/-- The pair whose gate this is. -/
def Gate.pairId (gate : Gate) : Option PairId :=
  match gate.subject with
  | .pullRequest _ pairId => some pairId
  | .mergeGroup _ => none

def Gate.isPullRequest (gate : Gate) (number : Nat) : Bool :=
  match gate.subject with
  | .pullRequest key _ => key == number
  | .mergeGroup _ => false

def Gate.isMergeGroup (gate : Gate) : Bool :=
  match gate.subject with
  | .pullRequest .. => false
  | .mergeGroup _ => true

end Stratadiff.Governor
