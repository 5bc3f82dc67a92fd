import Stratadiff.Git.Change
import Stratadiff.Lib.Fallible

/-!
# The value log

The events of `value_funnel.rs` and the state machine that decides which sequences of
them make a funnel. A `HashMap` is the list of its insertions, newest first, and a
`HashSet` the list of its members.
-/

namespace Stratadiff.Value

inductive FailureStage where
  | beforeTransitionBound
  | beforeCoverage
  | beforeWorkbenchReady
  | afterWorkbenchReady
  deriving DecidableEq, Repr

inductive FunnelEvent where
  | baseline (scanId : String) (inspectedCandidates completedReviewPrs : Nat)
      (collectionComplete : Bool)
  | coveredTransition (transitionId attemptId : String)
  | gapDiscovery (scanId transitionId : String)
  | inboxDelivery (scanId : String)
  | resumeInvoked (transitionId attemptId : String)
  | transitionBound (transitionId attemptId : String)
  | workbenchReady (transitionId attemptId : String)
  | attemptFailed (transitionId attemptId : String) (stage : FailureStage)
  deriving DecidableEq, Repr

structure UnsignedEvent where
  schema : String
  toolVersion : String
  sequence : Nat
  observedAtUnixSeconds : Nat
  eventId : String
  previousEventSha256 : String
  event : FunnelEvent
  deriving DecidableEq, Repr

structure StoredEvent extends UnsignedEvent where
  eventSha256 : String
  deriving DecidableEq, Repr

def eventSchema : String := "stratadiff-value-funnel-event-v1"
def zeroSha256 : String := "0000000000000000000000000000000000000000000000000000000000000000"
def maxLogBytes : Nat := 16 * 1024 * 1024
def maxEvents : Nat := 100000
def maxBaselineCandidates : Nat := 100

/-- `CARGO_PKG_VERSION`. -/
def packageVersion : String := "0.5.0"

def FunnelEvent.kind : FunnelEvent → String
  | baseline .. => "baseline"
  | coveredTransition .. => "covered_transition"
  | gapDiscovery .. => "gap_discovery"
  | inboxDelivery .. => "inbox_delivery"
  | resumeInvoked .. => "resume_invoked"
  | transitionBound .. => "transition_bound"
  | workbenchReady .. => "workbench_ready"
  | attemptFailed .. => "attempt_failed"

def FunnelEvent.businessKey : FunnelEvent → String
  | baseline scanId _ _ _ => scanId
  | gapDiscovery scanId transitionId => scanId ++ "\x00" ++ transitionId
  | inboxDelivery scanId => scanId
  | coveredTransition _ attemptId => attemptId
  | resumeInvoked _ attemptId => attemptId
  | transitionBound _ attemptId => attemptId
  | workbenchReady _ attemptId => attemptId
  | attemptFailed _ attemptId _ => attemptId

/-- `require_sha256`: 64 lowercase hexadecimal digits. -/
def requireSha256 (value label : String) : Result Unit :=
  .ensure (value.toList.length = 64 ∧
      value.toList.all (fun c => c.isDigit || ('a' ≤ c ∧ c ≤ 'f')) = true)
    (.invalid (label ++ " must be 64 lowercase hexadecimal characters"))

def validatePayload : FunnelEvent → Result Unit
  | .baseline scanId inspectedCandidates completedReviewPrs _ => do
      requireSha256 scanId "scan ID"
      Result.ensure (inspectedCandidates ≤ maxBaselineCandidates)
        (.invalid "baseline inspected candidate count exceeds 100")
      Result.ensure (completedReviewPrs ≤ inspectedCandidates)
        (.invalid "baseline completed review count exceeds inspected candidates")
  | .gapDiscovery scanId transitionId => do
      requireSha256 scanId "scan ID"
      requireSha256 transitionId "transition ID"
  | .inboxDelivery scanId => requireSha256 scanId "scan ID"
  | .coveredTransition transitionId attemptId
  | .resumeInvoked transitionId attemptId
  | .transitionBound transitionId attemptId
  | .workbenchReady transitionId attemptId
  | .attemptFailed transitionId attemptId _ => do
      requireSha256 transitionId "transition ID"
      requireSha256 attemptId "attempt ID"

def isSemver (value : String) : Bool :=
  let parts := value.toList.splitOn '.'
  parts.length = 3 && parts.all fun part =>
    !part.isEmpty && part.all Char.isDigit && (part == ['0'] || part.head? != some '0')

/-! ## The funnel -/

structure ScanValidationState where
  completedReviewPrs : Nat
  gapCount : Nat
  deliveryConfirmed : Bool
  deriving DecidableEq, Repr

structure AttemptValidationState where
  transitionId : String
  transitionBound : Bool
  covered : Bool
  workbenchReady : Bool
  failed : Bool
  deriving DecidableEq, Repr

structure FunnelValidationState where
  scans : List (String × ScanValidationState)
  gaps : List String
  attempts : List (String × AttemptValidationState)
  deriving DecidableEq, Repr

def FunnelValidationState.default : FunnelValidationState := ⟨[], [], []⟩

def AttemptValidationState.ensureActive (attempt : AttemptValidationState) : Result Unit :=
  .ensure (attempt.failed = false)
    (.invalid "resume attempt is terminal after a recorded failure")

def AttemptValidationState.failureStage (attempt : AttemptValidationState) : FailureStage :=
  if attempt.workbenchReady then .afterWorkbenchReady
  else if attempt.covered then .beforeWorkbenchReady
  else if attempt.transitionBound then .beforeCoverage
  else .beforeTransitionBound

namespace FunnelValidationState

/-- `attempt_mut`: the attempt, when it is one for the transition. -/
def attempt? (state : FunnelValidationState) (transitionId attemptId : String) :
    Option AttemptValidationState :=
  (state.attempts.lookup attemptId).filter fun attempt => attempt.transitionId = transitionId

def setScan (state : FunnelValidationState) (scanId : String) (scan : ScanValidationState) :
    FunnelValidationState :=
  { state with scans := (scanId, scan) :: state.scans }

def setAttempt (state : FunnelValidationState) (attemptId : String)
    (attempt : AttemptValidationState) : FunnelValidationState :=
  { state with attempts := (attemptId, attempt) :: state.attempts }

def apply (state : FunnelValidationState) : FunnelEvent → Result FunnelValidationState
  | .baseline scanId _ completedReviewPrs _ => do
      Result.ensure (state.scans.lookup scanId = none)
        (.invalid "value log contains a duplicate scan baseline")
      return state.setScan scanId ⟨completedReviewPrs, 0, false⟩
  | .gapDiscovery scanId transitionId => do
      let scan ← Result.ofOption (.invalid "gap discovery is missing its scan baseline")
        (state.scans.lookup scanId)
      Result.ensure (scan.deliveryConfirmed = false)
        (.invalid "gap discovery follows delivery confirmation for its scan")
      Result.ensure (scan.gapCount < scan.completedReviewPrs)
        (.invalid "gap discovery count exceeds completed reviews for its scan")
      let state := state.setScan scanId { scan with gapCount := scan.gapCount + 1 }
      return { state with gaps := transitionId :: state.gaps }
  | .inboxDelivery scanId => do
      let scan ← Result.ofOption (.invalid "Inbox delivery is missing its scan baseline")
        (state.scans.lookup scanId)
      Result.ensure (scan.deliveryConfirmed = false)
        (.invalid "value log contains a duplicate Inbox delivery")
      return state.setScan scanId { scan with deliveryConfirmed := true }
  | .resumeInvoked transitionId attemptId => do
      Result.ensure (transitionId ∈ state.gaps)
        (.invalid "resume invocation does not reference a discovered gap")
      Result.ensure (state.attempts.lookup attemptId = none)
        (.invalid "value log contains a duplicate resume attempt")
      return state.setAttempt attemptId ⟨transitionId, false, false, false, false⟩
  | .transitionBound transitionId attemptId => do
      let attempt ← Result.ofOption
        (.invalid "bound transition does not reference a resume invocation")
        (state.attempt? transitionId attemptId)
      attempt.ensureActive
      return state.setAttempt attemptId { attempt with transitionBound := true }
  | .coveredTransition transitionId attemptId => do
      let attempt ← Result.ofOption
        (.invalid "covered transition does not reference a bound transition")
        ((state.attempt? transitionId attemptId).filter (·.transitionBound))
      attempt.ensureActive
      return state.setAttempt attemptId { attempt with covered := true }
  | .workbenchReady transitionId attemptId => do
      let attempt ← Result.ofOption
        (.invalid "workbench readiness does not reference a covered transition")
        ((state.attempt? transitionId attemptId).filter (·.covered))
      attempt.ensureActive
      return state.setAttempt attemptId { attempt with workbenchReady := true }
  | .attemptFailed transitionId attemptId stage => do
      let attempt ← Result.ofOption
        (.invalid "failed attempt does not reference a resume invocation")
        (state.attempt? transitionId attemptId)
      Result.ensure (stage = attempt.failureStage)
        (.invalid "failed attempt stage does not match its completed funnel stages")
      return state.setAttempt attemptId { attempt with failed := true }

end FunnelValidationState

end Stratadiff.Value
