import Stratadiff.Value.Append

/-!
# The value report

The figures of a report are counted from the events of a log once more, in sets and sums of
their own. That they fit together is a matter of which events the reader lets follow which:
every event of a log that was read has the events it rests on before it, and an attempt
fails once.
-/

namespace Stratadiff.Value

/-- The order in which a `HashSet` gives its members. -/
structure SetOrder where
  list : Finset String → List String
  nodup : ∀ members, (list members).Nodup
  mem : ∀ members member, member ∈ list members ↔ member ∈ members

structure ReportPrivacy where
  automaticUpload : Bool
  sourceContentExported : Bool
  localPathsExported : Bool
  repositoryIdentityExported : Bool
  pullRequestIdentityExported : Bool
  reviewerIdentityExported : Bool
  pseudonymousTransitionDigestsExported : Bool
  transitionIdentifiersExported : Bool
  deriving DecidableEq, Repr

structure ClaimBoundary where
  localPostDiscoveryActivationSupported : Bool
  cleanInstallSuccessSupported : Bool
  reviewerTimeSavingsSupported : Bool
  issueRecallSupported : Bool
  marketPrevalenceSupported : Bool
  deriving DecidableEq, Repr

structure ReportSummary where
  scans : Nat
  partialScans : Nat
  deliveryConfirmedScans : Nat
  deliveryUnconfirmedScans : Nat
  inspectedCandidates : Nat
  completedReviewCheckpoints : Nat
  coveredTransitions : Nat
  gapDiscoveries : Nat
  uniqueGapTransitions : Nat
  deliveredGapDiscoveries : Nat
  uniqueDeliveredGapTransitions : Nat
  uniqueResumedTransitions : Nat
  uniqueReadyTransitions : Nat
  resumeAttempts : Nat
  transitionBoundAttempts : Nat
  coveredAttempts : Nat
  workbenchReadyAttempts : Nat
  unresolvedAttempts : Nat
  deriving DecidableEq, Repr

structure Rate where
  numerator : Nat
  denominator : Nat
  status : String
  basisPoints : Option Nat
  deriving DecidableEq, Repr

structure ReportConversion where
  deliveredGapToResume : Rate
  resumeAttemptToCoveredTransition : Rate
  coveredTransitionToWorkbenchReady : Rate
  resumeAttemptToWorkbenchReady : Rate
  deriving DecidableEq, Repr

structure ReportFailures where
  total : Nat
  beforeTransitionBound : Nat
  beforeCoverage : Nat
  beforeWorkbenchReady : Nat
  afterWorkbenchReady : Nat
  deriving DecidableEq, Repr

structure ValueReport where
  schema : String
  toolVersion : String
  sourceSchema : String
  eventCount : Nat
  chainTipSha256 : String
  privacy : ReportPrivacy
  claimBoundary : ClaimBoundary
  summary : ReportSummary
  conversion : ReportConversion
  failures : ReportFailures
  deriving DecidableEq, Repr

def reportSchema : String := "stratadiff-value-funnel-report-v1"

/-! ## Counting -/

/-- The variables that the loop over the events fills. -/
structure Tally where
  scans : Nat
  partialScans : Nat
  inspectedCandidates : Nat
  completedReviewCheckpoints : Nat
  gapDiscoveries : Nat
  gaps : Finset String
  gapsByScan : List (String × List String)
  deliveryConfirmedScanIds : Finset String
  resumedTransitions : Finset String
  coveredTransitions : Finset String
  readyTransitions : Finset String
  resumeAttempts : Finset String
  boundAttempts : Finset String
  coveredAttempts : Finset String
  readyAttempts : Finset String
  failedAttempts : Finset String
  failures : ReportFailures

def Tally.zero : Tally where
  scans := 0
  partialScans := 0
  inspectedCandidates := 0
  completedReviewCheckpoints := 0
  gapDiscoveries := 0
  gaps := ∅
  gapsByScan := []
  deliveryConfirmedScanIds := ∅
  resumedTransitions := ∅
  coveredTransitions := ∅
  readyTransitions := ∅
  resumeAttempts := ∅
  boundAttempts := ∅
  coveredAttempts := ∅
  readyAttempts := ∅
  failedAttempts := ∅
  failures := ⟨0, 0, 0, 0, 0⟩

/-- A sum that must fit 64 bits. -/
def checkedSum (message : String) (a b : Nat) : Result Nat :=
  Result.ofOption (.invalid message) (checkedAdd a b)

namespace ReportFailures

/-- The count of a stage. -/
def stageCount (failures : ReportFailures) : FailureStage → Nat
  | .beforeTransitionBound => failures.beforeTransitionBound
  | .beforeCoverage => failures.beforeCoverage
  | .beforeWorkbenchReady => failures.beforeWorkbenchReady
  | .afterWorkbenchReady => failures.afterWorkbenchReady

def setStageCount (failures : ReportFailures) (count : Nat) : FailureStage → ReportFailures
  | .beforeTransitionBound => { failures with beforeTransitionBound := count }
  | .beforeCoverage => { failures with beforeCoverage := count }
  | .beforeWorkbenchReady => { failures with beforeWorkbenchReady := count }
  | .afterWorkbenchReady => { failures with afterWorkbenchReady := count }

/-- The sum of the counts of the stages. -/
def stages (failures : ReportFailures) : Nat :=
  failures.beforeTransitionBound + failures.beforeCoverage + failures.beforeWorkbenchReady +
    failures.afterWorkbenchReady

theorem stages_setStageCount (failures : ReportFailures) (stage : FailureStage) :
    (failures.setStageCount (failures.stageCount stage + 1) stage).stages =
      failures.stages + 1 := by
  cases stage <;> simp only [setStageCount, stageCount, stages] <;> omega

@[simp] theorem setStageCount_total (failures : ReportFailures) (count : Nat)
    (stage : FailureStage) : (failures.setStageCount count stage).total = failures.total := by
  cases stage <;> rfl

theorem stageCount_le (failures : ReportFailures) (stage : FailureStage) :
    failures.stageCount stage ≤ failures.stages := by
  cases stage <;> simp only [stageCount, stages] <;> omega

end ReportFailures

/-- The body of the loop over the events. -/
def Tally.count (tally : Tally) : FunnelEvent → Result Tally
  | .baseline _ inspected completedReviewPrs collectionComplete => do
      let scans ← checkedSum "scan count overflow" tally.scans 1
      let inspectedCandidates ←
        checkedSum "inspected candidate count overflow" tally.inspectedCandidates inspected
      let completedReviewCheckpoints ← checkedSum "completed review checkpoint count overflow"
        tally.completedReviewCheckpoints completedReviewPrs
      let partialScans ← (if collectionComplete then .ok tally.partialScans
        else checkedSum "partial scan count overflow" tally.partialScans 1 : Result Nat)
      return { tally with scans, inspectedCandidates, completedReviewCheckpoints, partialScans }
  | .coveredTransition transitionId attemptId =>
      return { tally with
        coveredTransitions := insert transitionId tally.coveredTransitions
        coveredAttempts := insert attemptId tally.coveredAttempts }
  | .gapDiscovery scanId transitionId => do
      let gapDiscoveries ← checkedSum "gap discovery count overflow" tally.gapDiscoveries 1
      return { tally with
        gapDiscoveries
        gaps := insert transitionId tally.gaps
        gapsByScan := (scanId, (tally.gapsByScan.lookup scanId).getD [] ++ [transitionId]) ::
          tally.gapsByScan }
  | .inboxDelivery scanId =>
      return { tally with
        deliveryConfirmedScanIds := insert scanId tally.deliveryConfirmedScanIds }
  | .resumeInvoked transitionId attemptId =>
      return { tally with
        resumedTransitions := insert transitionId tally.resumedTransitions
        resumeAttempts := insert attemptId tally.resumeAttempts }
  | .transitionBound _ attemptId =>
      return { tally with boundAttempts := insert attemptId tally.boundAttempts }
  | .workbenchReady transitionId attemptId =>
      return { tally with
        readyTransitions := insert transitionId tally.readyTransitions
        readyAttempts := insert attemptId tally.readyAttempts }
  | .attemptFailed _ attemptId stage => do
      let total ← checkedSum "failure count overflow" tally.failures.total 1
      let stageCount ←
        checkedSum "failure stage count overflow" (tally.failures.stageCount stage) 1
      return { tally with
        failedAttempts := insert attemptId tally.failedAttempts
        failures := { tally.failures with total }.setStageCount stageCount stage }

/-- The `ensure!`s after the loop. -/
def Tally.ensureSubsets (tally : Tally) : Result Unit := do
  Result.ensure (tally.resumedTransitions ⊆ tally.gaps)
    (.invalid "resume set is not a subset of gaps")
  Result.ensure (tally.coveredTransitions ⊆ tally.resumedTransitions)
    (.invalid "covered set is not a subset of resumes")
  Result.ensure (tally.readyTransitions ⊆ tally.coveredTransitions)
    (.invalid "ready set is not a subset of covered")
  Result.ensure (tally.boundAttempts ⊆ tally.resumeAttempts)
    (.invalid "bound attempts are not a subset of resume attempts")
  Result.ensure (tally.coveredAttempts ⊆ tally.boundAttempts)
    (.invalid "covered attempts are not a subset of bound attempts")
  Result.ensure (tally.readyAttempts ⊆ tally.coveredAttempts)
    (.invalid "ready attempts are not a subset of covered attempts")
  Result.ensure (tally.failedAttempts ⊆ tally.resumeAttempts)
    (.invalid "failed attempts are not a subset of resume attempts")

/-- The gaps of the scans whose delivery was confirmed. -/
structure DeliveredGaps where
  discoveries : Nat
  transitions : Finset String

def DeliveredGaps.none : DeliveredGaps := ⟨0, ∅⟩

/-- The body of the loop over the confirmed scans. -/
def deliver (gapsByScan : List (String × List String)) (delivered : DeliveredGaps)
    (scanId : String) : Result DeliveredGaps :=
  match gapsByScan.lookup scanId with
  | .none => return delivered
  | some transitionIds => do
      let discoveries ← checkedSum "delivered gap discovery count overflow" delivered.discoveries
        transitionIds.length
      return ⟨discoveries, delivered.transitions ∪ transitionIds.toFinset⟩

/-- A rate; nothing where the expectation that it can be computed fails. -/
def rate (numerator denominator : Nat) : Option Rate :=
  if denominator = 0 then some ⟨numerator, denominator, "undefined", none⟩
  else do
    let value ← checkedMul numerator 10000
    let value ← checkedAdd value (denominator / 2)
    return ⟨numerator, denominator, "defined", some (value / denominator)⟩

/-- A rate, or the panic of `expect`. -/
def expectRate (numerator denominator : Nat) : Result Rate :=
  Result.ofOption (.invalid "bounded value-funnel counts cannot overflow")
    (rate numerator denominator)

/-- The attempts that are neither ready nor failed. -/
def Tally.unresolvedAttempts (tally : Tally) : Finset String :=
  tally.resumeAttempts.filter fun attempt =>
    attempt ∉ tally.readyAttempts ∧ attempt ∉ tally.failedAttempts

def Tally.conversion (tally : Tally) (delivered : DeliveredGaps) : Result ReportConversion := do
  let deliveredResumedTransitions := tally.resumedTransitions ∩ delivered.transitions
  let deliveredGapToResume ←
    expectRate deliveredResumedTransitions.card delivered.transitions.card
  let resumeAttemptToCoveredTransition ←
    expectRate tally.coveredAttempts.card tally.resumeAttempts.card
  let coveredTransitionToWorkbenchReady ←
    expectRate tally.readyAttempts.card tally.coveredAttempts.card
  let resumeAttemptToWorkbenchReady ←
    expectRate tally.readyAttempts.card tally.resumeAttempts.card
  return {
    deliveredGapToResume
    resumeAttemptToCoveredTransition
    coveredTransitionToWorkbenchReady
    resumeAttemptToWorkbenchReady }

def Tally.summary (tally : Tally) (delivered : DeliveredGaps)
    (deliveryUnconfirmedScans : Nat) : ReportSummary where
  scans := tally.scans
  partialScans := tally.partialScans
  deliveryConfirmedScans := tally.deliveryConfirmedScanIds.card
  deliveryUnconfirmedScans
  inspectedCandidates := tally.inspectedCandidates
  completedReviewCheckpoints := tally.completedReviewCheckpoints
  coveredTransitions := tally.coveredTransitions.card
  gapDiscoveries := tally.gapDiscoveries
  uniqueGapTransitions := tally.gaps.card
  deliveredGapDiscoveries := delivered.discoveries
  uniqueDeliveredGapTransitions := delivered.transitions.card
  uniqueResumedTransitions := tally.resumedTransitions.card
  uniqueReadyTransitions := tally.readyTransitions.card
  resumeAttempts := tally.resumeAttempts.card
  transitionBoundAttempts := tally.boundAttempts.card
  coveredAttempts := tally.coveredAttempts.card
  workbenchReadyAttempts := tally.readyAttempts.card
  unresolvedAttempts := tally.unresolvedAttempts.card

/-- `build_report`; a `usize` is a `u64`. -/
def buildReport (order : SetOrder) (log : VerifiedLog) : Result ValueReport := do
  let tally ← (log.events.map (·.event)).foldlM Tally.count .zero
  tally.ensureSubsets
  let deliveryUnconfirmedScans ←
    Result.ofOption (.invalid "delivery-confirmed scan count exceeds scan count")
      (checkedSub tally.scans tally.deliveryConfirmedScanIds.card)
  let delivered ←
    (order.list tally.deliveryConfirmedScanIds).foldlM (deliver tally.gapsByScan) .none
  let conversion ← tally.conversion delivered
  return {
    schema := reportSchema
    toolVersion := packageVersion
    sourceSchema := eventSchema
    eventCount := log.events.length
    chainTipSha256 := log.chainTip
    privacy := ⟨false, false, false, false, false, false, false, false⟩
    claimBoundary := ⟨true, false, false, false, false⟩
    summary := tally.summary delivered deliveryUnconfirmedScans
    conversion
    failures := tally.failures }

/-! ## What the events of a log rest on -/

/-- An event has what it rests on among some events. -/
def FunnelEvent.Grounded (events : List FunnelEvent) : FunnelEvent → Prop
  | baseline _ inspectedCandidates completedReviewPrs _ =>
      inspectedCandidates ≤ maxBaselineCandidates ∧ completedReviewPrs ≤ maxBaselineCandidates
  | gapDiscovery .. => True
  | inboxDelivery scanId => ∃ inspected completed complete,
      baseline scanId inspected completed complete ∈ events
  | resumeInvoked transitionId _ => ∃ scanId, gapDiscovery scanId transitionId ∈ events
  | transitionBound transitionId attemptId => resumeInvoked transitionId attemptId ∈ events
  | coveredTransition transitionId attemptId =>
      resumeInvoked transitionId attemptId ∈ events ∧
        transitionBound transitionId attemptId ∈ events
  | workbenchReady transitionId attemptId => coveredTransition transitionId attemptId ∈ events
  | attemptFailed transitionId attemptId _ => resumeInvoked transitionId attemptId ∈ events

/-- What a state says of an attempt has happened. -/
structure AttemptValidationState.Recorded (attempt : AttemptValidationState) (attemptId : String)
    (events : List FunnelEvent) : Prop where
  resumed : .resumeInvoked attempt.transitionId attemptId ∈ events
  bound : attempt.transitionBound = true →
    .transitionBound attempt.transitionId attemptId ∈ events
  covered : attempt.covered = true → .coveredTransition attempt.transitionId attemptId ∈ events

/-- A state of the funnel says of some events only what has happened. -/
structure FunnelValidationState.Records (state : FunnelValidationState)
    (events : List FunnelEvent) : Prop where
  scans : ∀ scanId scan, state.scans.lookup scanId = some scan →
    ∃ inspected completed complete, .baseline scanId inspected completed complete ∈ events
  gaps : ∀ transitionId ∈ state.gaps, ∃ scanId, .gapDiscovery scanId transitionId ∈ events
  attempts : ∀ attemptId attempt, state.attempts.lookup attemptId = some attempt →
    attempt.Recorded attemptId events

section

variable {events later : List FunnelEvent} {event : FunnelEvent}
variable {state state' : FunnelValidationState}

theorem FunnelEvent.Grounded.mono (grounded : event.Grounded events) (grown : events ⊆ later) :
    event.Grounded later := by
  cases event with
  | baseline | gapDiscovery => exact grounded
  | inboxDelivery scanId =>
      obtain ⟨inspected, completed, complete, member⟩ := grounded
      exact ⟨inspected, completed, complete, grown member⟩
  | resumeInvoked transitionId attemptId =>
      obtain ⟨scanId, member⟩ := grounded
      exact ⟨scanId, grown member⟩
  | transitionBound | workbenchReady | attemptFailed => exact grown grounded
  | coveredTransition => exact ⟨grown grounded.1, grown grounded.2⟩

theorem AttemptValidationState.Recorded.mono {attempt : AttemptValidationState}
    {attemptId : String} (recorded : attempt.Recorded attemptId events) (grown : events ⊆ later) :
    attempt.Recorded attemptId later where
  resumed := grown recorded.resumed
  bound flag := grown (recorded.bound flag)
  covered flag := grown (recorded.covered flag)

namespace FunnelValidationState

theorem Records.mono (records : state.Records events) (grown : events ⊆ later) :
    state.Records later where
  scans scanId scan found := by
    obtain ⟨inspected, completed, complete, member⟩ := records.scans scanId scan found
    exact ⟨inspected, completed, complete, grown member⟩
  gaps transitionId known := by
    obtain ⟨scanId, member⟩ := records.gaps transitionId known
    exact ⟨scanId, grown member⟩
  attempts attemptId attempt found := (records.attempts attemptId attempt found).mono grown

theorem Records.setScan (records : state.Records events) {scanId : String}
    {scan : ScanValidationState}
    (known : ∃ inspected completed complete,
      .baseline scanId inspected completed complete ∈ events) :
    (state.setScan scanId scan).Records events where
  scans other found lookup := by
    by_cases same : other = scanId
    · exact same ▸ known
    · rw [FunnelValidationState.setScan, List.lookup_cons, beq_eq_false_iff_ne.mpr same] at lookup
      exact records.scans other found lookup
  gaps := records.gaps
  attempts := records.attempts

theorem Records.setAttempt (records : state.Records events) {attemptId : String}
    {attempt : AttemptValidationState} (recorded : attempt.Recorded attemptId events) :
    (state.setAttempt attemptId attempt).Records events where
  scans := records.scans
  gaps := records.gaps
  attempts other found lookup := by
    by_cases same : other = attemptId
    · subst same
      rw [FunnelValidationState.setAttempt, List.lookup_cons_self, Option.some.injEq] at lookup
      exact lookup ▸ recorded
    · rw [FunnelValidationState.setAttempt, List.lookup_cons, beq_eq_false_iff_ne.mpr same]
        at lookup
      exact records.attempts other found lookup

theorem attempt?_eq_some {transitionId attemptId : String} {attempt : AttemptValidationState} :
    state.attempt? transitionId attemptId = some attempt ↔
      state.attempts.lookup attemptId = some attempt ∧ attempt.transitionId = transitionId := by
  rw [attempt?, Option.filter_eq_some_iff, decide_eq_true_eq]

/-- What an event finds of its attempt has happened, for its transition. -/
theorem Records.attempt? (records : state.Records events) {transitionId attemptId : String}
    {attempt : AttemptValidationState}
    (found : state.attempt? transitionId attemptId = some attempt) :
    attempt.Recorded attemptId events ∧ attempt.transitionId = transitionId := by
  obtain ⟨lookup, same⟩ := attempt?_eq_some.mp found
  exact ⟨records.attempts attemptId attempt lookup, same⟩

/-- An event that the funnel takes has what it rests on before it, and the state says of the
events with it what has happened. -/
theorem Records.apply (records : state.Records events)
    (payload : validatePayload event = .ok ()) (h : state.apply event = .ok state') :
    event.Grounded events ∧ state'.Records (events ++ [event]) := by
  have grown : events ⊆ events ++ [event] := List.subset_append_left ..
  have here : event ∈ events ++ [event] := List.mem_concat_self
  have records' := records.mono grown
  cases event with
  | baseline scanId inspected completed complete =>
      obtain ⟨-, payload⟩ := Result.check_bind_eq_ok.mp payload
      obtain ⟨few, fewer⟩ := Result.check_bind_eq_ok.mp payload
      obtain ⟨-, h⟩ := Result.check_bind_eq_ok.mp h
      obtain rfl := Result.pure_eq_ok.mp h
      rw [Result.ensure_eq_ok] at few fewer
      exact ⟨⟨few, fewer.trans few⟩, records'.setScan ⟨inspected, completed, complete, here⟩⟩
  | gapDiscovery scanId transitionId =>
      obtain ⟨scan, found, h⟩ := Result.ofOption_bind_eq_ok.mp h
      obtain ⟨-, h⟩ := Result.check_bind_eq_ok.mp h
      obtain ⟨-, h⟩ := Result.check_bind_eq_ok.mp h
      obtain rfl := Result.pure_eq_ok.mp h
      have scans : (state.setScan scanId { scan with gapCount := scan.gapCount + 1 }).Records
          (events ++ [.gapDiscovery scanId transitionId]) :=
        records'.setScan (records'.scans scanId scan found)
      refine ⟨trivial, scans.scans, ?_, scans.attempts⟩
      intro other member
      cases member with
      | head => exact ⟨scanId, here⟩
      | tail _ member => exact records'.gaps other member
  | inboxDelivery scanId =>
      obtain ⟨scan, found, h⟩ := Result.ofOption_bind_eq_ok.mp h
      obtain ⟨-, h⟩ := Result.check_bind_eq_ok.mp h
      obtain rfl := Result.pure_eq_ok.mp h
      exact ⟨records.scans scanId scan found, records'.setScan (records'.scans scanId scan found)⟩
  | resumeInvoked transitionId attemptId =>
      obtain ⟨known, h⟩ := Result.check_bind_eq_ok.mp h
      obtain ⟨-, h⟩ := Result.check_bind_eq_ok.mp h
      obtain rfl := Result.pure_eq_ok.mp h
      rw [Result.ensure_eq_ok] at known
      refine ⟨records.gaps transitionId known, records'.setAttempt ⟨here, ?_, ?_⟩⟩
      · intro flag
        cases flag
      · intro flag
        cases flag
  | transitionBound transitionId attemptId =>
      obtain ⟨attempt, found, h⟩ := Result.ofOption_bind_eq_ok.mp h
      obtain ⟨-, h⟩ := Result.check_bind_eq_ok.mp h
      obtain rfl := Result.pure_eq_ok.mp h
      obtain ⟨recorded, rfl⟩ := records.attempt? found
      have recorded' := recorded.mono grown
      exact ⟨recorded.resumed,
        records'.setAttempt ⟨recorded'.resumed, fun _ => here, recorded'.covered⟩⟩
  | coveredTransition transitionId attemptId =>
      obtain ⟨attempt, found, h⟩ := Result.ofOption_bind_eq_ok.mp h
      obtain ⟨-, h⟩ := Result.check_bind_eq_ok.mp h
      obtain rfl := Result.pure_eq_ok.mp h
      obtain ⟨found, bound⟩ := Option.filter_eq_some_iff.mp found
      obtain ⟨recorded, rfl⟩ := records.attempt? found
      have recorded' := recorded.mono grown
      exact ⟨⟨recorded.resumed, recorded.bound bound⟩,
        records'.setAttempt ⟨recorded'.resumed, recorded'.bound, fun _ => here⟩⟩
  | workbenchReady transitionId attemptId =>
      obtain ⟨attempt, found, h⟩ := Result.ofOption_bind_eq_ok.mp h
      obtain ⟨-, h⟩ := Result.check_bind_eq_ok.mp h
      obtain rfl := Result.pure_eq_ok.mp h
      obtain ⟨found, covered⟩ := Option.filter_eq_some_iff.mp found
      obtain ⟨recorded, rfl⟩ := records.attempt? found
      have recorded' := recorded.mono grown
      exact ⟨recorded.covered covered,
        records'.setAttempt ⟨recorded'.resumed, recorded'.bound, recorded'.covered⟩⟩
  | attemptFailed transitionId attemptId stage =>
      obtain ⟨attempt, found, h⟩ := Result.ofOption_bind_eq_ok.mp h
      obtain ⟨-, h⟩ := Result.check_bind_eq_ok.mp h
      obtain rfl := Result.pure_eq_ok.mp h
      obtain ⟨recorded, rfl⟩ := records.attempt? found
      have recorded' := recorded.mono grown
      exact ⟨recorded.resumed,
        records'.setAttempt ⟨recorded'.resumed, recorded'.bound, recorded'.covered⟩⟩

end FunnelValidationState

end

/-- What holds of the events of a log that was read. -/
structure VerifiedLog.Founded (log : VerifiedLog) : Prop where
  records : log.validation.Records log.known
  grounded : ∀ event ∈ log.known, event.Grounded log.known
  few : log.events.length ≤ maxEvents

theorem founded_empty : VerifiedLog.empty.Founded where
  records := ⟨nofun, nofun, nofun⟩
  grounded := nofun
  few := Nat.zero_le _

theorem VerifiedLog.Founded.line {codec : Codec} {log log' : VerifiedLog} {line : Bytes}
    (founded : log.Founded) (h : verifyLine codec log line = .ok log') : log'.Founded := by
  obtain ⟨stored, validation, -, room, -, continues, -, -, applied, rfl⟩ := verifyLine_eq_ok.mp h
  have known : VerifiedLog.known ⟨log.events ++ [stored], stored.eventSha256, validation⟩ =
      log.known ++ [stored.event] := List.map_append
  obtain ⟨grounded, records⟩ := founded.records.apply continues.payload applied
  have grown : log.known ⊆ log.known ++ [stored.event] := List.subset_append_left ..
  refine ⟨known ▸ records, ?_, ?_⟩
  · rw [known]
    intro event member
    obtain old | new := List.mem_append.mp member
    · exact (founded.grounded event old).mono grown
    · rw [List.mem_singleton.mp new]
      exact grounded.mono grown
  · rw [List.length_append]
    exact room

theorem founded_of_verifyLogBytes {codec : Codec} {content : Bytes} {log : VerifiedLog}
    (h : verifyLogBytes codec content = .ok log) : log.Founded :=
  verifyLogBytes_induction founded_empty VerifiedLog.Founded.line h

/-! ## What is counted -/

namespace FunnelEvent

def scan? : FunnelEvent → Option String
  | baseline scanId .. => some scanId
  | _ => none

/-- A discovered gap, with its scan. -/
def gap? : FunnelEvent → Option (String × String)
  | gapDiscovery scanId transitionId => some (scanId, transitionId)
  | _ => none

def readyAttempt? : FunnelEvent → Option String
  | workbenchReady _ attemptId => some attemptId
  | _ => none

def failedAttempt? : FunnelEvent → Option String
  | attemptFailed _ attemptId _ => some attemptId
  | _ => none

end FunnelEvent

/-- The sets of the loop after some events. -/
structure Tally.Sets (tally : Tally) (events : List FunnelEvent) : Prop where
  gaps : ∀ t, t ∈ tally.gaps ↔ ∃ scanId, .gapDiscovery scanId t ∈ events
  delivered : ∀ s, s ∈ tally.deliveryConfirmedScanIds ↔ .inboxDelivery s ∈ events
  resumedTransitions : ∀ t, t ∈ tally.resumedTransitions ↔ ∃ a, .resumeInvoked t a ∈ events
  resumeAttempts : ∀ a, a ∈ tally.resumeAttempts ↔ ∃ t, .resumeInvoked t a ∈ events
  boundAttempts : ∀ a, a ∈ tally.boundAttempts ↔ ∃ t, .transitionBound t a ∈ events
  coveredTransitions : ∀ t, t ∈ tally.coveredTransitions ↔ ∃ a, .coveredTransition t a ∈ events
  coveredAttempts : ∀ a, a ∈ tally.coveredAttempts ↔ ∃ t, .coveredTransition t a ∈ events
  readyTransitions : ∀ t, t ∈ tally.readyTransitions ↔ ∃ a, .workbenchReady t a ∈ events
  readyAttempts : ∀ a, a ∈ tally.readyAttempts ↔ ∃ t, .workbenchReady t a ∈ events
  failedAttempts : ∀ a, a ∈ tally.failedAttempts ↔ ∃ t stage, .attemptFailed t a stage ∈ events

/-- The counters of the loop after some events, and the gaps by their scans. -/
structure Tally.Numbers (tally : Tally) (events : List FunnelEvent) : Prop where
  scans : tally.scans = (events.filterMap FunnelEvent.scan?).length
  partialScans : tally.partialScans ≤ events.length
  inspectedCandidates : tally.inspectedCandidates ≤ maxBaselineCandidates * events.length
  completedReviewCheckpoints :
    tally.completedReviewCheckpoints ≤ maxBaselineCandidates * events.length
  gapDiscoveries : tally.gapDiscoveries = (events.filterMap FunnelEvent.gap?).length
  gapsByScan : ∀ scanId, (tally.gapsByScan.lookup scanId).getD [] =
    ((events.filterMap FunnelEvent.gap?).filter (·.1 = scanId)).map Prod.snd
  failures : tally.failures.total = (events.filterMap FunnelEvent.failedAttempt?).length
  stages : tally.failures.stages = tally.failures.total

theorem checkedSum_of_le {message : String} {a b : Nat} (h : a + b ≤ usizeMax) :
    checkedSum message a b = .ok (a + b) := by
  rw [checkedSum, checkedAdd_of_le h]
  rfl

section

variable {tally tally' : Tally} {events : List FunnelEvent} {event : FunnelEvent}

theorem sets_zero : Tally.zero.Sets [] := by
  constructor <;> simp [Tally.zero]

theorem numbers_zero : Tally.zero.Numbers [] := by
  constructor <;> simp [Tally.zero, ReportFailures.stages]

/-- An event is in the sets of its kind and in no others. -/
theorem Tally.Sets.count (sets : tally.Sets events) (h : tally.count event = .ok tally') :
    tally'.Sets (events ++ [event]) := by
  obtain ⟨gaps, delivered, resumedTransitions, resumeAttempts, boundAttempts, coveredTransitions,
    coveredAttempts, readyTransitions, readyAttempts, failedAttempts⟩ := sets
  cases event with
  | baseline scanId inspected completed complete =>
      simp only [Tally.count, Result.bind_eq_ok, Result.pure_eq_ok] at h
      obtain ⟨_, _, _, _, _, _, _, _, rfl⟩ := h
      constructor <;> simp [*]
  | gapDiscovery scanId transitionId =>
      obtain ⟨_, _, h⟩ := Result.bind_eq_ok.mp h
      obtain rfl := Result.pure_eq_ok.mp h
      constructor <;> simp [*, exists_or, or_comm]
  | attemptFailed transitionId attemptId stage =>
      simp only [Tally.count, Result.bind_eq_ok, Result.pure_eq_ok] at h
      obtain ⟨_, _, _, _, rfl⟩ := h
      constructor <;> simp [*, exists_or, or_comm]
  | inboxDelivery scanId =>
      obtain rfl := Result.pure_eq_ok.mp h
      constructor <;> simp [*, or_comm]
  | resumeInvoked transitionId attemptId | transitionBound transitionId attemptId
  | coveredTransition transitionId attemptId | workbenchReady transitionId attemptId =>
      obtain rfl := Result.pure_eq_ok.mp h
      constructor <;> simp [*, exists_or, or_comm]

namespace Tally.Numbers

/-- An event that is in none of the counters. -/
theorem skip (numbers : tally.Numbers events) (scan : event.scan? = none)
    (gap : event.gap? = none) (failed : event.failedAttempt? = none) :
    tally.Numbers (events ++ [event]) where
  scans := by simp [scan, numbers.scans]
  partialScans := numbers.partialScans.trans (by simp)
  inspectedCandidates := numbers.inspectedCandidates.trans (Nat.mul_le_mul_left _ (by simp))
  completedReviewCheckpoints :=
    numbers.completedReviewCheckpoints.trans (Nat.mul_le_mul_left _ (by simp))
  gapDiscoveries := by simp [gap, numbers.gapDiscoveries]
  gapsByScan := by simp [gap, numbers.gapsByScan]
  failures := by simp [failed, numbers.failures]
  stages := numbers.stages

/-- The counters do not depend on the sets. -/
theorem withSets (numbers : tally.Numbers events) {gaps delivered resumed covered ready attempts
    bound coveredAttempts readyAttempts failed : Finset String} :
    Tally.Numbers { tally with
      gaps := gaps, deliveryConfirmedScanIds := delivered, resumedTransitions := resumed
      coveredTransitions := covered, readyTransitions := ready, resumeAttempts := attempts
      boundAttempts := bound, coveredAttempts := coveredAttempts
      readyAttempts := readyAttempts, failedAttempts := failed } events where
  scans := numbers.scans
  partialScans := numbers.partialScans
  inspectedCandidates := numbers.inspectedCandidates
  completedReviewCheckpoints := numbers.completedReviewCheckpoints
  gapDiscoveries := numbers.gapDiscoveries
  gapsByScan := numbers.gapsByScan
  failures := numbers.failures
  stages := numbers.stages

/-- One more event is counted; no sum is too large while the events are no more than a log may
have. -/
theorem count (numbers : tally.Numbers events) (few : events.length < maxEvents)
    (grounded : ∃ all, event.Grounded all) :
    ∃ tally', tally.count event = .ok tally' ∧ tally'.Numbers (events ++ [event]) := by
  have word : usizeMax = 18446744073709551615 := rfl
  have most : maxEvents = 100000 := rfl
  cases event with
  | baseline scanId inspected completed complete =>
      obtain ⟨_, inspectedFew, completedFew⟩ := grounded
      have scans : tally.scans ≤ events.length := numbers.scans ▸ List.length_filterMap_le ..
      have partials := numbers.partialScans
      have inspectedSum := numbers.inspectedCandidates
      have completedSum := numbers.completedReviewCheckpoints
      rw [maxBaselineCandidates] at inspectedFew completedFew inspectedSum completedSum
      obtain ⟨partialScans, counted, bound⟩ : ∃ partialScans,
          (if complete then .ok tally.partialScans
            else checkedSum "partial scan count overflow" tally.partialScans 1 : Result Nat) =
              .ok partialScans ∧ partialScans ≤ events.length + 1 := by
        cases complete with
        | true => exact ⟨_, rfl, by omega⟩
        | false => exact ⟨_, checkedSum_of_le (by omega), by omega⟩
      rw [Tally.count, checkedSum_of_le (by omega), Result.ok_bind, checkedSum_of_le (by omega),
        Result.ok_bind, checkedSum_of_le (by omega), Result.ok_bind, counted, Result.ok_bind]
      refine ⟨_, rfl, ?_⟩
      constructor
      · simp [numbers.scans, FunnelEvent.scan?]
      · simpa using bound
      · simp only [List.length_append, List.length_singleton, maxBaselineCandidates]
        omega
      · simp only [List.length_append, List.length_singleton, maxBaselineCandidates]
        omega
      · simp [numbers.gapDiscoveries, FunnelEvent.gap?]
      · simp [numbers.gapsByScan, FunnelEvent.gap?]
      · simp [numbers.failures, FunnelEvent.failedAttempt?]
      · exact numbers.stages
  | gapDiscovery scanId transitionId =>
      have gaps : tally.gapDiscoveries ≤ events.length :=
        numbers.gapDiscoveries ▸ List.length_filterMap_le ..
      rw [Tally.count, checkedSum_of_le (by omega), Result.ok_bind]
      refine ⟨_, rfl, ?_⟩
      constructor
      · simp [numbers.scans, FunnelEvent.scan?]
      · exact numbers.partialScans.trans (by simp)
      · exact numbers.inspectedCandidates.trans (Nat.mul_le_mul_left _ (by simp))
      · exact numbers.completedReviewCheckpoints.trans (Nat.mul_le_mul_left _ (by simp))
      · simp [numbers.gapDiscoveries, FunnelEvent.gap?]
      · intro other
        by_cases same : other = scanId
        · subst same
          simp [numbers.gapsByScan, FunnelEvent.gap?]
        · simp [List.lookup_cons, beq_eq_false_iff_ne.mpr same, numbers.gapsByScan,
            FunnelEvent.gap?, Ne.symm same]
      · simp [numbers.failures, FunnelEvent.failedAttempt?]
      · exact numbers.stages
  | attemptFailed transitionId attemptId stage =>
      have total : tally.failures.total ≤ events.length :=
        numbers.failures ▸ List.length_filterMap_le ..
      have stages := numbers.stages
      have one := tally.failures.stageCount_le stage
      rw [Tally.count, checkedSum_of_le (by omega), Result.ok_bind, checkedSum_of_le (by omega),
        Result.ok_bind]
      refine ⟨_, rfl, ?_⟩
      constructor
      · simp [numbers.scans, FunnelEvent.scan?]
      · exact numbers.partialScans.trans (by simp)
      · exact numbers.inspectedCandidates.trans (Nat.mul_le_mul_left _ (by simp))
      · exact numbers.completedReviewCheckpoints.trans (Nat.mul_le_mul_left _ (by simp))
      · simp [numbers.gapDiscoveries, FunnelEvent.gap?]
      · simp [numbers.gapsByScan, FunnelEvent.gap?]
      · simp [numbers.failures, FunnelEvent.failedAttempt?]
      · rw [ReportFailures.setStageCount_total]
        exact (ReportFailures.stages_setStageCount { tally.failures with total := _ } stage).trans
          (congrArg (· + 1) stages)
  | inboxDelivery | resumeInvoked | transitionBound | coveredTransition | workbenchReady =>
      exact ⟨_, rfl, (numbers.skip rfl rfl rfl).withSets⟩

end Tally.Numbers

/-- The loop over the events of a log does not fail, and fills its variables with what the
events say. -/
theorem count_run (grounded : ∀ event ∈ events, ∃ all, event.Grounded all)
    (few : events.length ≤ maxEvents) :
    ∃ tally, events.foldlM Tally.count .zero = .ok tally ∧ tally.Sets events ∧
      tally.Numbers events := by
  induction events using List.reverseRecOn with
  | nil => exact ⟨.zero, rfl, sets_zero, numbers_zero⟩
  | append_singleton events event ih =>
      rw [List.length_append, List.length_singleton] at few
      have earlier : ∀ other ∈ events, ∃ all, other.Grounded all := fun other member =>
        grounded other (List.mem_append_left _ member)
      obtain ⟨tally, run, sets, numbers⟩ := ih earlier (by omega)
      obtain ⟨tally', counted, numbers'⟩ :=
        numbers.count few (grounded event List.mem_concat_self)
      refine ⟨tally', ?_, sets.count counted, numbers'⟩
      rw [List.foldlM_append, run, Result.ok_bind, List.foldlM_cons, counted, Result.ok_bind]
      rfl

end

/-! ## Delivered gaps -/

/-- What the scans of a list have of some pairs is no more than there is, when none of them
comes twice. -/
theorem sum_filter_length_le {scans : List String} (distinct : scans.Nodup)
    (gaps : List (String × String)) :
    (scans.map fun scan => (gaps.filter (·.1 = scan)).length).sum ≤ gaps.length := by
  induction gaps with
  | nil => simp
  | cons gap gaps ih =>
      have one : ∀ scan, ((gap :: gaps).filter (·.1 = scan)).length =
          (gaps.filter (·.1 = scan)).length + if gap.1 = scan then 1 else 0 := by
        intro scan
        by_cases here : gap.1 = scan <;> simp [here]
      have once : (scans.map fun scan => if gap.1 = scan then 1 else 0).sum ≤ 1 := by
        rw [← List.sum_toFinset _ distinct, Finset.sum_ite_eq]
        split <;> simp
      simp only [one, List.sum_map_add, List.length_cons]
      omega

/-- What the loop over the confirmed scans finds of each of them. -/
def deliveredOf (gapsByScan : List (String × List String)) (scanId : String) : List String :=
  (gapsByScan.lookup scanId).getD []

theorem deliver_eq {gapsByScan : List (String × List String)} {delivered : DeliveredGaps}
    {scanId : String}
    (bound : delivered.discoveries + (deliveredOf gapsByScan scanId).length ≤ usizeMax) :
    deliver gapsByScan delivered scanId =
      .ok ⟨delivered.discoveries + (deliveredOf gapsByScan scanId).length,
        delivered.transitions ∪ (deliveredOf gapsByScan scanId).toFinset⟩ := by
  rw [deliver]
  rw [deliveredOf] at bound ⊢
  cases found : gapsByScan.lookup scanId with
  | none => simp [pure, Except.pure]
  | some transitionIds =>
      rw [found, Option.getD_some] at bound
      dsimp only [Option.getD_some]
      rw [checkedSum_of_le bound]
      rfl

theorem deliver_run {gapsByScan : List (String × List String)} {scans : List String}
    {delivered : DeliveredGaps}
    (bound : delivered.discoveries +
      (scans.map fun scan => (deliveredOf gapsByScan scan).length).sum ≤ usizeMax) :
    ∃ delivered', scans.foldlM (deliver gapsByScan) delivered = .ok delivered' ∧
      delivered'.discoveries = delivered.discoveries +
        (scans.map fun scan => (deliveredOf gapsByScan scan).length).sum ∧
      ∀ t ∈ delivered'.transitions, t ∈ delivered.transitions ∨
        ∃ scan, t ∈ deliveredOf gapsByScan scan := by
  induction scans generalizing delivered with
  | nil => exact ⟨delivered, rfl, rfl, fun t member => .inl member⟩
  | cons scan scans ih =>
      rw [List.map_cons, List.sum_cons] at bound
      let next : DeliveredGaps := ⟨delivered.discoveries + (deliveredOf gapsByScan scan).length,
        delivered.transitions ∪ (deliveredOf gapsByScan scan).toFinset⟩
      have room : next.discoveries +
          (scans.map fun scan => (deliveredOf gapsByScan scan).length).sum ≤ usizeMax := by
        dsimp only [next]
        omega
      obtain ⟨delivered', run, discoveries, transitions⟩ := ih room
      refine ⟨delivered', ?_, ?_, ?_⟩
      · rw [List.foldlM_cons, deliver_eq (by omega), Result.ok_bind, run]
      · rw [discoveries, List.map_cons, List.sum_cons, Nat.add_assoc]
      · intro t member
        obtain earlier | later := transitions t member
        · obtain before | here := Finset.mem_union.mp earlier
          · exact .inl before
          · exact .inr ⟨scan, List.mem_toFinset.mp here⟩
        · exact .inr later

/-! ## Rates -/

/-- A rate of a part of a small whole is computed, and is at most one. -/
theorem expectRate_of_le {numerator denominator : Nat} (part : numerator ≤ denominator)
    (small : denominator ≤ maxEvents) :
    ∃ rate, expectRate numerator denominator = .ok rate ∧
      ∀ basisPoints ∈ rate.basisPoints, basisPoints ≤ 10000 := by
  have word : usizeMax = 18446744073709551615 := rfl
  rw [maxEvents] at small
  by_cases zero : denominator = 0
  · refine ⟨⟨numerator, denominator, "undefined", none⟩, ?_, nofun⟩
    rw [expectRate, rate, if_pos zero, Result.ofOption_some]
  · have product : checkedMul numerator 10000 = some (numerator * 10000) := if_pos (by omega)
    have rounded : checkedAdd (numerator * 10000) (denominator / 2) =
        some (numerator * 10000 + denominator / 2) := checkedAdd_of_le (by omega)
    refine ⟨⟨numerator, denominator, "defined",
      some ((numerator * 10000 + denominator / 2) / denominator)⟩, ?_, ?_⟩
    · rw [expectRate, rate, if_neg zero, product, Option.bind_eq_bind, Option.bind_some, rounded]
      rfl
    · rintro basisPoints ⟨⟩
      have whole : numerator * 10000 + denominator / 2 < (10000 + 1) * denominator := by omega
      exact Nat.le_of_lt_succ ((Nat.div_lt_iff_lt_mul (Nat.pos_of_ne_zero zero)).mpr whole)

/-! ## The report of a log -/

/-- The distinct attempts of the events that a projection picks. -/
def attemptsOf (pick : FunnelEvent → Option String) (events : List FunnelEvent) : Finset String :=
  (events.filterMap pick).toFinset

/-- The figures of a report fit together, and fit the events that it is about. -/
structure ValueReport.Consistent (report : ValueReport) (events : List FunnelEvent) : Prop where
  ready : report.summary.workbenchReadyAttempts ≤ report.summary.coveredAttempts
  covered : report.summary.coveredAttempts ≤ report.summary.transitionBoundAttempts
  bound : report.summary.transitionBoundAttempts ≤ report.summary.resumeAttempts
  stages : report.failures.total = report.failures.beforeTransitionBound +
    report.failures.beforeCoverage + report.failures.beforeWorkbenchReady +
    report.failures.afterWorkbenchReady
  failed : report.failures.total = (attemptsOf FunnelEvent.failedAttempt? events).card
  failedResumed : report.failures.total ≤ report.summary.resumeAttempts
  /-- What is not resolved is what is left of the resumed attempts, none of them missing. -/
  unresolved : report.summary.unresolvedAttempts +
    (attemptsOf FunnelEvent.readyAttempt? events ∪
      attemptsOf FunnelEvent.failedAttempt? events).card = report.summary.resumeAttempts
  discoveries : report.summary.deliveredGapDiscoveries ≤ report.summary.gapDiscoveries
  transitions :
    report.summary.uniqueDeliveredGapTransitions ≤ report.summary.uniqueGapTransitions
  confirmed : report.summary.deliveryConfirmedScans ≤ report.summary.scans
  rates : ∀ rate ∈ [report.conversion.deliveredGapToResume,
    report.conversion.resumeAttemptToCoveredTransition,
    report.conversion.coveredTransitionToWorkbenchReady,
    report.conversion.resumeAttemptToWorkbenchReady],
    ∀ basisPoints ∈ rate.basisPoints, basisPoints ≤ 10000

section

variable {codec : Codec} {log : VerifiedLog} {tally : Tally} {events : List FunnelEvent}

/-- An attempt fails once. -/
theorem nodup_failedAttempts (checked : log.Checked codec) :
    (log.known.filterMap FunnelEvent.failedAttempt?).Nodup := by
  have distinct : log.known.Pairwise fun left right =>
      left.kind ≠ right.kind ∨ left.businessKey ≠ right.businessKey := by
    refine List.pairwise_map.mpr ((List.pairwise_map.mp checked.ids).imp_of_mem ?_)
    intro left right here there ids
    rw [checked.named left here, checked.named right there, eventId, eventId] at ids
    by_contra! same
    exact ids (by rw [same.1, same.2])
  refine List.pairwise_filterMap.mpr (distinct.imp ?_)
  intro left right different attempt failed other failed' same
  cases left <;> cases failed
  cases right <;> cases failed'
  obtain kind | key := different
  · exact kind rfl
  · exact key same

theorem mem_readyAttempts {attempt : String} :
    attempt ∈ attemptsOf FunnelEvent.readyAttempt? events ↔
      ∃ t, .workbenchReady t attempt ∈ events := by
  rw [attemptsOf, List.mem_toFinset, List.mem_filterMap]
  constructor
  · rintro ⟨event, member, picked⟩
    cases event <;> cases picked
    exact ⟨_, member⟩
  · rintro ⟨t, member⟩
    exact ⟨_, member, rfl⟩

theorem mem_failedAttempts {attempt : String} :
    attempt ∈ attemptsOf FunnelEvent.failedAttempt? events ↔
      ∃ t stage, .attemptFailed t attempt stage ∈ events := by
  rw [attemptsOf, List.mem_toFinset, List.mem_filterMap]
  constructor
  · rintro ⟨event, member, picked⟩
    cases event <;> cases picked
    exact ⟨_, _, member⟩
  · rintro ⟨t, stage, member⟩
    exact ⟨_, member, rfl⟩

/-- The sets that the checks after the loop want to be subsets of one another. -/
structure Tally.Nested (tally : Tally) : Prop where
  resumed : tally.resumedTransitions ⊆ tally.gaps
  covered : tally.coveredTransitions ⊆ tally.resumedTransitions
  ready : tally.readyTransitions ⊆ tally.coveredTransitions
  boundAttempts : tally.boundAttempts ⊆ tally.resumeAttempts
  coveredAttempts : tally.coveredAttempts ⊆ tally.boundAttempts
  readyAttempts : tally.readyAttempts ⊆ tally.coveredAttempts
  failedAttempts : tally.failedAttempts ⊆ tally.resumeAttempts

theorem Tally.Nested.ensureSubsets (nested : tally.Nested) : tally.ensureSubsets = .ok () := by
  simp only [Tally.ensureSubsets, Result.check_bind_eq_ok, Result.ensure_eq_ok]
  exact ⟨nested.resumed, nested.covered, nested.ready, nested.boundAttempts,
    nested.coveredAttempts, nested.readyAttempts, nested.failedAttempts⟩

/-- Events that have what they rest on fill nested sets. -/
theorem Tally.Sets.nested (sets : tally.Sets events)
    (grounded : ∀ event ∈ events, event.Grounded events) : tally.Nested where
  resumed t member := by
    obtain ⟨a, resumed⟩ := (sets.resumedTransitions t).mp member
    exact (sets.gaps t).mpr (grounded _ resumed)
  covered t member := by
    obtain ⟨a, covered⟩ := (sets.coveredTransitions t).mp member
    exact (sets.resumedTransitions t).mpr ⟨a, (grounded _ covered).1⟩
  ready t member := by
    obtain ⟨a, ready⟩ := (sets.readyTransitions t).mp member
    exact (sets.coveredTransitions t).mpr ⟨a, grounded _ ready⟩
  boundAttempts a member := by
    obtain ⟨t, bound⟩ := (sets.boundAttempts a).mp member
    exact (sets.resumeAttempts a).mpr ⟨t, grounded _ bound⟩
  coveredAttempts a member := by
    obtain ⟨t, covered⟩ := (sets.coveredAttempts a).mp member
    exact (sets.boundAttempts a).mpr ⟨t, (grounded _ covered).2⟩
  readyAttempts a member := by
    obtain ⟨t, ready⟩ := (sets.readyAttempts a).mp member
    exact (sets.coveredAttempts a).mpr ⟨t, grounded _ ready⟩
  failedAttempts a member := by
    obtain ⟨t, stage, failed⟩ := (sets.failedAttempts a).mp member
    exact (sets.resumeAttempts a).mpr ⟨t, grounded _ failed⟩

theorem Tally.Sets.readyAttempts_eq (sets : tally.Sets events) :
    tally.readyAttempts = attemptsOf FunnelEvent.readyAttempt? events := by
  ext attempt
  rw [sets.readyAttempts, mem_readyAttempts]

theorem Tally.Sets.failedAttempts_eq (sets : tally.Sets events) :
    tally.failedAttempts = attemptsOf FunnelEvent.failedAttempt? events := by
  ext attempt
  rw [sets.failedAttempts, mem_failedAttempts]

/-- There are no more resumed attempts than events. -/
theorem Tally.Sets.card_resumeAttempts_le (sets : tally.Sets events) :
    tally.resumeAttempts.card ≤ events.length := by
  have keys : tally.resumeAttempts ⊆ (events.map FunnelEvent.businessKey).toFinset := by
    intro attempt member
    obtain ⟨t, resumed⟩ := (sets.resumeAttempts attempt).mp member
    exact List.mem_toFinset.mpr (List.mem_map.mpr ⟨_, resumed, rfl⟩)
  calc tally.resumeAttempts.card
    _ ≤ (events.map FunnelEvent.businessKey).toFinset.card := Finset.card_le_card keys
    _ ≤ (events.map FunnelEvent.businessKey).length := List.toFinset_card_le _
    _ = events.length := List.length_map _

theorem Tally.Sets.card_gaps_le (sets : tally.Sets events) :
    tally.gaps.card ≤ events.length := by
  have found : tally.gaps ⊆
      ((events.filterMap FunnelEvent.gap?).map Prod.snd).toFinset := by
    intro t member
    obtain ⟨scanId, gap⟩ := (sets.gaps t).mp member
    refine List.mem_toFinset.mpr (List.mem_map.mpr ⟨(scanId, t), ?_, rfl⟩)
    exact List.mem_filterMap.mpr ⟨_, gap, rfl⟩
  calc tally.gaps.card
    _ ≤ ((events.filterMap FunnelEvent.gap?).map Prod.snd).toFinset.card :=
        Finset.card_le_card found
    _ ≤ ((events.filterMap FunnelEvent.gap?).map Prod.snd).length := List.toFinset_card_le _
    _ ≤ events.length := by
        rw [List.length_map]
        exact List.length_filterMap_le ..

/-- A confirmed scan has a baseline. -/
theorem Tally.Sets.card_delivered_le (sets : tally.Sets events) (numbers : tally.Numbers events)
    (grounded : ∀ event ∈ events, event.Grounded events) :
    tally.deliveryConfirmedScanIds.card ≤ tally.scans := by
  have confirmed :
      tally.deliveryConfirmedScanIds ⊆ (events.filterMap FunnelEvent.scan?).toFinset := by
    intro scanId member
    obtain ⟨inspected, completed, complete, baseline⟩ :=
      grounded _ ((sets.delivered scanId).mp member)
    exact List.mem_toFinset.mpr (List.mem_filterMap.mpr ⟨_, baseline, rfl⟩)
  calc tally.deliveryConfirmedScanIds.card
    _ ≤ (events.filterMap FunnelEvent.scan?).toFinset.card := Finset.card_le_card confirmed
    _ ≤ (events.filterMap FunnelEvent.scan?).length := List.toFinset_card_le _
    _ = tally.scans := numbers.scans.symm

/-- A gap that is found for a scan is one of the gaps. -/
theorem Tally.Sets.mem_gaps_of_deliveredOf (sets : tally.Sets events)
    (numbers : tally.Numbers events) {scanId t : String}
    (found : t ∈ deliveredOf tally.gapsByScan scanId) : t ∈ tally.gaps := by
  rw [deliveredOf, numbers.gapsByScan] at found
  obtain ⟨⟨scan, t⟩, member, rfl⟩ := List.mem_map.mp found
  obtain ⟨event, known, picked⟩ := List.mem_filterMap.mp (List.mem_of_mem_filter member)
  cases event <;> cases picked
  exact (sets.gaps t).mpr ⟨_, known⟩

/-- What the loop over the confirmed scans gives. -/
theorem deliver_log (order : SetOrder) (sets : tally.Sets events)
    (numbers : tally.Numbers events) (few : events.length ≤ maxEvents) :
    ∃ delivered, (order.list tally.deliveryConfirmedScanIds).foldlM (deliver tally.gapsByScan)
        .none = .ok delivered ∧
      delivered.discoveries ≤ tally.gapDiscoveries ∧ delivered.transitions ⊆ tally.gaps := by
  have total : ((order.list tally.deliveryConfirmedScanIds).map fun scan =>
      (deliveredOf tally.gapsByScan scan).length).sum ≤ tally.gapDiscoveries := by
    simp only [deliveredOf, numbers.gapsByScan, List.length_map]
    rw [numbers.gapDiscoveries]
    exact sum_filter_length_le (order.nodup _) _
  have gaps : tally.gapDiscoveries ≤ events.length :=
    numbers.gapDiscoveries ▸ List.length_filterMap_le ..
  have room : (DeliveredGaps.none.discoveries +
      ((order.list tally.deliveryConfirmedScanIds).map fun scan =>
        (deliveredOf tally.gapsByScan scan).length).sum) ≤ usizeMax := by
    have few : tally.gapDiscoveries ≤ 100000 := gaps.trans few
    have zero : DeliveredGaps.none.discoveries = 0 := rfl
    rw [usizeMax]
    omega
  obtain ⟨delivered, run, discoveries, transitions⟩ := deliver_run room
  refine ⟨delivered, run, ?_, ?_⟩
  · rw [discoveries, DeliveredGaps.none, Nat.zero_add]
    exact total
  · intro t member
    obtain none | ⟨scanId, found⟩ := transitions t member
    · exact absurd none (Finset.notMem_empty t)
    · exact sets.mem_gaps_of_deliveredOf numbers found

/-- Of the resumed attempts some are unresolved, and the rest is ready or failed. -/
theorem Tally.Nested.unresolved (nested : tally.Nested) :
    tally.unresolvedAttempts.card + (tally.readyAttempts ∪ tally.failedAttempts).card =
      tally.resumeAttempts.card := by
  have within : tally.readyAttempts ∪ tally.failedAttempts ⊆ tally.resumeAttempts :=
    Finset.union_subset
      ((nested.readyAttempts.trans nested.coveredAttempts).trans nested.boundAttempts)
      nested.failedAttempts
  have rest : tally.unresolvedAttempts =
      tally.resumeAttempts \ (tally.readyAttempts ∪ tally.failedAttempts) := by
    ext attempt
    rw [Tally.unresolvedAttempts, Finset.mem_filter, Finset.mem_sdiff, Finset.mem_union, not_or]
  rw [rest, Finset.card_sdiff_add_card_eq_card within]

/-- The rates of nested sets that are not large are computed, and are at most one. -/
theorem Tally.Nested.conversion (nested : tally.Nested) {delivered : DeliveredGaps}
    (transitions : delivered.transitions.card ≤ maxEvents)
    (attempts : tally.resumeAttempts.card ≤ maxEvents) :
    ∃ conversion, tally.conversion delivered = .ok conversion ∧
      ∀ rate ∈ [conversion.deliveredGapToResume, conversion.resumeAttemptToCoveredTransition,
        conversion.coveredTransitionToWorkbenchReady, conversion.resumeAttemptToWorkbenchReady],
        ∀ basisPoints ∈ rate.basisPoints, basisPoints ≤ 10000 := by
  have covered := Finset.card_le_card (nested.coveredAttempts.trans nested.boundAttempts)
  have ready := Finset.card_le_card nested.readyAttempts
  have delivers : (tally.resumedTransitions ∩ delivered.transitions).card ≤
      delivered.transitions.card := Finset.card_le_card Finset.inter_subset_right
  obtain ⟨first, firstRate, firstBound⟩ := expectRate_of_le delivers transitions
  obtain ⟨second, secondRate, secondBound⟩ := expectRate_of_le covered attempts
  obtain ⟨third, thirdRate, thirdBound⟩ := expectRate_of_le ready (covered.trans attempts)
  obtain ⟨fourth, fourthRate, fourthBound⟩ := expectRate_of_le (ready.trans covered) attempts
  refine ⟨⟨first, second, third, fourth⟩, ?_, ?_⟩
  · rw [Tally.conversion, firstRate, Result.ok_bind, secondRate, Result.ok_bind, thirdRate,
      Result.ok_bind, fourthRate]
    rfl
  · intro rate member
    simp only [List.mem_cons, List.not_mem_nil, or_false] at member
    obtain rfl | rfl | rfl | rfl := member
    · exact firstBound
    · exact secondBound
    · exact thirdBound
    · exact fourthBound

/-- A report is built of every log that the reader accepts, whatever the order of its sets,
and its figures fit together. -/
theorem buildReport_consistent (order : SetOrder) {content : Bytes}
    (reads : verifyLogBytes codec content = .ok log) :
    ∃ report, buildReport order log = .ok report ∧ report.Consistent log.known := by
  have founded := founded_of_verifyLogBytes reads
  have few : log.known.length ≤ maxEvents := (List.length_map _).trans_le founded.few
  obtain ⟨tally, run, sets, numbers⟩ :=
    count_run (fun event member => ⟨_, founded.grounded event member⟩) few
  have nested := sets.nested founded.grounded
  have confirmed := sets.card_delivered_le numbers founded.grounded
  obtain ⟨delivered, delivers, discoveries, transitions⟩ := deliver_log order sets numbers few
  have gaps := Finset.card_le_card transitions
  obtain ⟨conversion, converts, rates⟩ := nested.conversion
    (gaps.trans (sets.card_gaps_le.trans few)) (sets.card_resumeAttempts_le.trans few)
  have failures : tally.failures.total = tally.failedAttempts.card := by
    rw [numbers.failures, sets.failedAttempts_eq, attemptsOf,
      List.toFinset_card_of_nodup (nodup_failedAttempts (checked_of_verifyLogBytes reads))]
  have built : buildReport order log = .ok {
      schema := reportSchema
      toolVersion := packageVersion
      sourceSchema := eventSchema
      eventCount := log.events.length
      chainTipSha256 := log.chainTip
      privacy := ⟨false, false, false, false, false, false, false, false⟩
      claimBoundary := ⟨true, false, false, false, false⟩
      summary := tally.summary delivered (tally.scans - tally.deliveryConfirmedScanIds.card)
      conversion
      failures := tally.failures } := by
    rw [buildReport, ← VerifiedLog.known, run, Result.ok_bind, nested.ensureSubsets,
      Result.ok_bind, checkedSub_of_le confirmed, Result.ofOption_some, Result.ok_bind, delivers,
      Result.ok_bind, converts]
    rfl
  refine ⟨_, built, ?_⟩
  exact {
    ready := Finset.card_le_card nested.readyAttempts
    covered := Finset.card_le_card nested.coveredAttempts
    bound := Finset.card_le_card nested.boundAttempts
    stages := numbers.stages.symm
    failed := failures.trans (by rw [sets.failedAttempts_eq])
    failedResumed := failures.trans_le (Finset.card_le_card nested.failedAttempts)
    unresolved := by
      rw [← sets.readyAttempts_eq, ← sets.failedAttempts_eq]
      exact nested.unresolved
    discoveries
    transitions := gaps
    confirmed
    rates }

end

section

local instance stringsTrans : IsTrans String (· ≤ ·) := ⟨fun _ _ _ => le_trans⟩
local instance stringsAntisymm : Std.Antisymm (α := String) (· ≤ ·) := ⟨fun _ _ => le_antisymm⟩
local instance stringsTotal : Std.Total (α := String) (· ≤ ·) := ⟨le_total⟩

/-- Sets that are listed in the order of their members. -/
def SetOrder.sorted : SetOrder where
  list members := members.sort (· ≤ ·)
  nodup members := members.sort_nodup (· ≤ ·)
  mem members _ := members.mem_sort (· ≤ ·)

end

/-- The figures depend only on the events. -/
theorem buildReport_figures (order : SetOrder) {log log' : VerifiedLog}
    (same : log.known = log'.known) :
    (buildReport order log).map (fun report =>
      (report.summary, report.conversion, report.failures)) =
    (buildReport order log').map fun report =>
      (report.summary, report.conversion, report.failures) := by
  rw [buildReport, buildReport, ← VerifiedLog.known, ← VerifiedLog.known, same]
  cases log'.known.foldlM Tally.count .zero with
  | error failure => rfl
  | ok tally =>
      rw [Result.ok_bind, Result.ok_bind]
      cases tally.ensureSubsets with
      | error failure => rfl
      | ok _ =>
          rw [Result.ok_bind, Result.ok_bind]
          cases Result.ofOption _ (checkedSub tally.scans tally.deliveryConfirmedScanIds.card) with
          | error failure => rfl
          | ok unconfirmed =>
              rw [Result.ok_bind, Result.ok_bind]
              cases (order.list tally.deliveryConfirmedScanIds).foldlM
                  (deliver tally.gapsByScan) .none with
              | error failure => rfl
              | ok delivered =>
                  rw [Result.ok_bind, Result.ok_bind]
                  cases tally.conversion delivered <;> rfl

namespace Sample

/-- The events as they would stand in a log. -/
def listed (events : List FunnelEvent) : VerifiedLog :=
  ⟨events.map fun event => ⟨⟨eventSchema, packageVersion, 0, 0, "", "", event⟩, ""⟩, "", .default⟩

noncomputable def recorded : Result Batch :=
  appendAll (.serde sha256) clock 0 funnel ⟨.empty, [], []⟩

theorem reads : ∃ content log, log.known = funnel ∧
    verifyLogBytes (.serde sha256) content = .ok log := by
  have succeeds : recorded.isOk = true := by decide +kernel
  obtain ⟨batch, done⟩ : ∃ batch, recorded = .ok batch := by
    cases result : recorded with
    | ok batch => exact ⟨batch, rfl⟩
    | error failure =>
        rw [result] at succeeds
        cases succeeds
  obtain ⟨verifies, -, known, -⟩ :=
    appendAll_verifies (lawful_serde digest) running verifies_empty done
  exact ⟨batch.encoded, batch.log, known.trans (by decide), verifies.reads⟩

end Sample

/-- The report of a log with both kinds of scans and an attempt for each outcome. -/
theorem buildReport_consistent_sample : ∃ content log report, log.known = Sample.funnel ∧
    verifyLogBytes (.serde Sample.sha256) content = .ok log ∧
    buildReport .sorted log = .ok report ∧ report.Consistent log.known ∧
    report.summary.workbenchReadyAttempts = 1 ∧ report.summary.unresolvedAttempts = 1 ∧
    report.failures.total = 1 ∧
    report.conversion.deliveredGapToResume.basisPoints = some 5000 ∧
    report.conversion.resumeAttemptToWorkbenchReady.basisPoints = some 3333 := by
  obtain ⟨content, log, known, reads⟩ := Sample.reads
  obtain ⟨report, built, consistent⟩ := buildReport_consistent .sorted reads
  have figures := buildReport_figures .sorted
    (known.trans (show Sample.funnel = (Sample.listed Sample.funnel).known by decide))
  rw [built] at figures
  have counted : (buildReport .sorted (Sample.listed Sample.funnel)).toOption.any (fun report =>
      report.summary.workbenchReadyAttempts = 1 ∧ report.summary.unresolvedAttempts = 1 ∧
      report.failures.total = 1 ∧
      report.conversion.deliveredGapToResume.basisPoints = some 5000 ∧
      report.conversion.resumeAttemptToWorkbenchReady.basisPoints = some 3333) = true := by
    decide +kernel
  cases listed : buildReport .sorted (Sample.listed Sample.funnel) with
  | error failure =>
      rw [listed] at figures
      cases figures
  | ok other =>
      rw [listed] at counted figures
      obtain ⟨summary, conversion, failures⟩ : report.summary = other.summary ∧
          report.conversion = other.conversion ∧ report.failures = other.failures := by
        simpa [Except.map] using figures
      refine ⟨content, log, report, known, reads, built, consistent, ?_⟩
      rw [summary, conversion, failures]
      simpa [Except.toOption] using counted

end Stratadiff.Value
