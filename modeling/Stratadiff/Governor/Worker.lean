import Stratadiff.Governor.Evaluate
import Stratadiff.Governor.Store
import Stratadiff.Lib.Program

/-!
# The worker

The worker as a program: it calls the store, GitHub and the clock, and any of the calls
to the first two may fail. `processOne` claims an item of the outbox, does the item's
work, and completes the item or puts it off.
-/

namespace Stratadiff.Governor

/-! ## Calls -/

inductive StoreOp where
  | claimOutbox (workerId : WorkerId) (now : Time) (leaseSeconds : Nat)
  | completeOutbox (lease : OutboxLease) (now : Time)
  | failOutbox (lease : OutboxLease) (now : Time) (retrySeconds : Nat)
  | acquireGateLease (subjectId : GateId) (epoch revision : Nat) (workerId : WorkerId) (now : Time)
      (leaseSeconds : Nat)
  | authorizeSuccessPublication (lease : GateLease) (observedCheckRunId : Option Nat) (now : Time)
  | getGateSubject (subjectId : GateId)
  | rejectGatePublication (lease : GateLease) (summary : String) (observedCheckRunId : Option Nat)
      (now : Time)
  | supersedeStaleGatePublication (subjectId : GateId) (epoch staleRevision : Nat)
      (observedCheckRunId : Nat) (now : Time)
  | commitGatePublication (lease : GateLease) (checkRunId : Nat) (publishedState : GateState)
      (now : Time)
  | readPair (pairId : PairId) (epoch : Nat)
  | readDispatch (pairId : PairId) (epoch : Nat)
  | readEvidence (pairId : PairId) (epoch : Nat)
  | acquirePairLease (pairId : PairId) (epoch : Nat) (workerId : WorkerId) (now : Time)
      (leaseSeconds : Nat)
  | renewPairLease (lease : PairLease) (now : Time) (leaseSeconds : Nat)
  | commitPairGate (lease : PairLease) (desiredState : GateState) (summary : String) (now : Time)
  | planDispatch (lease : PairLease) (now : Time)
  | beginDispatchAttempt (lease : PairLease) (now : Time)
  | adoptDispatch (lease : PairLease) (commentId : Nat) (dispatchedAt : Time)
      (evidenceTimeoutSeconds : Nat)
  | beginRepositorySnapshot (repository : RepositoryRef)
  | reconcileOpenPullRequests (token : RepositorySnapshotToken) (pulls : List LivePullRequest)
      (now : Time)
  deriving DecidableEq

namespace StoreOp

abbrev Answer : StoreOp → Type
  | claimOutbox .. => Option OutboxLease
  | acquireGateLease .. => Option GateLease
  | authorizeSuccessPublication .. => Authorization
  | getGateSubject .. => Option Gate
  | readPair .. => Option Pair
  | readDispatch .. => Option Dispatch
  | readEvidence .. => List EvidenceRecord
  | acquirePairLease .. => Option PairLease
  | renewPairLease .. => Option PairLease
  | beginRepositorySnapshot .. => RepositorySnapshotToken
  | reconcileOpenPullRequests .. => RepositoryReconcileResult
  | _ => Bool

/-- A query that changes nothing. -/
def reading {α : Type} (query : Database → α) : Tx α := fun db => .ok (query db, db)

/-- The transaction behind a call, while some outbox rows are locked by others. -/
def run (locked : OutboxId → Bool) (clock : Time) : (op : StoreOp) → Tx op.Answer
  | claimOutbox workerId now leaseSeconds =>
      Governor.claimOutbox locked workerId now leaseSeconds
  | completeOutbox lease now => Governor.completeOutbox lease now
  | failOutbox lease now retrySeconds => Governor.failOutbox lease now retrySeconds
  | acquireGateLease subjectId epoch revision workerId now leaseSeconds =>
      Governor.acquireGateLease subjectId epoch revision workerId now leaseSeconds
  | authorizeSuccessPublication lease observedCheckRunId now =>
      Governor.authorizeSuccessPublication lease observedCheckRunId now clock
  | getGateSubject subjectId => reading fun db => db.gates[subjectId]?
  | rejectGatePublication lease summary observedCheckRunId now =>
      Governor.rejectGatePublication lease summary observedCheckRunId now
  | supersedeStaleGatePublication subjectId epoch staleRevision observedCheckRunId now =>
      Governor.supersedeStaleGatePublication subjectId epoch staleRevision observedCheckRunId now
  | commitGatePublication lease checkRunId publishedState now =>
      Governor.commitGatePublication lease checkRunId publishedState now
  | readPair pairId epoch => reading fun db => db.pairAt pairId epoch
  | readDispatch pairId epoch => reading fun db => db.dispatchAt pairId epoch
  | readEvidence pairId epoch => reading fun db => db.evidenceAt pairId epoch
  | acquirePairLease pairId epoch workerId now leaseSeconds =>
      Governor.acquirePairLease pairId epoch workerId now leaseSeconds
  | renewPairLease lease now leaseSeconds => Governor.renewPairLease lease now leaseSeconds
  | commitPairGate lease desiredState summary now =>
      Governor.commitPairGate lease desiredState summary now clock
  | planDispatch lease now => Governor.planDispatch lease now
  | beginDispatchAttempt lease now => Governor.beginDispatchAttempt lease now
  | adoptDispatch lease commentId dispatchedAt evidenceTimeoutSeconds =>
      Governor.adoptDispatch lease commentId dispatchedAt evidenceTimeoutSeconds
  | beginRepositorySnapshot repository => Governor.beginRepositorySnapshot repository
  | reconcileOpenPullRequests token pulls now =>
      Governor.reconcileOpenPullRequests token pulls now

end StoreOp

structure Comment where
  id : Nat
  createdAt : Time
  deriving DecidableEq, Repr

inductive GithubOp where
  | getPullRequest (installationId : Nat) (repositoryFullName : String) (pullNumber : Nat)
  | createIssueComment (installationId : Nat) (repositoryFullName : String) (pullNumber : Nat)
      (body : String)
  | findIssueComment (installationId : Nat) (repositoryFullName : String) (pullNumber : Nat)
      (body : String) (notBefore : Time)
  | publishGate (subjectId : GateId) (subject : Gate)
  | listOpenPullRequests (repository : RepositoryRef)
  deriving DecidableEq

abbrev GithubOp.Answer : GithubOp → Type
  | getPullRequest .. => LivePullRequest
  | createIssueComment .. => Comment
  | findIssueComment .. => Option Comment
  | publishGate .. => Nat
  | listOpenPullRequests .. => List LivePullRequest

inductive Op where
  | now
  | store (op : StoreOp)
  | github (op : GithubOp)
  deriving DecidableEq

abbrev Op.Answer : Op → Type
  | now => Time
  | store op => op.Answer
  | github op => op.Answer

def services : Interface := ⟨Op, Op.Answer⟩

abbrev Worker (α : Type) := Program services α

def now : Worker Time := Program.perform (ι := services) .now

def store (op : StoreOp) : Worker op.Answer := Program.perform (ι := services) (.store op)

def github (op : GithubOp) : Worker op.Answer := Program.perform (ι := services) (.github op)

structure WorkerOptions where
  workerId : WorkerId
  leaseSeconds : Nat
  retrySeconds : Nat
  evidenceTimeoutSeconds : Nat
  deriving DecidableEq, Repr

/-! ## Work -/

def loadPairSnapshot (pairId : PairId) (epoch : Nat) : Worker (Option PairSnapshot) := do
  match ← store (.readPair pairId epoch) with
  | none => return none
  | some pair =>
      let dispatch ← store (.readDispatch pairId epoch)
      let evidence ← store (.readEvidence pairId epoch)
      return some (snapshotOf pairId pair dispatch evidence)

/-- Whether GitHub shows another pull request than a snapshot has. -/
def LivePullRequest.differs (live : LivePullRequest) (snapshot : PairSnapshot) : Bool :=
  live.state != .opened || live.draft || live.baseSha != snapshot.baseSha ||
    live.headSha != snapshot.headSha

def getPullRequest (snapshot : PairSnapshot) : Worker LivePullRequest :=
  github (.getPullRequest snapshot.installationId snapshot.repositoryFullName snapshot.pullNumber)

def Gate.isSuccess (gate : Gate) : Bool := !gate.isMergeGroup && gate.desiredState == .success

section

variable (options : WorkerOptions)

/-- Write a gate's check and record the publication. -/
def publishCheck (subjectId : GateId) (subject : Gate) (lease : GateLease) : Worker Unit := do
  let checkRunId ← github (.publishGate subjectId subject)
  let supersede : Worker Unit := do
    let _ ← store (.supersedeStaleGatePublication subjectId subject.epoch subject.revision
      checkRunId (← now))
  let commit : Worker Unit := do
    let committed ← store (.commitGatePublication lease checkRunId subject.desiredState (← now))
    if !committed then
      supersede
  if subject.isSuccess then
    match subject.pairId with
    | none => .fail "pull-request gate is missing its pair binding"
    | some pairId =>
        match ← store (.authorizeSuccessPublication lease (some checkRunId) (← now)) with
        | .expired => return
        | .stale => supersede
        | .authorized =>
            match ← loadPairSnapshot pairId subject.epoch with
            | none =>
                let _ ← store (.rejectGatePublication lease
                  "The pair disappeared while the success check was being published."
                  (some checkRunId) (← now))
            | some pair =>
                let live ← getPullRequest pair
                if !pair.active || live.differs pair then
                  let _ ← store (.rejectGatePublication lease
                    "Live pull-request base/head changed during success publication."
                    (some checkRunId) (← now))
                else commit
  else commit

def publishGate (subjectId : GateId) (epoch revision : Nat) : Worker Unit := do
  match ← store (.acquireGateLease subjectId epoch revision options.workerId (← now)
      options.leaseSeconds) with
  | none =>
      match ← store (.getGateSubject subjectId) with
      | none => return
      | some current =>
          if current.epoch == epoch && current.revision == revision then
            .fail "gate subject lease is currently held by another worker"
  | some lease =>
      match ← store (.getGateSubject subjectId) with
      | none => return
      | some subject =>
          if subject.epoch != lease.epoch || subject.revision != lease.revision then
            return
          if subject.isSuccess then
            match subject.pairId with
            | none => .fail "pull-request gate is missing its pair binding"
            | some pairId =>
                match ← loadPairSnapshot pairId subject.epoch with
                | none =>
                    let _ ← store (.rejectGatePublication lease
                      "The pair disappeared before the success check could be published."
                      none (← now))
                | some pair =>
                    let live ← getPullRequest pair
                    if !pair.active || live.differs pair then
                      let _ ← store (.rejectGatePublication lease
                        "Live pull-request base/head changed before success publication."
                        none (← now))
                    else
                      let authorization ← store (.authorizeSuccessPublication lease none (← now))
                      if authorization == .authorized then
                        publishCheck subjectId subject lease
          else publishCheck subjectId subject lease

/-- Commit a decision or fail. -/
def commitDecision (lease : PairLease) (state : GateState) (summary moved : String) :
    Worker Unit := do
  let committed ← store (.commitPairGate lease state summary (← now))
  if !committed then
    .fail moved

def evaluate (parseUrl : UrlParser) (pairId : PairId) (epoch : Nat) : Worker Unit := do
  match ← store (.acquirePairLease pairId epoch options.workerId (← now) options.leaseSeconds) with
  | none =>
      match ← loadPairSnapshot pairId epoch with
      | none => return
      | some current =>
          if current.active && !current.quarantined then
            .fail "pair lease is currently held by another worker"
  | some lease =>
      match ← loadPairSnapshot pairId epoch with
      | none => return
      | some snapshot =>
          let decision := evaluatePair parseUrl snapshot (← now)
          if decision.state == .success then
            let live ← getPullRequest snapshot
            if live.differs snapshot then
              commitDecision lease .failure
                "Live pull-request base/head changed before the success decision committed."
                "pair moved before the failure decision could commit"
            else
              commitDecision lease decision.state decision.summary
                "pair moved before the evidence decision could commit"
          else
            commitDecision lease decision.state decision.summary
              "pair moved before the evidence decision could commit"

def beginCommandAttempt (lease : PairLease) : Worker PairLease := do
  match ← store (.renewPairLease lease (← now) options.leaseSeconds) with
  | none => .fail "dispatch lease expired before the command POST"
  | some renewed =>
      let began ← store (.beginDispatchAttempt renewed (← now))
      if began then
        return renewed
      else
        .fail "dispatch attempt was already started by another worker"

def command : String := "@coderabbitai full review"

/-- Find the command's comment or, when that is allowed, post it. -/
def obtainComment (snapshot : PairSnapshot) (plannedAt : Time) (mayPost : Bool) :
    Worker Comment := do
  let recoveryWatermark := plannedAt / 1000 * 1000
  match ← github (.findIssueComment snapshot.installationId snapshot.repositoryFullName
      snapshot.pullNumber command recoveryWatermark) with
  | some comment => return comment
  | none =>
      if mayPost then
        github (.createIssueComment snapshot.installationId snapshot.repositoryFullName
          snapshot.pullNumber command)
      else
        .fail "command POST outcome is uncertain; waiting for comment recovery"

/-- The command of a planned or attempted dispatch. -/
def sendCommand (lease : PairLease) (snapshot : PairSnapshot) (plannedAt : Time)
    (mayPost : Bool) : Worker Unit := do
  let comment ← obtainComment snapshot plannedAt mayPost
  let liveAfter ← getPullRequest snapshot
  if liveAfter.differs snapshot then
    commitDecision lease .failure
      "Pull request moved while the provider command was being dispatched."
      "pair moved while dispatch was in flight"
  else
    let adopted ← store (.adoptDispatch lease comment.id comment.createdAt
      options.evidenceTimeoutSeconds)
    if !adopted then
      .fail "command comment could not be adopted into this dispatch epoch"

def attemptCommand (lease : PairLease) (snapshot : PairSnapshot) : Worker Unit := do
  match snapshot.dispatch with
  | some { state := .planned, plannedAt, .. } =>
      let renewed ← beginCommandAttempt options lease
      sendCommand options renewed snapshot plannedAt true
  | some { state := .attempting, plannedAt, .. } =>
      sendCommand options lease snapshot plannedAt false
  | _ => return

def PairSnapshot.dispatchState (snapshot : PairSnapshot) : Option DispatchState :=
  snapshot.dispatch.map (·.state)

def rejectedDispatchSummary : String :=
  "Live pull-request identity no longer matches this fenced pair."

def dispatchReview (pairId : PairId) (epoch : Nat) : Worker Unit := do
  match ← loadPairSnapshot pairId epoch with
  | none => return
  | some beforeLease =>
      if beforeLease.quarantined || beforeLease.dispatchState == some .sent then
        return
      match ← store (.acquirePairLease pairId epoch options.workerId (← now)
          options.leaseSeconds) with
      | none =>
          match ← loadPairSnapshot pairId epoch with
          | none => return
          | some current =>
              if current.active && !current.quarantined &&
                  current.dispatchState != some .sent then
                .fail "pair lease is currently held by another worker"
      | some lease =>
          match ← loadPairSnapshot pairId epoch with
          | none => return
          | some snapshot =>
              if snapshot.quarantined || snapshot.draft || snapshot.state != .opened ||
                  !snapshot.active then
                return
              let liveBefore ← getPullRequest snapshot
              if liveBefore.differs snapshot then
                commitDecision lease .failure rejectedDispatchSummary
                  "pair moved before the dispatch rejection could commit"
              else if snapshot.dispatch.isNone then
                let planned ← store (.planDispatch lease (← now))
                if !planned then
                  return
                match ← loadPairSnapshot pairId epoch with
                | none => .fail "planned dispatch could not be reloaded"
                | some plannedSnapshot =>
                    if plannedSnapshot.dispatchState != some .planned then
                      .fail "planned dispatch could not be reloaded"
                    else attemptCommand options lease plannedSnapshot
              else attemptCommand options lease snapshot

def reconcileRepository (repository : RepositoryRef) : Worker Unit := do
  let token ← store (.beginRepositorySnapshot repository)
  let pulls ← github (.listOpenPullRequests repository)
  let result ← store (.reconcileOpenPullRequests token pulls (← now))
  if result == .stale then
    .fail "repository snapshot was invalidated before reconciliation"

/-! ## Items -/

def process (parseUrl : UrlParser) (payload : OutboxPayload) : Worker Unit :=
  match payload with
  | .publishGate subjectId epoch revision => publishGate options subjectId epoch revision
  | .evaluatePair pairId epoch _ => evaluate options parseUrl pairId epoch
  | .dispatchReview pairId epoch => dispatchReview options pairId epoch
  | .reconcileRepository repository _ => reconcileRepository repository

def processItem (parseUrl : UrlParser) (lease : OutboxLease) : Worker Unit :=
  Program.handle
    (do
      process options parseUrl lease.payload
      let _ ← store (.completeOutbox lease (← now)))
    fun _ => do
      let _ ← store (.failOutbox lease (← now) options.retrySeconds)

def processOne (parseUrl : UrlParser) : Worker Unit := do
  match ← store (.claimOutbox options.workerId (← now) options.leaseSeconds) with
  | none => return
  | some lease => processItem options parseUrl lease

end

end Stratadiff.Governor
