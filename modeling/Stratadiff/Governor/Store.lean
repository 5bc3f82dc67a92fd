import Stratadiff.Governor.Ingest

/-!
# What the workers do to the store

The transactions of the store behind the worker: leases of pairs and gates, decisions,
commands, publications and the outbox. The database's own clock is an argument where a
statement reads it.
-/

namespace Stratadiff.Governor

/-- Seconds as milliseconds. -/
def seconds (n : Nat) : Time := n * 1000

def Lease.heldBy (lease : Option Lease) (workerId : WorkerId) (now : Time) : Bool :=
  lease.any fun lease => lease.owner == workerId && decide (now < lease.expiresAt)

/-- A row that a worker may lease: free, expired, or its own. -/
def Lease.free (lease : Option Lease) (workerId : WorkerId) (now : Time) : Bool :=
  lease.all fun lease => decide (lease.expiresAt ≤ now) || lease.owner == workerId

/-! ## Pairs -/

def acquirePairLease (pairId : PairId) (expectedEpoch : Nat) (workerId : WorkerId) (now : Time)
    (leaseSeconds : Nat) : Tx (Option PairLease) := do
  let expiresAt := now + seconds leaseSeconds
  let row ← updatePair pairId
    (fun pair => pair.epoch == expectedEpoch && pair.active && !pair.quarantined &&
      Lease.free pair.lease workerId now)
    fun pair => { pair with fence := pair.fence + 1, lease := some ⟨workerId, expiresAt⟩ }
  return row.map fun pair => ⟨pairId, pair.epoch, pair.fence, workerId, expiresAt⟩

/-- The condition under which a lease still counts. -/
def PairLease.valid (lease : PairLease) (now : Time) (pair : Pair) : Bool :=
  pair.epoch == lease.epoch && pair.fence == lease.fence &&
    Lease.heldBy pair.lease lease.workerId now && pair.active && !pair.quarantined

def renewPairLease (lease : PairLease) (now : Time) (leaseSeconds : Nat) :
    Tx (Option PairLease) := do
  let expiresAt := now + seconds leaseSeconds
  let row ← updatePair lease.pairId (lease.valid now) fun pair =>
    { pair with lease := pair.lease.map fun held => { held with expiresAt } }
  return row.map fun pair => ⟨lease.pairId, pair.epoch, pair.fence, lease.workerId, expiresAt⟩

/-- The command that counts: sent, with a deadline still ahead. -/
def sentBefore (pairId : PairId) (epoch : Nat) (clock : Time) (row : Dispatch) : Bool :=
  row.isOf pairId epoch && row.state == .sent &&
    row.evidenceDeadlineAt.any fun deadline => decide (clock < deadline)

def lateCommitSummary : String := "The evidence deadline passed before success could commit."

def commitPairGate (lease : PairLease) (desiredState : GateState) (summary : String) (now : Time)
    (clock : Time) : Tx Bool := do
  match ← updatePair lease.pairId (lease.valid now) fun pair => { pair with lease := none } with
  | none => return false
  | some _ =>
      let late := desiredState = .success ∧
        ¬ (← get).dispatches.any (sentBefore lease.pairId lease.epoch clock)
      match ← updateGates
          (fun gate => gate.pairId == some lease.pairId && gate.epoch == lease.epoch && gate.active)
          fun gate =>
            if late then gate.revised .failure lateCommitSummary
            else gate.revised desiredState summary with
      | none => throw "active gate subject is missing during fenced pair commit"
      | some (id, gate) =>
          enqueueGatePublication id gate now
          return true

/-! ## Commands -/

def beginDispatchAttempt (lease : PairLease) (now : Time) : Tx Bool := do
  match (← get).pairs[lease.pairId]? with
  | none => return false
  | some pair =>
      if lease.valid now pair then
        let changed ← updateDispatches
          (fun row => row.isOf lease.pairId lease.epoch && row.state == .planned)
          fun row => { row with state := .attempting }
        return changed == 1
      else return false

/-- `INSERT INTO dispatch … ON CONFLICT (pair_id, pair_epoch, provider) DO NOTHING`. -/
def insertDispatch (pairId : PairId) (epoch : Nat) (now : Time) : Tx Unit := fun db =>
  if db.dispatches.any (·.isOf pairId epoch) then .ok ((), db)
  else .ok ((), { db with dispatches := Table.put db.dispatches db.dispatches.length {
    pairId, pairEpoch := epoch, state := .planned, commandCommentId := none, dispatchedAt := none
    evidenceDeadlineAt := none, plannedAt := now } })

def planDispatch (lease : PairLease) (now : Time) : Tx Bool := do
  match (← get).pairs[lease.pairId]? with
  | none => return false
  | some pair =>
      if lease.valid now pair then
        insertDispatch lease.pairId lease.epoch now
        return true
      else return false

/-- The lease's fence and time do not count here, only the pair and its epoch. -/
def adoptDispatch (lease : PairLease) (commentId : Nat) (dispatchedAt : Time)
    (evidenceTimeoutSeconds : Nat) : Tx Bool := do
  match (← get).pairs[lease.pairId]? with
  | none => return false
  | some pair =>
      if !(pair.epoch == lease.epoch && pair.active && !pair.quarantined) then
        return false
      let deadline := dispatchedAt + seconds evidenceTimeoutSeconds
      let changed ← updateDispatches
        (fun row => row.isOf lease.pairId lease.epoch && row.state == .attempting)
        fun row => { row with
          commandCommentId := some commentId
          state := .sent
          dispatchedAt := some dispatchedAt
          evidenceDeadlineAt := some deadline }
      if changed ≠ 1 then
        return false
      let _ ← updatePair lease.pairId
        (fun pair => pair.epoch == lease.epoch && pair.fence == lease.fence &&
          pair.lease.any (·.owner == lease.workerId))
        fun pair => { pair with lease := none }
      match Table.first (← get).gates fun gate =>
          gate.pairId == some lease.pairId && gate.epoch == lease.epoch && gate.active with
      | none => throw "active gate subject is missing while adopting a dispatch"
      | some (_, gate) =>
          enqueue (.evaluatePair lease.pairId lease.epoch gate.revision)
            (.evaluateTimeout lease.pairId lease.epoch) deadline
          return true

/-! ## Readings

A snapshot of a pair is read by three queries outside a transaction. -/

def Database.pairAt (db : Database) (pairId : PairId) (expectedEpoch : Nat) : Option Pair :=
  db.pairs[pairId]?.filter fun pair => pair.epoch == expectedEpoch

def Database.dispatchAt (db : Database) (pairId : PairId) (expectedEpoch : Nat) :
    Option Dispatch :=
  (Table.first db.dispatches (·.isOf pairId expectedEpoch)).map Prod.snd

/-- `ORDER BY source_updated_at, source_id`, of which the ids are texts. -/
def Database.evidenceAt (db : Database) (pairId : PairId) (expectedEpoch : Nat) :
    List EvidenceRecord :=
  (db.evidence.filter fun row => row.pairId == pairId && row.pairEpoch == expectedEpoch
    ).insertionSort fun left right =>
      left.sourceUpdatedAt < right.sourceUpdatedAt ∨
        left.sourceUpdatedAt = right.sourceUpdatedAt ∧
          toString left.sourceId ≤ toString right.sourceId

/-- What `loadPairSnapshot` makes of the three readings. -/
def snapshotOf (pairId : PairId) (pair : Pair) (dispatch : Option Dispatch)
    (evidence : List EvidenceRecord) : PairSnapshot where
  id := pairId
  installationId := pair.installationId
  repositoryId := pair.repositoryId
  repositoryFullName := pair.repositoryFullName
  pullNumber := pair.pullNumber
  baseSha := pair.baseSha
  headSha := pair.headSha
  epoch := pair.epoch
  active := pair.active
  quarantine := pair.quarantine
  draft := pair.draft
  state := pair.state
  dispatch := dispatch
  evidence := evidence

/-! ## Publications -/

def acquireGateLease (subjectId : GateId) (expectedEpoch expectedRevision : Nat)
    (workerId : WorkerId) (now : Time) (leaseSeconds : Nat) : Tx (Option GateLease) := do
  let expiresAt := now + seconds leaseSeconds
  let row ← updateGate subjectId
    (fun gate => gate.epoch == expectedEpoch && gate.revision == expectedRevision &&
      Lease.free gate.lease workerId now)
    fun gate => { gate with fence := gate.fence + 1, lease := some ⟨workerId, expiresAt⟩ }
  return row.map fun gate =>
    ⟨subjectId, gate.epoch, gate.revision, gate.fence, workerId, expiresAt⟩

def GateLease.valid (lease : GateLease) (now : Time) (gate : Gate) : Bool :=
  gate.epoch == lease.epoch && gate.revision == lease.revision && gate.fence == lease.fence &&
    Lease.heldBy gate.lease lease.workerId now

inductive Authorization where
  | authorized
  | expired
  | stale
  deriving DecidableEq, Repr

/-- A gate whose success will not be published. -/
def Gate.rejected (gate : Gate) (summary : String) (observedCheckRunId : Option Nat) : Gate :=
  { gate.revised .failure summary with checkRunId := observedCheckRunId.or gate.checkRunId }

def expiredSummary : String := "The evidence deadline passed before success publication."

def authorizeSuccessPublication (lease : GateLease) (observedCheckRunId : Option Nat) (now : Time)
    (clock : Time) : Tx Authorization := do
  let db ← get
  match db.gates[lease.subjectId]? with
  | none => return .stale
  | some gate =>
      if !(lease.valid now gate && gate.desiredState == .success && !gate.quarantined) then
        return .stale
      match gate.pairId with
      | none => throw "pull-request success gate is missing its pair binding"
      | some pairId =>
          match db.pairs[pairId]? with
          | none => return .stale
          | some pair =>
              if !(pair.epoch == lease.epoch && pair.active && !pair.quarantined) then
                return .stale
              if db.dispatches.any (sentBefore pairId lease.epoch clock) then
                return .authorized
              match ← updateGate lease.subjectId (lease.valid now)
                  (·.rejected expiredSummary observedCheckRunId) with
              | none => return .stale
              | some expired =>
                  enqueueGatePublication lease.subjectId expired now
                  return .expired

def commitGatePublication (lease : GateLease) (checkRunId : Nat) (publishedState : GateState)
    (now : Time) : Tx Bool := do
  let row ← updateGate lease.subjectId (lease.valid now) fun gate => { gate with
    checkRunId := some checkRunId
    publishedRevision := some gate.revision
    publishedState := some publishedState
    lease := none }
  return row.isSome

def rejectGatePublication (lease : GateLease) (summary : String) (observedCheckRunId : Option Nat)
    (now : Time) : Tx Bool := do
  match ← updateGate lease.subjectId (lease.valid now) (·.rejected summary observedCheckRunId) with
  | none => return false
  | some gate =>
      enqueueGatePublication lease.subjectId gate now
      return true

/-- The same decision again, as a new revision. -/
def Gate.superseding (gate : Gate) (observedCheckRunId : Nat) : Gate :=
  { gate.revised gate.desiredState gate.desiredSummary with
    checkRunId := gate.checkRunId.or (some observedCheckRunId) }

def supersedeStaleGatePublication (subjectId : GateId) (expectedEpoch staleRevision : Nat)
    (observedCheckRunId : Nat) (now : Time) : Tx Bool := do
  match ← updateGate subjectId
      (fun gate => gate.epoch == expectedEpoch && decide (staleRevision ≤ gate.revision))
      (·.superseding observedCheckRunId) with
  | none => return false
  | some gate =>
      enqueueGatePublication subjectId gate now
      return true

/-! ## The outbox -/

/-- `UPDATE outbox … WHERE id = … RETURNING *`. -/
def updateItem (id : OutboxId) (condition : OutboxItem → Bool)
    (change : OutboxItem → OutboxItem) : Tx (Option OutboxItem) := fun db =>
  match db.outbox[id]? with
  | some item =>
      if condition item then
        .ok (some (change item), { db with outbox := Table.put db.outbox id (change item) })
      else .ok (none, db)
  | none => .ok (none, db)

/-- An item that may be claimed. -/
def OutboxItem.ready (item : OutboxItem) (now : Time) : Bool :=
  item.completedAt.isNone && decide (item.availableAt ≤ now) &&
    item.lease.all fun lease => decide (lease.expiresAt ≤ now)

/-- `SKIP LOCKED` passes over rows that other transactions have locked. -/
def claimOutbox (locked : OutboxId → Bool) (workerId : WorkerId) (now : Time)
    (leaseSeconds : Nat) : Tx (Option OutboxLease) := do
  let candidates := (Table.select (← get).outbox (·.ready now)).filter fun row => !locked row.1
  let ordered := candidates.insertionSort fun left right =>
    left.2.availableAt < right.2.availableAt ∨
      left.2.availableAt = right.2.availableAt ∧ left.1 ≤ right.1
  match ordered.head? with
  | none => return none
  | some (id, _) =>
      let row ← updateItem id (·.completedAt.isNone) fun item => { item with
        lease := some ⟨workerId, now + seconds leaseSeconds⟩
        leaseFence := item.leaseFence + 1 }
      return row.map fun item => ⟨id, item.payload, item.leaseFence, workerId⟩

def OutboxLease.valid (lease : OutboxLease) (now : Time) (item : OutboxItem) : Bool :=
  item.leaseFence == lease.fence && Lease.heldBy item.lease lease.workerId now &&
    item.completedAt.isNone

def completeOutbox (lease : OutboxLease) (now : Time) : Tx Bool := do
  let row ← updateItem lease.id (lease.valid now) fun item =>
    { item with completedAt := some now, lease := none }
  return row.isSome

def failOutbox (lease : OutboxLease) (now : Time) (retrySeconds : Nat) : Tx Bool := do
  let row ← updateItem lease.id (lease.valid now) fun item =>
    { item with availableAt := now + seconds retrySeconds, lease := none }
  return row.isSome

end Stratadiff.Governor
