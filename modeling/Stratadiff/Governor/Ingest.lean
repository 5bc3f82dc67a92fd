import Stratadiff.Governor.Model
import Stratadiff.Lib.Transaction

/-!
# What the governor does with events

The transactions of the store that apply webhook deliveries and listings of open pull
requests. One `def` is one method of the store; a statement of SQL is an update of the
rows that its condition selects. A transaction is one step here: the store takes row
locks and, for ingests, a global lock.
-/

namespace Stratadiff.Governor

abbrev Tx (α : Type) := Transaction Database α

/-- What an ingest did: its disposition and the gates it touched. -/
abbrev Outcome := IngestDisposition × List GateId

/-! ## Statements -/

/-- `UPDATE pr_pair … WHERE id = … RETURNING *`. -/
def updatePair (id : PairId) (condition : Pair → Bool) (change : Pair → Pair) : Tx (Option Pair) :=
  fun db => match db.pairs[id]? with
    | some pair =>
        if condition pair then
          .ok (some (change pair), { db with pairs := Table.put db.pairs id (change pair) })
        else .ok (none, db)
    | none => .ok (none, db)

/-- `UPDATE gate_subject … WHERE id = … RETURNING *`. -/
def updateGate (id : GateId) (condition : Gate → Bool) (change : Gate → Gate) : Tx (Option Gate) :=
  fun db => match db.gates[id]? with
    | some gate =>
        if condition gate then
          .ok (some (change gate), { db with gates := Table.put db.gates id (change gate) })
        else .ok (none, db)
    | none => .ok (none, db)

/-- `UPDATE gate_subject … RETURNING *` without an id: the first row that changed. -/
def updateGates (condition : Gate → Bool) (change : Gate → Gate) : Tx (Option (GateId × Gate)) :=
  fun db => .ok ((Table.first db.gates condition).map fun row => (row.1, change row.2),
    { db with gates := Table.update db.gates condition change })

/-- `UPDATE dispatch …`: the number of rows that changed. -/
def updateDispatches (condition : Dispatch → Bool) (change : Dispatch → Dispatch) : Tx Nat :=
  fun db => .ok ((Table.select db.dispatches condition).length,
    { db with dispatches := Table.update db.dispatches condition change })

/-- `INSERT INTO gate_subject … RETURNING *`. -/
def insertGate (gate : Gate) : Tx GateId := fun db =>
  .ok (db.gates.length, { db with gates := Table.put db.gates db.gates.length gate })

/-- `INSERT INTO outbox … ON CONFLICT (dedupe_key) DO NOTHING`, on the rows. -/
def enqueued (outbox : List OutboxItem) (payload : OutboxPayload) (dedupeKey : DedupeKey)
    (availableAt : Time) : List OutboxItem :=
  if outbox.any (·.dedupeKey == dedupeKey) then outbox
  else Table.put outbox outbox.length
    { payload, dedupeKey, availableAt, lease := none, leaseFence := 0, completedAt := none }

def enqueue (payload : OutboxPayload) (dedupeKey : DedupeKey) (now : Time) : Tx Unit := fun db =>
  .ok ((), { db with outbox := enqueued db.outbox payload dedupeKey now })

def enqueueGatePublication (id : GateId) (gate : Gate) (now : Time) : Tx Unit :=
  enqueue (.publishGate id gate.epoch gate.revision) (.publish id gate.revision) now

def enqueueEvaluation (pairId : PairId) (epoch revision : Nat) (now : Time) : Tx Unit :=
  enqueue (.evaluatePair pairId epoch revision) (.evaluate pairId epoch revision) now

def enqueuePairWork (pairId : PairId) (epoch revision : Nat) (receivedAt : Time) : Tx Unit := do
  enqueue (.dispatchReview pairId epoch) (.dispatch pairId epoch) receivedAt
  enqueueEvaluation pairId epoch revision receivedAt

/-- The next revision of a gate. Its lease ends with the old one. -/
def Gate.revised (gate : Gate) (desiredState : GateState) (desiredSummary : String) : Gate :=
  { gate with
    desiredState, desiredSummary
    revision := gate.revision + 1, fence := gate.fence + 1, lease := none }

/-- A pair whose leases are fenced off. -/
def Pair.fenced (pair : Pair) : Pair := { pair with fence := pair.fence + 1, lease := none }

/-- `COALESCE(MAX(epoch), 0) + 1`. -/
def nextEpoch (epochs : List Nat) : Nat := epochs.foldr max 0 + 1

/-! ## Deliveries and generations -/

inductive DeliveryClaim where
  | new
  | duplicate (disposition : IngestDisposition)
  | collision
  | duplicateCollision
  deriving DecidableEq, Repr

def insertDelivery (row : Delivery) : Tx Unit := fun db =>
  .ok ((), { db with deliveries := db.deliveries ++ [row] })

def insertCollision (row : Collision) : Tx Unit := fun db =>
  .ok ((), { db with collisions := db.collisions ++ [row] })

def claimDelivery (deliveryId eventName payloadSha256 : String) : Tx DeliveryClaim := do
  let db ← get
  match db.deliveries.find? (·.deliveryId == deliveryId) with
  | some row =>
      if row.eventName == eventName && row.payloadSha256 == payloadSha256 then
        match row.disposition with
        | none => throw "persisted webhook delivery is still processing"
        | some disposition => return .duplicate disposition
      else if db.collisions.any (· == ⟨deliveryId, eventName, payloadSha256⟩) then
        return .duplicateCollision
      else
        insertCollision ⟨deliveryId, eventName, payloadSha256⟩
        return .collision
  | none =>
      insertDelivery ⟨deliveryId, eventName, payloadSha256, none⟩
      return .new

/-- Record how a delivery was disposed of. -/
def settleDelivery (deliveryId : String) (disposition : IngestDisposition) : Tx Unit := fun db =>
  .ok ((), { db with
    deliveries := Table.update db.deliveries (·.deliveryId == deliveryId) fun row =>
      { row with disposition := some disposition } })

def generationOf (generations : List (Nat × Nat)) (repositoryId : Nat) : Option Nat :=
  (generations.find? (·.1 == repositoryId)).map Prod.snd

def advanceRepositoryGeneration (repositoryId : Nat) : Tx Nat := fun db =>
  match generationOf db.generations repositoryId with
  | some generation =>
      .ok (generation + 1, { db with
        generations := Table.update db.generations (·.1 == repositoryId) fun row =>
          (row.1, row.2 + 1) })
  | none => .ok (1, { db with generations := db.generations ++ [(repositoryId, 1)] })

def advanceAllRepositoryGenerations : Tx Unit := fun db =>
  .ok ((), { db with generations := db.generations.map fun row => (row.1, row.2 + 1) })

/-! ## Quarantine -/

def Dispatch.isOf (row : Dispatch) (pairId : PairId) (epoch : Nat) : Bool :=
  row.pairId == pairId && row.pairEpoch == epoch

def Dispatch.abandon (row : Dispatch) : Dispatch :=
  { row with state := .abandoned, evidenceDeadlineAt := none }

/-- Abandon the commands of a pair's epoch. -/
def abandonDispatches (pairId : PairId) (epoch : Nat) : Tx Nat :=
  updateDispatches (fun row => row.isOf pairId epoch && row.state != .abandoned) Dispatch.abandon

def Pair.quarantinedBy (pair : Pair) (deliveryId : String) : Pair :=
  { pair.fenced with quarantine := some deliveryId }

/-- `ORDER BY repository_id, subject_type, subject_key`. -/
def subjectOrder (left right : GateId × Gate) : Bool :=
  if left.2.repositoryId ≠ right.2.repositoryId then
    left.2.repositoryId < right.2.repositoryId
  else match left.2.subject, right.2.subject with
    | .mergeGroup a, .mergeGroup b => a ≤ b
    | .mergeGroup _, .pullRequest .. => true
    | .pullRequest .., .mergeGroup _ => false
    | .pullRequest a _, .pullRequest b _ => toString a ≤ toString b

def quarantineSummary : String :=
  "An authenticated webhook could not be scoped; this gate is quarantined."

def Gate.quarantinedBy (gate : Gate) (deliveryId : String) : Gate :=
  { gate.revised .failure quarantineSummary with quarantine := some deliveryId }

def quarantineActivePair (deliveryId : String) (id : PairId) (epoch : Nat) : Tx Unit := do
  let _ ← updatePair id (fun _ => true) (·.quarantinedBy deliveryId)
  let _ ← abandonDispatches id epoch

def quarantineActiveGate (deliveryId : String) (receivedAt : Time) (id : GateId) : Tx Unit := do
  match ← updateGate id (fun _ => true) (·.quarantinedBy deliveryId) with
  | none => throw s!"active gate subject disappeared during global quarantine: {id}"
  | some gate => enqueueGatePublication id gate receivedAt

/-- `ORDER BY repository_id, pull_number`. -/
def byPull (pairs : List (PairId × Pair)) : List (PairId × Pair) :=
  pairs.insertionSort fun left right =>
    left.2.repositoryId < right.2.repositoryId ∨
      left.2.repositoryId = right.2.repositoryId ∧ left.2.pullNumber ≤ right.2.pullNumber

def bySubject (gates : List (GateId × Gate)) : List (GateId × Gate) :=
  gates.insertionSort (subjectOrder · ·)

def quarantineAll (deliveryId : String) (receivedAt : Time) : Tx Outcome := do
  advanceAllRepositoryGenerations
  let pairs := byPull <| Table.select (← get).pairs (·.active)
  pairs.foldlM (fun _ row => quarantineActivePair deliveryId row.1 row.2.epoch) ()
  let gates := bySubject <| Table.select (← get).gates (·.active)
  gates.foldlM (fun _ row => quarantineActiveGate deliveryId receivedAt row.1) ()
  return (.applied, gates.map Prod.fst)

/-! ## Pull requests -/

def revokeCurrentPairGate (pairId : PairId) (receivedAt : Time) (summary : String) (active : Bool)
    (desiredState : GateState) : Tx (GateId × Gate) := do
  match ← updateGates (fun gate => gate.pairId == some pairId && gate.active) fun gate =>
      { gate.revised desiredState summary with active } with
  | none => throw s!"active gate subject is missing for pair {pairId}"
  | some (id, gate) =>
      enqueueGatePublication id gate receivedAt
      return (id, gate)

def supersededEpochSummary : String := "Superseded by a newer final-head epoch."

/-- The gate that an epoch of a pull request starts with. -/
def newPairGate (repository : RepositoryRef) (pair : PullPairRef) (pairId : PairId)
    (epoch : Nat) : Gate where
  installationId := repository.installationId
  repositoryId := repository.repositoryId
  repositoryFullName := repository.fullName
  subject := .pullRequest pair.number pairId
  epoch := epoch
  headSha := pair.headSha
  baseSha := pair.baseSha
  active := pair.state == .opened
  quarantine := none
  revision := 1
  fence := 0
  lease := none
  desiredState := if pair.state = .opened then .revoked else .failure
  desiredSummary :=
    if pair.draft then "Draft pull request; final-head review is deferred."
    else if pair.state = .opened then
      "New final-head input observed; evidence has not been evaluated."
    else "Pull request closed without current final-head evidence."
  checkRunId := none
  publishedRevision := none
  publishedState := none

def createPairGate (repository : RepositoryRef) (pair : PullPairRef) (pairId : PairId)
    (epoch : Nat) (receivedAt : Time) : Tx (GateId × Gate) := do
  let _ ← updateGates
    (fun gate => gate.repositoryId == repository.repositoryId && gate.isPullRequest pair.number &&
      gate.active && gate.epoch != epoch)
    fun gate => { gate.revised .failure supersededEpochSummary with active := false }
  let gate := newPairGate repository pair pairId epoch
  let id ← insertGate gate
  enqueueGatePublication id gate receivedAt
  return (id, gate)

/-- `ORDER BY source_updated_at DESC, epoch DESC LIMIT 1`. -/
def latestPair (pairs : List (PairId × Pair)) : Option (PairId × Pair) :=
  (pairs.insertionSort fun left right =>
    right.2.sourceUpdatedAt < left.2.sourceUpdatedAt ∨
      right.2.sourceUpdatedAt = left.2.sourceUpdatedAt ∧ right.2.epoch ≤ left.2.epoch).head?

def Pair.isPull (pair : Pair) (repositoryId number : Nat) : Bool :=
  pair.repositoryId == repositoryId && pair.pullNumber == number

def activePair (db : Database) (repositoryId number : Nat) : Option (PairId × Pair) :=
  Table.first db.pairs fun pair => pair.isPull repositoryId number && pair.active

/-- A pair at the start of an epoch. -/
def newPair (repository : RepositoryRef) (pair : PullPairRef) (epoch fence : Nat) : Pair where
  installationId := repository.installationId
  repositoryId := repository.repositoryId
  repositoryFullName := repository.fullName
  pullNumber := pair.number
  baseSha := pair.baseSha
  headSha := pair.headSha
  epoch := epoch
  fence := fence
  lease := none
  active := pair.state == .opened
  quarantine := none
  draft := pair.draft
  state := pair.state
  sourceUpdatedAt := pair.sourceUpdatedAt

/-- A new epoch of a pull request: for a base and head seen before, or for new ones. -/
def startEpoch (repository : RepositoryRef) (pair : PullPairRef) : Tx (PairId × Nat) := fun db =>
  let epoch := nextEpoch <|
    (Table.select db.pairs (·.isPull repository.repositoryId pair.number)).map (·.2.epoch)
  match Table.first db.pairs fun row => row.isPull repository.repositoryId pair.number &&
      row.baseSha == pair.baseSha && row.headSha == pair.headSha with
  | none =>
      .ok ((db.pairs.length, epoch), { db with
        pairs := Table.put db.pairs db.pairs.length (newPair repository pair epoch 0) })
  | some (id, existing) =>
      .ok ((id, epoch), { db with pairs := Table.put db.pairs id { existing.fenced with
        installationId := repository.installationId
        repositoryFullName := repository.fullName
        epoch
        active := pair.state == .opened
        quarantine := none
        draft := pair.draft
        state := pair.state
        sourceUpdatedAt := pair.sourceUpdatedAt } })

def stale : Outcome := (.stale, [])

/-- A new state of the current base and head. -/
def changePairState (id : PairId) (current : Pair) (pair : PullPairRef) (receivedAt : Time) :
    Tx Outcome := do
  let opened := pair.state == .opened
  let _ ← updatePair id (fun _ => true) fun row => { row.fenced with
    draft := pair.draft
    state := pair.state
    sourceUpdatedAt := pair.sourceUpdatedAt
    active := opened }
  if current.quarantined then
    let gate ← revokeCurrentPairGate id receivedAt
      "This review epoch remains quarantined after an unscoped authenticated webhook."
      opened .failure
    return (.applied, [gate.1])
  let gate ← revokeCurrentPairGate id receivedAt
    (if opened then "Pull request state changed; re-evaluating final-head evidence."
      else "Pull request closed.")
    opened (if opened then .revoked else .failure)
  if opened && !pair.draft then
    enqueuePairWork id current.epoch gate.2.revision receivedAt
  return (.applied, [gate.1])

/-- End the current pair, if there is one, and start an epoch of another base and head. -/
def replacePair (current : Option (PairId × Pair)) (repository : RepositoryRef)
    (pair : PullPairRef) (receivedAt : Time) : Tx Outcome := do
  if let some (id, _) := current then
    let _ ← updatePair id (fun _ => true) fun row => { row.fenced with active := false }
    let _ ← revokeCurrentPairGate id receivedAt
      "Superseded by a newer pull-request base/head pair." false .failure
  let (pairId, epoch) ← startEpoch repository pair
  let gate ← createPairGate repository pair pairId epoch receivedAt
  if pair.state == .opened && !pair.draft then
    enqueuePairWork pairId epoch gate.2.revision receivedAt
  return (.applied, [gate.1])

/-- Whether the store has seen a later state of a pull request. -/
def isKnown (db : Database) (repository : RepositoryRef) (pair : PullPairRef) : Bool :=
  match activePair db repository.repositoryId pair.number with
  | some (_, row) => decide (pair.sourceUpdatedAt < row.sourceUpdatedAt)
  | none =>
      match latestPair (Table.select db.pairs (·.isPull repository.repositoryId pair.number)) with
      | some (_, latest) => decide (pair.sourceUpdatedAt ≤ latest.sourceUpdatedAt)
      | none => false

/-- What a state of a pull request does to the current pair. -/
def applyToCurrent (current : Option (PairId × Pair)) (repository : RepositoryRef)
    (pair : PullPairRef) (receivedAt : Time) : Tx Outcome :=
  match current with
  | some (id, row) =>
      if row.baseSha == pair.baseSha && row.headSha == pair.headSha then
        if pair.sourceUpdatedAt = row.sourceUpdatedAt then
          return stale
        else
          changePairState id row pair receivedAt
      else
        replacePair current repository pair receivedAt
  | none => replacePair current repository pair receivedAt

def applyPullRequest (repository : RepositoryRef) (pair : PullPairRef) (receivedAt : Time)
    (advanceGeneration : Bool) : Tx Outcome := do
  let db ← get
  if isKnown db repository pair then
    return stale
  if advanceGeneration then
    let _ ← advanceRepositoryGeneration repository.repositoryId
  applyToCurrent (activePair db repository.repositoryId pair.number) repository pair receivedAt

/-! ## Evidence -/

def evidenceSummary : String :=
  "Provider evidence changed; the final-head decision is being re-evaluated."

def invalidatePairForEvidence (id : PairId) (receivedAt : Time) : Tx (GateId × Gate) := do
  let _ ← updatePair id (fun _ => true) Pair.fenced
  revokeCurrentPairGate id receivedAt evidenceSummary true .revoked

/-- The row that an upsert conflicts with. -/
def EvidenceRecord.sameSource (record : EvidenceRecord) (pairId : PairId) (epoch : Nat)
    (evidence : EvidenceInput) : Bool :=
  record.pairId == pairId && record.pairEpoch == epoch &&
    record.facts.kind == evidence.facts.kind && record.sourceId == evidence.sourceId

/-- Newer evidence replaces older, and at one time an invalidation replaces what was valid. -/
def EvidenceInput.replaces (evidence : EvidenceInput) (record : EvidenceRecord) : Bool :=
  decide (record.sourceUpdatedAt < evidence.sourceUpdatedAt) ||
    evidence.sourceUpdatedAt == record.sourceUpdatedAt && record.valid && !evidence.valid

/-- The rows of `evidence` after an upsert. -/
def upserted (rows : List EvidenceRecord) (pairId : PairId) (epoch : Nat)
    (evidence : EvidenceInput) : List EvidenceRecord :=
  if rows.any (·.sameSource pairId epoch evidence) then
    Table.update rows (fun row => row.sameSource pairId epoch evidence && evidence.replaces row)
      fun row => { row with toEvidenceInput := evidence }
  else rows ++ [{ toEvidenceInput := evidence, pairId, pairEpoch := epoch }]

def upsertEvidence (pairId : PairId) (epoch : Nat) (evidence : EvidenceInput) : Tx Unit := fun db =>
  .ok ((), { db with evidence := upserted db.evidence pairId epoch evidence })

/-- What new evidence does to one pair. -/
def admitEvidence (id : PairId) (epoch : Nat) (evidence : EvidenceInput) (receivedAt : Time) :
    Tx GateId := do
  let gate ← invalidatePairForEvidence id receivedAt
  upsertEvidence id epoch evidence
  enqueueEvaluation id epoch gate.2.revision receivedAt
  return gate.1

def applyPullEvidence (repository : RepositoryRef) (pullNumber : Nat)
    (expectedHeadSha : Option String) (evidence : EvidenceInput) (receivedAt : Time) :
    Tx Outcome := do
  match activePair (← get) repository.repositoryId pullNumber with
  | none => return stale
  | some (id, pair) =>
      if pair.quarantined || expectedHeadSha.any (· != pair.headSha) then
        return stale
      let gate ← admitEvidence id pair.epoch evidence receivedAt
      return (.applied, [gate])

/-- `ORDER BY pull_number`. -/
def byNumber (pairs : List (PairId × Pair)) : List (PairId × Pair) :=
  pairs.insertionSort fun left right => left.2.pullNumber ≤ right.2.pullNumber

def applyShaEvidence (repository : RepositoryRef) (headSha : String) (evidence : EvidenceInput)
    (receivedAt : Time) : Tx Outcome := do
  let pairs := byNumber <| Table.select (← get).pairs fun pair =>
    pair.repositoryId == repository.repositoryId && pair.headSha == headSha && pair.active &&
      !pair.quarantined
  let touchedSubjects ← pairs.foldlM (fun touched row => do
    let gate ← admitEvidence row.1 row.2.epoch evidence receivedAt
    return touched ++ [gate]) []
  return (if pairs.isEmpty then .stale else .applied, touchedSubjects)

/-! ## Repositories and merge groups -/

/-- A malformed event of a pair's repository ends the pair's epoch. -/
def quarantinePair (id : PairId) (epoch : Nat) (deliveryId : String) (receivedAt : Time) :
    Tx (GateId × Gate) := do
  let _ ← updatePair id (fun _ => true) (·.quarantinedBy deliveryId)
  let _ ← abandonDispatches id epoch
  let _ ← updateGates (fun gate => gate.pairId == some id && gate.active) fun gate =>
    { gate with quarantine := some deliveryId }
  revokeCurrentPairGate id receivedAt
    "Malformed signed webhook quarantined this review epoch; new evidence cannot reopen it."
    true .failure

/-- A merge-group gate after an event of its repository. -/
def Gate.reconciled (gate : Gate) (malformed : Bool) (deliveryId : String) : Gate :=
  if malformed then
    { gate.revised .failure "Malformed signed webhook quarantined this merge-group gate." with
      quarantine := some deliveryId }
  else gate.revised .revoked "Repository push observed; merge-group input must be revalidated."

def applyRepositoryReconcile (repository : RepositoryRef) (reason : ReconcileReason)
    (deliveryId : String) (receivedAt : Time) : Tx Outcome := do
  let malformed := reason == .malformedSignedEvent
  let _ ← advanceRepositoryGeneration repository.repositoryId
  let pairs := byNumber <| Table.select (← get).pairs fun pair =>
    pair.repositoryId == repository.repositoryId && pair.active
  let touchedPairs ← pairs.foldlM (fun touched row => do
    if malformed then
      let gate ← quarantinePair row.1 row.2.epoch deliveryId receivedAt
      return touched ++ [gate.1]
    else if row.2.quarantined then
      return touched
    else
      let gate ← invalidatePairForEvidence row.1 receivedAt
      return touched ++ [gate.1]) []
  let mergeGroups := Table.select (← get).gates fun gate =>
    gate.repositoryId == repository.repositoryId && gate.isMergeGroup && gate.active
  let touchedSubjects ← mergeGroups.foldlM (fun touched row => do
    if !malformed && row.2.quarantined then
      return touched
    match ← updateGate row.1 (fun _ => true) (·.reconciled malformed deliveryId) with
    | none => return touched
    | some gate =>
        enqueueGatePublication row.1 gate receivedAt
        return touched ++ [row.1]) touchedPairs
  enqueue (.reconcileRepository repository deliveryId)
    (.reconcile repository.repositoryId deliveryId) receivedAt
  return (.applied, touchedSubjects)

/-- Revise a merge-group gate and publish it. -/
def reviseMergeGate (id : GateId) (change : Gate → Gate) (missing : String) (receivedAt : Time) :
    Tx Outcome := do
  match ← updateGate id (fun _ => true) change with
  | none => throw missing
  | some gate =>
      enqueueGatePublication id gate receivedAt
      return (.applied, [id])

/-- `ORDER BY epoch DESC LIMIT 1`. -/
def latestGate (gates : List (GateId × Gate)) : Option (GateId × Gate) :=
  (gates.insertionSort fun left right => right.2.epoch ≤ left.2.epoch).head?

/-- A gate of a merge group with the next epoch. -/
def createMergeGate (repository : RepositoryRef) (headSha baseSha headRef : String)
    (active : Bool) (desiredState : GateState) (desiredSummary : String) (receivedAt : Time) :
    Tx Outcome := do
  let epoch := nextEpoch <| (Table.select (← get).gates fun gate =>
    gate.repositoryId == repository.repositoryId && gate.subject == .mergeGroup headRef).map
      (·.2.epoch)
  let gate : Gate := {
    installationId := repository.installationId
    repositoryId := repository.repositoryId
    repositoryFullName := repository.fullName
    subject := .mergeGroup headRef
    epoch
    headSha
    baseSha
    active
    quarantine := none
    revision := 1
    fence := 0
    lease := none
    desiredState
    desiredSummary
    checkRunId := none
    publishedRevision := none
    publishedState := none }
  let id ← insertGate gate
  enqueueGatePublication id gate receivedAt
  return (.applied, [id])

def destroyedSummary : String := "GitHub destroyed this merge group."

def applyMergeGroup (repository : RepositoryRef) (action : MergeGroupAction)
    (headSha baseSha headRef : String) (receivedAt : Time) : Tx Outcome := do
  let db ← get
  let group (gate : Gate) : Bool :=
    gate.repositoryId == repository.repositoryId && gate.subject == .mergeGroup headRef
  let current := Table.first db.gates fun gate => group gate && gate.active
  let sameHead := latestGate <| Table.select db.gates fun gate =>
    group gate && gate.headSha == headSha
  let atHead := current.filter fun row => row.2.headSha == headSha
  match action, atHead with
  | .destroyed, some (id, _) =>
      reviseMergeGate id
        (fun gate => { gate.revised .cancelled destroyedSummary with active := false })
        "failed to cancel merge-group gate" receivedAt
  | .destroyed, none =>
      if sameHead.isSome then
        return stale
      createMergeGate repository headSha baseSha headRef false .cancelled destroyedSummary
        receivedAt
  | .checksRequested, some (id, gate) =>
      if gate.quarantined then
        return (.applied, [])
      if sameHead.any fun row => !row.2.active then
        return stale
      reviseMergeGate id
        (·.revised .revoked "Merge-group head observed; native final-head evidence is pending.")
        "failed to revoke merge-group gate" receivedAt
  | .checksRequested, none =>
      if sameHead.any fun row => !row.2.active then
        return stale
      if let some (id, _) := current then
        let old ← updateGate id (fun _ => true) fun gate =>
          { gate.revised .cancelled "Superseded by a newer merge-group head." with active := false }
        if let some gate := old then
          enqueueGatePublication id gate receivedAt
      createMergeGate repository headSha baseSha headRef true .revoked
        "Merge-group head is the gate subject; pull-request checks cannot satisfy it." receivedAt

/-! ## Ingests -/

def applyImpact (request : IngestRequest) : Tx Outcome :=
  match request.impact with
  | .pullRequest repository pair => applyPullRequest repository pair request.receivedAt true
  | .pullEvidence repository pullNumber expectedHeadSha evidence =>
      applyPullEvidence repository pullNumber expectedHeadSha evidence request.receivedAt
  | .shaEvidence repository headSha evidence =>
      applyShaEvidence repository headSha evidence request.receivedAt
  | .repositoryReconcile repository reason =>
      applyRepositoryReconcile repository reason request.deliveryId request.receivedAt
  | .mergeGroup repository action headSha baseSha headRef =>
      applyMergeGroup repository action headSha baseSha headRef request.receivedAt
  | .ignored _ => return (.ignored, [])

def ingest (request : IngestRequest) : Tx IngestResult := do
  match ← claimDelivery request.deliveryId request.eventName request.payloadSha256 with
  | .duplicate disposition => return ⟨true, disposition, []⟩
  | .duplicateCollision => return ⟨true, .applied, []⟩
  | .collision =>
      let outcome ← quarantineAll request.deliveryId request.receivedAt
      return ⟨false, outcome.1, outcome.2⟩
  | .new =>
      let outcome ← applyImpact request
      settleDelivery request.deliveryId outcome.1
      return ⟨false, outcome.1, outcome.2⟩

def quarantineUnscopedSignedDelivery (request : UnscopedQuarantineRequest) : Tx IngestResult := do
  match ← claimDelivery request.deliveryId request.eventName request.payloadSha256 with
  | .duplicate disposition => return ⟨true, disposition, []⟩
  | .duplicateCollision => return ⟨true, .applied, []⟩
  | .collision =>
      let outcome ← quarantineAll request.deliveryId request.receivedAt
      return ⟨false, outcome.1, outcome.2⟩
  | .new =>
      let outcome ← quarantineAll request.deliveryId request.receivedAt
      settleDelivery request.deliveryId .applied
      return ⟨false, outcome.1, outcome.2⟩

/-! ## Listings of open pull requests

The store reads the active pairs once to take the locks of their pull requests and once
more under the locks; in one step the two readings are the same. -/

def beginRepositorySnapshot (repository : RepositoryRef) : Tx RepositorySnapshotToken := do
  let generation ← advanceRepositoryGeneration repository.repositoryId
  return ⟨repository, generation⟩

/-- A pair whose pull request is not listed any more. -/
def closeUnlisted (id : PairId) (now : Time) : Tx Unit := do
  let _ ← updatePair id (fun _ => true) fun row =>
    { row.fenced with active := false, state := .closed }
  let _ ← revokeCurrentPairGate id now
    "Reconciliation found that this pull request is no longer open." false .failure

/-- What a listing says of one open pull request. -/
def reconcilePull (repository : RepositoryRef) (pull : LivePullRequest) (now : Time) : Tx Unit := do
  let result ← applyPullRequest repository pull.toPullPairRef now false
  if result.1 = .stale then
    if let some (id, pair) := activePair (← get) repository.repositoryId pull.number then
      if !pair.quarantined && pair.baseSha == pull.baseSha && pair.headSha == pull.headSha then
        match Table.first (← get).gates fun gate => gate.pairId == some id && gate.active with
        | none => throw s!"active gate subject is missing for reconciled pair {id}"
        | some (_, gate) => enqueueEvaluation id pair.epoch gate.revision now

def reconcileOpenPullRequests (token : RepositorySnapshotToken) (pulls : List LivePullRequest)
    (now : Time) : Tx RepositoryReconcileResult := do
  let repositoryId := token.repository.repositoryId
  if generationOf (← get).generations repositoryId ≠ some token.generation then
    return .stale
  let _ ← advanceRepositoryGeneration repositoryId
  let openNumbers := pulls.map (·.number)
  let current := byNumber <| Table.select (← get).pairs fun pair =>
    pair.repositoryId == repositoryId && pair.active
  current.foldlM (fun _ row => do
    if !openNumbers.contains row.2.pullNumber then
      closeUnlisted row.1 now) ()
  pulls.foldlM (fun _ pull => reconcilePull token.repository pull now) ()
  return .applied

end Stratadiff.Governor
