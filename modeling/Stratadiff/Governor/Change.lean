import Stratadiff.Governor.Store

/-!
# What transactions do to the database

Every transaction is a chain of a few kinds of changes. A change leaves the database in
a state that the store's own reasoning can continue from: a pair and its gate change
together, and a new revision of a gate comes with its publication. What follows from one
change follows from every transaction and from every run.
-/

namespace Stratadiff.Governor

/-! ## Items of the outbox -/

def withPublication (outbox : List OutboxItem) (id : GateId) (gate : Gate) (now : Time) :
    List OutboxItem :=
  enqueued outbox (.publishGate id gate.epoch gate.revision) (.publish id gate.revision) now

def withEvaluation (outbox : List OutboxItem) (pairId : PairId) (epoch revision : Nat)
    (now : Time) : List OutboxItem :=
  enqueued outbox (.evaluatePair pairId epoch revision) (.evaluate pairId epoch revision) now

def withReview (outbox : List OutboxItem) (pairId : PairId) (epoch : Nat) (now : Time) :
    List OutboxItem :=
  enqueued outbox (.dispatchReview pairId epoch) (.dispatch pairId epoch) now

/-- The work that an event leaves to be done for a pair. -/
inductive Work where
  | none
  /-- The repository's pull requests will be listed. -/
  | listing
  | evaluation
  | review
  deriving DecidableEq

def Work.enqueue (work : Work) (outbox : List OutboxItem) (pairId : PairId) (epoch revision : Nat)
    (now : Time) : List OutboxItem :=
  match work with
  | .none => outbox
  | .listing => outbox
  | .evaluation => withEvaluation outbox pairId epoch revision now
  | .review => withEvaluation (withReview outbox pairId epoch now) pairId epoch revision now

section

variable {outbox : List OutboxItem} {payload : OutboxPayload} {key : DedupeKey} {now : Time}
variable {i : Nat} {item : OutboxItem}

/-- An item that was just added. -/
def newItem (payload : OutboxPayload) (dedupeKey : DedupeKey) (availableAt : Time) : OutboxItem :=
  { payload, dedupeKey, availableAt, lease := none, leaseFence := 0, completedAt := none }

theorem enqueued_keeps (h : outbox[i]? = some item) :
    (enqueued outbox payload key now)[i]? = some item := by
  unfold enqueued
  split
  · exact h
  · rw [Table.getElem?_put le_rfl, if_neg (Table.lt_length h).ne]
    exact h

theorem enqueued_cases (h : (enqueued outbox payload key now)[i]? = some item) :
    outbox[i]? = some item ∨ item = newItem payload key now ∧ i = outbox.length ∧
      ∀ (j : Nat) other, outbox[j]? = some other → other.dedupeKey ≠ key := by
  unfold enqueued at h
  split at h
  · exact .inl h
  · next fresh =>
      rw [Table.getElem?_put le_rfl] at h
      split at h
      · next last =>
          refine .inr ⟨(Option.some.inj h).symm, last, ?_⟩
          intro j other there same
          apply fresh
          rw [List.any_eq_true]
          exact ⟨other, List.mem_of_getElem? there, by simp [same]⟩
      · exact .inl h

end

/-! ## Events -/

/-- How an event changes a pair and its gate. -/
structure Revocation where
  draft : Bool
  state : PullState
  active : Bool
  /-- The delivery that quarantines the pair, if the event does. -/
  quarantine : Option String
  sourceUpdatedAt : Time
  desiredState : GateState
  summary : String
  evidence : Option EvidenceInput
  work : Work
  now : Time

namespace Revocation

def pair (r : Revocation) (pair : Pair) : Pair :=
  { pair.fenced with
    draft := r.draft, state := r.state, active := r.active
    quarantine := r.quarantine.or pair.quarantine, sourceUpdatedAt := r.sourceUpdatedAt }

def gate (r : Revocation) (gate : Gate) : Gate :=
  { gate.revised r.desiredState r.summary with
    active := r.active, quarantine := r.quarantine.or gate.quarantine }

def dispatches (r : Revocation) (rows : List Dispatch) (p : PairId) (epoch : Nat) :
    List Dispatch :=
  if r.quarantine.isSome then
    Table.update rows (fun row => row.isOf p epoch && row.state != .abandoned) Dispatch.abandon
  else rows

def records (r : Revocation) (rows : List EvidenceRecord) (p : PairId) (epoch : Nat) :
    List EvidenceRecord :=
  match r.evidence with
  | none => rows
  | some evidence => upserted rows p epoch evidence

def outbox (r : Revocation) (rows : List OutboxItem) (p : PairId) (epoch : Nat) (g : GateId)
    (gate : Gate) : List OutboxItem :=
  r.work.enqueue (withPublication rows g (r.gate gate) r.now) p epoch (r.gate gate).revision r.now

def apply (r : Revocation) (db : Database) (p : PairId) (pair : Pair) (g : GateId) (gate : Gate) :
    Database :=
  { db with
    pairs := Table.put db.pairs p (r.pair pair)
    gates := Table.put db.gates g (r.gate gate)
    dispatches := r.dispatches db.dispatches p pair.epoch
    evidence := r.records db.evidence p pair.epoch
    outbox := r.outbox db.outbox p pair.epoch g gate }

/-- What the events of the governor have in common, while a repository may be listed. -/
structure Fits (r : Revocation) (listed : Option Nat) (pair : Pair) : Prop where
  decided : r.desiredState = .revoked ∨ r.desiredState = .failure
  opened : r.active = true → r.state = .opened
  closed : r.active = false → r.desiredState = .failure
  revoked : r.desiredState = .revoked → (r.pair pair).quarantine = none
  failed : r.active = true → r.desiredState = .failure → (r.pair pair).quarantine ≠ none
  evaluated : r.desiredState = .revoked → r.draft = false → r.work ≠ .none
  listing : r.work = .listing → listed = some pair.repositoryId
  reviewed : r.desiredState = .revoked → r.draft = false → pair.draft = false ∨ r.work = .review

end Revocation

/-- A gate that an event changed: of its pair's epoch, and active. -/
structure Gated (db : Database) (p : PairId) (pair : Pair) (g : GateId) (gate : Gate) : Prop where
  pairAt : db.pairs[p]? = some pair
  pairActive : pair.active = true
  gateAt : db.gates[g]? = some gate
  gateActive : gate.active = true
  bound : gate.pairId = some p

/-- A place for a new epoch of a pull request that has no active pair. -/
structure Startable (db : Database) (repository : RepositoryRef) (pull : PullPairRef) (p : PairId)
    (epoch fence : Nat) : Prop where
  place : p ≤ db.pairs.length
  replaced : ∀ pair, db.pairs[p]? = some pair →
    pair.isPull repository.repositoryId pull.number = true ∧ pair.baseSha = pull.baseSha ∧
      pair.headSha = pull.headSha ∧ pair.fence < fence
  others : ∀ q pair, db.pairs[q]? = some pair →
    pair.isPull repository.repositoryId pull.number = true →
      pair.active = false ∧ pair.epoch < epoch ∧
        (pair.baseSha = pull.baseSha → pair.headSha = pull.headSha → q = p)

def started (db : Database) (repository : RepositoryRef) (pull : PullPairRef) (p : PairId)
    (epoch fence : Nat) (now : Time) : Database :=
  let gate := newPairGate repository pull p epoch
  let work : Work := if pull.state = .opened ∧ pull.draft = false then .review else .none
  { db with
    pairs := Table.put db.pairs p (newPair repository pull epoch fence)
    gates := Table.put db.gates db.gates.length gate
    outbox := work.enqueue (withPublication db.outbox db.gates.length gate now) p epoch 1 now }

/-- The next state of a merge-group gate, or its first. -/
structure MergeGate (db : Database) (g : GateId) (gate' : Gate) : Prop where
  place : g ≤ db.gates.length
  group : gate'.pairId = none
  state : gate'.desiredState ≠ .success
  unleased : gate'.lease = none
  revised : ∀ gate, db.gates[g]? = some gate →
    gate.pairId = none ∧ gate'.epoch = gate.epoch ∧ gate'.revision = gate.revision + 1 ∧
      gate'.publishedRevision = gate.publishedRevision ∧ gate.fence < gate'.fence
  new : g = db.gates.length → gate'.publishedRevision = none ∧ gate'.revision = 1
  kept : ∀ gate, db.gates[g]? = some gate →
    gate'.repositoryId = gate.repositoryId ∧ gate'.subject = gate.subject ∧
      gate'.headSha = gate.headSha ∧ (gate'.active = true → gate.active = true)
  /-- A gate starts active only where its group has no other, and never had one of its head. -/
  fresh : g = db.gates.length → gate'.active = true →
    ∀ (h : GateId) (gate : Gate), db.gates[h]? = some gate →
      gate.repositoryId = gate'.repositoryId →
      gate.subject = gate'.subject → gate.active = false ∧ gate.headSha ≠ gate'.headSha

/-- The database after a quarantine of everything; gates are published in some order. -/
def quarantinedAll (db : Database) (deliveryId : String) (order : List (GateId × Gate))
    (now : Time) : Database :=
  { db with
    pairs := Table.update db.pairs (·.active) (·.quarantinedBy deliveryId)
    dispatches := Table.update db.dispatches
      (fun row => db.pairs[row.pairId]?.any (fun pair => pair.active && pair.epoch == row.pairEpoch)
        && row.state != .abandoned)
      Dispatch.abandon
    gates := Table.update db.gates (·.active) (·.quarantinedBy deliveryId)
    outbox := order.foldl
      (fun outbox row => withPublication outbox row.1 (row.2.quarantinedBy deliveryId) now)
      db.outbox }

/-- A delivery with this id has been recorded. -/
def Delivered (db : Database) (deliveryId : String) : Prop :=
  ∃ row ∈ db.deliveries, row.deliveryId = deliveryId

/-- What tells the events of one delivery apart. -/
def Delivery.event (row : Delivery) : Collision :=
  ⟨row.deliveryId, row.eventName, row.payloadSha256⟩

/-- An event has been ingested: as a delivery, or as a collision with one. -/
def Known (db : Database) (event : Collision) : Prop :=
  (∃ row ∈ db.deliveries, row.event = event) ∨ event ∈ db.collisions

/-- The deliveries and their collisions. -/
def Database.archive (db : Database) : List Delivery × List Collision :=
  (db.deliveries, db.collisions)

/-- There is one delivery for an id, and events collide only with deliveries. -/
def Filed (db : Database) : Prop :=
  (db.deliveries.map (·.deliveryId)).Nodup ∧
    ∀ event ∈ db.collisions, Delivered db event.deliveryId

/-- Deliveries and collisions stay recorded, and generations of repositories go forward. -/
structure Recorded (db db' : Database) : Prop where
  delivered : ∀ {deliveryId : String}, Delivered db deliveryId → Delivered db' deliveryId
  generations : ∀ {repositoryId generation : Nat},
    generationOf db.generations repositoryId = some generation →
      ∃ later, generationOf db'.generations repositoryId = some later ∧ generation ≤ later
  known : ∀ {event : Collision}, Known db event → Known db' event
  filed : Filed db → Filed db'

/-- The changes that events make, while a repository may be listed. -/
inductive EventChange (listed : Option Nat) : Database → Database → Prop where
  | record {db : Database} (deliveries : List Delivery) (collisions : List Collision)
      (generations : List (Nat × Nat)) :
      Recorded db { db with deliveries, collisions, generations } →
      EventChange listed db { db with deliveries, collisions, generations }
  | revoke {db : Database} {p : PairId} {pair : Pair} {g : GateId} {gate : Gate}
      (r : Revocation) : Gated db p pair g gate → r.Fits listed pair →
      EventChange listed db (r.apply db p pair g gate)
  | start {db : Database} {p : PairId} (repository : RepositoryRef) (pull : PullPairRef)
      (epoch fence : Nat) (now : Time) : Startable db repository pull p epoch fence →
      EventChange listed db (started db repository pull p epoch fence now)
  | merge {db : Database} {g : GateId} (gate : Gate) (now : Time) : MergeGate db g gate →
      EventChange listed db { db with
        gates := Table.put db.gates g gate, outbox := withPublication db.outbox g gate now }
  | evaluate {db : Database} {p : PairId} {pair : Pair} {g : GateId} {gate : Gate} (now : Time) :
      Gated db p pair g gate →
      EventChange listed db { db with
        outbox := withEvaluation db.outbox p pair.epoch gate.revision now }
  | reconcile {db : Database} (repository : RepositoryRef) (deliveryId : String) (now : Time) :
      Delivered db deliveryId →
      EventChange listed db { db with
        outbox := enqueued db.outbox (.reconcileRepository repository deliveryId)
          (.reconcile repository.repositoryId deliveryId) now }
  | quarantine {db : Database} (deliveryId : String) (order : List (GateId × Gate)) (now : Time) :
      order.Perm (Table.select db.gates (·.active)) →
      EventChange listed db (quarantinedAll db deliveryId order now)

/-! ## Workers -/

/-- The changes that workers make. -/
inductive WorkerChange : Database → Database → Prop where
  | leasePair {db : Database} {p : PairId} {pair : Pair} (lease : Lease) :
      db.pairs[p]? = some pair → pair.active = true → pair.quarantine = none →
      WorkerChange db { db with
        pairs := Table.put db.pairs p { pair with fence := pair.fence + 1, lease := some lease } }
  | holdPair {db : Database} {p : PairId} {pair : Pair} (lease : Option Lease) :
      db.pairs[p]? = some pair →
      (∀ held, lease = some held → ∃ before, pair.lease = some before ∧ before.owner = held.owner) →
      WorkerChange db { db with pairs := Table.put db.pairs p { pair with lease } }
  | decide {db : Database} {p : PairId} {pair : Pair} {g : GateId} {gate : Gate}
      (state : GateState) (summary : String) (now : Time) :
      Gated db p pair g gate → pair.quarantine = none →
      (state = .success → ∃ row ∈ db.dispatches,
        row.isOf p pair.epoch = true ∧ row.state = .sent) →
      WorkerChange db { db with
        gates := Table.put db.gates g (gate.revised state summary)
        outbox := withPublication db.outbox g (gate.revised state summary) now }
  | plan {db : Database} {p : PairId} {pair : Pair} (now : Time) :
      db.pairs[p]? = some pair → pair.active = true → pair.quarantine = none →
      (∀ row ∈ db.dispatches, row.isOf p pair.epoch = false) →
      WorkerChange db { db with dispatches := Table.put db.dispatches db.dispatches.length {
        pairId := p, pairEpoch := pair.epoch, state := .planned, commandCommentId := none
        dispatchedAt := none, evidenceDeadlineAt := none, plannedAt := now } }
  | attempt {db : Database} {k : Nat} {row : Dispatch} :
      db.dispatches[k]? = some row → row.state = .planned →
      WorkerChange db { db with
        dispatches := Table.put db.dispatches k { row with state := .attempting } }
  | adopt {db : Database} {k : Nat} {row : Dispatch} (commentId : Nat) (dispatchedAt : Time)
      (deadline : Time) :
      db.dispatches[k]? = some row → row.state = .attempting →
      WorkerChange db { db with dispatches := Table.put db.dispatches k { row with
        commandCommentId := some commentId, state := .sent, dispatchedAt := some dispatchedAt
        evidenceDeadlineAt := some deadline } }
  | timeout {db : Database} {p : PairId} {pair : Pair} {g : GateId} {gate : Gate}
      (deadline : Time) : Gated db p pair g gate →
      WorkerChange db { db with
        outbox := enqueued db.outbox (.evaluatePair p pair.epoch gate.revision)
          (.evaluateTimeout p pair.epoch) deadline }
  | leaseGate {db : Database} {g : GateId} {gate : Gate} (lease : Lease) :
      db.gates[g]? = some gate →
      WorkerChange db { db with
        gates := Table.put db.gates g { gate with fence := gate.fence + 1, lease := some lease } }
  | revise {db : Database} {g : GateId} {gate : Gate} (state : GateState) (summary : String)
      (checkRunId : Option Nat) (now : Time) : db.gates[g]? = some gate →
      state = .failure ∨ state = gate.desiredState →
      WorkerChange db { db with
        gates := Table.put db.gates g { gate.revised state summary with checkRunId }
        outbox := withPublication db.outbox g { gate.revised state summary with checkRunId } now }
  | publish {db : Database} {g : GateId} {gate : Gate} (checkRunId : Nat)
      (publishedState : GateState) : db.gates[g]? = some gate →
      WorkerChange db { db with gates := Table.put db.gates g { gate with
        checkRunId := some checkRunId, publishedRevision := some gate.revision
        publishedState := some publishedState, lease := none } }
  | item {db : Database} {i : OutboxId} {item : OutboxItem} (availableAt : Time)
      (lease : Option Lease) (leaseFence : Nat) (completedAt : Option Time) :
      db.outbox[i]? = some item → item.completedAt = none → item.leaseFence ≤ leaseFence →
      WorkerChange db { db with outbox := Table.put db.outbox i { item with
        availableAt, lease, leaseFence, completedAt } }

/-- A change of either kind. -/
def Change (listed : Option Nat) (db db' : Database) : Prop :=
  EventChange listed db db' ∨ WorkerChange db db'

/-- What one event does. -/
abbrev EventSteps (listed : Option Nat) : Database → Database → Prop :=
  Relation.ReflTransGen (EventChange listed)

/-- What one call of a worker does. -/
abbrev WorkerSteps : Database → Database → Prop := Relation.ReflTransGen WorkerChange

/-- Any number of changes. -/
abbrev Steps (listed : Option Nat) : Database → Database → Prop :=
  Relation.ReflTransGen (Change listed)

theorem EventSteps.steps {listed : Option Nat} {db db' : Database} (h : EventSteps listed db db') :
    Steps listed db db' := by
  induction h with
  | refl => exact .refl
  | tail _ change ih => exact ih.tail (.inl change)

theorem WorkerSteps.steps {listed : Option Nat} {db db' : Database} (h : WorkerSteps db db') :
    Steps listed db db' := by
  induction h with
  | refl => exact .refl
  | tail _ change ih => exact ih.tail (.inr change)

/-- What one change preserves, any number of them preserves. -/
theorem Steps.preserves {listed : Option Nat} {db db' : Database} {P : Database → Prop}
    (step : ∀ {db db'}, Change listed db db' → P db → P db') (h : Steps listed db db')
    (holds : P db) : P db' := by
  induction h with
  | refl => exact holds
  | tail _ change ih => exact step change ih

end Stratadiff.Governor
