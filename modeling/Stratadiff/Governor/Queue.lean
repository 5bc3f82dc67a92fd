import Stratadiff.Governor.Growth
import Stratadiff.Governor.Success

/-!
# The outbox

Every item has a key of its own, and what it is about exists: an item never refers to a
later revision or epoch than there is, so the key of a new revision is new.
-/

namespace Stratadiff.Governor

variable {db db' : Database} {listed : Option Nat}

/-- The key of an item with a payload. -/
inductive Keyed : OutboxPayload → DedupeKey → Prop where
  | publish (g : GateId) (epoch revision : Nat) :
      Keyed (.publishGate g epoch revision) (.publish g revision)
  | evaluate (p : PairId) (epoch revision : Nat) :
      Keyed (.evaluatePair p epoch revision) (.evaluate p epoch revision)
  | timeout (p : PairId) (epoch revision : Nat) :
      Keyed (.evaluatePair p epoch revision) (.evaluateTimeout p epoch)
  | dispatch (p : PairId) (epoch : Nat) : Keyed (.dispatchReview p epoch) (.dispatch p epoch)
  | reconcile (repository : RepositoryRef) (deliveryId : String) :
      Keyed (.reconcileRepository repository deliveryId)
        (.reconcile repository.repositoryId deliveryId)

/-- What a payload is about exists. -/
def Refers (db : Database) : OutboxPayload → Prop
  | .publishGate g epoch revision =>
      ∃ gate : Gate, db.gates[g]? = some gate ∧ gate.epoch = epoch ∧ revision ≤ gate.revision
  | .evaluatePair p epoch revision =>
      ∃ (g : GateId) (gate : Gate), db.gates[g]? = some gate ∧ gate.pairId = some p ∧
        gate.epoch = epoch ∧ revision ≤ gate.revision
  | .dispatchReview p epoch => ∃ pair : Pair, db.pairs[p]? = some pair ∧ epoch ≤ pair.epoch
  | .reconcileRepository _ deliveryId => Delivered db deliveryId

theorem Refers.mono {payload : OutboxPayload} (grows : Grows db db') (h : Refers db payload) :
    Refers db' payload := by
  cases payload with
  | publishGate g epoch revision =>
      obtain ⟨gate, found, same, low⟩ := h
      obtain ⟨gate', found', gateGrows⟩ := grows.gates.after found
      exact ⟨gate', found', gateGrows.epoch.trans same, low.trans gateGrows.revision⟩
  | evaluatePair p epoch revision =>
      obtain ⟨g, gate, found, bound, same, low⟩ := h
      obtain ⟨gate', found', gateGrows⟩ := grows.gates.after found
      exact ⟨g, gate', found', gateGrows.pairId.trans bound, gateGrows.epoch.trans same,
        low.trans gateGrows.revision⟩
  | dispatchReview p epoch =>
      obtain ⟨pair, found, low⟩ := h
      obtain ⟨pair', found', pairGrows⟩ := grows.pairs.after found
      exact ⟨pair', found', low.trans pairGrows.epoch⟩
  | reconcileRepository repository deliveryId => exact grows.recorded.delivered h

/-- An outbox whose items are about things with a property. -/
structure Queue (P : OutboxPayload → Prop) (outbox : List OutboxItem) : Prop where
  keyed : ∀ {i : Nat} {item : OutboxItem}, outbox[i]? = some item →
    Keyed item.payload item.dedupeKey
  refers : ∀ {i : Nat} {item : OutboxItem}, outbox[i]? = some item → P item.payload
  once : ∀ {i j : Nat} {item other : OutboxItem}, outbox[i]? = some item →
    outbox[j]? = some other → item.dedupeKey = other.dedupeKey → i = j

namespace Queue

variable {P P' : OutboxPayload → Prop} {outbox : List OutboxItem}

theorem mono (queue : Queue P outbox) (imp : ∀ payload, P payload → P' payload) :
    Queue P' outbox :=
  ⟨queue.keyed, fun found => imp _ (queue.refers found), queue.once⟩

theorem enqueued {payload : OutboxPayload} {key : DedupeKey} {now : Time} (queue : Queue P outbox)
    (keyed : Keyed payload key) (refers : P payload) :
    Queue P (enqueued outbox payload key now) where
  keyed := by
    intro i item found
    rcases enqueued_cases found with old | ⟨rfl, _, _⟩
    · exact queue.keyed old
    · exact keyed
  refers := by
    intro i item found
    rcases enqueued_cases found with old | ⟨rfl, _, _⟩
    · exact queue.refers old
    · exact refers
  once := by
    intro i j item other found found' same
    rcases enqueued_cases found with old | ⟨rfl, last, new⟩
    · rcases enqueued_cases found' with old' | ⟨rfl, _, new'⟩
      · exact queue.once old old' same
      · exact absurd same (new' i item old)
    · rcases enqueued_cases found' with old' | ⟨_, last', _⟩
      · exact absurd same.symm (new j other old')
      · exact last.trans last'.symm

theorem work {work : Work} {p : PairId} {epoch revision : Nat} {now : Time} (queue : Queue P outbox)
    (review : P (.dispatchReview p epoch)) (evaluation : P (.evaluatePair p epoch revision)) :
    Queue P (work.enqueue outbox p epoch revision now) := by
  cases work with
  | none => exact queue
  | listing => exact queue
  | evaluation => exact queue.enqueued (.evaluate p epoch revision) evaluation
  | review =>
      exact (queue.enqueued (.dispatch p epoch) review).enqueued (.evaluate p epoch revision)
        evaluation

theorem publications {deliveryId : String} {order : List (GateId × Gate)} {now : Time}
    (queue : Queue P outbox) (gates : ∀ row ∈ order, P (.publishGate row.1
      (row.2.quarantinedBy deliveryId).epoch (row.2.quarantinedBy deliveryId).revision)) :
    Queue P (order.foldl
      (fun outbox row => withPublication outbox row.1 (row.2.quarantinedBy deliveryId) now)
      outbox) := by
  induction order generalizing outbox with
  | nil => exact queue
  | cons row order ih =>
      refine ih ?_ fun other member => gates other (List.mem_cons_of_mem _ member)
      exact queue.enqueued (.publish _ _ _) (gates row List.mem_cons_self)

theorem put {i : Nat} {item item' : OutboxItem} (queue : Queue P outbox)
    (found : outbox[i]? = some item) (payload : item'.payload = item.payload)
    (key : item'.dedupeKey = item.dedupeKey) : Queue P (Table.put outbox i item') := by
  have before : ∀ {j : Nat} {other : OutboxItem}, (Table.put outbox i item')[j]? = some other →
      ∃ old, outbox[j]? = some old ∧ other.payload = old.payload ∧
        other.dedupeKey = old.dedupeKey := by
    intro j other there
    rw [Table.getElem?_put (Table.lt_length found).le] at there
    split at there
    · next same =>
        cases there
        exact ⟨item, same ▸ found, payload, key⟩
    · exact ⟨other, there, rfl, rfl⟩
  constructor
  · intro j other there
    obtain ⟨old, found', payload', key'⟩ := before there
    rw [payload', key']
    exact queue.keyed found'
  · intro j other there
    obtain ⟨old, found', payload', _⟩ := before there
    rw [payload']
    exact queue.refers found'
  · intro j k first second there there' same
    obtain ⟨old, found₁, _, key₁⟩ := before there
    obtain ⟨old', found₂, _, key₂⟩ := before there'
    exact queue.once found₁ found₂ (by rw [← key₁, ← key₂, same])

end Queue

/-- The outbox of a database. -/
abbrev Queued (db : Database) : Prop := Queue (Refers db) db.outbox

namespace Queued

/-- Changes of other tables. -/
theorem grown (queued : Queued db) (grows : Grows db db') : Queue (Refers db') db.outbox :=
  queued.mono fun _ => Refers.mono grows

/-- The new revision of a gate, in the items about it. -/
theorem refers_gate {g : GateId} {gate : Gate} (found : db.gates[g]? = some gate) :
    Refers db (.publishGate g gate.epoch gate.revision) :=
  ⟨gate, found, rfl, le_rfl⟩

theorem refers_evaluation {p : PairId} {pair : Pair} {g : GateId} {gate : Gate}
    (coupled : Coupled db) (gated : Gated db p pair g gate) :
    Refers db (.evaluatePair p pair.epoch gate.revision) :=
  ⟨g, gate, gated.gateAt, gated.bound, coupled.epoch_eq gated, le_rfl⟩

theorem of_worker (queued : Queued db) (coupled : Coupled db) (change : WorkerChange db db') :
    Queued db' := by
  have grows := Grows.of_worker change
  have grown := queued.grown grows
  cases change with
  | leasePair _ _ _ _ => exact grown
  | holdPair _ _ _ => exact grown
  | decide state summary now gated _ _ =>
      refine grown.enqueued (.publish _ _ _) (refers_gate ?_)
      rw [Table.getElem?_put (Table.lt_length gated.gateAt).le, if_pos rfl]
  | plan _ _ _ _ _ => exact grown
  | attempt _ _ => exact grown
  | adopt _ _ _ _ _ => exact grown
  | timeout deadline gated =>
      exact grown.enqueued (.timeout _ _ _) (.mono grows (refers_evaluation coupled gated))
  | leaseGate _ _ => exact grown
  | revise state summary checkRunId now found _ =>
      refine grown.enqueued (.publish _ _ _) (refers_gate ?_)
      rw [Table.getElem?_put (Table.lt_length found).le, if_pos rfl]
  | publish _ _ _ => exact grown
  | item _ _ _ _ found _ _ => exact grown.put found rfl rfl

theorem of_revocation (queued : Queued db) (coupled : Coupled db) {r : Revocation} {p : PairId}
    {pair : Pair} {g : GateId} {gate : Gate} (gated : Gated db p pair g gate) :
    Queued (r.apply db p pair g gate) := by
  have grows : Grows db (r.apply db p pair g gate) := .of_revocation gated
  have grown := queued.grown grows
  have pairAt : (r.apply db p pair g gate).pairs[p]? = some (r.pair pair) := by
    rw [Revocation.apply, Table.getElem?_put (Table.lt_length gated.pairAt).le, if_pos rfl]
  have gateAt : (r.apply db p pair g gate).gates[g]? = some (r.gate gate) := by
    rw [Revocation.apply, Table.getElem?_put (Table.lt_length gated.gateAt).le, if_pos rfl]
  refine (grown.enqueued (.publish _ _ _) (refers_gate gateAt)).work ?_ ?_
  · exact ⟨r.pair pair, pairAt, le_rfl⟩
  · exact ⟨g, r.gate gate, gateAt, gated.bound, (coupled.epoch_eq gated : gate.epoch = _), le_rfl⟩

theorem of_start (queued : Queued db) {repository : RepositoryRef} {pull : PullPairRef}
    {p : PairId} {epoch fence : Nat} {now : Time}
    (startable : Startable db repository pull p epoch fence) :
    Queued (started db repository pull p epoch fence now) := by
  have grows : Grows db (started db repository pull p epoch fence now) := .of_start startable
  have grown := queued.grown grows
  have pairAt : (started db repository pull p epoch fence now).pairs[p]? =
      some (newPair repository pull epoch fence) := by
    rw [Coupled.started_pairs startable, if_pos rfl]
  have gateAt : (started db repository pull p epoch fence now).gates[db.gates.length]? =
      some (newPairGate repository pull p epoch) := by
    rw [Coupled.started_gates, if_pos rfl]
  refine (grown.enqueued (.publish _ _ _) (refers_gate gateAt)).work ?_ ?_
  · exact ⟨_, pairAt, le_rfl⟩
  · exact ⟨_, _, gateAt, rfl, rfl, le_rfl⟩

theorem of_quarantine (queued : Queued db) {deliveryId : String} {order : List (GateId × Gate)}
    {now : Time} (perm : order.Perm (Table.select db.gates (·.active))) :
    Queued (quarantinedAll db deliveryId order now) := by
  have grows : Grows db (quarantinedAll db deliveryId order now) := .of_quarantine
  have grown := queued.grown grows
  have gates : ∀ row ∈ order, Refers (quarantinedAll db deliveryId order now)
      (.publishGate row.1 (row.2.quarantinedBy deliveryId).epoch
        (row.2.quarantinedBy deliveryId).revision) := by
    intro row member
    obtain ⟨found, active⟩ := Table.mem_select.mp (perm.mem_iff.mp member)
    refine refers_gate ?_
    rw [quarantinedAll, Table.getElem?_update, found, Option.map_some, if_pos active]
  exact grown.publications gates

theorem of_event (queued : Queued db) (coupled : Coupled db) (change : EventChange listed db db') :
    Queued db' := by
  have grows := Grows.of_event change
  have grown := queued.grown grows
  cases change with
  | record _ _ _ _ => exact grown
  | revoke r gated _ => exact queued.of_revocation coupled gated
  | start repository pull epoch fence now startable => exact queued.of_start startable
  | merge gate now merge =>
      refine grown.enqueued (.publish _ _ _) (refers_gate ?_)
      rw [Table.getElem?_put merge.place, if_pos rfl]
  | evaluate now gated =>
      exact grown.enqueued (.evaluate _ _ _) (.mono grows (refers_evaluation coupled gated))
  | reconcile repository deliveryId now delivered =>
      exact grown.enqueued (.reconcile _ _) delivered
  | quarantine deliveryId order now perm => exact queued.of_quarantine perm

end Queued

/-! ## What the reasoning of the store rests on -/

/-- A command for a pair's epoch is the only one. -/
def OneDispatch (db : Database) : Prop :=
  ∀ (k j : Nat) (row other : Dispatch), db.dispatches[k]? = some row →
    db.dispatches[j]? = some other → row.pairId = other.pairId →
    row.pairEpoch = other.pairEpoch → k = j

theorem OneDispatch.of_rowwise (one : OneDispatch db)
    (rows : Table.Rowwise (fun old new : Dispatch => new.pairId = old.pairId ∧
      new.pairEpoch = old.pairEpoch) db.dispatches db'.dispatches) : OneDispatch db' := by
  intro k j row other found found' pairId epoch
  obtain ⟨old, before, same⟩ := rows.before found
  obtain ⟨old', before', same'⟩ := rows.before found'
  refine one _ _ _ _ before before' ?_ ?_
  · rw [← same.1, ← same'.1, pairId]
  · rw [← same.2, ← same'.2, epoch]

theorem OneDispatch.of_change (one : OneDispatch db) (change : Change listed db db') :
    OneDispatch db' := by
  have still : Table.Rowwise (fun old new : Dispatch => new.pairId = old.pairId ∧
      new.pairEpoch = old.pairEpoch) db.dispatches db.dispatches := .refl fun _ => ⟨rfl, rfl⟩
  rcases change with change | change
  · cases change with
    | record _ _ _ _ => exact one.of_rowwise still
    | @revoke p pair g gate r _ _ =>
        refine one.of_rowwise ?_
        change Table.Rowwise _ db.dispatches (r.dispatches db.dispatches p pair.epoch)
        rw [Revocation.dispatches]
        split
        · exact .update (fun _ _ => ⟨rfl, rfl⟩) fun _ => ⟨rfl, rfl⟩
        · exact still
    | start _ _ _ _ _ _ => exact one.of_rowwise still
    | merge _ _ _ => exact one.of_rowwise still
    | evaluate _ _ => exact one.of_rowwise still
    | reconcile _ _ _ _ => exact one.of_rowwise still
    | quarantine _ _ _ _ =>
        exact one.of_rowwise (.update (fun _ _ => ⟨rfl, rfl⟩) fun _ => ⟨rfl, rfl⟩)
  · cases change with
    | leasePair _ _ _ _ => exact one.of_rowwise still
    | holdPair _ _ _ => exact one.of_rowwise still
    | decide _ _ _ _ _ _ => exact one.of_rowwise still
    | @plan p pair now _ _ _ new =>
        -- The new row is at the end, and no other row is of its pair's epoch.
        have fresh : ∀ {j : Nat} {other : Dispatch}, db.dispatches[j]? = some other →
            p = other.pairId → pair.epoch = other.pairEpoch → False := by
          intro j other there same epoch
          have isOf := new other (List.mem_of_getElem? there)
          simp [Dispatch.isOf, ← same, ← epoch] at isOf
        intro k j row other found found' pairId epoch
        rw [Table.getElem?_put le_rfl] at found found'
        split at found
        · next last =>
            cases found
            split at found'
            · next last' => exact last.trans last'.symm
            · exact (fresh found' pairId epoch).elim
        · split at found'
          · cases found'
            exact (fresh found pairId.symm epoch.symm).elim
          · exact one _ _ _ _ found found' pairId epoch
    | attempt found _ =>
        exact one.of_rowwise (.put (fun _ => ⟨rfl, rfl⟩) found ⟨rfl, rfl⟩)
    | adopt _ _ _ found _ =>
        exact one.of_rowwise (.put (fun _ => ⟨rfl, rfl⟩) found ⟨rfl, rfl⟩)
    | timeout _ _ => exact one.of_rowwise still
    | leaseGate _ _ => exact one.of_rowwise still
    | revise _ _ _ _ _ _ => exact one.of_rowwise still
    | publish _ _ _ => exact one.of_rowwise still
    | item _ _ _ _ _ _ _ => exact one.of_rowwise still

structure Sound (db : Database) : Prop where
  coupled : Coupled db
  success : SuccessSafe db
  queued : Queued db
  oneDispatch : OneDispatch db

namespace Sound

theorem empty : Sound .empty where
  coupled := coupled_empty
  success := successSafe_empty
  queued := by constructor <;> intros <;> simp_all [Database.empty]
  oneDispatch := by
    intro k j row other found
    simp [Database.empty] at found

theorem of_change (sound : Sound db) (change : Change listed db db') : Sound db' where
  coupled := sound.coupled.of_change change
  success := sound.success.of_change sound.coupled change
  queued := by
    rcases change with event | worker
    · exact sound.queued.of_event sound.coupled event
    · exact sound.queued.of_worker sound.coupled worker
  oneDispatch := sound.oneDispatch.of_change change

end Sound

end Stratadiff.Governor
