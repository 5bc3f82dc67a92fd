import Stratadiff.Governor.Queue
import Stratadiff.Governor.Worker

/-!
# What the calls of workers do

One lemma for each transaction behind the worker: when it answers what, and the database
it leaves behind. In a sound database none of them fails, and each is a chain of changes.
-/

namespace Stratadiff.Governor

open Transaction

variable {db db' : Database}

/-! ## Statements -/

/-- What `UPDATE … WHERE id = … RETURNING *` does. -/
def Updates {ρ : Type} (db : Database) (rows : List ρ) (id : Nat) (condition : ρ → Bool)
    (change : ρ → ρ) (put : List ρ → Database) (row : Option ρ) (db' : Database) : Prop :=
  (row = none ∧ db' = db ∧ ∀ old, rows[id]? = some old → condition old = false) ∨
    ∃ old, rows[id]? = some old ∧ condition old = true ∧ row = some (change old) ∧
      db' = put (Table.put rows id (change old))

theorem updates {ρ : Type} {x : Tx (Option ρ)} {rows : List ρ} {id : Nat} {condition : ρ → Bool}
    {change : ρ → ρ} {put : List ρ → Database}
    (run : x db = ((rows[id]?).filter condition).elim (.ok (none, db)) fun old =>
      .ok (some (change old), put (Table.put rows id (change old)))) :
    Commits x db (Updates db rows id condition change put) := by
  cases found : rows[id]? with
  | none =>
      rw [found] at run
      exact .of_eq run (.inl ⟨rfl, rfl, by simp [found]⟩)
  | some old =>
      rw [found] at run
      cases holds : condition old with
      | false =>
          refine .of_eq (run.trans (by simp [Option.filter, holds])) (.inl ⟨rfl, rfl, ?_⟩)
          intro other there
          cases found.symm.trans there
          exact holds
      | true =>
          exact .of_eq (run.trans (by simp [Option.filter, holds]))
            (.inr ⟨old, found, holds, rfl, rfl⟩)

theorem updatePair_commits {id : PairId} {condition : Pair → Bool} {change : Pair → Pair} :
    Commits (updatePair id condition change) db
      (Updates db db.pairs id condition change fun pairs => { db with pairs }) := by
  refine updates ?_
  unfold updatePair
  cases db.pairs[id]? with
  | none => rfl
  | some pair => cases holds : condition pair <;> simp [Option.filter, holds]

theorem updateGate_commits {id : GateId} {condition : Gate → Bool} {change : Gate → Gate} :
    Commits (updateGate id condition change) db
      (Updates db db.gates id condition change fun gates => { db with gates }) := by
  refine updates ?_
  unfold updateGate
  cases db.gates[id]? with
  | none => rfl
  | some gate => cases holds : condition gate <;> simp [Option.filter, holds]

theorem updateItem_commits {id : OutboxId} {condition : OutboxItem → Bool}
    {change : OutboxItem → OutboxItem} :
    Commits (updateItem id condition change) db
      (Updates db db.outbox id condition change fun outbox => { db with outbox }) := by
  refine updates ?_
  unfold updateItem
  cases db.outbox[id]? with
  | none => rfl
  | some item => cases holds : condition item <;> simp [Option.filter, holds]

/-- The command of a pair's epoch, where there is one in a state. -/
theorem updateDispatches_commits {p : PairId} {epoch : Nat} {state : DispatchState}
    {change : Dispatch → Dispatch} (one : OneDispatch db) :
    Commits (updateDispatches (fun row => row.isOf p epoch && row.state == state) change) db
      fun changed db' =>
        (changed = 0 ∧ db' = db ∧
          ∀ row ∈ db.dispatches, row.isOf p epoch = true → row.state ≠ state) ∨
        ∃ k row, db.dispatches[k]? = some row ∧ row.isOf p epoch = true ∧ row.state = state ∧
          changed = 1 ∧
          db' = { db with dispatches := Table.put db.dispatches k (change row) } := by
  have holds : ∀ {row : Dispatch}, (row.isOf p epoch && row.state == state) = true ↔
      row.isOf p epoch = true ∧ row.state = state := by simp
  cases h : Table.first db.dispatches (fun row => row.isOf p epoch && row.state == state) with
  | none =>
      have none : ∀ (k : Nat) row, db.dispatches[k]? = some row →
          (row.isOf p epoch && row.state == state) = false := fun _ _ => Table.first_eq_none h
      have empty : Table.select db.dispatches (fun row => row.isOf p epoch && row.state == state) =
          [] := List.head?_eq_none_iff.mp h
      refine ⟨0, db, ?_, .inl ⟨rfl, rfl, ?_⟩⟩
      · rw [updateDispatches, empty, Table.update_eq_self none]
        rfl
      · intro row member isOf same
        obtain ⟨k, found⟩ := List.getElem?_of_mem member
        exact absurd (none k row found) (by simp [isOf, same])
  | some place =>
      obtain ⟨k, row⟩ := place
      obtain ⟨found, selected⟩ := Table.first_eq_some h
      obtain ⟨isOf, same⟩ := holds.mp selected
      have only : ∀ (j : Nat) other, db.dispatches[j]? = some other →
          (other.isOf p epoch && other.state == state) = true → j = k := by
        intro j other there selected'
        have isOf' := (holds.mp selected').1
        simp only [Dispatch.isOf, Bool.and_eq_true, beq_iff_eq] at isOf isOf'
        exact one j k other row there found (isOf'.1.trans isOf.1.symm)
          (isOf'.2.trans isOf.2.symm)
      refine ⟨1, _, ?_, .inr ⟨k, row, found, isOf, same, rfl, rfl⟩⟩
      rw [updateDispatches, Table.select_eq_singleton found selected only,
        Table.update_eq_put found selected only]
      rfl

/-! ## Pairs -/

theorem acquirePairLease_commits {p : PairId} {epoch : Nat} {w : WorkerId} {now : Time}
    {leaseSeconds : Nat} :
    Commits (acquirePairLease p epoch w now leaseSeconds) db fun answer db' =>
      (answer = none ∧ db' = db) ∨
      ∃ pair, db.pairs[p]? = some pair ∧ pair.epoch = epoch ∧ pair.active = true ∧
        pair.quarantine = none ∧
        answer = some ⟨p, epoch, pair.fence + 1, w, now + seconds leaseSeconds⟩ ∧
        db' = { db with pairs := Table.put db.pairs p { pair with
          fence := pair.fence + 1, lease := some ⟨w, now + seconds leaseSeconds⟩ } } := by
  refine .bind (updatePair_commits.mono ?_)
  rintro row db' (⟨rfl, rfl, _⟩ | ⟨pair, found, holds, rfl, rfl⟩)
  · exact .pure (.inl ⟨rfl, rfl⟩)
  · simp only [Bool.and_eq_true, beq_iff_eq, Bool.not_eq_true'] at holds
    refine .pure (.inr ⟨pair, found, holds.1.1.1, holds.1.1.2,
      Pair.quarantined_eq_false.mp holds.1.2, ?_, rfl⟩)
    simp [holds.1.1.1]

theorem PairLease.valid_iff {lease : PairLease} {now : Time} {pair : Pair} :
    lease.valid now pair = true ↔ pair.epoch = lease.epoch ∧ pair.fence = lease.fence ∧
      (∃ held, pair.lease = some held ∧ held.owner = lease.workerId ∧ now < held.expiresAt) ∧
      pair.active = true ∧ pair.quarantine = none := by
  simp only [PairLease.valid, Lease.heldBy, Bool.and_eq_true, beq_iff_eq, Bool.not_eq_true',
    Option.any_eq_true, decide_eq_true_eq, Pair.quarantined_eq_false, and_assoc]

theorem renewPairLease_commits {lease : PairLease} {now : Time} {leaseSeconds : Nat} :
    Commits (renewPairLease lease now leaseSeconds) db fun answer db' =>
      (answer = none ∧ db' = db) ∨
      ∃ pair held, db.pairs[lease.pairId]? = some pair ∧ lease.valid now pair = true ∧
        pair.lease = some held ∧
        answer = some { lease with expiresAt := now + seconds leaseSeconds } ∧
        db' = { db with pairs := Table.put db.pairs lease.pairId { pair with
          lease := some { held with expiresAt := now + seconds leaseSeconds } } } := by
  refine .bind (updatePair_commits.mono ?_)
  rintro row db' (⟨rfl, rfl, _⟩ | ⟨pair, found, holds, rfl, rfl⟩)
  · exact .pure (.inl ⟨rfl, rfl⟩)
  · obtain ⟨epoch, fence, ⟨held, leased, _⟩, _⟩ := PairLease.valid_iff.mp holds
    refine .pure (.inr ⟨pair, held, found, holds, leased, ?_, ?_⟩)
    · simp [epoch, fence]
    · simp [leased]

/-- What a commit decides: a success for which the command does not count is a failure. -/
def committedState (db : Database) (lease : PairLease) (state : GateState) (clock : Time) :
    GateState :=
  if state = .success ∧ ¬ db.dispatches.any (sentBefore lease.pairId lease.epoch clock) then
    .failure
  else
    state

theorem committedState_success {lease : PairLease} {state : GateState} {clock : Time}
    (h : committedState db lease state clock = .success) :
    state = .success ∧ ∃ row ∈ db.dispatches, row.isOf lease.pairId lease.epoch = true ∧
      row.state = .sent ∧ ∃ deadline, row.evidenceDeadlineAt = some deadline ∧
        clock < deadline := by
  unfold committedState at h
  split at h
  · cases h
  · next counts =>
      subst h
      simp only [true_and, not_not, List.any_eq_true, sentBefore, Bool.and_eq_true, beq_iff_eq,
        Option.any_eq_true, decide_eq_true_eq] at counts
      obtain ⟨row, member, ⟨isOf, sent⟩, deadline⟩ := counts
      exact ⟨rfl, row, member, isOf, sent, deadline⟩

theorem commitPairGate_commits {lease : PairLease} {state : GateState} {summary : String}
    {now clock : Time} (coupled : Coupled db) :
    Commits (commitPairGate lease state summary now clock) db fun committed db' =>
      (committed = false ∧ db' = db ∧
        ∀ pair, db.pairs[lease.pairId]? = some pair → lease.valid now pair = false) ∨
      ∃ pair g gate summary', Gated db lease.pairId pair g gate ∧
        lease.valid now pair = true ∧ committed = true ∧
        (committedState db lease state clock = state → summary' = summary) ∧
        db' = { db with
          pairs := Table.put db.pairs lease.pairId { pair with lease := none }
          gates := Table.put db.gates g
            (gate.revised (committedState db lease state clock) summary')
          outbox := withPublication db.outbox g
            (gate.revised (committedState db lease state clock) summary') now } := by
  refine .bind (updatePair_commits.mono ?_)
  rintro row db₁ (⟨rfl, rfl, invalid⟩ | ⟨pair, found, valid, rfl, rfl⟩)
  · exact .pure (.inl ⟨rfl, rfl, invalid⟩)
  · obtain ⟨epoch, _, _, active, _⟩ := PairLease.valid_iff.mp valid
    obtain ⟨g, gate, gated⟩ := coupled.gated found active
    dsimp only
    refine .bind (.get ?_)
    refine .bind ?_
    have only : ∀ (h : GateId) other, db.gates[h]? = some other →
        (other.pairId == some lease.pairId && other.epoch == lease.epoch && other.active) = true →
          h = g := by
      intro h other there holds
      simp only [Bool.and_eq_true, beq_iff_eq] at holds
      exact coupled.gate_unique gated there holds.1.1 holds.2
    have here : (gate.pairId == some lease.pairId && gate.epoch == lease.epoch &&
        gate.active) = true := by
      simp [gated.bound, gated.gateActive, coupled.epoch_eq gated, epoch]
    refine .of_eq (updateGates_eq gated.gateAt here only) ?_
    dsimp only
    refine .of_eq rfl (.inr ⟨pair, g, gate, ?_⟩)
    unfold committedState
    split
    · next late => exact ⟨lateCommitSummary, gated, valid, rfl, by simp [late.1], rfl⟩
    · exact ⟨summary, gated, valid, rfl, fun _ => rfl, rfl⟩

/-! ## Commands -/

theorem beginDispatchAttempt_commits {lease : PairLease} {now : Time} (one : OneDispatch db) :
    Commits (beginDispatchAttempt lease now) db fun began db' =>
      (began = false ∧ db' = db) ∨
      ∃ pair k row, db.pairs[lease.pairId]? = some pair ∧ lease.valid now pair = true ∧
        db.dispatches[k]? = some row ∧ row.isOf lease.pairId lease.epoch = true ∧
        row.state = .planned ∧ began = true ∧
        db' = { db with
          dispatches := Table.put db.dispatches k { row with state := .attempting } } := by
  refine .bind (.get ?_)
  cases found : db.pairs[lease.pairId]? with
  | none => exact .pure (.inl ⟨rfl, rfl⟩)
  | some pair =>
      dsimp only
      split
      · next valid =>
          refine .bind ((updateDispatches_commits one).mono ?_)
          rintro changed db' (⟨rfl, rfl, _⟩ | ⟨k, row, there, isOf, planned, rfl, rfl⟩)
          · exact .pure (.inl ⟨rfl, rfl⟩)
          · exact .pure (.inr ⟨pair, k, row, rfl, valid, there, isOf, planned, rfl, rfl⟩)
      · exact .pure (.inl ⟨rfl, rfl⟩)

/-- A command that is planned. -/
def plannedDispatch (p : PairId) (epoch : Nat) (now : Time) : Dispatch where
  pairId := p
  pairEpoch := epoch
  state := .planned
  commandCommentId := none
  dispatchedAt := none
  evidenceDeadlineAt := none
  plannedAt := now

theorem planDispatch_commits {lease : PairLease} {now : Time} :
    Commits (planDispatch lease now) db fun planned db' =>
      (planned = false ∧ db' = db ∧
        ∀ pair, db.pairs[lease.pairId]? = some pair → lease.valid now pair = false) ∨
      ∃ pair, db.pairs[lease.pairId]? = some pair ∧ lease.valid now pair = true ∧ planned = true ∧
        (db' = db ∧ (∃ row ∈ db.dispatches, row.isOf lease.pairId lease.epoch = true) ∨
          (∀ row ∈ db.dispatches, row.isOf lease.pairId lease.epoch = false) ∧
          db' = { db with
            dispatches := Table.put db.dispatches db.dispatches.length
              (plannedDispatch lease.pairId lease.epoch now) }) := by
  refine .bind (.get ?_)
  cases found : db.pairs[lease.pairId]? with
  | none => exact .pure (.inl ⟨rfl, rfl, nofun⟩)
  | some pair =>
      dsimp only
      split
      · next valid =>
          refine .bind ?_
          cases any : db.dispatches.any (·.isOf lease.pairId lease.epoch) with
          | true =>
              refine .of_eq (by rw [insertDispatch, any]; rfl) (.pure (.inr ⟨pair, rfl, valid, rfl,
                .inl ⟨rfl, ?_⟩⟩))
              exact List.any_eq_true.mp any
          | false =>
              refine .of_eq (by rw [insertDispatch, any]; rfl) (.pure (.inr ⟨pair, rfl, valid, rfl,
                .inr ⟨?_, rfl⟩⟩))
              intro row member
              exact Bool.eq_false_iff.mpr (List.any_eq_false.mp any row member)
      · next invalid =>
          refine .pure (.inl ⟨rfl, rfl, ?_⟩)
          intro other there
          cases there
          exact Bool.eq_false_iff.mpr invalid

/-- The pair of an adopted command: the lease that the command was sent under ends. -/
def Pair.released (pair : Pair) (lease : PairLease) : Pair :=
  if pair.epoch == lease.epoch && pair.fence == lease.fence &&
      pair.lease.any (·.owner == lease.workerId) then { pair with lease := none }
  else pair

/-- A command that was sent. -/
def Dispatch.adopted (row : Dispatch) (commentId : Nat) (dispatchedAt deadline : Time) : Dispatch :=
  { row with
    commandCommentId := some commentId, state := .sent, dispatchedAt := some dispatchedAt
    evidenceDeadlineAt := some deadline }

theorem adoptDispatch_commits {lease : PairLease} {commentId : Nat} {dispatchedAt : Time}
    {evidenceTimeoutSeconds : Nat} (coupled : Coupled db) (one : OneDispatch db) :
    Commits (adoptDispatch lease commentId dispatchedAt evidenceTimeoutSeconds) db
      fun adopted db' =>
        (adopted = false ∧ db' = db) ∨
        ∃ pair k row g gate, Gated db lease.pairId pair g gate ∧ pair.epoch = lease.epoch ∧
          pair.quarantine = none ∧ db.dispatches[k]? = some row ∧
          row.isOf lease.pairId lease.epoch = true ∧ row.state = .attempting ∧ adopted = true ∧
          db' = { db with
            pairs := Table.put db.pairs lease.pairId (pair.released lease)
            dispatches := Table.put db.dispatches k (row.adopted commentId dispatchedAt
              (dispatchedAt + seconds evidenceTimeoutSeconds))
            outbox := enqueued db.outbox (.evaluatePair lease.pairId lease.epoch gate.revision)
              (.evaluateTimeout lease.pairId lease.epoch)
              (dispatchedAt + seconds evidenceTimeoutSeconds) } := by
  refine .bind (.get ?_)
  cases found : db.pairs[lease.pairId]? with
  | none => exact .pure (.inl ⟨rfl, rfl⟩)
  | some pair =>
      dsimp only
      split
      · exact .pure (.inl ⟨rfl, rfl⟩)
      · next eligible =>
          simp only [Bool.not_eq_true', Bool.not_eq_false, Bool.and_eq_true, beq_iff_eq,
            Bool.not_eq_true'] at eligible
          obtain ⟨⟨epoch, active⟩, free⟩ := eligible
          obtain ⟨g, gate, gated⟩ := coupled.gated found active
          refine .bind ((updateDispatches_commits one).mono ?_)
          rintro changed db₁ (⟨rfl, rfl, _⟩ | ⟨k, row, there, isOf, attempting, rfl, rfl⟩)
          · exact .pure (.inl ⟨rfl, rfl⟩)
          · rw [if_neg (by simp)]
            have first : Table.first db.gates (fun gate => gate.pairId == some lease.pairId &&
                gate.epoch == lease.epoch && gate.active) = some (g, gate) := by
              rw [Table.first, Table.select_eq_singleton gated.gateAt]
              · rfl
              · simp [gated.bound, gated.gateActive, coupled.epoch_eq gated, epoch]
              · intro h other there' holds
                simp only [Bool.and_eq_true, beq_iff_eq] at holds
                exact coupled.gate_unique gated there' holds.1.1 holds.2
            refine .bind (updatePair_commits.mono ?_)
            rintro released db₂ (⟨_, rfl, kept⟩ | ⟨old, found', holds, _, rfl⟩)
            · refine .bind (.get ?_)
              dsimp only
              rw [first]
              refine .of_eq rfl (.inr ⟨pair, k, row, g, gate, gated, epoch,
                Pair.quarantined_eq_false.mp free, there, isOf, attempting, rfl, ?_⟩)
              have released : pair.released lease = pair :=
                if_neg (Bool.eq_false_iff.mp (kept pair found))
              rw [released, Table.put_self found]
              rfl
            · cases found.symm.trans found'
              refine .bind (.get ?_)
              dsimp only
              rw [first]
              refine .of_eq rfl (.inr ⟨pair, k, row, g, gate, gated, epoch,
                Pair.quarantined_eq_false.mp free, there, isOf, attempting, rfl, ?_⟩)
              have released : pair.released lease = { pair with lease := none } := if_pos holds
              rw [released]
              rfl

/-! ## Publications -/

theorem acquireGateLease_commits {g : GateId} {epoch revision : Nat} {w : WorkerId} {now : Time}
    {leaseSeconds : Nat} :
    Commits (acquireGateLease g epoch revision w now leaseSeconds) db fun answer db' =>
      (answer = none ∧ db' = db) ∨
      ∃ gate, db.gates[g]? = some gate ∧ gate.epoch = epoch ∧ gate.revision = revision ∧
        Lease.free gate.lease w now = true ∧
        answer = some ⟨g, epoch, revision, gate.fence + 1, w, now + seconds leaseSeconds⟩ ∧
        db' = { db with gates := Table.put db.gates g { gate with
          fence := gate.fence + 1, lease := some ⟨w, now + seconds leaseSeconds⟩ } } := by
  refine .bind (updateGate_commits.mono ?_)
  rintro row db' (⟨rfl, rfl, _⟩ | ⟨gate, found, holds, rfl, rfl⟩)
  · exact .pure (.inl ⟨rfl, rfl⟩)
  · simp only [Bool.and_eq_true, beq_iff_eq] at holds
    refine .pure (.inr ⟨gate, found, holds.1.1, holds.1.2, holds.2, ?_, rfl⟩)
    simp [holds.1.1, holds.1.2]

theorem GateLease.valid_iff {lease : GateLease} {now : Time} {gate : Gate} :
    lease.valid now gate = true ↔ gate.epoch = lease.epoch ∧ gate.revision = lease.revision ∧
      gate.fence = lease.fence ∧
      ∃ held, gate.lease = some held ∧ held.owner = lease.workerId ∧ now < held.expiresAt := by
  simp only [GateLease.valid, Lease.heldBy, Bool.and_eq_true, beq_iff_eq, Option.any_eq_true,
    decide_eq_true_eq, and_assoc]

/-- A revision of a gate together with its publication. -/
def revisedGate (db : Database) (g : GateId) (gate' : Gate) (now : Time) : Database :=
  { db with
    gates := Table.put db.gates g gate'
    outbox := withPublication db.outbox g gate' now }

theorem commitGatePublication_commits {lease : GateLease} {checkRunId : Nat}
    {publishedState : GateState} {now : Time} :
    Commits (commitGatePublication lease checkRunId publishedState now) db fun committed db' =>
      (committed = false ∧ db' = db) ∨
      ∃ gate, db.gates[lease.subjectId]? = some gate ∧ lease.valid now gate = true ∧
        committed = true ∧
        db' = { db with gates := Table.put db.gates lease.subjectId { gate with
          checkRunId := some checkRunId, publishedRevision := some gate.revision
          publishedState := some publishedState, lease := none } } := by
  refine .bind (updateGate_commits.mono ?_)
  rintro row db' (⟨rfl, rfl, _⟩ | ⟨gate, found, valid, rfl, rfl⟩)
  · exact .pure (.inl ⟨rfl, rfl⟩)
  · exact .pure (.inr ⟨gate, found, valid, rfl, rfl⟩)

theorem rejectGatePublication_commits {lease : GateLease} {summary : String}
    {observedCheckRunId : Option Nat} {now : Time} :
    Commits (rejectGatePublication lease summary observedCheckRunId now) db fun rejected db' =>
      (rejected = false ∧ db' = db ∧
        ∀ gate, db.gates[lease.subjectId]? = some gate → lease.valid now gate = false) ∨
      ∃ gate, db.gates[lease.subjectId]? = some gate ∧ lease.valid now gate = true ∧
        rejected = true ∧
        db' = revisedGate db lease.subjectId (gate.rejected summary observedCheckRunId) now := by
  refine .bind (updateGate_commits.mono ?_)
  rintro row db' (⟨rfl, rfl, invalid⟩ | ⟨gate, found, valid, rfl, rfl⟩)
  · exact .pure (.inl ⟨rfl, rfl, invalid⟩)
  · exact .of_eq rfl (.inr ⟨gate, found, valid, rfl, rfl⟩)

theorem supersedeStaleGatePublication_commits {g : GateId} {epoch staleRevision : Nat}
    {observedCheckRunId : Nat} {now : Time} :
    Commits (supersedeStaleGatePublication g epoch staleRevision observedCheckRunId now) db
      fun superseded db' =>
        (superseded = false ∧ db' = db ∧ ∀ gate, db.gates[g]? = some gate → gate.epoch = epoch →
          gate.revision < staleRevision) ∨
        ∃ gate, db.gates[g]? = some gate ∧ gate.epoch = epoch ∧ staleRevision ≤ gate.revision ∧
          superseded = true ∧ db' = revisedGate db g (gate.superseding observedCheckRunId) now := by
  refine .bind (updateGate_commits.mono ?_)
  rintro row db' (⟨rfl, rfl, fails⟩ | ⟨gate, found, holds, rfl, rfl⟩)
  · refine .pure (.inl ⟨rfl, rfl, ?_⟩)
    intro gate found epoch
    simpa [epoch] using fails gate found
  · simp only [Bool.and_eq_true, beq_iff_eq, decide_eq_true_eq] at holds
    exact .of_eq rfl (.inr ⟨gate, found, holds.1, holds.2, rfl, rfl⟩)

theorem authorizeSuccessPublication_commits {lease : GateLease} {observedCheckRunId : Option Nat}
    {now clock : Time} (sound : Sound db) :
    Commits (authorizeSuccessPublication lease observedCheckRunId now clock) db fun answer db' =>
      (answer = .stale ∧ db' = db ∧ ∀ gate, db.gates[lease.subjectId]? = some gate →
        lease.valid now gate = true → gate.desiredState ≠ .success) ∨
      (∃ gate, db.gates[lease.subjectId]? = some gate ∧ lease.valid now gate = true ∧
        gate.desiredState = .success ∧ answer = .authorized ∧ db' = db) ∨
      ∃ gate p, db.gates[lease.subjectId]? = some gate ∧ lease.valid now gate = true ∧
        gate.desiredState = .success ∧ gate.pairId = some p ∧
        db.dispatches.any (sentBefore p gate.epoch clock) = false ∧ answer = .expired ∧
        db' = revisedGate db lease.subjectId (gate.rejected expiredSummary observedCheckRunId)
          now := by
  refine .bind (.get ?_)
  cases found : db.gates[lease.subjectId]? with
  | none => exact .pure (.inl ⟨rfl, rfl, by simp⟩)
  | some gate =>
      dsimp only
      split
      · next fails =>
          refine .pure (.inl ⟨rfl, rfl, ?_⟩)
          intro other there valid success
          cases there
          -- A success is not quarantined.
          obtain ⟨p, pair, gated, free, _⟩ := sound.success.success found success
          have clear := sound.success.quarantine gated free
          simp [valid, success, Gate.quarantined, clear] at fails
      · next holds =>
          simp only [Bool.not_eq_true', Bool.not_eq_false, Bool.and_eq_true, beq_iff_eq,
            Bool.not_eq_true'] at holds
          obtain ⟨⟨valid, success⟩, _⟩ := holds
          obtain ⟨p, pair, gated, free, _⟩ := sound.success.success found success
          have epoch : pair.epoch = lease.epoch :=
            (sound.coupled.epoch_eq gated).symm.trans (GateLease.valid_iff.mp valid).1
          rw [gated.bound]
          dsimp only
          rw [gated.pairAt]
          dsimp only
          rw [if_neg (by simp [epoch, gated.pairActive, Pair.quarantined, free])]
          split
          · exact .pure (.inr (.inl ⟨gate, rfl, valid, success, rfl, rfl⟩))
          · next late =>
              refine .bind (.of_eq (updateGate_eq found valid) (.of_eq rfl (.inr (.inr
                ⟨gate, p, rfl, valid, success, gated.bound, ?_, rfl, rfl⟩))))
              rw [(GateLease.valid_iff.mp valid).1]
              exact Bool.eq_false_iff.mpr late

/-! ## The outbox -/

theorem claimOutbox_commits {locked : OutboxId → Bool} {w : WorkerId} {now : Time}
    {leaseSeconds : Nat} :
    Commits (claimOutbox locked w now leaseSeconds) db fun answer db' =>
      (answer = none ∧ db' = db) ∨
      ∃ id item, db.outbox[id]? = some item ∧ item.ready now = true ∧
        answer = some ⟨id, item.payload, item.leaseFence + 1, w⟩ ∧
        db' = { db with outbox := Table.put db.outbox id { item with
          lease := some ⟨w, now + seconds leaseSeconds⟩, leaseFence := item.leaseFence + 1 } } := by
  refine .bind (.get ?_)
  dsimp only
  split
  · exact .pure (.inl ⟨rfl, rfl⟩)
  · next id item first =>
      have member := (List.perm_insertionSort _ _).mem_iff.mp (List.mem_of_head? first)
      obtain ⟨found, ready⟩ := Table.mem_select.mp (List.mem_filter.mp member).1
      have open_item : item.completedAt.isNone = true := by
        simp only [OutboxItem.ready, Bool.and_eq_true] at ready
        exact ready.1.1
      refine .bind (updateItem_commits.mono ?_)
      rintro row db' (⟨_, _, fails⟩ | ⟨old, there, _, rfl, rfl⟩)
      · exact absurd open_item (Bool.eq_false_iff.mp (fails item found))
      · cases found.symm.trans there
        exact .pure (.inr ⟨id, item, found, ready, rfl, rfl⟩)

theorem OutboxLease.valid_iff {lease : OutboxLease} {now : Time} {item : OutboxItem} :
    lease.valid now item = true ↔ item.leaseFence = lease.fence ∧
      (∃ held, item.lease = some held ∧ held.owner = lease.workerId ∧ now < held.expiresAt) ∧
      item.completedAt = none := by
  simp only [OutboxLease.valid, Lease.heldBy, Bool.and_eq_true, beq_iff_eq, Option.any_eq_true,
    decide_eq_true_eq, and_assoc, Option.isNone_iff_eq_none]

theorem completeOutbox_commits {lease : OutboxLease} {now : Time} :
    Commits (completeOutbox lease now) db fun completed db' =>
      (completed = false ∧ db' = db) ∨
      ∃ item, db.outbox[lease.id]? = some item ∧ lease.valid now item = true ∧ completed = true ∧
        db' = { db with outbox := Table.put db.outbox lease.id { item with
          completedAt := some now, lease := none } } := by
  refine .bind (updateItem_commits.mono ?_)
  rintro row db' (⟨rfl, rfl, _⟩ | ⟨item, found, valid, rfl, rfl⟩)
  · exact .pure (.inl ⟨rfl, rfl⟩)
  · exact .pure (.inr ⟨item, found, valid, rfl, rfl⟩)

theorem failOutbox_commits {lease : OutboxLease} {now : Time} {retrySeconds : Nat} :
    Commits (failOutbox lease now retrySeconds) db fun failed db' =>
      (failed = false ∧ db' = db) ∨
      ∃ item, db.outbox[lease.id]? = some item ∧ lease.valid now item = true ∧ failed = true ∧
        db' = { db with outbox := Table.put db.outbox lease.id { item with
          availableAt := now + seconds retrySeconds, lease := none } } := by
  refine .bind (updateItem_commits.mono ?_)
  rintro row db' (⟨rfl, rfl, _⟩ | ⟨item, found, valid, rfl, rfl⟩)
  · exact .pure (.inl ⟨rfl, rfl⟩)
  · exact .pure (.inr ⟨item, found, valid, rfl, rfl⟩)

/-! ## Every call -/

section

variable {p : PairId} {pair : Pair} {g : GateId} {gate : Gate}

theorem holdPair_gated {lease : Option Lease} (gated : Gated db p pair g gate) :
    Gated { db with pairs := Table.put db.pairs p { pair with lease } } p { pair with lease } g
      gate := by
  refine ⟨?_, gated.pairActive, gated.gateAt, gated.gateActive, gated.bound⟩
  rw [Table.getElem?_put (Table.lt_length gated.pairAt).le, if_pos rfl]

theorem commitPairGate_steps {lease : PairLease} {state : GateState} {summary : String}
    {now clock : Time} (coupled : Coupled db) :
    Commits (commitPairGate lease state summary now clock) db fun _ db' => WorkerSteps db db' := by
  refine (commitPairGate_commits coupled).mono ?_
  rintro committed db' (⟨_, rfl, _⟩ | ⟨pair, g, gate, summary', gated, valid, _, _, rfl⟩)
  · exact .refl
  · obtain ⟨epoch, _, _, _, free⟩ := PairLease.valid_iff.mp valid
    refine .tail (.single (.holdPair none gated.pairAt nofun))
      (.decide (committedState db lease state clock) summary' now (holdPair_gated gated) free ?_)
    intro success
    obtain ⟨_, row, member, isOf, sent, _⟩ := committedState_success success
    exact ⟨row, member, by rw [← isOf, ← epoch], sent⟩

theorem released_steps {lease : PairLease} (gated : Gated db p pair g gate) :
    WorkerSteps db { db with pairs := Table.put db.pairs p (pair.released lease) } := by
  unfold Pair.released
  split
  · exact .single (.holdPair none gated.pairAt nofun)
  · rw [Table.put_self gated.pairAt]

theorem Pair.released_eq (lease : PairLease) :
    pair.released lease = { pair with lease := (pair.released lease).lease } := by
  unfold Pair.released
  split <;> rfl

theorem adoptDispatch_steps {lease : PairLease} {commentId : Nat} {dispatchedAt : Time}
    {evidenceTimeoutSeconds : Nat} (sound : Sound db) :
    Commits (adoptDispatch lease commentId dispatchedAt evidenceTimeoutSeconds) db fun _ db' =>
      WorkerSteps db db' := by
  refine (adoptDispatch_commits sound.coupled sound.oneDispatch).mono ?_
  rintro adopted db'
    (⟨_, rfl⟩ | ⟨pair, k, row, g, gate, gated, epoch, _, there, _, attempting, _, rfl⟩)
  · exact .refl
  · have released : Gated { db with
        pairs := Table.put db.pairs lease.pairId (pair.released lease)
        dispatches := Table.put db.dispatches k (row.adopted commentId dispatchedAt
          (dispatchedAt + seconds evidenceTimeoutSeconds)) } lease.pairId
        (pair.released lease) g gate := by
      rw [Pair.released_eq]
      refine ⟨?_, gated.pairActive, gated.gateAt, gated.gateActive, gated.bound⟩
      rw [Table.getElem?_put (Table.lt_length gated.pairAt).le, if_pos rfl]
    have timeout := WorkerChange.timeout (dispatchedAt + seconds evidenceTimeoutSeconds) released
    rw [show (pair.released lease).epoch = lease.epoch by rw [Pair.released_eq]; exact epoch]
      at timeout
    exact ((released_steps gated).tail (.adopt commentId dispatchedAt _ there attempting)).tail
      timeout

/-- What a call does: changes of workers, or a part of an event. -/
def Ran (db db' : Database) : Prop := WorkerSteps db db' ∨ Applied none db db'

namespace Ran

theorem refl : Ran db db := .inl .refl

theorem worker (change : WorkerChange db db') : Ran db db' := .inl (.single change)

theorem steps (h : Ran db db') : Steps none db db' := by
  rcases h with steps | applied
  · exact steps.steps
  · exact applied.steps.steps

theorem archive (h : Ran db db') : db'.archive = db.archive := by
  rcases h with steps | applied
  · induction steps with
    | refl => rfl
    | tail _ change ih =>
        rw [← ih]
        cases change <;> rfl
  · exact applied.archive

theorem deliveries (h : Ran db db') : db'.deliveries = db.deliveries :=
  congrArg Prod.fst h.archive

end Ran

theorem run_ran {locked : OutboxId → Bool} {clock : Time} {op : StoreOp} (sound : Sound db) :
    Commits (op.run locked clock) db fun _ db' => Ran db db' := by
  cases op with
  | claimOutbox w now leaseSeconds =>
      refine claimOutbox_commits.mono ?_
      rintro answer db' (⟨_, rfl⟩ | ⟨id, item, found, ready, _, rfl⟩)
      · exact .refl
      · refine .worker (.item item.availableAt _ _ item.completedAt found ?_ (Nat.le_succ _))
        simp only [OutboxItem.ready, Bool.and_eq_true, Option.isNone_iff_eq_none] at ready
        exact ready.1.1
  | completeOutbox lease now =>
      refine completeOutbox_commits.mono ?_
      rintro answer db' (⟨_, rfl⟩ | ⟨item, found, valid, _, rfl⟩)
      · exact .refl
      · exact .worker (.item item.availableAt _ _ _ found (OutboxLease.valid_iff.mp valid).2.2
          le_rfl)
  | failOutbox lease now retrySeconds =>
      refine failOutbox_commits.mono ?_
      rintro answer db' (⟨_, rfl⟩ | ⟨item, found, valid, _, rfl⟩)
      · exact .refl
      · exact .worker (.item _ _ _ item.completedAt found (OutboxLease.valid_iff.mp valid).2.2
          le_rfl)
  | acquireGateLease g epoch revision w now leaseSeconds =>
      refine acquireGateLease_commits.mono ?_
      rintro answer db' (⟨_, rfl⟩ | ⟨gate, found, _, _, _, _, rfl⟩)
      · exact .refl
      · exact .worker (.leaseGate _ found)
  | authorizeSuccessPublication lease observedCheckRunId now =>
      refine (authorizeSuccessPublication_commits sound).mono ?_
      rintro answer db' (⟨_, rfl, _⟩ | ⟨_, _, _, _, _, rfl⟩ | ⟨gate, p, found, _, _, _, _, _, rfl⟩)
      · exact .refl
      · exact .refl
      · exact .worker (.revise _ _ _ now found (.inl rfl))
  | getGateSubject g => exact .of_eq rfl .refl
  | rejectGatePublication lease summary observedCheckRunId now =>
      refine rejectGatePublication_commits.mono ?_
      rintro answer db' (⟨_, rfl, _⟩ | ⟨gate, found, _, _, rfl⟩)
      · exact .refl
      · exact .worker (.revise _ _ _ now found (.inl rfl))
  | supersedeStaleGatePublication g epoch staleRevision observedCheckRunId now =>
      refine supersedeStaleGatePublication_commits.mono ?_
      rintro answer db' (⟨_, rfl, _⟩ | ⟨gate, found, _, _, _, rfl⟩)
      · exact .refl
      · exact .worker (.revise _ _ _ now found (.inr rfl))
  | commitGatePublication lease checkRunId publishedState now =>
      refine commitGatePublication_commits.mono ?_
      rintro answer db' (⟨_, rfl⟩ | ⟨gate, found, _, _, rfl⟩)
      · exact .refl
      · exact .worker (.publish checkRunId publishedState found)
  | readPair p epoch => exact .of_eq rfl .refl
  | readDispatch p epoch => exact .of_eq rfl .refl
  | readEvidence p epoch => exact .of_eq rfl .refl
  | acquirePairLease p epoch w now leaseSeconds =>
      refine acquirePairLease_commits.mono ?_
      rintro answer db' (⟨_, rfl⟩ | ⟨pair, found, _, active, free, _, rfl⟩)
      · exact .refl
      · exact .worker (.leasePair _ found active free)
  | renewPairLease lease now leaseSeconds =>
      refine renewPairLease_commits.mono ?_
      rintro answer db' (⟨_, rfl⟩ | ⟨pair, held, found, _, leased, _, rfl⟩)
      · exact .refl
      · refine .worker (.holdPair _ found ?_)
        intro after same
        cases same
        exact ⟨held, leased, rfl⟩
  | commitPairGate lease state summary now =>
      exact (commitPairGate_steps sound.coupled).mono fun _ _ => .inl
  | planDispatch lease now =>
      refine planDispatch_commits.mono ?_
      rintro answer db' (⟨_, rfl, _⟩ | ⟨pair, found, valid, _, ⟨rfl, _⟩ | ⟨new, rfl⟩⟩)
      · exact .refl
      · exact .refl
      · obtain ⟨epoch, _, _, active, free⟩ := PairLease.valid_iff.mp valid
        rw [← epoch] at new ⊢
        exact .worker (.plan now found active free new)
  | beginDispatchAttempt lease now =>
      refine (beginDispatchAttempt_commits sound.oneDispatch).mono ?_
      rintro answer db' (⟨_, rfl⟩ | ⟨_, k, row, _, _, there, _, planned, _, rfl⟩)
      · exact .refl
      · exact .worker (.attempt there planned)
  | adoptDispatch lease commentId dispatchedAt evidenceTimeoutSeconds =>
      exact (adoptDispatch_steps sound).mono fun _ _ => .inl
  | beginRepositorySnapshot repository =>
      refine .bind ((advance_applied none sound.coupled).mono ?_)
      rintro generation db' ⟨applied, _⟩
      exact .pure (.inr applied)
  | reconcileOpenPullRequests token pulls now =>
      exact (reconcileOpenPullRequests_applied none sound.coupled).mono fun _ _ => .inr

end

end Stratadiff.Governor
