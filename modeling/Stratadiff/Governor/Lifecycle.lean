import Stratadiff.Governor.Runs
import Stratadiff.Governor.Schedule

/-!
# Epochs of pull requests

Over a run, a pair keeps its epoch or gets one that is later than every epoch that its
pull request had.
-/

namespace Stratadiff.Governor

open Transaction

variable {db db' db'' : Database} {listed : Option Nat}

/-- A pair of `db'` has the epoch it had, or one later than those of its pull request. -/
def EpochsRise (db db' : Database) : Prop :=
  ∀ (p : PairId) (pair' : Pair), db'.pairs[p]? = some pair' →
    (∃ pair, db.pairs[p]? = some pair ∧ pair.epoch = pair'.epoch) ∨
      ∀ (q : PairId) (pair : Pair), db.pairs[q]? = some pair → pair.samePull pair' →
        pair.epoch < pair'.epoch

namespace EpochsRise

theorem refl (db : Database) : EpochsRise db db :=
  fun _ pair found => .inl ⟨pair, found, rfl⟩

theorem trans (grows : Grows db db') (grows' : Grows db' db'') (first : EpochsRise db db')
    (second : EpochsRise db' db'') : EpochsRise db db'' := by
  intro p pair'' found''
  rcases second p pair'' found'' with ⟨pair', found', epoch⟩ | later
  · obtain ⟨_, there, pairGrows⟩ := grows'.pairs.after found'
    cases found''.symm.trans there
    rcases first p pair' found' with ⟨pair, found, epoch'⟩ | later
    · exact .inl ⟨pair, found, epoch'.trans epoch⟩
    · right
      intro q pair found same
      rw [← epoch]
      refine later q pair found ⟨same.1.trans pairGrows.repository, same.2.trans pairGrows.number⟩
  · right
    intro q pair found same
    obtain ⟨pair', found', pairGrows⟩ := grows.pairs.after found
    refine pairGrows.epoch.trans_lt (later q pair' found' ?_)
    exact ⟨pairGrows.repository.trans same.1, pairGrows.number.trans same.2⟩

/-- Changes that leave every pair in its epoch. -/
theorem of_rowwise
    (rows : Table.Rowwise (fun old new : Pair => old.epoch = new.epoch) db.pairs db'.pairs) :
    EpochsRise db db' := by
  intro p pair' found'
  obtain ⟨pair, found, epoch⟩ := rows.before found'
  exact .inl ⟨pair, found, epoch⟩

theorem of_change (change : Change listed db db') : EpochsRise db db' := by
  have still : Table.Rowwise (fun old new : Pair => old.epoch = new.epoch) db.pairs db.pairs :=
    .refl fun _ => rfl
  rcases change with change | change
  · cases change with
    | record _ _ _ _ => exact of_rowwise still
    | revoke r gated _ => exact of_rowwise (.put (fun _ => rfl) gated.pairAt rfl)
    | start repository pull epoch fence now startable =>
        intro p pair' found'
        rw [Coupled.started_pairs startable] at found'
        split at found'
        · cases found'
          right
          intro q pair found same
          exact (startable.others q pair found (Coupled.isPull_iff.mpr same)).2.1
        · exact .inl ⟨pair', found', rfl⟩
    | merge _ _ _ => exact of_rowwise still
    | evaluate _ _ => exact of_rowwise still
    | reconcile _ _ _ _ => exact of_rowwise still
    | quarantine _ _ _ _ => exact of_rowwise (.update (fun _ _ => rfl) fun _ => rfl)
  · cases change with
    | leasePair _ found _ _ => exact of_rowwise (.put (fun _ => rfl) found rfl)
    | holdPair _ found _ => exact of_rowwise (.put (fun _ => rfl) found rfl)
    | decide _ _ _ _ _ _ => exact of_rowwise still
    | plan _ _ _ _ _ => exact of_rowwise still
    | attempt _ _ => exact of_rowwise still
    | adopt _ _ _ _ _ => exact of_rowwise still
    | timeout _ _ => exact of_rowwise still
    | leaseGate _ _ => exact of_rowwise still
    | revise _ _ _ _ _ _ => exact of_rowwise still
    | publish _ _ _ => exact of_rowwise still
    | item _ _ _ _ _ _ _ => exact of_rowwise still

end EpochsRise

variable {setup : Setup} {permits : Policy}

theorem EpochsRise.of_run {c c' : Config setup permits} (reachable : Reachable c)
    (run : Relation.ReflTransGen (Machine.Step (M := governor setup permits)) c c') :
    EpochsRise c.state.database c'.state.database := by
  refine (keeps_of_run (P := fun db => Grows c.state.database db ∧ EpochsRise c.state.database db)
    ?_ reachable run ⟨.refl _, .refl _⟩).2
  rintro listed db₁ db₂ _ change ⟨grows, rise⟩
  exact ⟨grows.trans (.of_change change), rise.trans grows (.of_change change) (.of_change change)⟩

/-! ## The coupling -/

/-- The active gates of a pull request. -/
def Gate.activeFor (gate : Gate) (pair : Pair) : Prop :=
  gate.active = true ∧ gate.repositoryId = pair.repositoryId ∧
    gate.isPullRequest pair.pullNumber = true

/-- An active gate of a pull request is bound to the active pair. -/
theorem Coupled.activeFor_bound (coupled : Coupled db) {p : PairId} {pair : Pair} {g : GateId}
    {gate : Gate} (found : db.pairs[p]? = some pair) (active : pair.active = true)
    (gateAt : db.gates[g]? = some gate) (gateFor : gate.activeFor pair) : gate.pairId = some p := by
  obtain ⟨gateActive, repository, number⟩ := gateFor
  unfold Gate.isPullRequest at number
  split at number
  · next key q subject =>
      have bound : gate.pairId = some q := Gate.pairId_eq_some.mpr ⟨key, subject⟩
      obtain ⟨other, otherAt, fits⟩ := coupled.fits gateAt bound
      have same : q = p := by
        refine coupled.onePair otherAt found (fits.current gateActive).1 active ⟨?_, ?_⟩
        · rw [← fits.repository, repository]
        · have number' := fits.subject
          rw [subject] at number'
          cases number'
          exact eq_of_beq number
      rw [bound, same]
  · cases number

/-- The pairs and gates of every reachable database belong together, epochs go up over
every run, and every transaction of the store succeeds. -/
theorem pairs_gates_coupled {c : Config setup permits} (reachable : Reachable c) :
    (∀ {p q : PairId} {pair other : Pair}, c.state.database.pairs[p]? = some pair →
      c.state.database.pairs[q]? = some other → pair.active = true → other.active = true →
      pair.samePull other → p = q) ∧
    (∀ {p : PairId} {pair : Pair}, c.state.database.pairs[p]? = some pair → pair.active = true →
      ∃ g gate, c.state.database.gates[g]? = some gate ∧ gate.activeFor pair ∧
        gate.pairId = some p ∧ gate.epoch = pair.epoch ∧
        ∀ (h : GateId) (other : Gate), c.state.database.gates[h]? = some other →
          other.activeFor pair → h = g) ∧
    (∀ {g : GateId} {gate : Gate}, c.state.database.gates[g]? = some gate → gate.active = true →
      gate.isMergeGroup = false → ∃ p pair, gate.pairId = some p ∧
        c.state.database.pairs[p]? = some pair ∧ pair.active = true ∧ pair.epoch = gate.epoch) ∧
    (∀ {c' : Config setup permits},
      Relation.ReflTransGen (Machine.Step (M := governor setup permits)) c c' →
      EpochsRise c.state.database c'.state.database) ∧
    (∀ {p q : PairId} {pair other : Pair}, c.state.database.pairs[p]? = some pair →
      c.state.database.pairs[q]? = some other → pair.samePull other →
      pair.epoch = other.epoch → p = q) ∧
    (∀ request, ∃ result db', ingest request c.state.database = .ok (result, db')) ∧
    (∀ request, ∃ result db',
      quarantineUnscopedSignedDelivery request c.state.database = .ok (result, db')) ∧
    ∀ (op : StoreOp) (locked : OutboxId → Bool) (clock : Time),
      ∃ answer db', op.run locked clock c.state.database = .ok (answer, db') := by
  have standing := reachable.logged.standing
  have coupled := standing.sound.coupled
  refine ⟨fun found found' => coupled.onePair found found', ?_, ?_, ?_, coupled.oneEpoch, ?_, ?_,
    ?_⟩
  · intro p pair found active
    obtain ⟨g, gate, gated⟩ := coupled.gated found active
    obtain ⟨_, there, fits⟩ := coupled.fits gated.gateAt gated.bound
    cases found.symm.trans there
    refine ⟨g, gate, gated.gateAt, ⟨gated.gateActive, fits.repository, ?_⟩, gated.bound,
      coupled.epoch_eq gated, ?_⟩
    · simp [Gate.isPullRequest, fits.subject]
    · intro h other otherAt otherFor
      exact coupled.gate_unique gated otherAt
        (coupled.activeFor_bound found active otherAt otherFor) otherFor.1
  · intro g gate gateAt active pull
    have bound : gate.pairId ≠ none := by
      intro none
      rw [Gate.isMergeGroup_iff.mpr none] at pull
      cases pull
    obtain ⟨p, bound⟩ := Option.ne_none_iff_exists'.mp bound
    obtain ⟨pair, gated⟩ := coupled.gated_of_gate gateAt active bound
    exact ⟨p, pair, bound, gated.pairAt, gated.pairActive, (coupled.epoch_eq gated).symm⟩
  · intro c' run
    exact .of_run reachable run
  · intro request
    have commits : Commits (ingest request) _ _ := ingest_ingested coupled standing.settled
    obtain ⟨result, db', run, _⟩ := commits
    exact ⟨result, db', run⟩
  · intro request
    have commits : Commits (quarantineUnscopedSignedDelivery request) _ _ :=
      quarantineUnscoped_ingested coupled standing.settled
    obtain ⟨result, db', run, _⟩ := commits
    exact ⟨result, db', run⟩
  · intro op locked clock
    have commits : Commits (op.run locked clock) _ _ := run_ran standing.sound
    obtain ⟨answer, db', run, _⟩ := commits
    exact ⟨answer, db', run⟩

/-- In the sample run the pull request's pair is active and has its gate. -/
theorem pairs_gates_coupled_sample : ∃ (c : Config Sample.setup .any) (pair : Pair) (g : GateId)
    (gate : Gate), Reachable c ∧ c.state.database.pairs[0]? = some pair ∧ pair.active = true ∧
      c.state.database.gates[g]? = some gate ∧ gate.pairId = some 0 ∧ gate.epoch = pair.epoch := by
  have run : ∃ c : Config Sample.setup .any, Reachable c ∧
      (c.state.database.pairs[0]?).any (·.active) = true :=
    reachable_of_exec Sample.opened _ (by decide +kernel)
  obtain ⟨c, reachable, check⟩ := run
  obtain ⟨pair, found, active⟩ := (Option.any_eq_true _ _).mp check
  obtain ⟨g, gate, gateAt, _, bound, epoch, _⟩ := (pairs_gates_coupled reachable).2.1 found active
  exact ⟨c, pair, g, gate, reachable, found, active, gateAt, bound, epoch⟩

end Stratadiff.Governor
