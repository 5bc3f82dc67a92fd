import Stratadiff.Governor.Lifecycle
import Stratadiff.Governor.Schedule

/-!
# Leases and decisions

A pair is leased by one kind of call and a gate becomes a success by another. Everything
else is quiet: it grants no lease and decides no success, and an event that is about a
pair ends both. So a decision that was committed under a lease was made from what the
store had when it was committed.
-/

namespace Stratadiff.Governor

open Transaction

variable {db db' db'' : Database} {listed : Option Nat} {p : PairId}

/-- No pair is newly leased and no gate newly a success. -/
structure Quiet (db db' : Database) : Prop where
  leases : ∀ {p : PairId} {pair' : Pair}, db'.pairs[p]? = some pair' → pair'.lease ≠ none →
    ∃ pair, db.pairs[p]? = some pair ∧ pair.fence = pair'.fence
  successes : ∀ {g : GateId} {gate' : Gate}, db'.gates[g]? = some gate' →
    gate'.desiredState = .success → ∃ gate, db.gates[g]? = some gate ∧
      gate.desiredState = .success

namespace Quiet

theorem trans (first : Quiet db db') (second : Quiet db' db'') (grows : Grows db' db'') :
    Quiet db db'' where
  leases := by
    intro p pair'' found leased
    obtain ⟨pair', found', fence⟩ := second.leases found leased
    obtain ⟨_, there, pairGrows⟩ := grows.pairs.after found'
    cases found.symm.trans there
    obtain ⟨lease, here⟩ := Option.ne_none_iff_exists'.mp leased
    obtain ⟨before, held, _⟩ := pairGrows.held fence.symm lease here
    obtain ⟨pair, found'', fence'⟩ := first.leases found' (by simp [held])
    exact ⟨pair, found'', fence'.trans fence⟩
  successes := by
    intro g gate'' found success
    obtain ⟨gate', found', success'⟩ := second.successes found success
    exact first.successes found' success'

/-- Changes in place. -/
theorem of_rowwise (pairs : Table.Rowwise (fun old new : Pair =>
      new.lease ≠ none → old.fence = new.fence) db.pairs db'.pairs)
    (gates : Table.Rowwise (fun old new : Gate => new.desiredState = .success →
      old.desiredState = .success) db.gates db'.gates) : Quiet db db' where
  leases := by
    intro p pair' found leased
    obtain ⟨pair, found', fence⟩ := pairs.before found
    exact ⟨pair, found', fence leased⟩
  successes := by
    intro g gate' found success
    obtain ⟨gate, found', before⟩ := gates.before found
    exact ⟨gate, found', before success⟩

theorem samePairs : Table.Rowwise (fun old new : Pair =>
    new.lease ≠ none → old.fence = new.fence) db.pairs db.pairs := .refl fun _ _ => rfl

theorem sameGates : Table.Rowwise (fun old new : Gate => new.desiredState = .success →
    old.desiredState = .success) db.gates db.gates := .refl fun _ => id

theorem refl (db : Database) : Quiet db db := of_rowwise samePairs sameGates

theorem of_event (change : EventChange listed db db') : Quiet db db' := by
  cases change with
  | record _ _ _ _ => exact of_rowwise samePairs sameGates
  | revoke r gated fits =>
      refine of_rowwise (.put (fun _ _ => rfl) gated.pairAt ?_)
        (.put (fun _ => id) gated.gateAt ?_)
      · intro leased
        exact absurd rfl leased
      · intro success
        exact absurd success (GateState.ne_success fits.decided)
  | start repository pull epoch fence now startable =>
      constructor
      · intro q pair' found leased
        rw [Coupled.started_pairs startable] at found
        split at found
        · cases found
          exact absurd rfl leased
        · exact ⟨pair', found, rfl⟩
      · intro g gate' found success
        rw [Coupled.started_gates] at found
        split at found
        · cases found
          simp only [newPairGate] at success
          split at success <;> cases success
        · exact ⟨gate', found, success⟩
  | merge gate now merge =>
      refine ⟨fun found _ => ⟨_, found, rfl⟩, ?_⟩
      intro g gate' found success
      rw [Table.getElem?_put merge.place] at found
      split at found
      · cases found
        exact absurd success merge.state
      · exact ⟨gate', found, success⟩
  | evaluate _ _ => exact of_rowwise samePairs sameGates
  | reconcile _ _ _ _ => exact of_rowwise samePairs sameGates
  | quarantine deliveryId order now _ =>
      refine of_rowwise (.update ?_ fun _ _ => rfl) (.update ?_ fun _ => id)
      · intro pair _ leased
        exact absurd rfl leased
      · intro gate _ success
        cases success

theorem of_events (steps : EventSteps listed db db') : Quiet db db' := by
  induction steps with
  | refl => exact refl db
  | tail _ change ih => exact ih.trans (of_event change) (.of_event change)

theorem of_ingested {deliveryId : String} {addresses : Pair → Prop} {result : IngestResult}
    {now : Time} (ingested : Ingested db deliveryId addresses result now db') : Quiet db db' :=
  ingested.preserves of_events fun quiet change => quiet.trans (of_event change) (.of_event change)

theorem of_gate {g : GateId} {gate gate' : Gate} {outbox : List OutboxItem}
    (found : db.gates[g]? = some gate)
    (state : gate'.desiredState = .success → gate.desiredState = .success) :
    Quiet db { db with gates := Table.put db.gates g gate', outbox } :=
  of_rowwise samePairs (.put (fun _ => id) found state)

end Quiet

/-- The calls that lease a pair or decide its gate. -/
def StoreOp.decides : StoreOp → Prop
  | .acquirePairLease .. => True
  | .commitPairGate .. => True
  | _ => False

theorem run_quiet {locked : OutboxId → Bool} {clock : Time} {op : StoreOp} (sound : Sound db)
    (other : ¬ op.decides) : Commits (op.run locked clock) db fun _ db' => Quiet db db' := by
  cases op with
  | acquirePairLease _ _ _ _ _ => exact absurd trivial other
  | commitPairGate _ _ _ _ => exact absurd trivial other
  | claimOutbox w now leaseSeconds =>
      refine claimOutbox_commits.mono ?_
      rintro answer db' (⟨_, rfl⟩ | ⟨id, item, _, _, _, rfl⟩)
      · exact .refl _
      · exact .of_rowwise Quiet.samePairs Quiet.sameGates
  | completeOutbox lease now =>
      refine completeOutbox_commits.mono ?_
      rintro answer db' (⟨_, rfl⟩ | ⟨item, _, _, _, rfl⟩)
      · exact .refl _
      · exact .of_rowwise Quiet.samePairs Quiet.sameGates
  | failOutbox lease now retrySeconds =>
      refine failOutbox_commits.mono ?_
      rintro answer db' (⟨_, rfl⟩ | ⟨item, _, _, _, rfl⟩)
      · exact .refl _
      · exact .of_rowwise Quiet.samePairs Quiet.sameGates
  | acquireGateLease g epoch revision w now leaseSeconds =>
      refine acquireGateLease_commits.mono ?_
      rintro answer db' (⟨_, rfl⟩ | ⟨gate, found, _, _, _, _, rfl⟩)
      · exact .refl _
      · exact .of_gate found id
  | authorizeSuccessPublication lease observedCheckRunId now =>
      refine (authorizeSuccessPublication_commits sound).mono ?_
      rintro answer db' (⟨_, rfl, _⟩ | ⟨_, _, _, _, _, rfl⟩ | ⟨gate, p, found, _, _, _, _, _, rfl⟩)
      · exact .refl _
      · exact .refl _
      · exact .of_gate found nofun
  | getGateSubject g => exact .of_eq rfl (.refl _)
  | rejectGatePublication lease summary observedCheckRunId now =>
      refine rejectGatePublication_commits.mono ?_
      rintro answer db' (⟨_, rfl, _⟩ | ⟨gate, found, _, _, rfl⟩)
      · exact .refl _
      · exact .of_gate found nofun
  | supersedeStaleGatePublication g epoch staleRevision observedCheckRunId now =>
      refine supersedeStaleGatePublication_commits.mono ?_
      rintro answer db' (⟨_, rfl, _⟩ | ⟨gate, found, _, _, _, rfl⟩)
      · exact .refl _
      · exact .of_gate found id
  | commitGatePublication lease checkRunId publishedState now =>
      refine commitGatePublication_commits.mono ?_
      rintro answer db' (⟨_, rfl⟩ | ⟨gate, found, _, _, rfl⟩)
      · exact .refl _
      · exact .of_gate found id
  | readPair p epoch => exact .of_eq rfl (.refl _)
  | readDispatch p epoch => exact .of_eq rfl (.refl _)
  | readEvidence p epoch => exact .of_eq rfl (.refl _)
  | renewPairLease lease now leaseSeconds =>
      refine renewPairLease_commits.mono ?_
      rintro answer db' (⟨_, rfl⟩ | ⟨pair, held, found, _, leased, _, rfl⟩)
      · exact .refl _
      · exact .of_rowwise (.put (fun _ _ => rfl) found fun _ => rfl) Quiet.sameGates
  | planDispatch lease now =>
      refine planDispatch_commits.mono ?_
      rintro answer db' (⟨_, rfl, _⟩ | ⟨pair, found, valid, _, ⟨rfl, _⟩ | ⟨new, rfl⟩⟩)
      · exact .refl _
      · exact .refl _
      · exact .of_rowwise Quiet.samePairs Quiet.sameGates
  | beginDispatchAttempt lease now =>
      refine (beginDispatchAttempt_commits sound.oneDispatch).mono ?_
      rintro answer db' (⟨_, rfl⟩ | ⟨_, k, row, _, _, there, _, planned, _, rfl⟩)
      · exact .refl _
      · exact .of_rowwise Quiet.samePairs Quiet.sameGates
  | adoptDispatch lease commentId dispatchedAt evidenceTimeoutSeconds =>
      refine (adoptDispatch_commits sound.coupled sound.oneDispatch).mono ?_
      rintro answer db' (⟨_, rfl⟩ | ⟨pair, k, row, g, gate, gated, _, _, _, _, _, _, rfl⟩)
      · exact .refl _
      · refine .of_rowwise (.put (fun _ _ => rfl) gated.pairAt fun _ => ?_) Quiet.sameGates
        rw [Pair.released_eq]
  | beginRepositorySnapshot repository =>
      refine .bind ((advance_applied none sound.coupled).mono ?_)
      rintro generation db' ⟨applied, _⟩
      exact .pure (.of_events applied.steps)
  | reconcileOpenPullRequests token pulls now =>
      exact (reconcileOpenPullRequests_applied none sound.coupled).mono fun _ _ applied =>
        .of_events applied.steps

/-! ## Events about a pair -/

/-- What the store records of a pair besides its leases. -/
def Pair.recorded (pair : Pair) : Pair := { pair with fence := 0, lease := none }

/-- An event about a pair was applied: a delivery that addresses it, one that collides with
an earlier delivery, a quarantine, or a listing that changed what is recorded of it. -/
def Entry.Affects (entry : Entry) (p : PairId) : Prop :=
  match entry.event with
  | .ingested request result =>
      result.duplicate = false ∧ result.disposition = .applied ∧
        ∃ pair, entry.before.pairs[p]? = some pair ∧
          (Delivered entry.before request.deliveryId ∨ request.impact.addresses pair)
  | .quarantined _ result => result.duplicate = false ∧ result.disposition = .applied
  | .called _ (.reconcileOpenPullRequests ..) _ _ =>
      (entry.after.pairs[p]?).map Pair.recorded ≠ (entry.before.pairs[p]?).map Pair.recorded
  | _ => False

/-- An event leaves a pair's row alone or ends its leases and its success. -/
theorem EventSteps.row_or_cleared (coupled : Coupled db) (steps : EventSteps listed db db') :
    db'.pairs[p]? = db.pairs[p]? ∨ Cleared db' p := by
  induction steps with
  | refl => exact .inl rfl
  | @tail db₁ db₂ before change ih =>
      rcases ih with same | cleared
      · have coupled₁ := coupled.of_steps (EventSteps.steps before)
        rw [← same]
        cases change with
        | record _ _ _ _ => exact .inl rfl
        | @revoke q pair g gate r gated fits =>
            by_cases here : q = p
            · subst here
              exact .inr (.of_revocation gated fits (.inl ⟨rfl, coupled₁.onlyGate gated⟩))
            · left
              rw [Revocation.apply, Table.getElem?_put (Table.lt_length gated.pairAt).le,
                if_neg (Ne.symm here)]
        | @start q repository pull epoch fence now startable =>
            by_cases here : q = p
            · subst here
              right
              constructor
              · intro pair found
                rw [Coupled.started_pairs startable, if_pos rfl] at found
                cases found
                rfl
              · intro g gate found bound active
                rw [Coupled.started_gates] at found
                split at found
                · cases found
                  simp only [newPairGate]
                  split <;> decide
                · -- The pair that starts again has no active gate.
                  obtain ⟨pair, gated⟩ := coupled₁.gated_of_gate found active bound
                  obtain ⟨isPull, _⟩ := startable.replaced pair gated.pairAt
                  have ended := (startable.others q pair gated.pairAt isPull).1
                  rw [gated.pairActive] at ended
                  cases ended
            · left
              rw [Coupled.started_pairs startable, if_neg (Ne.symm here)]
        | merge _ _ _ => exact .inl rfl
        | evaluate _ _ => exact .inl rfl
        | reconcile _ _ _ _ => exact .inl rfl
        | quarantine deliveryId order now _ =>
            cases found : db₁.pairs[p]? with
            | none =>
                left
                rw [quarantinedAll, Table.getElem?_update, found]
                rfl
            | some pair =>
                by_cases active : pair.active = true
                · right
                  constructor
                  · intro pair' found'
                    rw [quarantinedAll, Table.getElem?_update, found, Option.map_some,
                      if_pos active] at found'
                    cases found'
                    rfl
                  · intro g gate found' bound gateActive
                    rw [quarantinedAll, Table.getElem?_update] at found'
                    obtain ⟨gate₀, _, rfl⟩ := Option.map_eq_some_iff.mp found'
                    split
                    · exact GateState.ne_success (.inr rfl)
                    · next inactive =>
                        rw [if_neg inactive] at gateActive
                        exact absurd gateActive inactive
                · left
                  rw [quarantinedAll, Table.getElem?_update, found, Option.map_some,
                    if_neg active]
      · exact .inr (cleared.of_event change)

/-- An event about a pair that is active and not quarantined ends its leases and its
success. -/
theorem Entry.Affects.cleared {entry : Entry} {pair : Pair} (affects : entry.Affects p)
    (standing : Standing entry.before) (holds : entry.Holds)
    (found : entry.before.pairs[p]? = some pair) (active : pair.active = true)
    (free : pair.quarantine = none) : Cleared entry.after p := by
  obtain ⟨event, before, after⟩ := entry
  obtain ⟨sound, settled⟩ := standing
  cases event with
  | ingested request result =>
      obtain ⟨new, applied, _, there, about⟩ := affects
      cases found.symm.trans there
      exact ((ingest_ingested sound.coupled settled).of_ok holds).cleared new applied found active
        free about
  | quarantined request result =>
      exact ((quarantineUnscoped_ingested sound.coupled settled).of_ok holds).cleared affects.1
        affects.2 found active free (.inr trivial)
  | called w op answer received =>
      cases op with
      | reconcileOpenPullRequests token pulls now =>
          obtain ⟨locked, clock, run⟩ := holds
          have applied := (reconcileOpenPullRequests_applied none sound.coupled).of_ok run
          refine (applied.steps.row_or_cleared sound.coupled).resolve_left ?_
          intro same
          exact affects (congrArg _ same)
      | _ => exact affects.elim
  | ticked _ => exact affects.elim
  | refused _ _ => exact affects.elim
  | asked _ _ _ _ => exact affects.elim
  | unreached _ _ => exact affects.elim
  | stopped _ => exact affects.elim

/-! ## Leases in the log -/

/-- The entry granted a lease of a pair under a fence. -/
def Entry.Grants (entry : Entry) (p : PairId) (epoch fence : Nat) (owner : WorkerId) : Prop :=
  ∃ w now leaseSeconds granted received, entry.event = .called w
    (.acquirePairLease p epoch owner now leaseSeconds) (some granted) received ∧
      granted.fence = fence

theorem Entry.quiet {entry : Entry} (standing : Standing entry.before) (holds : entry.Holds)
    (other : ∀ w op answer received, entry.event = .called w op answer received → ¬ op.decides) :
    Quiet entry.before entry.after := by
  obtain ⟨event, before, after⟩ := entry
  obtain ⟨sound, settled⟩ := standing
  have same : after = before → Quiet before after := by
    rintro rfl
    exact .refl after
  cases event with
  | ingested request result =>
      exact .of_ingested ((ingest_ingested sound.coupled settled).of_ok holds)
  | quarantined request result =>
      exact .of_ingested ((quarantineUnscoped_ingested sound.coupled settled).of_ok holds)
  | called w op answer received =>
      obtain ⟨locked, clock, run⟩ := holds
      exact (run_quiet sound (other w op answer received rfl)).of_ok run
  | ticked _ => exact same holds
  | refused _ _ => exact same holds
  | asked _ _ _ _ => exact same holds
  | unreached _ _ => exact same holds
  | stopped _ => exact same holds

/-- A lease that an entry left was granted by the entry, or was there before it. -/
theorem Entry.leased {entry : Entry} {pair : Pair} {held : Lease}
    (standing : Standing entry.before) (holds : entry.Holds)
    (found : entry.after.pairs[p]? = some pair) (leased : pair.lease = some held) :
    entry.Grants p pair.epoch pair.fence held.owner ∨
      ∃ before, entry.before.pairs[p]? = some before ∧ before.fence = pair.fence := by
  have kept : Quiet entry.before entry.after → _ := fun quiet =>
    quiet.leases found (by simp [leased])
  by_cases other : ∀ w op answer received, entry.event = .called w op answer received → ¬ op.decides
  · exact .inr (kept (entry.quiet standing holds other))
  · push Not at other
    obtain ⟨w, op, answer, received, event, decides⟩ := other
    obtain ⟨_, before, after⟩ := entry
    dsimp only at event
    subst event
    obtain ⟨locked, clock, run⟩ := holds
    dsimp only at run found standing ⊢
    cases op with
    | acquirePairLease q epoch owner now leaseSeconds =>
        rcases acquirePairLease_commits.of_ok run with ⟨_, rfl⟩ |
          ⟨old, there, same, _, _, rfl, rfl⟩
        · exact .inr ⟨pair, found, rfl⟩
        · rw [Table.getElem?_put (Table.lt_length there).le] at found
          split at found
          · next here =>
              subst here
              cases found
              cases leased
              left
              rw [same]
              exact ⟨w, now, leaseSeconds, _, received, rfl, rfl⟩
          · exact .inr ⟨pair, found, rfl⟩
    | commitPairGate lease state summary now =>
        rcases (commitPairGate_commits standing.sound.coupled).of_ok run with ⟨_, rfl, _⟩ |
          ⟨old, g, gate, _, gated, _, _, _, rfl⟩
        · exact .inr ⟨pair, found, rfl⟩
        · rw [Table.getElem?_put (Table.lt_length gated.pairAt).le] at found
          split at found
          · cases found
            cases leased
          · exact .inr ⟨pair, found, rfl⟩
    | _ => exact decides.elim

/-- The entry of the log that granted the lease a pair is under. -/
theorem Logged.granted {log : List Entry} {pair : Pair} {held : Lease} (logged : Logged log db)
    (found : db.pairs[p]? = some pair) (leased : pair.lease = some held) :
    ∃ newer entry older, log = newer ++ entry :: older ∧
      entry.Grants p pair.epoch pair.fence held.owner := by
  induction logged generalizing pair held with
  | nil => simp [Database.empty] at found
  | @cons log entry before holds ih =>
      rcases Entry.leased before.standing holds found leased with grants | ⟨old, there, fence⟩
      · exact ⟨[], entry, log, rfl, grants⟩
      · obtain ⟨_, found', grows⟩ := (holds.ran before.standing).2.pairs.after there
        cases found.symm.trans found'
        obtain ⟨earlier, heldBefore, owner, same⟩ := grows.held fence.symm held leased
        obtain ⟨newer, granting, older, rfl, grants⟩ := ih there heldBefore
        have epoch : pair.epoch = old.epoch := by rw [same]
        rw [owner, fence, ← epoch] at grants
        exact ⟨entry :: newer, granting, older, rfl, grants⟩

theorem Entry.Grants.after {entry : Entry} {epoch fence : Nat} {owner : WorkerId}
    (grants : entry.Grants p epoch fence owner) (holds : entry.Holds) :
    ∃ pair, entry.after.pairs[p]? = some pair ∧ pair.fence = fence := by
  obtain ⟨w, now, leaseSeconds, granted, received, event, rfl⟩ := grants
  obtain ⟨_, before, after⟩ := entry
  dsimp only at event
  subst event
  obtain ⟨locked, clock, run⟩ := holds
  dsimp only at run ⊢
  rcases acquirePairLease_commits.of_ok run with ⟨none, _⟩ | ⟨old, there, _, _, _, some, rfl⟩
  · cases none
  · cases some
    exact ⟨_, Table.put_here there, rfl⟩

/-- A pair that is still under the fence of a grant was so all the time. -/
theorem held_between {pair₁ pair₃ : Pair} {db₁ db₂ db₃ : Database} (first : Grows db₁ db₂)
    (second : Grows db₂ db₃) (found₁ : db₁.pairs[p]? = some pair₁)
    (found₃ : db₃.pairs[p]? = some pair₃) (fence : pair₃.fence = pair₁.fence)
    (leased : pair₃.lease ≠ none) :
    ∃ pair₂, db₂.pairs[p]? = some pair₂ ∧ pair₂.lease ≠ none ∧
      pair₃ = { pair₂ with lease := pair₃.lease } ∧
      evidenceOf db₃.evidence p pair₃.epoch = evidenceOf db₂.evidence p pair₃.epoch := by
  obtain ⟨pair₂, found₂, grows⟩ := first.pairs.after found₁
  obtain ⟨_, there, grows'⟩ := second.pairs.after found₂
  cases found₃.symm.trans there
  have low := grows.fence
  have high := grows'.fence
  have same : pair₃.fence = pair₂.fence := by omega
  obtain ⟨lease, held⟩ := Option.ne_none_iff_exists'.mp leased
  obtain ⟨before, heldBefore, _, equal⟩ := grows'.held same lease held
  have evidence := second.evidence found₂ found₃ same leased
  have epoch : pair₃.epoch = pair₂.epoch := by rw [equal]
  rw [← epoch] at evidence
  rw [← held] at equal
  exact ⟨pair₂, found₂, by simp [heldBefore], equal, evidence⟩

/-! ## Evaluations -/

/-- A reading of a pair and its evidence that agrees with a database: it makes the same
snapshot. -/
def Entry.Agrees (entry : Entry) (p : PairId) (epoch : Nat) (pair : Pair) (db : Database) : Prop :=
  match entry.event with
  | .called _ (.readPair q e) answer _ => q = p → e = epoch → ∃ seen, answer = some seen ∧
      ∀ dispatch evidence, snapshotOf p seen dispatch evidence = snapshotOf p pair dispatch evidence
  | .called _ (.readEvidence q e) answer _ => q = p → e = epoch → answer = db.evidenceAt p epoch
  | _ => True

theorem Entry.agrees {entry : Entry} {pair seen : Pair} {epoch : Nat} (holds : entry.Holds)
    (found : entry.before.pairs[p]? = some seen) (same : pair = { seen with lease := pair.lease })
    (current : pair.epoch = epoch)
    (evidence : evidenceOf db.evidence p epoch = evidenceOf entry.before.evidence p epoch) :
    entry.Agrees p epoch pair db := by
  obtain ⟨event, before, after⟩ := entry
  cases event with
  | called w op answer received =>
      obtain ⟨locked, clock, run⟩ := holds
      cases op with
      | readPair q e =>
          rintro rfl rfl
          dsimp only at run found
          obtain ⟨rfl, rfl⟩ := Prod.mk.inj (Except.ok.inj run)
          have seenEpoch : seen.epoch = pair.epoch := by rw [same]
          refine ⟨seen, ?_, ?_⟩
          · simp only [Database.pairAt]
            rw [found]
            simp [Option.filter, seenEpoch, current]
          · intro dispatch rows
            rw [same]
            rfl
      | readEvidence q e =>
          rintro rfl rfl
          dsimp only at run found
          obtain ⟨rfl, rfl⟩ := Prod.mk.inj (Except.ok.inj run)
          change (evidenceOf before.evidence q e).insertionSort _ = _
          rw [← evidence]
          rfl
      | _ => trivial
  | _ => trivial

section

variable {middle older : List Entry} {granting : Entry} {epoch fence : Nat} {owner : WorkerId}
variable {pair : Pair}

/-- While a pair stays under the fence of a grant, what is read of it is what it is. -/
theorem Logged.agreeing (logged : Logged (middle ++ granting :: older) db)
    (grants : granting.Grants p epoch fence owner) (found : db.pairs[p]? = some pair)
    (current : pair.epoch = epoch) (under : pair.fence = fence) (leased : pair.lease ≠ none) :
    ∀ entry ∈ middle, entry.Agrees p epoch pair db := by
  intro entry member
  obtain ⟨first, foundFirst, fenceFirst⟩ := grants.after logged.entry.2
  have between := logged.between member
  have grows := (between.holds.ran between.standing).2.trans between.since
  obtain ⟨seen, foundSeen, _, same, evidence⟩ := held_between between.before grows foundFirst
    found (under.trans fenceFirst.symm) leased
  rw [current] at evidence
  exact Entry.agrees between.holds foundSeen same current evidence

/-- While a pair stays under the fence of a grant, no event about it is applied. -/
theorem Logged.unaffected (logged : Logged (middle ++ granting :: older) db)
    (grants : granting.Grants p epoch fence owner) (found : db.pairs[p]? = some pair)
    (under : pair.fence = fence) (leased : pair.lease ≠ none) (active : pair.active = true)
    (free : pair.quarantine = none) : ∀ entry ∈ middle, ¬ entry.Affects p := by
  intro entry member affects
  obtain ⟨first, foundFirst, fenceFirst⟩ := grants.after logged.entry.2
  have between := logged.between member
  have grows := (between.holds.ran between.standing).2
  have still := under.trans fenceFirst.symm
  obtain ⟨seen, foundSeen, _, same, _⟩ := held_between between.before
    (grows.trans between.since) foundFirst found still leased
  obtain ⟨after, foundAfter, leasedAfter, _, _⟩ := held_between (between.before.trans grows)
    between.since foundFirst found still leased
  have cleared := affects.cleared between.standing between.holds foundSeen
    (by rw [same] at active; exact active) (by rw [same] at free; exact free)
  exact leasedAfter (cleared.lease foundAfter)

end

/-- A commit that succeeds finds the pair under the lease. -/
theorem committed_valid {lease : PairLease} {state : GateState} {summary : String}
    {now clock : Time} (coupled : Coupled db)
    (run : commitPairGate lease state summary now clock db = .ok (true, db')) :
    ∃ pair held, db.pairs[lease.pairId]? = some pair ∧ pair.epoch = lease.epoch ∧
      pair.fence = lease.fence ∧ pair.lease = some held ∧ held.owner = lease.workerId ∧
      pair.active = true ∧ pair.quarantine = none := by
  rcases (commitPairGate_commits coupled).of_ok run with ⟨no, _, _⟩ |
    ⟨pair, g, gate, _, gated, valid, _⟩
  · cases no
  · obtain ⟨epoch, fence, ⟨held, leased, owner, _⟩, active, free⟩ := PairLease.valid_iff.mp valid
    exact ⟨pair, held, gated.pairAt, epoch, fence, leased, owner, active, free⟩

/-- The grant of the lease under which a commit succeeds. -/
theorem Logged.granted_commit {log : List Entry} {lease : PairLease} {state : GateState}
    {summary : String} {now clock : Time} (logged : Logged log db)
    (run : commitPairGate lease state summary now clock db = .ok (true, db')) :
    ∃ middle granting older, log = middle ++ granting :: older ∧
      granting.Grants lease.pairId lease.epoch lease.fence lease.workerId := by
  obtain ⟨pair, held, found, epoch, fence, leased, owner, _, _⟩ :=
    committed_valid logged.standing.sound.coupled run
  rw [← epoch, ← fence, ← owner]
  obtain ⟨middle, granting, older, split, grants⟩ := logged.granted found leased
  exact ⟨middle, granting, older, split, grants⟩

variable {setup : Setup} {permits : Policy} {c : Config setup permits}

/-- Evaluations are fenced: a decision that commits was read, under the lease of its commit,
from what the store has at the commit, and with an event about the pair in between it does
not commit. -/
theorem evaluation_fenced {newer earlier : List Entry} {commit : Entry} {w : WorkerId}
    {lease : PairLease} {state : GateState} {summary : String} {now : Time} {committed : Bool}
    {received : Bool} (reachable : Reachable c)
    (log : c.state.log = newer ++ commit :: earlier)
    (event : commit.event = .called w (.commitPairGate lease state summary now) committed
      received) :
    (committed = true → ∃ middle granting older, earlier = middle ++ granting :: older ∧
      granting.Grants lease.pairId lease.epoch lease.fence lease.workerId) ∧
    ∀ middle granting older, earlier = middle ++ granting :: older →
      granting.Grants lease.pairId lease.epoch lease.fence lease.workerId →
      (committed = true → ∃ pair, commit.before.pairs[lease.pairId]? = some pair ∧
        pair.epoch = lease.epoch ∧
        ∀ entry ∈ middle, entry.Agrees lease.pairId lease.epoch pair commit.before) ∧
      ((∃ entry ∈ middle, entry.Affects lease.pairId) → committed = false) := by
  have logged := reachable.logged
  rw [log] at logged
  obtain ⟨before, holds⟩ := logged.entry
  obtain ⟨_, db, db'⟩ := commit
  dsimp only at event before ⊢
  subst event
  obtain ⟨locked, clock, run⟩ := holds
  have coupled := before.standing.sound.coupled
  constructor
  · rintro rfl
    exact before.granted_commit run
  · rintro middle granting older rfl grants
    constructor
    · rintro rfl
      obtain ⟨pair, held, found, epoch, fence, leased, _, _, _⟩ := committed_valid coupled run
      exact ⟨pair, found, epoch, before.agreeing grants found epoch fence (by simp [leased])⟩
    · rintro ⟨entry, member, affects⟩
      cases committed with
      | false => rfl
      | true =>
          obtain ⟨pair, held, found, _, fence, leased, _, active, free⟩ :=
            committed_valid coupled run
          exact absurd affects (before.unaffected grants found fence (by simp [leased]) active free
            entry member)

/-- In the sample run a success commits, and it was decided under the lease of its commit. -/
theorem evaluation_fenced_sample : ∃ (c : Config Sample.setup .any) (earlier : List Entry)
    (commit : Entry) (w : WorkerId) (lease : PairLease) (state : GateState) (summary : String)
    (now : Time) (received : Bool), Reachable c ∧ c.state.log = commit :: earlier ∧
      commit.event = .called w (.commitPairGate lease state summary now) true received ∧
      ∃ middle granting older, earlier = middle ++ granting :: older ∧
        granting.Grants lease.pairId lease.epoch lease.fence lease.workerId := by
  have run : ∃ c : Config Sample.setup .any, Reachable c ∧
      c.state.log.head?.any (·.event.isCommit) = true :=
    reachable_of_exec Sample.succeeded _ (by decide +kernel)
  obtain ⟨c, reachable, check⟩ := run
  obtain ⟨earlier, commit, log, commits⟩ := head_of_any check
  obtain ⟨w, lease, state, summary, now, received, event⟩ := Event.isCommit_iff.mp commits
  exact ⟨c, earlier, commit, w, lease, state, summary, now, received, reachable, log, event,
    (evaluation_fenced reachable (log.trans (List.nil_append _).symm) event).1 rfl⟩

/-! ## Successes -/

/-- The entry stored a success under a lease. -/
def Entry.Succeeds (entry : Entry) (lease : PairLease) : Prop :=
  ∃ w summary now received, entry.event =
    .called w (.commitPairGate lease .success summary now) true received

/-- Since the lease under which a success of a pair was decided, no event about the pair. -/
def Undisturbed (log : List Entry) (p : PairId) (epoch : Nat) : Prop :=
  ∃ newer commit middle granting older lease,
    log = newer ++ commit :: (middle ++ granting :: older) ∧
    lease.pairId = p ∧ lease.epoch = epoch ∧ commit.Succeeds lease ∧
    granting.Grants p epoch lease.fence lease.workerId ∧
    ∀ entry ∈ newer ++ middle, ¬ entry.Affects p

/-- A success that an entry left was decided by the entry, or was there before it. -/
theorem Entry.succeeded {entry : Entry} {g : GateId} {gate : Gate} {log : List Entry}
    (logged : Logged log entry.before) (holds : entry.Holds)
    (found : entry.after.gates[g]? = some gate) (success : gate.desiredState = .success)
    (bound : gate.pairId = some p) :
    Undisturbed (entry :: log) p gate.epoch ∨
      ∃ before, entry.before.gates[g]? = some before ∧ before.desiredState = .success := by
  have standing := logged.standing
  have kept : Quiet entry.before entry.after → _ := fun quiet => quiet.successes found success
  by_cases other : ∀ w op answer received, entry.event = .called w op answer received → ¬ op.decides
  · exact .inr (kept (entry.quiet standing holds other))
  · push Not at other
    obtain ⟨w, op, answer, received, event, decides⟩ := other
    obtain ⟨_, db, after⟩ := entry
    dsimp only at event
    subst event
    obtain ⟨locked, clock, run⟩ := holds
    dsimp only at run found standing logged ⊢
    cases op with
    | acquirePairLease q epoch owner now leaseSeconds =>
        rcases acquirePairLease_commits.of_ok run with ⟨_, rfl⟩ | ⟨_, _, _, _, _, _, rfl⟩
        · exact .inr ⟨gate, found, success⟩
        · exact .inr ⟨gate, found, success⟩
    | commitPairGate lease state summary now =>
        rcases (commitPairGate_commits standing.sound.coupled).of_ok run with ⟨_, rfl, _⟩ |
          ⟨pair, h, old, _, gated, valid, rfl, _, rfl⟩
        · exact .inr ⟨gate, found, success⟩
        · rw [Table.getElem?_put (Table.lt_length gated.gateAt).le] at found
          split at found
          · cases found
            left
            obtain ⟨rfl, _⟩ := committedState_success success
            have same : lease.pairId = p :=
              Option.some.inj (gated.bound.symm.trans bound)
            obtain ⟨epoch, fence, ⟨held, leased, _, _⟩, active, free⟩ :=
              PairLease.valid_iff.mp valid
            have current : lease.epoch = old.epoch :=
              epoch.symm.trans (standing.sound.coupled.epoch_eq gated).symm
            obtain ⟨middle, granting, older, rfl, grants⟩ := logged.granted_commit run
            have quiet := logged.unaffected grants gated.pairAt fence (by simp [leased]) active free
            rw [same, current] at grants
            rw [same] at quiet
            exact ⟨[], _, middle, granting, older, lease, rfl, same, current,
              ⟨w, summary, now, received, rfl⟩, grants, quiet⟩
          · exact .inr ⟨gate, found, success⟩
    | _ => exact decides.elim

theorem Undisturbed.cons {log : List Entry} {epoch : Nat} {entry : Entry}
    (h : Undisturbed log p epoch) (quiet : ¬ entry.Affects p) :
    Undisturbed (entry :: log) p epoch := by
  obtain ⟨newer, commit, middle, granting, older, lease, rfl, same, current, succeeds, grants,
    unaffected⟩ := h
  refine ⟨entry :: newer, commit, middle, granting, older, lease, rfl, same, current, succeeds,
    grants, ?_⟩
  intro other member
  rcases List.mem_cons.mp member with rfl | later
  · exact quiet
  · exact unaffected other later

theorem Logged.undisturbed {log : List Entry} {g : GateId} {gate : Gate} (logged : Logged log db)
    (found : db.gates[g]? = some gate) (success : gate.desiredState = .success)
    (bound : gate.pairId = some p) : Undisturbed log p gate.epoch := by
  induction logged generalizing gate with
  | nil => simp [Database.empty] at found
  | @cons log entry before holds ih =>
      rcases Entry.succeeded before holds found success bound with here | ⟨old, there, was⟩
      · exact here
      · obtain ⟨standing, grows⟩ := holds.ran before.standing
        obtain ⟨_, found', gateGrows⟩ := grows.gates.after there
        cases found.symm.trans found'
        have boundBefore := gateGrows.pairId.symm.trans bound
        have undisturbed := ih there was boundBefore
        rw [← gateGrows.epoch] at undisturbed
        refine undisturbed.cons ?_
        -- An event about the pair would have ended the success.
        intro affects
        obtain ⟨q, pair, gated, free, _⟩ := before.standing.sound.success.success there was
        cases gated.bound.symm.trans boundBefore
        have cleared := affects.cleared before.standing holds gated.pairAt gated.pairActive free
        obtain ⟨_, _, gatedAfter, _, _⟩ := standing.sound.success.success found success
        exact cleared.gate found bound gatedAfter.gateActive success

/-- A success is safe in every reachable database, and no gate of a merge group is one. -/
theorem success_safe {g : GateId} {gate : Gate} (reachable : Reachable c)
    (found : c.state.database.gates[g]? = some gate) (success : gate.desiredState = .success) :
    gate.isMergeGroup = false ∧ gate.active = true ∧ gate.quarantine = none ∧
      ∃ p pair, gate.pairId = some p ∧ c.state.database.pairs[p]? = some pair ∧
        pair.active = true ∧ pair.epoch = gate.epoch ∧ pair.quarantine = none ∧
        Sent c.state.database p gate.epoch ∧ Undisturbed c.state.log p gate.epoch := by
  have logged := reachable.logged
  have sound := logged.standing.sound
  obtain ⟨p, pair, gated, free, sent⟩ := sound.success.success found success
  have epoch := sound.coupled.epoch_eq gated
  refine ⟨?_, gated.gateActive, sound.success.quarantine gated free, p, pair, gated.bound,
    gated.pairAt, gated.pairActive, epoch.symm, free, ?_,
      logged.undisturbed found success gated.bound⟩
  · cases group : gate.isMergeGroup with
    | false => rfl
    | true =>
        have unbound := Gate.isMergeGroup_iff.mp group
        rw [gated.bound] at unbound
        cases unbound
  · rw [epoch]
    exact sent

/-- The sample run ends with a success. -/
theorem success_safe_sample : ∃ (c : Config Sample.setup .any) (gate : Gate), Reachable c ∧
    c.state.database.gates[0]? = some gate ∧ gate.desiredState = .success ∧
    gate.active = true ∧ Undisturbed c.state.log 0 gate.epoch := by
  have run : ∃ c : Config Sample.setup .any, Reachable c ∧ (c.state.database.gates[0]?).any
      (fun gate => gate.desiredState == .success && gate.pairId == some 0) = true :=
    reachable_of_exec Sample.succeeded _ (by decide +kernel)
  obtain ⟨c, reachable, check⟩ := run
  obtain ⟨gate, found, holds⟩ := (Option.any_eq_true _ _).mp check
  simp only [Bool.and_eq_true, beq_iff_eq] at holds
  obtain ⟨_, active, _, p, _, bound, _, _, _, _, _, undisturbed⟩ :=
    success_safe reachable found holds.1
  cases bound.symm.trans holds.2
  exact ⟨c, gate, reachable, found, holds.1, active, undisturbed⟩

end Stratadiff.Governor
