import Stratadiff.Governor.Coupling

/-!
# What events do to one pair

Each way in which an event changes a pair is one revocation: the pair is fenced off, its
gate gets a new revision, and what is left to do is put into the outbox.
-/

namespace Stratadiff.Governor

open Transaction

section

variable {db : Database} {p : PairId} {pair : Pair} {g : GateId} {gate : Gate}

theorem updatePair_eq {condition : Pair → Bool} {change : Pair → Pair}
    (found : db.pairs[p]? = some pair) (holds : condition pair = true) :
    updatePair p condition change db =
      .ok (some (change pair), { db with pairs := Table.put db.pairs p (change pair) }) := by
  simp [updatePair, found, holds]

theorem updateGate_eq {condition : Gate → Bool} {change : Gate → Gate}
    (found : db.gates[g]? = some gate) (holds : condition gate = true) :
    updateGate g condition change db =
      .ok (some (change gate), { db with gates := Table.put db.gates g (change gate) }) := by
  simp [updateGate, found, holds]

theorem updateGates_eq {condition : Gate → Bool} {change : Gate → Gate}
    (found : db.gates[g]? = some gate) (holds : condition gate = true)
    (only : ∀ h other, db.gates[h]? = some other → condition other = true → h = g) :
    updateGates condition change db =
      .ok (some (g, change gate), { db with gates := Table.put db.gates g (change gate) }) := by
  have first : Table.first db.gates condition = some (g, gate) := by
    rw [Table.first, Table.select_eq_singleton found holds only]
    rfl
  rw [updateGates, first, Table.update_eq_put found holds only]
  rfl

/-- The one active gate of a pair. -/
structure OnlyGate (gates : List Gate) (p : PairId) (g : GateId) (gate : Gate) : Prop where
  gateAt : gates[g]? = some gate
  gateActive : gate.active = true
  bound : gate.pairId = some p
  only : ∀ (h : GateId) (other : Gate), gates[h]? = some other → other.pairId = some p →
    other.active = true → h = g

theorem Coupled.onlyGate (coupled : Coupled db) (gated : Gated db p pair g gate) :
    OnlyGate db.gates p g gate :=
  ⟨gated.gateAt, gated.gateActive, gated.bound,
    fun _ _ found bound active => coupled.gate_unique gated found bound active⟩

theorem revokeCurrentPairGate_eq {receivedAt : Time} {summary : String} {active : Bool}
    {state : GateState} (gate_only : OnlyGate db.gates p g gate) :
    revokeCurrentPairGate p receivedAt summary active state db =
      .ok ((g, { gate.revised state summary with active }),
        { db with
          gates := Table.put db.gates g { gate.revised state summary with active }
          outbox := withPublication db.outbox g { gate.revised state summary with active }
            receivedAt }) := by
  rw [revokeCurrentPairGate, bind_of_ok (updateGates_eq gate_only.gateAt
    (by simp [gate_only.bound, gate_only.gateActive]) ?_)]
  · rfl
  · intro h other found holds
    simp only [Bool.and_eq_true, beq_iff_eq] at holds
    exact gate_only.only h other found holds.1 holds.2

/-- Evidence or a push: the pair keeps what it records of its pull request. -/
def revisit (pair : Pair) (evidence : Option EvidenceInput) (work : Work) (now : Time) :
    Revocation where
  draft := pair.draft
  state := pair.state
  active := true
  quarantine := none
  sourceUpdatedAt := pair.sourceUpdatedAt
  desiredState := .revoked
  summary := evidenceSummary
  evidence := evidence
  work := work
  now := now

theorem revisit_fits {listed : Option Nat} {evidence : Option EvidenceInput} {work : Work}
    {now : Time} (coupled : Coupled db) (gated : Gated db p pair g gate)
    (free : pair.quarantine = none) (does : work ≠ .none)
    (listing : work = .listing → listed = some pair.repositoryId) :
    (revisit pair evidence work now).Fits listed pair where
  decided := .inl rfl
  opened _ := coupled.opened gated.pairAt gated.pairActive
  closed := nofun
  revoked _ := free
  failed := nofun
  evaluated _ _ := does
  listing := listing
  reviewed _ ready := .inl ready

theorem revisit_pair {evidence : Option EvidenceInput} {work : Work} {now : Time}
    (active : pair.active = true) : (revisit pair evidence work now).pair pair = pair.fenced := by
  simp [Revocation.pair, revisit, Pair.fenced, active]

theorem invalidatePairForEvidence_eq {receivedAt : Time} (coupled : Coupled db)
    (gated : Gated db p pair g gate) :
    invalidatePairForEvidence p receivedAt db =
      .ok ((g, (revisit pair none .listing receivedAt).gate gate),
        (revisit pair none .listing receivedAt).apply db p pair g gate) := by
  rw [invalidatePairForEvidence, bind_of_ok (updatePair_eq gated.pairAt rfl), Revocation.apply,
    revisit_pair gated.pairActive]
  refine (revokeCurrentPairGate_eq ?_).trans rfl
  exact coupled.onlyGate gated

theorem admitEvidence_eq {evidence : EvidenceInput} {receivedAt : Time} (coupled : Coupled db)
    (gated : Gated db p pair g gate) :
    admitEvidence p pair.epoch evidence receivedAt db =
      .ok (g, (revisit pair (some evidence) .evaluation receivedAt).apply db p pair g gate) := by
  rw [admitEvidence, bind_of_ok (invalidatePairForEvidence_eq coupled gated), Revocation.apply,
    Revocation.apply, revisit_pair gated.pairActive, revisit_pair gated.pairActive]
  rfl

/-- A pull request in a new state. -/
def restate (pair : Pair) (pull : PullPairRef) (now : Time) : Revocation where
  draft := pull.draft
  state := pull.state
  active := pull.state == .opened
  quarantine := none
  sourceUpdatedAt := pull.sourceUpdatedAt
  desiredState := if !pair.quarantined && pull.state == .opened then .revoked else .failure
  summary :=
    if pair.quarantined then
      "This review epoch remains quarantined after an unscoped authenticated webhook."
    else if pull.state == .opened then
      "Pull request state changed; re-evaluating final-head evidence."
    else "Pull request closed."
  evidence := none
  work := if !pair.quarantined && pull.state == .opened && !pull.draft then .review else .none
  now := now

theorem restate_fits {listed : Option Nat} {pull : PullPairRef} {now : Time} :
    (restate pair pull now).Fits listed pair where
  decided := by
    simp only [restate]
    split
    · exact .inl rfl
    · exact .inr rfl
  opened active := eq_of_beq active
  closed inactive := by
    have closed : (pull.state == .opened) = false := inactive
    simp [restate, closed]
  revoked revoked := by
    have free : pair.quarantined = false := by
      cases h : pair.quarantined with
      | false => rfl
      | true => simp [restate, h] at revoked
    simpa [restate, Revocation.pair, Pair.quarantined] using free
  failed active failure := by
    have opened : (pull.state == .opened) = true := active
    have quarantined : pair.quarantined = true := by
      cases h : pair.quarantined with
      | true => rfl
      | false => simp [restate, h, opened] at failure
    simpa [restate, Revocation.pair, Pair.quarantined, Option.isSome_iff_ne_none] using quarantined
  evaluated revoked ready := by
    have ready' : pull.draft = false := ready
    have both : (!pair.quarantined && pull.state == .opened) = true := by
      cases h : (!pair.quarantined && pull.state == .opened) with
      | true => rfl
      | false => simp [restate, h] at revoked
    simp [restate, both, ready']
  listing listing := by
    simp only [restate] at listing
    split at listing <;> cases listing
  reviewed revoked ready := by
    have ready' : pull.draft = false := ready
    have both : (!pair.quarantined && pull.state == .opened) = true := by
      cases h : (!pair.quarantined && pull.state == .opened) with
      | true => rfl
      | false => simp [restate, h] at revoked
    exact .inr (by simp [restate, both, ready'])

theorem changePairState_eq {pull : PullPairRef} {receivedAt : Time} (coupled : Coupled db)
    (gated : Gated db p pair g gate) :
    changePairState p pair pull receivedAt db =
      .ok ((.applied, [g]), (restate pair pull receivedAt).apply db p pair g gate) := by
  rw [changePairState, bind_of_ok (updatePair_eq gated.pairAt rfl)]
  cases quarantined : pair.quarantined with
  | true =>
      rw [if_pos rfl]
      refine Eq.trans (bind_of_ok (revokeCurrentPairGate_eq (coupled.onlyGate gated))) ?_
      simp only [Revocation.apply, Revocation.gate, Revocation.outbox, restate, quarantined]
      rfl
  | false =>
      rw [if_neg (by simp)]
      refine Eq.trans (bind_of_ok (revokeCurrentPairGate_eq (coupled.onlyGate gated))) ?_
      cases opened : pull.state == .opened with
      | false =>
          simp only [Revocation.apply, Revocation.gate, Revocation.outbox, restate, quarantined,
            opened]
          rfl
      | true =>
          cases draft : pull.draft with
          | true =>
              simp only [Revocation.apply, Revocation.gate, Revocation.outbox, restate, quarantined,
                opened, draft]
              rfl
          | false =>
              simp only [Revocation.apply, Revocation.gate, Revocation.outbox, restate, quarantined,
                opened, draft]
              rfl

/-- The end of a pair: its pull request is closed or has another base or head. -/
def finish (pair : Pair) (state : PullState) (summary : String) (now : Time) : Revocation where
  draft := pair.draft
  state := state
  active := false
  quarantine := none
  sourceUpdatedAt := pair.sourceUpdatedAt
  desiredState := .failure
  summary := summary
  evidence := none
  work := .none
  now := now

theorem finish_fits {listed : Option Nat} {state : PullState} {summary : String} {now : Time} :
    (finish pair state summary now).Fits listed pair where
  decided := .inr rfl
  opened := nofun
  closed _ := rfl
  revoked := nofun
  failed := nofun
  evaluated := nofun
  listing := nofun
  reviewed := nofun

theorem closeUnlisted_eq {now : Time} (coupled : Coupled db) (gated : Gated db p pair g gate) :
    closeUnlisted p now db =
      .ok ((), (finish pair .closed
        "Reconciliation found that this pull request is no longer open." now).apply db p pair g
          gate) := by
  rw [closeUnlisted, bind_of_ok (updatePair_eq gated.pairAt rfl)]
  refine (bind_of_ok (revokeCurrentPairGate_eq ?_)).trans rfl
  exact coupled.onlyGate gated

/-- A malformed event quarantines a pair. -/
def isolate (pair : Pair) (deliveryId : String) (now : Time) : Revocation where
  draft := pair.draft
  state := pair.state
  active := true
  quarantine := some deliveryId
  sourceUpdatedAt := pair.sourceUpdatedAt
  desiredState := .failure
  summary :=
    "Malformed signed webhook quarantined this review epoch; new evidence cannot reopen it."
  evidence := none
  work := .none
  now := now

theorem isolate_fits {listed : Option Nat} {deliveryId : String} {now : Time}
    (coupled : Coupled db) (gated : Gated db p pair g gate) :
    (isolate pair deliveryId now).Fits listed pair where
  decided := .inr rfl
  opened _ := coupled.opened gated.pairAt gated.pairActive
  closed := nofun
  revoked := nofun
  failed _ _ := nofun
  evaluated := nofun
  listing := nofun
  reviewed := nofun

theorem quarantinePair_eq {deliveryId : String} {receivedAt : Time} (coupled : Coupled db)
    (gated : Gated db p pair g gate) :
    quarantinePair p pair.epoch deliveryId receivedAt db =
      .ok ((g, (isolate pair deliveryId receivedAt).gate gate),
        (isolate pair deliveryId receivedAt).apply db p pair g gate) := by
  have only := coupled.onlyGate gated
  have isolated : (isolate pair deliveryId receivedAt).pair pair =
      pair.quarantinedBy deliveryId := by
    have active := gated.pairActive
    simp [Revocation.pair, isolate, Pair.quarantinedBy, Pair.fenced, active]
  have marked : Table.put (Table.put db.gates g { gate with quarantine := some deliveryId }) g
      ((isolate pair deliveryId receivedAt).gate gate) =
        Table.put db.gates g ((isolate pair deliveryId receivedAt).gate gate) :=
    Table.put_put (Table.lt_length gated.gateAt).le
  have marked_only : OnlyGate (Table.put db.gates g { gate with quarantine := some deliveryId }) p g
      { gate with quarantine := some deliveryId } := by
    refine ⟨?_, only.gateActive, only.bound, ?_⟩
    · rw [Table.getElem?_put (Table.lt_length gated.gateAt).le, if_pos rfl]
    · intro h other found bound active
      rw [Table.getElem?_put (Table.lt_length gated.gateAt).le] at found
      split at found
      · next same => exact same
      · exact only.only h other found bound active
  rw [quarantinePair, bind_of_ok (updatePair_eq gated.pairAt rfl)]
  refine Eq.trans (bind_of_ok rfl) ?_
  refine Eq.trans (bind_of_ok (updateGates_eq only.gateAt ?_ ?_)) ?_
  · simp [only.bound, only.gateActive]
  · intro h other found holds
    have both := Bool.and_eq_true_iff.mp holds
    exact only.only h other found (eq_of_beq both.1) both.2
  · refine Eq.trans (revokeCurrentPairGate_eq marked_only) ?_
    rw [Revocation.apply, isolated, ← marked]
    rfl

end

end Stratadiff.Governor
