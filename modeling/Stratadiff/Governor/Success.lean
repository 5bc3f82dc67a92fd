import Stratadiff.Governor.Events

/-!
# Successes

A gate whose decision is a success is the active gate of an active pair of its epoch that
is not quarantined and whose review command was sent. This is what every change keeps;
when the decision was made is a matter of the log.
-/

namespace Stratadiff.Governor

variable {db db' : Database} {listed : Option Nat}

/-- The review command of a pair's epoch was sent. -/
def Sent (db : Database) (p : PairId) (epoch : Nat) : Prop :=
  ∃ row ∈ db.dispatches, row.isOf p epoch = true ∧ row.state = .sent

structure SuccessSafe (db : Database) : Prop where
  /-- An active gate is quarantined only with its pair. -/
  quarantine : ∀ {p : PairId} {pair : Pair} {g : GateId} {gate : Gate},
    Gated db p pair g gate → pair.quarantine = none → gate.quarantine = none
  success : ∀ {g : GateId} {gate : Gate}, db.gates[g]? = some gate →
    gate.desiredState = .success → ∃ p pair, Gated db p pair g gate ∧
      pair.quarantine = none ∧ Sent db p pair.epoch

theorem successSafe_empty : SuccessSafe .empty where
  quarantine gated := by simpa [Database.empty] using gated.pairAt
  success h := by simp [Database.empty] at h

namespace SuccessSafe

/-- A success that a change leaves alone. -/
structure Stays (old new : Gate) : Prop where
  success : old.desiredState = .success
  active : new.active = old.active
  bound : new.pairId = old.pairId

/-- What a change has to leave alone: the quarantine of the pairs of active gates, and the
pairs and commands of successes. -/
theorem of_rows (safe : SuccessSafe db)
    (quarantine : ∀ {p : PairId} {pair : Pair} {g : GateId} {gate : Gate},
      Gated db' p pair g gate → pair.quarantine = none → gate.quarantine = none)
    (successes : ∀ {g : GateId} {gate' : Gate}, db'.gates[g]? = some gate' →
      gate'.desiredState = .success → ∃ gate, db.gates[g]? = some gate ∧ Stays gate gate')
    (pairs : ∀ {p : PairId} {pair : Pair} {g : GateId} {gate : Gate}, Gated db p pair g gate →
      gate.desiredState = .success → db'.gates[g]?.any (·.desiredState == .success) = true →
      pair.quarantine = none → ∃ pair', db'.pairs[p]? = some pair' ∧ pair'.active = true ∧
        pair'.quarantine = none ∧ pair'.epoch = pair.epoch ∧
          (Sent db p pair.epoch → Sent db' p pair.epoch)) :
    SuccessSafe db' where
  quarantine := quarantine
  success := by
    intro g gate' found success
    obtain ⟨gate, before, stays⟩ := successes found success
    obtain ⟨p, pair, gated, free, sent⟩ := safe.success before stays.success
    obtain ⟨pair', pairAt, active, free', epoch, kept⟩ :=
      pairs gated stays.success (by simp [found, success]) free
    refine ⟨p, pair', ⟨pairAt, active, found, ?_, ?_⟩, free', ?_⟩
    · rw [stays.active]
      exact gated.gateActive
    · rw [stays.bound]
      exact gated.bound
    · rw [epoch]
      exact kept sent

/-- Changes that touch neither gates nor what successes rest on. -/
theorem of_same (safe : SuccessSafe db) (gates : db'.gates = db.gates)
    (pairs : Table.Rowwise (fun old new : Pair => new.active = old.active ∧
      new.quarantine = old.quarantine ∧ new.epoch = old.epoch) db.pairs db'.pairs)
    (sent : ∀ {p : PairId} {epoch : Nat}, Sent db p epoch → Sent db' p epoch) :
    SuccessSafe db' := by
  refine safe.of_rows ?_ ?_ ?_
  · intro p pair' g gate gated free
    obtain ⟨pair, pairAt, active, quarantine, _⟩ := pairs.before gated.pairAt
    have before : Gated db p pair g gate :=
      ⟨pairAt, active ▸ gated.pairActive, gates ▸ gated.gateAt, gated.gateActive, gated.bound⟩
    exact safe.quarantine before (quarantine ▸ free)
  · intro g gate found success
    rw [gates] at found
    exact ⟨gate, found, success, rfl, rfl⟩
  · intro p pair g gate gated _ _ free
    obtain ⟨pair', pairAt, active, quarantine, epoch⟩ := pairs.after gated.pairAt
    exact ⟨pair', pairAt, active.trans gated.pairActive, quarantine.trans free, epoch, sent⟩

theorem samePairs : Table.Rowwise (fun old new : Pair => new.active = old.active ∧
    new.quarantine = old.quarantine ∧ new.epoch = old.epoch) db.pairs db.pairs :=
  .refl fun _ => ⟨rfl, rfl, rfl⟩

/-- Changes of one gate that keep what it decided, or give it up. -/
theorem of_gate (safe : SuccessSafe db) {g : GateId} {gate new : Gate}
    (found : db.gates[g]? = some gate) (gates : db'.gates = Table.put db.gates g new)
    (pairs : db'.pairs = db.pairs) (dispatches : db'.dispatches = db.dispatches)
    (active : new.active = gate.active) (bound : new.pairId = gate.pairId)
    (quarantine : new.quarantine = gate.quarantine)
    (state : new.desiredState = .success → gate.desiredState = .success) : SuccessSafe db' := by
  refine safe.of_rows ?_ ?_ ?_
  · intro p pair h gate' gated free
    have gateAt := gated.gateAt
    rw [gates, Table.getElem?_put (Table.lt_length found).le] at gateAt
    split at gateAt
    · next here =>
        cases gateAt
        rw [quarantine]
        have before : Gated db p pair g gate := ⟨pairs ▸ gated.pairAt, gated.pairActive, found,
          active ▸ gated.gateActive, bound ▸ gated.bound⟩
        exact safe.quarantine before free
    · have before : Gated db p pair h gate' :=
        ⟨pairs ▸ gated.pairAt, gated.pairActive, gateAt, gated.gateActive, gated.bound⟩
      exact safe.quarantine before free
  · intro h gate' gateAt success
    rw [gates, Table.getElem?_put (Table.lt_length found).le] at gateAt
    split at gateAt
    · next here =>
        cases gateAt
        rw [here]
        exact ⟨gate, found, state success, active, bound⟩
    · exact ⟨gate', gateAt, success, rfl, rfl⟩
  · intro p pair h other gated _ _ free
    refine ⟨pair, ?_, gated.pairActive, free, rfl, ?_⟩
    · rw [pairs]
      exact gated.pairAt
    · rw [Sent, Sent, dispatches]
      exact id

theorem of_decision (safe : SuccessSafe db) {p : PairId} {pair : Pair} {g : GateId} {gate : Gate}
    {state : GateState} {summary : String} {now : Time} (gated : Gated db p pair g gate)
    (free : pair.quarantine = none) (sent : state = .success → Sent db p pair.epoch) :
    SuccessSafe { db with
      gates := Table.put db.gates g (gate.revised state summary)
      outbox := withPublication db.outbox g (gate.revised state summary) now } := by
  have place := (Table.lt_length gated.gateAt).le
  constructor
  · intro q other h gate' gated' free'
    have gateAt := gated'.gateAt
    dsimp only at gateAt
    rw [Table.getElem?_put place] at gateAt
    split at gateAt
    · cases gateAt
      exact (safe.quarantine gated free : gate.quarantine = none)
    · have before : Gated db q other h gate' :=
        ⟨gated'.pairAt, gated'.pairActive, gateAt, gated'.gateActive, gated'.bound⟩
      exact safe.quarantine before free'
  · intro h gate' found success
    have after := found
    dsimp only at found
    rw [Table.getElem?_put place] at found
    split at found
    · cases found
      exact ⟨p, pair, ⟨gated.pairAt, gated.pairActive, after, gated.gateActive, gated.bound⟩,
        free, sent success⟩
    · obtain ⟨q, other, gated', free', sent'⟩ := safe.success found success
      exact ⟨q, other, ⟨gated'.pairAt, gated'.pairActive, after, gated'.gateActive,
        gated'.bound⟩, free', sent'⟩

/-- A command that was sent stays so while commands go forward. -/
theorem sent_put {k : Nat} {row new : Dispatch} {p : PairId} {epoch : Nat}
    (found : db.dispatches[k]? = some row) (state : row.state ≠ .sent)
    (dispatches : db'.dispatches = Table.put db.dispatches k new) (h : Sent db p epoch) :
    Sent db' p epoch := by
  obtain ⟨sent, member, isOf, isSent⟩ := h
  obtain ⟨j, there⟩ := List.getElem?_of_mem member
  refine ⟨sent, List.mem_of_getElem? (i := j) ?_, isOf, isSent⟩
  rw [dispatches, Table.getElem?_put (Table.lt_length found).le, if_neg]
  · exact there
  · rintro rfl
    rw [found] at there
    cases there
    exact state isSent

theorem of_worker (safe : SuccessSafe db) (change : WorkerChange db db') : SuccessSafe db' := by
  cases change with
  | leasePair lease found _ _ =>
      exact safe.of_same rfl (.put (fun _ => ⟨rfl, rfl, rfl⟩) found ⟨rfl, rfl, rfl⟩) id
  | holdPair lease found _ =>
      exact safe.of_same rfl (.put (fun _ => ⟨rfl, rfl, rfl⟩) found ⟨rfl, rfl, rfl⟩) id
  | decide state summary now gated free sent => exact safe.of_decision gated free sent
  | plan now _ _ _ _ =>
      refine safe.of_same rfl samePairs ?_
      rintro p epoch ⟨sent, member, isOf⟩
      obtain ⟨j, there⟩ := List.getElem?_of_mem member
      refine ⟨sent, List.mem_of_getElem? (i := j) ?_, isOf⟩
      dsimp only
      rw [Table.getElem?_put le_rfl, if_neg (Table.lt_length there).ne]
      exact there
  | attempt found state =>
      exact safe.of_same rfl samePairs (sent_put found (by rw [state]; decide) rfl)
  | adopt _ _ _ found state =>
      exact safe.of_same rfl samePairs (sent_put found (by rw [state]; decide) rfl)
  | timeout _ _ => exact safe.of_same rfl samePairs id
  | leaseGate lease found => exact safe.of_gate found rfl rfl rfl rfl rfl rfl id
  | revise state summary checkRunId now found keeps =>
      refine safe.of_gate found rfl rfl rfl rfl rfl rfl ?_
      intro success
      change state = .success at success
      rcases keeps with failure | same
      · rw [failure] at success
        cases success
      · rw [← same]
        exact success
  | publish _ _ found => exact safe.of_gate found rfl rfl rfl rfl rfl rfl id
  | item _ _ _ _ _ _ _ => exact safe.of_same rfl samePairs id

/-! ## Events -/

/-- Commands of other pairs are not abandoned. -/
theorem sent_revocation {r : Revocation} {p q : PairId} {pair : Pair} {g : GateId} {gate : Gate}
    {epoch : Nat} (different : q ≠ p) (h : Sent db q epoch) :
    Sent (r.apply db p pair g gate) q epoch := by
  obtain ⟨row, member, isOf, isSent⟩ := h
  refine ⟨row, ?_, isOf, isSent⟩
  change row ∈ r.dispatches db.dispatches p pair.epoch
  rw [Revocation.dispatches]
  split
  · refine List.mem_map.mpr ⟨row, member, ?_⟩
    rw [if_neg]
    simp only [Dispatch.isOf, Bool.and_eq_true, beq_iff_eq] at isOf ⊢
    rintro ⟨⟨same, _⟩, _⟩
    exact different (isOf.1.symm.trans same)
  · exact member

theorem of_revocation (safe : SuccessSafe db) (coupled : Coupled db) {r : Revocation} {p : PairId}
    {pair : Pair} {g : GateId} {gate : Gate} (gated : Gated db p pair g gate)
    (fits : r.Fits listed pair) : SuccessSafe (r.apply db p pair g gate) := by
  have pairPlace := (Table.lt_length gated.pairAt).le
  have gatePlace := (Table.lt_length gated.gateAt).le
  refine safe.of_rows ?_ ?_ ?_
  · intro q other h gate' gated' free
    have pairAt := gated'.pairAt
    have gateAt := gated'.gateAt
    rw [Revocation.apply, Table.getElem?_put pairPlace] at pairAt
    rw [Revocation.apply, Table.getElem?_put gatePlace] at gateAt
    split at gateAt
    · -- The gate of the event: its pair is the event's pair.
      cases gateAt
      have same : q = p := Option.some.inj (gated'.bound.symm.trans gated.bound)
      rw [if_pos same] at pairAt
      cases pairAt
      obtain ⟨none_new, none_old⟩ := Option.or_eq_none_iff.mp free
      change r.quarantine.or gate.quarantine = none
      rw [none_new, Option.none_or]
      exact safe.quarantine gated none_old
    · next different =>
        have apart : q ≠ p := by
          rintro rfl
          exact different (coupled.gate_unique gated gateAt gated'.bound gated'.gateActive)
        rw [if_neg apart] at pairAt
        have before : Gated db q other h gate' :=
          ⟨pairAt, gated'.pairActive, gateAt, gated'.gateActive, gated'.bound⟩
        exact safe.quarantine before free
  · intro h gate' gateAt success
    rw [Revocation.apply, Table.getElem?_put gatePlace] at gateAt
    split at gateAt
    · cases gateAt
      exact absurd success (GateState.ne_success fits.decided)
    · exact ⟨gate', gateAt, success, rfl, rfl⟩
  · intro q other h gate' gated' _ still free
    have apart : q ≠ p := by
      rintro rfl
      have place := coupled.gate_unique gated gated'.gateAt gated'.bound gated'.gateActive
      subst place
      rw [Revocation.apply, Table.getElem?_put gatePlace, if_pos rfl, Option.any_some] at still
      exact GateState.ne_success fits.decided (eq_of_beq still)
    refine ⟨other, ?_, gated'.pairActive, free, rfl, sent_revocation apart⟩
    rw [Revocation.apply, Table.getElem?_put pairPlace, if_neg apart]
    exact gated'.pairAt

theorem of_start (safe : SuccessSafe db) (coupled : Coupled db) {repository : RepositoryRef}
    {pull : PullPairRef} {p : PairId} {epoch fence : Nat} {now : Time}
    (startable : Startable db repository pull p epoch fence) :
    SuccessSafe (started db repository pull p epoch fence now) := by
  have inactive : ∀ {q : PairId} {pair : Pair}, db.pairs[q]? = some pair → pair.active = true →
      q ≠ p := by
    rintro q pair found active rfl
    obtain ⟨isPull, _⟩ := startable.replaced pair found
    rw [(startable.others q pair found isPull).1] at active
    cases active
  refine safe.of_rows ?_ ?_ ?_
  · intro q pair h gate gated free
    have gateAt := gated.gateAt
    rw [Coupled.started_gates] at gateAt
    split at gateAt
    · cases gateAt
      rfl
    · -- An old active gate has an old active pair, which is not the one that starts.
      obtain ⟨pair₀, gated₀⟩ := coupled.gated_of_gate gateAt gated.gateActive gated.bound
      have pairAt := gated.pairAt
      rw [Coupled.started_pairs startable, if_neg (inactive gated₀.pairAt gated₀.pairActive),
        gated₀.pairAt] at pairAt
      cases pairAt
      exact safe.quarantine gated₀ free
  · intro h gate gateAt success
    rw [Coupled.started_gates] at gateAt
    split at gateAt
    · cases gateAt
      simp only [newPairGate] at success
      split at success <;> cases success
    · exact ⟨gate, gateAt, success, rfl, rfl⟩
  · intro q pair h gate gated _ _ free
    refine ⟨pair, ?_, gated.pairActive, free, rfl, id⟩
    rw [Coupled.started_pairs startable, if_neg (inactive gated.pairAt gated.pairActive)]
    exact gated.pairAt

theorem of_merge (safe : SuccessSafe db) {g : GateId} {gate : Gate} {now : Time}
    (merge : MergeGate db g gate) :
    SuccessSafe { db with
      gates := Table.put db.gates g gate, outbox := withPublication db.outbox g gate now } := by
  refine safe.of_rows ?_ ?_ ?_
  · intro q pair h gate' gated free
    have gateAt := gated.gateAt
    dsimp only at gateAt
    rw [Table.getElem?_put merge.place] at gateAt
    split at gateAt
    · cases gateAt
      have bound := gated.bound
      rw [merge.group] at bound
      cases bound
    · have before : Gated db q pair h gate' :=
        ⟨gated.pairAt, gated.pairActive, gateAt, gated.gateActive, gated.bound⟩
      exact safe.quarantine before free
  · intro h gate' gateAt success
    dsimp only at gateAt
    rw [Table.getElem?_put merge.place] at gateAt
    split at gateAt
    · cases gateAt
      exact absurd success merge.state
    · exact ⟨gate', gateAt, success, rfl, rfl⟩
  · intro q pair h gate' gated _ _ free
    exact ⟨pair, gated.pairAt, gated.pairActive, free, rfl, id⟩

/-- After a quarantine of everything there are no successes. -/
theorem of_quarantine (safe : SuccessSafe db) {deliveryId : String}
    {order : List (GateId × Gate)} {now : Time} :
    SuccessSafe (quarantinedAll db deliveryId order now) := by
  constructor
  · intro p pair g gate gated free
    have pairAt := gated.pairAt
    rw [quarantinedAll, Table.getElem?_update] at pairAt
    obtain ⟨pair₀, _, rfl⟩ := Option.map_eq_some_iff.mp pairAt
    have active := gated.pairActive
    by_cases was : pair₀.active = true
    · rw [if_pos was] at free
      cases free
    · rw [if_neg was] at active
      exact absurd active was
  · intro g gate' found success
    rw [quarantinedAll, Table.getElem?_update] at found
    obtain ⟨gate, before, rfl⟩ := Option.map_eq_some_iff.mp found
    by_cases was : gate.active = true
    · rw [if_pos was] at success
      cases success
    · rw [if_neg was] at success
      obtain ⟨p, pair, gated, _⟩ := safe.success before success
      exact absurd gated.gateActive was

theorem of_event (safe : SuccessSafe db) (coupled : Coupled db)
    (change : EventChange listed db db') : SuccessSafe db' := by
  cases change with
  | record _ _ _ _ => exact safe.of_same rfl samePairs id
  | revoke r gated fits => exact safe.of_revocation coupled gated fits
  | start repository pull epoch fence now startable => exact safe.of_start coupled startable
  | merge gate now merge => exact safe.of_merge merge
  | evaluate _ _ => exact safe.of_same rfl samePairs id
  | reconcile _ _ _ _ => exact safe.of_same rfl samePairs id
  | quarantine deliveryId order now _ => exact safe.of_quarantine

theorem of_change (safe : SuccessSafe db) (coupled : Coupled db) (change : Change listed db db') :
    SuccessSafe db' := by
  cases change with
  | inl event => exact safe.of_event coupled event
  | inr worker => exact safe.of_worker worker

end SuccessSafe

end Stratadiff.Governor
