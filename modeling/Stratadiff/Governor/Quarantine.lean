import Stratadiff.Governor.Lifecycle

/-!
# Quarantine

Once an epoch of a pair is quarantined it stays so: its command is abandoned, no command
is planned for it any more, and its gate is never a success.
-/

namespace Stratadiff.Governor

variable {db db' : Database} {listed : Option Nat} {p : PairId} {epoch : Nat}

/-- The epoch of a pair is over or quarantined. -/
def Closed (db : Database) (p : PairId) (epoch : Nat) : Prop :=
  ∃ pair, db.pairs[p]? = some pair ∧
    (epoch < pair.epoch ∨ epoch = pair.epoch ∧ pair.quarantine ≠ none)

theorem Closed.mono (grows : Grows db db') (h : Closed db p epoch) : Closed db' p epoch := by
  obtain ⟨pair, found, closed⟩ := h
  obtain ⟨pair', found', pairGrows⟩ := grows.pairs.after found
  have later := pairGrows.epoch
  refine ⟨pair', found', ?_⟩
  rcases closed with less | ⟨rfl, quarantined⟩
  · exact .inl (less.trans_le later)
  · rcases later.lt_or_eq with less | same
    · exact .inl less
    · exact .inr ⟨same, pairGrows.isolated same.symm quarantined⟩

/-- A closed epoch all of whose commands are abandoned. -/
structure Dead (db : Database) (p : PairId) (epoch : Nat) : Prop where
  closed : Closed db p epoch
  abandoned : ∀ (k : Nat) (row : Dispatch), db.dispatches[k]? = some row →
    row.isOf p epoch = true → row.state = .abandoned

namespace Dead

/-- Commands that change in place stay abandoned. -/
theorem of_rowwise (dead : Dead db p epoch) (grows : Grows db db')
    (rows : Table.Rowwise (fun old new : Dispatch => new.isOf p epoch = old.isOf p epoch ∧
      (old.isOf p epoch = true → old.state = .abandoned → new.state = .abandoned))
      db.dispatches db'.dispatches) : Dead db' p epoch := by
  refine ⟨dead.closed.mono grows, ?_⟩
  intro k row found isOf
  obtain ⟨old, before, same, keeps⟩ := rows.before found
  rw [same] at isOf
  exact keeps isOf (dead.abandoned k old before isOf)

theorem of_change (dead : Dead db p epoch) (change : Change listed db db') : Dead db' p epoch := by
  have grows := Grows.of_change change
  have still : Table.Rowwise (fun old new : Dispatch => new.isOf p epoch = old.isOf p epoch ∧
      (old.isOf p epoch = true → old.state = .abandoned → new.state = .abandoned))
      db.dispatches db.dispatches := .refl fun _ => ⟨rfl, fun _ => id⟩
  rcases change with change | change
  · cases change with
    | record _ _ _ _ => exact dead.of_rowwise grows still
    | @revoke q pair g gate r _ _ =>
        refine dead.of_rowwise grows ?_
        change Table.Rowwise _ db.dispatches (r.dispatches db.dispatches q pair.epoch)
        rw [Revocation.dispatches]
        split
        · exact .update (fun _ _ => ⟨rfl, fun _ _ => rfl⟩) fun _ => ⟨rfl, fun _ => id⟩
        · exact still
    | start _ _ _ _ _ _ => exact dead.of_rowwise grows still
    | merge _ _ _ => exact dead.of_rowwise grows still
    | evaluate _ _ => exact dead.of_rowwise grows still
    | reconcile _ _ _ _ => exact dead.of_rowwise grows still
    | quarantine _ _ _ _ =>
        exact dead.of_rowwise grows
          (.update (fun _ _ => ⟨rfl, fun _ _ => rfl⟩) fun _ => ⟨rfl, fun _ => id⟩)
  · cases change with
    | leasePair _ _ _ _ => exact dead.of_rowwise grows still
    | holdPair _ _ _ => exact dead.of_rowwise grows still
    | decide _ _ _ _ _ _ => exact dead.of_rowwise grows still
    | @plan q pair now found active free new =>
        refine ⟨dead.closed.mono grows, ?_⟩
        intro k row there isOf
        rw [Table.getElem?_put le_rfl] at there
        split at there
        · -- A command is planned only for an epoch that is not closed.
          cases there
          simp only [Dispatch.isOf, Bool.and_eq_true, beq_iff_eq] at isOf
          obtain ⟨rfl, rfl⟩ := isOf
          obtain ⟨other, found', closed⟩ := dead.closed
          cases found.symm.trans found'
          rcases closed with less | ⟨_, quarantined⟩
          · exact absurd less (lt_irrefl _)
          · exact absurd free quarantined
        · exact dead.abandoned k row there isOf
    | @attempt k row found state =>
        refine dead.of_rowwise grows (.put (fun _ => ⟨rfl, fun _ => id⟩) found ⟨rfl, ?_⟩)
        intro isOf abandoned
        rw [state] at abandoned
        cases abandoned
    | @adopt k row commentId dispatchedAt deadline found state =>
        refine dead.of_rowwise grows (.put (fun _ => ⟨rfl, fun _ => id⟩) found ⟨rfl, ?_⟩)
        intro isOf abandoned
        rw [state] at abandoned
        cases abandoned
    | timeout _ _ => exact dead.of_rowwise grows still
    | leaseGate _ _ => exact dead.of_rowwise grows still
    | revise _ _ _ _ _ _ => exact dead.of_rowwise grows still
    | publish _ _ _ => exact dead.of_rowwise grows still
    | item _ _ _ _ _ _ _ => exact dead.of_rowwise grows still

end Dead

/-- A pair that becomes quarantined has its commands abandoned. -/
theorem dead_of_quarantine (change : Change listed db db') {pair' : Pair}
    (found : db'.pairs[p]? = some pair') (quarantined : pair'.quarantine ≠ none)
    (before : ∀ pair, db.pairs[p]? = some pair → pair.epoch = pair'.epoch →
      pair.quarantine = none) :
    Dead db' p pair'.epoch := by
  refine ⟨⟨pair', found, .inr ⟨rfl, quarantined⟩⟩, ?_⟩
  have same : db'.pairs[p]? = db.pairs[p]? → Dead db' p pair'.epoch := fun same =>
    absurd (before pair' (same ▸ found) rfl) quarantined
  rcases change with change | change
  · cases change with
    | record _ _ _ _ => exact (same rfl).abandoned
    | @revoke q pair g gate r gated _ =>
        change (Table.put db.pairs q (r.pair pair))[p]? = some pair' at found
        rw [Table.getElem?_put (Table.lt_length gated.pairAt).le] at found
        split at found
        · next here =>
            subst here
            cases found
            have free := before pair gated.pairAt rfl
            have marked : r.quarantine.isSome = true := by
              cases h : r.quarantine with
              | some _ => rfl
              | none => exact absurd (by simp [Revocation.pair, h, free]) quarantined
            intro k row there isOf
            change (r.dispatches db.dispatches p pair.epoch)[k]? = some row at there
            rw [Revocation.dispatches, if_pos marked, Table.getElem?_update] at there
            obtain ⟨old, _, rfl⟩ := Option.map_eq_some_iff.mp there
            split
            · rfl
            · next kept =>
                rw [if_neg kept] at isOf
                change old.isOf p pair.epoch = true at isOf
                simpa [isOf] using kept
        · exact absurd (before pair' found rfl) quarantined
    | start repository pull epoch fence now startable =>
        rw [Coupled.started_pairs startable] at found
        split at found
        · cases found
          exact absurd rfl quarantined
        · exact absurd (before pair' found rfl) quarantined
    | merge _ _ _ => exact (same rfl).abandoned
    | evaluate _ _ => exact (same rfl).abandoned
    | reconcile _ _ _ _ => exact (same rfl).abandoned
    | quarantine deliveryId order now _ =>
        rw [quarantinedAll, Table.getElem?_update] at found
        obtain ⟨pair, there, rfl⟩ := Option.map_eq_some_iff.mp found
        by_cases active : pair.active = true
        · rw [if_pos active] at quarantined ⊢
          intro k row found' isOf
          rw [quarantinedAll, Table.getElem?_update] at found'
          obtain ⟨old, _, rfl⟩ := Option.map_eq_some_iff.mp found'
          split
          · rfl
          · next kept =>
              rw [if_neg kept] at isOf
              change old.isOf p pair.epoch = true at isOf
              simp only [Dispatch.isOf, Bool.and_eq_true, beq_iff_eq] at isOf
              obtain ⟨rfl, current⟩ := isOf
              simpa [there, active, current] using kept
        · rw [if_neg active] at quarantined before
          exact absurd (before pair there rfl) quarantined
  · cases change with
    | leasePair lease there _ free =>
        rw [Table.getElem?_put (Table.lt_length there).le] at found
        split at found
        · cases found
          exact absurd free quarantined
        · exact absurd (before pair' found rfl) quarantined
    | holdPair lease there _ =>
        rw [Table.getElem?_put (Table.lt_length there).le] at found
        split at found
        · next here =>
            subst here
            cases found
            exact absurd (before _ there rfl) quarantined
        · exact absurd (before pair' found rfl) quarantined
    | decide _ _ _ _ _ _ => exact (same rfl).abandoned
    | plan _ _ _ _ _ => exact absurd (before pair' found rfl) quarantined
    | attempt _ _ => exact absurd (before pair' found rfl) quarantined
    | adopt _ _ _ _ _ => exact absurd (before pair' found rfl) quarantined
    | timeout _ _ => exact (same rfl).abandoned
    | leaseGate _ _ => exact (same rfl).abandoned
    | revise _ _ _ _ _ _ => exact (same rfl).abandoned
    | publish _ _ _ => exact (same rfl).abandoned
    | item _ _ _ _ _ _ _ => exact (same rfl).abandoned

/-- The commands of quarantined pairs are abandoned. -/
def QuarantineAbandons (db : Database) : Prop :=
  ∀ (p : PairId) (pair : Pair), db.pairs[p]? = some pair → pair.quarantine ≠ none →
    Dead db p pair.epoch

theorem QuarantineAbandons.of_change (abandons : QuarantineAbandons db)
    (change : Change listed db db') : QuarantineAbandons db' := by
  intro p pair' found quarantined
  by_cases before : ∀ pair, db.pairs[p]? = some pair → pair.epoch = pair'.epoch →
      pair.quarantine = none
  · exact dead_of_quarantine change found quarantined before
  · push Not at before
    obtain ⟨pair, there, epoch, was⟩ := before
    rw [← epoch]
    exact (abandons p pair there was).of_change change

variable {setup : Setup} {permits : Policy} {c c' : Config setup permits}

theorem Reachable.quarantineAbandons (reachable : Reachable c) :
    QuarantineAbandons c.state.database :=
  reachable.logged.keeps (fun _ _ found => by simp [Database.empty] at found)
    fun _ change abandons => abandons.of_change change

/-- A quarantine stays: in every later configuration of a run the pair is still quarantined
unless it has a later epoch, the command of the quarantined epoch is not sent, and its gate
is not a success. -/
theorem quarantine_sticks {pair : Pair} (reachable : Reachable c)
    (run : Relation.ReflTransGen (Machine.Step (M := governor setup permits)) c c')
    (found : c.state.database.pairs[p]? = some pair) (quarantined : pair.quarantine ≠ none) :
    (∃ pair', c'.state.database.pairs[p]? = some pair' ∧ pair.epoch ≤ pair'.epoch ∧
      (pair'.epoch = pair.epoch → pair'.quarantine ≠ none) ∧
      (pair'.quarantine = none → pair.epoch < pair'.epoch)) ∧
    (∀ row ∈ c'.state.database.dispatches, row.isOf p pair.epoch = true →
      row.state = .abandoned) ∧
    ∀ (g : GateId) (gate : Gate), c'.state.database.gates[g]? = some gate →
      gate.pairId = some p → gate.epoch = pair.epoch → gate.desiredState ≠ .success := by
  have dead : Dead c'.state.database p pair.epoch :=
    keeps_of_run (P := fun db => Dead db p pair.epoch)
      (fun _ change dead => dead.of_change change) reachable run
      (reachable.quarantineAbandons p pair found quarantined)
  have sound := (reachable.run run).logged.standing.sound
  obtain ⟨pair', found', closed⟩ := dead.closed
  refine ⟨⟨pair', found', ?_, ?_, ?_⟩, ?_, ?_⟩
  · rcases closed with less | ⟨same, _⟩
    · exact less.le
    · exact same.le
  · intro same
    rcases closed with less | ⟨_, still⟩
    · exact absurd same less.ne'
    · exact still
  · intro free
    exact closed.resolve_right fun still => still.2 free
  · intro row member isOf
    obtain ⟨k, there⟩ := List.getElem?_of_mem member
    exact dead.abandoned k row there isOf
  · intro g gate gateAt bound epoch success
    -- A success belongs to the pair's present epoch, which is then not quarantined.
    obtain ⟨q, current, gated, free, _⟩ := sound.success.success gateAt success
    cases gated.bound.symm.trans bound
    cases found'.symm.trans gated.pairAt
    have present := sound.coupled.epoch_eq gated
    rcases closed with less | ⟨_, still⟩
    · omega
    · exact still free

/-- A worker decides a success and the pair is quarantined before it commits. -/
def Sample.isolated : List Action :=
  opened ++ published "a" ++ dispatched "a" ++ reviewed ++ (evaluated "a").dropLast ++
    [.quarantine ⟨"d9", "status", "s9", 6000⟩]

/-- The success comes under the lease from before the quarantine, the pull request is edited
and the provider approves once more; a second worker then publishes and evaluates the gate. -/
def Sample.afterwards : List Action :=
  [.call "a", .look "a", .call "a",
    .ingest ⟨"d5", "pull_request", "s6", 7000,
      .pullRequest repository { pull with sourceUpdatedAt := 200 }⟩,
    .ingest ⟨"d6", "pull_request_review", "s7", 7000, .pullEvidence repository 5 (some "h0")
      ⟨23, 6500, true, .review author "APPROVED" "h0" 6500 true none⟩⟩,
    .tick 8000, .start "b", .look "b", .call "b", .look "b", .call "b", .call "b", .look "b",
    .call "b", .start "b", .look "b", .call "b", .look "b", .call "b"] ++ loaded "b" ++
    [.look "b", .call "b"]

/-- A success that was decided for a commit that the store refuses. -/
def Event.refusesSuccess : Event → Bool
  | .called _ (.commitPairGate _ .success _ _) false _ => true
  | _ => false

/-- A delivery that cannot be scoped quarantines the pair while a worker holds a success. What
the worker and later deliveries do leaves the pair quarantined. -/
theorem quarantine_sticks_sample : ∃ (c c' : Config Sample.setup .any) (pair : Pair),
    Reachable c ∧ Relation.ReflTransGen (Machine.Step (M := governor Sample.setup .any)) c c' ∧
    c.state.database.pairs[0]? = some pair ∧ pair.quarantine ≠ none ∧
    (∃ entry ∈ c'.state.log, entry.event.refusesSuccess = true) ∧
    (∃ pair', c'.state.database.pairs[0]? = some pair' ∧ pair.epoch ≤ pair'.epoch ∧
      (pair'.epoch = pair.epoch → pair'.quarantine ≠ none) ∧
      (pair'.quarantine = none → pair.epoch < pair'.epoch)) ∧
    (∀ row ∈ c'.state.database.dispatches, row.isOf 0 pair.epoch = true →
      row.state = .abandoned) ∧
    ∀ (g : GateId) (gate : Gate), c'.state.database.gates[g]? = some gate →
      gate.pairId = some 0 → gate.epoch = pair.epoch → gate.desiredState ≠ .success := by
  obtain ⟨c, c', reachable, run, check⟩ : ∃ c c' : Config Sample.setup .any, Reachable c ∧
      Relation.ReflTransGen (Machine.Step (M := governor Sample.setup .any)) c c' ∧
      ((c.state.database.pairs[0]?).any (·.quarantined) &&
        c'.state.log.any (·.event.refusesSuccess)) = true :=
    run_of_exec Sample.isolated Sample.afterwards _ (by decide +kernel)
  obtain ⟨known, logged⟩ := Bool.and_eq_true_iff.mp check
  obtain ⟨pair, found, quarantined⟩ := (Option.any_eq_true _ _).mp known
  have isolated : pair.quarantine ≠ none := Option.isSome_iff_ne_none.mp quarantined
  exact ⟨c, c', pair, reachable, run, found, isolated, List.any_eq_true.mp logged,
    quarantine_sticks reachable run found isolated⟩

end Stratadiff.Governor
