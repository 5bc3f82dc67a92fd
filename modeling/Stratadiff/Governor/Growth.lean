import Stratadiff.Governor.Coupling

/-!
# What changes keep

Rows are never removed. Epochs, fences and revisions go up, commands go forward, completed
items stay as they are, and a lease that is still there under its fence has kept its pair
and the evidence of the pair as they were when it was taken.
-/

namespace Stratadiff.Governor

/-! ## Rows -/

structure PairGrows (old new : Pair) : Prop where
  repository : new.repositoryId = old.repositoryId
  number : new.pullNumber = old.pullNumber
  base : new.baseSha = old.baseSha
  head : new.headSha = old.headSha
  epoch : old.epoch ≤ new.epoch
  fence : old.fence ≤ new.fence
  /-- Within an epoch a pair does not become active again. -/
  ended : new.epoch = old.epoch → old.active = false → new.active = false
  isolated : new.epoch = old.epoch → old.quarantine ≠ none → new.quarantine ≠ none
  held : new.fence = old.fence → ∀ lease, new.lease = some lease →
    ∃ before, old.lease = some before ∧ before.owner = lease.owner ∧
      new = { old with lease := some lease }

namespace PairGrows

theorem refl (pair : Pair) : PairGrows pair pair where
  repository := rfl
  number := rfl
  base := rfl
  head := rfl
  epoch := le_rfl
  fence := le_rfl
  ended _ inactive := inactive
  isolated _ quarantined := quarantined
  held := by
    intro _ lease held
    refine ⟨lease, held, rfl, ?_⟩
    rw [← held]

theorem trans {a b c : Pair} (first : PairGrows a b) (second : PairGrows b c) : PairGrows a c where
  repository := second.repository.trans first.repository
  number := second.number.trans first.number
  base := second.base.trans first.base
  head := second.head.trans first.head
  epoch := first.epoch.trans second.epoch
  fence := first.fence.trans second.fence
  ended same inactive := by
    have low := first.epoch
    have high := second.epoch
    exact second.ended (by omega) (first.ended (by omega) inactive)
  isolated same quarantined := by
    have low := first.epoch
    have high := second.epoch
    exact second.isolated (by omega) (first.isolated (by omega) quarantined)
  held same lease here := by
    have low := first.fence
    have high := second.fence
    obtain ⟨middle, there, owner, rfl⟩ := second.held (by omega) lease here
    obtain ⟨before, old, owner', rfl⟩ := first.held (by omega) middle there
    exact ⟨before, old, owner'.trans owner, rfl⟩

/-- A pair that an event or a new lease fences off. -/
theorem of_fence {old new : Pair} (identity : new.repositoryId = old.repositoryId ∧
      new.pullNumber = old.pullNumber ∧ new.baseSha = old.baseSha ∧ new.headSha = old.headSha)
    (epoch : new.epoch = old.epoch) (fence : old.fence < new.fence)
    (ended : old.active = false → new.active = false)
    (isolated : old.quarantine ≠ none → new.quarantine ≠ none) : PairGrows old new where
  repository := identity.1
  number := identity.2.1
  base := identity.2.2.1
  head := identity.2.2.2
  epoch := epoch.ge
  fence := fence.le
  ended _ := ended
  isolated _ := isolated
  held same := absurd same fence.ne'

end PairGrows

structure GateGrows (old new : Gate) : Prop where
  pairId : new.pairId = old.pairId
  epoch : new.epoch = old.epoch
  revision : old.revision ≤ new.revision
  fence : old.fence ≤ new.fence
  /-- What is decided and published changes with the revision. -/
  decided : new.revision = old.revision →
    new.desiredState = old.desiredState ∧ new.quarantine = old.quarantine ∧
      (old.publishedRevision = some old.revision → new.publishedRevision = some old.revision)

namespace GateGrows

theorem refl (gate : Gate) : GateGrows gate gate :=
  ⟨rfl, rfl, le_rfl, le_rfl, fun _ => ⟨rfl, rfl, id⟩⟩

theorem trans {a b c : Gate} (first : GateGrows a b) (second : GateGrows b c) : GateGrows a c where
  pairId := second.pairId.trans first.pairId
  epoch := second.epoch.trans first.epoch
  revision := first.revision.trans second.revision
  fence := first.fence.trans second.fence
  decided same := by
    have low := first.revision
    have high := second.revision
    have equal : b.revision = a.revision := by omega
    obtain ⟨state, quarantine, published⟩ := first.decided equal
    obtain ⟨state', quarantine', published'⟩ := second.decided (by omega)
    rw [equal] at published'
    exact ⟨state'.trans state, quarantine'.trans quarantine, fun h => published' (published h)⟩

theorem of_revised {old new : Gate} (pairId : new.pairId = old.pairId)
    (epoch : new.epoch = old.epoch) (revision : old.revision < new.revision)
    (fence : old.fence ≤ new.fence) : GateGrows old new :=
  ⟨pairId, epoch, revision.le, fence, fun same => absurd same revision.ne'⟩

end GateGrows

/-- How far a command is. -/
def DispatchState.rank : DispatchState → Nat
  | .planned => 0
  | .attempting => 1
  | .sent => 2
  | .abandoned => 3

structure DispatchGrows (old new : Dispatch) : Prop where
  pairId : new.pairId = old.pairId
  pairEpoch : new.pairEpoch = old.pairEpoch
  state : old.state.rank ≤ new.state.rank
  sent : old.state = .sent → new = old ∨ new.state = .abandoned

namespace DispatchGrows

theorem refl (row : Dispatch) : DispatchGrows row row := ⟨rfl, rfl, le_rfl, fun _ => .inl rfl⟩

theorem trans {a b c : Dispatch} (first : DispatchGrows a b) (second : DispatchGrows b c) :
    DispatchGrows a c where
  pairId := second.pairId.trans first.pairId
  pairEpoch := second.pairEpoch.trans first.pairEpoch
  state := first.state.trans second.state
  sent sent := by
    rcases first.sent sent with rfl | abandoned
    · exact second.sent sent
    · have last := second.state
      rw [abandoned] at last
      right
      cases state : c.state <;> rw [state] at last <;> simp [DispatchState.rank] at last ⊢

theorem abandon (row : Dispatch) : DispatchGrows row row.abandon where
  pairId := rfl
  pairEpoch := rfl
  state := by
    change row.state.rank ≤ 3
    cases row.state <;> decide
  sent _ := .inr rfl

end DispatchGrows

structure ItemGrows (old new : OutboxItem) : Prop where
  payload : new.payload = old.payload
  dedupeKey : new.dedupeKey = old.dedupeKey
  leaseFence : old.leaseFence ≤ new.leaseFence
  completed : old.completedAt ≠ none → new = old

namespace ItemGrows

theorem refl (item : OutboxItem) : ItemGrows item item := ⟨rfl, rfl, le_rfl, fun _ => rfl⟩

theorem trans {a b c : OutboxItem} (first : ItemGrows a b) (second : ItemGrows b c) :
    ItemGrows a c where
  payload := second.payload.trans first.payload
  dedupeKey := second.dedupeKey.trans first.dedupeKey
  leaseFence := first.leaseFence.trans second.leaseFence
  completed completed := by
    have same := first.completed completed
    subst same
    exact second.completed completed

end ItemGrows

/-! ## Outboxes -/

section

variable {outbox : List OutboxItem}

theorem enqueued_extends {payload : OutboxPayload} {key : DedupeKey} {now : Time} :
    Table.Extends ItemGrows outbox (enqueued outbox payload key now) := by
  intro i item found
  exact ⟨item, enqueued_keeps found, .refl item⟩

theorem Work.enqueue_extends {work : Work} {p : PairId} {epoch revision : Nat} {now : Time} :
    Table.Extends ItemGrows outbox (work.enqueue outbox p epoch revision now) := by
  cases work with
  | none => exact .refl ItemGrows.refl
  | listing => exact .refl ItemGrows.refl
  | evaluation => exact enqueued_extends
  | review => exact enqueued_extends.trans enqueued_extends ItemGrows.trans

theorem publications_extend {deliveryId : String} {order : List (GateId × Gate)} {now : Time} :
    Table.Extends ItemGrows outbox (order.foldl
      (fun outbox row => withPublication outbox row.1 (row.2.quarantinedBy deliveryId) now)
      outbox) := by
  induction order generalizing outbox with
  | nil => exact .refl ItemGrows.refl
  | cons row order ih => exact enqueued_extends.trans ih ItemGrows.trans

end

/-! ## Evidence -/

/-- The evidence of a pair's epoch. -/
def evidenceOf (rows : List EvidenceRecord) (p : PairId) (epoch : Nat) : List EvidenceRecord :=
  rows.filter fun row => row.pairId == p && row.pairEpoch == epoch

theorem evidenceOf_upserted {rows : List EvidenceRecord} {p q : PairId} {epoch epoch' : Nat}
    {evidence : EvidenceInput} (different : q ≠ p) :
    evidenceOf (upserted rows p epoch evidence) q epoch' = evidenceOf rows q epoch' := by
  have other : ∀ row : EvidenceRecord, row.pairId = q →
      row.sameSource p epoch evidence = false := by
    intro row same
    simp [EvidenceRecord.sameSource, same, different]
  unfold upserted
  split
  · rw [evidenceOf, Table.update, List.filter_map]
    have kept :
        rows.filter ((fun row : EvidenceRecord => row.pairId == q && row.pairEpoch == epoch') ∘
        fun row => if row.sameSource p epoch evidence && evidence.replaces row then
          { row with toEvidenceInput := evidence } else row) = evidenceOf rows q epoch' := by
      apply List.filter_congr
      intro row _
      rw [Function.comp_apply]
      split <;> rfl
    rw [kept]
    conv_rhs => rw [← List.map_id (evidenceOf rows q epoch')]
    apply List.map_congr_left
    intro row member
    have of := (List.mem_filter.mp member).2
    rw [Bool.and_eq_true, beq_iff_eq] at of
    rw [other row of.1]
    rfl
  · rw [evidenceOf, evidenceOf, List.filter_append]
    simp [Ne.symm different]

/-! ## Databases -/

structure Grows (db db' : Database) : Prop where
  pairs : Table.Extends PairGrows db.pairs db'.pairs
  gates : Table.Extends GateGrows db.gates db'.gates
  dispatches : Table.Extends DispatchGrows db.dispatches db'.dispatches
  outbox : Table.Extends ItemGrows db.outbox db'.outbox
  recorded : Recorded db db'
  evidence : ∀ {p : PairId} {pair pair' : Pair}, db.pairs[p]? = some pair →
    db'.pairs[p]? = some pair' → pair'.fence = pair.fence → pair'.lease ≠ none →
    evidenceOf db'.evidence p pair.epoch = evidenceOf db.evidence p pair.epoch

theorem Recorded.same {db db' : Database} (deliveries : db'.deliveries = db.deliveries)
    (collisions : db'.collisions = db.collisions) (generations : db'.generations = db.generations) :
    Recorded db db' where
  delivered := by
    intro deliveryId delivered
    rw [Delivered, deliveries]
    exact delivered
  generations := by
    intro repositoryId generation known
    rw [generations]
    exact ⟨generation, known, le_rfl⟩
  known := by
    intro event known
    rw [Known, deliveries, collisions]
    exact known
  filed := by
    intro filed
    refine ⟨deliveries ▸ filed.1, fun event member => ?_⟩
    rw [Delivered, deliveries]
    exact filed.2 event (collisions ▸ member)

namespace Grows

variable {db db' db'' : Database} {listed : Option Nat}

theorem refl (db : Database) : Grows db db where
  pairs := .refl PairGrows.refl
  gates := .refl GateGrows.refl
  dispatches := .refl DispatchGrows.refl
  outbox := .refl ItemGrows.refl
  recorded := .same rfl rfl rfl
  evidence _ _ _ _ := rfl

theorem trans (first : Grows db db') (second : Grows db' db'') : Grows db db'' where
  pairs := first.pairs.trans second.pairs PairGrows.trans
  gates := first.gates.trans second.gates GateGrows.trans
  dispatches := first.dispatches.trans second.dispatches DispatchGrows.trans
  outbox := first.outbox.trans second.outbox ItemGrows.trans
  recorded := by
    refine ⟨fun delivered => second.recorded.delivered (first.recorded.delivered delivered), ?_,
      fun known => second.recorded.known (first.recorded.known known),
      fun filed => second.recorded.filed (first.recorded.filed filed)⟩
    intro repositoryId generation known
    obtain ⟨later, known', le⟩ := first.recorded.generations known
    obtain ⟨last, known'', le'⟩ := second.recorded.generations known'
    exact ⟨last, known'', le.trans le'⟩
  evidence := by
    intro p pair pair'' found found'' same held
    obtain ⟨pair', found', grows⟩ := first.pairs.after found
    obtain ⟨_, there, grows'⟩ := second.pairs.after found'
    cases found''.symm.trans there
    have low := grows.fence
    have high := grows'.fence
    obtain ⟨lease, leased⟩ := Option.ne_none_iff_exists'.mp held
    obtain ⟨before, held', _, rfl⟩ := grows'.held (by omega) lease leased
    obtain ⟨_, _, _, rfl⟩ := grows.held (by omega) before held'
    have early := first.evidence found found' rfl (by simp)
    have late := second.evidence found' found'' rfl (by simp)
    exact late.trans early

theorem of_worker (change : WorkerChange db db') : Grows db db' := by
  have same := refl db
  cases change with
  | leasePair lease found _ _ =>
      refine { same with
        pairs := .put_found PairGrows.refl found ?_
        evidence := fun _ _ _ _ => rfl
        recorded := .same rfl rfl rfl }
      exact .of_fence ⟨rfl, rfl, rfl, rfl⟩ rfl (Nat.lt_succ_self _) id id
  | holdPair lease found holds =>
      refine { same with
        pairs := .put_found PairGrows.refl found ?_
        evidence := fun _ _ _ _ => rfl
        recorded := .same rfl rfl rfl }
      refine ⟨rfl, rfl, rfl, rfl, le_rfl, le_rfl, fun _ => id, fun _ => id, ?_⟩
      intro _ held here
      obtain ⟨before, old, owner⟩ := holds held here
      exact ⟨before, old, owner, by rw [← here]⟩
  | decide state summary now gated _ _ =>
      exact { same with
        gates := .put_found GateGrows.refl gated.gateAt
          (.of_revised rfl rfl (Nat.lt_succ_self _) (Nat.le_succ _))
        outbox := enqueued_extends
        evidence := fun _ _ _ _ => rfl, recorded := .same rfl rfl rfl }
  | plan now _ _ _ _ =>
      exact { same with
        dispatches := .put_end DispatchGrows.refl
        evidence := fun _ _ _ _ => rfl, recorded := .same rfl rfl rfl }
  | attempt found state =>
      refine { same with
        dispatches := .put_found DispatchGrows.refl found ?_
        evidence := fun _ _ _ _ => rfl
        recorded := .same rfl rfl rfl }
      refine ⟨rfl, rfl, ?_, fun sent => ?_⟩
      · rw [state]
        exact Nat.zero_le _
      · rw [state] at sent
        cases sent
  | adopt commentId dispatchedAt deadline found state =>
      refine { same with
        dispatches := .put_found DispatchGrows.refl found ?_
        evidence := fun _ _ _ _ => rfl
        recorded := .same rfl rfl rfl }
      refine ⟨rfl, rfl, ?_, fun sent => ?_⟩
      · rw [state]
        exact Nat.le_succ 1
      · rw [state] at sent
        cases sent
  | timeout deadline _ =>
      exact { same with
        outbox := enqueued_extends
        evidence := fun _ _ _ _ => rfl
        recorded := .same rfl rfl rfl }
  | leaseGate lease found =>
      exact { same with
        gates := .put_found GateGrows.refl found
          ⟨rfl, rfl, le_rfl, Nat.le_succ _, fun _ => ⟨rfl, rfl, id⟩⟩
        evidence := fun _ _ _ _ => rfl, recorded := .same rfl rfl rfl }
  | revise state summary checkRunId now found _ =>
      exact { same with
        gates := .put_found GateGrows.refl found
          (.of_revised rfl rfl (Nat.lt_succ_self _) (Nat.le_succ _))
        outbox := enqueued_extends
        evidence := fun _ _ _ _ => rfl, recorded := .same rfl rfl rfl }
  | publish checkRunId publishedState found =>
      exact { same with
        gates := .put_found GateGrows.refl found
          ⟨rfl, rfl, le_rfl, le_rfl, fun _ => ⟨rfl, rfl, fun _ => rfl⟩⟩
        evidence := fun _ _ _ _ => rfl, recorded := .same rfl rfl rfl }
  | item availableAt lease leaseFence completedAt found completed fence =>
      refine { same with
        outbox := .put_found ItemGrows.refl found ?_
        evidence := fun _ _ _ _ => rfl
        recorded := .same rfl rfl rfl }
      exact ⟨rfl, rfl, fence, fun done => absurd completed done⟩

theorem of_revocation {r : Revocation} {p : PairId} {pair : Pair} {g : GateId} {gate : Gate}
    (gated : Gated db p pair g gate) : Grows db (r.apply db p pair g gate) where
  pairs := .put_found PairGrows.refl gated.pairAt
    (.of_fence ⟨rfl, rfl, rfl, rfl⟩ rfl (Nat.lt_succ_self _)
      (fun inactive => absurd gated.pairActive (by simp [inactive]))
      fun quarantined none => quarantined (Option.or_eq_none_iff.mp none).2)
  gates := .put_found GateGrows.refl gated.gateAt
    (.of_revised rfl rfl (Nat.lt_succ_self _) (Nat.le_succ _))
  dispatches := by
    change Table.Extends DispatchGrows db.dispatches (r.dispatches db.dispatches p pair.epoch)
    rw [Revocation.dispatches]
    split
    · exact .update DispatchGrows.refl fun row _ => .abandon row
    · exact .refl DispatchGrows.refl
  outbox := enqueued_extends.trans Work.enqueue_extends ItemGrows.trans
  recorded := .same rfl rfl rfl
  evidence := by
    intro q other other' found found' same held
    change (Table.put db.pairs p (r.pair pair))[q]? = some other' at found'
    rw [Table.getElem?_put (Table.lt_length gated.pairAt).le] at found'
    split at found'
    · cases found'
      exact absurd rfl held
    · next different =>
        change evidenceOf (r.records db.evidence p pair.epoch) q other.epoch = _
        rw [Revocation.records]
        cases r.evidence with
        | none => rfl
        | some evidence => exact evidenceOf_upserted different

theorem of_start {repository : RepositoryRef} {pull : PullPairRef} {p : PairId}
    {epoch fence : Nat} {now : Time} (startable : Startable db repository pull p epoch fence) :
    Grows db (started db repository pull p epoch fence now) where
  pairs := by
    refine .put PairGrows.refl startable.place ?_
    intro pair found
    obtain ⟨isPull, base, head, older⟩ := startable.replaced pair found
    obtain ⟨repositoryId, number⟩ := Coupled.isPull_iff.mp isPull
    obtain ⟨_, epochs, _⟩ := startable.others p pair found isPull
    exact ⟨repositoryId.symm, number.symm, base.symm, head.symm, epochs.le, older.le,
      fun same => absurd same epochs.ne', fun same => absurd same epochs.ne',
      fun same => absurd same older.ne'⟩
  gates := .put_end GateGrows.refl
  dispatches := .refl DispatchGrows.refl
  outbox := enqueued_extends.trans Work.enqueue_extends ItemGrows.trans
  recorded := .same rfl rfl rfl
  evidence _ _ _ _ := rfl

theorem of_merge {g : GateId} {gate : Gate} {now : Time} (merge : MergeGate db g gate) :
    Grows db { db with
      gates := Table.put db.gates g gate, outbox := withPublication db.outbox g gate now } where
  pairs := .refl PairGrows.refl
  gates := by
    refine .put GateGrows.refl merge.place ?_
    intro old found
    obtain ⟨group, epoch, revision, _, fence⟩ := merge.revised old found
    exact .of_revised (merge.group.trans group.symm) epoch (by omega) fence.le
  dispatches := .refl DispatchGrows.refl
  outbox := enqueued_extends
  recorded := .same rfl rfl rfl
  evidence _ _ _ _ := rfl

theorem of_quarantine {deliveryId : String} {order : List (GateId × Gate)} {now : Time} :
    Grows db (quarantinedAll db deliveryId order now) where
  pairs := by
    refine .update PairGrows.refl fun pair _ => ?_
    exact .of_fence ⟨rfl, rfl, rfl, rfl⟩ rfl (Nat.lt_succ_self _) id fun _ => nofun
  gates := .update GateGrows.refl fun gate _ =>
    .of_revised rfl rfl (Nat.lt_succ_self _) (Nat.le_succ _)
  dispatches := .update DispatchGrows.refl fun row _ => .abandon row
  outbox := publications_extend
  recorded := .same rfl rfl rfl
  evidence _ _ _ _ := rfl

theorem of_event (change : EventChange listed db db') : Grows db db' := by
  have same := refl db
  cases change with
  | record deliveries collisions generations recorded =>
      exact ⟨same.pairs, same.gates, same.dispatches, same.outbox, recorded, fun _ _ _ _ => rfl⟩
  | revoke r gated _ => exact of_revocation gated
  | start repository pull epoch fence now startable => exact of_start startable
  | merge gate now merge => exact of_merge merge
  | evaluate now _ =>
      exact { same with
        outbox := enqueued_extends
        evidence := fun _ _ _ _ => rfl
        recorded := .same rfl rfl rfl }
  | reconcile repository deliveryId now _ =>
      exact { same with
        outbox := enqueued_extends
        evidence := fun _ _ _ _ => rfl
        recorded := .same rfl rfl rfl }
  | quarantine deliveryId order now _ => exact of_quarantine

theorem of_change (change : Change listed db db') : Grows db db' := by
  rcases change with event | worker
  · exact of_event event
  · exact of_worker worker

theorem of_steps (steps : Steps listed db db') : Grows db db' := by
  induction steps with
  | refl => exact refl db
  | tail _ change ih => exact ih.trans (of_change change)

end Grows

end Stratadiff.Governor
