import Stratadiff.Governor.Delivery

/-!
# Destroyed merge groups

GitHub may destroy a merge group before it asks for its checks. An event of a destroyed
head leaves an ended gate of the head behind. While there is one and all gates of the head
have ended, no change makes a gate of the head active again, so the head stays destroyed
in every run.
-/

namespace Stratadiff.Governor

open Transaction

variable {db db' : Database} {listed : Option Nat}
variable {repositoryId : Nat} {headRef headSha : String}

/-- The gates of one head of a merge group. -/
def Gate.atHead (gate : Gate) (repositoryId : Nat) (headRef headSha : String) : Bool :=
  gate.inGroup repositoryId headRef && gate.headSha == headSha

theorem Gate.atHead_iff {gate : Gate} : gate.atHead repositoryId headRef headSha = true ↔
    gate.inGroup repositoryId headRef = true ∧ gate.headSha = headSha := by
  simp [Gate.atHead]

/-- A head of a merge group has a gate, and its gates have ended. -/
structure Tombstone (db : Database) (repositoryId : Nat) (headRef headSha : String) : Prop where
  buried : ∃ (g : GateId) (gate : Gate), db.gates[g]? = some gate ∧
    gate.atHead repositoryId headRef headSha = true
  ended : ∀ (g : GateId) (gate : Gate), db.gates[g]? = some gate →
    gate.atHead repositoryId headRef headSha = true → gate.active = false

/-! ## What keeps a tombstone -/

/-- A gate of the same head that has not become active. -/
structure HeadKeeps (old new : Gate) : Prop where
  repository : new.repositoryId = old.repositoryId
  subject : new.subject = old.subject
  head : new.headSha = old.headSha
  active : new.active = true → old.active = true

theorem HeadKeeps.refl (gate : Gate) : HeadKeeps gate gate := ⟨rfl, rfl, rfl, id⟩

theorem HeadKeeps.atHead {old new : Gate} (h : HeadKeeps old new) :
    new.atHead repositoryId headRef headSha = old.atHead repositoryId headRef headSha := by
  rw [Gate.atHead, Gate.atHead, Gate.inGroup, Gate.inGroup, h.repository, h.subject, h.head]

namespace Tombstone

theorem of_rows (tombstone : Tombstone db repositoryId headRef headSha)
    (rows : Table.Rowwise HeadKeeps db.gates db'.gates) :
    Tombstone db' repositoryId headRef headSha where
  buried := by
    obtain ⟨g, gate, found, atHead⟩ := tombstone.buried
    obtain ⟨gate', after, keeps⟩ := rows.after found
    exact ⟨g, gate', after, keeps.atHead.trans atHead⟩
  ended := by
    intro g gate' found atHead
    obtain ⟨gate, before, keeps⟩ := rows.before found
    have was := tombstone.ended g gate before (keeps.atHead.symm.trans atHead)
    exact Bool.eq_false_iff.mpr fun active => by simp [keeps.active active] at was

/-- A gate that is put in leaves a tombstone alone unless it is an active one of the head. -/
theorem of_put (tombstone : Tombstone db repositoryId headRef headSha) {g : GateId} {gate : Gate}
    (place : g ≤ db.gates.length) (gates : db'.gates = Table.put db.gates g gate)
    (kept : ∀ old, db.gates[g]? = some old → HeadKeeps old gate)
    (other : gate.atHead repositoryId headRef headSha = true → gate.active = true →
      g ≠ db.gates.length) : Tombstone db' repositoryId headRef headSha where
  buried := by
    obtain ⟨h, old, found, atHead⟩ := tombstone.buried
    rw [gates]
    by_cases here : h = g
    · subst here
      refine ⟨h, gate, ?_, (kept old found).atHead.trans atHead⟩
      rw [Table.getElem?_put place, if_pos rfl]
    · refine ⟨h, old, ?_, atHead⟩
      rw [Table.getElem?_put place, if_neg here]
      exact found
  ended := by
    intro h gate' found atHead
    rw [gates, Table.getElem?_put place] at found
    split at found
    · next here =>
        cases found
        refine Bool.eq_false_iff.mpr fun active => ?_
        -- An active gate at the place of an old one was active before.
        have inside := place.lt_of_ne (other atHead active)
        have old := List.getElem?_eq_getElem inside
        have keeps := kept _ old
        have was := tombstone.ended g _ old (keeps.atHead.symm.trans atHead)
        simp [keeps.active active] at was
    · exact tombstone.ended h gate' found atHead

theorem of_event (tombstone : Tombstone db repositoryId headRef headSha)
    (change : EventChange listed db db') : Tombstone db' repositoryId headRef headSha := by
  cases change with
  | record _ _ _ _ => exact ⟨tombstone.buried, tombstone.ended⟩
  | revoke r gated _ =>
      exact tombstone.of_rows
        (.put HeadKeeps.refl gated.gateAt ⟨rfl, rfl, rfl, fun _ => gated.gateActive⟩)
  | start repository pull epoch fence now startable =>
      refine tombstone.of_put le_rfl rfl ?_ ?_
      · intro old found
        exact absurd rfl (Table.lt_length found).ne
      · intro atHead
        have subject := (Gate.inGroup_iff.mp (Gate.atHead_iff.mp atHead).1).2
        cases subject
  | merge gate now merge =>
      refine tombstone.of_put merge.place rfl ?_ ?_
      · intro old found
        obtain ⟨repository, subject, head, active⟩ := merge.kept old found
        exact ⟨repository, subject, head, active⟩
      · -- The head of the tombstone has a gate, so no other one starts.
        intro atHead active last
        obtain ⟨h, old, found, oldHead⟩ := tombstone.buried
        obtain ⟨inGroup, head⟩ := Gate.atHead_iff.mp atHead
        obtain ⟨oldGroup, oldSha⟩ := Gate.atHead_iff.mp oldHead
        obtain ⟨repository, subject⟩ := Gate.inGroup_iff.mp inGroup
        obtain ⟨oldRepository, oldSubject⟩ := Gate.inGroup_iff.mp oldGroup
        exact (merge.fresh last active h old found (oldRepository.trans repository.symm)
          (oldSubject.trans subject.symm)).2 (oldSha.trans head.symm)
  | evaluate _ _ => exact ⟨tombstone.buried, tombstone.ended⟩
  | reconcile _ _ _ _ => exact ⟨tombstone.buried, tombstone.ended⟩
  | quarantine deliveryId order now _ =>
      exact tombstone.of_rows (.update (fun _ _ => ⟨rfl, rfl, rfl, id⟩) HeadKeeps.refl)

theorem of_worker (tombstone : Tombstone db repositoryId headRef headSha)
    (change : WorkerChange db db') : Tombstone db' repositoryId headRef headSha := by
  have same : Table.Rowwise HeadKeeps db.gates db.gates := .refl HeadKeeps.refl
  have put : ∀ {g : GateId} {gate gate' : Gate}, db.gates[g]? = some gate →
      HeadKeeps gate gate' → Table.Rowwise HeadKeeps db.gates (Table.put db.gates g gate') :=
    fun found keeps => .put HeadKeeps.refl found keeps
  cases change with
  | leasePair _ _ _ _ => exact tombstone.of_rows same
  | holdPair _ _ _ => exact tombstone.of_rows same
  | decide _ _ _ gated _ _ => exact tombstone.of_rows (put gated.gateAt ⟨rfl, rfl, rfl, id⟩)
  | plan _ _ _ _ _ => exact tombstone.of_rows same
  | attempt _ _ => exact tombstone.of_rows same
  | adopt _ _ _ _ _ => exact tombstone.of_rows same
  | timeout _ _ => exact tombstone.of_rows same
  | leaseGate _ found => exact tombstone.of_rows (put found ⟨rfl, rfl, rfl, id⟩)
  | revise _ _ _ _ found _ => exact tombstone.of_rows (put found ⟨rfl, rfl, rfl, id⟩)
  | publish _ _ found => exact tombstone.of_rows (put found ⟨rfl, rfl, rfl, id⟩)
  | item _ _ _ _ _ _ _ => exact tombstone.of_rows same

theorem of_change (tombstone : Tombstone db repositoryId headRef headSha)
    (change : Change listed db db') : Tombstone db' repositoryId headRef headSha := by
  rcases change with event | worker
  · exact tombstone.of_event event
  · exact tombstone.of_worker worker

end Tombstone

/-! ## What a destroyed event leaves behind -/

/-- A new gate of a destroyed head is a tombstone where the head has no active gate. -/
theorem createMergeGate_buries {repository : RepositoryRef} {baseSha : String} {receivedAt : Time}
    (ended : ∀ (h : GateId) (other : Gate), db.gates[h]? = some other →
      other.atHead repository.repositoryId headRef headSha = true → other.active = false) :
    Commits (createMergeGate repository headSha baseSha headRef false .cancelled destroyedSummary
      receivedAt) db fun _ db' => Tombstone db' repository.repositoryId headRef headSha := by
  rw [createMergeGate]
  refine .bind (.get (.bind (.of_eq rfl (.bind (.of_eq rfl (.pure ⟨?_, ?_⟩))))))
  · refine ⟨db.gates.length, _, (Table.getElem?_put le_rfl).trans (if_pos rfl), ?_⟩
    exact Gate.atHead_iff.mpr ⟨Gate.inGroup_iff.mpr ⟨rfl, rfl⟩, rfl⟩
  · intro h other found atHead
    change (Table.put db.gates db.gates.length _)[h]? = some other at found
    rw [Table.getElem?_put le_rfl] at found
    split at found
    · cases found
      rfl
    · exact ended h other found atHead

theorem applyMergeGroup_buries {repository : RepositoryRef} {baseSha : String} {receivedAt : Time}
    (coupled : Coupled db) :
    Commits (applyMergeGroup repository .destroyed headSha baseSha headRef receivedAt) db
      fun _ db' => Tombstone db' repository.repositoryId headRef headSha := by
  rw [applyMergeGroup]
  refine .bind (.get ?_)
  dsimp only
  -- Without an active gate of the head, the latest gate of the head or a new one is there.
  have unheld : (∀ (h : GateId) (other : Gate), db.gates[h]? = some other →
        other.atHead repository.repositoryId headRef headSha = true → other.active = false) →
      Commits (if (latestGate (Table.select db.gates fun gate =>
          gate.inGroup repository.repositoryId headRef && gate.headSha == headSha)).isSome
        then pure stale
        else createMergeGate repository headSha baseSha headRef false .cancelled destroyedSummary
          receivedAt) db fun _ db' => Tombstone db' repository.repositoryId headRef headSha := by
    intro ended
    split
    · next known =>
        obtain ⟨latest, same⟩ := Option.isSome_iff_exists.mp known
        obtain ⟨found, atHead⟩ := Table.mem_select.mp (mem_of_latestGate same)
        exact .pure ⟨⟨_, _, found, atHead⟩, ended⟩
    · exact createMergeGate_buries ended
  cases current : Table.first db.gates (fun gate =>
      (gate.repositoryId == repository.repositoryId && gate.subject == .mergeGroup headRef) &&
        gate.active) with
  | none =>
      refine unheld fun h other found atHead => ?_
      have fails := Table.first_eq_none current found
      exact (Bool.and_eq_false_iff.mp fails).resolve_left
        (ne_false_of_eq_true (Gate.atHead_iff.mp atHead).1)
  | some row =>
      obtain ⟨g, gate⟩ := row
      obtain ⟨found, holds⟩ := Table.first_eq_some current
      have only : ∀ {h : GateId} {other : Gate}, db.gates[h]? = some other →
          other.atHead repository.repositoryId headRef headSha = true → other.active = true →
            h = g := fun otherAt atHead active =>
        coupled.only_merge found holds otherAt (Gate.atHead_iff.mp atHead).1 active
      cases head : gate.headSha == headSha with
      | true =>
          rw [Option.filter_some, if_pos head]
          refine .of_eq (reviseMergeGate_eq found) ⟨?_, ?_⟩
          · refine ⟨g, _, Table.put_here found, Gate.atHead_iff.mpr ⟨?_, eq_of_beq head⟩⟩
            exact (Bool.and_eq_true_iff.mp holds).1
          · intro h other otherAt atHead
            change (Table.put db.gates g _)[h]? = some other at otherAt
            rw [Table.getElem?_put (Table.lt_length found).le] at otherAt
            split at otherAt
            · cases otherAt
              rfl
            · next apart =>
                exact Bool.eq_false_iff.mpr fun active => apart (only otherAt atHead active)
      | false =>
          rw [Option.filter_some, if_neg (by simp [head])]
          refine unheld fun h other otherAt atHead => ?_
          refine Bool.eq_false_iff.mpr fun active => ?_
          cases only otherAt atHead active
          cases otherAt.symm.trans found
          simp [(Gate.atHead_iff.mp atHead).2] at head

/-- A new delivery of a destroyed event leaves a tombstone. -/
theorem ingest_buries {request : IngestRequest} {repository : RepositoryRef} {baseSha : String}
    (coupled : Coupled db) (undelivered : ¬ Delivered db request.deliveryId)
    (impact : request.impact = .mergeGroup repository .destroyed headSha baseSha headRef) :
    Commits (ingest request) db fun _ db' =>
      Tombstone db' repository.repositoryId headRef headSha := by
  have claimed : Coupled { db with deliveries := db.deliveries ++
      [⟨request.deliveryId, request.eventName, request.payloadSha256, none⟩] } :=
    coupled.of_rowwise Coupled.samePairs Coupled.sameGates
  rw [ingest]
  refine .bind (.of_eq (@claimDelivery_new _ ⟨_, _, _⟩ undelivered) ?_)
  dsimp only
  rw [applyImpact, impact]
  refine .bind ((applyMergeGroup_buries claimed).mono ?_)
  intro outcome db' tombstone
  exact .bind (.of_eq rfl (.pure ⟨tombstone.buried, tombstone.ended⟩))

/-! ## Runs -/

/-- An event that destroys a head of a merge group. -/
def GithubImpact.destroys (impact : GithubImpact) (repositoryId : Nat) (headRef headSha : String) :
    Bool :=
  match impact with
  | .mergeGroup repository action sha _ ref =>
      repository.repositoryId == repositoryId && action == .destroyed && ref == headRef &&
        sha == headSha
  | _ => false

/-- The ingest of an event that destroys a head of a merge group. -/
def Entry.destroys (entry : Entry) (repositoryId : Nat) (headRef headSha : String) : Bool :=
  match entry.event with
  | .ingested request _ => request.impact.destroys repositoryId headRef headSha
  | _ => false

/-- The ingest of an event under a delivery id that was not used before. -/
def Entry.firstDelivery (entry : Entry) : Bool :=
  match entry.event with
  | .ingested request _ => !entry.before.deliveries.any (·.deliveryId == request.deliveryId)
  | _ => false

theorem buries_of_destroys {entry : Entry}
    (destroys : entry.destroys repositoryId headRef headSha = true)
    (new : entry.firstDelivery = true) (standing : Standing entry.before) (holds : entry.Holds) :
    Tombstone entry.after repositoryId headRef headSha := by
  obtain ⟨event, before, after⟩ := entry
  cases event with
  | ingested request result =>
      have undelivered : ¬ Delivered before request.deliveryId := by
        rintro ⟨row, member, same⟩
        simp only [Entry.firstDelivery, Bool.not_eq_true', List.any_eq_false] at new
        exact new row member (beq_iff_eq.mpr same)
      cases impact : request.impact with
      | mergeGroup repository action sha baseSha ref =>
          simp only [Entry.destroys, impact, GithubImpact.destroys, Bool.and_eq_true,
            beq_iff_eq] at destroys
          obtain ⟨⟨⟨rfl, rfl⟩, rfl⟩, rfl⟩ := destroys
          exact (ingest_buries standing.sound.coupled undelivered impact).of_ok holds
      | _ => simp [Entry.destroys, impact, GithubImpact.destroys] at destroys
  | _ => simp [Entry.destroys] at destroys

variable {setup : Setup} {permits : Policy} {c : Config setup permits}

/-- Destroyed heads stay destroyed: in every configuration of a run after a destroyed event of
a merge group's head was ingested under a new delivery id, whatever was ingested before or
since, no gate of the head is active. -/
theorem merge_group_stays_destroyed {entry : Entry} (reachable : Reachable c)
    (member : entry ∈ c.state.log)
    (destroys : entry.destroys repositoryId headRef headSha = true)
    (new : entry.firstDelivery = true)
    (g : GateId) (gate : Gate) (found : c.state.database.gates[g]? = some gate)
    (repository : gate.repositoryId = repositoryId) (subject : gate.subject = .mergeGroup headRef)
    (head : gate.headSha = headSha) : gate.active = false := by
  obtain ⟨newer, older, log⟩ := List.append_of_mem member
  have logged := reachable.logged
  rw [log] at logged
  obtain ⟨before, holds⟩ := logged.entry
  have tombstone : Tombstone c.state.database repositoryId headRef headSha :=
    logged.keeps_since (P := fun db => Tombstone db repositoryId headRef headSha)
      (fun _ change tombstone => tombstone.of_change change)
      (buries_of_destroys destroys new before.standing holds)
  exact tombstone.ended g gate found
    (Gate.atHead_iff.mpr ⟨Gate.inGroup_iff.mpr ⟨repository, subject⟩, head⟩)

/-- A merge group is destroyed before GitHub asks for its checks. -/
theorem merge_group_stays_destroyed_sample : ∃ (c : Config Sample.setup .any) (gate : Gate),
    Reachable c ∧ c.state.log.length = 2 ∧ c.state.database.gates[0]? = some gate ∧
      gate.atHead 7 "queue" "h0" = true ∧ gate.active = false := by
  have run : ∃ c : Config Sample.setup .any, Reachable c ∧
      (c.state.log.length == 2 &&
        c.state.log.any (fun entry => entry.destroys 7 "queue" "h0" && entry.firstDelivery) &&
        c.state.database.gates[0]?.any (·.atHead 7 "queue" "h0")) = true :=
    reachable_of_exec [
      .ingest ⟨"d1", "merge_group", "s1", 1000,
        .mergeGroup Sample.repository .destroyed "h0" "b0" "queue"⟩,
      .ingest ⟨"d2", "merge_group", "s2", 2000,
        .mergeGroup Sample.repository .checksRequested "h0" "b0" "queue"⟩] _ (by decide +kernel)
  obtain ⟨c, reachable, check⟩ := run
  simp only [Bool.and_eq_true, beq_iff_eq] at check
  obtain ⟨⟨two, logged⟩, known⟩ := check
  obtain ⟨entry, member, holds⟩ := List.any_eq_true.mp logged
  obtain ⟨destroys, new⟩ := Bool.and_eq_true_iff.mp holds
  obtain ⟨gate, found, atHead⟩ := (Option.any_eq_true _ _).mp known
  obtain ⟨inGroup, head⟩ := Gate.atHead_iff.mp atHead
  obtain ⟨repository, subject⟩ := Gate.inGroup_iff.mp inGroup
  exact ⟨c, gate, reachable, two, found, atHead,
    merge_group_stays_destroyed reachable member destroys new 0 gate found repository subject head⟩

/-- A destroyed event under the delivery id of the request for checks is a collision: it is
ingested, and the gate of the head stays active. -/
theorem merge_group_survives_collision : ∃ (c : Config Sample.setup .any) (entry : Entry)
    (gate : Gate), Reachable c ∧ entry ∈ c.state.log ∧ entry.destroys 7 "queue" "h0" = true ∧
      c.state.database.gates[0]? = some gate ∧ gate.repositoryId = 7 ∧
      gate.subject = .mergeGroup "queue" ∧ gate.headSha = "h0" ∧ gate.active = true := by
  have run : ∃ c : Config Sample.setup .any, Reachable c ∧
      (c.state.log.any (·.destroys 7 "queue" "h0") &&
        c.state.database.gates[0]?.any fun gate =>
          gate.atHead 7 "queue" "h0" && gate.active) = true :=
    reachable_of_exec [
      .ingest ⟨"d1", "merge_group", "s1", 1000,
        .mergeGroup Sample.repository .checksRequested "h0" "b0" "queue"⟩,
      .ingest ⟨"d1", "merge_group", "s2", 2000,
        .mergeGroup Sample.repository .destroyed "h0" "b0" "queue"⟩] _ (by decide +kernel)
  obtain ⟨c, reachable, check⟩ := run
  obtain ⟨logged, known⟩ := Bool.and_eq_true_iff.mp check
  obtain ⟨entry, member, destroys⟩ := List.any_eq_true.mp logged
  obtain ⟨gate, found, holds⟩ := (Option.any_eq_true _ _).mp known
  obtain ⟨atHead, active⟩ := Bool.and_eq_true_iff.mp holds
  obtain ⟨inGroup, head⟩ := Gate.atHead_iff.mp atHead
  obtain ⟨repository, subject⟩ := Gate.inGroup_iff.mp inGroup
  exact ⟨c, entry, gate, reachable, member, destroys, found, repository, subject, head, active⟩

end Stratadiff.Governor
