import Stratadiff.Governor.Revocations

/-!
# What whole events do

Every ingest and every applied listing is a chain of changes. It never fails in a
coupled database, and it ends the leases and the successes of the pairs that it is about.
-/

namespace Stratadiff.Governor

open Transaction

variable {db db' : Database} {listed : Option Nat} {p : PairId}

/-! ## Pairs whose leases and successes have ended -/

/-- No worker holds the pair, and its gate is not a success. -/
structure Cleared (db : Database) (p : PairId) : Prop where
  lease : ∀ {pair}, db.pairs[p]? = some pair → pair.lease = none
  gate : ∀ {g : GateId} {gate : Gate}, db.gates[g]? = some gate → gate.pairId = some p →
    gate.active = true → gate.desiredState ≠ .success

theorem GateState.ne_success {state : GateState} (h : state = .revoked ∨ state = .failure) :
    state ≠ .success := by
  rcases h with rfl | rfl <;> decide

theorem Cleared.of_revocation {pair : Pair} {g : GateId} {gate : Gate} {r : Revocation}
    {q : PairId} (gated : Gated db q pair g gate) (fits : r.Fits listed pair)
    (h : q = p ∧ OnlyGate db.gates p g gate ∨ Cleared db p) :
    Cleared (r.apply db q pair g gate) p where
  lease := by
    intro pair' found
    rw [Revocation.apply, Table.getElem?_put (Table.lt_length gated.pairAt).le] at found
    split at found
    · cases found
      rfl
    · next other =>
        rcases h with ⟨rfl, _⟩ | cleared
        · exact absurd rfl other
        · exact cleared.lease found
  gate := by
    intro k gate' found bound active
    rw [Revocation.apply, Table.getElem?_put (Table.lt_length gated.gateAt).le] at found
    split at found
    · cases found
      exact GateState.ne_success fits.decided
    · next other =>
        rcases h with ⟨rfl, only⟩ | cleared
        · exact absurd (only.only k gate' found bound active) other
        · exact cleared.gate found bound active

theorem Cleared.of_event (cleared : Cleared db p) (change : EventChange listed db db') :
    Cleared db' p := by
  cases change with
  | record _ _ _ _ => exact ⟨cleared.lease, cleared.gate⟩
  | revoke r gated fits => exact .of_revocation gated fits (.inr cleared)
  | start repository pull epoch fence now startable =>
      constructor
      · intro pair found
        rw [Coupled.started_pairs startable] at found
        split at found
        · cases found
          rfl
        · exact cleared.lease found
      · intro g gate found bound active
        rw [Coupled.started_gates] at found
        split at found
        · cases found
          simp only [newPairGate]
          split <;> decide
        · exact cleared.gate found bound active
  | merge gate now merge =>
      refine ⟨cleared.lease, ?_⟩
      intro g gate' found bound active
      rw [Table.getElem?_put merge.place] at found
      split at found
      · cases found
        exact merge.state
      · exact cleared.gate found bound active
  | evaluate _ _ => exact ⟨cleared.lease, cleared.gate⟩
  | reconcile _ _ _ _ => exact ⟨cleared.lease, cleared.gate⟩
  | quarantine deliveryId order now _ =>
      constructor
      · intro pair found
        obtain ⟨pair₀, before, related⟩ := Table.Rowwise.before (R := fun old new : Pair =>
          old.lease = none → new.lease = none)
          (.update (fun _ _ _ => rfl) fun _ kept => kept) found
        exact related (cleared.lease before)
      · intro g gate found bound active
        rw [quarantinedAll, Table.getElem?_update] at found
        obtain ⟨gate₀, before, rfl⟩ := Option.map_eq_some_iff.mp found
        by_cases was : gate₀.active = true
        · rw [if_pos was]
          exact GateState.ne_success (.inr rfl)
        · rw [if_neg was] at active
          exact absurd active was

theorem Cleared.of_steps (cleared : Cleared db p) (steps : EventSteps listed db db') :
    Cleared db' p := by
  induction steps with
  | refl => exact cleared
  | tail _ change ih => exact ih.of_event change

/-! ## Chains of changes -/

/-- A part of an event that records no delivery. -/
structure Applied (listed : Option Nat) (db db' : Database) : Prop where
  steps : EventSteps listed db db'
  coupled : Coupled db'
  archive : db'.archive = db.archive

namespace Applied

theorem deliveries (h : Applied listed db db') : db'.deliveries = db.deliveries :=
  congrArg Prod.fst h.archive

theorem refl (coupled : Coupled db) : Applied listed db db := ⟨.refl, coupled, rfl⟩

theorem tail {db'' : Database} (h : Applied listed db db') (change : EventChange listed db' db'')
    (archive : db''.archive = db'.archive) : Applied listed db db'' :=
  ⟨h.steps.tail change, h.coupled.of_event change, archive.trans h.archive⟩

theorem one (coupled : Coupled db) (change : EventChange listed db db')
    (archive : db'.archive = db.archive) : Applied listed db db' :=
  (refl coupled).tail change archive

theorem trans {db'' : Database} (h : Applied listed db db') (h' : Applied listed db' db'') :
    Applied listed db db'' :=
  ⟨Relation.ReflTransGen.trans h.steps h'.steps, h'.coupled, h'.archive.trans h.archive⟩

end Applied

/-- The rows that a loop over pairs still has to come to. -/
structure Ahead (db : Database) (rows : List (PairId × Pair)) : Prop where
  found : ∀ row ∈ rows, db.pairs[row.1]? = some row.2
  active : ∀ row ∈ rows, row.2.active = true
  nodup : (rows.map Prod.fst).Nodup

theorem ahead_select (condition : Pair → Bool)
    (active : ∀ pair, condition pair = true → pair.active = true) {rows : List (PairId × Pair)}
    (perm : rows.Perm (Table.select db.pairs condition)) : Ahead db rows where
  found _ member := (Table.mem_select.mp (perm.mem_iff.mp member)).1
  active _ member := active _ (Table.mem_select.mp (perm.mem_iff.mp member)).2
  nodup := (perm.map Prod.fst).nodup_iff.mpr Table.select_places_nodup

/-- A loop that revokes the pairs it comes to, or passes over some of them. -/
theorem revoke_loop {β : Type} {rows : List (PairId × Pair)} {body : β → PairId × Pair → Tx β}
    {init : β} (listed : Option Nat) (passed : PairId × Pair → Prop) (coupled : Coupled db)
    (ahead : Ahead db rows)
    (unit : ∀ {db : Database} {row : PairId × Pair} {g : GateId} {gate : Gate} (acc : β),
      row ∈ rows → Coupled db → Gated db row.1 row.2 g gate →
      (passed row ∧ ∃ acc', body acc row db = .ok (acc', db)) ∨
        ∃ r acc', Revocation.Fits r listed row.2 ∧
          body acc row db = .ok (acc', r.apply db row.1 row.2 g gate)) :
    Commits (rows.foldlM body init) db fun _ db' =>
      Applied listed db db' ∧ ∀ row ∈ rows, ¬ passed row → Cleared db' row.1 := by
  -- The invariant: the rows ahead are as they were, and those behind are cleared.
  refine (Commits.foldlM (fun rest _ db' => Applied listed db db' ∧ Ahead db' rest ∧
    rest ⊆ rows ∧ ∀ row ∈ rows, row ∉ rest → ¬ passed row → Cleared db' row.1)
    ⟨.refl coupled, ahead, List.Subset.refl _, fun row member out => absurd member out⟩
    ?_).mono ?_
  · rintro row rest acc db₁ ⟨applied, ahead₁, subset, cleared⟩
    have here : row ∈ rows := subset List.mem_cons_self
    have pairAt := ahead₁.found row List.mem_cons_self
    have active := ahead₁.active row List.mem_cons_self
    have distinct := List.nodup_cons.mp ahead₁.nodup
    obtain ⟨g, gate, gated⟩ := applied.coupled.gated pairAt active
    have tail_ahead : ∀ {db₂ : Database}, (∀ q, q ≠ row.1 → db₂.pairs[q]? = db₁.pairs[q]?) →
        Ahead db₂ rest := by
      intro db₂ same
      refine ⟨fun other member => ?_, fun other member =>
        ahead₁.active other (List.mem_cons_of_mem _ member), distinct.2⟩
      rw [same other.1 ?_]
      · exact ahead₁.found other (List.mem_cons_of_mem _ member)
      · intro equal
        exact distinct.1 (equal ▸ List.mem_map_of_mem member)
    rcases unit acc here applied.coupled gated with ⟨passes, acc', run⟩ | ⟨r, acc', fits, run⟩
    · refine .of_eq run ⟨applied, tail_ahead fun _ _ => rfl,
        fun other member => subset (List.mem_cons_of_mem _ member), ?_⟩
      intro other member out notPassed
      by_cases same : other = row
      · subst same
        exact absurd passes notPassed
      · exact cleared other member (by simp [same, out]) notPassed
    · refine .of_eq run ⟨applied.tail (.revoke r gated fits) rfl, tail_ahead ?_,
        fun other member => subset (List.mem_cons_of_mem _ member), ?_⟩
      · intro q different
        rw [Revocation.apply, Table.getElem?_put (Table.lt_length gated.pairAt).le,
          if_neg different]
      · intro other member out notPassed
        by_cases same : other = row
        · subst same
          exact .of_revocation gated fits (.inl ⟨rfl, applied.coupled.onlyGate gated⟩)
        · exact .of_revocation gated fits
            (.inr (cleared other member (by simp [same, out]) notPassed))
  · rintro _ db₁ ⟨applied, _, _, cleared⟩
    exact ⟨applied, fun row member => cleared row member (by simp)⟩

/-! ## Evidence -/

theorem activePair_eq_some {repositoryId number : Nat} {pair : Pair}
    (h : activePair db repositoryId number = some (p, pair)) :
    db.pairs[p]? = some pair ∧ pair.isPull repositoryId number = true ∧ pair.active = true := by
  obtain ⟨found, holds⟩ := Table.first_eq_some h
  exact ⟨found, Bool.and_eq_true_iff.mp holds⟩

theorem activePair_eq_none {repositoryId number : Nat} {pair : Pair}
    (h : activePair db repositoryId number = none) (found : db.pairs[p]? = some pair)
    (isPull : pair.isPull repositoryId number = true) : pair.active = false := by
  have fails := Table.first_eq_none h found
  rw [isPull, Bool.true_and] at fails
  exact fails

/-- The active pair of a pull request is the one that the store finds. -/
theorem Coupled.active_unique (coupled : Coupled db) {repositoryId number : Nat} {q : PairId}
    {pair other : Pair} (h : activePair db repositoryId number = some (p, pair))
    (found : db.pairs[q]? = some other) (isPull : other.isPull repositoryId number = true)
    (active : other.active = true) : q = p := by
  obtain ⟨pairAt, pairPull, pairActive⟩ := activePair_eq_some h
  refine coupled.onePair found pairAt active pairActive ?_
  have left := Coupled.isPull_iff.mp isPull
  have right := Coupled.isPull_iff.mp pairPull
  exact ⟨left.1.trans right.1.symm, left.2.trans right.2.symm⟩

/-- What an event does, and the pairs whose leases and successes it ends if it is applied. -/
def Handles (listed : Option Nat) (db : Database) (about : Pair → Prop) (outcome : Outcome)
    (db' : Database) : Prop :=
  Applied listed db db' ∧ (outcome.1 = .applied → ∀ {q : PairId} {pair : Pair},
    db.pairs[q]? = some pair → pair.active = true → pair.quarantine = none → about pair →
      Cleared db' q)

theorem Handles.stale {about : Pair → Prop} (coupled : Coupled db) :
    Handles listed db about Governor.stale db :=
  ⟨.refl coupled, nofun⟩

theorem Pair.quarantined_eq_false {pair : Pair} :
    pair.quarantined = false ↔ pair.quarantine = none := by
  simp [Pair.quarantined]

theorem admitEvidence_change {pair : Pair} {g : GateId} {gate : Gate} (listed : Option Nat)
    (evidence : EvidenceInput) (receivedAt : Time) (coupled : Coupled db)
    (gated : Gated db p pair g gate) (free : pair.quarantine = none) :
    (revisit pair (some evidence) .evaluation receivedAt).Fits listed pair ∧
      admitEvidence p pair.epoch evidence receivedAt db =
        .ok (g, (revisit pair (some evidence) .evaluation receivedAt).apply db p pair g gate) :=
  ⟨revisit_fits coupled gated free (by simp) (by simp), admitEvidence_eq coupled gated⟩

theorem applyPullEvidence_handles {repository : RepositoryRef} {pullNumber : Nat}
    {expectedHeadSha : Option String} {evidence : EvidenceInput} {receivedAt : Time}
    (coupled : Coupled db) :
    Commits (applyPullEvidence repository pullNumber expectedHeadSha evidence receivedAt) db
      (Handles listed db fun pair => pair.isPull repository.repositoryId pullNumber = true) := by
  rw [applyPullEvidence]
  refine .bind (.get ?_)
  cases current : activePair db repository.repositoryId pullNumber with
  | none => exact .pure (.stale coupled)
  | some row =>
      obtain ⟨q, pair⟩ := row
      obtain ⟨pairAt, _, active⟩ := activePair_eq_some current
      dsimp only
      split
      · exact .pure (.stale coupled)
      · next eligible =>
          have free : pair.quarantine = none := by
            rw [Bool.or_eq_true, not_or] at eligible
            exact Pair.quarantined_eq_false.mp (by simpa using eligible.1)
          obtain ⟨g, gate, gated⟩ := coupled.gated pairAt active
          obtain ⟨fits, run⟩ :=
            admitEvidence_change listed evidence receivedAt coupled gated free
          refine .bind (.of_eq run (.pure ⟨.one coupled (.revoke _ gated fits) rfl, ?_⟩))
          intro _ k other found otherActive _ isPull
          have same := coupled.active_unique current found isPull otherActive
          subst same
          exact .of_revocation gated fits (.inl ⟨rfl, coupled.onlyGate gated⟩)

theorem byNumber_perm {rows : List (PairId × Pair)} : (byNumber rows).Perm rows :=
  List.perm_insertionSort _ _

theorem applyShaEvidence_handles {repository : RepositoryRef} {headSha : String}
    {evidence : EvidenceInput} {receivedAt : Time} (coupled : Coupled db) :
    Commits (applyShaEvidence repository headSha evidence receivedAt) db
      (Handles listed db fun pair =>
        pair.repositoryId = repository.repositoryId ∧ pair.headSha = headSha) := by
  rw [applyShaEvidence]
  refine .bind (.get ?_)
  dsimp only
  refine .bind ((revoke_loop listed (fun _ => False) coupled
    (ahead_select _ ?_ byNumber_perm) ?_).mono ?_)
  · intro pair holds
    simp only [Bool.and_eq_true] at holds
    exact holds.1.2
  · rintro db₁ row g gate touched member coupled₁ gated
    have holds := (Table.mem_select.mp (byNumber_perm.mem_iff.mp member)).2
    have free : row.2.quarantine = none := Pair.quarantined_eq_false.mp (by simp_all)
    obtain ⟨fits, run⟩ := admitEvidence_change listed evidence receivedAt coupled₁ gated free
    exact .inr ⟨_, touched ++ [g], fits, bind_of_ok run⟩
  · rintro touched db₁ ⟨applied, cleared⟩
    refine .pure ⟨applied, ?_⟩
    intro _ q pair found active free about
    refine cleared (q, pair) (byNumber_perm.mem_iff.mpr (Table.mem_select.mpr ⟨found, ?_⟩)) id
    simp [about.1, about.2, active, Pair.quarantined, free]

/-! ## Merge groups -/

theorem Gate.isMergeGroup_iff {gate : Gate} : gate.isMergeGroup = true ↔ gate.pairId = none := by
  unfold Gate.isMergeGroup Gate.pairId
  cases gate.subject <;> simp

/-- A new revision of a merge-group gate. -/
theorem mergeGate_revised {g : GateId} {gate gate' : Gate} (found : db.gates[g]? = some gate)
    (group : gate.pairId = none) (revision : gate'.revision = gate.revision + 1)
    (fence : gate'.fence = gate.fence + 1) (unleased : gate'.lease = none)
    (same : gate'.pairId = gate.pairId ∧ gate'.epoch = gate.epoch ∧
      gate'.publishedRevision = gate.publishedRevision)
    (kept : gate'.repositoryId = gate.repositoryId ∧ gate'.subject = gate.subject ∧
      gate'.headSha = gate.headSha ∧ (gate'.active = true → gate.active = true))
    (state : gate'.desiredState ≠ .success) : MergeGate db g gate' where
  place := (Table.lt_length found).le
  group := same.1.trans group
  state := state
  unleased := unleased
  revised := by
    intro gate₀ found₀
    rw [found] at found₀
    cases found₀
    exact ⟨group, same.2.1, revision, same.2.2, by omega⟩
  new last := absurd last (Table.lt_length found).ne
  kept := by
    intro gate₀ found₀
    rw [found] at found₀
    cases found₀
    exact kept
  fresh last := absurd last (Table.lt_length found).ne

/-- What a merge group's event changes. -/
def withMergeGate (db : Database) (g : GateId) (gate : Gate) (now : Time) : Database :=
  { db with gates := Table.put db.gates g gate, outbox := withPublication db.outbox g gate now }

theorem reviseMergeGate_eq {g : GateId} {gate : Gate} {change : Gate → Gate} {missing : String}
    {receivedAt : Time} (found : db.gates[g]? = some gate) :
    reviseMergeGate g change missing receivedAt db =
      .ok ((.applied, [g]), withMergeGate db g (change gate) receivedAt) := by
  rw [reviseMergeGate, bind_of_ok (updateGate_eq found rfl)]
  rfl

theorem mem_of_latestGate {rows : List (GateId × Gate)} {row : GateId × Gate}
    (h : latestGate rows = some row) : row ∈ rows :=
  (List.perm_insertionSort _ rows).mem_iff.mp (List.mem_of_head? h)

theorem latestGate_isSome {rows : List (GateId × Gate)} {row : GateId × Gate}
    (member : row ∈ rows) :
    ∃ latest, latestGate rows = some latest := by
  cases latest : latestGate rows with
  | some first => exact ⟨first, rfl⟩
  | none =>
      rw [latestGate, List.head?_eq_none_iff] at latest
      have there := (List.perm_insertionSort
        (fun left right : GateId × Gate => right.2.epoch ≤ left.2.epoch) rows).mem_iff.mpr member
      rw [latest] at there
      cases there

/-- The gates of a merge group. -/
def Gate.inGroup (gate : Gate) (repositoryId : Nat) (headRef : String) : Bool :=
  gate.repositoryId == repositoryId && gate.subject == .mergeGroup headRef

theorem Gate.inGroup_iff {gate : Gate} {repositoryId : Nat} {headRef : String} :
    gate.inGroup repositoryId headRef = true ↔
      gate.repositoryId = repositoryId ∧ gate.subject = .mergeGroup headRef := by
  simp [Gate.inGroup]

/-- Where no active gate of a merge group has a head and the latest gate of the head has not
ended, no gate has the head. -/
theorem head_new {repositoryId : Nat} {headRef headSha : String}
    (awake : ¬ ((latestGate (Table.select db.gates fun gate =>
      gate.inGroup repositoryId headRef && gate.headSha == headSha)).any
        fun row => !row.2.active) = true)
    (moved : ∀ (h : GateId) (gate : Gate), db.gates[h]? = some gate →
      gate.inGroup repositoryId headRef = true → gate.active = true → gate.headSha ≠ headSha)
    {h : GateId} {gate : Gate} (found : db.gates[h]? = some gate)
    (group : gate.inGroup repositoryId headRef = true) : gate.headSha ≠ headSha := by
  intro head
  have member : (h, gate) ∈ Table.select db.gates fun gate =>
      gate.inGroup repositoryId headRef && gate.headSha == headSha :=
    Table.mem_select.mpr ⟨found, by simp [group, head]⟩
  obtain ⟨latest, same⟩ := latestGate_isSome member
  obtain ⟨latestAt, holds⟩ := Table.mem_select.mp (mem_of_latestGate same)
  simp only [Bool.and_eq_true, beq_iff_eq] at holds
  rw [same] at awake
  exact moved _ _ latestAt holds.1 (by simpa using awake) holds.2

/-- The active gate of a merge group is the one that the store finds. -/
theorem Coupled.only_merge (coupled : Coupled db) {repositoryId : Nat} {headRef : String}
    {g h : GateId} {gate other : Gate} (found : db.gates[g]? = some gate)
    (holds : (gate.inGroup repositoryId headRef && gate.active) = true)
    (otherAt : db.gates[h]? = some other) (inGroup : other.inGroup repositoryId headRef = true)
    (active : other.active = true) : h = g := by
  obtain ⟨gateIn, gateActive⟩ := Bool.and_eq_true_iff.mp holds
  obtain ⟨repository, subject⟩ := Gate.inGroup_iff.mp inGroup
  obtain ⟨repository', subject'⟩ := Gate.inGroup_iff.mp gateIn
  refine coupled.oneMerge h g other gate otherAt found ?_ active gateActive
    (repository.trans repository'.symm) (subject.trans subject'.symm)
  rw [Gate.pairId, subject]

theorem createMergeGate_applied {repository : RepositoryRef} {headSha baseSha headRef : String}
    {active : Bool} {state : GateState} {summary : String} {receivedAt : Time}
    (coupled : Coupled db) (unsuccessful : state ≠ .success)
    (fresh : active = true → ∀ (h : GateId) (gate : Gate), db.gates[h]? = some gate →
      gate.repositoryId = repository.repositoryId → gate.subject = .mergeGroup headRef →
        gate.active = false ∧ gate.headSha ≠ headSha) :
    Commits (createMergeGate repository headSha baseSha headRef active state summary receivedAt) db
      fun _ db' => Applied listed db db' := by
  rw [createMergeGate]
  refine .bind (.get (.bind (.of_eq rfl (.bind (.of_eq rfl (.pure ?_))))))
  refine .one coupled (.merge _ receivedAt ?_) rfl
  exact {
    place := le_rfl
    group := rfl
    state := unsuccessful
    unleased := rfl
    revised := fun gate found => absurd rfl (Table.lt_length found).ne
    new := fun _ => ⟨rfl, rfl⟩
    kept := fun gate found => absurd rfl (Table.lt_length found).ne
    fresh := fun _ => fresh }

theorem applyMergeGroup_applied {repository : RepositoryRef} {action : MergeGroupAction}
    {headSha baseSha headRef : String} {receivedAt : Time} (coupled : Coupled db) :
    Commits (applyMergeGroup repository action headSha baseSha headRef receivedAt) db
      fun _ db' => Applied listed db db' := by
  have revise : ∀ {g : GateId} {gate : Gate} {change : Gate → Gate} {missing : String},
      db.gates[g]? = some gate → MergeGate db g (change gate) →
        Commits (reviseMergeGate g change missing receivedAt) db fun _ db' =>
          Applied listed db db' := fun found merge =>
    .of_eq (reviseMergeGate_eq found) (.one coupled (.merge _ receivedAt merge) rfl)
  rw [applyMergeGroup]
  refine .bind (.get ?_)
  dsimp only
  generalize same : latestGate _ = sameHead
  cases current : Table.first db.gates (fun gate =>
      (gate.repositoryId == repository.repositoryId && gate.subject == .mergeGroup headRef) &&
        gate.active) with
  | none =>
      cases action with
      | destroyed =>
          dsimp only [Option.filter_none]
          split
          · exact .pure (.refl coupled)
          · exact createMergeGate_applied coupled (by decide) nofun
      | checksRequested =>
          dsimp only [Option.filter_none]
          split
          · exact .pure (.refl coupled)
          · next awake =>
              rw [← same] at awake
              have ended : ∀ (h : GateId) (other : Gate), db.gates[h]? = some other →
                  other.inGroup repository.repositoryId headRef = true →
                  other.active = false := by
                intro h other otherAt inGroup
                have fails := Table.first_eq_none current otherAt
                exact (Bool.and_eq_false_iff.mp fails).resolve_left
                  (ne_false_of_eq_true inGroup)
              refine createMergeGate_applied coupled (by decide) ?_
              intro _ h other otherAt repositoryId subject
              have inGroup := Gate.inGroup_iff.mpr ⟨repositoryId, subject⟩
              refine ⟨ended h other otherAt inGroup, head_new awake ?_ otherAt inGroup⟩
              intro k gate gateAt inGroup active
              rw [ended k gate gateAt inGroup] at active
              cases active
  | some row =>
      obtain ⟨g, gate⟩ := row
      obtain ⟨found, holds⟩ := Table.first_eq_some current
      have group : gate.pairId = none := by
        simp only [Bool.and_eq_true, beq_iff_eq] at holds
        simp [Gate.pairId, holds.1.2]
      cases head : gate.headSha == headSha with
      | true =>
          rw [Option.filter_some, if_pos head]
          cases action with
          | destroyed =>
              exact revise found (mergeGate_revised found group rfl rfl rfl ⟨rfl, rfl, rfl⟩
                ⟨rfl, rfl, rfl, nofun⟩ nofun)
          | checksRequested =>
              dsimp only
              split
              · exact .pure (.refl coupled)
              split
              · exact .pure (.refl coupled)
              · exact revise found (mergeGate_revised found group rfl rfl rfl ⟨rfl, rfl, rfl⟩
                  ⟨rfl, rfl, rfl, id⟩ nofun)
      | false =>
          rw [Option.filter_some, if_neg (by simp [head])]
          cases action with
          | destroyed =>
              dsimp only
              split
              · exact .pure (.refl coupled)
              · exact createMergeGate_applied coupled (by decide) nofun
          | checksRequested =>
              dsimp only
              split
              · exact .pure (.refl coupled)
              next awake =>
              rw [← same] at awake
              -- The gate of the older head is cancelled before the new one is created.
              have merge : MergeGate db g
                  { gate.revised .cancelled "Superseded by a newer merge-group head." with
                    active := false } :=
                mergeGate_revised found group rfl rfl rfl ⟨rfl, rfl, rfl⟩ ⟨rfl, rfl, rfl, nofun⟩
                  nofun
              have applied : Applied listed db (withMergeGate db g _ receivedAt) :=
                .one coupled (.merge _ receivedAt merge) rfl
              refine .bind (.of_eq (updateGate_eq found rfl) (.bind (.of_eq rfl ?_)))
              refine (createMergeGate_applied applied.coupled (by decide) ?_).mono
                fun _ _ rest => applied.trans rest
              have moved : gate.headSha ≠ headSha := by simpa using head
              have only : ∀ (h : GateId) (other : Gate), db.gates[h]? = some other →
                  other.inGroup repository.repositoryId headRef = true →
                  other.active = true → h = g :=
                fun h other otherAt inGroup active =>
                  coupled.only_merge found holds otherAt inGroup active
              intro _ h other otherAt repositoryId subject
              have inGroup := Gate.inGroup_iff.mpr ⟨repositoryId, subject⟩
              rw [withMergeGate, Table.getElem?_put merge.place] at otherAt
              split at otherAt
              · cases otherAt
                exact ⟨rfl, moved⟩
              · next apart =>
                  refine ⟨?_, head_new awake ?_ otherAt inGroup⟩
                  · exact Bool.eq_false_iff.mpr fun active =>
                      apart (only h other otherAt inGroup active)
                  · intro k old oldAt inGroup active
                    cases only k old oldAt inGroup active
                    cases oldAt.symm.trans found
                    exact moved

/-! ## Repositories -/

theorem find?_update {rows : List (Nat × Nat)} {repositoryId key : Nat} :
    generationOf (Table.update rows (·.1 == repositoryId) fun row => (row.1, row.2 + 1)) key =
      (generationOf rows key).map fun generation =>
        if key = repositoryId then generation + 1 else generation := by
  induction rows with
  | nil => rfl
  | cons row rows ih =>
      rw [generationOf, generationOf, Table.update, List.map_cons] at *
      by_cases here : row.1 = key
      · subst here
        by_cases same : row.1 = repositoryId <;> simp [same]
      · by_cases same : row.1 = repositoryId
        · simp only [same, beq_self_eq_true, if_true]
          rw [List.find?_cons_of_neg (by simpa [← same] using here),
            List.find?_cons_of_neg (by simpa using here)]
          exact ih
        · simp only [beq_iff_eq, same, if_false]
          rw [List.find?_cons_of_neg (by simpa using here),
            List.find?_cons_of_neg (by simpa using here)]
          simpa using ih

/-- The generation of a repository has gone forward. -/
def Advanced (repositoryId : Nat) (db db' : Database) : Prop :=
  ∀ before, generationOf db.generations repositoryId = some before →
    ∃ after, generationOf db'.generations repositoryId = some after ∧ before < after

/-- The generation of a repository goes forward, and no other changes. -/
theorem advance_commits {repositoryId : Nat} :
    Commits (advanceRepositoryGeneration repositoryId) db fun generation db' =>
      ∃ generations, db' = { db with generations } ∧
        generationOf generations repositoryId = some generation ∧
        (∀ before, generationOf db.generations repositoryId = some before →
          generation = before + 1) ∧
        ∀ other, other ≠ repositoryId →
          generationOf generations other = generationOf db.generations other := by
  cases known : generationOf db.generations repositoryId with
  | none =>
      refine .of_eq (by rw [advanceRepositoryGeneration, known]) ⟨_, rfl, ?_, nofun, ?_⟩
      · rw [generationOf, Option.map_eq_none_iff] at known
        simp [generationOf, List.find?_append, known]
      · intro other different
        simp [generationOf, List.find?_append, different.symm]
  | some generation =>
      refine .of_eq (by rw [advanceRepositoryGeneration, known]) ⟨_, rfl, ?_, ?_, ?_⟩
      · rw [find?_update, known]
        simp
      · rintro before same
        cases same
        rfl
      · intro other different
        rw [find?_update]
        simp [different]

theorem advance_recorded {repositoryId generation : Nat} {generations : List (Nat × Nat)}
    (here : generationOf generations repositoryId = some generation)
    (before : ∀ before, generationOf db.generations repositoryId = some before →
      generation = before + 1)
    (others : ∀ other, other ≠ repositoryId →
      generationOf generations other = generationOf db.generations other) :
    Recorded db { db with generations } where
  delivered := id
  generations := by
    intro key old known
    by_cases same : key = repositoryId
    · subst same
      exact ⟨generation, here, by rw [before old known]; omega⟩
    · exact ⟨old, by rw [others key same]; exact known, le_rfl⟩
  known := id
  filed := id

theorem advance_applied {repositoryId : Nat} (listed : Option Nat) (coupled : Coupled db) :
    Commits (advanceRepositoryGeneration repositoryId) db fun _ db' =>
      Applied listed db db' ∧ db'.pairs = db.pairs ∧ Advanced repositoryId db db' := by
  refine advance_commits.mono ?_
  rintro generation db' ⟨generations, rfl, here, before, others⟩
  refine ⟨.one coupled (.record db.deliveries db.collisions generations
    (advance_recorded here before others)) rfl, rfl, ?_⟩
  intro old known
  exact ⟨generation, here, by rw [before old known]; omega⟩

/-- The merge-group gates that a loop still has to come to. -/
structure AheadGates (db : Database) (rows : List (GateId × Gate)) : Prop where
  found : ∀ row ∈ rows, db.gates[row.1]? = some row.2
  group : ∀ row ∈ rows, row.2.pairId = none
  nodup : (rows.map Prod.fst).Nodup

/-- A loop that revises merge-group gates. -/
theorem merge_loop {β : Type} {rows : List (GateId × Gate)} {body : β → GateId × Gate → Tx β}
    {init : β} (listed : Option Nat) (coupled : Coupled db) (ahead : AheadGates db rows)
    (unit : ∀ {db : Database} {row : GateId × Gate} (acc : β), db.gates[row.1]? = some row.2 →
      row.2.pairId = none →
      (∃ acc', body acc row db = .ok (acc', db)) ∨
        ∃ gate' acc' now, MergeGate db row.1 gate' ∧
          body acc row db = .ok (acc', withMergeGate db row.1 gate' now)) :
    Commits (rows.foldlM body init) db fun _ db' => Applied listed db db' := by
  refine (Commits.foldlM (fun rest _ db' => Applied listed db db' ∧ AheadGates db' rest)
    ⟨.refl coupled, ahead⟩ ?_).mono fun _ _ kept => kept.1
  rintro row rest acc db₁ ⟨applied, ahead₁⟩
  have distinct := List.nodup_cons.mp ahead₁.nodup
  have tail_ahead : ∀ {db₂ : Database}, (∀ h, h ≠ row.1 → db₂.gates[h]? = db₁.gates[h]?) →
      AheadGates db₂ rest := by
    intro db₂ same
    refine ⟨fun other member => ?_, fun other member =>
      ahead₁.group other (List.mem_cons_of_mem _ member), distinct.2⟩
    rw [same other.1 ?_]
    · exact ahead₁.found other (List.mem_cons_of_mem _ member)
    · intro equal
      exact distinct.1 (equal ▸ List.mem_map_of_mem member)
  have group := ahead₁.group row List.mem_cons_self
  rcases unit acc (ahead₁.found row List.mem_cons_self) group with
    ⟨acc', run⟩ | ⟨gate', acc', now, merge, run⟩
  · exact .of_eq run ⟨applied, tail_ahead fun _ _ => rfl⟩
  · refine .of_eq run ⟨applied.tail (.merge gate' now merge) rfl, tail_ahead ?_⟩
    intro h different
    rw [withMergeGate, Table.getElem?_put merge.place, if_neg different]

/-- The last part of an event of a repository: its pull requests will be listed. -/
def withReconcile (db : Database) (repository : RepositoryRef) (deliveryId : String)
    (now : Time) : Database :=
  { db with
    outbox := enqueued db.outbox (.reconcileRepository repository deliveryId)
      (.reconcile repository.repositoryId deliveryId) now }

theorem Gate.reconciled_merge {g : GateId} {gate : Gate} {malformed : Bool} {deliveryId : String}
    (found : db.gates[g]? = some gate) (group : gate.pairId = none) :
    MergeGate db g (gate.reconciled malformed deliveryId) := by
  cases malformed with
  | true =>
      exact mergeGate_revised found group rfl rfl rfl ⟨rfl, rfl, rfl⟩ ⟨rfl, rfl, rfl, id⟩ nofun
  | false =>
      exact mergeGate_revised found group rfl rfl rfl ⟨rfl, rfl, rfl⟩ ⟨rfl, rfl, rfl, id⟩ nofun

theorem applyRepositoryReconcile_handles {repository : RepositoryRef} {reason : ReconcileReason}
    {deliveryId : String} {receivedAt : Time} (coupled : Coupled db) :
    Commits (applyRepositoryReconcile repository reason deliveryId receivedAt) db
      fun outcome db' => outcome.1 = .applied ∧ ∃ db₁,
        Handles (some repository.repositoryId) db
          (fun pair => pair.repositoryId = repository.repositoryId) outcome db₁ ∧
        db' = withReconcile db₁ repository deliveryId receivedAt ∧
        ∃ db₀, Advanced repository.repositoryId db db₀ ∧
          EventSteps (some repository.repositoryId) db₀ db₁ := by
  let about : Pair → Bool := fun pair =>
    pair.repositoryId == repository.repositoryId && pair.active
  rw [applyRepositoryReconcile]
  dsimp only
  refine .bind ((advance_applied (some repository.repositoryId) coupled).mono ?_)
  rintro _ db₁ ⟨advanced, samePairs, forward⟩
  refine .bind (.get (.bind ((revoke_loop (some repository.repositoryId)
    (fun row => row.2.quarantined = true) advanced.coupled
    (ahead_select about ?_ byNumber_perm) ?_).mono ?_)))
  · intro pair holds
    exact (Bool.and_eq_true_iff.mp holds).2
  · rintro db₂ row g gate touched member coupled₂ gated
    have holds := (Table.mem_select.mp (byNumber_perm.mem_iff.mp member)).2
    have ofRepository : row.2.repositoryId = repository.repositoryId :=
      eq_of_beq (Bool.and_eq_true_iff.mp holds).1
    cases reason with
    | malformedSignedEvent =>
        exact .inr ⟨_, touched ++ [g], isolate_fits coupled₂ gated,
          bind_of_ok (quarantinePair_eq coupled₂ gated)⟩
    | push =>
        cases quarantined : row.2.quarantined with
        | true => exact .inl ⟨rfl, touched, rfl⟩
        | false =>
            refine .inr ⟨revisit row.2 none .listing receivedAt, touched ++ [g],
              revisit_fits coupled₂ gated (Pair.quarantined_eq_false.mp quarantined) nofun
                (fun _ => by rw [ofRepository]), ?_⟩
            rw [if_neg (by decide), if_neg (by simp)]
            exact bind_of_ok (invalidatePairForEvidence_eq coupled₂ gated)
  · rintro touched db₂ ⟨applied, cleared⟩
    refine .bind (.get (.bind ((merge_loop (some repository.repositoryId) applied.coupled
      ⟨?_, ?_, Table.select_places_nodup⟩ ?_).mono ?_)))
    · intro row member
      exact (Table.mem_select.mp member).1
    · intro row member
      have holds := (Table.mem_select.mp member).2
      simp only [Bool.and_eq_true] at holds
      exact Gate.isMergeGroup_iff.mp holds.1.2
    · rintro db₃ row touched₃ found group
      split
      · exact .inl ⟨touched₃, rfl⟩
      · exact .inr ⟨_, touched₃ ++ [row.1], receivedAt, Gate.reconciled_merge found group,
          bind_of_ok (updateGate_eq found rfl)⟩
    · rintro touched₃ db₃ merged
      refine .bind (.of_eq rfl (.pure ⟨rfl, db₃, ⟨(advanced.trans applied).trans merged, ?_⟩, rfl,
        db₁, forward, (applied.trans merged).steps⟩))
      intro _ q pair found active free ofRepository
      refine Cleared.of_steps ?_ merged.steps
      refine cleared (q, pair) (byNumber_perm.mem_iff.mpr (Table.mem_select.mpr ⟨?_, ?_⟩)) ?_
      · rw [samePairs]
        exact found
      · simp [about, ofRepository, active]
      · simp [Pair.quarantined, free]

/-! ## Quarantine -/

theorem Ahead.put {rows : List (PairId × Pair)} {row : PairId × Pair} {pair : Pair}
    (ahead : Ahead db (row :: rows)) (pairs : db'.pairs = Table.put db.pairs row.1 pair) :
    Ahead db' rows := by
  have distinct := List.nodup_cons.mp ahead.nodup
  have here := Table.lt_length (ahead.found row List.mem_cons_self)
  refine ⟨fun other member => ?_, fun other member =>
    ahead.active other (List.mem_cons_of_mem _ member), distinct.2⟩
  rw [pairs, Table.getElem?_put here.le, if_neg]
  · exact ahead.found other (List.mem_cons_of_mem _ member)
  · intro equal
    exact distinct.1 (equal ▸ List.mem_map_of_mem member)

/-- Whether a command is of the epoch of one of the rows, and not yet abandoned. -/
def abandons (row : PairId × Pair) (dispatch : Dispatch) : Bool :=
  dispatch.isOf row.1 row.2.epoch && dispatch.state != .abandoned

theorem quarantine_pairs {rows : List (PairId × Pair)} {deliveryId : String}
    (ahead : Ahead db rows) :
    Commits (rows.foldlM (fun _ row => quarantineActivePair deliveryId row.1 row.2.epoch) ()) db
      fun _ db' => db' = { db with
        pairs := rows.foldl
          (fun pairs row => Table.put pairs row.1 (row.2.quarantinedBy deliveryId)) db.pairs
        dispatches := rows.foldl
          (fun dispatches row => Table.update dispatches (abandons row) Dispatch.abandon)
          db.dispatches } := by
  induction rows generalizing db with
  | nil => exact .pure rfl
  | cons row rows ih =>
      have found := ahead.found row List.mem_cons_self
      rw [List.foldlM_cons]
      refine .bind (.bind (.of_eq (updatePair_eq found rfl) (.bind (.of_eq rfl (.pure ?_)))))
      exact ih (ahead.put rfl)

theorem quarantine_gates {rows : List (GateId × Gate)} {deliveryId : String} {now : Time}
    (found : ∀ row ∈ rows, db.gates[row.1]? = some row.2) (nodup : (rows.map Prod.fst).Nodup) :
    Commits (rows.foldlM (fun _ row => quarantineActiveGate deliveryId now row.1) ()) db
      fun _ db' => db' = { db with
        gates := rows.foldl
          (fun gates row => Table.put gates row.1 (row.2.quarantinedBy deliveryId)) db.gates
        outbox := rows.foldl
          (fun outbox row => withPublication outbox row.1 (row.2.quarantinedBy deliveryId) now)
          db.outbox } := by
  induction rows generalizing db with
  | nil => exact .pure rfl
  | cons row rows ih =>
      have here := found row List.mem_cons_self
      have distinct := List.nodup_cons.mp nodup
      rw [List.foldlM_cons]
      refine .bind (.bind (.of_eq (updateGate_eq here rfl) (.of_eq rfl ?_)))
      refine ih ?_ distinct.2
      intro other member
      change (Table.put db.gates row.1 _)[other.1]? = _
      rw [Table.getElem?_put (Table.lt_length here).le, if_neg]
      · exact found other (List.mem_cons_of_mem _ member)
      · intro equal
        exact distinct.1 (equal ▸ List.mem_map_of_mem member)

/-- The commands that end with the active pairs. -/
theorem any_abandons {rows : List (PairId × Pair)} {dispatch : Dispatch}
    (perm : rows.Perm (Table.select db.pairs (·.active))) :
    rows.any (abandons · dispatch) =
      (db.pairs[dispatch.pairId]?.any
        (fun pair => pair.active && pair.epoch == dispatch.pairEpoch) &&
        dispatch.state != .abandoned) := by
  rw [Bool.eq_iff_iff, List.any_eq_true]
  constructor
  · rintro ⟨⟨q, pair⟩, member, holds⟩
    obtain ⟨found, active⟩ := Table.mem_select.mp (perm.mem_iff.mp member)
    simp only [abandons, Dispatch.isOf, Bool.and_eq_true, beq_iff_eq] at holds
    obtain ⟨⟨rfl, epoch⟩, state⟩ := holds
    simp [found, active, epoch, state]
  · intro holds
    rw [Bool.and_eq_true, Option.any_eq_true] at holds
    obtain ⟨⟨pair, found, both⟩, state⟩ := holds
    simp only [Bool.and_eq_true, beq_iff_eq] at both
    refine ⟨(dispatch.pairId, pair), perm.mem_iff.mpr
      (Table.mem_select.mpr ⟨found, both.1⟩), ?_⟩
    simp [abandons, Dispatch.isOf, both.2, state]

theorem generationOf_advanceAll {rows : List (Nat × Nat)} {repositoryId generation : Nat}
    (known : generationOf rows repositoryId = some generation) :
    generationOf (rows.map fun row => (row.1, row.2 + 1)) repositoryId = some (generation + 1) := by
  obtain ⟨row, found, rfl⟩ := Option.map_eq_some_iff.mp known
  rw [generationOf, List.find?_map, Option.map_map]
  change Option.map _ (rows.find? fun row => row.1 == repositoryId) = _
  rw [found]
  rfl

/-- A quarantine of everything takes the gates in some order. -/
theorem quarantineAll_commits {deliveryId : String} {receivedAt : Time} :
    Commits (quarantineAll deliveryId receivedAt) db fun outcome db' => ∃ order,
      order.Perm (Table.select db.gates (·.active)) ∧ outcome = (.applied, order.map Prod.fst) ∧
        db' = quarantinedAll
          { db with generations := db.generations.map fun row => (row.1, row.2 + 1) }
          deliveryId order receivedAt := by
  have perm : (byPull (Table.select db.pairs (·.active))).Perm _ := List.perm_insertionSort _ _
  have order : (bySubject (Table.select db.gates (·.active))).Perm _ :=
    List.perm_insertionSort _ _
  rw [quarantineAll]
  refine .bind (.of_eq rfl (.bind (.get (.bind ((quarantine_pairs ?_).mono ?_)))))
  · have ahead := ahead_select _ (fun _ active => active) perm
    exact ⟨ahead.found, ahead.active, ahead.nodup⟩
  rintro _ db₁ rfl
  refine .bind (.get (.bind ((quarantine_gates ?_ ?_).mono ?_)))
  · intro row member
    exact (Table.mem_select.mp (order.mem_iff.mp member)).1
  · exact (order.map Prod.fst).nodup_iff.mpr Table.select_places_nodup
  rintro _ db₂ rfl
  dsimp only
  rw [Table.foldl_put_eq_update (g := fun pair => pair.quarantinedBy deliveryId) perm,
    Table.foldl_put_eq_update (g := fun gate => gate.quarantinedBy deliveryId) order,
    Table.foldl_update (c := abandons) (fun row dispatch => by simp [abandons, Dispatch.abandon])]
  refine .pure ⟨_, order, rfl, ?_⟩
  rw [funext fun dispatch => any_abandons perm]
  rfl

theorem quarantineAll_applied {deliveryId : String} {receivedAt : Time} (listed : Option Nat)
    (coupled : Coupled db) :
    Commits (quarantineAll deliveryId receivedAt) db fun outcome db' =>
      outcome.1 = .applied ∧ Applied listed db db' ∧
        db'.generations = db.generations.map (fun row => (row.1, row.2 + 1)) ∧
        ∀ {q : PairId} {pair : Pair}, db.pairs[q]? = some pair → pair.active = true →
          Cleared db' q := by
  refine quarantineAll_commits.mono ?_
  rintro _ _ ⟨order, perm, rfl, rfl⟩
  refine ⟨rfl, ?_, rfl, ?_⟩
  · refine (Applied.one coupled (.record db.deliveries db.collisions
      (db.generations.map fun row => (row.1, row.2 + 1))
      ⟨id, fun known => ⟨_, generationOf_advanceAll known, Nat.le_succ _⟩, id, id⟩) rfl).tail
      (.quarantine deliveryId order receivedAt ?_) rfl
    exact perm
  · intro q pair found active
    constructor
    · intro pair' found'
      rw [quarantinedAll, Table.getElem?_update, found, Option.map_some, if_pos active] at found'
      cases found'
      rfl
    · intro g gate' gateAt _ gateActive
      rw [quarantinedAll, Table.getElem?_update] at gateAt
      obtain ⟨gate, _, rfl⟩ := Option.map_eq_some_iff.mp gateAt
      by_cases was : gate.active = true
      · rw [if_pos was]
        exact GateState.ne_success (.inr rfl)
      · rw [if_neg was] at gateActive
        exact absurd gateActive was

/-! ## Pull requests -/

theorem lt_nextEpoch {epochs : List Nat} {epoch : Nat} (member : epoch ∈ epochs) :
    epoch < nextEpoch epochs := by
  have bound : epoch ≤ epochs.foldr max 0 := by
    induction epochs with
    | nil => cases member
    | cons first rest ih =>
        rw [List.foldr_cons]
        rcases List.mem_cons.mp member with rfl | later
        · exact le_max_left _ _
        · exact (ih later).trans (le_max_right _ _)
  exact Nat.lt_succ_of_le bound

/-- A pull request without an active pair. -/
def Inactive (db : Database) (repositoryId number : Nat) : Prop :=
  ∀ {q : PairId} {pair : Pair}, db.pairs[q]? = some pair →
    pair.isPull repositoryId number = true → pair.active = false

theorem startEpoch_commits {repository : RepositoryRef} {pull : PullPairRef}
    (coupled : Coupled db) (inactive : Inactive db repository.repositoryId pull.number) :
    Commits (startEpoch repository pull) db fun place db' => ∃ fence,
      Startable db repository pull place.1 place.2 fence ∧
        db' = { db with
          pairs := Table.put db.pairs place.1 (newPair repository pull place.2 fence) } := by
  have newer : ∀ {q : PairId} {pair : Pair}, db.pairs[q]? = some pair →
      pair.isPull repository.repositoryId pull.number = true →
      pair.epoch < nextEpoch ((Table.select db.pairs
        (·.isPull repository.repositoryId pull.number)).map (·.2.epoch)) := by
    intro q pair found isPull
    exact lt_nextEpoch (List.mem_map.mpr ⟨(q, pair), Table.mem_select.mpr ⟨found, isPull⟩, rfl⟩)
  cases known : Table.first db.pairs (fun row => row.isPull repository.repositoryId pull.number &&
      row.baseSha == pull.baseSha && row.headSha == pull.headSha) with
  | none =>
      refine .of_eq (by rw [startEpoch, known]) ⟨0, ⟨le_rfl, ?_, ?_⟩, rfl⟩
      · intro pair found
        exact absurd rfl (Table.lt_length found).ne
      · intro q pair found isPull
        refine ⟨inactive found isPull, newer found isPull, ?_⟩
        intro base head
        have fails := Table.first_eq_none known found
        simp [isPull, base, head] at fails
  | some row =>
      obtain ⟨q, existing⟩ := row
      obtain ⟨existingAt, holds⟩ := Table.first_eq_some known
      simp only [Bool.and_eq_true, beq_iff_eq] at holds
      obtain ⟨⟨isPull, base⟩, head⟩ := holds
      have same := Coupled.isPull_iff.mp isPull
      refine .of_eq (by rw [startEpoch, known]) ⟨existing.fence + 1,
        ⟨(Table.lt_length existingAt).le, ?_, ?_⟩, ?_⟩
      · intro pair found
        rw [existingAt] at found
        cases found
        exact ⟨isPull, base, head, Nat.lt_succ_self _⟩
      · intro k pair found isPull'
        refine ⟨inactive found isPull', newer found isPull', ?_⟩
        intro base' head'
        have other := Coupled.isPull_iff.mp isPull'
        exact coupled.oneHead found existingAt
          ⟨other.1.trans same.1.symm, other.2.trans same.2.symm⟩ (base'.trans base.symm)
          (head'.trans head.symm)
      · simp [newPair, Pair.fenced, same.1, same.2, base, head]

/-- No other gate of the pull request is active when an epoch starts. -/
theorem createPairGate_eq {repository : RepositoryRef} {pull : PullPairRef} {epoch : Nat}
    {receivedAt : Time} (gates : ∀ {g : GateId} {gate : Gate}, db.gates[g]? = some gate →
      gate.repositoryId = repository.repositoryId → gate.isPullRequest pull.number = true →
      gate.active = false) :
    createPairGate repository pull p epoch receivedAt db =
      .ok ((db.gates.length, newPairGate repository pull p epoch), { db with
        gates := Table.put db.gates db.gates.length (newPairGate repository pull p epoch)
        outbox := withPublication db.outbox db.gates.length (newPairGate repository pull p epoch)
          receivedAt }) := by
  have none_superseded : Table.update db.gates
      (fun gate => gate.repositoryId == repository.repositoryId &&
        gate.isPullRequest pull.number && gate.active && gate.epoch != epoch)
      (fun gate => { gate.revised .failure supersededEpochSummary with active := false }) =
        db.gates := by
    refine Table.update_eq_self fun g gate found => ?_
    by_cases ofPull : gate.repositoryId = repository.repositoryId ∧
        gate.isPullRequest pull.number = true
    · simp [gates found ofPull.1 ofPull.2]
    · rw [not_and_or] at ofPull
      rcases ofPull with other | other <;> simp [other]
  rw [createPairGate]
  refine (bind_of_ok rfl).trans ?_
  rw [none_superseded]
  rfl

theorem Coupled.gates_inactive (coupled : Coupled db) {repositoryId number : Nat}
    (inactive : Inactive db repositoryId number) {g : GateId} {gate : Gate}
    (found : db.gates[g]? = some gate) (repository : gate.repositoryId = repositoryId)
    (isPull : gate.isPullRequest number = true) : gate.active = false := by
  cases active : gate.active with
  | false => rfl
  | true =>
      obtain ⟨q, bound⟩ : ∃ q, gate.subject = .pullRequest number q := by
        unfold Gate.isPullRequest at isPull
        cases subject : gate.subject with
        | mergeGroup _ => simp [subject] at isPull
        | pullRequest key q =>
            rw [subject] at isPull
            exact ⟨q, by rw [eq_of_beq isPull]⟩
      obtain ⟨pair, pairAt, fits⟩ := coupled.fits found (Gate.pairId_eq_some.mpr ⟨number, bound⟩)
      have same : number = pair.pullNumber := by
        have subjects := bound.symm.trans fits.subject
        cases subjects
        rfl
      have isPull' : pair.isPull repositoryId number = true :=
        Coupled.isPull_iff.mpr ⟨fits.repository.symm.trans repository, same.symm⟩
      exact absurd (fits.current active).1 (by simp [inactive pairAt isPull'])

/-- A new epoch of a pull request that has no active pair. -/
theorem start_applied {repository : RepositoryRef} {pull : PullPairRef} {receivedAt : Time}
    (listed : Option Nat) (coupled : Coupled db)
    (inactive : Inactive db repository.repositoryId pull.number) :
    Commits (do
        let (pairId, epoch) ← startEpoch repository pull
        let gate ← createPairGate repository pull pairId epoch receivedAt
        if pull.state == .opened && !pull.draft then
          enqueuePairWork pairId epoch gate.2.revision receivedAt
        return ((.applied, [gate.1]) : Outcome)) db
      fun outcome db' => outcome.1 = .applied ∧ Applied listed db db' := by
  refine .bind ((startEpoch_commits coupled inactive).mono ?_)
  rintro ⟨q, epoch⟩ db₁ ⟨fence, startable, rfl⟩
  refine .bind (.of_eq (createPairGate_eq (coupled.gates_inactive inactive)) ?_)
  have applied : Applied listed db (started db repository pull q epoch fence receivedAt) :=
    .one coupled (.start repository pull epoch fence receivedAt startable) rfl
  cases opened : pull.state == .opened with
  | false =>
      have closed : pull.state ≠ .opened := by simpa using opened
      refine .pure ⟨rfl, ?_⟩
      simp only [started, closed, false_and, if_false] at applied
      exact applied
  | true =>
      cases draft : pull.draft with
      | true =>
          refine .pure ⟨rfl, ?_⟩
          simp only [started, draft, Bool.true_eq_false, and_false, if_false] at applied
          exact applied
      | false =>
          have isOpen : pull.state = .opened := eq_of_beq opened
          refine .bind (.bind (.of_eq rfl (.of_eq rfl (.pure ⟨rfl, ?_⟩))))
          simp only [started, isOpen, draft, and_self, if_true] at applied
          exact applied

theorem replacePair_handles (listed : Option Nat) (coupled : Coupled db)
    (repository : RepositoryRef) (pull : PullPairRef) (receivedAt : Time) :
    Commits (replacePair (activePair db repository.repositoryId pull.number) repository pull
        receivedAt) db
      fun outcome db' => outcome.1 = .applied ∧ Handles listed db
        (fun pair => pair.isPull repository.repositoryId pull.number = true) outcome db' := by
  cases current : activePair db repository.repositoryId pull.number with
  | none =>
      refine (start_applied listed coupled (activePair_eq_none current)).mono ?_
      rintro outcome db' ⟨isApplied, applied⟩
      refine ⟨isApplied, applied, ?_⟩
      intro _ q pair found active _ isPull
      rw [activePair_eq_none current found isPull] at active
      cases active
  | some row =>
      obtain ⟨q, pair⟩ := row
      obtain ⟨pairAt, isPull, active⟩ := activePair_eq_some current
      obtain ⟨g, gate, gated⟩ := coupled.gated pairAt active
      let ending := finish pair pair.state "Superseded by a newer pull-request base/head pair."
        receivedAt
      have fits : ending.Fits listed pair := finish_fits
      have ended : Applied listed db (ending.apply db q pair g gate) :=
        .one coupled (.revoke ending gated fits) rfl
      have inactive : Inactive (ending.apply db q pair g gate) repository.repositoryId
          pull.number := by
        intro k other found otherPull
        rw [Revocation.apply, Table.getElem?_put (Table.lt_length pairAt).le] at found
        split at found
        · cases found
          rfl
        · next different =>
            cases otherActive : other.active with
            | false => rfl
            | true =>
                exact absurd (coupled.active_unique current found otherPull otherActive) different
      rw [replacePair]
      refine .bind (.of_eq (updatePair_eq pairAt rfl) ?_)
      refine .bind (.of_eq (revokeCurrentPairGate_eq (coupled.onlyGate gated)) ?_)
      refine (start_applied listed ended.coupled inactive).mono ?_
      rintro outcome db' ⟨isApplied, rest⟩
      refine ⟨isApplied, ended.trans rest, ?_⟩
      intro _ k other found otherActive _ otherPull
      have same := coupled.active_unique current found otherPull otherActive
      subst same
      exact Cleared.of_steps
        (.of_revocation gated fits (.inl ⟨rfl, coupled.onlyGate gated⟩)) rest.steps

theorem applyToCurrent_handles {repository : RepositoryRef} {pull : PullPairRef}
    {receivedAt : Time} (listed : Option Nat) (coupled : Coupled db) :
    Commits (applyToCurrent (activePair db repository.repositoryId pull.number) repository pull
        receivedAt) db
      (Handles listed db fun pair => pair.isPull repository.repositoryId pull.number = true) := by
  have replaced := replacePair_handles listed coupled repository pull receivedAt
  cases current : activePair db repository.repositoryId pull.number with
  | none =>
      rw [current] at replaced
      exact replaced.mono fun _ _ handled => handled.2
  | some row =>
      rw [current] at replaced
      obtain ⟨q, pair⟩ := row
      rw [applyToCurrent]
      split
      · split
        · exact .pure (.stale coupled)
        · obtain ⟨pairAt, _, active⟩ := activePair_eq_some current
          obtain ⟨g, gate, gated⟩ := coupled.gated pairAt active
          have fits : (restate pair pull receivedAt).Fits listed pair := restate_fits
          refine .of_eq (changePairState_eq coupled gated)
            ⟨.one coupled (.revoke _ gated fits) rfl, ?_⟩
          intro _ k other found otherActive _ isPull
          have place := coupled.active_unique current found isPull otherActive
          subst place
          exact .of_revocation gated fits (.inl ⟨rfl, coupled.onlyGate gated⟩)
      · exact replaced.mono fun _ _ handled => handled.2

theorem applyPullRequest_handles {repository : RepositoryRef} {pull : PullPairRef}
    {receivedAt : Time} {advance : Bool} (listed : Option Nat) (coupled : Coupled db) :
    Commits (applyPullRequest repository pull receivedAt advance) db
      (Handles listed db fun pair => pair.isPull repository.repositoryId pull.number = true) := by
  rw [applyPullRequest]
  refine .bind (.get ?_)
  split
  · exact .pure (.stale coupled)
  · split
    · refine .bind ((advance_applied listed coupled).mono ?_)
      rintro _ db₁ ⟨advanced, pairs, _⟩
      have same : activePair db repository.repositoryId pull.number =
          activePair db₁ repository.repositoryId pull.number := by
        rw [activePair, activePair, pairs]
      rw [same]
      refine (applyToCurrent_handles listed advanced.coupled).mono ?_
      rintro outcome db₂ ⟨applied, cleared⟩
      refine ⟨advanced.trans applied, fun isApplied {q} {pair} found => ?_⟩
      rw [← pairs] at found
      exact cleared isApplied found
    · exact applyToCurrent_handles listed coupled

/-! ## Listings -/

/-- A listing says something of one pull request. -/
theorem reconcilePull_applied {repository : RepositoryRef} {pull : LivePullRequest} {now : Time}
    (listed : Option Nat) (coupled : Coupled db) :
    Commits (reconcilePull repository pull now) db fun _ db' => Applied listed db db' := by
  rw [reconcilePull]
  refine .bind ((applyPullRequest_handles listed coupled).mono ?_)
  rintro outcome db₁ ⟨applied, _⟩
  split
  · refine .bind (.get ?_)
    cases current : activePair db₁ repository.repositoryId pull.number with
    | none => exact .pure applied
    | some row =>
        obtain ⟨q, pair⟩ := row
        obtain ⟨pairAt, _, active⟩ := activePair_eq_some current
        dsimp only
        split
        · refine .bind (.get ?_)
          obtain ⟨g, gate, gated⟩ := applied.coupled.gated pairAt active
          have only := applied.coupled.onlyGate gated
          have first : Table.first db₁.gates (fun gate => gate.pairId == some q && gate.active) =
              some (g, gate) := by
            rw [Table.first, Table.select_eq_singleton only.gateAt
              (by simp [only.bound, only.gateActive])]
            · rfl
            · intro h other found holds
              simp only [Bool.and_eq_true, beq_iff_eq] at holds
              exact only.only h other found holds.1 holds.2
          rw [first]
          exact .of_eq rfl (applied.tail (.evaluate now gated) rfl)
        · exact .pure applied
  · exact .pure applied

/-- A listing is applied at the generation of its snapshot, and takes the next one. -/
theorem reconcileOpenPullRequests_listed {token : RepositorySnapshotToken}
    {pulls : List LivePullRequest} {now : Time} (listed : Option Nat) (coupled : Coupled db) :
    Commits (reconcileOpenPullRequests token pulls now) db fun result db' =>
      result = .stale ∧ db' = db ∨ result = .applied ∧
        generationOf db.generations token.repository.repositoryId = some token.generation ∧
        ∃ db₁, Advanced token.repository.repositoryId db db₁ ∧ Applied listed db db₁ ∧
          Applied listed db₁ db' := by
  rw [reconcileOpenPullRequests]
  refine .bind (.get ?_)
  split
  · exact .pure (.inl ⟨rfl, rfl⟩)
  · next current =>
      refine .bind ((advance_applied listed coupled).mono ?_)
      rintro _ db₁ ⟨advanced, _, forward⟩
      refine .bind (.get (.bind ((revoke_loop listed
        (fun row => (pulls.map (·.number)).contains row.2.pullNumber = true) advanced.coupled
        (ahead_select _ ?_ byNumber_perm) ?_).mono ?_)))
      · intro pair holds
        exact (Bool.and_eq_true_iff.mp holds).2
      · rintro db₂ row g gate acc member coupled₂ gated
        cases inListing : (pulls.map (·.number)).contains row.2.pullNumber with
        | true => exact .inl ⟨rfl, (), rfl⟩
        | false => exact .inr ⟨_, (), finish_fits, closeUnlisted_eq coupled₂ gated⟩
      · rintro _ db₂ ⟨applied, _⟩
        refine .bind ((Commits.foldlM (fun _ _ db₃ => Applied listed db₁ db₃) applied ?_).mono ?_)
        · intro pull rest _ db₃ applied₃
          exact (reconcilePull_applied listed applied₃.coupled).mono fun _ _ more =>
            applied₃.trans more
        · intro _ db₃ applied₃
          exact .pure (.inr ⟨rfl, not_not.mp current, db₁, forward, advanced, applied₃⟩)

theorem reconcileOpenPullRequests_applied {token : RepositorySnapshotToken}
    {pulls : List LivePullRequest} {now : Time} (listed : Option Nat) (coupled : Coupled db) :
    Commits (reconcileOpenPullRequests token pulls now) db fun _ db' =>
      Applied listed db db' := by
  refine (reconcileOpenPullRequests_listed listed coupled).mono ?_
  rintro result db' (⟨_, rfl⟩ | ⟨_, _, db₁, _, first, rest⟩)
  · exact .refl coupled
  · exact first.trans rest

/-! ## Ingests -/

/-- Every recorded delivery has been disposed of. -/
def Settled (db : Database) : Prop := ∀ row ∈ db.deliveries, row.disposition ≠ none

/-- The pairs that an event is about. -/
def GithubImpact.addresses (impact : GithubImpact) (pair : Pair) : Prop :=
  match impact with
  | .pullRequest repository pull => pair.isPull repository.repositoryId pull.number = true
  | .pullEvidence repository number _ _ => pair.isPull repository.repositoryId number = true
  | .shaEvidence repository headSha _ =>
      pair.repositoryId = repository.repositoryId ∧ pair.headSha = headSha
  | .repositoryReconcile repository _ => pair.repositoryId = repository.repositoryId
  | .mergeGroup .. => False
  | .ignored _ => False

/-- An event has been applied up to its listing, if it asks for one. -/
def Lists (db : Database) (deliveryId : String) (now : Time) (db' : Database) : Prop :=
  EventSteps none db db' ∨ ∃ repository db₁, EventSteps (some repository.repositoryId) db db₁ ∧
    db₁.deliveries = db.deliveries ∧ db' = withReconcile db₁ repository deliveryId now

theorem Lists.coupled {deliveryId : String} {now : Time} (coupled : Coupled db)
    (h : Lists db deliveryId now db') : Coupled db' := by
  rcases h with steps | ⟨repository, db₁, steps, _, rfl⟩
  · exact coupled.of_steps steps.steps
  · exact (coupled.of_steps steps.steps).of_rowwise Coupled.samePairs Coupled.sameGates

theorem applyImpact_handles {request : IngestRequest} (coupled : Coupled db) :
    Commits (applyImpact request) db fun outcome db' =>
      Lists db request.deliveryId request.receivedAt db' ∧ db'.archive = db.archive ∧
        (outcome.1 = .applied → ∀ {q : PairId} {pair : Pair}, db.pairs[q]? = some pair →
          pair.active = true → pair.quarantine = none → request.impact.addresses pair →
            Cleared db' q) := by
  have plain : ∀ {outcome : Outcome} {db' : Database} {about : Pair → Prop},
      Handles none db about outcome db' → Lists db request.deliveryId request.receivedAt db' ∧
        db'.archive = db.archive ∧ (outcome.1 = .applied → ∀ {q : PairId} {pair : Pair},
          db.pairs[q]? = some pair → pair.active = true → pair.quarantine = none → about pair →
            Cleared db' q) := by
    rintro outcome db' about ⟨applied, cleared⟩
    exact ⟨.inl applied.steps, applied.archive, cleared⟩
  rw [applyImpact]
  cases impact : request.impact with
  | pullRequest repository pull =>
      exact (applyPullRequest_handles none coupled).mono fun _ _ => plain
  | pullEvidence repository number expectedHeadSha evidence =>
      exact (applyPullEvidence_handles coupled).mono fun _ _ => plain
  | shaEvidence repository headSha evidence =>
      exact (applyShaEvidence_handles coupled).mono fun _ _ => plain
  | repositoryReconcile repository reason =>
      refine (applyRepositoryReconcile_handles coupled).mono ?_
      rintro outcome db' ⟨isApplied, db₁, ⟨applied, cleared⟩, rfl, _⟩
      refine ⟨.inr ⟨repository, db₁, applied.steps, applied.deliveries, rfl⟩,
        applied.archive, ?_⟩
      intro _ q pair found active free about
      have clear := cleared isApplied found active free about
      exact ⟨clear.lease, clear.gate⟩
  | mergeGroup repository action headSha baseSha headRef =>
      exact (applyMergeGroup_applied coupled).mono fun _ _ applied =>
        ⟨.inl applied.steps, applied.archive, nofun⟩
  | ignored repository => exact .pure ⟨.inl .refl, rfl, nofun⟩

/-- How the deliveries change when one is claimed. -/
inductive Claimed (db : Database) (deliveryId : String) : DeliveryClaim → Database → Prop where
  | duplicate (disposition : IngestDisposition) :
      Claimed db deliveryId (.duplicate disposition) db
  | duplicateCollision : Claimed db deliveryId .duplicateCollision db
  | collision (event : Collision) : Delivered db deliveryId → event.deliveryId = deliveryId →
      Claimed db deliveryId .collision { db with collisions := db.collisions ++ [event] }
  | new (row : Delivery) : ¬ Delivered db deliveryId → row.deliveryId = deliveryId →
      Claimed db deliveryId .new { db with deliveries := db.deliveries ++ [row] }

theorem claimDelivery_claims {deliveryId eventName payloadSha256 : String} (settled : Settled db) :
    Commits (claimDelivery deliveryId eventName payloadSha256) db (Claimed db deliveryId) := by
  rw [claimDelivery]
  refine .bind (.get ?_)
  cases known : db.deliveries.find? (·.deliveryId == deliveryId) with
  | none =>
      refine .bind (.of_eq rfl (.pure (.new _ ?_ rfl)))
      rintro ⟨row, member, same⟩
      have fails := List.find?_eq_none.mp known row member
      simp [same] at fails
  | some row =>
      have member := List.mem_of_find?_eq_some known
      have found : (row.deliveryId == deliveryId) = true :=
        List.find?_some (p := fun row : Delivery => row.deliveryId == deliveryId) known
      have same := eq_of_beq found
      dsimp only
      split
      · cases disposed : row.disposition with
        | none => exact absurd disposed (settled row member)
        | some disposition => exact .pure (.duplicate disposition)
      · split
        · exact .pure .duplicateCollision
        · exact .bind (.of_eq rfl (.pure (.collision _ ⟨row, member, same⟩ rfl)))

theorem settled_after {row : Delivery} {disposition : IngestDisposition} {deliveryId : String}
    (settled : Settled db) (same : row.deliveryId = deliveryId)
    (deliveries : db'.deliveries = db.deliveries ++ [row]) :
    Settled { db' with
      deliveries := Table.update db'.deliveries (·.deliveryId == deliveryId) fun row =>
        { row with disposition := some disposition } } := by
  intro row' member
  simp only [Table.update, deliveries, List.mem_map, List.mem_append, List.mem_singleton] at member
  obtain ⟨before, old | rfl, rfl⟩ := member
  · split
    · simp
    · exact settled before old
  · simp [same]

/-- What an ingest does. -/
structure Ingested (db : Database) (deliveryId : String) (addresses : Pair → Prop)
    (result : IngestResult) (now : Time) (db' : Database) : Prop where
  coupled : Coupled db'
  settled : Settled db'
  steps : EventSteps none db db' ∨ ∃ repository db₁ deliveries, ¬ Delivered db deliveryId ∧
    EventSteps (some repository.repositoryId) db db₁ ∧ Delivered db₁ deliveryId ∧
      Recorded db₁ { db₁ with deliveries } ∧
      db' = { withReconcile db₁ repository deliveryId now with deliveries }
  cleared : result.duplicate = false → result.disposition = .applied →
    ∀ {q : PairId} {pair : Pair}, db.pairs[q]? = some pair → pair.active = true →
      pair.quarantine = none → Delivered db deliveryId ∨ addresses pair → Cleared db' q

theorem recorded_delivery {row : Delivery} (new : ¬ Delivered db row.deliveryId) :
    Recorded db { db with deliveries := db.deliveries ++ [row] } where
  delivered := by
    rintro deliveryId ⟨old, member, same⟩
    exact ⟨old, List.mem_append_left _ member, same⟩
  generations known := ⟨_, known, le_rfl⟩
  known := by
    rintro event (⟨old, member, same⟩ | collided)
    · exact .inl ⟨old, List.mem_append_left _ member, same⟩
    · exact .inr collided
  filed := by
    intro filed
    constructor
    · rw [List.map_append, List.nodup_append]
      refine ⟨filed.1, List.nodup_singleton _, ?_⟩
      intro old member _ last same
      rw [List.mem_singleton.mp last] at same
      obtain ⟨before, there, rfl⟩ := List.mem_map.mp member
      exact new ⟨before, there, same⟩
    · intro event member
      obtain ⟨old, there, same⟩ := filed.2 event member
      exact ⟨old, List.mem_append_left _ there, same⟩

theorem recorded_settled {disposition : IngestDisposition} {settled : String} :
    Recorded db { db with
      deliveries := Table.update db.deliveries (·.deliveryId == settled) fun row =>
        { row with disposition := some disposition } } := by
  -- A disposition is no part of what tells events apart.
  have keeps : ∀ row : Delivery, (if (row.deliveryId == settled) = true then
      { row with disposition := some disposition } else row).event = row.event := by
    intro row
    split <;> rfl
  have delivered : ∀ {deliveryId : String}, Delivered db deliveryId → Delivered { db with
      deliveries := Table.update db.deliveries (·.deliveryId == settled) fun row =>
        { row with disposition := some disposition } } deliveryId := by
    rintro deliveryId ⟨old, member, same⟩
    exact ⟨_, List.mem_map.mpr ⟨old, member, rfl⟩,
      (congrArg Collision.deliveryId (keeps old)).trans same⟩
  refine ⟨delivered, fun known => ⟨_, known, le_rfl⟩, ?_, ?_⟩
  · rintro event (⟨old, member, same⟩ | collided)
    · exact .inl ⟨_, List.mem_map.mpr ⟨old, member, rfl⟩, (keeps old).trans same⟩
    · exact .inr collided
  · intro filed
    refine ⟨?_, fun event member => delivered (filed.2 event member)⟩
    have ids : (Table.update db.deliveries (·.deliveryId == settled) fun row =>
        { row with disposition := some disposition }).map (·.deliveryId) =
          db.deliveries.map (·.deliveryId) := by
      rw [Table.update, List.map_map]
      exact List.map_congr_left fun row _ => congrArg Collision.deliveryId (keeps row)
    exact ids ▸ filed.1

theorem recorded_collision {event : Collision} (delivered : Delivered db event.deliveryId) :
    Recorded db { db with collisions := db.collisions ++ [event] } where
  delivered := id
  generations known := ⟨_, known, le_rfl⟩
  known := by
    rintro other (delivery | collided)
    · exact .inl delivery
    · exact .inr (List.mem_append_left _ collided)
  filed := by
    intro filed
    refine ⟨filed.1, fun other member => ?_⟩
    rcases List.mem_append.mp member with old | new
    · exact filed.2 other old
    · rw [List.mem_singleton.mp new]
      exact delivered

theorem quarantineAll_ingested {deliveryId : String} {receivedAt : Time}
    {collisions : List Collision} {addresses : Pair → Prop} (coupled : Coupled db)
    (settled : Settled db) (recorded : Recorded db { db with collisions }) :
    Commits (do
        let outcome ← quarantineAll deliveryId receivedAt
        return (⟨false, outcome.1, outcome.2⟩ : IngestResult)) { db with collisions }
          fun result db' =>
      Ingested db deliveryId addresses result receivedAt db' := by
  have coupled' : Coupled { db with collisions } :=
    coupled.of_rowwise Coupled.samePairs Coupled.sameGates
  refine .bind ((quarantineAll_applied none coupled').mono ?_)
  rintro outcome db' ⟨_, applied, _, cleared⟩
  refine .pure ⟨applied.coupled, ?_, .inl ?_, ?_⟩
  · rw [Settled, applied.deliveries]
    exact settled
  · exact Relation.ReflTransGen.head (.record db.deliveries collisions db.generations
      recorded) applied.steps
  · intro _ _ q pair found active _ _
    exact cleared found active

theorem ingest_ingested {request : IngestRequest} (coupled : Coupled db) (settled : Settled db) :
    Commits (ingest request) db fun result db' =>
      Ingested db request.deliveryId request.impact.addresses result request.receivedAt db' := by
  rw [ingest]
  refine .bind ((claimDelivery_claims settled).mono ?_)
  intro claim db₁ claimed
  cases claimed with
  | duplicate disposition => exact .pure ⟨coupled, settled, .inl .refl, nofun⟩
  | duplicateCollision => exact .pure ⟨coupled, settled, .inl .refl, nofun⟩
  | collision event delivered same =>
      exact quarantineAll_ingested coupled settled (recorded_collision (same ▸ delivered))
  | new row undelivered same =>
      have coupled₁ : Coupled { db with deliveries := db.deliveries ++ [row] } :=
        coupled.of_rowwise Coupled.samePairs Coupled.sameGates
      refine .bind ((applyImpact_handles coupled₁).mono ?_)
      rintro outcome db₂ ⟨lists, archive, cleared⟩
      have deliveries : db₂.deliveries = db.deliveries ++ [row] := congrArg Prod.fst archive
      refine .bind (.of_eq rfl (.pure ⟨?_, settled_after settled same deliveries, ?_, ?_⟩))
      · exact (lists.coupled coupled₁).of_rowwise Coupled.samePairs Coupled.sameGates
      · have recorded : ∀ listed, EventChange listed db
            { db with deliveries := db.deliveries ++ [row] } := fun _ =>
          .record _ db.collisions db.generations (recorded_delivery (same ▸ undelivered))
        rcases lists with steps | ⟨repository, db₃, steps, deliveries₃, rfl⟩
        · exact .inl ((Relation.ReflTransGen.head (recorded none) steps).tail
            (.record _ db₂.collisions db₂.generations recorded_settled))
        · refine .inr ⟨repository, db₃, _, undelivered, .head (recorded _) steps, ?_, ?_, rfl⟩
          · exact ⟨row, by rw [deliveries₃]; simp, same⟩
          · exact recorded_settled
      · intro _ isApplied q pair found active free about
        have clear := cleared isApplied found active free (about.resolve_left undelivered)
        exact ⟨clear.lease, clear.gate⟩

theorem quarantineUnscoped_ingested {request : UnscopedQuarantineRequest} (coupled : Coupled db)
    (settled : Settled db) :
    Commits (quarantineUnscopedSignedDelivery request) db fun result db' =>
      Ingested db request.deliveryId (fun _ => True) result request.receivedAt db' := by
  rw [quarantineUnscopedSignedDelivery]
  refine .bind ((claimDelivery_claims settled).mono ?_)
  intro claim db₁ claimed
  cases claimed with
  | duplicate disposition => exact .pure ⟨coupled, settled, .inl .refl, nofun⟩
  | duplicateCollision => exact .pure ⟨coupled, settled, .inl .refl, nofun⟩
  | collision event delivered same =>
      exact quarantineAll_ingested coupled settled (recorded_collision (same ▸ delivered))
  | new row undelivered same =>
      have coupled₁ : Coupled { db with deliveries := db.deliveries ++ [row] } :=
        coupled.of_rowwise Coupled.samePairs Coupled.sameGates
      refine .bind ((quarantineAll_applied none coupled₁).mono ?_)
      rintro outcome db₂ ⟨_, applied, _, cleared⟩
      refine .bind (.of_eq rfl (.pure
        ⟨?_, settled_after settled same applied.deliveries, .inl ?_, ?_⟩))
      · exact applied.coupled.of_rowwise Coupled.samePairs Coupled.sameGates
      · exact (Relation.ReflTransGen.head (.record _ db.collisions db.generations
          (recorded_delivery (same ▸ undelivered))) applied.steps).tail
          (.record _ db₂.collisions db₂.generations recorded_settled)
      · intro _ _ q pair found active _ _
        have clear := cleared found active
        exact ⟨clear.lease, clear.gate⟩

end Stratadiff.Governor
