import Stratadiff.Governor.Change

/-!
# Pairs and gates

A pull request has at most one active pair, an active pair has one active gate of its
epoch, and an active gate of a pull request has an active pair of its epoch. This is
kept by every change, so the store never misses the gate of a pair that it works on.
A merge group has at most one active gate.
-/

namespace Stratadiff.Governor

theorem Gate.pairId_eq_some {gate : Gate} {p : PairId} :
    gate.pairId = some p ↔ ∃ number, gate.subject = .pullRequest number p := by
  unfold Gate.pairId
  cases gate.subject <;> simp

/-- Pairs of one pull request. -/
def Pair.samePull (pair other : Pair) : Prop :=
  pair.repositoryId = other.repositoryId ∧ pair.pullNumber = other.pullNumber

/-- The gate of a pull request fits its pair. -/
structure Gate.Fits (gate : Gate) (p : PairId) (pair : Pair) : Prop where
  subject : gate.subject = .pullRequest pair.pullNumber p
  repository : gate.repositoryId = pair.repositoryId
  epoch : gate.epoch ≤ pair.epoch
  current : gate.active = true → pair.active = true ∧ gate.epoch = pair.epoch

/-- A merge group has at most one active gate. -/
def OneMerge (gates : List Gate) : Prop :=
  ∀ (g h : GateId) (gate other : Gate), gates[g]? = some gate → gates[h]? = some other →
    gate.pairId = none → gate.active = true → other.active = true →
    gate.repositoryId = other.repositoryId → gate.subject = other.subject → g = h

structure Coupled (db : Database) : Prop where
  onePair : ∀ {p q : PairId} {pair other : Pair}, db.pairs[p]? = some pair →
    db.pairs[q]? = some other → pair.active = true → other.active = true →
    pair.samePull other → p = q
  oneEpoch : ∀ {p q : PairId} {pair other : Pair}, db.pairs[p]? = some pair →
    db.pairs[q]? = some other → pair.samePull other → pair.epoch = other.epoch → p = q
  oneHead : ∀ {p q : PairId} {pair other : Pair}, db.pairs[p]? = some pair →
    db.pairs[q]? = some other → pair.samePull other → pair.baseSha = other.baseSha →
    pair.headSha = other.headSha → p = q
  opened : ∀ {p : PairId} {pair : Pair}, db.pairs[p]? = some pair → pair.active = true →
    pair.state = .opened
  gated : ∀ {p : PairId} {pair : Pair}, db.pairs[p]? = some pair → pair.active = true →
    ∃ g gate, Gated db p pair g gate
  fits : ∀ {g : GateId} {gate : Gate} {p : PairId}, db.gates[g]? = some gate →
    gate.pairId = some p → ∃ pair, db.pairs[p]? = some pair ∧ gate.Fits p pair
  oneGate : ∀ {g h : GateId} {gate other : Gate} {p : PairId}, db.gates[g]? = some gate →
    db.gates[h]? = some other → gate.pairId = some p → other.pairId = some p →
    gate.epoch = other.epoch → g = h
  oneMerge : OneMerge db.gates

theorem coupled_empty : Coupled .empty where
  onePair h := by simp [Database.empty] at h
  oneEpoch h := by simp [Database.empty] at h
  oneHead h := by simp [Database.empty] at h
  opened h := by simp [Database.empty] at h
  gated h := by simp [Database.empty] at h
  fits h := by simp [Database.empty] at h
  oneGate h := by simp [Database.empty] at h
  oneMerge _ _ _ _ h := by simp [Database.empty] at h

namespace Coupled

variable {db db' : Database} {listed : Option Nat} {p : PairId} {pair : Pair} {g : GateId}
variable {gate : Gate}

/-- The gate of an active pair is of the pair's epoch. -/
theorem epoch_eq (coupled : Coupled db) (gated : Gated db p pair g gate) :
    gate.epoch = pair.epoch := by
  obtain ⟨pair', found, fits⟩ := coupled.fits gated.gateAt gated.bound
  rw [gated.pairAt] at found
  cases found
  exact (fits.current gated.gateActive).2

/-- An active pair has one active gate. -/
theorem gate_unique (coupled : Coupled db) (gated : Gated db p pair g gate) {h : GateId}
    {other : Gate} (found : db.gates[h]? = some other) (bound : other.pairId = some p)
    (active : other.active = true) : h = g := by
  have other_gated : Gated db p pair h other :=
    ⟨gated.pairAt, gated.pairActive, found, active, bound⟩
  refine coupled.oneGate found gated.gateAt bound gated.bound ?_
  rw [coupled.epoch_eq gated, coupled.epoch_eq other_gated]

/-- The active pair of an active gate. -/
theorem gated_of_gate (coupled : Coupled db) (found : db.gates[g]? = some gate)
    (active : gate.active = true) (bound : gate.pairId = some p) :
    ∃ pair, Gated db p pair g gate := by
  obtain ⟨pair, pairAt, fits⟩ := coupled.fits found bound
  exact ⟨pair, pairAt, (fits.current active).1, found, active, bound⟩

/-! ## Changes in place -/

/-- A pair of the same pull request, base, head and epoch, that has not become active. -/
structure PairKeeps (old new : Pair) : Prop where
  repository : new.repositoryId = old.repositoryId
  number : new.pullNumber = old.pullNumber
  base : new.baseSha = old.baseSha
  head : new.headSha = old.headSha
  epoch : new.epoch = old.epoch
  active : new.active = true → old.active = true
  opened : new.active = true → old.state = .opened → new.state = .opened

theorem PairKeeps.samePull {old new old' new' : Pair} (h : PairKeeps old new)
    (h' : PairKeeps old' new') (same : new.samePull new') : old.samePull old' := by
  constructor
  · rw [← h.repository, ← h'.repository]
    exact same.1
  · rw [← h.number, ← h'.number]
    exact same.2

/-- A gate of the same subject and epoch, that has not become active. -/
structure GateKeeps (old new : Gate) : Prop where
  repository : new.repositoryId = old.repositoryId
  subject : new.subject = old.subject
  epoch : new.epoch = old.epoch
  active : new.active = true → old.active = true

theorem GateKeeps.pairId {old new : Gate} (h : GateKeeps old new) : new.pairId = old.pairId := by
  unfold Gate.pairId
  rw [h.subject]

theorem oneMerge_of_back {gates gates' : List Gate} (one : OneMerge gates)
    (back : ∀ {g : GateId} {gate' : Gate}, gates'[g]? = some gate' → gate'.pairId = none →
      gate'.active = true → ∃ gate, gates[g]? = some gate ∧ GateKeeps gate gate') :
    OneMerge gates' := by
  intro g h gate' other' gateAt otherAt group active otherActive repository subject
  have otherGroup : other'.pairId = none := by
    unfold Gate.pairId at group ⊢
    rw [← subject]
    exact group
  obtain ⟨gate, gateBefore, keeps⟩ := back gateAt group active
  obtain ⟨other, otherBefore, otherKeeps⟩ := back otherAt otherGroup otherActive
  rw [keeps.repository, otherKeeps.repository] at repository
  rw [keeps.subject, otherKeeps.subject] at subject
  rw [keeps.pairId] at group
  exact one g h gate other gateBefore otherBefore group (keeps.active active)
    (otherKeeps.active otherActive) repository subject

/-- Changes in place, in which a pair and its gate end together. -/
theorem of_rows (coupled : Coupled db)
    (pairs : Table.Rowwise PairKeeps db.pairs db'.pairs)
    (back : ∀ {g : GateId} {gate' : Gate} {p : PairId}, db'.gates[g]? = some gate' →
      gate'.pairId = some p → ∃ gate, db.gates[g]? = some gate ∧ GateKeeps gate gate')
    (forth : ∀ {g : GateId} {gate : Gate} {p : PairId}, db.gates[g]? = some gate →
      gate.pairId = some p → ∃ gate', db'.gates[g]? = some gate' ∧ GateKeeps gate gate')
    (together : ∀ {p : PairId} {pair pair' : Pair} {g : GateId} {gate gate' : Gate},
      Gated db p pair g gate → db'.pairs[p]? = some pair' → db'.gates[g]? = some gate' →
      (pair'.active = true ↔ gate'.active = true))
    (merge : OneMerge db'.gates) : Coupled db' where
  oneMerge := merge
  onePair := by
    intro p q pair' other' pairAt otherAt active otherActive same
    obtain ⟨pair, pairAt, keeps⟩ := pairs.before pairAt
    obtain ⟨other, otherAt, otherKeeps⟩ := pairs.before otherAt
    exact coupled.onePair pairAt otherAt (keeps.active active) (otherKeeps.active otherActive)
      (keeps.samePull otherKeeps same)
  oneEpoch := by
    intro p q pair' other' pairAt otherAt same epoch
    obtain ⟨pair, pairAt, keeps⟩ := pairs.before pairAt
    obtain ⟨other, otherAt, otherKeeps⟩ := pairs.before otherAt
    rw [keeps.epoch, otherKeeps.epoch] at epoch
    exact coupled.oneEpoch pairAt otherAt (keeps.samePull otherKeeps same) epoch
  oneHead := by
    intro p q pair' other' pairAt otherAt same base head
    obtain ⟨pair, pairAt, keeps⟩ := pairs.before pairAt
    obtain ⟨other, otherAt, otherKeeps⟩ := pairs.before otherAt
    rw [keeps.base, otherKeeps.base] at base
    rw [keeps.head, otherKeeps.head] at head
    exact coupled.oneHead pairAt otherAt (keeps.samePull otherKeeps same) base head
  opened := by
    intro p pair' pairAt active
    obtain ⟨pair, pairAt, keeps⟩ := pairs.before pairAt
    exact keeps.opened active (coupled.opened pairAt (keeps.active active))
  gated := by
    intro p pair' pairAt active
    obtain ⟨pair, before, keeps⟩ := pairs.before pairAt
    obtain ⟨g, gate, gated⟩ := coupled.gated before (keeps.active active)
    obtain ⟨gate', gateAt, gateKeeps⟩ := forth gated.gateAt gated.bound
    refine ⟨g, gate', pairAt, active, gateAt, (together gated pairAt gateAt).mp active, ?_⟩
    rw [gateKeeps.pairId]
    exact gated.bound
  fits := by
    intro g gate' p gateAt bound
    obtain ⟨gate, before, gateKeeps⟩ := back gateAt bound
    rw [gateKeeps.pairId] at bound
    obtain ⟨pair, pairAt, fits⟩ := coupled.fits before bound
    obtain ⟨pair', after, keeps⟩ := pairs.after pairAt
    refine ⟨pair', after, ?_, ?_, ?_, ?_⟩
    · rw [gateKeeps.subject, keeps.number]
      exact fits.subject
    · rw [gateKeeps.repository, keeps.repository]
      exact fits.repository
    · rw [gateKeeps.epoch, keeps.epoch]
      exact fits.epoch
    · intro active
      have current := fits.current (gateKeeps.active active)
      have gated : Gated db p pair g gate :=
        ⟨pairAt, current.1, before, gateKeeps.active active, bound⟩
      rw [gateKeeps.epoch, keeps.epoch]
      exact ⟨(together gated after gateAt).mpr active, current.2⟩
  oneGate := by
    intro g h gate' other' p gateAt otherAt bound otherBound epoch
    obtain ⟨gate, gateBefore, keeps⟩ := back gateAt bound
    obtain ⟨other, otherBefore, otherKeeps⟩ := back otherAt otherBound
    rw [keeps.pairId] at bound
    rw [otherKeeps.pairId] at otherBound
    rw [keeps.epoch, otherKeeps.epoch] at epoch
    exact coupled.oneGate gateBefore otherBefore bound otherBound epoch

/-- A pair that is as active as before. -/
structure PairStays (old new : Pair) : Prop extends PairKeeps old new where
  still : old.active = true → new.active = true

theorem PairStays.refl (pair : Pair) : PairStays pair pair where
  repository := rfl
  number := rfl
  base := rfl
  head := rfl
  epoch := rfl
  active active := active
  opened _ opened := opened
  still active := active

/-- A gate that is as active as before. -/
structure GateStays (old new : Gate) : Prop extends GateKeeps old new where
  still : old.active = true → new.active = true

theorem GateStays.refl (gate : Gate) : GateStays gate gate where
  repository := rfl
  subject := rfl
  epoch := rfl
  active active := active
  still active := active

theorem of_rowwise (coupled : Coupled db) (pairs : Table.Rowwise PairStays db.pairs db'.pairs)
    (gates : Table.Rowwise GateStays db.gates db'.gates) : Coupled db' := by
  refine coupled.of_rows (pairs.mono fun _ _ stays => stays.toPairKeeps) ?_ ?_ ?_ ?_
  · intro g gate' p found _
    obtain ⟨gate, before, stays⟩ := gates.before found
    exact ⟨gate, before, stays.toGateKeeps⟩
  · intro g gate p found _
    obtain ⟨gate', after, stays⟩ := gates.after found
    exact ⟨gate', after, stays.toGateKeeps⟩
  · intro p pair pair' g gate gate' gated pairAt gateAt
    obtain ⟨pair₁, before, stays⟩ := pairs.before pairAt
    obtain ⟨gate₁, gateBefore, gateStays⟩ := gates.before gateAt
    rw [gated.pairAt] at before
    rw [gated.gateAt] at gateBefore
    cases before
    cases gateBefore
    exact iff_of_true (stays.still gated.pairActive) (gateStays.still gated.gateActive)
  · refine oneMerge_of_back coupled.oneMerge fun found _ _ => ?_
    obtain ⟨gate, before, stays⟩ := gates.before found
    exact ⟨gate, before, stays.toGateKeeps⟩

theorem samePairs : Table.Rowwise PairStays db.pairs db.pairs := .refl PairStays.refl

theorem sameGates : Table.Rowwise GateStays db.gates db.gates := .refl GateStays.refl

theorem of_worker (coupled : Coupled db) (change : WorkerChange db db') : Coupled db' := by
  cases change with
  | leasePair lease found _ _ =>
      exact coupled.of_rowwise
        (.put PairStays.refl found ⟨⟨rfl, rfl, rfl, rfl, rfl, id, fun _ => id⟩, id⟩) sameGates
  | holdPair lease found _ =>
      exact coupled.of_rowwise
        (.put PairStays.refl found ⟨⟨rfl, rfl, rfl, rfl, rfl, id, fun _ => id⟩, id⟩) sameGates
  | decide state summary now gated _ _ =>
      exact coupled.of_rowwise samePairs
        (.put GateStays.refl gated.gateAt ⟨⟨rfl, rfl, rfl, id⟩, id⟩)
  | plan now _ _ _ _ => exact coupled.of_rowwise samePairs sameGates
  | attempt _ _ => exact coupled.of_rowwise samePairs sameGates
  | adopt _ _ _ _ _ => exact coupled.of_rowwise samePairs sameGates
  | timeout _ _ => exact coupled.of_rowwise samePairs sameGates
  | leaseGate lease found =>
      exact coupled.of_rowwise samePairs (.put GateStays.refl found ⟨⟨rfl, rfl, rfl, id⟩, id⟩)
  | revise state summary checkRunId now found _ =>
      exact coupled.of_rowwise samePairs (.put GateStays.refl found ⟨⟨rfl, rfl, rfl, id⟩, id⟩)
  | publish checkRunId publishedState found =>
      exact coupled.of_rowwise samePairs (.put GateStays.refl found ⟨⟨rfl, rfl, rfl, id⟩, id⟩)
  | item _ _ _ _ _ _ _ => exact coupled.of_rowwise samePairs sameGates

/-! ## Events -/

theorem of_revocation (coupled : Coupled db) {r : Revocation} (gated : Gated db p pair g gate)
    (fits : r.Fits listed pair) : Coupled (r.apply db p pair g gate) := by
  have pairs : Table.Rowwise PairKeeps db.pairs (r.apply db p pair g gate).pairs :=
    .put (fun pair => (PairStays.refl pair).toPairKeeps) gated.pairAt
      ⟨rfl, rfl, rfl, rfl, rfl, fun _ => gated.pairActive, fun active _ => fits.opened active⟩
  have gates : Table.Rowwise GateKeeps db.gates (r.apply db p pair g gate).gates :=
    .put (fun gate => (GateStays.refl gate).toGateKeeps) gated.gateAt
      ⟨rfl, rfl, rfl, fun _ => gated.gateActive⟩
  refine coupled.of_rows pairs (fun found _ => gates.before found)
    (fun found _ => gates.after found) ?_
    (oneMerge_of_back coupled.oneMerge fun found _ _ => gates.before found)
  intro q other other' h gate₁ gate₁' gated₁ pairAt gateAt
  by_cases same : q = p
  · -- The pair of the event: its gate is the event's gate.
    subst same
    have place := coupled.gate_unique gated gated₁.gateAt gated₁.bound gated₁.gateActive
    subst place
    rw [Revocation.apply, Table.getElem?_put (Table.lt_length gated.pairAt).le,
      if_pos rfl] at pairAt
    rw [Revocation.apply, Table.getElem?_put (Table.lt_length gated.gateAt).le,
      if_pos rfl] at gateAt
    cases pairAt
    cases gateAt
    exact Iff.rfl
  · have apart : h ≠ g := by
      rintro rfl
      have same_gate := gated.gateAt.symm.trans gated₁.gateAt
      cases same_gate
      exact same (Option.some.inj (gated₁.bound.symm.trans gated.bound))
    rw [Revocation.apply, Table.getElem?_put (Table.lt_length gated.pairAt).le, if_neg same,
      gated₁.pairAt] at pairAt
    rw [Revocation.apply, Table.getElem?_put (Table.lt_length gated.gateAt).le, if_neg apart,
      gated₁.gateAt] at gateAt
    cases pairAt
    cases gateAt
    exact iff_of_true gated₁.pairActive gated₁.gateActive

/-- A merge-group gate that becomes the last one is the only active one of its group. -/
theorem oneMerge_merged (coupled : Coupled db) (merge : MergeGate db g gate) :
    OneMerge (Table.put db.gates g gate) := by
  rcases merge.place.lt_or_eq with inside | last
  · obtain ⟨old, oldAt⟩ : ∃ old, db.gates[g]? = some old := ⟨_, List.getElem?_eq_getElem inside⟩
    obtain ⟨repository, subject, _, active⟩ := merge.kept old oldAt
    have rows : Table.Rowwise GateKeeps db.gates (Table.put db.gates g gate) :=
      .put (fun gate => (GateStays.refl gate).toGateKeeps) oldAt
        ⟨repository, subject, (merge.revised old oldAt).2.1, active⟩
    exact oneMerge_of_back coupled.oneMerge fun found _ _ => rows.before found
  · intro h k one other oneAt otherAt group active otherActive repository subject
    rw [Table.getElem?_put merge.place] at oneAt otherAt
    split at oneAt
    · next here =>
        cases oneAt
        split at otherAt
        · next there => exact here.trans there.symm
        · have ended := (merge.fresh last active k other otherAt repository.symm subject.symm).1
          simp [ended] at otherActive
    · split at otherAt
      · cases otherAt
        have ended := (merge.fresh last otherActive h one oneAt repository subject).1
        simp [ended] at active
      · exact coupled.oneMerge h k one other oneAt otherAt group active otherActive repository
          subject

theorem of_merge (coupled : Coupled db) {now : Time} (merge : MergeGate db g gate) :
    Coupled { db with
      gates := Table.put db.gates g gate, outbox := withPublication db.outbox g gate now } := by
  have unseen : ∀ {h : GateId} {other : Gate} {q : PairId},
      (Table.put db.gates g gate)[h]? = some other → other.pairId = some q →
        db.gates[h]? = some other := by
    intro h other q found bound
    rw [Table.getElem?_put merge.place] at found
    split at found
    · cases found
      rw [merge.group] at bound
      cases bound
    · exact found
  have kept : ∀ {h : GateId} {other : Gate} {q : PairId}, db.gates[h]? = some other →
      other.pairId = some q → (Table.put db.gates g gate)[h]? = some other := by
    intro h other q found bound
    rw [Table.getElem?_put merge.place]
    split
    · next same =>
        subst same
        rw [(merge.revised other found).1] at bound
        cases bound
    · exact found
  refine coupled.of_rows (samePairs.mono fun _ _ stays => stays.toPairKeeps) ?_ ?_ ?_
    (oneMerge_merged coupled merge)
  · intro h other q found bound
    exact ⟨other, unseen found bound, (GateStays.refl other).toGateKeeps⟩
  · intro h other q found bound
    exact ⟨other, kept found bound, (GateStays.refl other).toGateKeeps⟩
  · intro q other other' h gate₁ gate₁' gated pairAt gateAt
    have gateAfter := kept gated.gateAt gated.bound
    rw [gated.pairAt] at pairAt
    rw [gateAfter] at gateAt
    cases pairAt
    cases gateAt
    exact iff_of_true gated.pairActive gated.gateActive

theorem of_quarantine (coupled : Coupled db) (deliveryId : String) (order : List (GateId × Gate))
    (now : Time) : Coupled (quarantinedAll db deliveryId order now) := by
  refine coupled.of_rowwise (.update ?_ PairStays.refl) (.update ?_ GateStays.refl)
  · intro pair _
    exact ⟨⟨rfl, rfl, rfl, rfl, rfl, id, fun _ => id⟩, id⟩
  · intro gate _
    exact ⟨⟨rfl, rfl, rfl, id⟩, id⟩

section

variable {repository : RepositoryRef} {pull : PullPairRef} {epoch fence : Nat} {now : Time}

theorem isPull_iff {pair : Pair} {repositoryId number : Nat} :
    pair.isPull repositoryId number = true ↔
      pair.repositoryId = repositoryId ∧ pair.pullNumber = number := by
  simp [Pair.isPull]

/-- The pairs after the start of an epoch: the new one, and the others as they were. -/
theorem started_pairs (startable : Startable db repository pull p epoch fence) {q : PairId} :
    (started db repository pull p epoch fence now).pairs[q]? =
      if q = p then some (newPair repository pull epoch fence) else db.pairs[q]? :=
  Table.getElem?_put startable.place

theorem started_gates {h : GateId} :
    (started db repository pull p epoch fence now).gates[h]? =
      if h = db.gates.length then some (newPairGate repository pull p epoch) else db.gates[h]? :=
  Table.getElem?_put le_rfl

/-- Another pair of the pull request is inactive and of an older epoch. -/
theorem started_other (startable : Startable db repository pull p epoch fence) {q : PairId}
    {other : Pair} (found : db.pairs[q]? = some other)
    (same : (newPair repository pull epoch fence).samePull other) :
    other.active = false ∧ other.epoch < epoch ∧
      (other.baseSha = pull.baseSha → other.headSha = pull.headSha → q = p) :=
  startable.others q other found (isPull_iff.mpr ⟨same.1.symm, same.2.symm⟩)

theorem samePull_symm {pair other : Pair} (h : pair.samePull other) : other.samePull pair :=
  ⟨h.1.symm, h.2.symm⟩

/-- A relation of pairs of one pull request that makes them the same, at the start of an
epoch. -/
theorem started_unique (startable : Startable db repository pull p epoch fence)
    {R : Pair → Pair → Prop} (symm : ∀ {pair other}, R pair other → R other pair)
    (old : ∀ {q q' : PairId} {pair other : Pair}, db.pairs[q]? = some pair →
      db.pairs[q']? = some other → pair.samePull other → R pair other → q = q')
    (new : ∀ {q : PairId} {other : Pair}, db.pairs[q]? = some other →
      (newPair repository pull epoch fence).samePull other →
      R (newPair repository pull epoch fence) other → q = p)
    {q q' : PairId} {pair other : Pair}
    (pairAt : (started db repository pull p epoch fence now).pairs[q]? = some pair)
    (otherAt : (started db repository pull p epoch fence now).pairs[q']? = some other)
    (same : pair.samePull other) (related : R pair other) : q = q' := by
  rw [started_pairs startable] at pairAt otherAt
  split at pairAt
  · next here =>
      cases pairAt
      split at otherAt
      · next there => exact here.trans there.symm
      · exact here.trans (new otherAt same related).symm
  · split at otherAt
    · next there =>
        cases otherAt
        exact (new pairAt (samePull_symm same) (symm related)).trans there.symm
    · exact old pairAt otherAt same related

theorem of_start (coupled : Coupled db) (startable : Startable db repository pull p epoch fence) :
    Coupled (started db repository pull p epoch fence now) where
  onePair := by
    intro q q' pair other pairAt otherAt active otherActive same
    refine started_unique startable (R := fun pair other => pair.active = true ∧
      other.active = true) And.symm ?_ ?_ pairAt otherAt same ⟨active, otherActive⟩
    · intro q q' pair other found found' same both
      exact coupled.onePair found found' both.1 both.2 same
    · intro q other found same both
      rw [(started_other startable found same).1] at both
      exact absurd both.2 (by simp)
  oneEpoch := by
    intro q q' pair other pairAt otherAt same equal
    refine started_unique startable (R := fun pair other => pair.epoch = other.epoch) Eq.symm
      coupled.oneEpoch ?_ pairAt otherAt same equal
    intro q other found same equal
    have older := (started_other startable found same).2.1
    exact absurd equal older.ne'
  oneHead := by
    intro q q' pair other pairAt otherAt same base head
    refine started_unique startable (R := fun pair other => pair.baseSha = other.baseSha ∧
      pair.headSha = other.headSha) (fun h => ⟨h.1.symm, h.2.symm⟩) ?_ ?_ pairAt otherAt same
      ⟨base, head⟩
    · intro q q' pair other found found' same both
      exact coupled.oneHead found found' same both.1 both.2
    · intro q other found same both
      exact (started_other startable found same).2.2 both.1.symm both.2.symm
  opened := by
    intro q pair pairAt active
    rw [started_pairs startable] at pairAt
    split at pairAt
    · cases pairAt
      exact eq_of_beq active
    · exact coupled.opened pairAt active
  gated := by
    intro q pair pairAt active
    have after := pairAt
    rw [started_pairs startable] at pairAt
    split at pairAt
    · next here =>
        cases pairAt
        refine ⟨db.gates.length, newPairGate repository pull p epoch, after, active, ?_, active, ?_⟩
        · rw [started_gates, if_pos rfl]
        · rw [here]
          rfl
    · obtain ⟨h, gate, gated⟩ := coupled.gated pairAt active
      refine ⟨h, gate, after, active, ?_, gated.gateActive, gated.bound⟩
      rw [started_gates, if_neg (Table.lt_length gated.gateAt).ne]
      exact gated.gateAt
  fits := by
    intro h gate q gateAt bound
    rw [started_gates] at gateAt
    split at gateAt
    · cases gateAt
      cases bound
      refine ⟨newPair repository pull epoch fence, ?_, rfl, rfl, le_rfl,
        fun active => ⟨active, rfl⟩⟩
      rw [started_pairs startable, if_pos rfl]
    · obtain ⟨pair, pairAt, fits⟩ := coupled.fits gateAt bound
      by_cases here : q = p
      · -- An old gate of the pair that starts again: it ended with its own epoch.
        subst here
        obtain ⟨isPull, base, head, _⟩ := startable.replaced pair pairAt
        obtain ⟨inactive, older, _⟩ := startable.others q pair pairAt isPull
        refine ⟨newPair repository pull epoch fence, ?_, ?_, ?_, fits.epoch.trans older.le, ?_⟩
        · rw [started_pairs startable, if_pos rfl]
        · rw [fits.subject, (isPull_iff.mp isPull).2]
          rfl
        · rw [fits.repository, (isPull_iff.mp isPull).1]
          rfl
        · intro active
          rw [(fits.current active).1] at inactive
          cases inactive
      · refine ⟨pair, ?_, fits⟩
        rw [started_pairs startable, if_neg here]
        exact pairAt
  oneGate := by
    -- The new gate is of a later epoch than the other gates of its pair.
    have later : ∀ {h : GateId} {gate : Gate}, db.gates[h]? = some gate →
        gate.pairId = some p → gate.epoch < epoch := by
      intro h gate found bound
      obtain ⟨pair, pairAt, fits⟩ := coupled.fits found bound
      obtain ⟨isPull, _⟩ := startable.replaced pair pairAt
      exact fits.epoch.trans_lt (startable.others p pair pairAt isPull).2.1
    intro h h' gate other q gateAt otherAt bound otherBound equal
    rw [started_gates] at gateAt otherAt
    split at gateAt
    · next here =>
        cases gateAt
        cases bound
        split at otherAt
        · next there => exact here.trans there.symm
        · exact absurd equal (later otherAt otherBound).ne'
    · split at otherAt
      · cases otherAt
        cases otherBound
        exact absurd equal (later gateAt bound).ne
      · exact coupled.oneGate gateAt otherAt bound otherBound equal
  oneMerge := by
    refine oneMerge_of_back coupled.oneMerge fun found group _ => ?_
    rw [started_gates] at found
    split at found
    · cases found
      cases group
    · exact ⟨_, found, (GateStays.refl _).toGateKeeps⟩

end

theorem of_event (coupled : Coupled db) (change : EventChange listed db db') : Coupled db' := by
  cases change with
  | record _ _ _ _ => exact coupled.of_rowwise samePairs sameGates
  | revoke r gated fits => exact coupled.of_revocation gated fits
  | start repository pull epoch fence now startable => exact coupled.of_start startable
  | merge gate now merge => exact coupled.of_merge merge
  | evaluate _ _ => exact coupled.of_rowwise samePairs sameGates
  | reconcile _ _ _ _ => exact coupled.of_rowwise samePairs sameGates
  | quarantine deliveryId order now _ => exact coupled.of_quarantine deliveryId order now

theorem of_change (coupled : Coupled db) (change : Change listed db db') : Coupled db' := by
  cases change with
  | inl event => exact coupled.of_event event
  | inr worker => exact coupled.of_worker worker

theorem of_steps (coupled : Coupled db) (steps : Steps listed db db') : Coupled db' :=
  steps.preserves (fun change coupled => coupled.of_change change) coupled

end Coupled

end Stratadiff.Governor
