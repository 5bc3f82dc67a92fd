import Stratadiff.Governor.Runs
import Stratadiff.Governor.Schedule

/-!
# Deliveries that arrive again

An event is told apart by its delivery id, its name and the digest of its body. The
archive of the store holds exactly the events of the log, so what an ingest does is
decided by the log before it: an event of the log is ignored, and another event under a
delivery id of the log quarantines everything.
-/

namespace Stratadiff.Governor

open Transaction

/-- What the web server ingests: an event of a repository, or one that could not be scoped. -/
inductive Arrival where
  | delivery (request : IngestRequest)
  | unscoped (request : UnscopedQuarantineRequest)

namespace Arrival

def event : Arrival → Collision
  | delivery request => ⟨request.deliveryId, request.eventName, request.payloadSha256⟩
  | unscoped request => ⟨request.deliveryId, request.eventName, request.payloadSha256⟩

def ingest : Arrival → Tx IngestResult
  | delivery request => Governor.ingest request
  | unscoped request => quarantineUnscopedSignedDelivery request

end Arrival

/-- The event that an entry of the log ingested. -/
def Entry.arrival? (entry : Entry) : Option Arrival :=
  match entry.event with
  | .ingested request _ => some (.delivery request)
  | .quarantined request _ => some (.unscoped request)
  | _ => none

/-- The events that a log ingested. -/
def ingestedEvents (log : List Entry) : List Collision :=
  (log.filterMap Entry.arrival?).map Arrival.event

variable {db db' : Database} {event : Collision} {log : List Entry}

theorem ingestedEvents_cons {entry : Entry} :
    ingestedEvents (entry :: log) =
      (entry.arrival?.map Arrival.event).toList ++ ingestedEvents log := by
  rw [ingestedEvents, List.filterMap_cons]
  cases entry.arrival? <;> rfl

theorem known_iff_mem :
    Known db event ↔ event ∈ db.deliveries.map Delivery.event ∨ event ∈ db.collisions := by
  rw [Known, List.mem_map]

/-- A disposition is no part of what tells events apart. -/
theorem events_settled {rows : List Delivery} {deliveryId : String}
    {disposition : IngestDisposition} :
    (Table.update rows (·.deliveryId == deliveryId) fun row =>
      { row with disposition := some disposition }).map Delivery.event =
        rows.map Delivery.event := by
  rw [Table.update, List.map_map]
  refine List.map_congr_left fun row _ => ?_
  change Delivery.event (if _ then _ else _) = _
  split <;> rfl

/-! ## Claims -/

theorem Known.delivered (filed : Filed db) (known : Known db event) :
    Delivered db event.deliveryId := by
  rcases known with ⟨row, member, rfl⟩ | collided
  · exact ⟨row, member, rfl⟩
  · exact filed.2 event collided

theorem find_delivery (filed : Filed db) {row : Delivery} (member : row ∈ db.deliveries) :
    db.deliveries.find? (·.deliveryId == row.deliveryId) = some row := by
  cases found : db.deliveries.find? (·.deliveryId == row.deliveryId) with
  | none => simpa using List.find?_eq_none.mp found row member
  | some other =>
      have same : (other.deliveryId == row.deliveryId) = true :=
        List.find?_some (p := fun other : Delivery => other.deliveryId == row.deliveryId) found
      have there := List.mem_of_find?_eq_some found
      rw [List.inj_on_of_nodup_map filed.1 there member (eq_of_beq same)]

theorem claimDelivery_new (undelivered : ¬ Delivered db event.deliveryId) :
    claimDelivery event.deliveryId event.eventName event.payloadSha256 db =
      .ok (.new, { db with deliveries := db.deliveries ++
        [⟨event.deliveryId, event.eventName, event.payloadSha256, none⟩] }) := by
  have unknown : db.deliveries.find? (·.deliveryId == event.deliveryId) = none := by
    refine List.find?_eq_none.mpr fun row member same => ?_
    exact undelivered ⟨row, member, eq_of_beq same⟩
  rw [claimDelivery, get_bind, unknown]
  rfl

/-- A known event is a duplicate of its delivery or of its collision. -/
theorem claimDelivery_known (filed : Filed db) (settled : Settled db) (known : Known db event) :
    ∃ claim, claimDelivery event.deliveryId event.eventName event.payloadSha256 db =
      .ok (claim, db) ∧ ((∃ disposition, claim = .duplicate disposition) ∨
        claim = .duplicateCollision) := by
  obtain ⟨row, member, same⟩ := known.delivered filed
  have found := find_delivery filed member
  rw [same] at found
  rw [claimDelivery, get_bind, found]
  dsimp only
  by_cases matches' : (row.eventName == event.eventName &&
      row.payloadSha256 == event.payloadSha256) = true
  · rw [if_pos matches']
    cases disposed : row.disposition with
    | none => exact absurd disposed (settled row member)
    | some disposition => exact ⟨_, rfl, .inl ⟨disposition, rfl⟩⟩
  · rw [if_neg matches']
    have collided : event ∈ db.collisions := by
      refine known.resolve_left ?_
      rintro ⟨other, there, rfl⟩
      cases Option.some.inj ((find_delivery filed there).symm.trans found)
      simp [Delivery.event] at matches'
    have present : db.collisions.any
        (· == ⟨event.deliveryId, event.eventName, event.payloadSha256⟩) = true :=
      List.any_eq_true.mpr ⟨event, collided, beq_iff_eq.mpr rfl⟩
    rw [if_pos present]
    exact ⟨_, rfl, .inr rfl⟩

/-- Another event of a known delivery collides with it. -/
theorem claimDelivery_collision (delivered : Delivered db event.deliveryId)
    (unknown : ¬ Known db event) :
    claimDelivery event.deliveryId event.eventName event.payloadSha256 db =
      .ok (.collision, { db with collisions := db.collisions ++ [event] }) := by
  obtain ⟨first, there, named⟩ := delivered
  cases found : db.deliveries.find? (·.deliveryId == event.deliveryId) with
  | none => simpa [named] using List.find?_eq_none.mp found first there
  | some row =>
      have member := List.mem_of_find?_eq_some found
      have same : (row.deliveryId == event.deliveryId) = true :=
        List.find?_some (p := fun row : Delivery => row.deliveryId == event.deliveryId) found
      rw [claimDelivery, get_bind, found]
      dsimp only
      rw [if_neg, if_neg]
      · rfl
      · intro collided
        obtain ⟨other, member, equal⟩ := List.any_eq_true.mp collided
        have same : other = event := eq_of_beq equal
        exact unknown (.inr (same ▸ member))
      · intro matches'
        simp only [Bool.and_eq_true, beq_iff_eq] at matches' same
        refine unknown (.inl ⟨row, member, ?_⟩)
        rw [Delivery.event, same, matches'.1, matches'.2]

/-! ## Ingests -/

/-- Every active pair and every active gate is quarantined by a delivery. -/
structure QuarantinesAll (deliveryId : String) (db db' : Database) : Prop where
  pairs : db'.pairs = Table.update db.pairs (·.active) (·.quarantinedBy deliveryId)
  gates : db'.gates = Table.update db.gates (·.active) (·.quarantinedBy deliveryId)
  evidence : db'.evidence = db.evidence

namespace Arrival

variable {arrival : Arrival}

theorem ingest_known (filed : Filed db) (settled : Settled db) (known : Known db arrival.event) :
    ∃ disposition, arrival.ingest db = .ok (⟨true, disposition, []⟩, db) := by
  obtain ⟨claim, run, claims⟩ := claimDelivery_known filed settled known
  cases arrival with
  | delivery request =>
      rw [ingest, Governor.ingest]
      rcases claims with ⟨disposition, rfl⟩ | rfl
      · exact ⟨disposition, bind_of_ok run⟩
      · exact ⟨.applied, bind_of_ok run⟩
  | unscoped request =>
      rw [ingest, quarantineUnscopedSignedDelivery]
      rcases claims with ⟨disposition, rfl⟩ | rfl
      · exact ⟨disposition, bind_of_ok run⟩
      · exact ⟨.applied, bind_of_ok run⟩

theorem ingest_collision (delivered : Delivered db arrival.event.deliveryId)
    (unknown : ¬ Known db arrival.event) :
    Commits arrival.ingest db fun result db' =>
      result.duplicate = false ∧ result.disposition = .applied ∧
        QuarantinesAll arrival.event.deliveryId db db' ∧
        db'.archive = (db.deliveries, db.collisions ++ [arrival.event]) := by
  have claimed := claimDelivery_collision delivered unknown
  cases arrival with
  | delivery request =>
      rw [ingest, Governor.ingest]
      refine .bind (.of_eq claimed (.bind (quarantineAll_commits.mono ?_)))
      rintro _ _ ⟨order, _, rfl, rfl⟩
      exact .pure ⟨rfl, rfl, ⟨rfl, rfl, rfl⟩, rfl⟩
  | unscoped request =>
      rw [ingest, quarantineUnscopedSignedDelivery]
      refine .bind (.of_eq claimed (.bind (quarantineAll_commits.mono ?_)))
      rintro _ _ ⟨order, _, rfl, rfl⟩
      exact .pure ⟨rfl, rfl, ⟨rfl, rfl, rfl⟩, rfl⟩

theorem ingest_new (coupled : Coupled db) (undelivered : ¬ Delivered db arrival.event.deliveryId) :
    Commits arrival.ingest db fun _ db' =>
      db'.deliveries.map Delivery.event = db.deliveries.map Delivery.event ++ [arrival.event] ∧
        db'.collisions = db.collisions := by
  have claimed := claimDelivery_new undelivered
  have coupled₁ : ∀ row, Coupled { db with deliveries := db.deliveries ++ [row] } := fun _ =>
    coupled.of_rowwise Coupled.samePairs Coupled.sameGates
  have events : ∀ {rows : List Delivery} {row : Delivery}, row.event = arrival.event →
      rows = db.deliveries ++ [row] →
        rows.map Delivery.event = db.deliveries.map Delivery.event ++ [arrival.event] := by
    rintro _ row same rfl
    rw [List.map_append, List.map_singleton, same]
  cases arrival with
  | delivery request =>
      rw [ingest, Governor.ingest]
      refine .bind (.of_eq claimed (.bind ((applyImpact_handles (coupled₁ _)).mono ?_)))
      rintro outcome db₂ ⟨_, archive, _⟩
      refine .bind (.of_eq rfl (.pure ⟨events_settled.trans ?_, congrArg Prod.snd archive⟩))
      exact events rfl (congrArg Prod.fst archive)
  | unscoped request =>
      rw [ingest, quarantineUnscopedSignedDelivery]
      refine .bind (.of_eq claimed (.bind (quarantineAll_commits.mono ?_)))
      rintro _ _ ⟨order, _, rfl, rfl⟩
      exact .bind (.of_eq rfl (.pure ⟨events_settled.trans (events rfl rfl), rfl⟩))

/-- An ingest always succeeds, and adds its event to the archive. -/
theorem ingest_archives (standing : Standing db) (filed : Filed db) :
    Commits arrival.ingest db fun _ db' =>
      ∀ event, Known db' event ↔ event = arrival.event ∨ Known db event := by
  by_cases known : Known db arrival.event
  · obtain ⟨disposition, run⟩ := ingest_known filed standing.settled known
    refine .of_eq run fun event => ⟨.inr, ?_⟩
    rintro (rfl | known')
    · exact known
    · exact known'
  by_cases delivered : Delivered db arrival.event.deliveryId
  · refine (ingest_collision delivered known).mono ?_
    rintro _ db' ⟨_, _, _, archive⟩ event
    obtain ⟨deliveries, collisions⟩ := Prod.mk.inj archive
    rw [known_iff_mem, known_iff_mem, deliveries, collisions]
    simp only [List.mem_append, List.mem_singleton]
    tauto
  · refine (ingest_new standing.sound.coupled delivered).mono ?_
    rintro _ db' ⟨deliveries, collisions⟩ event
    rw [known_iff_mem, known_iff_mem, deliveries, collisions]
    simp only [List.mem_append, List.mem_singleton]
    tauto

end Arrival

/-! ## Runs -/

theorem Entry.Holds.of_arrival {entry : Entry} {arrival : Arrival}
    (arrives : entry.arrival? = some arrival) (holds : entry.Holds) :
    ∃ result, arrival.ingest entry.before = .ok (result, entry.after) := by
  obtain ⟨event, before, after⟩ := entry
  cases event with
  | ingested request result =>
      cases arrives
      exact ⟨result, holds⟩
  | quarantined request result =>
      cases arrives
      exact ⟨result, holds⟩
  | _ => cases arrives

theorem Entry.Holds.archive {entry : Entry} (sound : Sound entry.before)
    (other : entry.arrival? = none) (holds : entry.Holds) :
    entry.after.archive = entry.before.archive := by
  obtain ⟨event, before, after⟩ := entry
  cases event with
  | ingested request result => cases other
  | quarantined request result => cases other
  | called w op answer received =>
      obtain ⟨locked, clock, run⟩ := holds
      exact ((run_ran sound).of_ok run).archive
  | _ => exact congrArg Database.archive holds

theorem Logged.filed (logged : Logged log db) : Filed db := by
  refine logged.keeps ⟨List.nodup_nil, fun _ member => by cases member⟩ ?_
  intro listed db db' sound change filed
  exact (Grows.of_change change).recorded.filed filed

/-- The archive holds the events of the log. -/
theorem Logged.known_iff (logged : Logged log db) :
    Known db event ↔ event ∈ ingestedEvents log := by
  induction logged with
  | nil => simp [known_iff_mem, ingestedEvents, Database.empty]
  | @cons log entry before holds ih =>
      rw [ingestedEvents_cons, List.mem_append, ← ih]
      cases arrives : entry.arrival? with
      | none =>
          obtain ⟨deliveries, collisions⟩ :=
            Prod.mk.inj (holds.archive before.standing.sound arrives)
          rw [known_iff_mem, known_iff_mem, deliveries, collisions]
          simp
      | some arrival =>
          obtain ⟨result, run⟩ := holds.of_arrival arrives
          rw [(arrival.ingest_archives before.standing before.filed).of_ok run event]
          simp

theorem Logged.delivered_iff (logged : Logged log db) {deliveryId : String} :
    Delivered db deliveryId ↔ ∃ event ∈ ingestedEvents log, event.deliveryId = deliveryId := by
  constructor
  · rintro ⟨row, member, rfl⟩
    exact ⟨row.event, logged.known_iff.mp (.inl ⟨row, member, rfl⟩), rfl⟩
  · rintro ⟨event, member, rfl⟩
    exact (logged.known_iff.mpr member).delivered logged.filed

/-- What the ingest of an event does after a log. -/
structure Idempotent (log : List Entry) (db : Database) (event : Collision)
    (outcome : Except String (IngestResult × Database)) : Prop where
  /-- An event that was ingested before changes nothing. -/
  repeated : event ∈ ingestedEvents log →
    ∃ disposition, outcome = .ok (⟨true, disposition, []⟩, db)
  /-- A new event of a delivery that was ingested before quarantines everything. -/
  reused : event ∉ ingestedEvents log →
    (∃ other ∈ ingestedEvents log, other.deliveryId = event.deliveryId) →
      ∃ touched db', outcome = .ok (⟨false, .applied, touched⟩, db') ∧
        QuarantinesAll event.deliveryId db db'

theorem Logged.idempotent (logged : Logged log db) (arrival : Arrival) :
    Idempotent log db arrival.event (arrival.ingest db) where
  repeated before :=
    arrival.ingest_known logged.filed logged.standing.settled (logged.known_iff.mpr before)
  reused new other := by
    obtain ⟨⟨_, _, touched⟩, db', run, rfl, rfl, quarantined, _⟩ :=
      arrival.ingest_collision (logged.delivered_iff.mpr other) fun known =>
        new (logged.known_iff.mp known)
    exact ⟨touched, db', run, quarantined⟩

variable {setup : Setup} {permits : Policy} {c : Config setup permits}

/-- Deliveries are idempotent. In every reachable configuration the ingest of an event that
the run ingested before changes nothing, and that of another event under a used delivery id
quarantines every active pair and gate. So it was at every ingest of the run: of the events
that reuse a delivery id, each quarantines once, when it first arrives. -/
theorem deliveries_idempotent (reachable : Reachable c) :
    (∀ arrival : Arrival,
      Idempotent c.state.log c.state.database arrival.event (arrival.ingest c.state.database)) ∧
    ∀ newer entry older arrival, c.state.log = newer ++ entry :: older →
      entry.arrival? = some arrival →
        ∃ result, Idempotent older entry.before arrival.event (.ok (result, entry.after)) := by
  refine ⟨reachable.logged.idempotent, ?_⟩
  intro newer entry older arrival log arrives
  have logged := reachable.logged
  rw [log] at logged
  obtain ⟨before, holds⟩ := logged.entry
  obtain ⟨result, run⟩ := holds.of_arrival arrives
  exact ⟨result, run ▸ before.idempotent arrival⟩

/-- A push, another body under its delivery id, and that body again. -/
theorem deliveries_idempotent_sample : ∃ (c : Config Sample.setup .any) (arrival : Arrival)
    (disposition : IngestDisposition), Reachable c ∧ c.state.log.length = 2 ∧
      arrival.ingest c.state.database = .ok (⟨true, disposition, []⟩, c.state.database) := by
  have run : ∃ c : Config Sample.setup .any, Reachable c ∧ (c.state.log.length == 2 &&
      (ingestedEvents c.state.log).contains ⟨"d1", "push", "s2"⟩) = true :=
    reachable_of_exec [
      .ingest ⟨"d1", "push", "s1", 1000, .repositoryReconcile Sample.repository .push⟩,
      .ingest ⟨"d1", "push", "s2", 2000, .repositoryReconcile Sample.repository .push⟩] _
      (by decide +kernel)
  obtain ⟨c, reachable, check⟩ := run
  simp only [Bool.and_eq_true, beq_iff_eq, List.contains_iff_mem] at check
  let again : Arrival :=
    .delivery ⟨"d1", "push", "s2", 3000, .repositoryReconcile Sample.repository .push⟩
  obtain ⟨disposition, same⟩ := ((deliveries_idempotent reachable).1 again).repeated check.2
  exact ⟨c, again, disposition, reachable, check.1, same⟩

end Stratadiff.Governor
