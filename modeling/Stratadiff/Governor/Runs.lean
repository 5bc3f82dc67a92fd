import Stratadiff.Governor.Calls
import Stratadiff.Governor.System

/-!
# Runs

What the log of a run records is what happened: each entry is a transaction that succeeded
on the database before it, and the entries follow on one another. In every world that a
run reaches the database is sound, and no transaction of the store fails.
-/

namespace Stratadiff.Governor

open Transaction

variable {db db' : Database}

/-- The transaction that an entry records. -/
def Entry.Holds (entry : Entry) : Prop :=
  match entry.event with
  | .ingested request result => ingest request entry.before = .ok (result, entry.after)
  | .quarantined request result =>
      quarantineUnscopedSignedDelivery request entry.before = .ok (result, entry.after)
  | .called _ op answer _ =>
      ∃ locked clock, op.run locked clock entry.before = .ok (answer, entry.after)
  | _ => entry.after = entry.before

/-- A log that leads from the empty database to `db`. -/
inductive Logged : List Entry → Database → Prop where
  | nil : Logged [] .empty
  | cons {log : List Entry} {entry : Entry} : Logged log entry.before → entry.Holds →
      Logged (entry :: log) entry.after

/-! ## Ingests -/

section

variable {deliveryId : String} {addresses : Pair → Prop} {result : IngestResult} {now : Time}

/-- The changes of an ingest: those before its listing, and its listing. -/
theorem Ingested.preserves {P : Database → Prop}
    (ingested : Ingested db deliveryId addresses result now db')
    (steps : ∀ {listed db'}, EventSteps listed db db' → P db')
    (change : ∀ {db₁ db₂}, P db₁ → EventChange none db₁ db₂ → P db₂) : P db' := by
  rcases ingested.steps with plain | ⟨repository, db₁, deliveries, _, before, delivered, recorded,
    rfl⟩
  · exact steps plain
  · refine change (change (steps before) (.reconcile repository deliveryId now delivered)) ?_
    exact .record deliveries _ _ ⟨recorded.delivered, recorded.generations,
      recorded.known, recorded.filed⟩

end

/-! ## Entries -/

/-- What the store's reasoning rests on, before and after every entry. -/
structure Standing (db : Database) : Prop where
  sound : Sound db
  settled : Settled db

/-- What every change keeps, an entry keeps. -/
theorem Entry.Holds.keeps {P : Database → Prop} {entry : Entry}
    (step : ∀ {listed db db'}, Sound db → Change listed db db' → P db → P db')
    (standing : Standing entry.before) (holds : entry.Holds) (before : P entry.before) :
    P entry.after := by
  have steps : ∀ {listed db'}, Steps listed entry.before db' → Sound db' ∧ P db' := by
    intro listed db' steps
    refine steps.preserves (P := fun db => Sound db ∧ P db) ?_ ⟨standing.sound, before⟩
    rintro db₁ db₂ change ⟨sound, kept⟩
    exact ⟨sound.of_change change, step sound change kept⟩
  obtain ⟨event, db, after⟩ := entry
  have ingested : ∀ {deliveryId : String} {addresses : Pair → Prop} {result : IngestResult}
      {now : Time}, Ingested db deliveryId addresses result now after → P after := by
    intro deliveryId addresses result now ingested
    refine (ingested.preserves (P := fun db => Sound db ∧ P db) ?_ ?_).2
    · exact fun plain => steps plain.steps
    · rintro db₁ db₂ ⟨sound, kept⟩ change
      exact ⟨sound.of_change (.inl change), step sound (.inl change) kept⟩
  have same : after = db → P after := by
    rintro rfl
    exact before
  obtain ⟨sound, settled⟩ := standing
  cases event with
  | ingested request result => exact ingested ((ingest_ingested sound.coupled settled).of_ok holds)
  | quarantined request result =>
      exact ingested ((quarantineUnscoped_ingested sound.coupled settled).of_ok holds)
  | called w op answer received =>
      obtain ⟨locked, clock, run⟩ := holds
      exact (steps ((run_ran sound).of_ok run).steps).2
  | ticked _ => exact same holds
  | refused _ _ => exact same holds
  | asked _ _ _ _ => exact same holds
  | unreached _ _ => exact same holds
  | stopped _ => exact same holds

theorem Entry.Holds.ran {entry : Entry} (standing : Standing entry.before) (holds : entry.Holds) :
    Standing entry.after ∧ Grows entry.before entry.after := by
  have kept : Sound entry.after ∧ Grows entry.before entry.after := by
    refine holds.keeps (P := fun db => Sound db ∧ Grows entry.before db) ?_ standing
      ⟨standing.sound, .refl _⟩
    rintro listed db₁ db₂ sound change ⟨_, grows⟩
    exact ⟨sound.of_change change, grows.trans (.of_change change)⟩
  refine ⟨⟨kept.1, ?_⟩, kept.2⟩
  obtain ⟨event, before, after⟩ := entry
  obtain ⟨sound, settled⟩ := standing
  have same : after = before → Settled after := by
    rintro rfl
    exact settled
  cases event with
  | ingested request result => exact ((ingest_ingested sound.coupled settled).of_ok holds).settled
  | quarantined request result =>
      exact ((quarantineUnscoped_ingested sound.coupled settled).of_ok holds).settled
  | called w op answer received =>
      obtain ⟨locked, clock, run⟩ := holds
      rw [Settled, ((run_ran sound).of_ok run).deliveries]
      exact settled
  | ticked _ => exact same holds
  | refused _ _ => exact same holds
  | asked _ _ _ _ => exact same holds
  | unreached _ _ => exact same holds
  | stopped _ => exact same holds

theorem standing_empty : Standing .empty := ⟨.empty, fun _ member => by cases member⟩

theorem Logged.standing {log : List Entry} (logged : Logged log db) : Standing db := by
  induction logged with
  | nil => exact standing_empty
  | cons _ holds ih => exact (holds.ran ih).1

/-- What every change keeps holds in every logged database. -/
theorem Logged.keeps {P : Database → Prop} {log : List Entry} (empty : P .empty)
    (step : ∀ {listed db db'}, Sound db → Change listed db db' → P db → P db')
    (logged : Logged log db) : P db := by
  induction logged with
  | nil => exact empty
  | cons before holds ih => exact holds.keeps step before.standing ih

theorem Logged.head {log : List Entry} {entry : Entry} (logged : Logged (entry :: log) db) :
    Logged log entry.before ∧ entry.Holds ∧ entry.after = db := by
  cases logged with
  | cons before holds => exact ⟨before, holds, rfl⟩

/-- An entry of the log, with the log before it. -/
theorem Logged.entry {newer older : List Entry} {entry : Entry}
    (logged : Logged (newer ++ entry :: older) db) : Logged older entry.before ∧ entry.Holds := by
  induction newer generalizing db with
  | nil => exact ⟨logged.head.1, logged.head.2.1⟩
  | cons later newer ih => exact ih logged.head.1

/-- What has become of the database since an entry. -/
theorem Logged.since {newer older : List Entry} {entry : Entry}
    (logged : Logged (newer ++ entry :: older) db) :
    Grows entry.after db ∧ ∀ later ∈ newer, Grows entry.after later.before := by
  induction newer generalizing db with
  | nil =>
      cases logged with
      | cons _ _ => exact ⟨.refl _, by simp⟩
  | cons later newer ih =>
      cases logged with
      | cons before holds =>
          obtain ⟨here, all⟩ := ih before
          refine ⟨here.trans (holds.ran before.standing).2, ?_⟩
          intro other member
          rcases List.mem_cons.mp member with rfl | member
          · exact here
          · exact all other member

/-- What every change keeps since an entry, if the entry left it so. -/
theorem Logged.keeps_since {P : Database → Prop} {newer older : List Entry} {entry : Entry}
    (step : ∀ {listed db db'}, Sound db → Change listed db db' → P db → P db')
    (logged : Logged (newer ++ entry :: older) db) (after : P entry.after) : P db := by
  induction newer generalizing db with
  | nil =>
      cases logged with
      | cons _ _ => exact after
  | cons later newer ih =>
      cases logged with
      | cons before holds => exact holds.keeps step before.standing (ih before)

/-- An entry between another and a database. -/
structure Between (first entry : Entry) (db : Database) : Prop where
  standing : Standing entry.before
  holds : entry.Holds
  before : Grows first.after entry.before
  since : Grows entry.after db

theorem Logged.between {middle older : List Entry} {first entry : Entry}
    (logged : Logged (middle ++ first :: older) db) (member : entry ∈ middle) :
    Between first entry db := by
  have before := logged.since.2 entry member
  obtain ⟨newer, rest, rfl⟩ := List.append_of_mem member
  rw [List.append_assoc, List.cons_append] at logged
  obtain ⟨earlier, holds⟩ := logged.entry
  exact ⟨earlier.standing, holds, before, logged.since.1⟩

/-! ## Reachable worlds -/

variable {setup : Setup} {permits : Policy} {c : Config setup permits}

theorem Attempt.logged {w : WorkerId} {op : Op} {world world' : World}
    {answer : Except String op.Answer} (logged : Logged world.log world.database)
    (attempted : Attempt permits w op world answer world') : Logged world'.log world'.database := by
  cases op with
  | now =>
      obtain ⟨_, rfl⟩ := attempted
      exact logged
  | store op =>
      cases attempted with
      | answered run _ => exact .cons logged ⟨_, _, run⟩
      | lost run _ => exact .cons logged ⟨_, _, run⟩
      | refused _ => exact .cons logged rfl
  | github op =>
      cases attempted with
      | answered _ => exact .cons logged rfl
      | lost _ => exact .cons logged rfl
      | unreached _ => exact .cons logged rfl

theorem Happens.logged {world world' : World} (logged : Logged world.log world.database)
    (happened : Happens permits world world') : Logged world'.log world'.database := by
  cases happened with
  | tick _ => exact .cons logged rfl
  | ingest run _ => exact .cons logged run
  | quarantine run _ => exact .cons logged run

theorem Stops.logged {w : WorkerId} {world world' : World}
    (logged : Logged world.log world.database) (stopped : Stops permits w world world') :
    Logged world'.log world'.database := by
  cases stopped with
  | stop _ => exact .cons logged rfl

theorem Reachable.logged (reachable : Reachable c) : Logged c.state.log c.state.database :=
  Machine.invariant_of_reachable (M := governor setup permits)
    (I := fun world : World => Logged world.log world.database) .nil
    (fun _ _ logged happened => happened.logged logged)
    (fun _ _ _ logged stopped => stopped.logged logged)
    (fun _ _ _ _ _ logged attempted => Attempt.logged logged attempted) reachable

/-! ## From one configuration to a later one -/

/-- A step leaves the log alone or adds one entry to it. -/
def Advances (world world' : World) : Prop :=
  world'.log = world.log ∧ world'.database = world.database ∨
    ∃ entry : Entry, world'.log = entry :: world.log ∧ entry.before = world.database ∧
      entry.after = world'.database

theorem Advances.of_record {world : World} {event : Event} {database : Database} {clock : Time}
    {checks : GateId → Option Check} :
    Advances world { world.record event database with clock, checks } :=
  .inr ⟨_, rfl, rfl, rfl⟩

theorem advances_of_step {c c' : Config setup permits}
    (step : Machine.Step (M := governor setup permits) c c') : Advances c.state c'.state := by
  cases step with
  | environment happened =>
      cases happened with
      | tick _ => exact .of_record
      | ingest _ _ => exact .of_record
      | quarantine _ _ => exact .of_record
  | @call s s' programs w op next answer running attempted =>
      cases op with
      | now =>
          obtain ⟨_, rfl⟩ := attempted
          exact .inl ⟨rfl, rfl⟩
      | store op => cases attempted <;> exact .of_record
      | github op => cases attempted <;> exact .of_record
  | start _ => exact .inl ⟨rfl, rfl⟩
  | stop stopped =>
      cases stopped with
      | stop _ => exact .of_record

/-- What every change keeps, a step keeps. -/
theorem keeps_of_step {P : Database → Prop} {c c' : Config setup permits}
    (step : ∀ {listed db db'}, Sound db → Change listed db db' → P db → P db')
    (reachable : Reachable c) (next : Machine.Step (M := governor setup permits) c c')
    (holds : P c.state.database) : P c'.state.database := by
  have logged := Reachable.logged (Machine.Reachable.step reachable next)
  have standing := reachable.logged.standing
  rcases advances_of_step next with ⟨_, same⟩ | ⟨entry, log, before, after⟩
  · rw [same]
    exact holds
  · rw [log] at logged
    rw [← before] at standing holds
    rw [← after]
    exact logged.head.2.1.keeps step standing holds

theorem Reachable.run {c c' : Config setup permits} (reachable : Reachable c)
    (run : Relation.ReflTransGen (Machine.Step (M := governor setup permits)) c c') :
    Reachable c' := by
  induction run with
  | refl => exact reachable
  | tail _ next ih => exact .step ih next

/-- What every change keeps, a run keeps. -/
theorem keeps_of_run {P : Database → Prop} {c c' : Config setup permits}
    (step : ∀ {listed db db'}, Sound db → Change listed db db' → P db → P db')
    (reachable : Reachable c)
    (run : Relation.ReflTransGen (Machine.Step (M := governor setup permits)) c c')
    (holds : P c.state.database) : P c'.state.database := by
  induction run with
  | refl => exact holds
  | tail before next ih => exact keeps_of_step step (reachable.run before) next ih

end Stratadiff.Governor
