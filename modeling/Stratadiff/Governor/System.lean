import Stratadiff.Governor.Worker

/-!
# The governor as a system

Workers, the ingests of the web server, GitHub's check runs and a clock. A call to the
store or to GitHub is answered, or it fails without having done anything, or it does its
work and the answer is lost. What GitHub answers is not restricted, the clock may show
any time, and a worker may stop between any two calls. The log records what happened,
newest first, with the database before and after.

A `Policy` restricts the runs that a result is about.
-/

namespace Stratadiff.Governor

inductive Event where
  | ticked (time : Time)
  | ingested (request : IngestRequest) (result : IngestResult)
  | quarantined (request : UnscopedQuarantineRequest) (result : IngestResult)
  /-- A transaction of a worker, and whether the worker got its answer. -/
  | called (worker : WorkerId) (op : StoreOp) (answer : op.Answer) (received : Bool)
  | refused (worker : WorkerId) (op : StoreOp)
  /-- A request of a worker to GitHub, and whether the worker got its answer. -/
  | asked (worker : WorkerId) (op : GithubOp) (answer : op.Answer) (received : Bool)
  | unreached (worker : WorkerId) (op : GithubOp)
  | stopped (worker : WorkerId)

structure Entry where
  event : Event
  before : Database
  after : Database

/-- The last conclusion written to the check of a gate. -/
structure Check where
  state : GateState
  revision : Nat
  writer : WorkerId
  deriving DecidableEq, Repr

structure World where
  database : Database
  clock : Time
  checks : GateId → Option Check
  log : List Entry

/-- Nothing has happened yet. -/
def World.initial : World := ⟨.empty, 0, fun _ => none, []⟩

/-- The world after an event that left a database behind. -/
def World.record (world : World) (event : Event) (database : Database) : World :=
  { world with database, log := ⟨event, world.database, database⟩ :: world.log }

/-- The check runs after a request to GitHub. -/
def GithubOp.effect (worker : WorkerId) (checks : GateId → Option Check) :
    GithubOp → GateId → Option Check
  | publishGate subjectId subject =>
      Function.update checks subjectId (some ⟨subject.desiredState, subject.revision, worker⟩)
  | _ => checks

/-- Which events a run may have, and in which worlds. -/
abbrev Policy := World → Event → Prop

def Policy.any : Policy := fun _ _ => True

/-- A call of a worker to the store. -/
inductive StoreAttempt (permits : Policy) (worker : WorkerId) (op : StoreOp) (world : World) :
    Except String op.Answer → World → Prop where
  | answered {locked : OutboxId → Bool} {answer : op.Answer} {database : Database} :
      op.run locked world.clock world.database = .ok (answer, database) →
      permits world (.called worker op answer true) →
      StoreAttempt permits worker op world (.ok answer)
        (world.record (.called worker op answer true) database)
  | lost {locked : OutboxId → Bool} {answer : op.Answer} {database : Database} {message : String} :
      op.run locked world.clock world.database = .ok (answer, database) →
      permits world (.called worker op answer false) →
      StoreAttempt permits worker op world (.error message)
        (world.record (.called worker op answer false) database)
  | refused {message : String} :
      permits world (.refused worker op) →
      StoreAttempt permits worker op world (.error message)
        (world.record (.refused worker op) world.database)

/-- A request of a worker to GitHub. -/
inductive GithubAttempt (permits : Policy) (worker : WorkerId) (op : GithubOp) (world : World) :
    Except String op.Answer → World → Prop where
  | answered {answer : op.Answer} :
      permits world (.asked worker op answer true) →
      GithubAttempt permits worker op world (.ok answer)
        { world.record (.asked worker op answer true) world.database with
          checks := op.effect worker world.checks }
  | lost {answer : op.Answer} {message : String} :
      permits world (.asked worker op answer false) →
      GithubAttempt permits worker op world (.error message)
        { world.record (.asked worker op answer false) world.database with
          checks := op.effect worker world.checks }
  | unreached {message : String} :
      permits world (.unreached worker op) →
      GithubAttempt permits worker op world (.error message)
        (world.record (.unreached worker op) world.database)

/-- A call of a worker; the clock always answers. -/
def Attempt (permits : Policy) (worker : WorkerId) :
    (op : Op) → World → Except String op.Answer → World → Prop
  | .now, world, answer, world' => answer = .ok world.clock ∧ world' = world
  | .store op, world, answer, world' => StoreAttempt permits worker op world answer world'
  | .github op, world, answer, world' => GithubAttempt permits worker op world answer world'

/-- What happens without the workers. -/
inductive Happens (permits : Policy) (world : World) : World → Prop where
  | tick {time : Time} : permits world (.ticked time) →
      Happens permits world { world.record (.ticked time) world.database with clock := time }
  | ingest {request : IngestRequest} {result : IngestResult} {database : Database} :
      ingest request world.database = .ok (result, database) →
      permits world (.ingested request result) →
      Happens permits world (world.record (.ingested request result) database)
  | quarantine {request : UnscopedQuarantineRequest} {result : IngestResult}
      {database : Database} :
      quarantineUnscopedSignedDelivery request world.database = .ok (result, database) →
      permits world (.quarantined request result) →
      Happens permits world (world.record (.quarantined request result) database)

inductive Stops (permits : Policy) (worker : WorkerId) (world : World) : World → Prop where
  | stop : permits world (.stopped worker) →
      Stops permits worker world (world.record (.stopped worker) world.database)

/-- How the workers are set up; each has its own id. -/
structure Setup where
  options : WorkerId → WorkerOptions
  parseUrl : UrlParser
  named : ∀ worker, (options worker).workerId = worker

/-- The governor, in the runs that a policy permits. -/
def governor (setup : Setup) (permits : Policy) : Machine services WorkerId where
  State := World
  attempt := Attempt permits
  environment := Happens permits
  stop := Stops permits
  main worker := processOne (setup.options worker) setup.parseUrl

abbrev Config (setup : Setup) (permits : Policy) := (governor setup permits).Config

/-- What runs of the governor reach from the start. -/
abbrev Reachable {setup : Setup} {permits : Policy} (config : Config setup permits) : Prop :=
  Machine.Reachable (M := governor setup permits) World.initial config

end Stratadiff.Governor
