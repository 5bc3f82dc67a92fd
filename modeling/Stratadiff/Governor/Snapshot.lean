import Stratadiff.Governor.Runs
import Stratadiff.Governor.Schedule

/-!
# Listings

A worker lists the open pull requests of a repository between two transactions: the first
takes a generation of the repository, the second applies the listing if the generation is
still the same. Every event that changes what the store has of the repository's pull
requests takes a generation too.
-/

namespace Stratadiff.Governor

open Transaction Program

variable {db db' db'' : Database} {repositoryId : Nat}

/-! ## Generations -/

namespace Advanced

theorem trans_grows (first : Advanced repositoryId db db') (second : Grows db' db'') :
    Advanced repositoryId db db'' := by
  intro before known
  obtain ⟨between, known', lt⟩ := first before known
  obtain ⟨after, known'', le⟩ := second.recorded.generations known'
  exact ⟨after, known'', by omega⟩

/-- The database before may differ in what is not a generation. -/
theorem of_same (same : db'.generations = db.generations) (h : Advanced repositoryId db' db'') :
    Advanced repositoryId db db'' := by
  intro before known
  exact h before (by rw [same]; exact known)

theorem to_same (h : Advanced repositoryId db db') (same : db''.generations = db'.generations) :
    Advanced repositoryId db db'' := by
  intro before known
  obtain ⟨after, known', lt⟩ := h before known
  exact ⟨after, by rw [same]; exact known', lt⟩

end Advanced

theorem applyPullRequest_advances {repository : RepositoryRef} {pull : PullPairRef}
    {receivedAt : Time} (coupled : Coupled db) :
    Commits (applyPullRequest repository pull receivedAt true) db fun outcome db' =>
      outcome.1 = .applied → Advanced repository.repositoryId db db' := by
  rw [applyPullRequest]
  refine .bind (.get ?_)
  split
  · refine .pure ?_
    intro applied
    cases applied
  · rw [if_pos rfl]
    refine .bind ((advance_applied none coupled).mono ?_)
    rintro _ db₁ ⟨advanced, pairs, forward⟩
    have same : activePair db repository.repositoryId pull.number =
        activePair db₁ repository.repositoryId pull.number := by
      rw [activePair, activePair, pairs]
    rw [same]
    refine (applyToCurrent_handles none advanced.coupled).mono ?_
    rintro outcome db₂ ⟨applied, _⟩ _
    exact forward.trans_grows (.of_steps applied.steps.steps)

theorem quarantineAll_advances {deliveryId : String} {receivedAt : Time} (repositoryId : Nat)
    (coupled : Coupled db) :
    Commits (quarantineAll deliveryId receivedAt) db fun _ db' => Advanced repositoryId db db' := by
  refine (quarantineAll_applied none coupled).mono ?_
  rintro outcome db' ⟨_, _, generations, _⟩ before known
  rw [generations]
  exact ⟨_, generationOf_advanceAll known, Nat.lt_succ_self _⟩

/-- The events that are about which pull requests of a repository are open, and at what. -/
def GithubImpact.concerns (impact : GithubImpact) (repositoryId : Nat) : Prop :=
  match impact with
  | .pullRequest repository _ => repository.repositoryId = repositoryId
  | .repositoryReconcile repository _ => repository.repositoryId = repositoryId
  | _ => False

theorem applyImpact_advances {request : IngestRequest} (coupled : Coupled db)
    (concerns : request.impact.concerns repositoryId) :
    Commits (applyImpact request) db fun outcome db' =>
      outcome.1 = .applied → Advanced repositoryId db db' := by
  rw [applyImpact]
  cases impact : request.impact with
  | pullRequest repository pull =>
      rw [impact] at concerns
      cases concerns
      exact applyPullRequest_advances coupled
  | repositoryReconcile repository reason =>
      rw [impact] at concerns
      cases concerns
      refine (applyRepositoryReconcile_handles coupled).mono ?_
      rintro outcome db' ⟨_, db₁, _, rfl, db₀, forward, steps⟩ _
      exact (forward.trans_grows (.of_steps steps.steps)).to_same rfl
  | pullEvidence _ _ _ _ =>
      rw [impact] at concerns
      exact concerns.elim
  | shaEvidence _ _ _ =>
      rw [impact] at concerns
      exact concerns.elim
  | mergeGroup _ _ _ _ _ =>
      rw [impact] at concerns
      exact concerns.elim
  | ignored _ =>
      rw [impact] at concerns
      exact concerns.elim

theorem ingest_advances {request : IngestRequest} (coupled : Coupled db) (settled : Settled db)
    (about : Delivered db request.deliveryId ∨ request.impact.concerns repositoryId) :
    Commits (ingest request) db fun result db' =>
      result.duplicate = false → result.disposition = .applied → Advanced repositoryId db db' := by
  rw [ingest]
  refine .bind ((claimDelivery_claims settled).mono ?_)
  intro claim db₁ claimed
  cases claimed with
  | duplicate disposition =>
      refine .pure ?_
      intro new
      cases new
  | duplicateCollision =>
      refine .pure ?_
      intro new
      cases new
  | collision event delivered _ =>
      have coupled' : Coupled { db with collisions := db.collisions ++ [event] } :=
        coupled.of_rowwise Coupled.samePairs Coupled.sameGates
      refine .bind ((quarantineAll_advances repositoryId coupled').mono ?_)
      intro outcome db' forward
      exact .pure fun _ _ => forward.of_same rfl
  | new row undelivered same =>
      have coupled₁ : Coupled { db with deliveries := db.deliveries ++ [row] } :=
        coupled.of_rowwise Coupled.samePairs Coupled.sameGates
      refine .bind ((applyImpact_advances coupled₁ (about.resolve_left undelivered)).mono ?_)
      intro outcome db₂ forward
      refine .bind (.of_eq rfl (.pure ?_))
      intro _ applied
      exact ((forward applied).of_same rfl).to_same rfl

theorem quarantineUnscoped_advances {request : UnscopedQuarantineRequest} (coupled : Coupled db)
    (settled : Settled db) :
    Commits (quarantineUnscopedSignedDelivery request) db fun result db' =>
      result.duplicate = false → Advanced repositoryId db db' := by
  rw [quarantineUnscopedSignedDelivery]
  refine .bind ((claimDelivery_claims settled).mono ?_)
  intro claim db₁ claimed
  cases claimed with
  | duplicate disposition =>
      refine .pure ?_
      intro new
      cases new
  | duplicateCollision =>
      refine .pure ?_
      intro new
      cases new
  | collision event delivered _ =>
      have coupled' : Coupled { db with collisions := db.collisions ++ [event] } :=
        coupled.of_rowwise Coupled.samePairs Coupled.sameGates
      refine .bind ((quarantineAll_advances repositoryId coupled').mono ?_)
      intro outcome db' forward
      exact .pure fun _ => forward.of_same rfl
  | new row undelivered same =>
      have coupled₁ : Coupled { db with deliveries := db.deliveries ++ [row] } :=
        coupled.of_rowwise Coupled.samePairs Coupled.sameGates
      refine .bind ((quarantineAll_advances repositoryId coupled₁).mono ?_)
      intro outcome db₂ forward
      exact .bind (.of_eq rfl (.pure fun _ => (forward.of_same rfl).to_same rfl))

theorem beginRepositorySnapshot_commits {repository : RepositoryRef} :
    Commits (beginRepositorySnapshot repository) db fun token db' =>
      token.repository = repository ∧
        generationOf db'.generations repository.repositoryId = some token.generation ∧
        Advanced repository.repositoryId db db' := by
  refine .bind (advance_commits.mono ?_)
  rintro generation db' ⟨generations, rfl, here, before, _⟩
  refine .pure ⟨rfl, here, ?_⟩
  intro old known
  exact ⟨generation, here, by rw [before old known]; omega⟩

/-- The transactions after which a listing that was begun before is not applied any more. -/
def Entry.Disturbs (entry : Entry) (repositoryId : Nat) : Prop :=
  match entry.event with
  | .ingested request result =>
      result.duplicate = false ∧ result.disposition = .applied ∧
        (Delivered entry.before request.deliveryId ∨ request.impact.concerns repositoryId)
  | .quarantined _ result => result.duplicate = false
  | .called _ (.beginRepositorySnapshot repository) _ _ => repository.repositoryId = repositoryId
  | .called _ (.reconcileOpenPullRequests token _ _) result _ =>
      result = .applied ∧ token.repository.repositoryId = repositoryId
  | _ => False

theorem Entry.Disturbs.advanced {entry : Entry} (disturbs : entry.Disturbs repositoryId)
    (standing : Standing entry.before) (holds : entry.Holds) :
    Advanced repositoryId entry.before entry.after := by
  obtain ⟨event, before, after⟩ := entry
  obtain ⟨sound, settled⟩ := standing
  cases event with
  | ingested request result =>
      obtain ⟨new, applied, about⟩ := disturbs
      exact (ingest_advances sound.coupled settled about).of_ok holds new applied
  | quarantined request result =>
      exact (quarantineUnscoped_advances sound.coupled settled).of_ok holds disturbs
  | called w op answer received =>
      obtain ⟨locked, clock, run⟩ := holds
      cases op with
      | beginRepositorySnapshot repository =>
          cases disturbs
          exact (beginRepositorySnapshot_commits.of_ok run).2.2
      | reconcileOpenPullRequests token pulls now =>
          obtain ⟨rfl, rfl⟩ := disturbs
          rcases (reconcileOpenPullRequests_listed none sound.coupled).of_ok run with
            ⟨stale, _⟩ | ⟨_, _, db₁, forward, _, rest⟩
          · cases stale
          · exact forward.trans_grows (.of_steps rest.steps.steps)
      | _ => exact disturbs.elim
  | ticked _ => exact disturbs.elim
  | refused _ _ => exact disturbs.elim
  | asked _ _ _ _ => exact disturbs.elim
  | unreached _ _ => exact disturbs.elim
  | stopped _ => exact disturbs.elim

/-- While a repository is at the generation of a snapshot, nothing disturbs the snapshot. -/
theorem Logged.unlisted {middle older : List Entry} {begins : Entry} {w : WorkerId}
    {repository : RepositoryRef} {token : RepositorySnapshotToken} {received : Bool}
    (logged : Logged (middle ++ begins :: older) db)
    (event : begins.event = .called w (.beginRepositorySnapshot repository) token received)
    (current : generationOf db.generations repository.repositoryId = some token.generation) :
    ∀ entry ∈ middle, ¬ entry.Disturbs repository.repositoryId := by
  intro entry member disturbs
  have between := logged.between member
  obtain ⟨_, holds⟩ := logged.entry
  obtain ⟨_, before, after⟩ := begins
  dsimp only at event
  subst event
  obtain ⟨locked, clock, run⟩ := holds
  obtain ⟨_, taken, _⟩ := beginRepositorySnapshot_commits.of_ok run
  obtain ⟨g₁, known₁, le₁⟩ := between.before.recorded.generations taken
  obtain ⟨g₂, known₂, lt⟩ := disturbs.advanced between.standing between.holds g₁ known₁
  obtain ⟨g₃, known₃, le₃⟩ := between.since.recorded.generations known₂
  cases current.symm.trans known₃
  omega

/-! ## The worker -/

/-- The calls that apply a listing. -/
def Op.lists : Op → Prop
  | .store (.reconcileOpenPullRequests ..) => True
  | _ => False

section

variable {contract : History services → Op → Prop} {history : History services}
variable (meets : ∀ (history : History services) op, ¬ op.lists → contract history op)
variable {options : WorkerOptions}

include meets

theorem loadPairSnapshot_obeys {p : PairId} {epoch : Nat} :
    Obeys contract (fun _ _ => True) history (loadPairSnapshot p epoch) := by
  refine .call (meets _ _ nofun) fun pair => ?_
  cases pair with
  | none => exact .pure trivial
  | some pair =>
      exact .call (meets _ _ nofun) fun _ => .call (meets _ _ nofun) fun _ => .pure trivial

theorem publishCheck_obeys {g : GateId} {subject : Gate} {lease : GateLease} :
    Obeys contract (fun _ _ => True) history (publishCheck g subject lease) := by
  refine .call (meets _ _ nofun) fun checkRunId => ?_
  have supersede : ∀ history, Obeys contract (fun _ _ => True) history (do
      let _ ← store (.supersedeStaleGatePublication g subject.epoch subject.revision checkRunId
        (← now))) := fun _ =>
    .call (meets _ _ nofun) fun _ => .call (meets _ _ nofun) fun _ => .pure trivial
  have commit : ∀ history, Obeys contract (fun _ _ => True) history (do
      let committed ← store (.commitGatePublication lease checkRunId subject.desiredState (← now))
      if !committed then
        let _ ← store (.supersedeStaleGatePublication g subject.epoch subject.revision checkRunId
          (← now))) := by
    intro history
    refine .call (meets _ _ nofun) fun _ => .call (meets _ _ nofun) fun committed => ?_
    split
    · exact supersede _
    · exact .pure trivial
  dsimp only
  split
  · split
    · exact .fail
    · refine .call (meets _ _ nofun) fun _ => .call (meets _ _ nofun) fun authorization => ?_
      cases authorization with
      | expired => exact .pure trivial
      | stale => exact supersede _
      | authorized =>
          refine .bind ((loadPairSnapshot_obeys meets).mono fun pair _ _ => ?_)
          cases pair with
          | none =>
              exact .call (meets _ _ nofun) fun _ => .call (meets _ _ nofun) fun _ => .pure trivial
          | some pair =>
              refine .call (meets _ _ nofun) fun live => ?_
              split
              · exact .call (meets _ _ nofun) fun _ => .call (meets _ _ nofun) fun _ =>
                  .pure trivial
              · exact commit _
  · exact commit _

theorem publishGate_obeys {g : GateId} {epoch revision : Nat} :
    Obeys contract (fun _ _ => True) history (publishGate options g epoch revision) := by
  refine .call (meets _ _ nofun) fun _ => .call (meets _ _ nofun) fun leased => ?_
  cases leased with
  | none =>
      refine .call (meets _ _ nofun) fun current => ?_
      cases current with
      | none => exact .pure trivial
      | some current =>
          dsimp only
          split
          · exact .fail
          · exact .pure trivial
  | some lease =>
      refine .call (meets _ _ nofun) fun subject => ?_
      cases subject with
      | none => exact .pure trivial
      | some subject =>
          dsimp only
          split
          · exact .pure trivial
          · split
            · split
              · exact .fail
              · refine .bind ((loadPairSnapshot_obeys meets).mono fun pair _ _ => ?_)
                cases pair with
                | none =>
                    exact .call (meets _ _ nofun) fun _ => .call (meets _ _ nofun) fun _ =>
                      .pure trivial
                | some pair =>
                    refine .call (meets _ _ nofun) fun live => ?_
                    split
                    · exact .call (meets _ _ nofun) fun _ => .call (meets _ _ nofun) fun _ =>
                        .pure trivial
                    · refine .call (meets _ _ nofun) fun _ => .call (meets _ _ nofun) fun _ => ?_
                      split
                      · exact publishCheck_obeys meets
                      · exact .pure trivial
            · exact publishCheck_obeys meets

theorem commitDecision_obeys {lease : PairLease} {state : GateState} {summary moved : String} :
    Obeys contract (fun _ _ => True) history (commitDecision lease state summary moved) := by
  refine .call (meets _ _ nofun) fun _ => .call (meets _ _ nofun) fun committed => ?_
  split
  · exact .fail
  · exact .pure trivial

theorem evaluate_obeys {parseUrl : UrlParser} {p : PairId} {epoch : Nat} :
    Obeys contract (fun _ _ => True) history (evaluate options parseUrl p epoch) := by
  refine .call (meets _ _ nofun) fun _ => .call (meets _ _ nofun) fun leased => ?_
  cases leased with
  | none =>
      refine .bind ((loadPairSnapshot_obeys meets).mono fun current _ _ => ?_)
      cases current with
      | none => exact .pure trivial
      | some current =>
          dsimp only
          split
          · exact .fail
          · exact .pure trivial
  | some lease =>
      refine .bind ((loadPairSnapshot_obeys meets).mono fun snapshot _ _ => ?_)
      cases snapshot with
      | none => exact .pure trivial
      | some snapshot =>
          refine .call (meets _ _ nofun) fun time => ?_
          dsimp only
          split
          · refine .call (meets _ _ nofun) fun live => ?_
            split
            · exact commitDecision_obeys meets
            · exact commitDecision_obeys meets
          · exact commitDecision_obeys meets

theorem sendCommand_obeys {lease : PairLease} {snapshot : PairSnapshot} {plannedAt : Time}
    {mayPost : Bool} :
    Obeys contract (fun _ _ => True) history
      (sendCommand options lease snapshot plannedAt mayPost) := by
  have comment : Obeys contract (fun _ _ => True) history
      (obtainComment snapshot plannedAt mayPost) := by
    refine .call (meets _ _ nofun) fun known => ?_
    cases known with
    | some comment => exact .pure trivial
    | none =>
        dsimp only
        split
        · exact ⟨meets _ _ nofun, fun answer => by cases answer <;> trivial⟩
        · exact .fail
  refine .bind (comment.mono fun comment _ _ => .call (meets _ _ nofun) fun live => ?_)
  split
  · exact commitDecision_obeys meets
  · refine .call (meets _ _ nofun) fun adopted => ?_
    split
    · exact .fail
    · exact .pure trivial

theorem attemptCommand_obeys {lease : PairLease} {snapshot : PairSnapshot} :
    Obeys contract (fun _ _ => True) history (attemptCommand options lease snapshot) := by
  rw [attemptCommand]
  split
  · refine .bind (.call (meets _ _ nofun) fun _ => .call (meets _ _ nofun) fun renewed => ?_)
    cases renewed with
    | none => exact .fail
    | some renewed =>
        refine .call (meets _ _ nofun) fun _ => .call (meets _ _ nofun) fun began => ?_
        split
        · exact .pure (sendCommand_obeys meets)
        · exact .fail
  · exact sendCommand_obeys meets
  · exact .pure trivial

theorem dispatchReview_obeys {p : PairId} {epoch : Nat} :
    Obeys contract (fun _ _ => True) history (dispatchReview options p epoch) := by
  refine .bind ((loadPairSnapshot_obeys meets).mono fun beforeLease _ _ => ?_)
  cases beforeLease with
  | none => exact .pure trivial
  | some beforeLease =>
      dsimp only
      split
      · exact .pure trivial
      · refine .call (meets _ _ nofun) fun _ => .call (meets _ _ nofun) fun leased => ?_
        cases leased with
        | none =>
            refine .bind ((loadPairSnapshot_obeys meets).mono fun current _ _ => ?_)
            cases current with
            | none => exact .pure trivial
            | some current =>
                dsimp only
                split
                · exact .fail
                · exact .pure trivial
        | some lease =>
            refine .bind ((loadPairSnapshot_obeys meets).mono fun snapshot _ _ => ?_)
            cases snapshot with
            | none => exact .pure trivial
            | some snapshot =>
                dsimp only
                split
                · exact .pure trivial
                · refine .call (meets _ _ nofun) fun live => ?_
                  split
                  · exact commitDecision_obeys meets
                  · split
                    · refine .call (meets _ _ nofun) fun _ => .call (meets _ _ nofun) fun _ => ?_
                      split
                      · exact .pure trivial
                      · refine .bind ((loadPairSnapshot_obeys meets).mono fun planned _ _ => ?_)
                        cases planned with
                        | none => exact .fail
                        | some planned =>
                            dsimp only
                            split
                            · exact .fail
                            · exact attemptCommand_obeys meets
                    · exact attemptCommand_obeys meets

end

/-- A listing is applied with the token of its snapshot, as it was fetched after it. -/
def listingContract (history : History services) (op : Op) : Prop :=
  match op with
  | .store (.reconcileOpenPullRequests token pulls now) => ∃ repository rest,
      history = ⟨.now, .ok now⟩ :: ⟨.github (.listOpenPullRequests repository), .ok pulls⟩ ::
        ⟨.store (.beginRepositorySnapshot repository), .ok token⟩ :: rest
  | _ => True

theorem listingContract_of_plain (history : History services) (op : Op) (plain : ¬ op.lists) :
    listingContract history op := by
  cases op with
  | store op =>
      cases op with
      | reconcileOpenPullRequests token pulls now => exact absurd trivial plain
      | _ => trivial
  | _ => trivial

theorem processOne_lists {options : WorkerOptions} {parseUrl : UrlParser} :
    Obeys listingContract (fun _ _ => True) [] (processOne options parseUrl) := by
  have plain := listingContract_of_plain
  refine .call trivial fun _ => .call trivial fun leased => ?_
  cases leased with
  | none => exact .pure trivial
  | some lease =>
      refine .handle (.bind (.mono (?_ : Obeys _ (fun _ _ => True) _ _) fun _ _ _ =>
        .call trivial fun _ => .call trivial fun _ => .pure trivial)) fun _ _ =>
          .call trivial fun _ => .call trivial fun _ => .pure trivial
      cases lease.payload with
      | publishGate g epoch revision => exact publishGate_obeys plain
      | evaluatePair p epoch revision => exact evaluate_obeys plain
      | dispatchReview p epoch => exact dispatchReview_obeys plain
      | reconcileRepository repository deliveryId =>
          refine .call trivial fun token => .call trivial fun pulls => .call trivial fun time => ?_
          refine .call ⟨repository, _, rfl⟩ fun result => ?_
          split
          · exact .fail
          · exact .pure trivial

/-- A worker took a snapshot and then fetched a listing. -/
def Fetches (log : List Entry) (w : WorkerId) (token : RepositorySnapshotToken)
    (pulls : List LivePullRequest) : Prop :=
  ∃ later fetched between begun older, log = later ++ fetched :: (between ++ begun :: older) ∧
    fetched.event = .asked w (.listOpenPullRequests token.repository) pulls true ∧
    begun.event = .called w (.beginRepositorySnapshot token.repository) token true

/-- Every worker that applied a listing, or tried to, has fetched it under its token. -/
def Fetched (log : List Entry) : Prop :=
  ∀ newer entry earlier w token pulls now result received, log = newer ++ entry :: earlier →
    entry.event = .called w (.reconcileOpenPullRequests token pulls now) result received →
      Fetches earlier w token pulls

theorem Fetched.cons {log : List Entry} {entry : Entry} (fetched : Fetched log)
    (here : ∀ w token pulls now result received, entry.event =
      .called w (.reconcileOpenPullRequests token pulls now) result received →
        Fetches log w token pulls) : Fetched (entry :: log) := by
  intro newer other earlier w token pulls now result received split event
  cases newer with
  | nil =>
      obtain ⟨rfl, rfl⟩ := List.cons.inj split
      exact here w token pulls now result received event
  | cons first newer =>
      obtain ⟨rfl, rfl⟩ := List.cons.inj split
      exact fetched newer other earlier w token pulls now result received rfl event

variable {setup : Setup} {permits : Policy} {c : Config setup permits}

/-- The log only grows, and what it has of listings was fetched. -/
def listings (setup : Setup) (permits : Policy) :
    Machine.Discipline (governor setup permits) where
  inv world := Fetched (World.log world)
  rely _ world world' := ∃ newer, World.log world' = newer ++ World.log world
  rely_refl := ⟨[], rfl⟩
  rely_trans := by
    rintro w s₁ s₂ s₃ ⟨newer, first⟩ ⟨newest, second⟩
    exact ⟨newest ++ newer, by rw [second, first, List.append_assoc]⟩

theorem fetches_of_led {calls : List (governor setup permits).Call} {world : World} {w : WorkerId}
    {token : RepositorySnapshotToken} {pulls : List LivePullRequest} {now : Time}
    (led : (listings setup permits).Led w calls world)
    (meets : listingContract (Machine.history calls)
      (.store (.reconcileOpenPullRequests token pulls now))) :
    Fetches world.log w token pulls := by
  obtain ⟨repository, rest, known⟩ := meets
  obtain ⟨before₁, after₁, calls₁, rfl, known₁⟩ := Machine.history_eq_cons known
  obtain ⟨before₂, after₂, calls₂, rfl, known₂⟩ := Machine.history_eq_cons known₁
  obtain ⟨before₃, after₃, calls₃, rfl, _⟩ := Machine.history_eq_cons known₂
  obtain ⟨⟨n₁, log₁⟩, ⟨_, same⟩, _, ⟨n₂, log₂⟩, asked, _, ⟨n₃, log₃⟩, called, _⟩ := led
  have fetched : GithubAttempt permits w (.listOpenPullRequests repository) before₂ (.ok pulls)
    after₂ := asked
  have begun : StoreAttempt permits w (.beginRepositorySnapshot repository) before₃ (.ok token)
    after₃ := called
  dsimp only at log₁ log₂ log₃ same
  cases fetched with
  | answered _ =>
      cases begun with
      | @answered _ _ database run _ =>
          obtain ⟨same', _⟩ := beginRepositorySnapshot_commits.of_ok run
          cases same'
          have log : world.log = (n₁ ++ n₂) ++
              ⟨.asked w (.listOpenPullRequests token.repository) pulls true,
                World.database before₂, World.database before₂⟩ :: (n₃ ++
              ⟨.called w (.beginRepositorySnapshot token.repository) token true,
                World.database before₃, database⟩ :: World.log before₃) := by
            rw [log₁, same, log₂]
            simp only [World.record] at log₃ ⊢
            rw [log₃, List.append_assoc]
          exact ⟨_, _, _, _, _, log, rfl, rfl⟩

theorem Reachable.fetched (reachable : Reachable c) : Fetched c.state.log := by
  have plain : ∀ {world : World} {event : Event} {database : Database}, Fetched world.log →
      (∀ w token pulls now result received, event ≠
        .called w (.reconcileOpenPullRequests token pulls now) result received) →
      Fetched (world.record event database).log := by
    intro world event database fetched other
    refine fetched.cons ?_
    intro w token pulls now result received same
    exact absurd same (other w token pulls now result received)
  refine (Machine.led_of_reachable (listings setup permits) (fun _ => listingContract) ?_ ?_ ?_ ?_
    (fun _ => processOne_lists) reachable).1
  · intro newer entry earlier w token pulls now result received split
    cases newer <;> cases split
  · intro world world' fetched happened
    cases happened with
    | tick _ => exact ⟨plain fetched nofun, fun _ => ⟨[_], rfl⟩⟩
    | ingest _ _ => exact ⟨plain fetched nofun, fun _ => ⟨[_], rfl⟩⟩
    | quarantine _ _ => exact ⟨plain fetched nofun, fun _ => ⟨[_], rfl⟩⟩
  · intro w world world' fetched stopped
    cases stopped with
    | stop _ => exact ⟨plain fetched nofun, fun _ => ⟨[_], rfl⟩⟩
  · intro w calls op world answer world' fetched led meets attempted
    cases op with
    | now =>
        obtain ⟨_, rfl⟩ := attempted
        exact ⟨fetched, fun _ _ => ⟨[], rfl⟩⟩
    | github op =>
        cases attempted with
        | answered _ => exact ⟨plain fetched nofun, fun _ _ => ⟨[_], rfl⟩⟩
        | lost _ => exact ⟨plain fetched nofun, fun _ _ => ⟨[_], rfl⟩⟩
        | unreached _ => exact ⟨plain fetched nofun, fun _ _ => ⟨[_], rfl⟩⟩
    | store op =>
        have own : ∀ {answer : op.Answer} {received : Bool} {database : Database}, Fetched
            (World.record world (.called w op answer received) database).log := by
          intro answer received database
          refine fetched.cons ?_
          rintro v token pulls now result received' same
          cases same
          exact fetches_of_led led meets
        cases attempted with
        | answered _ _ => exact ⟨own, fun _ _ => ⟨[_], rfl⟩⟩
        | lost _ _ => exact ⟨own, fun _ _ => ⟨[_], rfl⟩⟩
        | refused _ => exact ⟨plain fetched nofun, fun _ _ => ⟨[_], rfl⟩⟩

/-- Snapshots are safe: a listing that is applied was fetched after its worker's snapshot
began, and since then no event of the repository was applied and no other snapshot begun. -/
theorem listing_undisturbed {newer earlier : List Entry} {applied : Entry} {w : WorkerId}
    {token : RepositorySnapshotToken} {pulls : List LivePullRequest} {now : Time}
    {received : Bool} (reachable : Reachable c) (log : c.state.log = newer ++ applied :: earlier)
    (event : applied.event =
      .called w (.reconcileOpenPullRequests token pulls now) .applied received) :
    ∃ later fetched between begun older, earlier = later ++ fetched :: (between ++ begun :: older) ∧
      fetched.event = .asked w (.listOpenPullRequests token.repository) pulls true ∧
      begun.event = .called w (.beginRepositorySnapshot token.repository) token true ∧
      ∀ entry ∈ later ++ fetched :: between, ¬ entry.Disturbs token.repository.repositoryId := by
  obtain ⟨later, fetched, between, begun, older, rfl, fetch, begin⟩ :=
    reachable.fetched newer applied earlier w token pulls now .applied received log event
  refine ⟨later, fetched, between, begun, older, rfl, fetch, begin, ?_⟩
  have logged := reachable.logged
  rw [log] at logged
  obtain ⟨before, holds⟩ := logged.entry
  obtain ⟨_, db, db'⟩ := applied
  dsimp only at event before
  subst event
  obtain ⟨locked, clock, run⟩ := holds
  rcases (reconcileOpenPullRequests_listed none before.standing.sound.coupled).of_ok run with
    ⟨stale, _⟩ | ⟨_, current, _⟩
  · cases stale
  · rw [← List.cons_append, ← List.append_assoc] at before
    exact before.unlisted begin current

/-- After a push a worker lists the pull requests of the repository. -/
theorem listing_undisturbed_sample : ∃ (c : Config Sample.setup .any) (earlier : List Entry)
    (applied : Entry) (w : WorkerId) (token : RepositorySnapshotToken)
    (pulls : List LivePullRequest) (now : Time) (received : Bool), Reachable c ∧
      c.state.log = applied :: earlier ∧ applied.event =
        .called w (.reconcileOpenPullRequests token pulls now) .applied received ∧
      Fetches earlier w token pulls := by
  have run : ∃ c : Config Sample.setup .any, Reachable c ∧
      c.state.log.head?.any (·.event.isListing) = true :=
    reachable_of_exec
      [.ingest ⟨"d1", "push", "s1", 1000, .repositoryReconcile Sample.repository .push⟩,
      .tick 2000, .start "a", .look "a", .call "a", .call "a", .ask "a" (.listing []), .look "a",
      .call "a"] _ (by decide +kernel)
  obtain ⟨c, reachable, check⟩ := run
  obtain ⟨earlier, applied, log, listing⟩ := head_of_any check
  obtain ⟨w, token, pulls, now, received, event⟩ := Event.isListing_iff.mp listing
  obtain ⟨later, fetched, between, begun, older, split, fetch, begin, _⟩ :=
    listing_undisturbed reachable (log.trans (List.nil_append _).symm) event
  exact ⟨c, earlier, applied, w, token, pulls, now, received, reachable, log, event,
    later, fetched, between, begun, older, split, fetch, begin⟩

end Stratadiff.Governor
