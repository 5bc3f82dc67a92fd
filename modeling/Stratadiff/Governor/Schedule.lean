import Stratadiff.Governor.System

/-!
# Schedules

A run can be given by the list of what happens in it. `exec` computes the configuration
that a schedule leads to, if every action of it is possible, and such a configuration is
reachable.
-/

namespace Stratadiff.Governor

/-- An answer of GitHub. -/
inductive Reply where
  | pull (live : LivePullRequest)
  | comment (posted : Comment)
  | found (known : Option Comment)
  | check (checkRunId : Nat)
  | listing (pulls : List LivePullRequest)

/-- The reply as an answer to a request, if it is one. -/
def Reply.answer : (op : GithubOp) → Reply → Option op.Answer
  | .getPullRequest .., .pull live => some live
  | .createIssueComment .., .comment posted => some posted
  | .findIssueComment .., .found known => some known
  | .publishGate .., .check checkRunId => some checkRunId
  | .listOpenPullRequests .., .listing pulls => some pulls
  | _, _ => none

inductive Action where
  | tick (time : Time)
  | ingest (request : IngestRequest)
  | quarantine (request : UnscopedQuarantineRequest)
  | start (worker : WorkerId)
  /-- The worker reads the clock. -/
  | look (worker : WorkerId)
  | call (worker : WorkerId)
  | ask (worker : WorkerId) (reply : Reply)
  | stop (worker : WorkerId)

section

variable (setup : Setup) (permits : Policy)
    [∀ (world : World) (event : Event), Decidable (permits world event)]

/-- The next configuration after an event that the policy permits. -/
def permitted (world : World) (event : Event) (next : Config setup permits) :
    Option (Config setup permits) :=
  if permits world event then some next else none

def act (c : Config setup permits) : Action → Option (Config setup permits)
  | .tick time =>
      permitted setup permits c.state (.ticked time)
        ⟨{ c.state.record (.ticked time) c.state.database with clock := time }, c.programs⟩
  | .ingest request =>
      match Governor.ingest request c.state.database with
      | .ok (result, database) =>
          permitted setup permits c.state (.ingested request result)
            ⟨c.state.record (.ingested request result) database, c.programs⟩
      | .error _ => none
  | .quarantine request =>
      match quarantineUnscopedSignedDelivery request c.state.database with
      | .ok (result, database) =>
          permitted setup permits c.state (.quarantined request result)
            ⟨c.state.record (.quarantined request result) database, c.programs⟩
      | .error _ => none
  | .start w =>
      match c.programs w with
      | .call _ _ => none
      | _ => some ⟨c.state, Function.update c.programs w
          (processOne (setup.options w) setup.parseUrl)⟩
  | .look w =>
      match c.programs w with
      | .call .now next =>
          some ⟨c.state, Function.update c.programs w (next (.ok c.state.clock))⟩
      | _ => none
  | .call w =>
      match c.programs w with
      | .call (.store op) next =>
          match op.run (fun _ => false) c.state.clock c.state.database with
          | .ok (answer, database) =>
              permitted setup permits c.state (.called w op answer true)
                ⟨c.state.record (.called w op answer true) database,
                  Function.update c.programs w (next (.ok answer))⟩
          | .error _ => none
      | _ => none
  | .ask w reply =>
      match c.programs w with
      | .call (.github op) next =>
          match reply.answer op with
          | some answer =>
              permitted setup permits c.state (.asked w op answer true)
                ⟨{ c.state.record (.asked w op answer true) c.state.database with
                    checks := op.effect w c.state.checks },
                  Function.update c.programs w (next (.ok answer))⟩
          | none => none
      | _ => none
  | .stop w =>
      permitted setup permits c.state (.stopped w)
        ⟨c.state.record (.stopped w) c.state.database, Function.update c.programs w (.done ())⟩

def exec (c : Config setup permits) : List Action → Option (Config setup permits)
  | [] => some c
  | action :: actions => (act setup permits c action).bind fun c' => exec c' actions

def Config.initial : Config setup permits := ⟨World.initial, fun _ => .done ()⟩

variable {setup permits}

theorem permitted_eq_some {world : World} {event : Event} {c next : Config setup permits}
    (h : permitted setup permits world event next = some c) : permits world event ∧ c = next := by
  unfold permitted at h
  split at h
  · next permitted => exact ⟨permitted, (Option.some.inj h).symm⟩
  · cases h

theorem act_step {c c' : Config setup permits} {action : Action}
    (h : act setup permits c action = some c') :
    Machine.Step (M := governor setup permits) c c' := by
  obtain ⟨world, programs⟩ := c
  cases action with
  | tick time =>
      simp only [act] at h
      obtain ⟨allowed, rfl⟩ := permitted_eq_some h
      exact .environment (.tick allowed)
  | ingest request =>
      simp only [act] at h
      split at h
      · next result database run =>
          obtain ⟨allowed, rfl⟩ := permitted_eq_some h
          exact .environment (.ingest run allowed)
      · cases h
  | quarantine request =>
      simp only [act] at h
      split at h
      · next result database run =>
          obtain ⟨allowed, rfl⟩ := permitted_eq_some h
          exact .environment (.quarantine run allowed)
      · cases h
  | start w =>
      simp only [act] at h
      split at h
      · cases h
      · next ended =>
          cases h
          refine .start (M := governor setup permits) (w := w) ?_
          cases running : programs w with
          | done _ => trivial
          | fail _ => trivial
          | call op next => exact absurd running (ended op next)
  | look w =>
      simp only [act] at h
      split at h
      · next next running =>
          cases h
          exact .call (M := governor setup permits) (w := w) running ⟨rfl, rfl⟩
      · cases h
  | call w =>
      simp only [act] at h
      split at h
      · next op next running =>
          split at h
          · next answer database run =>
              obtain ⟨allowed, rfl⟩ := permitted_eq_some h
              exact .call (M := governor setup permits) (w := w) running
                (StoreAttempt.answered run allowed)
          · cases h
      · cases h
  | ask w reply =>
      simp only [act] at h
      split at h
      · next op next running =>
          split at h
          · next answer _ =>
              obtain ⟨allowed, rfl⟩ := permitted_eq_some h
              exact .call (M := governor setup permits) (w := w) running
                (GithubAttempt.answered allowed)
          · cases h
      · cases h
  | stop w =>
      simp only [act] at h
      obtain ⟨allowed, rfl⟩ := permitted_eq_some h
      exact .stop (M := governor setup permits) (w := w) (.stop allowed)

theorem exec_reachable {c c' : Config setup permits} {actions : List Action}
    (reachable : Reachable c) (h : exec setup permits c actions = some c') : Reachable c' := by
  induction actions generalizing c with
  | nil =>
      cases h
      exact reachable
  | cons action actions ih =>
      obtain ⟨c₁, first, rest⟩ := Option.bind_eq_some_iff.mp h
      exact ih (.step reachable (act_step first)) rest

theorem exec_run {c c' : Config setup permits} {actions : List Action}
    (h : exec setup permits c actions = some c') :
    Relation.ReflTransGen (Machine.Step (M := governor setup permits)) c c' := by
  induction actions generalizing c with
  | nil =>
      cases h
      exact .refl
  | cons action actions ih =>
      obtain ⟨c₁, first, rest⟩ := Option.bind_eq_some_iff.mp h
      exact .head (act_step first) (ih rest)

/-- A schedule leads to a reachable configuration with a property that can be computed. -/
theorem reachable_of_exec (actions : List Action) (check : Config setup permits → Bool)
    (h : (exec setup permits (Config.initial setup permits) actions).any check = true) :
    ∃ c : Config setup permits, Reachable c ∧ check c = true := by
  obtain ⟨c, run, holds⟩ := (Option.any_eq_true _ _).mp h
  exact ⟨c, exec_reachable .initial run, holds⟩

/-- A schedule that goes on leads on, with a property of both configurations. -/
theorem run_of_exec (actions later : List Action)
    (check : Config setup permits → Config setup permits → Bool)
    (h : (exec setup permits (Config.initial setup permits) actions).any (fun c =>
      (exec setup permits c later).any (check c)) = true) :
    ∃ c c' : Config setup permits, Reachable c ∧
      Relation.ReflTransGen (Machine.Step (M := governor setup permits)) c c' ∧
      check c c' = true := by
  obtain ⟨c, run, further⟩ := (Option.any_eq_true _ _).mp h
  obtain ⟨c', run', holds⟩ := (Option.any_eq_true _ _).mp further
  exact ⟨c, c', exec_reachable .initial run, exec_run run', holds⟩

end

/-! ## What a run ends with -/

def Event.isCommit : Event → Bool
  | .called _ (.commitPairGate ..) true _ => true
  | _ => false

theorem Event.isCommit_iff {event : Event} : event.isCommit = true ↔
    ∃ w lease state summary now received,
      event = .called w (.commitPairGate lease state summary now) true received := by
  constructor
  · intro holds
    unfold isCommit at holds
    split at holds
    · exact ⟨_, _, _, _, _, _, rfl⟩
    · cases holds
  · rintro ⟨_, _, _, _, _, _, rfl⟩
    rfl

def Event.isListing : Event → Bool
  | .called _ (.reconcileOpenPullRequests ..) .applied _ => true
  | _ => false

theorem Event.isListing_iff {event : Event} : event.isListing = true ↔
    ∃ w token pulls now received,
      event = .called w (.reconcileOpenPullRequests token pulls now) .applied received := by
  constructor
  · intro holds
    unfold isListing at holds
    split at holds
    · exact ⟨_, _, _, _, _, rfl⟩
    · cases holds
  · rintro ⟨_, _, _, _, _, rfl⟩
    rfl

theorem head_of_any {log : List Entry} {check : Entry → Bool} (h : log.head?.any check = true) :
    ∃ earlier entry, log = entry :: earlier ∧ check entry = true := by
  cases log with
  | nil => cases h
  | cons entry earlier => exact ⟨earlier, entry, rfl, h⟩

/-! ## A sample run -/

namespace Sample

/-- An answer of the platform's parser for the one URL that the sample run has. -/
def parseUrl (text : String) : Option Url :=
  if text = "https://avatars.githubusercontent.com/in/347564" then
    some ⟨"https:", "avatars.githubusercontent.com", "/in/347564", "", ""⟩
  else none

def setup : Setup where
  options worker := ⟨worker, 60, 30, 1800⟩
  parseUrl := parseUrl
  named _ := rfl

def repository : RepositoryRef := ⟨1, 7, "octo/app", "octo", "app"⟩

def pull : PullPairRef := ⟨5, "b0", "h0", .opened, false, 100⟩

def live : Reply := .pull ⟨pull, false⟩

def author : Author := ⟨Coderabbit.botId, Coderabbit.botLogin, "Bot", Coderabbit.appUrl⟩

instance (world : World) (event : Event) : Decidable (Policy.any world event) := isTrue trivial

/-- A delivery of a pull request that opens. -/
def opened : List Action :=
  [.ingest ⟨"d1", "pull_request", "s1", 1000, .pullRequest repository pull⟩, .tick 2000]

/-- The publication of the first revision. -/
def published (w : WorkerId) : List Action :=
  [.start w, .look w, .call w, .look w, .call w, .call w, .ask w (.check 4), .look w, .call w,
    .look w, .call w]

def loaded (w : WorkerId) : List Action := [.call w, .call w, .call w]

/-- A command is planned, posted and adopted. -/
def dispatched (w : WorkerId) : List Action :=
  [.start w, .look w, .call w] ++ loaded w ++ [.look w, .call w] ++ loaded w ++
    [.ask w live, .look w, .call w] ++ loaded w ++
    [.look w, .call w, .look w, .call w, .ask w (.found none), .ask w (.comment ⟨50, 2000⟩),
      .ask w live, .call w, .look w, .call w]

/-- The provider answers the command: a status, a review and an acknowledgement. -/
def reviewed : List Action :=
  [.ingest ⟨"d2", "status", "s2", 4000, .shaEvidence repository "h0" ⟨20, 3000, true,
      .status author "success" "CodeRabbit" (some "Review completed")
        (some "https://avatars.githubusercontent.com/in/347564") 3000⟩⟩,
    .ingest ⟨"d3", "pull_request_review", "s3", 4000, .pullEvidence repository 5 (some "h0")
      ⟨21, 3000, true, .review author "APPROVED" "h0" 3000 true none⟩⟩,
    .ingest ⟨"d4", "issue_comment", "s4", 4000, .pullEvidence repository 5 none
      ⟨22, 3500, true, .issueComment author 2500 3500 true (some "c1") "s5"⟩⟩,
    .tick 5000]

/-- The pair is evaluated, up to the commit of the decision. -/
def evaluated (w : WorkerId) : List Action :=
  [.start w, .look w, .call w, .look w, .call w] ++ loaded w ++
    [.look w, .ask w live, .look w, .call w]

def succeeded : List Action :=
  opened ++ published "a" ++ dispatched "a" ++ reviewed ++ evaluated "a"

end Sample
end Stratadiff.Governor
