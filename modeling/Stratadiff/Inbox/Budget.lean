import Stratadiff.Inbox.Collect

/-!
# The call budget of the review inbox

Every call counts itself before the next one is made, so however GitHub answers, and wherever a
run fails, no run makes more calls than the budget allows.
-/

namespace Stratadiff.ReviewInbox

open Program (Exchange)
open Session (check Thrifty)

/-- The calls that a client has made. -/
abbrev WithinCalls {α : Type} (x : Collecting α) : Prop := Thrifty GhClient.calls maxApiCalls x

theorem call_within (api : Api) : WithinCalls (call api) where
  returns returned := by
    rw [call, Session.returns_get_bind, Session.returns_ensure_bind, Session.returns_ensure_bind,
      Session.returns_bind] at returned
    obtain ⟨_, _, output, _, _, rest, rfl, asked, returned⟩ := returned
    obtain ⟨rfl, rfl⟩ := Session.returns_request.mp asked
    rw [Session.returns_set_bind, Session.returns_ensure_bind, Session.returns_pure] at returned
    obtain ⟨_, rfl, rfl, rfl⟩ := returned
    rfl
  follows {client calls} within follows := by
    rw [call, Session.follows_get_bind] at follows
    obtain rfl | ⟨_, few, follows⟩ := Session.follows_check_bind follows
    · exact within
    obtain rfl | ⟨_, _, follows⟩ := Session.follows_check_bind follows
    · exact within
    rw [Result.ensure_eq_ok] at few
    obtain none | ⟨answer, rest, apart, after⟩ := Session.follows_request_bind follows
    · rw [none]
      exact within
    rw [apart, List.length_cons]
    obtain last | ⟨output, _, after⟩ := after
    · rw [last]
      exact few
    · rw [Session.follows_set_bind] at after
      obtain last | ⟨_, _, after⟩ := Session.follows_check_bind after
      · rw [last]
        exact few
      · rw [Session.follows_pure after]
        exact few

theorem rest_within (endpoint label : String) : WithinCalls (rest endpoint label) :=
  (call_within _).bind fun _ => .check _

theorem graphql_within (query : Query) (label : String) : WithinCalls (graphql query label) :=
  (call_within _).bind fun _ => (Thrifty.check _).bind fun _ => .check _

theorem observeRateLimit_within (rateLimit : RateLimit) :
    WithinCalls (observeRateLimit rateLimit) := by
  refine (Thrifty.check _).bind fun _ => (Thrifty.check _).bind fun _ => ?_
  refine .silent (fun follows => Session.follows_set (Session.follows_get_bind.mp follows)) ?_
  intro client calls _ client' returned
  rw [Session.returns_get_bind, Session.returns_set] at returned
  rw [returned.2]

theorem observeReviewNodes_within (count : Nat) : WithinCalls (observeReviewNodes count) := by
  refine .silent (fun follows => ?_) ?_
  · rw [observeReviewNodes, Session.follows_get_bind, Session.follows_set_bind] at follows
    exact Session.follows_check follows
  · intro client calls _ client' returned
    rw [observeReviewNodes, Session.returns_get_bind, Session.returns_set_bind,
      Session.returns_check] at returned
    rw [returned.2.2]

section

variable {actor : ActorIdentity} {reviewer : ReviewerIdentity}

theorem resolveAuthenticatedActor_within : WithinCalls resolveAuthenticatedActor :=
  (rest_within _ _).bind fun _ => (Thrifty.check _).bind fun _ => .pure _

theorem reviewerUser_within (requested : Option String) :
    WithinCalls (reviewerUser requested actor) := by
  cases requested with
  | none => exact .pure _
  | some login =>
      unfold reviewerUser
      dsimp only
      split
      · exact .pure _
      · exact (rest_within _ _).bind fun _ => (Thrifty.check _).bind fun _ => .pure _

theorem resolveReviewer_within (requested : Option String) :
    WithinCalls (resolveReviewer requested actor) := by
  have resolved : WithinCalls (do
      let user ← reviewerUser requested actor
      check (validateGithubUser user "reviewer")
      return (⟨user.login, user.id, user.nodeId,
        if requested.isSome then "explicit_reviewer" else "authenticated_viewer"⟩ :
          ReviewerIdentity)) :=
    (reviewerUser_within requested).bind fun _ => (Thrifty.check _).bind fun _ => .pure _
  cases requested with
  | none => exact resolved
  | some login => exact (Thrifty.check _).bind fun _ => resolved

theorem reviewPage_within (owner name : String) (repository : RepositoryRecord)
    (expected : PullRequestBody) (login cursor : String) :
    WithinCalls (reviewPage owner name repository expected actor login cursor) :=
  (graphql_within _ _).bind fun _ => (Thrifty.check _).bind fun _ =>
    (observeRateLimit_within _).bind fun _ => (Thrifty.check _).bind fun _ =>
      (Thrifty.check _).bind fun _ => (Thrifty.check _).bind fun _ => (Thrifty.check _).bind
        fun _ =>
        (Thrifty.check _).bind fun _ => .pure _

theorem reviewPages_within (owner name : String) (repository : RepositoryRecord)
    (expected : PullRequestBody) (login : String) (pageInfo : PageInfo)
    (reviews : List ReviewRecord) (pages : Nat) :
    WithinCalls (reviewPages owner name repository expected actor login pageInfo reviews
      pages) := by
  induction pageInfo, reviews, pages using reviewPages.induct with
  | case1 pageInfo reviews pages advances ih =>
      rw [reviewPages, if_pos advances]
      refine (Thrifty.check _).bind fun _ => (reviewPage_within ..).bind fun observed => ?_
      split
      · exact .check _
      · rename_i some
        refine (observeReviewNodes_within _).bind fun _ => ?_
        split
        · exact .check _
        · rename_i short
          exact (Thrifty.check _).bind fun _ => ih observed some short
  | case2 pageInfo reviews pages last =>
      rw [reviewPages, if_neg last]
      exact .pure _

theorem appendReviewPages_within (repository : RepositoryRecord) (expected : PullRequestBody)
    (login : String) (reviews : List ReviewRecord) :
    WithinCalls (appendReviewPages repository expected actor login reviews) :=
  (Thrifty.check _).bind fun _ => reviewPages_within ..

theorem completeSnapshot_within (pullRequest : PullRequestRecord) :
    WithinCalls (completeSnapshot pullRequest actor reviewer) :=
  (appendReviewPages_within ..).bind fun _ => (Thrifty.check _).bind fun _ => .pure _

theorem revalidateSnapshot_within (expected : CandidateSnapshot) :
    WithinCalls (revalidateSnapshot expected actor reviewer) :=
  (Thrifty.check _).bind fun _ => (graphql_within _ _).bind fun _ => (Thrifty.check _).bind fun _ =>
    (observeRateLimit_within _).bind fun _ => (Thrifty.check _).bind fun _ =>
      (Thrifty.check _).bind fun _ => (Thrifty.check _).bind fun _ => .get_bind fun _ =>
        (Thrifty.check _).bind fun _ => (observeReviewNodes_within _).bind fun _ =>
          (appendReviewPages_within ..).bind fun _ => (Thrifty.check _).bind fun _ => .pure _

theorem resolveRepositoryScope_within (requested : Option String) :
    WithinCalls (resolveRepositoryScope actor requested) := by
  cases requested with
  | none => exact .pure _
  | some requested =>
      exact (Thrifty.check _).bind fun _ => (graphql_within _ _).bind fun _ =>
        (Thrifty.check _).bind fun _ => (observeRateLimit_within _).bind fun _ =>
          (Thrifty.check _).bind fun _ => (Thrifty.check _).bind fun _ =>
            (Thrifty.check _).bind fun _ => (Thrifty.check _).bind fun _ => .get_bind fun _ =>
              (Thrifty.check _).bind fun _ => .pure _

theorem searchPullRequests_within (repository : Option String) (limit : Nat) :
    WithinCalls (searchPullRequests actor reviewer repository limit) :=
  (graphql_within _ _).bind fun _ => (Thrifty.check _).bind fun _ =>
    (observeRateLimit_within _).bind fun _ => (Thrifty.check _).bind fun _ =>
      (Thrifty.check _).bind fun _ => (Thrifty.check _).bind fun _ => .pure _

theorem completeSnapshots_within (scopedRepository : Option RepositoryRecord) (index : Nat)
    (ids : List String) (nodes : List (Option PullRequestRecord)) :
    WithinCalls (completeSnapshots scopedRepository actor reviewer index ids nodes) := by
  induction nodes generalizing index ids with
  | nil => exact .pure _
  | cons node nodes ih =>
      have rest (pullRequest : PullRequestRecord) : WithinCalls (do
          check <| Result.ensure (!ids.contains pullRequest.id)
            (.invalid "GitHub review inbox search returned a duplicate pull request")
          let snapshot ← completeSnapshot pullRequest actor reviewer
          let snapshots ← completeSnapshots scopedRepository actor reviewer (index + 1)
            (pullRequest.id :: ids) nodes
          return snapshot :: snapshots) :=
        (Thrifty.check _).bind fun _ => (completeSnapshot_within _).bind fun _ =>
          (ih _ _).bind fun _ => .pure _
      refine (Thrifty.check _).bind fun pullRequest => .get_bind fun _ =>
        (Thrifty.check _).bind fun _ => (observeReviewNodes_within _).bind fun _ => ?_
      cases scopedRepository with
      | none => exact rest pullRequest
      | some expected => exact (Thrifty.check _).bind fun _ => rest pullRequest

theorem revalidateSnapshots_within (snapshots : List CandidateSnapshot) :
    WithinCalls (revalidateSnapshots actor reviewer snapshots) := by
  induction snapshots with
  | nil => exact .pure _
  | cons snapshot snapshots ih =>
      exact (revalidateSnapshot_within _).bind fun _ => (Thrifty.check _).bind fun _ =>
        ih.bind fun _ => .pure _

end

section

variable (codec : InboxEvent.Codec)

theorem collect_within (requestedReviewer repository : Option String) (limit : Nat) :
    WithinCalls (collect codec requestedReviewer repository limit) :=
  resolveAuthenticatedActor_within.bind fun _ => (resolveReviewer_within _).bind fun _ =>
    (resolveRepositoryScope_within _).bind fun _ => (searchPullRequests_within _ _).bind fun _ =>
      (completeSnapshots_within ..).bind fun _ => (revalidateSnapshots_within _).bind fun _ =>
        .get_bind fun _ => .check _

/-- The inbox reports the calls of the client it was made with. -/
theorem materialize_apiCalls {client : GhClient} {actor : ActorIdentity}
    {reviewer : ReviewerIdentity} {scopedRepository : Option RepositoryRecord} {limit : Nat}
    {search : SearchConnection}
    {candidates : List (CandidateSnapshot × Inbox.CandidateObservation)} {inbox : ReviewInbox}
    (made : materialize codec client actor reviewer scopedRepository limit search candidates =
      .ok inbox) : inbox.collection.apiCalls = client.calls := by
  unfold materialize at made
  dsimp only at made
  obtain ⟨_, made⟩ := Result.check_bind_eq_ok.mp made
  obtain ⟨_, made⟩ := Result.check_bind_eq_ok.mp made
  obtain ⟨_, _, made⟩ := Result.bind_eq_ok.mp made
  obtain ⟨_, _, made⟩ := Result.bind_eq_ok.mp made
  obtain ⟨_, made⟩ := Result.check_bind_eq_ok.mp made
  obtain rfl := Except.ok.inj made
  rfl

theorem collect_apiCalls {requestedReviewer repository : Option String} {limit : Nat}
    {client client' : GhClient} {calls : List (Exchange github)} {inbox : ReviewInbox}
    (returned : (collect codec requestedReviewer repository limit).Returns client calls inbox
      client') : inbox.collection.apiCalls = client'.calls := by
  rw [collect, Session.returns_bind] at returned
  obtain ⟨actor, _, _, _, rfl, _, returned⟩ := returned
  rw [Session.returns_bind] at returned
  obtain ⟨reviewer, _, _, _, rfl, _, returned⟩ := returned
  rw [collectInbox, Session.returns_bind] at returned
  obtain ⟨scopedRepository, _, _, _, rfl, _, returned⟩ := returned
  rw [Session.returns_bind] at returned
  obtain ⟨search, _, _, _, rfl, _, returned⟩ := returned
  rw [Session.returns_bind] at returned
  obtain ⟨initial, _, _, _, rfl, _, returned⟩ := returned
  rw [Session.returns_bind] at returned
  obtain ⟨candidates, _, _, _, rfl, _, returned⟩ := returned
  rw [Session.returns_get_bind] at returned
  obtain ⟨made, rfl, rfl⟩ := Session.returns_check.mp returned
  exact materialize_apiCalls codec made

/-- However GitHub answers and wherever it fails, a run makes no more calls than the budget
allows, and an inbox that is returned reports them all. -/
theorem inbox_within_call_budget (args : InboxArgs) (calls : List (Exchange github)) :
    ((run codec args).Follows calls → calls.length ≤ maxApiCalls) ∧
      ∀ inbox, (run codec args).Returns calls inbox →
        inbox.collection.apiCalls = calls.length ∧ calls.length ≤ maxApiCalls := by
  unfold run
  split
  · refine ⟨fun follows => ?_, fun inbox returned => returned.elim⟩
    cases calls with
    | nil => exact Nat.zero_le _
    | cons exchange rest => exact follows.elim
  · rename_i hostname repository _
    have within := collect_within codec args.reviewer repository args.limit
    have start : (GhClient.new hostname).calls = 0 := rfl
    have bounded (follows : (collect codec args.reviewer repository args.limit).Follows
        (GhClient.new hostname) calls) : calls.length ≤ maxApiCalls := by
      have bound := within.follows (Nat.zero_le _) follows
      rwa [start, Nat.zero_add] at bound
    refine ⟨fun follows => bounded (Program.follows_map follows), fun inbox returned => ?_⟩
    rw [StateT.run', Program.returns_map] at returned
    obtain ⟨⟨found, client'⟩, returned, rfl⟩ := returned
    refine ⟨?_, bounded (Program.Returns.follows returned)⟩
    have counted := within.returns returned
    rw [start, Nat.zero_add] at counted
    exact (collect_apiCalls codec returned).trans counted

end

end Stratadiff.ReviewInbox
