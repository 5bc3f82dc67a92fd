import Stratadiff.Inbox.Checkpoint
import Stratadiff.Inbox.Client

/-!
# Collecting the review inbox

`inbox.rs`: the open pull requests that a reviewer has reviewed are searched for, the reviews
of each are read page by page, everything is read once more, and what both readings agree on is
decided and announced.
-/

namespace Stratadiff.ReviewInbox

open Inbox InboxEvent
open Ledger (toAsciiLowercase eqIgnoreAsciiCase)
open Session (check)

/-! ## Checks of what was read -/

def validateReviewRequestLogin (target : ReviewRequestTarget) : Result Unit := do
  let login := Result.ofOption (.invalid "review_request_actor_login_missing") target.login
  let invalid {α : Type} (result : Result α) : Result α :=
    result.mapError fun _ => .invalid "review_request_actor_login_invalid"
  if target.accountType = "User" then
    invalid (InboxEvent.validateLogin (← login))
  else if target.accountType ∈ ["Bot", "Mannequin"] then
    invalid (validateProviderActorLogin (← login))
  else
    Result.ensure target.login.isNone (.invalid "review_request_team_shape_invalid")

/-- The targets in turn; none may come twice. -/
def validateReviewRequestTargets : List String → List (Option ReviewRequestTarget) → Result Unit
  | _, [] => pure ()
  | nodeIds, request :: requests => do
      let target ← Result.ofOption (.invalid "review_request_target_missing") request
      Result.ensure (target.accountType ∈ ["Bot", "EnterpriseTeam", "Mannequin", "Team", "User"])
        (.invalid "review_request_target_type_invalid")
      Result.ensure (validNodeId target.id) (.invalid "review_request_target_identity_invalid")
      Result.ensure (!nodeIds.contains target.id) (.invalid "duplicate_review_request_target")
      validateReviewRequestLogin target
      validateReviewRequestTargets (target.id :: nodeIds) requests

def validateReviewRequests (requests : ReviewRequestConnection) : Result Unit := do
  Result.ensure (requests.nodes.length ≤ maxReviewRequests)
    (.invalid s!"GitHub returned more than {maxReviewRequests} review requests in one page")
  Result.ensure (!requests.pageInfo.hasNextPage) (.invalid "review_request_pagination_incomplete")
  Result.ensure (requests.totalCount = requests.nodes.length)
    (.invalid "review_request_count_mismatch")
  validateReviewRequestTargets [] requests.nodes

/-- Whether the reviewer is among the targets; whoever looks like the reviewer must be. -/
def activeRequest (reviewer : ReviewerIdentity) : List (Option ReviewRequestTarget) → Result Bool
  | [] => pure false
  | none :: requests => activeRequest reviewer requests
  | some target :: requests => do
      let sameLogin := target.login.any fun login => eqIgnoreAsciiCase login reviewer.login
      if target.id = reviewer.nodeId || sameLogin then
        Result.ensure (target.accountType = "User" ∧ target.id = reviewer.nodeId ∧ sameLogin)
          (.invalid "review_request_reviewer_identity_mismatch")
        discard <| activeRequest reviewer requests
        return true
      else
        activeRequest reviewer requests

def reviewRequestActive (requests : ReviewRequestConnection) (reviewer : ReviewerIdentity) :
    Result Bool := do
  validateReviewRequests requests
  activeRequest reviewer requests.nodes

def validatePullRequest (pullRequest : PullRequestRecord) (hostname : String)
    (expectedRepository : Option String) : Result Unit := do
  let repository := pullRequest.repository
  Result.ensure (pullRequest.state = "OPEN")
    (.invalid "review inbox returned a non-open pull request")
  Result.ensure (validNodeId pullRequest.id) (.invalid "pull request has an invalid node ID")
  validateRepository repository.nameWithOwner
  if let some expected := expectedRepository then
    Result.ensure (eqIgnoreAsciiCase repository.nameWithOwner expected)
      (.invalid "review inbox result escaped the requested repository")
  Result.ensure (validNodeId repository.id) (.invalid "repository has an invalid node ID")
  let expectedRepositoryUrl := "https://" ++ hostname ++ "/" ++ repository.nameWithOwner
  Result.ensure (repository.url = expectedRepositoryUrl)
    (.invalid "GitHub repository URL is not canonical")
  Result.ensure (pullRequest.url = expectedRepositoryUrl ++ "/pull/" ++ toString pullRequest.number)
    (.invalid "GitHub pull request URL is not canonical")
  Result.ensure (validTimestamp pullRequest.updatedAt)
    (.invalid "pull request has an invalid updated timestamp")
  Result.ensure (pullRequest.headRefOid.all validOid)
    (.invalid "pull request head is not a full lowercase SHA-1")
  Result.ensure (pullRequest.baseRefOid.all validOid)
    (.invalid "pull request base is not a full lowercase SHA-1")
  validateReviewRequests pullRequest.reviewRequests
  Result.ensure (pullRequest.reviews.nodes.length ≤ 100)
    (.invalid "GitHub returned more than 100 reviews in one page")
  Result.ensure (pullRequest.reviews.totalCount ≤ maxGithubReviews)
    (.invalid s!"reviewer review count exceeds {maxGithubReviews}")

def ensureRepositoryMatches (observed expected : RepositoryRecord) : Result Unit :=
  Result.ensure
    (observed.id = expected.id ∧ observed.nameWithOwner = expected.nameWithOwner ∧
      observed.url = expected.url)
    (.invalid "repository identity changed while collecting the review inbox")

def ensurePullRequestBodyMatches (observed expected : PullRequestBody) : Result Unit :=
  Result.ensure
    (observed.id = expected.id ∧ observed.number = expected.number ∧
      observed.state = expected.state ∧ observed.url = expected.url ∧
      observed.isDraft = expected.isDraft ∧ observed.updatedAt = expected.updatedAt ∧
      observed.baseRefOid = expected.baseRefOid ∧ observed.headRefOid = expected.headRefOid ∧
      observed.allReviews = expected.allReviews ∧
      observed.reviewRequests = expected.reviewRequests)
    (.invalid "pull request changed during review pagination")

/-- A review by itself, with the database ids before it. -/
def validateCompleteReview (reviewer : ReviewerIdentity) (databaseIds : List UInt64)
    (review : ReviewRecord) : Result (List UInt64) := do
  let databaseIds ←
    match review.fullDatabaseId with
    | some value => do
        let id ← databaseId value
        Result.ensure (!databaseIds.contains id)
          (.invalid "GitHub reviewer history contains a duplicate database ID")
        pure (id :: databaseIds)
    | none => do
        Result.ensure (¬ isCompleted review.state)
          (.invalid "GitHub completed review is missing its database ID")
        pure databaseIds
  let author ← Result.ofOption (.invalid "reviewer-filtered GitHub review has no author")
    review.author
  Result.ensure
    (author.accountType = "User" ∧ eqIgnoreAsciiCase author.login reviewer.login ∧
      author.id = some reviewer.nodeId)
    (.invalid ("reviewer-filtered GitHub review is not bound to the requested immutable " ++
      "reviewer identity"))
  return databaseIds

/-- The reviews in turn; no node id and no database id may come twice. -/
def validateReviews (reviewer : ReviewerIdentity) :
    List String → List UInt64 → List ReviewRecord → Result Unit
  | _, _, [] => pure ()
  | nodeIds, databaseIds, review :: reviews => do
      Result.ensure (validNodeId review.id) (.invalid "GitHub review has an invalid node ID")
      Result.ensure (!nodeIds.contains review.id)
        (.invalid "GitHub reviewer history contains a duplicate node")
      let databaseIds ← validateCompleteReview reviewer databaseIds review
      validateReviews reviewer (review.id :: nodeIds) databaseIds reviews

def validateCompleteReviews (reviews : List ReviewRecord) (expected : Nat)
    (reviewer : ReviewerIdentity) : Result Unit := do
  Result.ensure (reviews.length = expected)
    (.invalid ("GitHub reviewer history is incomplete: expected " ++ toString expected ++
      ", captured " ++ toString reviews.length))
  validateReviews reviewer [] [] reviews

/-! ## Reading a candidate -/

structure CandidateSnapshot where
  pullRequest : PullRequestRecord
  reviews : List ReviewRecord
  reviewPagesObserved : Nat
  deriving DecidableEq, Repr

/-- The page after a cursor, of the same pull request of the same repository. -/
def reviewPage (owner name : String) (repository : RepositoryRecord) (expected : PullRequestBody)
    (authenticatedActor : ActorIdentity) (reviewer cursor : String) :
    Collecting PullRequestBody := do
  let data ← graphql (.reviewPage owner name reviewer cursor expected.number)
    "GitHub review inbox review pagination"
  check (ensureAuthenticatedActor data.viewer authenticatedActor)
  observeRateLimit data.rateLimit
  let observedRepository ← check <| Result.ofOption
    (.invalid "GitHub review pagination omitted the repository") data.repository
  check (ensureRepositoryMatches observedRepository.toRepositoryRecord repository)
  let observed ← check <| Result.ofOption
    (.invalid "reviewed pull request disappeared during review pagination")
    observedRepository.pullRequest
  check (ensurePullRequestBodyMatches observed expected)
  check <| Result.ensure (observed.reviews.totalCount = expected.reviews.totalCount)
    (.invalid "review count changed during review pagination")
  return observed

/-- The reviews of the pages that follow, and how many pages there are. -/
def reviewPages (owner name : String) (repository : RepositoryRecord) (expected : PullRequestBody)
    (authenticatedActor : ActorIdentity) (reviewer : String) (pageInfo : PageInfo)
    (reviews : List ReviewRecord) (pagesObserved : Nat) :
    Collecting (List ReviewRecord × Nat) := do
  if pageInfo.hasNextPage then
    let cursor ← check <| Result.ofOption
      (.invalid "GitHub review pagination omitted its end cursor") pageInfo.endCursor
    let observed ← reviewPage owner name repository expected authenticatedActor reviewer cursor
    if empty : observed.reviews.nodes = [] then
      check (.error (.invalid "GitHub review pagination returned an empty page"))
    else
      observeReviewNodes observed.reviews.nodes.length
      if long : maxGithubReviews < (reviews ++ observed.reviews.nodes).length then
        check (.error (.invalid s!"reviewer review count exceeds {maxGithubReviews}"))
      else
        check <| Result.ensure (observed.reviews.pageInfo.endCursor ≠ pageInfo.endCursor)
          (.invalid "GitHub review pagination cursor did not advance")
        reviewPages owner name repository expected authenticatedActor reviewer
          observed.reviews.pageInfo (reviews ++ observed.reviews.nodes) (pagesObserved + 1)
  else
    return (reviews, pagesObserved)
termination_by maxGithubReviews + 1 - reviews.length
decreasing_by
  have some := List.length_pos_iff.mpr empty
  rw [List.length_append] at long ⊢
  omega

def appendReviewPages (repository : RepositoryRecord) (expected : PullRequestBody)
    (authenticatedActor : ActorIdentity) (reviewer : String) (reviews : List ReviewRecord) :
    Collecting (List ReviewRecord × Nat) := do
  let (owner, name) ← check (splitRepository repository.nameWithOwner)
  reviewPages owner name repository expected authenticatedActor reviewer
    expected.reviews.pageInfo reviews 1

def completeSnapshot (pullRequest : PullRequestRecord) (authenticatedActor : ActorIdentity)
    (reviewer : ReviewerIdentity) : Collecting CandidateSnapshot := do
  let (reviews, reviewPagesObserved) ← appendReviewPages pullRequest.repository
    pullRequest.toPullRequestBody authenticatedActor reviewer.login pullRequest.reviews.nodes
  check (validateCompleteReviews reviews pullRequest.reviews.totalCount reviewer)
  return ⟨pullRequest, reviews, reviewPagesObserved⟩

def revalidateSnapshot (expected : CandidateSnapshot) (authenticatedActor : ActorIdentity)
    (reviewer : ReviewerIdentity) : Collecting CandidateSnapshot := do
  let repository := expected.pullRequest.repository
  let (owner, name) ← check (splitRepository repository.nameWithOwner)
  let data ← graphql (.revalidate owner name reviewer.login expected.pullRequest.number)
    "GitHub review inbox revalidation"
  check (ensureAuthenticatedActor data.viewer authenticatedActor)
  observeRateLimit data.rateLimit
  let observedRepository ← check <| Result.ofOption
    (.invalid "GitHub review inbox revalidation omitted the repository") data.repository
  check (ensureRepositoryMatches observedRepository.toRepositoryRecord repository)
  let body ← check <| Result.ofOption
    (.invalid "reviewed pull request is no longer available") observedRepository.pullRequest
  let pullRequest : PullRequestRecord := { body with repository }
  let client ← get
  check (validatePullRequest pullRequest client.hostname none)
  observeReviewNodes body.reviews.nodes.length
  let (reviews, reviewPagesObserved) ← appendReviewPages repository body authenticatedActor
    reviewer.login body.reviews.nodes
  check (validateCompleteReviews reviews body.reviews.totalCount reviewer)
  return ⟨pullRequest, reviews, reviewPagesObserved⟩

/-! ## What is decided -/

def actorObservation (actor : ActorIdentity) : ActorObservation := ⟨actor.login, actor.nodeId⟩

def repositoryObservation (repository : RepositoryRecord) : RepositoryObservation :=
  ⟨repository.nameWithOwner, repository.id, repository.url⟩

/-- A review as it is decided; the base of a checkpoint is never observed. -/
def reviewObservation (review : ReviewRecord) : Result ReviewObservation := do
  let author ← Result.ofOption (.invalid "reviewer-filtered GitHub review has no author")
    review.author
  let nodeId ← Result.ofOption
    (.invalid "reviewer-filtered GitHub review has no immutable author ID") author.id
  let id ← review.fullDatabaseId.mapM databaseId
  return {
    author := ⟨author.accountType, author.login, nodeId⟩
    checkpointBaseOid := none
    commitOid := review.commit
    databaseId := id.map UInt64.toNat
    nodeId := review.id
    state := review.state
    submittedAt := review.submittedAt
    url := review.url }

def candidateObservation (initial revalidated : CandidateSnapshot)
    (authenticatedActor : ActorIdentity) (reviewer : ReviewerIdentity) :
    Result CandidateObservation := do
  let pullRequest := initial.pullRequest
  let reviews ← initial.reviews.mapM reviewObservation
  let active ← reviewRequestActive pullRequest.reviewRequests reviewer
  return {
    pullRequest := {
      currentBaseOid := pullRequest.baseRefOid
      headOid := pullRequest.headRefOid
      nodeId := pullRequest.id
      number := pullRequest.number.toNat
      state := pullRequest.state
      totalReviewCount := pullRequest.allReviews
      updatedAt := pullRequest.updatedAt
      url := pullRequest.url }
    repository := repositoryObservation pullRequest.repository
    revalidation := {
      outcome := "matched"
      pullRequestNodeId := revalidated.pullRequest.id
      repository := repositoryObservation revalidated.pullRequest.repository
      snapshotMatches := decide (initial = revalidated)
      viewer := actorObservation authenticatedActor }
    reviewHistory := {
      cursorAdvanced := true
      nodes := reviews
      pagesObserved := initial.reviewPagesObserved
      reportedCount := pullRequest.reviews.totalCount
      terminalPageObserved := true }
    reviewRequestActive := active }

/-! ## What is announced -/

/-- The state of a completed review, as it is announced. -/
def checkpointState (state : String) : Result String :=
  if state = "APPROVED" then .ok "approved"
  else if state = "CHANGES_REQUESTED" then .ok "changes_requested"
  else .error (.invalid "selected Inbox checkpoint is not a completed review")

def selectedCheckpoint (reviews : List ReviewRecord) (selectedNodeId : String) :
    Result GithubReviewCheckpoint := do
  let review ← Result.ofOption
    (.invalid "selected Inbox checkpoint is absent from the reviewer history")
    (reviews.find? fun review => review.id = selectedNodeId)
  let author ← Result.ofOption (.invalid "selected Inbox checkpoint has no author") review.author
  let reviewState ← checkpointState review.state
  let value ← Result.ofOption (.invalid "selected Inbox checkpoint has no database ID")
    review.fullDatabaseId
  let reviewId ← databaseId value
  let commitId ← Result.ofOption (.invalid "selected Inbox checkpoint has no commit")
    review.commit
  let submittedAt ← Result.ofOption
    (.invalid "selected Inbox checkpoint has no submission timestamp") review.submittedAt
  return {
    reviewId := reviewId.toNat
    reviewerLogin := author.login
    reviewState := reviewState
    commitId := commitId
    submittedAt := submittedAt
    htmlUrl := review.url
    authorAssociation := review.authorAssociation }

def validAuthorAssociation (value : String) : Bool :=
  value ≠ "" && value.utf8ByteSize ≤ 64 && value.toList.all fun c => c.isUpper || c = '_'

def validateCheckpointOutput (checkpoint : GithubReviewCheckpoint) (pullRequestUrl : String) :
    Result Unit := do
  Result.ensure (0 < checkpoint.reviewId) (.invalid "GitHub review ID is not positive")
  InboxEvent.validateLogin checkpoint.reviewerLogin
  Result.ensure (checkpoint.reviewState ∈ ["approved", "changes_requested"])
    (.invalid "GitHub review checkpoint has an unsupported state")
  Result.ensure (validOid checkpoint.commitId)
    (.invalid "GitHub review checkpoint commit is not a full lowercase SHA-1")
  Result.ensure (validTimestamp checkpoint.submittedAt)
    (.invalid "GitHub review checkpoint timestamp is invalid")
  Result.ensure (checkpoint.htmlUrl =
      pullRequestUrl ++ "#pullrequestreview-" ++ toString checkpoint.reviewId)
    (.invalid "GitHub review checkpoint URL is not canonical")
  Result.ensure (validAuthorAssociation checkpoint.authorAssociation)
    (.invalid "GitHub review checkpoint author association is invalid")

structure ActionableItem where
  eventId : String
  repository : String
  number : UInt64
  url : String
  isDraft : Bool
  updatedAt : String
  checkpoint : GithubReviewCheckpoint
  checkpointBaseOid : Option String
  currentBaseOid : Option String
  headOid : String
  reviewRequestActive : Bool
  triggers : List InboxEventTrigger
  totalReviewCount : Nat
  inboxEvent : String
  deriving DecidableEq, Repr

structure UnobservableItem where
  repository : String
  number : UInt64
  url : String
  updatedAt : String
  reason : String
  deriving DecidableEq, Repr

def unobservableItem (pullRequest : PullRequestRecord) (decision : InboxCandidateDecision) :
    Result UnobservableItem := do
  let reason ← Result.ofOption (.invalid "unobservable Inbox decision omitted its reason")
    decision.reason
  return ⟨pullRequest.repository.nameWithOwner, pullRequest.number, pullRequest.url,
    pullRequest.updatedAt, reason⟩

/-- What an actionable decision binds. -/
def eventBinding (hostname : String) (reviewer : ReviewerIdentity) (pullRequest : PullRequestRecord)
    (reviewRequestActive : Bool) (reviewNodeId : String) (checkpoint : GithubReviewCheckpoint)
    (headOid : String) (triggers : List InboxEventTrigger) : InboxEventBinding where
  providerHost := hostname
  repository := pullRequest.repository.nameWithOwner
  repositoryNodeId := pullRequest.repository.id
  pullRequestNumber := pullRequest.number
  pullRequestNodeId := pullRequest.id
  reviewerLogin := reviewer.login
  reviewerNodeId := reviewer.nodeId
  reviewDatabaseId := UInt64.ofNat checkpoint.reviewId
  reviewState := checkpoint.reviewState
  reviewNodeId := reviewNodeId
  checkpointOid := checkpoint.commitId
  checkpointBaseOid := none
  currentBaseOid := pullRequest.baseRefOid
  headOid := headOid
  reviewRequestActive := reviewRequestActive
  triggers := triggers

section

variable (codec : Codec)

def actionableItem (hostname : String) (reviewer : ReviewerIdentity) (snapshot : CandidateSnapshot)
    (candidate : CandidateObservation) (decision : InboxCandidateDecision) :
    Result ActionableItem := do
  let pullRequest := snapshot.pullRequest
  let reviewNodeId ← Result.ofOption
    (.invalid "actionable Inbox decision omitted its checkpoint") decision.checkpointReviewNodeId
  let checkpoint ← selectedCheckpoint snapshot.reviews reviewNodeId
  validateCheckpointOutput checkpoint pullRequest.url
  let headOid ← Result.ofOption (.invalid "actionable Inbox decision omitted the current head")
    pullRequest.headRefOid
  let trigger ← Result.ofOption (.invalid "actionable Inbox decision omitted its trigger")
    decision.trigger
  let triggers ← eventTriggers trigger
  let event ← (InboxEventEnvelope.new codec (eventBinding hostname reviewer pullRequest
    candidate.reviewRequestActive reviewNodeId checkpoint headOid triggers)).mapError
      fun _ => .invalid "failed to bind actionable Inbox evidence"
  let inboxEvent ← event.toToken codec
  return {
    eventId := event.eventId
    repository := pullRequest.repository.nameWithOwner
    number := pullRequest.number
    url := pullRequest.url
    isDraft := pullRequest.isDraft
    updatedAt := pullRequest.updatedAt
    checkpoint := checkpoint
    checkpointBaseOid := none
    currentBaseOid := pullRequest.baseRefOid
    headOid := headOid
    reviewRequestActive := candidate.reviewRequestActive
    triggers := triggers
    totalReviewCount := pullRequest.allReviews
    inboxEvent := inboxEvent }

/-- What is announced of the candidates, in their order. -/
def announce (hostname : String) (reviewer : ReviewerIdentity) :
    List ((CandidateSnapshot × CandidateObservation) × InboxCandidateDecision) →
      Result (List ActionableItem × List UnobservableItem)
  | [] => pure ([], [])
  | ((snapshot, candidate), decision) :: others => do
      match decision.status with
      | .noEligibleReviews | .upToDate => announce hostname reviewer others
      | .unobservable =>
          let item ← unobservableItem snapshot.pullRequest decision
          let (actionable, unobservable) ← announce hostname reviewer others
          return (actionable, item :: unobservable)
      | .actionable =>
          let item ← actionableItem codec hostname reviewer snapshot candidate decision
          let (actionable, unobservable) ← announce hostname reviewer others
          return (item :: actionable, unobservable)

end

/-- The newest first, and then by repository and number. -/
def listingOrder (left right : String × String × UInt64) : Bool :=
  ((compare right.1 left.1).then
    ((compare left.2.1 right.2.1).then (compare left.2.2 right.2.2))) != .gt

/-! ## The inbox -/

structure Collection where
  status : String
  searchCandidates : Nat
  inspectedCandidates : Nat
  truncated : Bool
  revalidatedReviewPrs : Nat
  apiCalls : Nat
  capturedReviewNodes : Nat
  responseBytes : Nat
  minimumRateLimitRemaining : Option Nat
  lastRateLimitResetAt : Option String
  deriving DecidableEq, Repr

structure Summary where
  status : String
  completedReviewPrs : Nat
  resumeAvailablePrs : Nat
  upToDatePrs : Nat
  noCompletedReviewPrs : Nat
  unobservableReviewPrs : Nat
  deriving DecidableEq, Repr

structure InboxScope where
  providerUrl : String
  repository : Option String
  authenticatedActor : ActorIdentity
  reviewer : ReviewerIdentity
  deriving DecidableEq, Repr

end ReviewInbox

structure ReviewInbox where
  scope : ReviewInbox.InboxScope
  collection : ReviewInbox.Collection
  summary : ReviewInbox.Summary
  actionable : List ReviewInbox.ActionableItem
  unobservable : List ReviewInbox.UnobservableItem
  deriving DecidableEq, Repr

namespace ReviewInbox

open Inbox InboxEvent
open Ledger (toAsciiLowercase eqIgnoreAsciiCase)
open Session (check)

def resolveRepositoryScope (authenticatedActor : ActorIdentity) :
    Option String → Collecting (Option RepositoryRecord)
  | none => pure none
  | some requested => do
      let (owner, name) ← check (splitRepository requested)
      let data ← graphql (.repository owner name) "GitHub review inbox repository lookup"
      check (ensureAuthenticatedActor data.viewer authenticatedActor)
      observeRateLimit data.rateLimit
      let repository ← check <| Result.ofOption
        (.invalid s!"GitHub repository {requested} does not exist or is not accessible")
        data.repository
      check (validateRepository repository.nameWithOwner)
      check <| Result.ensure (eqIgnoreAsciiCase repository.nameWithOwner requested)
        (.invalid "GitHub repository lookup returned a different repository")
      check <| Result.ensure (validNodeId repository.id)
        (.invalid "GitHub repository has an invalid node ID")
      let client ← get
      check <| Result.ensure
        (repository.url = "https://" ++ client.hostname ++ "/" ++ repository.nameWithOwner)
        (.invalid "GitHub repository URL is not canonical")
      return some repository

/-- The first readings of the search results in turn; no pull request may come twice. -/
def completeSnapshots (scopedRepository : Option RepositoryRecord)
    (authenticatedActor : ActorIdentity) (reviewer : ReviewerIdentity) :
    Nat → List String → List (Option PullRequestRecord) → Collecting (List CandidateSnapshot)
  | _, _, [] => return []
  | index, pullRequestIds, node :: nodes => do
      let pullRequest ← check <| Result.ofOption
        (.invalid s!"review inbox search result {index} is not a pull request") node
      let client ← get
      check <| validatePullRequest pullRequest client.hostname
        (scopedRepository.map (·.nameWithOwner))
      observeReviewNodes pullRequest.reviews.nodes.length
      if let some expected := scopedRepository then
        check (ensureRepositoryMatches pullRequest.repository expected)
      check <| Result.ensure (!pullRequestIds.contains pullRequest.id)
        (.invalid "GitHub review inbox search returned a duplicate pull request")
      let snapshot ← completeSnapshot pullRequest authenticatedActor reviewer
      let snapshots ← completeSnapshots scopedRepository authenticatedActor reviewer (index + 1)
        (pullRequest.id :: pullRequestIds) nodes
      return snapshot :: snapshots

/-- The second readings, each beside the first one. -/
def revalidateSnapshots (authenticatedActor : ActorIdentity) (reviewer : ReviewerIdentity) :
    List CandidateSnapshot → Collecting (List (CandidateSnapshot × CandidateObservation))
  | [] => return []
  | snapshot :: snapshots => do
      let observed ← revalidateSnapshot snapshot authenticatedActor reviewer
      let candidate ← check (candidateObservation snapshot observed authenticatedActor reviewer)
      let others ← revalidateSnapshots authenticatedActor reviewer snapshots
      return (snapshot, candidate) :: others

/-- The search of the reviewer's open pull requests. -/
def searchPullRequests (authenticatedActor : ActorIdentity) (reviewer : ReviewerIdentity)
    (repository : Option String) (limit : Nat) : Collecting SearchConnection := do
  let searchQuery := "is:pr is:open reviewed-by:" ++ reviewer.login ++ " sort:updated-desc" ++
    repository.elim "" (" repo:" ++ ·)
  let data ← graphql (.search searchQuery reviewer.login limit) "GitHub review inbox search"
  check (ensureAuthenticatedActor data.viewer authenticatedActor)
  observeRateLimit data.rateLimit
  let search := data.search
  check <| Result.ensure (search.nodes.length ≤ limit)
    (.invalid s!"GitHub review inbox search returned more than {limit} candidates")
  check <| Result.ensure (search.nodes.length ≤ search.issueCount)
    (.invalid "GitHub review inbox search count is smaller than its result page")
  check <| Result.ensure
    (search.pageInfo.hasNextPage = decide (search.nodes.length < search.issueCount))
    (.invalid "GitHub review inbox search pagination metadata is inconsistent")
  return search

/-- What the shared decision core is asked. -/
def inboxObservation (hostname : String) (authenticatedActor : ActorIdentity)
    (reviewer : ReviewerIdentity) (scopedRepository : Option RepositoryRecord) (limit : Nat)
    (search : SearchConnection) (candidates : List CandidateObservation) : InboxObservation where
  provider := ⟨hostname⟩
  scope := {
    authenticatedActor := actorObservation authenticatedActor
    requestedRepository := scopedRepository.map repositoryObservation
    reviewer := ⟨"User", reviewer.login, reviewer.nodeId⟩ }
  search := {
    candidates := candidates
    hasNextPage := search.pageInfo.hasNextPage
    issueCount := search.issueCount
    limit := limit
    outcome := "ok"
    viewer := actorObservation authenticatedActor }

section

variable (codec : Codec)

/-- The inbox of what was decided. -/
def materialize (client : GhClient) (authenticatedActor : ActorIdentity)
    (reviewer : ReviewerIdentity) (scopedRepository : Option RepositoryRecord) (limit : Nat)
    (search : SearchConnection) (candidates : List (CandidateSnapshot × CandidateObservation)) :
    Result ReviewInbox := do
  let evaluation := evaluateWithPolicy codec.sha256
    (inboxObservation client.hostname authenticatedActor reviewer scopedRepository limit search
      (candidates.map (·.2))) true
  let decision := evaluation.decision
  Result.ensure (decision.result = "success")
    (.invalid ("review inbox decision failed closed: " ++
      decision.error.getD "decision_error_missing"))
  Result.ensure (evaluation.candidates.length = candidates.length)
    (.invalid "review inbox decision omitted candidate results")
  let (actionable, unobservable) ← announce codec client.hostname reviewer
    (candidates.zip evaluation.candidates)
  let truncated := decide (candidates.length < search.issueCount)
  let status ← Result.ofOption (.invalid "successful Inbox decision omitted its status")
    decision.status
  let counts := decision.counts
  Result.ensure
    (actionable.length = counts.actionable ∧ unobservable.length = counts.unobservable)
    (.invalid "review inbox materialization disagrees with the shared decision core")
  return {
    scope := {
      providerUrl := "https://" ++ client.hostname
      repository := scopedRepository.map (·.nameWithOwner)
      authenticatedActor := authenticatedActor
      reviewer := reviewer }
    collection := {
      status := if truncated then "partial" else "complete"
      searchCandidates := search.issueCount
      inspectedCandidates := candidates.length
      truncated := truncated
      revalidatedReviewPrs := candidates.length
      apiCalls := client.calls
      capturedReviewNodes := client.capturedReviewNodes
      responseBytes := client.responseBytes
      minimumRateLimitRemaining := client.minimumRateLimitRemaining
      lastRateLimitResetAt := client.lastRateLimitResetAt }
    summary := {
      status := status
      completedReviewPrs := counts.actionable + counts.upToDate + counts.unobservable
      resumeAvailablePrs := counts.actionable
      upToDatePrs := counts.upToDate
      noCompletedReviewPrs := counts.noEligibleReviews
      unobservableReviewPrs := counts.unobservable }
    actionable := actionable.mergeSort fun left right =>
      listingOrder (left.updatedAt, left.repository, left.number)
        (right.updatedAt, right.repository, right.number)
    unobservable := unobservable.mergeSort fun left right =>
      listingOrder (left.updatedAt, left.repository, left.number)
        (right.updatedAt, right.repository, right.number) }

def collectInbox (authenticatedActor : ActorIdentity) (reviewer : ReviewerIdentity)
    (repository : Option String) (limit : Nat) : Collecting ReviewInbox := do
  let scopedRepository ← resolveRepositoryScope authenticatedActor repository
  let search ← searchPullRequests authenticatedActor reviewer
    (scopedRepository.map (·.nameWithOwner)) limit
  let initial ← completeSnapshots scopedRepository authenticatedActor reviewer 1 [] search.nodes
  let candidates ← revalidateSnapshots authenticatedActor reviewer initial
  let client ← get
  check <| materialize codec client authenticatedActor reviewer scopedRepository limit search
    candidates

/-- The arguments of the command that say what is collected. -/
structure InboxArgs where
  repository : Option String
  hostname : Option String
  reviewer : Option String
  limit : Nat

def parseRepository (requested requestedHostname : Option String) :
    Result (String × Option String) := do
  if let some hostname := requestedHostname then
    validateHost hostname
  let given := requestedHostname.getD "github.com"
  match requested with
  | none => return (toAsciiLowercase given, none)
  | some requested =>
      let (hostname, repository) ←
        match requested.toList.splitOn '/' with
        | [owner, name] => pure (given, String.ofList (owner ++ '/' :: name))
        | [hostname, owner, name] =>
            pure (String.ofList hostname, String.ofList (owner ++ '/' :: name))
        | _ => .error (.invalid "GitHub repository must be [HOST/]OWNER/REPO")
      validateHost hostname
      if let some requestedHostname := requestedHostname then
        Result.ensure (eqIgnoreAsciiCase hostname requestedHostname)
          (.invalid s!"repository host {hostname} does not match --hostname {requestedHostname}")
      validateRepository repository
      return (toAsciiLowercase hostname, some repository)

/-- `run`, up to the inbox. -/
def collect (requestedReviewer repository : Option String) (limit : Nat) :
    Collecting ReviewInbox := do
  let authenticatedActor ← resolveAuthenticatedActor
  let reviewer ← resolveReviewer requestedReviewer authenticatedActor
  collectInbox codec authenticatedActor reviewer repository limit

/-- What the command collects from a fresh client of the host it is asked for. -/
def run (args : InboxArgs) : Program github ReviewInbox :=
  match parseRepository args.repository args.hostname with
  | .error failure => .fail failure.text
  | .ok (hostname, repository) =>
      (collect codec args.reviewer repository args.limit).run' (GhClient.new hostname)

end

end Stratadiff.ReviewInbox
