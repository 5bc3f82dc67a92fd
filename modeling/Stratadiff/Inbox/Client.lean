import Stratadiff.Inbox.Event
import Stratadiff.Lib.Session

/-!
# The GitHub client of the review inbox

`inbox.rs`: the calls of `gh api` that the inbox is collected with, within their budgets, and
what is checked of single answers. GitHub may answer anything. The clock, the signals and the
process behind a call can fail any call; what it prints is its size and what `serde_json` reads
from it.
-/

namespace Stratadiff.ReviewInbox

open Inbox InboxEvent
open Ledger (toAsciiLowercase eqIgnoreAsciiCase)
open Session (check request)

def maxReviewRequests : Nat := 100
def maxApiCalls : Nat := 256
def maxCapturedReviewNodes : Nat := 100000
def maxTotalResponseBytes : Nat := 64 * 1024 * 1024

/-! ## What GitHub answers -/

structure GithubUser where
  login : String
  id : UInt64
  nodeId : String
  accountType : String
  deriving DecidableEq, Repr

structure GraphqlViewer where
  login : String
  id : String
  deriving DecidableEq, Repr

structure RepositoryRecord where
  id : String
  nameWithOwner : String
  url : String
  deriving DecidableEq, Repr

structure PageInfo where
  hasNextPage : Bool
  endCursor : Option String
  deriving DecidableEq, Repr

structure ReviewRequestTarget where
  accountType : String
  id : String
  login : Option String
  deriving DecidableEq, Repr

structure ReviewRequestConnection where
  totalCount : Nat
  pageInfo : PageInfo
  nodes : List (Option ReviewRequestTarget)
  deriving DecidableEq, Repr

inductive DatabaseId where
  | number (value : UInt64)
  | string (value : String)
  deriving DecidableEq, Repr

structure ReviewAuthor where
  accountType : String
  login : String
  id : Option String
  deriving DecidableEq, Repr

structure ReviewRecord where
  id : String
  fullDatabaseId : Option DatabaseId
  state : String
  submittedAt : Option String
  url : String
  authorAssociation : String
  author : Option ReviewAuthor
  commit : Option String
  deriving DecidableEq, Repr

structure ReviewConnection where
  totalCount : Nat
  pageInfo : PageInfo
  nodes : List ReviewRecord
  deriving DecidableEq, Repr

structure PullRequestBody where
  id : String
  number : UInt64
  state : String
  url : String
  isDraft : Bool
  updatedAt : String
  baseRefOid : Option String
  headRefOid : Option String
  allReviews : Nat
  reviewRequests : ReviewRequestConnection
  reviews : ReviewConnection
  deriving DecidableEq, Repr

structure PullRequestRecord extends PullRequestBody where
  repository : RepositoryRecord
  deriving DecidableEq, Repr

structure RateLimit where
  cost : Nat
  remaining : Nat
  resetAt : String
  deriving DecidableEq, Repr

structure SearchConnection where
  issueCount : Nat
  pageInfo : PageInfo
  nodes : List (Option PullRequestRecord)
  deriving DecidableEq, Repr

structure SearchData where
  viewer : GraphqlViewer
  search : SearchConnection
  rateLimit : RateLimit
  deriving DecidableEq, Repr

structure RepositoryWithPullRequest extends RepositoryRecord where
  pullRequest : Option PullRequestBody
  deriving DecidableEq, Repr

structure RevalidateData where
  viewer : GraphqlViewer
  repository : Option RepositoryWithPullRequest
  rateLimit : RateLimit
  deriving DecidableEq, Repr

structure RepositoryData where
  viewer : GraphqlViewer
  repository : Option RepositoryRecord
  rateLimit : RateLimit
  deriving DecidableEq, Repr

structure GraphqlEnvelope (α : Type) where
  data : Option α
  errors : Option String

/-! ## The client -/

/-- The GraphQL queries, with the fields they pass. -/
inductive Query where
  | repository (owner name : String)
  | search (searchQuery reviewer : String) (first : Nat)
  | revalidate (owner name reviewer : String) (number : UInt64)
  | reviewPage (owner name reviewer cursor : String) (number : UInt64)
  deriving DecidableEq, Repr

abbrev Query.Data : Query → Type
  | .repository .. => RepositoryData
  | .search .. => SearchData
  | .revalidate .. => RevalidateData
  | .reviewPage .. => RevalidateData

/-- The calls of `gh api`. -/
inductive Api where
  | rest (endpoint : String)
  | graphql (query : Query)
  deriving DecidableEq, Repr

abbrev Api.Reply : Api → Type
  | .rest _ => GithubUser
  | .graphql query => GraphqlEnvelope query.Data

/-- What a successful process prints: how many bytes, and what is read from them. -/
structure Output (α : Type) where
  size : Nat
  body : Except String α

def github : Interface := ⟨Api, fun api => Output api.Reply⟩

structure GhClient where
  hostname : String
  calls : Nat
  capturedReviewNodes : Nat
  responseBytes : Nat
  minimumRateLimitRemaining : Option Nat
  lastRateLimitResetAt : Option String
  deriving DecidableEq, Repr

def GhClient.new (hostname : String) : GhClient := ⟨hostname, 0, 0, 0, none, none⟩

abbrev Collecting (α : Type) := Session github GhClient α

def call (api : Api) : Collecting (Except String api.Reply) := do
  let client ← get
  check <| Result.ensure (client.calls < maxApiCalls)
    (.invalid s!"review inbox exceeds its {maxApiCalls}-call API budget")
  check <| Result.ensure (client.responseBytes < maxTotalResponseBytes)
    (.invalid s!"review inbox exceeds its {maxTotalResponseBytes}-byte response budget")
  let output ← request (ι := github) api
  set { client with
    calls := client.calls + 1
    responseBytes := client.responseBytes + output.size }
  check <| Result.ensure (client.responseBytes + output.size ≤ maxTotalResponseBytes)
    (.invalid s!"review inbox exceeds its {maxTotalResponseBytes}-byte response budget")
  return output.body

/-- What was decoded of an answer. -/
def decoded {α : Type} (label : String) (body : Except String α) : Result α :=
  body.mapError fun _ => .invalid s!"failed to decode {label}"

def GraphqlEnvelope.payload {α : Type} (label : String) (envelope : GraphqlEnvelope α) :
    Result α :=
  match envelope.errors with
  | some errors => .error (.invalid s!"{label} returned GraphQL errors: {errors}")
  | none => Result.ofOption (.invalid s!"{label} omitted GraphQL data") envelope.data

def rest (endpoint label : String) : Collecting GithubUser := do
  let body ← call (.rest endpoint)
  check (decoded label body)

def graphql (query : Query) (label : String) : Collecting query.Data := do
  let body ← call (.graphql query)
  let envelope ← check (decoded label body)
  check (envelope.payload label)

/-! ## Checks of single values -/

def validateRepository (repository : String) : Result Unit :=
  Result.ensure (validRepository repository) (.invalid "GitHub repository must be OWNER/REPO")

def splitRepository (repository : String) : Result (String × String) := do
  validateRepository repository
  let (owner, name) ← Result.ofOption (.invalid "GitHub repository must be OWNER/REPO")
    (splitOnce '/' repository.toList)
  return (String.ofList owner, String.ofList name)

def validateHost (host : String) : Result Unit :=
  let text := host.toList
  Result.ensure
    (text.head?.any Char.isAlphanum ∧ text.all fun c => c.isAlphanum || c ∈ ['.', '-'])
    (.invalid "GitHub hostname is invalid")

/-- `char::is_control`. -/
def isControl (c : Char) : Bool := c.toNat < 32 || (127 ≤ c.toNat && c.toNat < 160)

def validateProviderActorLogin (login : String) : Result Unit :=
  Result.ensure
    ((1 ≤ login.utf8ByteSize ∧ login.utf8ByteSize ≤ 255) ∧ ¬ login.toList.any isControl)
    (.invalid "provider actor login is invalid")

/-- A node id as the collector takes it; the decision and the events take fewer. -/
def validNodeId (value : String) : Bool :=
  value ≠ "" && value.utf8ByteSize ≤ 256 && value.toList.all fun c => '!' ≤ c && c ≤ '~'

def validTimestamp (value : String) : Bool :=
  let text := value.toList
  let validFraction := text.length = 20 ||
    (22 ≤ text.length && text.length ≤ 30 && text[19]? = some '.' &&
      (slice text 20 (text.length - 1)).all Char.isDigit)
  let separated := text[4]? = some '-' && text[7]? = some '-' && text[10]? = some 'T' &&
    text[13]? = some ':' && text[16]? = some ':' && text.getLast? = some 'Z'
  let digits := (text.take 19).zipIdx.all fun (c, index) =>
    index ∈ [4, 7, 10, 13, 16] || c.isDigit
  let component start stop := Instant.value (slice text start stop)
  let month := component 5 7
  let day := component 8 10
  let hour := component 11 13
  let minute := component 14 16
  let second := component 17 19
  validFraction && separated && digits && (1 ≤ month && month ≤ 12) &&
    (0 < day && day ≤ Instant.monthDays (component 0 4) month) && hour ≤ 23 && minute ≤ 59 &&
      (second ≤ 59 || (second = 60 && hour = 23 && minute = 59))

def databaseId : DatabaseId → Result UInt64
  | .number value => do
      Result.ensure (0 < value) (.invalid "GitHub review database ID is not positive")
      return value
  | .string text => do
      let digits := text.toList
      Result.ensure (digits ≠ [] ∧ digits.head? ≠ some '0' ∧ digits.all Char.isDigit)
        (.invalid "GitHub review database ID is not canonical decimal")
      let value := Instant.value digits
      Result.ensure (value < 2 ^ 64) (.invalid "GitHub review database ID exceeds u64")
      Result.ensure (0 < value) (.invalid "GitHub review database ID is not positive")
      return UInt64.ofNat value

/-! ## Identities -/

structure ActorIdentity where
  login : String
  databaseId : UInt64
  nodeId : String
  deriving DecidableEq, Repr

structure ReviewerIdentity where
  login : String
  databaseId : UInt64
  nodeId : String
  source : String
  deriving DecidableEq, Repr

def validateGithubUser (user : GithubUser) (label : String) : Result Unit := do
  Result.ensure (user.accountType = "User") (.invalid s!"GitHub {label} identity is not a User")
  Result.ensure (0 < user.id) (.invalid s!"GitHub {label} database ID is not positive")
  (InboxEvent.validateLogin user.login).mapError fun _ =>
    .invalid s!"GitHub {label} login is invalid"
  Result.ensure (validNodeId user.nodeId) (.invalid s!"GitHub {label} has an invalid node ID")

def ensureAuthenticatedActor (viewer : GraphqlViewer) (expected : ActorIdentity) : Result Unit := do
  (InboxEvent.validateLogin viewer.login).mapError fun _ =>
    .invalid "GitHub GraphQL viewer login is invalid"
  Result.ensure (validNodeId viewer.id) (.invalid "GitHub GraphQL viewer has an invalid node ID")
  Result.ensure (eqIgnoreAsciiCase viewer.login expected.login ∧ viewer.id = expected.nodeId)
    (.invalid "GitHub authenticated actor changed while collecting the review inbox")

def resolveAuthenticatedActor : Collecting ActorIdentity := do
  let user ← rest "user" "GitHub authenticated actor identity"
  check (validateGithubUser user "authenticated actor")
  return ⟨user.login, user.id, user.nodeId⟩

/-- The reviewer that was asked for; the authenticated actor is not looked up again. -/
def reviewerUser (requested : Option String) (authenticatedActor : ActorIdentity) :
    Collecting GithubUser :=
  let actor : GithubUser :=
    ⟨authenticatedActor.login, authenticatedActor.databaseId, authenticatedActor.nodeId, "User"⟩
  match requested with
  | none => pure actor
  | some login =>
      if eqIgnoreAsciiCase login authenticatedActor.login then pure actor
      else do
        let user ← rest ("users/" ++ login) "GitHub reviewer identity"
        check <| Result.ensure (eqIgnoreAsciiCase user.login login)
          (.invalid "GitHub reviewer identity differs from --reviewer")
        return user

def resolveReviewer (requested : Option String) (authenticatedActor : ActorIdentity) :
    Collecting ReviewerIdentity := do
  if let some login := requested then
    check (InboxEvent.validateLogin login)
  let user ← reviewerUser requested authenticatedActor
  check (validateGithubUser user "reviewer")
  return ⟨user.login, user.id, user.nodeId,
    if requested.isSome then "explicit_reviewer" else "authenticated_viewer"⟩

/-! ## Budgets that are observed -/

def observeRateLimit (rateLimit : RateLimit) : Collecting Unit := do
  check <| Result.ensure (validTimestamp rateLimit.resetAt)
    (.invalid "GitHub rate-limit reset timestamp is invalid")
  check <| Result.ensure (rateLimit.cost ≤ 5000)
    (.invalid "GitHub reported an invalid query cost")
  let client ← get
  set { client with
    minimumRateLimitRemaining := some
      (client.minimumRateLimitRemaining.elim rateLimit.remaining (min · rateLimit.remaining))
    lastRateLimitResetAt := some rateLimit.resetAt }

def observeReviewNodes (count : Nat) : Collecting Unit := do
  let client ← get
  set { client with capturedReviewNodes := client.capturedReviewNodes + count }
  check <| Result.ensure (client.capturedReviewNodes + count ≤ maxCapturedReviewNodes)
    (.invalid s!"review inbox exceeds its {maxCapturedReviewNodes}-node review budget")

end Stratadiff.ReviewInbox
