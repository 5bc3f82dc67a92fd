import Stratadiff.Ledger.Model
import Stratadiff.Lib.Instant

/-!
# Decisions of the review inbox

`inbox_decision.rs`: an observation of pull requests is checked candidate by candidate, the
latest completed review of the reviewer is its checkpoint, and the checkpoint is compared
with the present head and base. Errors are codes. SHA-256 is a parameter.

Lengths are those of the UTF-8 text. The bytes of the checked texts are all ASCII, so they
are looked at character by character.
-/

namespace Stratadiff.Inbox

open Ledger (toAsciiLowercase eqIgnoreAsciiCase)

def maxCandidates : Nat := 100
def maxReviews : Nat := 10000
def transitionDomain : String := "stratadiff-review-inbox-global-transition-v1"

/-! ## Observations -/

structure ProviderObservation where
  host : String
  deriving DecidableEq, Repr

structure ActorObservation where
  login : String
  nodeId : String
  deriving DecidableEq, Repr

structure ReviewerObservation where
  actorType : String
  login : String
  nodeId : String
  deriving DecidableEq, Repr

structure RepositoryObservation where
  nameWithOwner : String
  nodeId : String
  url : String
  deriving DecidableEq, Repr

structure ScopeObservation where
  authenticatedActor : ActorObservation
  requestedRepository : Option RepositoryObservation
  reviewer : ReviewerObservation
  deriving DecidableEq, Repr

structure PullRequestObservation where
  currentBaseOid : Option String
  headOid : Option String
  nodeId : String
  number : Nat
  state : String
  totalReviewCount : Nat
  updatedAt : String
  url : String
  deriving DecidableEq, Repr

structure RevalidationObservation where
  outcome : String
  pullRequestNodeId : String
  repository : RepositoryObservation
  snapshotMatches : Bool
  viewer : ActorObservation
  deriving DecidableEq, Repr

structure ReviewObservation where
  author : ReviewerObservation
  checkpointBaseOid : Option String
  commitOid : Option String
  databaseId : Option Nat
  nodeId : String
  state : String
  submittedAt : Option String
  url : String
  deriving DecidableEq, Repr

structure ReviewHistoryObservation where
  cursorAdvanced : Bool
  nodes : List ReviewObservation
  pagesObserved : Nat
  reportedCount : Nat
  terminalPageObserved : Bool
  deriving DecidableEq, Repr

structure CandidateObservation where
  pullRequest : PullRequestObservation
  repository : RepositoryObservation
  revalidation : RevalidationObservation
  reviewHistory : ReviewHistoryObservation
  reviewRequestActive : Bool
  deriving DecidableEq, Repr

structure SearchObservation where
  candidates : List CandidateObservation
  hasNextPage : Bool
  issueCount : Nat
  limit : Nat
  outcome : String
  viewer : ActorObservation
  deriving DecidableEq, Repr

structure InboxObservation where
  provider : ProviderObservation
  scope : ScopeObservation
  search : SearchObservation
  deriving DecidableEq, Repr

/-! ## Decisions -/

structure InboxDecisionCounts where
  actionable : Nat
  noEligibleReviews : Nat
  unobservable : Nat
  upToDate : Nat
  deriving DecidableEq, Repr

structure InboxDecision where
  checkpointReviewNodeId : Option String
  counts : InboxDecisionCounts
  error : Option String
  reason : Option String
  result : String
  status : Option String
  trigger : Option String
  transitionKey : Option String
  deriving DecidableEq, Repr

inductive InboxCandidateStatus where
  | actionable
  | noEligibleReviews
  | unobservable
  | upToDate
  deriving DecidableEq, Repr

structure InboxCandidateDecision where
  status : InboxCandidateStatus
  checkpointReviewNodeId : Option String
  reason : Option String
  transitionKey : Option String
  trigger : Option String
  deriving DecidableEq, Repr

structure InboxEvaluation where
  decision : InboxDecision
  candidates : List InboxCandidateDecision
  deriving DecidableEq, Repr

abbrev DecisionResult (α : Type) := Except String α

def ensure (condition : Prop) [Decidable condition] (code : String) : DecisionResult Unit :=
  if condition then .ok () else .error code

@[simp] theorem ensure_eq_ok {condition : Prop} [Decidable condition] {code : String} :
    ensure condition code = .ok () ↔ condition := by
  by_cases h : condition <;> simp [ensure, h]

/-! ## Timestamps -/

structure Timestamp where
  components : Instant.Civil
  fraction : List Char
  deriving DecidableEq, Repr

def compareFraction (left right : List Char) : Ordering :=
  Instant.comparePadded (max left.length right.length) left right

def Timestamp.compare (left right : Timestamp) : Ordering :=
  (left.components.compare right.components).then (compareFraction left.fraction right.fraction)

/-- The text before the first separator and the text after it. -/
def splitOnce (separator : Char) : List Char → Option (List Char × List Char)
  | [] => none
  | c :: text =>
      if c = separator then some ([], text)
      else (splitOnce separator text).map fun (before, after) => (c :: before, after)

def slice (text : List Char) (start stop : Nat) : List Char := (text.drop start).take (stop - start)

/-- The text in front of the point, and the digits behind it. -/
def splitFraction (body : List Char) (code : String) : DecisionResult (List Char × List Char) :=
  match splitOnce '.' body with
  | some (base, fraction) => do
      ensure (fraction ≠ []) code
      ensure (Instant.Digits fraction) code
      return (base, fraction)
  | none => pure (body, [])

def parseTimestamp (text code : String) : DecisionResult Timestamp := do
  ensure (text.toList.getLast? = some 'Z') code
  let (base, fraction) ← splitFraction text.toList.dropLast code
  ensure (base.length = 19) code
  ensure
    (base[4]? = some '-' ∧ base[7]? = some '-' ∧ base[10]? = some 'T' ∧ base[13]? = some ':' ∧
      base[16]? = some ':')
    code
  [(0, 4), (5, 7), (8, 10), (11, 13), (14, 16), (17, 19)].forM fun (start, stop) =>
    ensure (Instant.Digits (slice base start stop)) code
  let component start stop := Instant.value (slice base start stop)
  let year := component 0 4
  let month := component 5 7
  let day := component 8 10
  let hour := component 11 13
  let minute := component 14 16
  let second := component 17 19
  ensure (0 < year ∧ 1 ≤ month ∧ month ≤ 12) code
  ensure (1 ≤ day ∧ day ≤ Instant.monthDays year month) code
  ensure (hour < 24 ∧ minute < 60 ∧ second < 60) code
  return ⟨⟨year, month, day, hour, minute, second⟩, fraction⟩

/-! ### What a timestamp writes -/

/-- The digits of a timestamp. -/
structure Parts where
  year : List Char
  month : List Char
  day : List Char
  hour : List Char
  minute : List Char
  second : List Char
  fraction : List Char

namespace Parts

def base (parts : Parts) : List Char :=
  parts.year ++ '-' :: (parts.month ++ '-' :: (parts.day ++ 'T' :: (parts.hour ++ ':' ::
    (parts.minute ++ ':' :: parts.second))))

def text (parts : Parts) : List Char :=
  parts.base ++ if parts.fraction = [] then ['Z'] else '.' :: (parts.fraction ++ ['Z'])

def components (parts : Parts) : Instant.Civil :=
  ⟨Instant.value parts.year, Instant.value parts.month, Instant.value parts.day,
    Instant.value parts.hour, Instant.value parts.minute, Instant.value parts.second⟩

def timestamp (parts : Parts) : Timestamp := ⟨parts.components, parts.fraction⟩

structure Valid (parts : Parts) : Prop where
  year : Instant.Digits parts.year ∧ parts.year.length = 4
  month : Instant.Digits parts.month ∧ parts.month.length = 2
  day : Instant.Digits parts.day ∧ parts.day.length = 2
  hour : Instant.Digits parts.hour ∧ parts.hour.length = 2
  minute : Instant.Digits parts.minute ∧ parts.minute.length = 2
  second : Instant.Digits parts.second ∧ parts.second.length = 2
  fraction : Instant.Digits parts.fraction
  calendar : parts.components.Valid

end Parts

theorem slice_append {text : List Char} {start stop : Nat} (forward : start ≤ stop) :
    slice text start stop ++ text.drop stop = text.drop start := by
  have rest : text.drop stop = (text.drop start).drop (stop - start) := by
    rw [List.drop_drop]
    congr 1
    omega
  rw [slice, rest, List.take_append_drop]

theorem drop_of_getElem? {text : List Char} {i : Nat} {c : Char} (found : text[i]? = some c) :
    text.drop i = c :: text.drop (i + 1) := by
  obtain ⟨inside, rfl⟩ := List.getElem?_eq_some_iff.mp found
  exact List.drop_eq_getElem_cons inside

theorem length_slice {text : List Char} {start stop : Nat} (inside : stop ≤ text.length) :
    (slice text start stop).length = stop - start := by
  rw [slice, List.length_take, List.length_drop]
  omega

theorem splitOnce_eq_some {separator : Char} {text before after : List Char}
    (split : splitOnce separator text = some (before, after)) :
    text = before ++ separator :: after := by
  induction text generalizing before with
  | nil => cases split
  | cons c text ih =>
      unfold splitOnce at split
      split at split
      · rename_i same
        obtain ⟨rfl, rfl⟩ := Prod.mk.inj (Option.some.inj split)
        rw [same]
        rfl
      · obtain ⟨⟨front, back⟩, inner, same⟩ := Option.map_eq_some_iff.mp split
        obtain ⟨rfl, rfl⟩ := Prod.mk.inj same
        rw [ih inner]
        rfl

theorem splitFraction_eq_ok {body base fraction : List Char} {code : String}
    (h : splitFraction body code = .ok (base, fraction)) :
    Instant.Digits fraction ∧
      body = base ++ if fraction = [] then [] else '.' :: fraction := by
  unfold splitFraction at h
  split at h
  · rename_i before after split
    obtain ⟨nonempty, h⟩ := Result.check_bind_eq_ok.mp h
    obtain ⟨digits, h⟩ := Result.check_bind_eq_ok.mp h
    obtain ⟨rfl, rfl⟩ := Prod.mk.inj (Except.ok.inj h)
    rw [ensure_eq_ok] at nonempty digits
    exact ⟨digits, by rw [if_neg nonempty, ← splitOnce_eq_some split]⟩
  · obtain ⟨rfl, rfl⟩ := Prod.mk.inj (Except.ok.inj h)
    exact ⟨by simp [Instant.Digits], by simp⟩

/-- What the parser accepts is written by valid parts. -/
theorem exists_parts {text code : String} {timestamp : Timestamp}
    (h : parseTimestamp text code = .ok timestamp) :
    ∃ parts : Parts, parts.Valid ∧ text.toList = parts.text ∧ timestamp = parts.timestamp := by
  obtain ⟨last, h⟩ := Result.check_bind_eq_ok.mp h
  rw [ensure_eq_ok] at last
  obtain ⟨⟨base, fraction⟩, split, h⟩ := Result.bind_eq_ok.mp h
  obtain ⟨length, h⟩ := Result.check_bind_eq_ok.mp h
  obtain ⟨separators, h⟩ := Result.check_bind_eq_ok.mp h
  obtain ⟨digits, h⟩ := Result.check_bind_eq_ok.mp h
  obtain ⟨months, h⟩ := Result.check_bind_eq_ok.mp h
  obtain ⟨days, h⟩ := Result.check_bind_eq_ok.mp h
  obtain ⟨times, h⟩ := Result.check_bind_eq_ok.mp h
  rw [ensure_eq_ok] at length separators months days times
  simp only [Result.forM_eq_ok, List.forall_mem_cons, ensure_eq_ok] at digits
  obtain ⟨year, month, day, hour, minute, second, -⟩ := digits
  obtain ⟨dash, dash', mark, colon, colon'⟩ := separators
  obtain ⟨fractionDigits, body⟩ := splitFraction_eq_ok split
  have long {start stop : Nat} (inside : stop ≤ 19) :
      (slice base start stop).length = stop - start :=
    length_slice (length ▸ inside)
  let parts : Parts := ⟨slice base 0 4, slice base 5 7, slice base 8 10, slice base 11 13,
    slice base 14 16, slice base 17 19, fraction⟩
  have whole : base = parts.base := by
    have ended : base.drop 19 = [] := List.drop_eq_nil_of_le length.le
    calc base = base.drop 0 := rfl
      _ = parts.base := by
        rw [← slice_append (show 0 ≤ 4 by decide), drop_of_getElem? dash,
          ← slice_append (show 5 ≤ 7 by decide), drop_of_getElem? dash',
          ← slice_append (show 8 ≤ 10 by decide), drop_of_getElem? mark,
          ← slice_append (show 11 ≤ 13 by decide), drop_of_getElem? colon,
          ← slice_append (show 14 ≤ 16 by decide), drop_of_getElem? colon',
          ← slice_append (show 17 ≤ 19 by decide), ended, List.append_nil]
        rfl
  refine ⟨parts, ⟨⟨year, long (by decide)⟩, ⟨month, long (by decide)⟩, ⟨day, long (by decide)⟩,
    ⟨hour, long (by decide)⟩, ⟨minute, long (by decide)⟩, ⟨second, long (by decide)⟩,
    fractionDigits, ⟨months.1, months.2, days, times.1, times.2.1, times.2.2⟩⟩, ?_,
    (Except.ok.inj h).symm⟩
  obtain ⟨front, ends⟩ := List.getLast?_eq_some_iff.mp last
  rw [ends, List.dropLast_concat] at body
  rw [ends, body, whole, Parts.text]
  show (parts.base ++ if fraction = [] then [] else '.' :: fraction) ++ ['Z'] =
    parts.base ++ if fraction = [] then ['Z'] else '.' :: (fraction ++ ['Z'])
  split <;> simp

/-! ## Checks of single texts -/

def validateHost (value code : String) : DecisionResult Unit := do
  let text := value.toList
  ensure (text ≠ []) code
  ensure (text.head?.any Char.isAlphanum) code
  ensure (text.getLast?.any Char.isAlphanum) code
  ensure (text.all fun c => c.isAlphanum || c ∈ ['.', '-']) code

def validateLogin (value code : String) : DecisionResult Unit := do
  let text := value.toList
  ensure (1 ≤ value.utf8ByteSize ∧ value.utf8ByteSize ≤ 255) code
  ensure (text.head?.any Char.isAlphanum) code
  ensure (text.getLast?.any Char.isAlphanum) code
  ensure (text.all fun c => c.isAlphanum || c ∈ ['_', '.', '-']) code

def validateNode (value code : String) : DecisionResult Unit := do
  ensure (1 ≤ value.utf8ByteSize ∧ value.utf8ByteSize ≤ 256) code
  ensure (value.toList.all fun c => c.isAlphanum || c ∈ ['_', ':', '+', '/', '=', '-']) code

def validRepositoryByte (c : Char) : Bool := c.isAlphanum || c ∈ ['_', '.', '-']

def validRepository (value : String) : Bool :=
  match splitOnce '/' value.toList with
  | none => false
  | some (owner, name) =>
      !owner.isEmpty && !name.isEmpty && !name.contains '/' && owner.all validRepositoryByte &&
        name.all validRepositoryByte

def isLowerHex (c : Char) : Bool := c.isDigit || ('a' ≤ c && c ≤ 'f')

def validOid (value : String) : Bool := value.utf8ByteSize = 40 && value.toList.all isLowerHex

def validateOptionalOid (value : Option String) (code : String) : DecisionResult Unit :=
  match value with
  | some value => ensure (validOid value) code
  | none => pure ()

def validateActor (actor : ActorObservation) (code : String) : DecisionResult Unit := do
  validateLogin actor.login code
  validateNode actor.nodeId code

def validateReviewer (reviewer : ReviewerObservation) (code : String) : DecisionResult Unit := do
  ensure (reviewer.actorType = "User") code
  validateLogin reviewer.login code
  validateNode reviewer.nodeId code

def validateRepository (repository : RepositoryObservation) (host code : String) :
    DecisionResult Unit := do
  ensure (validRepository repository.nameWithOwner) code
  validateNode repository.nodeId code
  ensure (repository.url = "https://" ++ host ++ "/" ++ repository.nameWithOwner) code

def sameActor (left right : ActorObservation) : Bool :=
  left.nodeId = right.nodeId && eqIgnoreAsciiCase left.login right.login

def sameReviewer (left right : ReviewerObservation) : Bool :=
  left.nodeId = right.nodeId && eqIgnoreAsciiCase left.login right.login

/-! ## A candidate -/

def validatePullRequest (candidate : CandidateObservation) : DecisionResult Unit := do
  let pullRequest := candidate.pullRequest
  validateNode pullRequest.nodeId "pull_request_identity_invalid"
  ensure (0 < pullRequest.number) "pull_request_identity_invalid"
  ensure (pullRequest.state = "OPEN") "pull_request_not_open"
  ensure (pullRequest.url = candidate.repository.url ++ "/pull/" ++ toString pullRequest.number)
    "provider_url_mismatch"
  discard <| parseTimestamp pullRequest.updatedAt "pull_request_timestamp_invalid"
  validateOptionalOid pullRequest.headOid "head_oid_invalid"
  validateOptionalOid pullRequest.currentBaseOid "current_base_oid_invalid"

def validateRevalidation (candidate : CandidateObservation) (host : String)
    (authenticatedActor : ActorObservation) : DecisionResult Unit := do
  let revalidation := candidate.revalidation
  ensure (revalidation.outcome ∈ ["matched", "forbidden", "not_found"])
    "revalidation_outcome_invalid"
  ensure (revalidation.outcome ≠ "forbidden") "candidate_forbidden"
  ensure (revalidation.outcome ≠ "not_found") "candidate_not_found"
  validateActor revalidation.viewer "authenticated_actor_invalid"
  ensure (sameActor revalidation.viewer authenticatedActor) "authenticated_actor_changed"
  validateRepository revalidation.repository host "provider_url_mismatch"
  ensure (revalidation.repository = candidate.repository) "repository_identity_changed"
  ensure (revalidation.pullRequestNodeId = candidate.pullRequest.nodeId)
    "pull_request_identity_changed"
  ensure revalidation.snapshotMatches "candidate_changed_during_revalidation"

def validateHistory (candidate : CandidateObservation) : DecisionResult Unit := do
  let history := candidate.reviewHistory
  ensure (1 ≤ history.pagesObserved) "review_pagination_invalid"
  ensure history.terminalPageObserved "incomplete_review_pagination"
  if 1 < history.pagesObserved then
    ensure history.cursorAdvanced "review_pagination_cursor_stalled"
  ensure (history.reportedCount = history.nodes.length) "review_history_count_mismatch"
  ensure (history.reportedCount ≤ maxReviews) "reviewer_history_limit_exceeded"
  ensure (history.reportedCount ≤ candidate.pullRequest.totalReviewCount) "review_count_invalid"

/-- The latest completed review so far, with its time and database id. -/
structure Checkpoint where
  submittedAt : Timestamp
  databaseId : Nat
  review : ReviewObservation
  deriving DecidableEq, Repr

/-- What the loop over the reviews has seen. -/
structure Seen where
  reviewNodeIds : List String
  databaseIds : List Nat
  checkpoint : Option Checkpoint
  deriving DecidableEq, Repr

def isCompleted (state : String) : Bool := state ∈ ["APPROVED", "CHANGES_REQUESTED"]

def validateDatabaseId (pullRequest : PullRequestObservation) (databaseIds : List Nat)
    (review : ReviewObservation) : DecisionResult (List Nat) :=
  match review.databaseId with
  | none => pure databaseIds
  | some databaseId => do
      ensure (0 < databaseId) "review_database_id_invalid"
      ensure (databaseId ∉ databaseIds) "duplicate_review_database_id"
      ensure (review.url = pullRequest.url ++ "#pullrequestreview-" ++ toString databaseId)
        "review_url_invalid"
      return databaseId :: databaseIds

/-- Whether a completed review comes after the checkpoint, by time and then by id. -/
def replaces (review : Checkpoint) : Option Checkpoint → Bool
  | none => true
  | some checkpoint =>
      ((review.submittedAt.compare checkpoint.submittedAt).then
        (compare review.databaseId checkpoint.databaseId)) == .gt

def advance (checkpoint : Option Checkpoint) (submittedAt : Option Timestamp)
    (review : ReviewObservation) : DecisionResult (Option Checkpoint) :=
  if isCompleted review.state then
    match review.databaseId with
    | none => .error "completed_review_database_id_missing"
    | some databaseId =>
        match submittedAt with
        | none => .error "completed_review_timestamp_missing"
        | some submittedAt => do
            ensure review.commitOid.isSome "review_commit_invalid"
            let next : Checkpoint := ⟨submittedAt, databaseId, review⟩
            return if replaces next checkpoint then some next else checkpoint
  else
    pure checkpoint

def observeReview (pullRequest : PullRequestObservation) (reviewer : ReviewerObservation)
    (seen : Seen) (review : ReviewObservation) : DecisionResult Seen := do
  validateNode review.nodeId "review_node_invalid"
  ensure (review.nodeId ∉ seen.reviewNodeIds) "duplicate_review_node"
  validateReviewer review.author "reviewer_identity_mismatch"
  ensure (sameReviewer review.author reviewer) "reviewer_identity_mismatch"
  ensure (review.state ∈ ["APPROVED", "CHANGES_REQUESTED", "COMMENTED", "DISMISSED", "PENDING"])
    "review_state_invalid"
  let databaseIds ← validateDatabaseId pullRequest seen.databaseIds review
  validateOptionalOid review.commitOid "review_commit_invalid"
  validateOptionalOid review.checkpointBaseOid "checkpoint_base_oid_invalid"
  let submittedAt ← review.submittedAt.mapM (parseTimestamp · "review_timestamp_invalid")
  let checkpoint ← advance seen.checkpoint submittedAt review
  return ⟨review.nodeId :: seen.reviewNodeIds, databaseIds, checkpoint⟩

def unobservable (checkpoint : ReviewObservation) (reason : String) : InboxCandidateDecision :=
  ⟨.unobservable, some checkpoint.nodeId, some reason, none, none⟩

section

variable (sha256 : Bytes → Bytes)

def transitionKey (host : String) (repository : RepositoryObservation)
    (pullRequest : PullRequestObservation) (reviewer : ReviewerObservation)
    (checkpoint : ReviewObservation) (commitOid headOid : String) (reviewRequestActive : Bool) :
    String :=
  let fields :=
    [transitionDomain, host, repository.nodeId, pullRequest.nodeId, reviewer.nodeId,
      checkpoint.nodeId, commitOid, headOid,
      checkpoint.checkpointBaseOid.getD "<unavailable>",
      pullRequest.currentBaseOid.getD "<unavailable>",
      if reviewRequestActive then "review-requested" else "not-requested"]
  encodeHex (sha256 (fields.flatMap fun field => utf8Bytes field ++ [0]))

/-- The triggers of a transition, in their order. -/
def triggerNames (headChanged baseChanged reviewRequestActive : Bool) : List String :=
  (if headChanged then ["head_changed"] else []) ++ (if baseChanged then ["base_drift"] else []) ++
    if reviewRequestActive then ["review_re_requested"] else []

def baseChanged (checkpointBaseOid currentBaseOid : Option String) : Bool :=
  checkpointBaseOid.isSome && currentBaseOid.isSome && checkpointBaseOid != currentBaseOid

/-- Compare a checkpoint with the present head and base. -/
def decideCheckpoint (candidate : CandidateObservation) (host : String)
    (reviewer : ReviewerObservation) (requireCurrentBaseForAction : Bool)
    (checkpoint : ReviewObservation) : InboxCandidateDecision :=
  let pullRequest := candidate.pullRequest
  match pullRequest.headOid with
  | none => unobservable checkpoint "head_oid_unavailable"
  | some headOid =>
      if maxReviews < pullRequest.totalReviewCount then
        unobservable checkpoint "resume_review_limit_exceeded"
      else if requireCurrentBaseForAction && pullRequest.currentBaseOid.isNone then
        unobservable checkpoint "current_base_oid_unavailable"
      else
        let commitOid := checkpoint.commitOid.getD ""
        let headChanged := commitOid != headOid
        if !headChanged && checkpoint.checkpointBaseOid.isNone then
          unobservable checkpoint "checkpoint_base_oid_unavailable"
        else if !headChanged && pullRequest.currentBaseOid.isNone then
          unobservable checkpoint "current_base_oid_unavailable"
        else
          let triggers := triggerNames headChanged
            (baseChanged checkpoint.checkpointBaseOid pullRequest.currentBaseOid)
            candidate.reviewRequestActive
          if triggers.isEmpty then
            ⟨.upToDate, some checkpoint.nodeId, none, none, none⟩
          else
            ⟨.actionable, some checkpoint.nodeId, none,
              some (transitionKey sha256 host candidate.repository pullRequest reviewer checkpoint
                commitOid headOid candidate.reviewRequestActive),
              some ("+".intercalate triggers)⟩

/-- Everything about a candidate that is checked before its reviews are looked at. -/
def validateCandidate (candidate : CandidateObservation) (host : String)
    (authenticatedActor : ActorObservation) (requestedRepository : Option RepositoryObservation) :
    DecisionResult Unit := do
  validateRepository candidate.repository host "provider_url_mismatch"
  if let some requestedRepository := requestedRepository then
    ensure (candidate.repository = requestedRepository) "repository_identity_changed"
  validatePullRequest candidate
  validateRevalidation candidate host authenticatedActor
  validateHistory candidate

def decideCandidate (candidate : CandidateObservation) (host : String)
    (authenticatedActor : ActorObservation) (reviewer : ReviewerObservation)
    (requestedRepository : Option RepositoryObservation) (requireCurrentBaseForAction : Bool) :
    DecisionResult InboxCandidateDecision := do
  validateCandidate candidate host authenticatedActor requestedRepository
  let seen ← candidate.reviewHistory.nodes.foldlM (observeReview candidate.pullRequest reviewer)
    ⟨[], [], none⟩
  match seen.checkpoint with
  | none => return ⟨.noEligibleReviews, none, none, none, none⟩
  | some checkpoint =>
      return decideCheckpoint sha256 candidate host reviewer requireCurrentBaseForAction
        checkpoint.review

/-! ## An observation -/

def validateScope (observation : InboxObservation) : DecisionResult Unit := do
  let host := observation.provider.host
  validateHost host "provider_identity_invalid"
  ensure (host = toAsciiLowercase host) "provider_identity_invalid"
  validateActor observation.scope.authenticatedActor "authenticated_actor_invalid"
  validateReviewer observation.scope.reviewer "reviewer_identity_invalid"
  if let some repository := observation.scope.requestedRepository then
    validateRepository repository host "provider_url_mismatch"

def validateSearch (observation : InboxObservation) : DecisionResult Unit := do
  let search := observation.search
  ensure (search.outcome ∈ ["ok", "forbidden", "repository_not_found"]) "search_outcome_invalid"
  ensure (search.outcome ≠ "forbidden") "search_forbidden"
  ensure (search.outcome ≠ "repository_not_found") "repository_not_found"
  validateActor search.viewer "authenticated_actor_invalid"
  ensure (sameActor search.viewer observation.scope.authenticatedActor)
    "authenticated_actor_changed"
  ensure (1 ≤ search.limit ∧ search.limit ≤ maxCandidates) "search_limit_invalid"
  ensure (search.candidates.length ≤ search.limit) "search_limit_exceeded"
  ensure (search.candidates.length ≤ search.issueCount) "search_count_invalid"
  ensure (search.hasNextPage = decide (search.candidates.length < search.issueCount))
    "search_pagination_inconsistent"

/-- Decide the candidates in turn; no pull request may come twice. -/
def decideCandidates (observation : InboxObservation) (requireCurrentBaseForAction : Bool) :
    List String → List CandidateObservation → DecisionResult (List InboxCandidateDecision)
  | _, [] => pure []
  | pullRequestIds, candidate :: candidates => do
      let result ← decideCandidate sha256 candidate observation.provider.host
        observation.scope.authenticatedActor observation.scope.reviewer
        observation.scope.requestedRepository requireCurrentBaseForAction
      ensure (candidate.pullRequest.nodeId ∉ pullRequestIds) "duplicate_pull_request_node"
      let results ← decideCandidates observation requireCurrentBaseForAction
        (candidate.pullRequest.nodeId :: pullRequestIds) candidates
      return result :: results

def exactlyOne : List String → Option String
  | [value] => some value
  | _ => none

def decisionCounts (candidates : List InboxCandidateDecision) : InboxDecisionCounts :=
  let count status := candidates.countP fun decision => decision.status = status
  ⟨count .actionable, count .noEligibleReviews, count .unobservable, count .upToDate⟩

def decisionStatus (hasNextPage : Bool) (counts : InboxDecisionCounts) : String :=
  if hasNextPage then "partial"
  else if 0 < counts.actionable then "actionable"
  else if 0 < counts.unobservable then "insufficient_evidence"
  else if 0 < counts.upToDate then "up_to_date"
  else "no_eligible_reviews"

def InboxDecision.ofCandidates (hasNextPage : Bool) (candidates : List InboxCandidateDecision) :
    InboxDecision :=
  let counts := decisionCounts candidates
  ⟨exactlyOne (candidates.filterMap (·.checkpointReviewNodeId)), counts, none,
    exactlyOne (candidates.filterMap (·.reason)), "success",
    some (decisionStatus hasNextPage counts), exactlyOne (candidates.filterMap (·.trigger)),
    exactlyOne (candidates.filterMap (·.transitionKey))⟩

def InboxDecision.ofError (code : String) : InboxDecision :=
  ⟨none, ⟨0, 0, 0, 0⟩, some code, none, "error", none, none, none⟩

def evaluate (observation : InboxObservation) (requireCurrentBaseForAction : Bool) :
    DecisionResult InboxEvaluation := do
  validateScope observation
  validateSearch observation
  let candidates ← decideCandidates sha256 observation requireCurrentBaseForAction []
    observation.search.candidates
  return ⟨.ofCandidates observation.search.hasNextPage candidates, candidates⟩

def evaluateWithPolicy (observation : InboxObservation) (requireCurrentBaseForAction : Bool) :
    InboxEvaluation :=
  match evaluate sha256 observation requireCurrentBaseForAction with
  | .ok evaluation => evaluation
  | .error code => ⟨.ofError code, []⟩

end

/-! ## The loop over the reviews -/

section

variable {pullRequest : PullRequestObservation} {reviewer : ReviewerObservation}
variable {review : ReviewObservation} {nodes : List ReviewObservation} {seen seen' : Seen}

/-- A completed review with its time. -/
def asCheckpoint (submittedAt : Option Timestamp) (review : ReviewObservation) :
    Option Checkpoint :=
  if isCompleted review.state then
    submittedAt.bind fun submittedAt => review.databaseId.map fun databaseId =>
      ⟨submittedAt, databaseId, review⟩
  else
    none

/-- What a review is as a checkpoint. -/
def checkpointOf (review : ReviewObservation) : Option Checkpoint :=
  asCheckpoint
    (review.submittedAt.bind fun text => (parseTimestamp text "review_timestamp_invalid").toOption)
    review

/-- What is checked of each review by itself. -/
structure Accepted (pullRequest : PullRequestObservation) (reviewer : ReviewerObservation)
    (review : ReviewObservation) : Prop where
  node : validateNode review.nodeId "review_node_invalid" = .ok ()
  author : validateReviewer review.author "reviewer_identity_mismatch" = .ok ()
  same : sameReviewer review.author reviewer = true
  state : review.state ∈ ["APPROVED", "CHANGES_REQUESTED", "COMMENTED", "DISMISSED", "PENDING"]
  databaseId : ∀ id, review.databaseId = some id →
    0 < id ∧ review.url = pullRequest.url ++ "#pullrequestreview-" ++ toString id
  commit : validateOptionalOid review.commitOid "review_commit_invalid" = .ok ()
  base : validateOptionalOid review.checkpointBaseOid "checkpoint_base_oid_invalid" = .ok ()
  submitted : ∀ text, review.submittedAt = some text →
    ∃ timestamp, parseTimestamp text "review_timestamp_invalid" = .ok timestamp
  completed : isCompleted review.state = true →
    review.databaseId.isSome ∧ review.submittedAt.isSome ∧ review.commitOid.isSome

/-- Take a review as the checkpoint when it comes later. -/
def keep (checkpoint : Option Checkpoint) (next : Checkpoint) : Option Checkpoint :=
  if replaces next checkpoint then some next else checkpoint

theorem validateDatabaseId_eq_ok {databaseIds ids : List Nat} :
    validateDatabaseId pullRequest databaseIds review = .ok ids ↔
      (∀ id, review.databaseId = some id →
        0 < id ∧ review.url = pullRequest.url ++ "#pullrequestreview-" ++ toString id) ∧
      (∀ id ∈ review.databaseId, id ∉ databaseIds) ∧
      ids = review.databaseId.toList ++ databaseIds := by
  unfold validateDatabaseId
  cases review.databaseId with
  | none => simp [pure, Except.pure, eq_comm]
  | some id =>
      simp only [Result.check_bind_eq_ok, ensure_eq_ok, Result.pure_eq_ok, Option.some.injEq,
        forall_eq', Option.mem_def, Option.toList_some, List.singleton_append, and_assoc]
      constructor
      · rintro ⟨positive, fresh, url, rfl⟩
        exact ⟨positive, url, fresh, rfl⟩
      · rintro ⟨positive, url, fresh, rfl⟩
        exact ⟨positive, fresh, url, rfl⟩

theorem advance_eq_ok {checkpoint next : Option Checkpoint} {submittedAt : Option Timestamp} :
    advance checkpoint submittedAt review = .ok next ↔
      (isCompleted review.state = true →
        review.databaseId.isSome ∧ submittedAt.isSome ∧ review.commitOid.isSome) ∧
      next = (asCheckpoint submittedAt review).elim checkpoint (keep checkpoint) := by
  unfold advance asCheckpoint
  by_cases completed : isCompleted review.state = true
  · simp only [completed, if_true, forall_const]
    cases review.databaseId with
    | none => simp
    | some id =>
        cases submittedAt with
        | none => simp
        | some timestamp =>
            rw [Result.check_bind_eq_ok, ensure_eq_ok, Result.pure_eq_ok, @eq_comm _ _ next]
            simp [keep]
  · simp [completed, pure, Except.pure, @eq_comm _ next]

theorem mapM_parse {text : Option String} {code : String} {submittedAt : Option Timestamp} :
    text.mapM (parseTimestamp · code) = .ok submittedAt ↔
      (∀ t, text = some t → ∃ timestamp, parseTimestamp t code = .ok timestamp) ∧
      submittedAt = text.bind fun t => (parseTimestamp t code).toOption := by
  cases text with
  | none => simp [pure, Except.pure, eq_comm]
  | some t =>
      cases parsed : parseTimestamp t code with
      | error e => simp [parsed]
      | ok timestamp => simp [parsed, Except.toOption, eq_comm]

/-- One round of the loop. -/
theorem observeReview_eq_ok :
    observeReview pullRequest reviewer seen review = .ok seen' ↔
      Accepted pullRequest reviewer review ∧ review.nodeId ∉ seen.reviewNodeIds ∧
      (∀ id ∈ review.databaseId, id ∉ seen.databaseIds) ∧
      seen' = ⟨review.nodeId :: seen.reviewNodeIds, review.databaseId.toList ++ seen.databaseIds,
        (checkpointOf review).elim seen.checkpoint (keep seen.checkpoint)⟩ := by
  unfold observeReview
  constructor
  · intro h
    obtain ⟨node, h⟩ := Result.check_bind_eq_ok.mp h
    obtain ⟨fresh, h⟩ := Result.check_bind_eq_ok.mp h
    obtain ⟨author, h⟩ := Result.check_bind_eq_ok.mp h
    obtain ⟨same, h⟩ := Result.check_bind_eq_ok.mp h
    obtain ⟨state, h⟩ := Result.check_bind_eq_ok.mp h
    obtain ⟨ids, databaseId, h⟩ := Result.bind_eq_ok.mp h
    obtain ⟨commit, h⟩ := Result.check_bind_eq_ok.mp h
    obtain ⟨base, h⟩ := Result.check_bind_eq_ok.mp h
    obtain ⟨submittedAt, parsed, h⟩ := Result.bind_eq_ok.mp h
    obtain ⟨next, advanced, h⟩ := Result.bind_eq_ok.mp h
    obtain ⟨valid, freshId, rfl⟩ := validateDatabaseId_eq_ok.mp databaseId
    obtain ⟨submitted, rfl⟩ := mapM_parse.mp parsed
    obtain ⟨completed, rfl⟩ := advance_eq_ok.mp advanced
    rw [ensure_eq_ok] at fresh same state
    refine ⟨⟨node, author, same, state, valid, commit, base, submitted, fun done => ?_⟩, fresh,
      freshId, (Except.ok.inj h).symm⟩
    obtain ⟨id, time, oid⟩ := completed done
    exact ⟨id, Option.isSome_of_isSome_bind time, oid⟩
  · rintro ⟨accepted, fresh, freshId, rfl⟩
    have ids := validateDatabaseId_eq_ok.mpr ⟨accepted.databaseId, freshId, rfl⟩
    have parsed : review.submittedAt.mapM (parseTimestamp · "review_timestamp_invalid") = .ok _ :=
      mapM_parse.mpr ⟨accepted.submitted, rfl⟩
    have advanced : advance seen.checkpoint (review.submittedAt.bind fun text =>
        (parseTimestamp text "review_timestamp_invalid").toOption) review =
          .ok ((checkpointOf review).elim seen.checkpoint (keep seen.checkpoint)) := by
      refine advance_eq_ok.mpr ⟨fun done => ?_, rfl⟩
      obtain ⟨id, time, oid⟩ := accepted.completed done
      obtain ⟨text, given⟩ := Option.isSome_iff_exists.mp time
      obtain ⟨timestamp, read⟩ := accepted.submitted text given
      exact ⟨id, by simp [given, read, Except.toOption], oid⟩
    simp only [accepted.node, ensure_eq_ok.mpr fresh, accepted.author,
      ensure_eq_ok.mpr accepted.same, ensure_eq_ok.mpr accepted.state, ids, accepted.commit,
      accepted.base, parsed, advanced, Result.ok_bind]
    rfl

/-- The whole loop: each review is accepted, no id occurs twice, and the checkpoint is what is
kept of the completed reviews. -/
theorem observeReviews_eq_ok :
    nodes.foldlM (observeReview pullRequest reviewer) seen = .ok seen' ↔
      (∀ review ∈ nodes, Accepted pullRequest reviewer review) ∧
      (nodes.map (·.nodeId)).Nodup ∧ (∀ id ∈ nodes.map (·.nodeId), id ∉ seen.reviewNodeIds) ∧
      (nodes.filterMap (·.databaseId)).Nodup ∧
      (∀ id ∈ nodes.filterMap (·.databaseId), id ∉ seen.databaseIds) ∧
      seen' = ⟨(nodes.map (·.nodeId)).reverse ++ seen.reviewNodeIds,
        (nodes.filterMap (·.databaseId)).reverse ++ seen.databaseIds,
        (nodes.filterMap checkpointOf).foldl keep seen.checkpoint⟩ := by
  induction nodes generalizing seen with
  | nil => simp [pure, Except.pure, eq_comm]
  | cons review nodes ih =>
      have kept (checkpoint : Option Checkpoint) :
          ((review :: nodes).filterMap checkpointOf).foldl keep checkpoint =
            (nodes.filterMap checkpointOf).foldl keep
              ((checkpointOf review).elim checkpoint (keep checkpoint)) := by
        cases found : checkpointOf review with
        | none => rw [List.filterMap_cons_none found, Option.elim_none]
        | some next => rw [List.filterMap_cons_some found, List.foldl_cons, Option.elim_some]
      simp only [List.foldlM_cons, Result.bind_eq_ok, observeReview_eq_ok, ih, kept, List.map_cons,
        List.nodup_cons, List.forall_mem_cons]
      cases found : review.databaseId with
      | none =>
          simp only [List.filterMap_cons_none found]
          constructor
          · rintro ⟨_, ⟨accepted, fresh, _, rfl⟩, all, nodup, apart, ids, idsApart, rfl⟩
            exact ⟨⟨accepted, all⟩, ⟨fun member => List.ne_of_not_mem_cons (apart _ member) rfl,
              nodup⟩, ⟨fresh, fun id member => List.not_mem_of_not_mem_cons (apart id member)⟩, ids,
              idsApart, by simp⟩
          · rintro ⟨⟨accepted, all⟩, ⟨own, nodup⟩, ⟨fresh, apart⟩, ids, idsApart, rfl⟩
            exact ⟨_, ⟨accepted, fresh, by simp, rfl⟩, all, nodup, fun id member =>
              List.not_mem_cons_of_ne_of_not_mem (fun same => own (same ▸ member))
              (apart id member), ids, idsApart, by simp⟩
      | some number =>
          simp only [List.filterMap_cons_some found, List.nodup_cons, List.forall_mem_cons,
            Option.toList_some]
          constructor
          · rintro ⟨_, ⟨accepted, fresh, freshId, rfl⟩, all, nodup, apart, ids, idsApart, rfl⟩
            exact ⟨⟨accepted, all⟩, ⟨fun member => List.ne_of_not_mem_cons (apart _ member) rfl,
              nodup⟩, ⟨fresh, fun id member => List.not_mem_of_not_mem_cons (apart id member)⟩,
              ⟨fun member => List.ne_of_not_mem_cons (idsApart _ member) rfl, ids⟩,
              ⟨freshId _ rfl, fun id member => List.not_mem_of_not_mem_cons (idsApart id member)⟩,
              by simp⟩
          · rintro ⟨⟨accepted, all⟩, ⟨own, nodup⟩, ⟨fresh, apart⟩, ⟨ownId, ids⟩,
              ⟨freshId, idsApart⟩, rfl⟩
            exact ⟨_, ⟨accepted, fresh, by simpa using freshId, rfl⟩, all, nodup, fun id member =>
              List.not_mem_cons_of_ne_of_not_mem (fun same => own (same ▸ member))
              (apart id member), ids, fun id member => List.not_mem_cons_of_ne_of_not_mem
                (fun same => ownId (same ▸ member)) (idsApart id member), by simp⟩

end

/-! ## The loop over the candidates -/

section

variable {sha256 : Bytes → Bytes} {observation : InboxObservation} {strict : Bool}

/-- Every decision is that of its candidate. -/
theorem decideCandidates_forall₂ {pullRequestIds : List String}
    {candidates : List CandidateObservation} {decisions : List InboxCandidateDecision}
    (h : decideCandidates sha256 observation strict pullRequestIds candidates = .ok decisions) :
    List.Forall₂ (fun candidate decision =>
      decideCandidate sha256 candidate observation.provider.host
        observation.scope.authenticatedActor observation.scope.reviewer
        observation.scope.requestedRepository strict = .ok decision) candidates decisions := by
  induction candidates generalizing pullRequestIds decisions with
  | nil =>
      obtain rfl := Except.ok.inj h
      exact .nil
  | cons candidate candidates ih =>
      obtain ⟨decision, decided, h⟩ := Result.bind_eq_ok.mp h
      obtain ⟨_, h⟩ := Result.check_bind_eq_ok.mp h
      obtain ⟨others, rest, h⟩ := Result.bind_eq_ok.mp h
      obtain rfl := Except.ok.inj h
      exact .cons decided (ih rest)

/-- A decision for a candidate comes from an observation of a valid scope. -/
theorem decided_of_evaluated {candidate : CandidateObservation} {decision : InboxCandidateDecision}
    (member : (candidate, decision) ∈
      observation.search.candidates.zip (evaluateWithPolicy sha256 observation strict).candidates) :
    validateScope observation = .ok () ∧
      decideCandidate sha256 candidate observation.provider.host
        observation.scope.authenticatedActor observation.scope.reviewer
        observation.scope.requestedRepository strict = .ok decision := by
  unfold evaluateWithPolicy at member
  split at member
  · rename_i evaluation h
    obtain ⟨scope, h⟩ := Result.check_bind_eq_ok.mp h
    obtain ⟨_, h⟩ := Result.check_bind_eq_ok.mp h
    obtain ⟨candidates, decided, h⟩ := Result.bind_eq_ok.mp h
    obtain rfl := Except.ok.inj h
    exact ⟨scope, (List.forall₂_iff_zip.mp (decideCandidates_forall₂ decided)).2 member⟩
  · simp at member

end

end Stratadiff.Inbox
