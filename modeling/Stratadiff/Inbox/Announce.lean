import Stratadiff.Inbox.Reading
import Stratadiff.Inbox.Token

/-!
# Announcements of the review inbox

An item of the inbox is announced from a snapshot whose two readings agree, and its token names
the latest completed review of that snapshot.
-/

namespace Stratadiff.ReviewInbox

open Inbox InboxEvent
open Ledger (toAsciiLowercase)

/-! ## Observed reviews -/

/-- A review and what is decided from. -/
structure ObservedAs (review : ReviewRecord) (node : ReviewObservation) : Prop where
  author : ∃ author id, review.author = some author ∧ author.id = some id ∧
    node.author = ⟨author.accountType, author.login, id⟩
  base : node.checkpointBaseOid = none
  commit : node.commitOid = review.commit
  databaseId : ∃ id, review.fullDatabaseId.mapM databaseId = .ok id ∧
    node.databaseId = id.map UInt64.toNat
  nodeId : node.nodeId = review.id
  state : node.state = review.state
  submittedAt : node.submittedAt = review.submittedAt
  url : node.url = review.url

theorem reviewObservation_eq_ok {review : ReviewRecord} {node : ReviewObservation}
    (observed : reviewObservation review = .ok node) : ObservedAs review node := by
  unfold reviewObservation at observed
  obtain ⟨author, known, observed⟩ := Result.ofOption_bind_eq_ok.mp observed
  obtain ⟨id, named, observed⟩ := Result.ofOption_bind_eq_ok.mp observed
  obtain ⟨number, read, observed⟩ := Result.bind_eq_ok.mp observed
  obtain rfl := Except.ok.inj observed
  exact ⟨⟨author, id, known, named, rfl⟩, rfl, rfl, ⟨number, read, rfl⟩, rfl, rfl, rfl, rfl⟩

section

variable {reviews : List ReviewRecord} {nodes : List ReviewObservation}

theorem observed_ids (observed : reviews.mapM reviewObservation = .ok nodes) :
    nodes.map (·.nodeId) = reviews.map (·.id) := by
  have pairs := Result.mapM_forall₂ observed
  clear observed
  induction pairs with
  | nil => rfl
  | cons here _ ih => rw [List.map_cons, List.map_cons, ih, (reviewObservation_eq_ok here).nodeId]

/-- The review with an id is the only one. -/
theorem find_review (distinct : (reviews.map (·.id)).Nodup) {review : ReviewRecord}
    (member : review ∈ reviews) :
      (reviews.find? fun other => other.id = review.id) = some review := by
  have found : (reviews.find? fun other => other.id = review.id).isSome := by
    rw [List.find?_isSome]
    exact ⟨review, member, by simp⟩
  obtain ⟨other, same⟩ := Option.isSome_iff_exists.mp found
  have id := List.find?_some same
  rw [decide_eq_true_eq] at id
  rw [same, List.inj_on_of_nodup_map distinct (List.mem_of_find?_eq_some same) member id]

end

/-! ## Actionable decisions -/

section

variable {sha256 : Bytes → Bytes} {candidate : CandidateObservation} {host : String}
variable {reviewer : ReviewerObservation} {strict : Bool} {checkpoint : ReviewObservation}

/-- What an actionable decision says, when no base was observed for the checkpoint: the head has
moved. -/
theorem decideCheckpoint_actionable (unobserved : checkpoint.checkpointBaseOid = none)
    (actionable :
      (decideCheckpoint sha256 candidate host reviewer strict checkpoint).status = .actionable) :
    ∃ headOid, candidate.pullRequest.headOid = some headOid ∧
      checkpoint.commitOid.getD "" ≠ headOid ∧
      (decideCheckpoint sha256 candidate host reviewer strict checkpoint).trigger =
        some ("+".intercalate (triggerNames true false candidate.reviewRequestActive)) := by
  unfold decideCheckpoint at actionable ⊢
  dsimp only at actionable ⊢
  cases head : candidate.pullRequest.headOid with
  | none =>
      rw [head] at actionable
      cases actionable
  | some headOid =>
      rw [head] at actionable
      dsimp only at actionable ⊢
      rw [unobserved] at actionable ⊢
      refine ⟨headOid, rfl, ?_⟩
      by_cases many : maxReviews < candidate.pullRequest.totalReviewCount
      · rw [if_pos many] at actionable
        cases actionable
      rw [if_neg many] at actionable ⊢
      by_cases hidden : (strict && candidate.pullRequest.currentBaseOid.isNone) = true
      · rw [if_pos hidden] at actionable
        cases actionable
      rw [if_neg hidden] at actionable ⊢
      by_cases same : checkpoint.commitOid.getD "" = headOid
      · simp [same, Inbox.unobservable] at actionable
      · have moved : (checkpoint.commitOid.getD "" != headOid) = true := bne_iff_ne.mpr same
        have unchanged : baseChanged none candidate.pullRequest.currentBaseOid = false := rfl
        refine ⟨same, ?_⟩
        rw [moved, unchanged]
        cases candidate.reviewRequestActive <;> rfl

end

/-! ## What an item announces -/

/-- What is bound of a review of a snapshot. -/
structure Announces (event : InboxEventEnvelope) (reviewer : ReviewerIdentity)
    (snapshot : CandidateSnapshot) (review : ReviewRecord) : Prop where
  repository : event.repository = snapshot.pullRequest.repository.nameWithOwner
  repositoryNodeId : event.repositoryNodeId = snapshot.pullRequest.repository.id
  pullRequestNumber : event.pullRequestNumber = snapshot.pullRequest.number
  pullRequestNodeId : event.pullRequestNodeId = snapshot.pullRequest.id
  reviewerLogin : event.reviewerLogin = reviewer.login
  reviewerNodeId : event.reviewerNodeId = reviewer.nodeId
  reviewNodeId : event.reviewNodeId = review.id
  reviewDatabaseId : ∃ value, review.fullDatabaseId = some value ∧
    databaseId value = .ok event.reviewDatabaseId
  reviewState : event.reviewState = toAsciiLowercase review.state
  checkpoint : review.commit = some event.checkpointOid
  head : snapshot.pullRequest.headRefOid = some event.headOid
  moved : event.checkpointOid ≠ event.headOid
  checkpointBase : event.checkpointBaseOid = none
  currentBase : event.currentBaseOid = snapshot.pullRequest.baseRefOid
  active : reviewRequestActive snapshot.pullRequest.reviewRequests reviewer =
    .ok event.reviewRequestActive
  triggers : event.triggers =
    .headChanged :: if event.reviewRequestActive then [.reviewReRequested] else []

section

variable {codec : Codec} {hostname : String} {reviewer : ReviewerIdentity}
variable {snapshot : CandidateSnapshot} {candidate : CandidateObservation}
variable {decision : InboxCandidateDecision} {item : ActionableItem}

theorem checkpointState_eq_ok {state text : String} :
    checkpointState state = .ok text ↔
      isCompleted state = true ∧ text = toAsciiLowercase state := by
  have approved : toAsciiLowercase "APPROVED" = "approved" := by decide +kernel
  have requested : toAsciiLowercase "CHANGES_REQUESTED" = "changes_requested" := by decide +kernel
  rw [isCompleted, decide_eq_true_eq, List.mem_pair]
  unfold checkpointState
  by_cases first : state = "APPROVED"
  · rw [if_pos first, first, approved, Except.ok.injEq, @eq_comm _ _ text]
    exact (and_iff_right (.inl rfl)).symm
  · rw [if_neg first]
    by_cases second : state = "CHANGES_REQUESTED"
    · rw [if_pos second, second, requested, Except.ok.injEq, @eq_comm _ _ text]
      exact (and_iff_right (.inr rfl)).symm
    · rw [if_neg second]
      constructor
      · intro failed
        cases failed
      · rintro ⟨same | same, _⟩
        · exact absurd same first
        · exact absurd same second

theorem selectedCheckpoint_eq_ok {reviews : List ReviewRecord} {nodeId : String}
    {checkpoint : GithubReviewCheckpoint} :
    selectedCheckpoint reviews nodeId = .ok checkpoint ↔
      ∃ review author value id commit submittedAt,
        (reviews.find? fun review => review.id = nodeId) = some review ∧
        review.author = some author ∧ isCompleted review.state = true ∧
        review.fullDatabaseId = some value ∧ databaseId value = .ok id ∧
        review.commit = some commit ∧ review.submittedAt = some submittedAt ∧
        checkpoint = ⟨id.toNat, author.login, toAsciiLowercase review.state, commit, submittedAt,
          review.url, review.authorAssociation⟩ := by
  unfold selectedCheckpoint
  simp only [Result.bind_eq_ok, Result.ofOption_eq_ok, checkpointState_eq_ok, Result.pure_eq_ok]
  constructor
  · rintro ⟨review, found, author, known, _, ⟨completed, rfl⟩, value, given, id, read, commit,
      there, submittedAt, time, same⟩
    exact ⟨review, author, value, id, commit, submittedAt, found, known, completed, given, read,
      there, time, same.symm⟩
  · rintro ⟨review, author, value, id, commit, submittedAt, found, known, completed, given, read,
      there, time, rfl⟩
    exact ⟨review, found, author, known, _, ⟨completed, rfl⟩, value, given, id, read, commit, there,
      submittedAt, time, rfl⟩

/-- An item that is announced, and the token it carries. -/
theorem actionableItem_eq_ok
    (announced : actionableItem codec hostname reviewer snapshot candidate decision = .ok item) :
    ∃ nodeId checkpoint headOid trigger triggers event,
      decision.checkpointReviewNodeId = some nodeId ∧
      selectedCheckpoint snapshot.reviews nodeId = .ok checkpoint ∧
      snapshot.pullRequest.headRefOid = some headOid ∧ decision.trigger = some trigger ∧
      eventTriggers trigger = .ok triggers ∧
      InboxEventEnvelope.new codec (eventBinding hostname reviewer snapshot.pullRequest
        candidate.reviewRequestActive nodeId checkpoint headOid triggers) = .ok event ∧
      event.toToken codec = .ok item.inboxEvent ∧ item.eventId = event.eventId := by
  unfold actionableItem at announced
  obtain ⟨nodeId, named, announced⟩ := Result.ofOption_bind_eq_ok.mp announced
  obtain ⟨checkpoint, selected, announced⟩ := Result.bind_eq_ok.mp announced
  obtain ⟨_, announced⟩ := Result.check_bind_eq_ok.mp announced
  obtain ⟨headOid, head, announced⟩ := Result.ofOption_bind_eq_ok.mp announced
  obtain ⟨trigger, given, announced⟩ := Result.ofOption_bind_eq_ok.mp announced
  obtain ⟨triggers, read, announced⟩ := Result.bind_eq_ok.mp announced
  obtain ⟨event, bound, announced⟩ := Result.bind_eq_ok.mp announced
  obtain ⟨token, written, announced⟩ := Result.bind_eq_ok.mp announced
  obtain rfl := Except.ok.inj announced
  exact ⟨nodeId, checkpoint, headOid, trigger, triggers, event, named, selected, head, given, read,
    Result.mapError_eq_ok.mp bound, written, rfl⟩

theorem candidateObservation_eq_ok {revalidated : CandidateSnapshot} {actor : ActorIdentity}
    (observed : candidateObservation snapshot revalidated actor reviewer = .ok candidate) :
    ∃ nodes, snapshot.reviews.mapM reviewObservation = .ok nodes ∧
      candidate.reviewHistory.nodes = nodes ∧
      candidate.revalidation.snapshotMatches = decide (snapshot = revalidated) ∧
      candidate.pullRequest.headOid = snapshot.pullRequest.headRefOid ∧
      candidate.pullRequest.url = snapshot.pullRequest.url ∧
      reviewRequestActive snapshot.pullRequest.reviewRequests reviewer =
        .ok candidate.reviewRequestActive := by
  unfold candidateObservation at observed
  obtain ⟨nodes, read, observed⟩ := Result.bind_eq_ok.mp observed
  obtain ⟨active, requested, observed⟩ := Result.bind_eq_ok.mp observed
  obtain rfl := Except.ok.inj observed
  exact ⟨nodes, read, rfl, rfl, rfl, rfl, requested⟩

/-- A candidate is only decided when both readings of it agree. -/
theorem snapshotMatches_of_decided {sha256 : Bytes → Bytes} {host : String}
    {actor : ActorObservation} {observer : ReviewerObservation}
    {requested : Option RepositoryObservation} {strict : Bool}
    (decided : decideCandidate sha256 candidate host actor observer requested strict =
      .ok decision) : candidate.revalidation.snapshotMatches = true := by
  obtain ⟨valid, _⟩ := decideCandidate_eq_ok.mp decided
  unfold validateCandidate at valid
  obtain ⟨_, valid⟩ := Result.check_bind_eq_ok.mp valid
  have checked : validateRevalidation candidate host actor = .ok () := by
    cases requested with
    | none =>
        obtain ⟨_, valid⟩ := Result.check_bind_eq_ok.mp valid
        exact (Result.check_bind_eq_ok.mp valid).1
    | some repository =>
        obtain ⟨_, valid⟩ := Result.check_bind_eq_ok.mp valid
        obtain ⟨_, valid⟩ := Result.check_bind_eq_ok.mp valid
        exact (Result.check_bind_eq_ok.mp valid).1
  unfold validateRevalidation at checked
  simp only [Result.check_bind_eq_ok, ensure_eq_ok] at checked
  exact checked.2.2.2.2.2.2.2.2

/-- The review that an actionable decision selects. -/
theorem selected_of_actionable {sha256 : Bytes → Bytes} {host : String} {actor : ActorObservation}
    {observer : ReviewerObservation} {requested : Option RepositoryObservation} {strict : Bool}
    {nodes : List ReviewObservation}
    (decided : decideCandidate sha256 candidate host actor observer requested strict = .ok decision)
    (actionable : decision.status = .actionable)
    (observed : snapshot.reviews.mapM reviewObservation = .ok nodes)
    (history : candidate.reviewHistory.nodes = nodes) :
    ∃ review node headOid, review ∈ snapshot.reviews ∧ reviewObservation review = .ok node ∧
      (snapshot.reviews.find? fun other => other.id = review.id) = some review ∧
      Accepted candidate.pullRequest observer node ∧ isCompleted node.state = true ∧
      IsLatest (completedNodes nodes) node.completed ∧
      decision.checkpointReviewNodeId = some review.id ∧
      candidate.pullRequest.headOid = some headOid ∧ node.commitOid.getD "" ≠ headOid ∧
      decision.trigger =
        some ("+".intercalate (triggerNames true false candidate.reviewRequestActive)) := by
  obtain ⟨_, accepted, names, _, made⟩ := decideCandidate_eq_ok.mp decided
  rw [history] at accepted names made
  cases kept : (nodes.filterMap checkpointOf).foldl keep none with
  | none =>
      rw [kept] at made
      rw [made] at actionable
      cases actionable
  | some checkpoint =>
      rw [kept] at made
      obtain ⟨member, found, latest⟩ := isLatest_of_kept accepted kept
      obtain ⟨review, inside, read⟩ := Result.exists_of_mem_mapM observed member
      have same := reviewObservation_eq_ok read
      have named : decision.checkpointReviewNodeId = some review.id := by
        rw [made, decideFrom_checkpoint, Option.map_some, same.nodeId]
      rw [made] at actionable
      obtain ⟨headOid, head, moved, trigger⟩ := decideCheckpoint_actionable same.base actionable
      rw [observed_ids observed] at names
      refine ⟨review, checkpoint.review, headOid, inside, read, find_review names inside,
        accepted _ member, (checkpointOf_eq_some.mp found).1, latest, named, head, moved, ?_⟩
      rw [made]
      exact trigger

/-- An item announces the latest completed review of its snapshot. -/
theorem announced_of_decided {sha256 : Bytes → Bytes} {host : String} {actor : ActorObservation}
    {observer : ReviewerObservation} {requested : Option RepositoryObservation} {strict : Bool}
    {nodes : List ReviewObservation} (lawful : codec.Lawful)
    (decided : decideCandidate sha256 candidate host actor observer requested strict = .ok decision)
    (actionable : decision.status = .actionable)
    (observed : snapshot.reviews.mapM reviewObservation = .ok nodes)
    (history : candidate.reviewHistory.nodes = nodes)
    (head : candidate.pullRequest.headOid = snapshot.pullRequest.headRefOid)
    (active : reviewRequestActive snapshot.pullRequest.reviewRequests reviewer =
      .ok candidate.reviewRequestActive)
    (announced : actionableItem codec hostname reviewer snapshot candidate decision = .ok item) :
    ∃ review node event, review ∈ snapshot.reviews ∧ reviewObservation review = .ok node ∧
      IsLatest (completedNodes nodes) node.completed ∧
      InboxEventEnvelope.fromToken codec item.inboxEvent = .ok event ∧
      event.eventId = item.eventId ∧ event.providerHost = hostname ∧
      Announces event reviewer snapshot review := by
  obtain ⟨review, node, headOid, inside, read, found, _, completed, latest, named, there, moved,
    given⟩ := selected_of_actionable decided actionable observed history
  obtain ⟨nodeId, checkpoint, headOid', trigger, triggers, event, named', selected, head', given',
    listed, bound, written, eventId⟩ := actionableItem_eq_ok announced
  obtain rfl := Option.some.inj (named.symm.trans named')
  obtain rfl := Option.some.inj (given.symm.trans given')
  rw [head, head', Option.some.injEq] at there
  subst there
  rw [eventTriggers_intercalate true false candidate.reviewRequestActive rfl] at listed
  obtain rfl := Except.ok.inj listed
  obtain ⟨review', author, value, id, commit, submittedAt, found', _, _, number, parsed, oid, _,
    rfl⟩ := selectedCheckpoint_eq_ok.mp selected
  obtain rfl := Option.some.inj (found.symm.trans found')
  have same := reviewObservation_eq_ok read
  rw [same.commit, oid, Option.getD_some] at moved
  obtain ⟨_, rfl⟩ := new_eq_ok.mp bound
  refine ⟨review, node, _, inside, read, latest, (tokens_round_trip lawful).2 _ |>.mpr written,
    eventId.symm, rfl, ?_⟩
  exact {
    repository := rfl
    repositoryNodeId := rfl
    pullRequestNumber := rfl
    pullRequestNodeId := rfl
    reviewerLogin := rfl
    reviewerNodeId := rfl
    reviewNodeId := rfl
    reviewDatabaseId := ⟨value, number, by rw [parsed]; exact congrArg _ UInt64.ofNat_toNat.symm⟩
    reviewState := rfl
    checkpoint := oid
    head := head'
    moved := moved
    checkpointBase := rfl
    currentBase := rfl
    active := active
    triggers := rfl }

end

/-- The candidates with a decision, in their order. -/
def withStatus (status : InboxCandidateStatus)
    (entries : List ((CandidateSnapshot × CandidateObservation) × InboxCandidateDecision)) :
    List ((CandidateSnapshot × CandidateObservation) × InboxCandidateDecision) :=
  entries.filter fun entry => entry.2.status = status

/-- There is one item for each actionable and for each unobservable decision. -/
theorem announce_eq_ok {codec : Codec} {hostname : String} {reviewer : ReviewerIdentity}
    {entries : List ((CandidateSnapshot × CandidateObservation) × InboxCandidateDecision)}
    {actionable : List ActionableItem} {unobservable : List UnobservableItem}
    (announced : announce codec hostname reviewer entries = .ok (actionable, unobservable)) :
    (withStatus .actionable entries).mapM (fun entry =>
        actionableItem codec hostname reviewer entry.1.1 entry.1.2 entry.2) = .ok actionable ∧
      (withStatus .unobservable entries).mapM (fun entry =>
        unobservableItem entry.1.1.pullRequest entry.2) = .ok unobservable := by
  induction entries generalizing actionable unobservable with
  | nil =>
      obtain ⟨rfl, rfl⟩ := Prod.mk.inj (Except.ok.inj announced)
      exact ⟨rfl, rfl⟩
  | cons entry entries ih =>
      obtain ⟨⟨snapshot, candidate⟩, decision⟩ := entry
      rw [announce] at announced
      rw [withStatus, withStatus, List.filter_cons, List.filter_cons, ← withStatus, ← withStatus]
      cases status : decision.status with
      | noEligibleReviews | upToDate =>
          rw [status] at announced
          simpa using ih announced
      | unobservable =>
          rw [status] at announced
          obtain ⟨item, made, announced⟩ := Result.bind_eq_ok.mp announced
          obtain ⟨⟨items, others⟩, continued, announced⟩ := Result.bind_eq_ok.mp announced
          obtain ⟨rfl, rfl⟩ := Prod.mk.inj (Except.ok.inj announced)
          obtain ⟨actionables, unobservables⟩ := ih continued
          refine ⟨by simpa using actionables, ?_⟩
          simp only [decide_true, if_true, List.mapM_cons, made, unobservables, Result.ok_bind]
          rfl
      | actionable =>
          rw [status] at announced
          obtain ⟨item, made, announced⟩ := Result.bind_eq_ok.mp announced
          obtain ⟨⟨items, others⟩, continued, announced⟩ := Result.bind_eq_ok.mp announced
          obtain ⟨rfl, rfl⟩ := Prod.mk.inj (Except.ok.inj announced)
          obtain ⟨actionables, unobservables⟩ := ih continued
          refine ⟨?_, by simpa using unobservables⟩
          simp only [decide_true, if_true, List.mapM_cons, made, actionables, Result.ok_bind]
          rfl

end Stratadiff.ReviewInbox
