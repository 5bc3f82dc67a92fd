import Stratadiff.Inbox.Deliverable

/-!
# Runs of the review inbox

A run of the command is two readings of what GitHub answers and the inbox made of them. Whatever
it announces was read twice; and after the readings only the decision itself can fail.
-/

namespace Stratadiff.ReviewInbox

open Inbox InboxEvent
open Program (Exchange)
open Session (check)

section

variable {codec : Codec} {client client' : GhClient} {calls : List (Exchange github)}
variable {actor : ActorIdentity} {reviewer : ReviewerIdentity} {inbox : ReviewInbox}

/-- The inbox of some decisions: one item for each that is actionable and one for each that is
unobservable, no others, and the counts of the decision core. -/
structure Delivers (codec : Codec) (hostname : String) (reviewer : ReviewerIdentity)
    (candidates : List (CandidateSnapshot × CandidateObservation)) (evaluation : InboxEvaluation)
    (inbox : ReviewInbox) : Prop where
  decided : evaluation.candidates.length = candidates.length
  actionable : ∃ items,
    (withStatus .actionable (candidates.zip evaluation.candidates)).mapM (fun entry =>
      actionableItem codec hostname reviewer entry.1.1 entry.1.2 entry.2) = .ok items ∧
    inbox.actionable.Perm items
  unobservable : ∃ items,
    (withStatus .unobservable (candidates.zip evaluation.candidates)).mapM (fun entry =>
      unobservableItem entry.1.1.pullRequest entry.2) = .ok items ∧
    inbox.unobservable.Perm items
  items : inbox.actionable.length = evaluation.decision.counts.actionable ∧
    inbox.unobservable.length = evaluation.decision.counts.unobservable
  resumeAvailable : inbox.summary.resumeAvailablePrs = evaluation.decision.counts.actionable
  upToDate : inbox.summary.upToDatePrs = evaluation.decision.counts.upToDate
  unobservablePrs : inbox.summary.unobservableReviewPrs = evaluation.decision.counts.unobservable
  noCompleted : inbox.summary.noCompletedReviewPrs = evaluation.decision.counts.noEligibleReviews
  completed : inbox.summary.completedReviewPrs = evaluation.decision.counts.actionable +
    evaluation.decision.counts.upToDate + evaluation.decision.counts.unobservable

/-- What an inbox is made of, when it is made. -/
theorem materialize_eq_ok {scopedRepository : Option RepositoryRecord} {limit : Nat}
    {search : SearchConnection} {candidates : List (CandidateSnapshot × CandidateObservation)}
    (made : materialize codec client actor reviewer scopedRepository limit search candidates =
      .ok inbox) :
    Delivers codec client.hostname reviewer candidates (evaluateWithPolicy codec.sha256
        (inboxObservation client.hostname actor reviewer scopedRepository limit search
          (candidates.map (·.2))) true) inbox ∧
      inbox.scope.reviewer = reviewer ∧
      inbox.scope.providerUrl = "https://" ++ client.hostname := by
  unfold materialize at made
  dsimp only at made
  obtain ⟨_, made⟩ := Result.check_bind_eq_ok.mp made
  obtain ⟨decided, made⟩ := Result.check_bind_eq_ok.mp made
  obtain ⟨⟨actionable, unobservable⟩, announced, made⟩ := Result.bind_eq_ok.mp made
  obtain ⟨_, _, made⟩ := Result.bind_eq_ok.mp made
  obtain ⟨agrees, made⟩ := Result.check_bind_eq_ok.mp made
  obtain rfl := Except.ok.inj made
  obtain ⟨actionables, unobservables⟩ := announce_eq_ok announced
  rw [Result.ensure_eq_ok] at decided agrees
  refine ⟨?_, rfl, rfl⟩
  exact {
    decided
    actionable := ⟨actionable, actionables, List.mergeSort_perm _ _⟩
    unobservable := ⟨unobservable, unobservables, List.mergeSort_perm _ _⟩
    items := ⟨(List.mergeSort_perm _ _).length_eq.trans agrees.1,
      (List.mergeSort_perm _ _).length_eq.trans agrees.2⟩
    resumeAvailable := rfl
    upToDate := rfl
    unobservablePrs := rfl
    noCompleted := rfl
    completed := rfl }

/-- An item is that of an actionable decision. -/
theorem Delivers.entry {hostname : String} {evaluation : InboxEvaluation}
    {candidates : List (CandidateSnapshot × CandidateObservation)} {item : ActionableItem}
    (delivers : Delivers codec hostname reviewer candidates evaluation inbox)
    (listed : item ∈ inbox.actionable) :
    ∃ entry ∈ candidates.zip evaluation.candidates, entry.2.status = .actionable ∧
      actionableItem codec hostname reviewer entry.1.1 entry.1.2 entry.2 = .ok item := by
  obtain ⟨items, made, perm⟩ := delivers.actionable
  obtain ⟨entry, kept, made⟩ := Result.exists_of_mem_mapM made (perm.mem_iff.mp listed)
  obtain ⟨member, status⟩ := List.mem_filter.mp kept
  exact ⟨entry, member, of_decide_eq_true status, made⟩

/-- An announced item comes from two readings that agree, one among the first calls and one among
the second, and its token names the latest completed review that was read. -/
structure Announced (codec : Codec) (first second : List (Exchange github)) (inbox : ReviewInbox)
    (item : ActionableItem) : Prop where
  announced : ∃ snapshot nodes review node event,
    FirstReading first inbox.scope.reviewer snapshot ∧
    SecondReading second inbox.scope.reviewer snapshot ∧
    snapshot.reviews.mapM reviewObservation = .ok nodes ∧ review ∈ snapshot.reviews ∧
    reviewObservation review = .ok node ∧ IsLatest (completedNodes nodes) node.completed ∧
    InboxEventEnvelope.fromToken codec item.inboxEvent = .ok event ∧
    event.eventId = item.eventId ∧ inbox.scope.providerUrl = "https://" ++ event.providerHost ∧
    Announces event inbox.scope.reviewer snapshot review

theorem collectInbox_returns (lawful : codec.Lawful) {repository : Option String} {limit : Nat}
    (returned : (collectInbox codec actor reviewer repository limit).Returns client calls inbox
      client') :
    ∃ first second, calls = first ++ second ∧
      ∀ item ∈ inbox.actionable, Announced codec first second inbox item := by
  rw [collectInbox, Session.returns_bind] at returned
  obtain ⟨scopedRepository, _, scoping, _, rfl, resolved, returned⟩ := returned
  rw [Session.returns_bind] at returned
  obtain ⟨search, _, searching, _, rfl, asked, returned⟩ := returned
  rw [Session.returns_bind] at returned
  obtain ⟨initial, _, first, _, rfl, completed, returned⟩ := returned
  rw [Session.returns_bind] at returned
  obtain ⟨candidates, between, second, _, rfl, revalidated, returned⟩ := returned
  rw [Session.returns_get_bind] at returned
  obtain ⟨made, rfl, rfl⟩ := Session.returns_check.mp returned
  obtain ⟨⟨searchQuery, data, answered, offered⟩, _⟩ := searchPullRequests_returns asked
  obtain ⟨nodes, complete, _⟩ := completeSnapshots_returns completed
  obtain ⟨same, again, _⟩ := revalidateSnapshots_returns revalidated
  obtain ⟨delivers, scope, host⟩ := materialize_eq_ok made
  refine ⟨scoping ++ searching ++ first, second, ?_, ?_⟩
  · simp only [List.append_assoc, List.append_nil]
  intro item listed
  obtain ⟨⟨⟨snapshot, candidate⟩, decision⟩, entry, status, item'⟩ := delivers.entry listed
  have pair : (snapshot, candidate) ∈ candidates := (List.of_mem_zip entry).1
  have member : snapshot ∈ initial := same ▸ List.mem_map_of_mem (f := (·.1)) pair
  obtain ⟨observed, observation, reading⟩ := again _ pair
  obtain ⟨nodes', read, history, matched, head, _, active⟩ := candidateObservation_eq_ok observation
  let observation := inboxObservation client'.hostname actor reviewer scopedRepository limit search
    (candidates.map (·.2))
  have zipped : (candidate, decision) ∈ observation.search.candidates.zip
      (evaluateWithPolicy codec.sha256 observation true).candidates := by
    show (candidate, decision) ∈ (candidates.map (·.2)).zip
      (evaluateWithPolicy codec.sha256 observation true).candidates
    rw [List.zip_map_left, List.mem_map]
    exact ⟨_, entry, rfl⟩
  obtain ⟨_, decided⟩ := decided_of_evaluated zipped
  have agree := snapshotMatches_of_decided decided
  rw [matched, decide_eq_true_eq] at agree
  subst agree
  obtain ⟨review, node, event, inside, own, latest, token, eventId, provider, binds⟩ :=
    announced_of_decided lawful decided status read history head active item'
  refine ⟨⟨snapshot, nodes', review, node, event, ?_, ?_, read, inside, own, latest, token,
    eventId, ?_, ?_⟩⟩
  · rw [scope]
    refine ⟨⟨searchQuery, limit, data, answered.mono ?_, ?_⟩, (complete _ member).mono ?_⟩
    · exact fun exchange there => List.mem_append_left _ (List.mem_append_right _ there)
    · rw [offered, nodes]
      exact List.mem_map_of_mem member
    · exact List.subset_append_right _ _
  · rw [scope]
    exact reading rfl
  · rw [host, provider]
  · rw [scope]
    exact binds

/-! ## From the readings to the inbox -/

/-- A call within the budgets is answered. -/
theorem returns_call {api : Api} {size : Nat} {body : Except String api.Reply}
    (calls : client.calls < maxApiCalls)
    (room : client.responseBytes + size < maxTotalResponseBytes) :
    (call api).Returns client [⟨api, .ok ⟨size, body⟩⟩] body
      { client with calls := client.calls + 1, responseBytes := client.responseBytes + size } := by
  rw [call, Session.returns_get_bind, Session.returns_ensure_bind, Session.returns_ensure_bind,
    Session.returns_bind]
  refine ⟨calls, by omega, ⟨size, body⟩, client, [⟨api, .ok ⟨size, body⟩⟩], [], rfl, ?_, ?_⟩
  · exact Session.returns_request.mpr ⟨rfl, rfl⟩
  · rw [Session.returns_set_bind, Session.returns_ensure_bind]
    exact ⟨room.le, Session.returns_pure.mpr ⟨rfl, rfl, rfl⟩⟩

/-- Data that is answered without errors is returned. -/
theorem returns_graphql {query : Query} {label : String} {size : Nat} {data : query.Data}
    (calls : client.calls < maxApiCalls)
    (room : client.responseBytes + size < maxTotalResponseBytes) :
    (graphql query label).Returns client
      [(⟨.graphql query, .ok ⟨size, .ok ⟨some data, none⟩⟩⟩ : Exchange github)] data
      { client with calls := client.calls + 1, responseBytes := client.responseBytes + size } := by
  rw [graphql, Session.returns_bind]
  refine ⟨_, _, _, [], rfl, returns_call calls room, ?_⟩
  rw [Session.returns_check_bind]
  exact ⟨_, rfl, Session.returns_check.mpr ⟨rfl, rfl, rfl⟩⟩

theorem returns_observeRateLimit {rateLimit : RateLimit}
    (time : validTimestamp rateLimit.resetAt = true) (cost : rateLimit.cost ≤ 5000) :
    (observeRateLimit rateLimit).Returns client [] () { client with
      minimumRateLimitRemaining := some
        (client.minimumRateLimitRemaining.elim rateLimit.remaining (min · rateLimit.remaining))
      lastRateLimitResetAt := some rateLimit.resetAt } := by
  rw [observeRateLimit, Session.returns_ensure_bind, Session.returns_ensure_bind,
    Session.returns_get_bind]
  exact ⟨time, cost, Session.returns_set.mpr ⟨rfl, rfl⟩⟩

theorem returns_observeReviewNodes {count : Nat}
    (within : client.capturedReviewNodes + count ≤ maxCapturedReviewNodes) :
    (observeReviewNodes count).Returns client [] ()
      { client with capturedReviewNodes := client.capturedReviewNodes + count } := by
  rw [observeReviewNodes, Session.returns_get_bind, Session.returns_set_bind,
    Session.returns_check]
  exact ⟨Result.ensure_of within, rfl, rfl⟩

section

variable {client₁ client₂ client₃ client₄ : GhClient} {repository : Option String} {limit : Nat}
variable {scoping searching first second : List (Exchange github)} {search : SearchConnection}
variable {scopedRepository : Option RepositoryRecord} {initial : List CandidateSnapshot}
variable {candidates : List (CandidateSnapshot × CandidateObservation)}

/-- The stages of the collection, one after the other. -/
theorem returns_collectInbox
    (resolved : (resolveRepositoryScope actor repository).Returns client scoping scopedRepository
      client₁)
    (asked : (searchPullRequests actor reviewer (scopedRepository.map (·.nameWithOwner))
      limit).Returns client₁ searching search client₂)
    (completed : (completeSnapshots scopedRepository actor reviewer 1 [] search.nodes).Returns
      client₂ first initial client₃)
    (revalidated : (revalidateSnapshots actor reviewer initial).Returns client₃ second candidates
      client₄)
    (made : materialize codec client₄ actor reviewer scopedRepository limit search candidates =
      .ok inbox) :
    (collectInbox codec actor reviewer repository limit).Returns client
      (scoping ++ (searching ++ (first ++ second))) inbox client₄ := by
  rw [collectInbox, Session.returns_bind]
  refine ⟨_, _, _, _, rfl, resolved, ?_⟩
  rw [Session.returns_bind]
  refine ⟨_, _, _, _, rfl, asked, ?_⟩
  rw [Session.returns_bind]
  refine ⟨_, _, _, _, rfl, completed, ?_⟩
  rw [Session.returns_bind]
  refine ⟨_, _, second, [], (List.append_nil _).symm, revalidated, ?_⟩
  rw [Session.returns_get_bind]
  exact Session.returns_check.mpr ⟨made, rfl, rfl⟩

/-! ### A run -/

/-- SHA-256 of what the sample's items are bound to. -/
def sampleDigests : List (Nat × String) :=
  [(2322741075, "62f928dad09e40157088e05e931d148487a22e922681112143b00dc2a0b0a1c5"),
    (1760322710, "15cc2e73689f00612abd700b6390a38dd0fa05e15cecd52fd96aef6a47aef827"),
    (1076666594, "a8def1294be0549a1c583c965aa163e2dd083629bd0facd4d16a42d32b50a30a"),
    (3798215172, "3331e2856082782e5a4005f4b09965f4ca4e82c1bbf081647a33f965faa9e311")]

def sampleSha256 : Bytes → Bytes := Ledger.Sample.entry sampleDigests 32

def sampleReview (id url : String) (databaseId : UInt64) : ReviewRecord where
  id := id
  fullDatabaseId := some (.number databaseId)
  state := "APPROVED"
  submittedAt := some "2024-01-01T00:00:00Z"
  url := url
  authorAssociation := "MEMBER"
  author := some ⟨"User", "ann", some "U1"⟩
  commit := some "1111111111111111111111111111111111111111"

/-- A pull request with one review. -/
def sampleSnapshot (id url : String) (number : UInt64) (headRefOid : Option String)
    (reviewRequests : ReviewRequestConnection) (review : ReviewRecord) : CandidateSnapshot where
  pullRequest := {
    id := id
    number := number
    state := "OPEN"
    url := url
    isDraft := false
    updatedAt := "2024-01-01T00:00:00Z"
    baseRefOid := some "3333333333333333333333333333333333333333"
    headRefOid := headRefOid
    allReviews := 1
    reviewRequests := reviewRequests
    reviews := ⟨1, ⟨false, none⟩, [review]⟩
    repository := ⟨"N1", "o/r", "https://h/o/r"⟩ }
  reviews := [review]
  reviewPagesObserved := 1

/-- A pull request whose head has moved since its review, one that is to be reviewed again as
well, and one whose head is not shown. -/
def sampleSnapshots : List CandidateSnapshot :=
  [sampleSnapshot "P1" "https://h/o/r/pull/1" 1 (some "2222222222222222222222222222222222222222")
      ⟨0, ⟨false, none⟩, []⟩ (sampleReview "R7" "https://h/o/r/pull/1#pullrequestreview-7" 7),
    sampleSnapshot "P2" "https://h/o/r/pull/2" 2 (some "2222222222222222222222222222222222222222")
      ⟨1, ⟨false, none⟩, [some ⟨"User", "U1", some "ann"⟩]⟩
      (sampleReview "R8" "https://h/o/r/pull/2#pullrequestreview-8" 8),
    sampleSnapshot "P3" "https://h/o/r/pull/3" 3 none ⟨0, ⟨false, none⟩, []⟩
      (sampleReview "R9" "https://h/o/r/pull/3#pullrequestreview-9" 9)]

def sampleUser : GithubUser := ⟨"ann", 1, "U1", "User"⟩
def sampleActor : ActorIdentity := ⟨"ann", 1, "U1"⟩
def sampleReviewer : ReviewerIdentity := ⟨"ann", 1, "U1", "authenticated_viewer"⟩
def sampleRate : RateLimit := ⟨1, 100, "2024-01-01T00:00:00Z"⟩

def sampleSearch : SearchConnection :=
  ⟨3, ⟨false, none⟩, sampleSnapshots.map fun snapshot => some snapshot.pullRequest⟩

/-- The decision on the sample. -/
def sampleEvaluation (candidates : List CandidateObservation) : InboxEvaluation :=
  evaluateWithPolicy sampleSha256
    (inboxObservation "h" sampleActor sampleReviewer none 3 sampleSearch candidates) true

/-- The checks that both readings make of a pull request with one page of one review. -/
structure OnePage (snapshot : CandidateSnapshot) : Prop where
  split : splitRepository snapshot.pullRequest.repository.nameWithOwner = .ok ("o", "r")
  valid : validatePullRequest snapshot.pullRequest "h" none = .ok ()
  ends : snapshot.pullRequest.reviews.pageInfo.hasNextPage = false
  reviews : snapshot.reviews = snapshot.pullRequest.reviews.nodes
  pages : snapshot.reviewPagesObserved = 1
  single : snapshot.pullRequest.reviews.nodes.length = 1
  complete : validateCompleteReviews snapshot.pullRequest.reviews.nodes
    snapshot.pullRequest.reviews.totalCount sampleReviewer = .ok ()

/-- The checks that a run makes of the sample. -/
structure SampleChecks : Prop where
  hostname : parseRepository none (some "h") = .ok ("h", none)
  host : "h".utf8ByteSize ≤ 253
  user : validateGithubUser sampleUser "authenticated actor" = .ok ()
  reviewer : validateGithubUser sampleUser "reviewer" = .ok ()
  viewer : ensureAuthenticatedActor ⟨"ann", "U1"⟩ sampleActor = .ok ()
  time : validTimestamp sampleRate.resetAt = true
  pages : ∀ snapshot ∈ sampleSnapshots, OnePage snapshot
  printable : ∀ snapshot ∈ sampleSnapshots, Printable snapshot
  decided : (sampleSnapshots.mapM fun snapshot =>
      candidateObservation snapshot snapshot sampleActor sampleReviewer).toOption.map
    (fun candidates => ((sampleEvaluation candidates).decision.result,
      (sampleEvaluation candidates).decision.counts)) = some ("success", ⟨2, 0, 1, 0⟩)

theorem sample_decided (checks : SampleChecks) :
    ∃ candidates, List.Forall₂ (fun snapshot candidate =>
        candidateObservation snapshot snapshot sampleActor sampleReviewer = .ok candidate)
        sampleSnapshots candidates ∧
      (sampleEvaluation candidates).decision.result = "success" ∧
      (sampleEvaluation candidates).decision.counts = ⟨2, 0, 1, 0⟩ := by
  have decided := checks.decided
  cases observed : sampleSnapshots.mapM fun snapshot =>
      candidateObservation snapshot snapshot sampleActor sampleReviewer with
  | error failure =>
      rw [observed] at decided
      cases decided
  | ok candidates =>
      rw [observed] at decided
      obtain ⟨success, counts⟩ := Prod.mk.inj (Option.some.inj decided)
      exact ⟨candidates, Result.mapM_forall₂ observed, success, counts⟩

def sampleClient (calls nodes : Nat) : GhClient :=
  ⟨"h", calls, nodes, 0, some 100, some "2024-01-01T00:00:00Z"⟩

/-- Any query may be answered with any data, in no bytes. -/
theorem answers_graphql {query : Query} {label : String} {α : Type} {a : α}
    {f : query.Data → Collecting α} {calls nodes : Nat} {remaining : Option Nat}
    {reset : Option String} (data : query.Data) (few : calls < maxApiCalls)
    (rest : (f data).Returns ⟨"h", calls + 1, nodes, 0, remaining, reset⟩ [] a client') :
    ∃ answered, (graphql query label >>= f).Returns ⟨"h", calls, nodes, 0, remaining, reset⟩
      answered a client' := by
  have room : 0 + 0 < maxTotalResponseBytes := by
    rw [maxTotalResponseBytes]
    omega
  have asked := @returns_graphql ⟨"h", calls, nodes, 0, remaining, reset⟩ query label 0 data few
    room
  exact ⟨_, Session.returns_bind.mpr ⟨data, _, _, [], (List.append_nil _).symm, asked, rest⟩⟩

/-- A check that is passed, and then a query. -/
theorem answers_check {α β : Type} {result : Result β} {passed : β} {a : α}
    {f : β → Collecting α} (ok : result = .ok passed)
    (rest : ∃ calls, (f passed).Returns client calls a client') :
    ∃ calls, (check result >>= f).Returns client calls a client' := by
  obtain ⟨calls, rest⟩ := rest
  exact ⟨calls, Session.returns_check_bind.mpr ⟨passed, ok, rest⟩⟩

theorem sample_rate (checks : SampleChecks) :
    (observeRateLimit sampleRate).Returns client [] () { client with
      minimumRateLimitRemaining := some
        (client.minimumRateLimitRemaining.elim sampleRate.remaining (min · sampleRate.remaining))
      lastRateLimitResetAt := some sampleRate.resetAt } := by
  have cost : sampleRate.cost ≤ 5000 := by decide
  have observed := @returns_observeRateLimit client sampleRate checks.time cost
  exact observed

theorem sample_searches (checks : SampleChecks) :
    ∃ calls, (searchPullRequests sampleActor sampleReviewer none 3).Returns
      ⟨"h", 1, 0, 0, none, none⟩ calls sampleSearch (sampleClient 2 0) := by
  rw [searchPullRequests]
  refine answers_graphql ?data (by decide) ?rest
  case data => exact ⟨⟨"ann", "U1"⟩, sampleSearch, sampleRate⟩
  case rest =>
    rw [Session.returns_check_bind]
    refine ⟨(), checks.viewer, ?_⟩
    rw [Session.returns_bind]
    refine ⟨(), _, [], [], rfl, sample_rate checks, ?_⟩
    rw [Session.returns_ensure_bind, Session.returns_ensure_bind, Session.returns_ensure_bind]
    exact ⟨by decide, by decide, by decide, Session.returns_pure.mpr ⟨rfl, rfl, rfl⟩⟩

section

variable {snapshot : CandidateSnapshot} {snapshots : List CandidateSnapshot}
variable {observations : List CandidateObservation}

theorem OnePage.eq (page : OnePage snapshot) :
    ⟨snapshot.pullRequest, snapshot.pullRequest.reviews.nodes, 1⟩ = snapshot := by
  rw [← page.reviews, ← page.pages]

theorem OnePage.returns_pages (page : OnePage snapshot) :
    (appendReviewPages snapshot.pullRequest.repository snapshot.pullRequest.toPullRequestBody
      sampleActor sampleReviewer.login snapshot.pullRequest.reviews.nodes).Returns client []
      (snapshot.reviews, snapshot.reviewPagesObserved) client := by
  rw [appendReviewPages, Session.returns_check_bind]
  refine ⟨("o", "r"), page.split, ?_⟩
  dsimp only
  rw [reviewPages, if_neg (Bool.not_eq_true _ ▸ page.ends), page.reviews, page.pages]
  exact Session.returns_pure.mpr ⟨rfl, rfl, rfl⟩

theorem OnePage.observed (page : OnePage snapshot) {nodes : Nat}
    (room : nodes + 1 ≤ maxCapturedReviewNodes) {calls : Nat} :
    (observeReviewNodes snapshot.pullRequest.reviews.nodes.length).Returns
      (sampleClient calls nodes) [] () (sampleClient calls (nodes + 1)) := by
  rw [page.single]
  exact returns_observeReviewNodes room

theorem OnePage.returns_complete (page : OnePage snapshot) :
    (completeSnapshot snapshot.pullRequest sampleActor sampleReviewer).Returns client [] snapshot
      client := by
  rw [completeSnapshot, Session.returns_bind]
  refine ⟨_, _, [], [], rfl, page.returns_pages, ?_⟩
  dsimp only
  rw [page.reviews, page.pages, Session.returns_check_bind]
  exact ⟨(), page.complete, Session.returns_pure.mpr ⟨rfl, page.eq, rfl⟩⟩

/-- Pull requests with one page are read without another call. -/
theorem returns_completeSnapshots (index calls nodes : Nat) (ids : List String)
    (pages : ∀ snapshot ∈ snapshots, OnePage snapshot)
    (distinct : (snapshots.map (·.pullRequest.id)).Nodup)
    (others : ∀ snapshot ∈ snapshots, snapshot.pullRequest.id ∉ ids)
    (room : nodes + snapshots.length ≤ maxCapturedReviewNodes) :
    (completeSnapshots none sampleActor sampleReviewer index ids
        (snapshots.map fun snapshot => some snapshot.pullRequest)).Returns
      (sampleClient calls nodes) [] snapshots (sampleClient calls (nodes + snapshots.length)) := by
  induction snapshots generalizing index ids nodes with
  | nil => exact Session.returns_pure.mpr ⟨rfl, rfl, rfl⟩
  | cons snapshot snapshots ih =>
      obtain ⟨page, pages⟩ := List.forall_mem_cons.mp pages
      obtain ⟨fresh, others⟩ := List.forall_mem_cons.mp others
      obtain ⟨first, distinct⟩ := List.nodup_cons.mp distinct
      rw [List.length_cons] at room ⊢
      rw [List.map_cons, completeSnapshots, Session.returns_check_bind]
      refine ⟨snapshot.pullRequest, rfl, ?_⟩
      rw [Session.returns_get_bind, Session.returns_check_bind]
      refine ⟨(), page.valid, ?_⟩
      rw [Session.returns_bind]
      refine ⟨(), _, [], [], rfl, page.observed (by omega), ?_⟩
      refine Session.returns_ensure_bind.mpr ⟨?_, ?_⟩
      · simpa using fresh
      rw [Session.returns_bind]
      refine ⟨snapshot, _, [], [], rfl, page.returns_complete, ?_⟩
      rw [Session.returns_bind]
      refine ⟨snapshots, _, [], [], rfl, ih _ _ _ pages distinct ?_ (by omega), ?_⟩
      · intro other member
        refine List.not_mem_cons_of_ne_of_not_mem (fun same => first ?_) (others other member)
        exact List.mem_map.mpr ⟨other, member, same⟩
      · refine Session.returns_pure.mpr ⟨rfl, rfl, ?_⟩
        rw [Nat.add_assoc, Nat.add_comm 1]

theorem OnePage.rereads (checks : SampleChecks) (page : OnePage snapshot) (calls nodes : Nat)
    (few : calls < maxApiCalls) (room : nodes + 1 ≤ maxCapturedReviewNodes) :
    ∃ asked, (revalidateSnapshot snapshot sampleActor sampleReviewer).Returns
      (sampleClient calls nodes) asked snapshot (sampleClient (calls + 1) (nodes + 1)) := by
  rw [revalidateSnapshot]
  refine answers_check page.split ?_
  refine answers_graphql ?data few ?rest
  case data =>
    exact ⟨⟨"ann", "U1"⟩, some ⟨snapshot.pullRequest.repository,
      some snapshot.pullRequest.toPullRequestBody⟩, sampleRate⟩
  case rest =>
    rw [Session.returns_check_bind]
    refine ⟨(), checks.viewer, ?_⟩
    rw [Session.returns_bind]
    refine ⟨(), _, [], [], rfl, sample_rate checks, ?_⟩
    rw [Session.returns_check_bind]
    refine ⟨_, rfl, ?_⟩
    rw [Session.returns_check_bind]
    refine ⟨(), Result.ensure_of ⟨rfl, rfl, rfl⟩, ?_⟩
    rw [Session.returns_check_bind]
    refine ⟨_, rfl, ?_⟩
    rw [Session.returns_get_bind, Session.returns_check_bind]
    refine ⟨(), page.valid, ?_⟩
    rw [Session.returns_bind]
    refine ⟨(), _, [], [], rfl, page.observed room, ?_⟩
    rw [Session.returns_bind]
    refine ⟨_, _, [], [], rfl, page.returns_pages, ?_⟩
    dsimp only
    rw [page.reviews, page.pages, Session.returns_check_bind]
    exact ⟨(), page.complete, Session.returns_pure.mpr ⟨rfl, page.eq, rfl⟩⟩

/-- Each is read a second time by one call. -/
theorem returns_revalidateSnapshots (checks : SampleChecks) (calls nodes : Nat)
    (observed : List.Forall₂ (fun snapshot candidate =>
      candidateObservation snapshot snapshot sampleActor sampleReviewer = .ok candidate)
      snapshots observations)
    (pages : ∀ snapshot ∈ snapshots, OnePage snapshot)
    (few : calls + snapshots.length ≤ maxApiCalls)
    (room : nodes + snapshots.length ≤ maxCapturedReviewNodes) :
    ∃ asked, (revalidateSnapshots sampleActor sampleReviewer snapshots).Returns
      (sampleClient calls nodes) asked (snapshots.zip observations)
      (sampleClient (calls + snapshots.length) (nodes + snapshots.length)) := by
  induction observed generalizing calls nodes with
  | nil => exact ⟨[], Session.returns_pure.mpr ⟨rfl, rfl, rfl⟩⟩
  | @cons snapshot candidate snapshots observations observation _ ih =>
      obtain ⟨page, pages⟩ := List.forall_mem_cons.mp pages
      rw [List.length_cons] at few room ⊢
      obtain ⟨first, reread⟩ := page.rereads checks calls nodes (by omega) (by omega)
      obtain ⟨asked, rest⟩ := ih (calls + 1) (nodes + 1) pages (by omega) (by omega)
      refine ⟨first ++ asked, ?_⟩
      rw [revalidateSnapshots, Session.returns_bind]
      refine ⟨snapshot, _, first, asked, rfl, reread, ?_⟩
      rw [Session.returns_check_bind]
      refine ⟨candidate, observation, ?_⟩
      rw [Session.returns_bind]
      refine ⟨_, _, asked, [], (List.append_nil _).symm, rest, ?_⟩
      refine Session.returns_pure.mpr ⟨rfl, rfl, ?_⟩
      rw [Nat.add_assoc, Nat.add_comm 1, Nat.add_assoc, Nat.add_comm 1]

end

/-- What the readings of the sample are, and what is decided of them. -/
theorem sample_readings (checks : SampleChecks) :
    ∃ searching second candidates,
      (searchPullRequests sampleActor sampleReviewer none 3).Returns ⟨"h", 1, 0, 0, none, none⟩
        searching sampleSearch (sampleClient 2 0) ∧
      (completeSnapshots none sampleActor sampleReviewer 1 [] sampleSearch.nodes).Returns
        (sampleClient 2 0) [] sampleSnapshots (sampleClient 2 3) ∧
      (revalidateSnapshots sampleActor sampleReviewer sampleSnapshots).Returns (sampleClient 2 3)
        second candidates (sampleClient 5 6) ∧
      (sampleEvaluation (candidates.map (·.2))).decision.result = "success" ∧
      (sampleEvaluation (candidates.map (·.2))).decision.counts = ⟨2, 0, 1, 0⟩ := by
  obtain ⟨observations, observed, success, counts⟩ := sample_decided checks
  obtain ⟨searching, asked⟩ := sample_searches checks
  obtain ⟨second, revalidated⟩ := returns_revalidateSnapshots checks 2 3 observed
    checks.pages (by decide) (by decide)
  have completed := returns_completeSnapshots 1 2 0 [] checks.pages (by decide)
    (fun _ _ => List.not_mem_nil) (by decide)
  refine ⟨searching, second, _, asked, completed, revalidated, ?_⟩
  rw [List.map_snd_zip observed.length_eq.ge]
  exact ⟨success, counts⟩

theorem length_sample_digest (bytes : Bytes) :
    ((Codec.serde sampleSha256).sha256 bytes).length = 32 := by
  rw [sha256_serde]
  exact Ledger.Sample.entry_length

theorem sample_evaluation (candidates : List CandidateObservation) :
    evaluateWithPolicy (Codec.serde sampleSha256).sha256
      (inboxObservation (sampleClient 5 6).hostname sampleActor sampleReviewer none 3 sampleSearch
        candidates) true = sampleEvaluation candidates := by
  rw [sha256_serde]
  rfl

theorem sample_scope {client : GhClient} :
    (resolveRepositoryScope sampleActor none).Returns client [] none client := by
  rw [resolveRepositoryScope, Session.returns_pure]
  exact ⟨rfl, rfl, rfl⟩

theorem sample_checks : SampleChecks := by
  have ⟨hostname, host, user, reviewer, viewer, time⟩ :
      parseRepository none (some "h") = .ok ("h", none) ∧ "h".utf8ByteSize ≤ 253 ∧
      validateGithubUser sampleUser "authenticated actor" = .ok () ∧
      validateGithubUser sampleUser "reviewer" = .ok () ∧
      ensureAuthenticatedActor ⟨"ann", "U1"⟩ sampleActor = .ok () ∧
      validTimestamp "2024-01-01T00:00:00Z" = true := by
    decide +kernel
  have pages : ∀ snapshot ∈ sampleSnapshots,
      splitRepository snapshot.pullRequest.repository.nameWithOwner = .ok ("o", "r") ∧
      validatePullRequest snapshot.pullRequest "h" none = .ok () ∧
      validateCompleteReviews snapshot.pullRequest.reviews.nodes
        snapshot.pullRequest.reviews.totalCount sampleReviewer = .ok () ∧
      snapshot.pullRequest.reviews.pageInfo.hasNextPage = false ∧
      snapshot.reviews = snapshot.pullRequest.reviews.nodes ∧
      snapshot.reviewPagesObserved = 1 ∧ snapshot.pullRequest.reviews.nodes.length = 1 ∧
      snapshot.pullRequest.repository.nameWithOwner.utf8ByteSize ≤ 202 ∧
      ∀ review ∈ snapshot.reviews, review.submittedAt = some "2024-01-01T00:00:00Z" ∧
        validAuthorAssociation review.authorAssociation = true := by
    decide +kernel
  refine ⟨hostname, host, user, reviewer, viewer, time, ?_, ?_, by decide +kernel⟩
  · intro snapshot member
    obtain ⟨split, valid, complete, ends, reviews, observed, single, _⟩ := pages snapshot member
    exact { split, valid, ends, reviews, pages := observed, single, complete }
  · intro snapshot member
    obtain ⟨_, _, _, _, _, _, _, name, reviews⟩ := pages snapshot member
    refine ⟨name, fun review listed _ => ?_⟩
    obtain ⟨submitted, association⟩ := reviews review listed
    refine ⟨fun time' same => ?_, association⟩
    rw [submitted] at same
    rw [← Option.some.inj same]
    exact time

/-- After the readings only the decision can fail: what was read and is decided becomes an inbox,
as long as the names are of the length that events take and the completed reviews can be printed.
Every search result is a candidate with a decision, there is an item for each actionable and each
unobservable one, and the inbox counts every one of them once. -/
theorem readings_end_in_an_inbox
    (resolved : (resolveRepositoryScope actor repository).Returns client scoping scopedRepository
      client₁)
    (asked : (searchPullRequests actor reviewer (scopedRepository.map (·.nameWithOwner))
      limit).Returns client₁ searching search client₂)
    (completed : (completeSnapshots scopedRepository actor reviewer 1 [] search.nodes).Returns
      client₂ first initial client₃)
    (revalidated : (revalidateSnapshots actor reviewer initial).Returns client₃ second candidates
      client₄)
    (decided : (evaluateWithPolicy codec.sha256 (inboxObservation client₄.hostname actor reviewer
      scopedRepository limit search (candidates.map (·.2))) true).decision.result = "success")
    (digest : ∀ bytes, (codec.sha256 bytes).length = 32)
    (host : client.hostname.utf8ByteSize ≤ 253)
    (printable : ∀ snapshot ∈ initial, Printable snapshot) :
    ∃ inbox, (collectInbox codec actor reviewer repository limit).Returns client
        (scoping ++ (searching ++ (first ++ second))) inbox client₄ ∧
      search.nodes = candidates.map (fun pair => some pair.1.pullRequest) ∧
      Delivers codec client₄.hostname reviewer candidates (evaluateWithPolicy codec.sha256
        (inboxObservation client₄.hostname actor reviewer scopedRepository limit search
          (candidates.map (·.2))) true) inbox ∧
      inbox.summary.completedReviewPrs + inbox.summary.noCompletedReviewPrs =
        search.nodes.length := by
  obtain ⟨nodes, _, reading⟩ := completeSnapshots_returns completed
  obtain ⟨same, again, rereading⟩ := revalidateSnapshots_returns revalidated
  have hostname : client₄.hostname = client.hostname := by
    rw [rereading, reading, (searchPullRequests_returns asked).2,
      resolveRepositoryScope_returns resolved]
  have observed : ∀ pair ∈ candidates, ∃ observed,
      candidateObservation pair.1 observed actor reviewer = .ok pair.2 := by
    intro pair member
    obtain ⟨observed, observation, _⟩ := again pair member
    exact ⟨observed, observation⟩
  obtain ⟨inbox, counts, made, counted, total⟩ := materialize_succeeds observed
    decided digest (hostname ▸ host) fun pair member =>
      printable _ (same ▸ List.mem_map_of_mem (f := (·.1)) member)
  have delivers := (materialize_eq_ok made).1
  have offered : search.nodes = candidates.map fun pair => some pair.1.pullRequest := by
    rw [nodes, ← same, List.map_map]
    rfl
  refine ⟨inbox, returns_collectInbox resolved asked completed revalidated made, offered, delivers,
    ?_⟩
  rw [delivers.completed, delivers.noCompleted, counted, total, offered, List.length_map]

theorem readings_end_in_an_inbox_sample :
    ∃ calls candidates inbox, (collectInbox (.serde sampleSha256) sampleActor sampleReviewer none
        3).Returns ⟨"h", 1, 0, 0, none, none⟩ calls inbox (sampleClient 5 6) ∧
      sampleSearch.nodes = candidates.map (fun pair => some pair.1.pullRequest) ∧
      Delivers (.serde sampleSha256) "h" sampleReviewer candidates
        (sampleEvaluation (candidates.map (·.2))) inbox ∧
      inbox.summary.completedReviewPrs + inbox.summary.noCompletedReviewPrs =
        sampleSearch.nodes.length ∧
      inbox.actionable.length = 2 ∧ inbox.unobservable.length = 1 := by
  obtain ⟨searching, second, candidates, asked, completed, revalidated, success, counts⟩ :=
    sample_readings sample_checks
  rw [← sample_evaluation] at success counts
  obtain ⟨inbox, returned, offered, delivers, total⟩ :=
    readings_end_in_an_inbox sample_scope asked completed revalidated success length_sample_digest
      sample_checks.host sample_checks.printable
  have items := delivers.items
  rw [counts] at items
  rw [sample_evaluation] at delivers
  exact ⟨_, candidates, inbox, returned, offered, delivers, total, items⟩

end

/-- However GitHub answers, whatever the inbox announces was read twice to its end, the second
time after all the first readings, and both readings agree; the token of the item is read as an
event that names the latest completed review among what was read. -/
theorem inbox_announces_what_was_read_twice (lawful : codec.Lawful) {args : InboxArgs}
    (returned : (run codec args).Returns calls inbox) :
    ∃ first second, calls = first ++ second ∧
      ∀ item ∈ inbox.actionable, Announced codec first second inbox item := by
  unfold run at returned
  split at returned
  · exact returned.elim
  · rename_i hostname repository _
    rw [StateT.run', Program.returns_map] at returned
    obtain ⟨⟨found, client'⟩, returned, rfl⟩ := returned
    replace returned : (collect codec args.reviewer repository args.limit).Returns
      (GhClient.new hostname) calls found client' := returned
    rw [collect, Session.returns_bind] at returned
    obtain ⟨actor, _, asking, _, rfl, asked, returned⟩ := returned
    rw [Session.returns_bind] at returned
    obtain ⟨reviewer, _, resolving, last, rfl, resolved, returned⟩ := returned
    obtain ⟨first, second, rfl, announced⟩ := collectInbox_returns lawful returned
    refine ⟨asking ++ (resolving ++ first), second, by simp only [List.append_assoc], ?_⟩
    intro item listed
    obtain ⟨⟨snapshot, nodes, review, node, event, offered, rest⟩⟩ := announced item listed
    refine ⟨⟨snapshot, nodes, review, node, event, offered.mono ?_, rest⟩⟩
    exact fun exchange there => List.mem_append_right _ (List.mem_append_right _ there)

theorem sample_collects (checks : SampleChecks) :
    ∃ calls inbox, (collectInbox (.serde sampleSha256) sampleActor sampleReviewer none 3).Returns
        ⟨"h", 1, 0, 0, none, none⟩ calls inbox (sampleClient 5 6) ∧
      inbox.actionable.length = 2 := by
  obtain ⟨searching, second, candidates, asked, completed, revalidated, success, counts⟩ :=
    sample_readings checks
  have observed : ∀ pair ∈ candidates, ∃ revalidated,
      candidateObservation pair.1 revalidated sampleActor sampleReviewer = .ok pair.2 := by
    intro pair member
    obtain ⟨again, observation, _⟩ := (revalidateSnapshots_returns revalidated).2.1 pair member
    exact ⟨again, observation⟩
  have printable : ∀ pair ∈ candidates, Printable pair.1 := by
    intro pair member
    refine checks.printable _ ?_
    rw [← (revalidateSnapshots_returns revalidated).1]
    exact List.mem_map_of_mem (f := (·.1)) member
  rw [← sample_evaluation] at success counts
  obtain ⟨inbox, _, made, _⟩ := materialize_succeeds observed success length_sample_digest
    checks.host printable
  have items := (materialize_eq_ok made).1.items.1
  rw [counts] at items
  exact ⟨_, inbox, returns_collectInbox sample_scope asked completed revalidated made, items⟩

theorem sample_authenticates (checks : SampleChecks) :
    ∃ calls, resolveAuthenticatedActor.Returns (GhClient.new "h") calls sampleActor
      ⟨"h", 1, 0, 0, none, none⟩ := by
  have few : (GhClient.new "h").calls < maxApiCalls := by decide
  have room : (GhClient.new "h").responseBytes + 0 < maxTotalResponseBytes := by
    show 0 + 0 < maxTotalResponseBytes
    rw [maxTotalResponseBytes]
    omega
  have called := @returns_call (GhClient.new "h") (.rest "user") 0 (.ok sampleUser) few room
  have asked : ∃ calls, (rest "user" "GitHub authenticated actor identity").Returns
      (GhClient.new "h") calls sampleUser ⟨"h", 1, 0, 0, none, none⟩ := by
    refine ⟨_, Session.returns_bind.mpr ⟨_, _, _, [], (List.append_nil _).symm, called, ?_⟩⟩
    exact Session.returns_check.mpr ⟨rfl, rfl, rfl⟩
  obtain ⟨calls, asked⟩ := asked
  refine ⟨calls, ?_⟩
  rw [resolveAuthenticatedActor, Session.returns_bind]
  refine ⟨sampleUser, _, calls, [], (List.append_nil _).symm, asked, ?_⟩
  rw [Session.returns_check_bind]
  exact ⟨(), checks.user, Session.returns_pure.mpr ⟨rfl, rfl, rfl⟩⟩

theorem sample_reviews (checks : SampleChecks) {client : GhClient} :
    (resolveReviewer none sampleActor).Returns client [] sampleReviewer client := by
  show Session.Returns (do
      let user ← reviewerUser none sampleActor
      check (validateGithubUser user "reviewer")
      return (⟨user.login, user.id, user.nodeId, "authenticated_viewer"⟩ : ReviewerIdentity))
    client [] sampleReviewer client
  rw [Session.returns_bind]
  refine ⟨sampleUser, client, [], [], rfl, Session.returns_pure.mpr ⟨rfl, rfl, rfl⟩, ?_⟩
  rw [Session.returns_check_bind]
  exact ⟨(), checks.reviewer, Session.returns_pure.mpr ⟨rfl, rfl, rfl⟩⟩

/-- A run that announces two pull requests. -/
theorem sample_runs (checks : SampleChecks) :
    ∃ calls inbox, (run (.serde sampleSha256) ⟨none, some "h", none, 3⟩).Returns calls inbox ∧
      inbox.actionable.length = 2 := by
  obtain ⟨first, authenticated⟩ := sample_authenticates checks
  obtain ⟨second, inbox, collected, items⟩ := sample_collects checks
  have collects : (collect (.serde sampleSha256) none none 3).Returns
      (GhClient.new "h") (first ++ second) inbox (sampleClient 5 6) := by
    rw [collect, Session.returns_bind]
    refine ⟨_, _, first, second, rfl, authenticated, ?_⟩
    rw [Session.returns_bind]
    exact ⟨_, _, [], second, rfl, sample_reviews checks, collected⟩
  refine ⟨first ++ second, inbox, ?_, items⟩
  rw [run, checks.hostname]
  exact Program.returns_map.mpr ⟨_, collects, rfl⟩

theorem inbox_announces_what_was_read_twice_sample :
    ∃ calls inbox, (run (.serde sampleSha256) ⟨none, some "h", none, 3⟩).Returns calls inbox ∧
      inbox.actionable.length = 2 ∧
      ∃ first second, calls = first ++ second ∧
        ∀ item ∈ inbox.actionable, Announced (.serde sampleSha256) first second inbox item := by
  obtain ⟨calls, inbox, returned, items⟩ := sample_runs sample_checks
  exact ⟨calls, inbox, returned, items,
    inbox_announces_what_was_read_twice (lawful_serde _) returned⟩

end

end Stratadiff.ReviewInbox
