import Stratadiff.Inbox.Announce

/-!
# What is decided can be announced

The decision core, the collector and the events check hosts, names, ids and triggers each in
their own way. Within the lengths that events allow, an actionable decision passes all of them.
-/

namespace Stratadiff.ReviewInbox

open Inbox InboxEvent
open Ledger (toAsciiLowercase)

/-! ## One check and another -/

theorem validNodeId_of_validateNode {value code : String}
    (valid : validateNode value code = .ok ()) :
    InboxEvent.validNodeId value = true := by
  unfold validateNode at valid
  rw [Result.check_bind_eq_ok, ensure_eq_ok, ensure_eq_ok] at valid
  rw [InboxEvent.validNodeId, Bool.and_eq_true, decide_eq_true_eq]
  exact valid

theorem validateLogin_of_reviewer {reviewer : ReviewerObservation} {code : String}
    (valid : validateReviewer reviewer code = .ok ()) :
    InboxEvent.validateLogin reviewer.login = .ok () ∧
      InboxEvent.validNodeId reviewer.nodeId = true := by
  unfold validateReviewer at valid
  rw [Result.check_bind_eq_ok, Result.check_bind_eq_ok] at valid
  obtain ⟨_, login, node⟩ := valid
  unfold Inbox.validateLogin at login
  simp only [Result.check_bind_eq_ok, ensure_eq_ok] at login
  exact ⟨Result.ensure_of login, validNodeId_of_validateNode node⟩

theorem validateHost_of_decided {host code : String} (valid : Inbox.validateHost host code = .ok ())
    (lower : host = toAsciiLowercase host) (short : host.utf8ByteSize ≤ 253) :
    InboxEvent.validateHost host = .ok () := by
  unfold Inbox.validateHost at valid
  simp only [Result.check_bind_eq_ok, ensure_eq_ok] at valid
  obtain ⟨nonempty, first, last, all⟩ := valid
  have long : 1 ≤ host.utf8ByteSize := by
    rw [← utf8Length_toList]
    exact (List.length_pos_iff.mpr nonempty).trans_le (length_le_utf8Length _)
  exact Result.ensure_of ⟨⟨long, short⟩, first, last, all, lower⟩

theorem validateRepository_of_decided {repository : RepositoryObservation} {host code : String}
    (valid : Inbox.validateRepository repository host code = .ok ())
    (short : repository.nameWithOwner.utf8ByteSize ≤ 202) :
    InboxEvent.validateRepository repository.nameWithOwner = .ok () ∧
      InboxEvent.validNodeId repository.nodeId = true := by
  unfold Inbox.validateRepository at valid
  rw [Result.check_bind_eq_ok, Result.check_bind_eq_ok, ensure_eq_ok] at valid
  obtain ⟨name, node, _⟩ := valid
  refine ⟨?_, validNodeId_of_validateNode node⟩
  unfold validRepository at name
  unfold InboxEvent.validateRepository
  cases split : splitOnce '/' repository.nameWithOwner.toList with
  | none =>
      rw [split] at name
      cases name
  | some parts =>
      rw [split] at name
      simp only [Bool.and_eq_true] at name
      obtain ⟨⟨⟨⟨owner, rest⟩, single⟩, ownerBytes⟩, nameBytes⟩ := name
      apply Result.ensure_of
      simp only [Bool.and_eq_true, decide_eq_true_eq]
      exact ⟨⟨⟨⟨⟨owner, rest⟩, single⟩, short⟩, ownerBytes⟩, nameBytes⟩

theorem validOid_of_optional {value : Option String} {code : String}
    (valid : Inbox.validateOptionalOid value code = .ok ()) :
    ∀ oid, value = some oid → validOid oid = true := by
  rintro oid rfl
  exact ensure_eq_ok.mp valid

theorem databaseId_pos {value : DatabaseId} {id : UInt64} (read : databaseId value = .ok id) :
    0 < id := by
  cases value with
  | number value =>
      rw [databaseId, Result.check_bind_eq_ok, Result.ensure_eq_ok] at read
      obtain ⟨positive, read⟩ := read
      rw [← Except.ok.inj read]
      exact positive
  | string text =>
      unfold databaseId at read
      dsimp only at read
      rw [Result.check_bind_eq_ok, Result.check_bind_eq_ok, Result.check_bind_eq_ok,
        Result.ensure_eq_ok, Result.ensure_eq_ok, Result.ensure_eq_ok] at read
      obtain ⟨_, small, positive, read⟩ := read
      rw [← Except.ok.inj read, UInt64.lt_iff_toNat_lt, UInt64.toNat_ofNat_of_lt' small]
      exact positive

/-! ## An actionable candidate -/

/-- What an item needs of its candidate beyond what is decided: names of a length that events
allow, and completed reviews that can be printed. -/
structure Printable (snapshot : CandidateSnapshot) : Prop where
  name : snapshot.pullRequest.repository.nameWithOwner.utf8ByteSize ≤ 202
  reviews : ∀ review ∈ snapshot.reviews, isCompleted review.state = true →
    (∀ time, review.submittedAt = some time → validTimestamp time = true) ∧
      validAuthorAssociation review.authorAssociation = true

section

variable {codec : Codec} {hostname : String} {reviewer : ReviewerIdentity}
variable {snapshot revalidated : CandidateSnapshot} {candidate : CandidateObservation}
variable {decision : InboxCandidateDecision} {actor : ActorIdentity} {observer : ActorObservation}
variable {requested : Option RepositoryObservation} {strict : Bool}

/-- What is checked of a candidate before it is decided. -/
theorem validateCandidate_facts
    (valid : validateCandidate candidate hostname observer requested = .ok ()) :
    Inbox.validateRepository candidate.repository hostname "provider_url_mismatch" = .ok () ∧
      validateNode candidate.pullRequest.nodeId "pull_request_identity_invalid" = .ok () ∧
      0 < candidate.pullRequest.number ∧
      (∀ oid, candidate.pullRequest.headOid = some oid → validOid oid = true) ∧
      ∀ oid, candidate.pullRequest.currentBaseOid = some oid → validOid oid = true := by
  unfold validateCandidate at valid
  obtain ⟨repository, valid⟩ := Result.check_bind_eq_ok.mp valid
  have checked : Inbox.validatePullRequest candidate = .ok () := by
    cases requested with
    | none => exact (Result.check_bind_eq_ok.mp valid).1
    | some expected => exact (Result.check_bind_eq_ok.mp (Result.check_bind_eq_ok.mp valid).2).1
  unfold Inbox.validatePullRequest at checked
  obtain ⟨node, checked⟩ := Result.check_bind_eq_ok.mp checked
  obtain ⟨number, checked⟩ := Result.check_bind_eq_ok.mp checked
  obtain ⟨_, checked⟩ := Result.check_bind_eq_ok.mp checked
  obtain ⟨_, checked⟩ := Result.check_bind_eq_ok.mp checked
  obtain ⟨_, _, checked⟩ := Result.bind_eq_ok.mp checked
  obtain ⟨head, base⟩ := Result.check_bind_eq_ok.mp checked
  exact ⟨repository, node, ensure_eq_ok.mp number, validOid_of_optional head,
    validOid_of_optional base⟩

/-- The claims of the event that an actionable decision binds. -/
theorem claims_of_actionable (author : ReviewAuthor) (submittedAt : String)
    {review : ReviewRecord} {value : DatabaseId} {id : UInt64} {commit headOid : String}
    (observed : candidateObservation snapshot revalidated actor reviewer = .ok candidate)
    (valid : validateCandidate candidate hostname observer requested = .ok ())
    (host : InboxEvent.validateHost hostname = .ok ())
    (login : InboxEvent.validateLogin reviewer.login = .ok ())
    (reviewerNode : InboxEvent.validNodeId reviewer.nodeId = true)
    (short : snapshot.pullRequest.repository.nameWithOwner.utf8ByteSize ≤ 202)
    (reviewNode : InboxEvent.validNodeId review.id = true) (read : databaseId value = .ok id)
    (completed : isCompleted review.state = true) (oid : validOid commit = true)
    (head : snapshot.pullRequest.headRefOid = some headOid) (moved : commit ≠ headOid) :
    Claims {
      toInboxEventBinding := eventBinding hostname reviewer snapshot.pullRequest
        candidate.reviewRequestActive review.id
        ⟨id.toNat, author.login, toAsciiLowercase review.state, commit, submittedAt, review.url,
          review.authorAssociation⟩
        headOid (.headChanged :: if candidate.reviewRequestActive then [.reviewReRequested] else [])
      schema := inboxEventSchema
      eventId := "" } := by
  obtain ⟨repository, node, number, heads, bases⟩ := validateCandidate_facts valid
  unfold candidateObservation at observed
  obtain ⟨nodes, _, observed⟩ := Result.bind_eq_ok.mp observed
  obtain ⟨active, _, observed⟩ := Result.bind_eq_ok.mp observed
  obtain rfl := Except.ok.inj observed
  obtain ⟨name, repositoryNode⟩ := validateRepository_of_decided repository short
  have state : toAsciiLowercase review.state ∈ ["approved", "changes_requested"] := by
    rw [isCompleted, decide_eq_true_eq] at completed
    obtain same | same := List.mem_pair.mp completed
    · exact List.mem_pair.mpr (.inl (checkpointState_eq_ok.mp (by rw [same]; rfl)).2.symm)
    · exact List.mem_pair.mpr (.inr (checkpointState_eq_ok.mp (by rw [same]; rfl)).2.symm)
  have number' : 0 < snapshot.pullRequest.number := UInt64.lt_iff_toNat_lt.mpr number
  have changed : (commit != headOid) = true := bne_iff_ne.mpr moved
  have positive : 0 < UInt64.ofNat id.toNat := by
    rw [UInt64.ofNat_toNat]
    exact databaseId_pos read
  have expected (envelope : InboxEventEnvelope) (checkpoint : envelope.checkpointOid = commit)
      (last : envelope.headOid = headOid) (base : envelope.checkpointBaseOid = none) :
      envelope.headChanged = true ∧ envelope.expectedTriggers =
        .headChanged :: if envelope.reviewRequestActive then [.reviewReRequested] else [] := by
    have headChanged : envelope.headChanged = true := by
      rw [InboxEventBinding.headChanged, checkpoint, last]
      exact changed
    refine ⟨headChanged, ?_⟩
    rw [InboxEventBinding.expectedTriggers, headChanged, base]
    rfl
  exact {
    schema := rfl
    host := host
    repository := name
    repositoryNodeId := repositoryNode
    pullRequestNumber := number'
    pullRequestNodeId := validNodeId_of_validateNode node
    login := login
    reviewerNodeId := reviewerNode
    reviewDatabaseId := positive
    reviewState := state
    reviewNodeId := reviewNode
    checkpointOid := oid
    checkpointBaseOid := fun _ given => by
      cases given
    currentBaseOid := bases
    headOid := heads headOid head
    bases := fun unchanged => by
      rw [(expected _ rfl rfl rfl).1] at unchanged
      cases unchanged
    actionable := by
      rw [(expected _ rfl rfl rfl).2]
      exact List.cons_ne_nil _ _
    triggers := by
      rw [(expected _ rfl rfl rfl).2]
      rfl }

theorem validateCheckpointOutput_eq_ok {checkpoint : GithubReviewCheckpoint} {url : String} :
    validateCheckpointOutput checkpoint url = .ok () ↔
      0 < checkpoint.reviewId ∧ InboxEvent.validateLogin checkpoint.reviewerLogin = .ok () ∧
      checkpoint.reviewState ∈ ["approved", "changes_requested"] ∧
      validOid checkpoint.commitId = true ∧ validTimestamp checkpoint.submittedAt = true ∧
      checkpoint.htmlUrl = url ++ "#pullrequestreview-" ++ toString checkpoint.reviewId ∧
      validAuthorAssociation checkpoint.authorAssociation = true := by
  unfold validateCheckpointOutput
  simp only [Result.check_bind_eq_ok, Result.ensure_eq_ok]

theorem all_isLowerHex_encodeHex (bytes : Bytes) :
    (encodeHex bytes).toList.all isLowerHex = true := by
  rw [encodeHex, asciiText, String.toList_ofList, List.all_eq_true]
  intro c member
  obtain ⟨byte, inside, rfl⟩ := List.mem_map.mp member
  obtain ⟨source, _, digit⟩ := List.mem_flatMap.mp inside
  have hex (n : Nat) (small : n < 16) :
      isLowerHex (Char.ofNat (encodeHexDigit n).toNat) = true := by
    interval_cases n <;> decide
  have bound := source.toNat_lt
  rw [List.mem_cons, List.mem_singleton] at digit
  obtain rfl | rfl := digit
  · exact hex _ (by omega)
  · exact hex _ (by omega)

/-- A new event is valid, its id being a digest. -/
theorem validate_of_new {binding : InboxEventBinding} {event : InboxEventEnvelope}
    (digest : ∀ bytes, (codec.sha256 bytes).length = 32)
    (bound : InboxEventEnvelope.new codec binding = .ok event) :
    event.validate codec = .ok () := by
  obtain ⟨claims, made⟩ := new_eq_ok.mp bound
  have message (eventId : String) : InboxEventEnvelope.eventIdMessage
      { toInboxEventBinding := binding, schema := inboxEventSchema, eventId := eventId } =
        InboxEventEnvelope.eventIdMessage
          { toInboxEventBinding := binding, schema := inboxEventSchema, eventId := "" } := by
    unfold InboxEventEnvelope.eventIdMessage InboxEventEnvelope.eventIdInput
    rfl
  rw [made]
  refine validate_eq_ok.mpr
    ⟨?_, ?_, congrArg (fun text => encodeHex (codec.sha256 text)) (message _).symm⟩
  · obtain ⟨h1, h2, h3, h4, h5, h6, h7, h8, h9, h10, h11, h12, h13, h14, h15, h16, h17, h18⟩ :=
      claims
    exact ⟨h1, h2, h3, h4, h5, h6, h7, h8, h9, h10, h11, h12, h13, h14, h15, h16, h17, h18⟩
  · rw [validSha256, Bool.and_eq_true, decide_eq_true_eq, Value.utf8ByteSize_encodeHex, digest]
    exact ⟨rfl, all_isLowerHex_encodeHex _⟩

/-- The steps of announcing an item. -/
theorem announced_of {nodeId headOid trigger token : String} {checkpoint : GithubReviewCheckpoint}
    {triggers : List InboxEventTrigger} {event : InboxEventEnvelope}
    (named : decision.checkpointReviewNodeId = some nodeId)
    (selected : selectedCheckpoint snapshot.reviews nodeId = .ok checkpoint)
    (printed : validateCheckpointOutput checkpoint snapshot.pullRequest.url = .ok ())
    (head : snapshot.pullRequest.headRefOid = some headOid)
    (given : decision.trigger = some trigger) (read : eventTriggers trigger = .ok triggers)
    (bound : InboxEventEnvelope.new codec (eventBinding hostname reviewer snapshot.pullRequest
      candidate.reviewRequestActive nodeId checkpoint headOid triggers) = .ok event)
    (written : event.toToken codec = .ok token) :
    ∃ item, actionableItem codec hostname reviewer snapshot candidate decision = .ok item := by
  unfold actionableItem
  rw [named, Result.ofOption_some, Result.ok_bind, selected, Result.ok_bind, printed,
    Result.ok_bind, head, Result.ofOption_some, Result.ok_bind, given, Result.ofOption_some,
    Result.ok_bind, read, Result.ok_bind, bound, Except.mapError, Result.ok_bind, written,
      Result.ok_bind]
  exact ⟨_, rfl⟩

/-- An actionable decision within the bounds of events is announced. -/
theorem actionableItem_succeeds {sha256 : Bytes → Bytes}
    (observed : candidateObservation snapshot revalidated actor reviewer = .ok candidate)
    (decided : decideCandidate sha256 candidate hostname observer
      ⟨"User", reviewer.login, reviewer.nodeId⟩ requested strict = .ok decision)
    (actionable : decision.status = .actionable)
    (host : InboxEvent.validateHost hostname = .ok ())
    (login : InboxEvent.validateLogin reviewer.login = .ok ())
    (reviewerNode : InboxEvent.validNodeId reviewer.nodeId = true)
    (digest : ∀ bytes, (codec.sha256 bytes).length = 32) (printable : Printable snapshot) :
    ∃ item, actionableItem codec hostname reviewer snapshot candidate decision = .ok item := by
  obtain ⟨valid, _⟩ := decideCandidate_eq_ok.mp decided
  obtain ⟨nodes, read, history, _, sameHead, sameUrl, _⟩ := candidateObservation_eq_ok observed
  obtain ⟨review, node, headOid, inside, own, found, accepted, completed, _, named, head, moved,
    trigger⟩ := selected_of_actionable decided actionable read history
  have same := reviewObservation_eq_ok own
  rw [sameHead] at head
  rw [same.state] at completed
  obtain ⟨times, association⟩ := printable.reviews review inside completed
  obtain ⟨author, authorId, known, _, isAuthor⟩ := same.author
  obtain ⟨number, time, oid⟩ := accepted.completed (same.state ▸ completed)
  obtain ⟨ids, parsed, numbers⟩ := same.databaseId
  rw [numbers, Option.isSome_map] at number
  obtain ⟨id, rfl⟩ := Option.isSome_iff_exists.mp number
  obtain ⟨submittedAt, submitted⟩ := Option.isSome_iff_exists.mp (same.submittedAt ▸ time)
  obtain ⟨commit, there⟩ := Option.isSome_iff_exists.mp (same.commit ▸ oid)
  obtain ⟨value, given, idRead⟩ : ∃ value, review.fullDatabaseId = some value ∧
      databaseId value = .ok id := by
    cases given : review.fullDatabaseId with
    | none =>
        rw [given] at parsed
        cases parsed
    | some value =>
        rw [given, Option.mapM_some] at parsed
        obtain ⟨read, first, last⟩ := Result.bind_eq_ok.mp parsed
        obtain rfl := Option.some.inj (Except.ok.inj last)
        exact ⟨value, rfl, first⟩
  have commitValid : validOid commit = true :=
    validOid_of_optional accepted.commit commit (same.commit.trans there)
  rw [same.commit, there, Option.getD_some] at moved
  have reviewNode : InboxEvent.validNodeId review.id = true :=
    same.nodeId ▸ validNodeId_of_validateNode accepted.node
  have claims := claims_of_actionable author submittedAt observed valid
    host login reviewerNode printable.name reviewNode idRead completed commitValid head moved
  have authorLogin : InboxEvent.validateLogin author.login = .ok () := by
    have checked := (validateLogin_of_reviewer accepted.author).1
    rwa [isAuthor] at checked
  have url : review.url =
      snapshot.pullRequest.url ++ "#pullrequestreview-" ++ toString id.toNat := by
    rw [← same.url, ← sameUrl]
    exact (accepted.databaseId id.toNat numbers).2
  let checkpoint : GithubReviewCheckpoint := ⟨id.toNat, author.login,
    toAsciiLowercase review.state, commit, submittedAt, review.url, review.authorAssociation⟩
  have selected : selectedCheckpoint snapshot.reviews review.id = .ok checkpoint :=
    selectedCheckpoint_eq_ok.mpr ⟨review, author, value, id, commit, submittedAt, found,
    known, completed, given, idRead, there, submitted, rfl⟩
  have positive : 0 < id.toNat := UInt64.lt_iff_toNat_lt.mp (databaseId_pos idRead)
  have printed : validateCheckpointOutput checkpoint snapshot.pullRequest.url = .ok () :=
    validateCheckpointOutput_eq_ok.mpr ⟨positive, authorLogin, claims.reviewState, commitValid,
      times submittedAt submitted, url, association⟩
  have triggers : eventTriggers
      ("+".intercalate (triggerNames true false candidate.reviewRequestActive)) =
        .ok (.headChanged :: if candidate.reviewRequestActive then [.reviewReRequested] else []) :=
    eventTriggers_intercalate true false candidate.reviewRequestActive rfl
  obtain ⟨event, bound⟩ : ∃ event, InboxEventEnvelope.new codec (eventBinding hostname reviewer
      snapshot.pullRequest candidate.reviewRequestActive review.id checkpoint headOid
      (.headChanged :: if candidate.reviewRequestActive then [.reviewReRequested] else [])) =
        .ok event := ⟨_, new_eq_ok.mpr ⟨claims, rfl⟩⟩
  obtain ⟨token, written⟩ : ∃ token, event.toToken codec = .ok token :=
    ⟨_, toToken_eq_ok.mpr ⟨validate_of_new digest bound, rfl⟩⟩
  exact announced_of named selected printed head trigger triggers bound written

/-! ## All candidates -/

/-- An unobservable decision says why. -/
theorem reason_of_unobservable {sha256 : Bytes → Bytes} {observer' : ReviewerObservation}
    (decided : decideCandidate sha256 candidate hostname observer observer' requested strict =
      .ok decision) : decision.status = .unobservable → decision.reason.isSome := by
  obtain ⟨_, _, _, _, made⟩ := decideCandidate_eq_ok.mp decided
  rw [made]
  cases (candidate.reviewHistory.nodes.filterMap checkpointOf).foldl keep none with
  | none =>
      intro status
      cases status
  | some checkpoint =>
      rw [decideFrom]
      unfold decideCheckpoint
      dsimp only
      repeat' split
      all_goals
        intro status
        first | rfl | cases status

/-- What a valid scope says of the host and of the reviewer. -/
theorem scope_facts {observation : InboxObservation} (valid : validateScope observation = .ok ())
    (short : observation.provider.host.utf8ByteSize ≤ 253) :
    InboxEvent.validateHost observation.provider.host = .ok () ∧
      InboxEvent.validateLogin observation.scope.reviewer.login = .ok () ∧
      InboxEvent.validNodeId observation.scope.reviewer.nodeId = true := by
  unfold validateScope at valid
  obtain ⟨host, valid⟩ := Result.check_bind_eq_ok.mp valid
  obtain ⟨lower, valid⟩ := Result.check_bind_eq_ok.mp valid
  obtain ⟨_, valid⟩ := Result.check_bind_eq_ok.mp valid
  have reviewer : validateReviewer observation.scope.reviewer "reviewer_identity_invalid" =
      .ok () := (Result.check_bind_eq_ok.mp valid).1
  obtain ⟨login, node⟩ := validateLogin_of_reviewer reviewer
  exact ⟨validateHost_of_decided host (ensure_eq_ok.mp lower) short, login, node⟩

theorem announce_succeeds
    {entries : List ((CandidateSnapshot × CandidateObservation) × InboxCandidateDecision)}
    (items : ∀ entry ∈ entries, entry.2.status = .actionable →
      ∃ item, actionableItem codec hostname reviewer entry.1.1 entry.1.2 entry.2 = .ok item)
    (reasons : ∀ entry ∈ entries, entry.2.status = .unobservable → entry.2.reason.isSome) :
    ∃ actionable unobservable,
      announce codec hostname reviewer entries = .ok (actionable, unobservable) ∧
      actionable.length = entries.countP (fun entry => entry.2.status = .actionable) ∧
      unobservable.length = entries.countP (fun entry => entry.2.status = .unobservable) := by
  induction entries with
  | nil => exact ⟨[], [], rfl, rfl, rfl⟩
  | cons entry entries ih =>
      rw [List.forall_mem_cons] at items reasons
      obtain ⟨actionable, unobservable, announced, some, others⟩ := ih items.2 reasons.2
      obtain ⟨⟨snapshot, candidate⟩, decision⟩ := entry
      rw [announce, List.countP_cons, List.countP_cons]
      dsimp only at items reasons ⊢
      cases status : decision.status with
      | noEligibleReviews =>
          exact ⟨actionable, unobservable, announced, by simpa [status], by simpa [status]⟩
      | upToDate =>
          exact ⟨actionable, unobservable, announced, by simpa [status], by simpa [status]⟩
      | unobservable =>
          obtain ⟨reason, given⟩ := Option.isSome_iff_exists.mp (reasons.1 status)
          dsimp only
          rw [unobservableItem, given, announced]
          exact ⟨actionable, _ :: unobservable, rfl, by simpa [status], by simpa [status]⟩
      | actionable =>
          obtain ⟨item, made⟩ := items.1 status
          dsimp only
          rw [made, announced]
          exact ⟨item :: actionable, unobservable, rfl, by simpa [status], by simpa [status]⟩

theorem decisionCounts_total (decisions : List InboxCandidateDecision) :
    (decisionCounts decisions).actionable + (decisionCounts decisions).upToDate +
      (decisionCounts decisions).unobservable + (decisionCounts decisions).noEligibleReviews =
        decisions.length := by
  unfold decisionCounts
  induction decisions with
  | nil => rfl
  | cons decision decisions ih =>
      simp only [List.countP_cons, List.length_cons] at ih ⊢
      cases decision.status <;> simp only [reduceCtorEq, decide_true, decide_false, if_true,
        Bool.false_eq_true, if_false] <;> omega

/-- Whatever is decided is announced, as long as it is within the lengths of events, and every
candidate is counted once. -/
theorem materialize_succeeds {client : GhClient} {scopedRepository : Option RepositoryRecord}
    {limit : Nat} {search : SearchConnection}
    {candidates : List (CandidateSnapshot × CandidateObservation)}
    (observed : ∀ pair ∈ candidates, ∃ revalidated,
      candidateObservation pair.1 revalidated actor reviewer = .ok pair.2)
    (decided : (evaluateWithPolicy codec.sha256 (inboxObservation client.hostname actor reviewer
      scopedRepository limit search (candidates.map (·.2))) true).decision.result = "success")
    (digest : ∀ bytes, (codec.sha256 bytes).length = 32)
    (host : client.hostname.utf8ByteSize ≤ 253)
    (printable : ∀ pair ∈ candidates, Printable pair.1) :
    ∃ inbox counts, materialize codec client actor reviewer scopedRepository limit search
        candidates = .ok inbox ∧
      (evaluateWithPolicy codec.sha256 (inboxObservation client.hostname actor reviewer
        scopedRepository limit search (candidates.map (·.2))) true).decision.counts = counts ∧
      counts.actionable + counts.upToDate + counts.unobservable + counts.noEligibleReviews =
        candidates.length := by
  let observation := inboxObservation client.hostname actor reviewer scopedRepository limit search
    (candidates.map (·.2))
  cases evaluated : evaluate codec.sha256 observation true with
  | error code =>
      have policy : evaluateWithPolicy codec.sha256 observation true = ⟨.ofError code, []⟩ := by
        rw [evaluateWithPolicy, evaluated]
      rw [policy] at decided
      exact absurd (show "error" = "success" from decided) (by decide)
  | ok evaluation =>
      have policy : evaluateWithPolicy codec.sha256 observation true = evaluation := by
        rw [evaluateWithPolicy, evaluated]
      obtain ⟨scope, evaluated⟩ := Result.check_bind_eq_ok.mp evaluated
      obtain ⟨_, evaluated⟩ := Result.check_bind_eq_ok.mp evaluated
      obtain ⟨decisions, all, evaluated⟩ := Result.bind_eq_ok.mp evaluated
      obtain rfl := Except.ok.inj evaluated
      have pairs := decideCandidates_forall₂ all
      have length : decisions.length = candidates.length := by
        rw [← pairs.length_eq]
        exact List.length_map ..
      obtain ⟨hostValid, login, node⟩ := scope_facts scope host
      have made (entry) (member : entry ∈ candidates.zip decisions) :
          (∃ revalidated, candidateObservation entry.1.1 revalidated actor reviewer =
            .ok entry.1.2) ∧ Printable entry.1.1 ∧
          decideCandidate codec.sha256 entry.1.2 client.hostname (actorObservation actor)
            ⟨"User", reviewer.login, reviewer.nodeId⟩ (scopedRepository.map repositoryObservation)
            true = .ok entry.2 := by
        have pair := (List.of_mem_zip (a := entry.1) (b := entry.2) member).1
        refine ⟨observed _ pair, printable _ pair, (List.forall₂_iff_zip.mp pairs).2 ?_⟩
        show (entry.1.2, entry.2) ∈ (candidates.map (·.2)).zip decisions
        rw [List.zip_map_left, List.mem_map]
        exact ⟨entry, member, rfl⟩
      have deliverable : ∀ entry ∈ candidates.zip decisions, entry.2.status = .actionable →
          ∃ item, actionableItem codec client.hostname reviewer entry.1.1 entry.1.2 entry.2 =
            .ok item := by
        intro entry member status
        obtain ⟨⟨revalidated, observation⟩, printed, decision⟩ := made entry member
        exact actionableItem_succeeds observation decision status hostValid login node digest
          printed
      obtain ⟨actionable, unobservable, announced, items, others⟩ := announce_succeeds deliverable
        fun entry member status => reason_of_unobservable (made entry member).2.2 status
      have counted (status : InboxCandidateStatus) :
          (candidates.zip decisions).countP (fun entry => entry.2.status = status) =
            decisions.countP fun decision => decision.status = status := by
        conv_rhs => rw [← List.map_snd_zip length.le, List.countP_map]
        rfl
      rw [counted] at items others
      have counts : (InboxDecision.ofCandidates observation.search.hasNextPage decisions).counts =
        decisionCounts decisions := rfl
      have agrees : actionable.length = (decisionCounts decisions).actionable ∧
        unobservable.length = (decisionCounts decisions).unobservable := ⟨items, others⟩
      have total := decisionCounts_total decisions
      unfold materialize
      dsimp only
      rw [show evaluateWithPolicy codec.sha256 (inboxObservation client.hostname actor reviewer
        scopedRepository limit search (candidates.map (·.2))) true = _ from policy]
      dsimp only
      have success : (InboxDecision.ofCandidates observation.search.hasNextPage decisions).result =
        "success" := rfl
      have status : (InboxDecision.ofCandidates observation.search.hasNextPage decisions).status =
        some (decisionStatus observation.search.hasNextPage (decisionCounts decisions)) := rfl
      rw [Result.ensure_of success, Result.ok_bind, Result.ensure_of length, Result.ok_bind,
        announced, Result.ok_bind, status, Result.ofOption_some, Result.ok_bind, counts]
      dsimp only
      rw [Result.ensure_of agrees, Result.ok_bind]
      exact ⟨_, decisionCounts decisions, rfl, rfl, total.trans length⟩

end

end Stratadiff.ReviewInbox
