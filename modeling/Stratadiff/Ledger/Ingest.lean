import Stratadiff.Ledger.Model
import Stratadiff.Lib.Keyed

/-!
# Ingesting webhooks

`ingest_github_webhook` adds one verified delivery and the fact it carries to a ledger.
A loop of the source that fills a set of what it has seen is a recursion that carries
the set.
-/

namespace Stratadiff.Ledger

section

variable (services : Services)

def verifyGithubWebhookSignature (secret payload : Bytes) (signatureHeader : String) :
    Result Unit := do
  Result.ensure (secret ≠ []) (.invalid "GitHub webhook secret must not be empty")
  Result.ensure (payload.length ≤ maxGithubWebhookBytes)
    (.limit ("GitHub webhook payload bytes limit exceeded: observed " ++
      toString payload.length ++ ", limit 8388608"))
  Result.ensure ("sha256=".toList.isPrefixOf signatureHeader.toList = true)
    (.invalid "GitHub webhook signature must use the sha256= prefix")
  let expected ← decodeLowerHex32 (String.ofList (signatureHeader.toList.drop 7))
  Result.ensure (services.hmacSha256 secret payload = expected)
    (.invalid "GitHub webhook signature verification failed")

def ParsedWebhook.kind : ParsedWebhook → Result GithubWebhookKind
  | .review webhook =>
      if webhook.action = "submitted" then .ok .pullRequestReviewSubmitted
      else if webhook.action = "dismissed" then .ok .pullRequestReviewDismissed
      else .error (.invalid
        ("unsupported GitHub pull_request_review action: " ++ webhook.action))
  | .synchronize _ => .ok .pullRequestSynchronize

def ParsedWebhook.identities : ParsedWebhook → RepositoryPayload × PullRequestPayload
  | .review webhook => (webhook.repository, webhook.pullRequest)
  | .synchronize webhook => (webhook.repository, webhook.pullRequest)

def parseWebhook (eventName : String) (payload : Bytes) : Result ParsedWebhook :=
  if eventName = "pull_request_review" then do
    let webhook ← (services.decodeReview payload).mapError fun error =>
      Failure.invalid ("failed to decode GitHub pull_request_review webhook: " ++ error)
    return .review webhook
  else if eventName = "pull_request" then do
    let webhook ← (services.decodeSynchronize payload).mapError fun error =>
      Failure.invalid ("failed to decode GitHub pull_request webhook: " ++ error)
    Result.ensure (webhook.action = "synchronize")
      (.invalid ("unsupported GitHub pull_request action: " ++ webhook.action))
    return .synchronize webhook
  else .error (.invalid ("unsupported GitHub webhook event: " ++ eventName))

/-! ## Facts -/

/-- The state of a submitted review; a comment is none of the completed ones. -/
def submittedState (state : String) : Result (Option CompletedReviewState) :=
  let state := toAsciiLowercase state
  if state = "approved" then .ok (some .approved)
  else if state = "changes_requested" then .ok (some .changesRequested)
  else if state = "commented" then .ok none
  else .error (.invalid ("unsupported submitted GitHub review state: " ++ state))

def submittedReceipt (review : GithubReviewPayload) (deliveryId payloadSha256 : String) :
    Result (Option GithubReviewReceipt) := do
  match ← submittedState review.state with
  | none => return none
  | some state => do
      let user ← Result.ofOption
        (.invalid "completed GitHub review has no reviewer identity") review.user
      Result.ensure (user.accountType = "User")
        (.invalid "completed GitHub review was not submitted by a human user")
      let commitId ← Result.ofOption (.invalid "completed GitHub review has no commit ID")
        review.commitId
      let submittedAt ← Result.ofOption (.invalid "completed GitHub review has no submission time")
        review.submittedAt
      let receipt : GithubReviewReceipt := ⟨review.id, review.nodeId, user.id, user.nodeId,
        user.login, state, commitId, submittedAt, review.htmlUrl, review.authorAssociation,
        deliveryId, payloadSha256, ""⟩
      validateReviewReceipt receipt
      return some { receipt with receiptSha256 := receiptDigest services receipt }

def dismissedReview (review : GithubReviewPayload) (deliveryId receivedAt payloadSha256 : String) :
    Result GithubReviewDismissal := do
  Result.ensure (eqIgnoreAsciiCase review.state "dismissed")
    (.invalid "dismissed review webhook has non-dismissed review state")
  let user ← Result.ofOption (.invalid "dismissed GitHub review has no reviewer identity")
    review.user
  Result.ensure (user.accountType = "User")
    (.invalid "dismissed GitHub review was not submitted by a human user")
  let dismissal : GithubReviewDismissal := ⟨review.id, user.id, user.nodeId, user.login,
    review.commitId, review.submittedAt, deliveryId, receivedAt, payloadSha256⟩
  validateReviewDismissal dismissal
  return dismissal

def observedHead (webhook : PullRequestSynchronizeWebhook)
    (deliveryId receivedAt payloadSha256 : String) : Result GithubHeadObservation := do
  Result.ensure (isSha1 webhook.before) (.invalid "synchronize before is not a full SHA-1")
  Result.ensure (isSha1 webhook.after) (.invalid "synchronize after is not a full SHA-1")
  Result.ensure (webhook.after = webhook.pullRequest.headSha)
    (.invalid "synchronize after does not equal pull request head SHA")
  Result.ensure (isSha1 webhook.pullRequest.baseSha)
    (.invalid "pull request base is not a full SHA-1")
  let observation : GithubHeadObservation := ⟨webhook.before, webhook.after,
    webhook.pullRequest.baseSha, deliveryId, receivedAt, payloadSha256⟩
  validateHeadObservation observation
  return observation

/-- `DerivedFact::from_parsed`; other actions of a review have no kind. -/
def DerivedFact.fromParsed (parsed : ParsedWebhook) (deliveryId receivedAt payloadSha256 : String) :
    Result DerivedFact :=
  match parsed with
  | .review webhook =>
      if webhook.action = "submitted" then do
        match ← submittedReceipt services webhook.review deliveryId payloadSha256 with
        | some receipt => return .reviewReceipt receipt
        | none => return .ignoredReview
      else do
        return .dismissal
          (← dismissedReview webhook.review deliveryId receivedAt payloadSha256)
  | .synchronize webhook => do
      return .headObservation (← observedHead webhook deliveryId receivedAt payloadSha256)

def insertReviewReceipt (ledger : GithubReviewLedger) (receipt : GithubReviewReceipt) :
    Result GithubReviewLedger :=
  match ledger.reviewReceipts.find? fun existing => existing.reviewId = receipt.reviewId with
  | some existing => do
      Result.ensure (existing = receipt) (.invalid ("GitHub review ID " ++
        toString receipt.reviewId ++ " was reused with different immutable fields"))
      return ledger
  | none => do
      Result.ensure (ledger.reviewReceipts.length < maxLedgerReviews)
        (.limit "GitHub ledger review receipt limit exceeded")
      return { ledger with reviewReceipts := ledger.reviewReceipts ++ [receipt] }

def DerivedFact.appendTo (ledger : GithubReviewLedger) : DerivedFact → Result GithubReviewLedger
  | .reviewReceipt fact => insertReviewReceipt ledger fact
  | .dismissal fact => .ok { ledger with dismissals := ledger.dismissals ++ [fact] }
  | .headObservation fact =>
      .ok { ledger with headObservations := ledger.headObservations ++ [fact] }
  | .ignoredReview => .ok ledger

/-! ## The whole ledger -/

def validateDeliveries (scope : Scope) : List String → List GithubWebhookDelivery → Result Unit
  | _, [] => .ok ()
  | seen, delivery :: deliveries => do
      validateDeliveryId delivery.deliveryId
      Result.ensure (delivery.deliveryId ∉ seen)
        (.invalid "duplicate GitHub delivery ID in ledger")
      Result.ensure (validGithubTimestamp delivery.receivedAt)
        (.invalid "invalid GitHub delivery timestamp")
      Result.ensure (isSha256 delivery.payloadSha256) (.invalid "invalid payload SHA-256")
      Result.ensure (delivery.derivedFactSha256.all isSha256)
        (.invalid "invalid derived fact SHA-256")
      verifyDeliverySignature services scope delivery
      validateDeliveries scope (delivery.deliveryId :: seen) deliveries

def deliveryOf (deliveries : List GithubWebhookDelivery) (id unknown : String) :
    Result GithubWebhookDelivery :=
  .ofOption (.invalid unknown) (deliveries.find? fun delivery => delivery.deliveryId = id)

def validateReceipts (deliveries : List GithubWebhookDelivery) :
    List Nat → List String → List GithubReviewReceipt → Result Unit
  | _, _, [] => .ok ()
  | reviewIds, deliveryIds, receipt :: receipts => do
      Result.ensure (receipt.reviewId ∉ reviewIds) (.invalid "duplicate review receipt")
      validateReviewReceipt receipt
      let delivery ← deliveryOf deliveries receipt.sourceDeliveryId
        "review receipt references an unknown delivery"
      Result.ensure (delivery.kind = .pullRequestReviewSubmitted)
        (.invalid "review receipt references a non-submitted delivery")
      Result.ensure (receipt.sourceDeliveryId ∉ deliveryIds)
        (.invalid "submitted delivery has multiple review receipts")
      Result.ensure (receipt.payloadSha256 = delivery.payloadSha256)
        (.invalid "review receipt does not match its submitted delivery")
      Result.ensure (receipt.receiptSha256 = receiptDigest services receipt)
        (.invalid "review receipt digest mismatch")
      Result.ensure (delivery.derivedFactSha256 = some (receiptDigest services receipt))
        (.invalid "review receipt does not match its signed delivery fact")
      validateReceipts deliveries (receipt.reviewId :: reviewIds)
        (receipt.sourceDeliveryId :: deliveryIds) receipts

/-- Whether a dismissal is one of the review that a receipt is of. -/
def dismissalMatches (dismissal : GithubReviewDismissal) (receipt : GithubReviewReceipt) : Bool :=
  receipt.reviewerId = dismissal.reviewerId &&
    receipt.reviewerNodeId = dismissal.reviewerNodeId &&
    eqIgnoreAsciiCase receipt.reviewerLogin dismissal.reviewerLogin &&
    dismissal.commitId.all (fun commitId => receipt.commitId = commitId) &&
    dismissal.submittedAt.all fun submittedAt => receipt.submittedAt = submittedAt

def validateDismissals (deliveries : List GithubWebhookDelivery)
    (receipts : List GithubReviewReceipt) : List String → List GithubReviewDismissal → Result Unit
  | _, [] => .ok ()
  | deliveryIds, dismissal :: dismissals => do
      validateReviewDismissal dismissal
      let delivery ← deliveryOf deliveries dismissal.sourceDeliveryId
        "review dismissal references an unknown delivery"
      Result.ensure (delivery.kind = .pullRequestReviewDismissed)
        (.invalid "review dismissal references a non-dismissed delivery")
      Result.ensure (dismissal.sourceDeliveryId ∉ deliveryIds)
        (.invalid "dismissed delivery has multiple review dismissals")
      Result.ensure (dismissal.receivedAt = delivery.receivedAt ∧
          dismissal.payloadSha256 = delivery.payloadSha256)
        (.invalid "review dismissal does not match its dismissed delivery")
      Result.ensure (delivery.derivedFactSha256 = some (dismissalDigest services dismissal))
        (.invalid "review dismissal does not match its signed delivery fact")
      Result.ensure ((receipts.find? fun receipt => receipt.reviewId = dismissal.reviewId).all
          (dismissalMatches dismissal))
        (.invalid "review dismissal conflicts with its immutable receipt")
      validateDismissals deliveries receipts (dismissal.sourceDeliveryId :: deliveryIds) dismissals

def validateHeads (deliveries : List GithubWebhookDelivery) :
    List String → List GithubHeadObservation → Result Unit
  | _, [] => .ok ()
  | deliveryIds, head :: heads => do
      validateHeadObservation head
      let delivery ← deliveryOf deliveries head.sourceDeliveryId
        "head observation references an unknown delivery"
      Result.ensure (delivery.kind = .pullRequestSynchronize)
        (.invalid "head observation references a non-synchronize delivery")
      Result.ensure (head.sourceDeliveryId ∉ deliveryIds)
        (.invalid "synchronize delivery has multiple head observations")
      Result.ensure (head.receivedAt = delivery.receivedAt ∧
          head.payloadSha256 = delivery.payloadSha256)
        (.invalid "head observation does not match its synchronize delivery")
      Result.ensure (delivery.derivedFactSha256 = some (headObservationDigest services head))
        (.invalid "head observation does not match its signed delivery fact")
      validateHeads deliveries (head.sourceDeliveryId :: deliveryIds) heads

/-- Each delivery has the fact of its kind. -/
def validateFacts (ledger : GithubReviewLedger) (delivery : GithubWebhookDelivery) : Result Unit :=
  let receiptDeliveryIds := ledger.reviewReceipts.map (·.sourceDeliveryId)
  match delivery.kind with
  | .pullRequestReviewSubmitted =>
      if delivery.derivedFactSha256.isSome then
        .ensure (delivery.deliveryId ∈ receiptDeliveryIds)
          (.invalid "submitted delivery is missing its review receipt")
      else
        .ensure (delivery.deliveryId ∉ receiptDeliveryIds)
          (.invalid "ignored submitted delivery has a review receipt")
  | .pullRequestReviewDismissed => do
      Result.ensure (delivery.derivedFactSha256.isSome)
        (.invalid "dismissed delivery is missing its signed fact digest")
      Result.ensure (delivery.deliveryId ∈ ledger.dismissals.map (·.sourceDeliveryId))
        (.invalid "dismissed delivery is missing its review dismissal")
  | .pullRequestSynchronize => do
      Result.ensure (delivery.derivedFactSha256.isSome)
        (.invalid "synchronize delivery is missing its signed fact digest")
      Result.ensure (delivery.deliveryId ∈ ledger.headObservations.map (·.sourceDeliveryId))
        (.invalid "synchronize delivery is missing its head observation")

def GithubReviewLedger.validate (ledger : GithubReviewLedger) : Result Unit := do
  Result.ensure (ledger.schema = githubReviewLedgerSchema)
    (.invalid "unsupported GitHub review ledger schema")
  validateProviderUrl ledger.providerUrl
  validateRepositoryIdentity ledger.repository
  validatePullRequestIdentity ledger.pullRequest
  validateReceiverIdentity ledger.receiver
  Result.ensure (ledger.deliveries.length ≤ maxLedgerDeliveries)
    (.limit "GitHub ledger delivery limit exceeded")
  Result.ensure (ledger.reviewReceipts.length ≤ maxLedgerReviews)
    (.limit "GitHub ledger review receipt limit exceeded")
  validateDeliveries services ledger.toScope [] ledger.deliveries
  validateReceipts services ledger.deliveries [] [] ledger.reviewReceipts
  validateDismissals services ledger.deliveries ledger.reviewReceipts [] ledger.dismissals
  validateHeads services ledger.deliveries [] ledger.headObservations
  ledger.deliveries.forM (validateFacts ledger)
  verifyLedgerSnapshot services ledger

def GithubReviewLedger.sort (ledger : GithubReviewLedger) : GithubReviewLedger :=
  { ledger with
    deliveries := Keyed.sorted (·.deliveryId) ledger.deliveries
    reviewReceipts := Keyed.sorted (·.reviewId) ledger.reviewReceipts
    dismissals := Keyed.sorted (fun dismissal =>
      toLex (dismissal.reviewId, dismissal.sourceDeliveryId)) ledger.dismissals
    headObservations := Keyed.sorted (·.sourceDeliveryId) ledger.headObservations }

/-! ## Ingest -/

/-- What is known of a delivery before the ledger is opened. -/
structure Opened where
  scope : Scope
  kind : GithubWebhookKind
  payloadSha256 : String
  parsed : ParsedWebhook
  deriving DecidableEq, Repr

def openDelivery (ingest : GithubWebhookIngest) : Result Opened := do
  validateProviderUrl ingest.providerUrl
  validateDeliveryId ingest.deliveryId
  validateReceiverKeyId ingest.receiverKeyId
  Result.ensure (validGithubTimestamp ingest.receivedAt) (.invalid
    "GitHub webhook received_at must be an RFC 3339 UTC timestamp with second precision")
  verifyGithubWebhookSignature services ingest.secret ingest.payload ingest.signatureHeader
  let payloadSha256 := hexSha256 services ingest.payload
  let parsed ← parseWebhook services ingest.eventName ingest.payload
  let kind ← parsed.kind
  let (repository, pullRequest) := parsed.identities
  validateRepository repository
  validatePullRequest pullRequest
  let receiver : ReceiverIdentity := ⟨"ed25519", ingest.receiverKeyId,
    encodeHex (services.verifyingKey ingest.receiverSigningKey)⟩
  return ⟨⟨ingest.providerUrl, repositoryIdentity repository, pullRequestIdentity pullRequest,
    receiver⟩, kind, payloadSha256, parsed⟩

/-- The ledger before its first delivery. -/
def emptyLedger (scope : Scope) : GithubReviewLedger :=
  ⟨scope, githubReviewLedgerSchema, [], [], [], [], ⟨0, 0, 0, 0, 0, "", ""⟩⟩

def openLedger (scope : Scope) : Option GithubReviewLedger → Result GithubReviewLedger
  | some ledger => do
      ledger.validate services
      Result.ensure (ledger.providerUrl = scope.providerUrl)
        (.invalid "GitHub provider URL changed")
      Result.ensure (ledger.repository = scope.repository)
        (.invalid "GitHub webhook repository identity changed")
      Result.ensure (ledger.pullRequest = scope.pullRequest)
        (.invalid "GitHub webhook pull request identity changed")
      Result.ensure (ledger.receiver = scope.receiver)
        (.invalid "receiver signing identity changed")
      return ledger
  | none => .ok (emptyLedger scope)

/-- The delivery that a ledger keeps, with its signature. -/
def signedDelivery (ingest : GithubWebhookIngest) (opened : Opened) (fact : DerivedFact)
    (scope : Scope) : GithubWebhookDelivery :=
  let delivery : GithubWebhookDelivery := ⟨ingest.deliveryId, opened.kind, ingest.receivedAt,
    opened.payloadSha256, fact.digest services, ""⟩
  { delivery with
    receiverSignature := signDelivery services scope delivery ingest.receiverSigningKey }

def ingestGithubWebhook (ledger : Option GithubReviewLedger) (ingest : GithubWebhookIngest) :
    Result (GithubReviewLedger × IngestOutcome) := do
  let opened ← openDelivery services ingest
  let ledger ← openLedger services opened.scope ledger
  match ledger.deliveries.find? fun existing => existing.deliveryId = ingest.deliveryId with
  | some existing => do
      Result.ensure (existing.kind = opened.kind ∧
          existing.payloadSha256 = opened.payloadSha256)
        (.invalid ("GitHub delivery ID " ++ ingest.deliveryId ++
          " was reused with different content"))
      return (ledger, .duplicate)
  | none => do
      Result.ensure (ledger.deliveries.length < maxLedgerDeliveries)
        (.limit "GitHub ledger delivery limit exceeded")
      let fact ← DerivedFact.fromParsed services opened.parsed ingest.deliveryId
        ingest.receivedAt opened.payloadSha256
      let delivery := signedDelivery services ingest opened fact ledger.toScope
      let appended ← fact.appendTo ledger
      let pushed := { appended with deliveries := appended.deliveries ++ [delivery] }
      let revision ← Result.ofOption (.invalid "GitHub ledger snapshot revision overflow")
        (checkedAdd ledger.snapshot.revision 1)
      let signed := signLedgerSnapshot services pushed.sort revision ingest.receiverSigningKey
      signed.validate services
      return (signed, .applied)

end

end Stratadiff.Ledger
