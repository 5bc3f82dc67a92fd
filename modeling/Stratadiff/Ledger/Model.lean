import Stratadiff.Cache.Model

/-!
# The review ledger

The types of `ledger.rs`, the checks of its single records, and the texts that are
hashed and signed. SHA-256, HMAC, Ed25519 and `serde_json` are outside; `Services.Lawful`
is what a ledger relies on of the signatures and digests.

A struct that is written as JSON is the object of its fields in their order.
-/

namespace Stratadiff.Ledger

inductive GithubWebhookKind where
  | pullRequestReviewSubmitted
  | pullRequestReviewDismissed
  | pullRequestSynchronize
  deriving DecidableEq, Repr

def GithubWebhookKind.name : GithubWebhookKind → String
  | pullRequestReviewSubmitted => "pull_request_review_submitted"
  | pullRequestReviewDismissed => "pull_request_review_dismissed"
  | pullRequestSynchronize => "pull_request_synchronize"

inductive CompletedReviewState where
  | approved
  | changesRequested
  deriving DecidableEq, Repr

def CompletedReviewState.name : CompletedReviewState → String
  | approved => "approved"
  | changesRequested => "changes_requested"

structure GithubRepositoryIdentity where
  id : Nat
  nodeId : String
  fullName : String
  deriving DecidableEq, Inhabited, Repr

structure GithubPullRequestIdentity where
  id : Nat
  nodeId : String
  number : Nat
  deriving DecidableEq, Inhabited, Repr

structure GithubWebhookDelivery where
  deliveryId : String
  kind : GithubWebhookKind
  receivedAt : String
  payloadSha256 : String
  derivedFactSha256 : Option String
  receiverSignature : String
  deriving DecidableEq, Repr

structure ReceiverIdentity where
  algorithm : String
  keyId : String
  publicKey : String
  deriving DecidableEq, Inhabited, Repr

structure GithubReviewReceipt where
  reviewId : Nat
  reviewNodeId : String
  reviewerId : Nat
  reviewerNodeId : String
  reviewerLogin : String
  state : CompletedReviewState
  commitId : String
  submittedAt : String
  htmlUrl : String
  authorAssociation : String
  sourceDeliveryId : String
  payloadSha256 : String
  receiptSha256 : String
  deriving DecidableEq, Repr

structure GithubReviewDismissal where
  reviewId : Nat
  reviewerId : Nat
  reviewerNodeId : String
  reviewerLogin : String
  commitId : Option String
  submittedAt : Option String
  sourceDeliveryId : String
  receivedAt : String
  payloadSha256 : String
  deriving DecidableEq, Repr

structure GithubHeadObservation where
  beforeCommit : String
  headCommit : String
  baseCommit : String
  sourceDeliveryId : String
  receivedAt : String
  payloadSha256 : String
  deriving DecidableEq, Repr

structure GithubLedgerSnapshot where
  revision : Nat
  deliveryCount : Nat
  reviewReceiptCount : Nat
  dismissalCount : Nat
  headObservationCount : Nat
  bodySha256 : String
  receiverSignature : String
  deriving DecidableEq, Repr

/-- Whose ledger it is. -/
structure Scope where
  providerUrl : String
  repository : GithubRepositoryIdentity
  pullRequest : GithubPullRequestIdentity
  receiver : ReceiverIdentity
  deriving DecidableEq, Inhabited, Repr

structure GithubReviewLedger extends Scope where
  schema : String
  deliveries : List GithubWebhookDelivery
  reviewReceipts : List GithubReviewReceipt
  dismissals : List GithubReviewDismissal
  headObservations : List GithubHeadObservation
  snapshot : GithubLedgerSnapshot
  deriving DecidableEq, Repr

inductive IngestOutcome where
  | applied
  | duplicate
  deriving DecidableEq, Repr

structure GithubWebhookIngest where
  providerUrl : String
  eventName : String
  deliveryId : String
  receivedAt : String
  signatureHeader : String
  secret : Bytes
  receiverKeyId : String
  receiverSigningKey : Bytes
  payload : Bytes
  deriving DecidableEq, Repr

/-! ## Payloads -/

structure RepositoryPayload where
  id : Nat
  nodeId : String
  fullName : String
  deriving DecidableEq, Repr

structure PullRequestPayload where
  id : Nat
  nodeId : String
  number : Nat
  baseSha : String
  headSha : String
  deriving DecidableEq, Repr

structure GithubUserPayload where
  id : Nat
  nodeId : String
  login : String
  accountType : String
  deriving DecidableEq, Repr

structure GithubReviewPayload where
  id : Nat
  nodeId : String
  user : Option GithubUserPayload
  state : String
  commitId : Option String
  submittedAt : Option String
  htmlUrl : String
  authorAssociation : String
  deriving DecidableEq, Repr

structure PullRequestReviewWebhook where
  action : String
  review : GithubReviewPayload
  pullRequest : PullRequestPayload
  repository : RepositoryPayload
  deriving DecidableEq, Repr

structure PullRequestSynchronizeWebhook where
  action : String
  before : String
  after : String
  pullRequest : PullRequestPayload
  repository : RepositoryPayload
  deriving DecidableEq, Repr

inductive ParsedWebhook where
  | review (webhook : PullRequestReviewWebhook)
  | synchronize (webhook : PullRequestSynchronizeWebhook)
  deriving DecidableEq, Repr

inductive DerivedFact where
  | reviewReceipt (receipt : GithubReviewReceipt)
  | dismissal (dismissal : GithubReviewDismissal)
  | headObservation (observation : GithubHeadObservation)
  | ignoredReview
  deriving DecidableEq, Repr

/-- What a ledger takes from outside. -/
structure Services where
  /-- The 32 bytes of a SHA-256 digest. -/
  sha256 : Bytes → Bytes
  /-- HMAC-SHA-256 of a payload under a secret. -/
  hmacSha256 : Bytes → Bytes → Bytes
  /-- The verifying key of a signing key. -/
  verifyingKey : Bytes → Bytes
  /-- `SigningKey::sign`. -/
  sign : Bytes → Bytes → Bytes
  /-- Why `VerifyingKey::from_bytes` refuses a key. -/
  verifyingKeyError : Bytes → Option String
  /-- `VerifyingKey::verify`. -/
  verify : Bytes → Bytes → Bytes → Bool
  /-- `serde_json::to_vec`. -/
  toVec : Json → Bytes
  /-- `serde_json::from_slice` of a review webhook. -/
  decodeReview : Bytes → Except String PullRequestReviewWebhook
  /-- `serde_json::from_slice` of a synchronize webhook. -/
  decodeSynchronize : Bytes → Except String PullRequestSynchronizeWebhook

/-- What Ed25519 and SHA-256 promise. -/
structure Services.Lawful (services : Services) : Prop where
  verifies : ∀ key message,
    services.verify (services.verifyingKey key) message (services.sign key message) = true
  accepts : ∀ key, services.verifyingKeyError (services.verifyingKey key) = none
  verifyingKeyLength : ∀ key, (services.verifyingKey key).length = 32
  signatureLength : ∀ key message, (services.sign key message).length = 64
  digestLength : ∀ bytes, (services.sha256 bytes).length = 32

/-! ## Constants and texts -/

def githubReviewLedgerSchema : String :=
  "https://raw.githubusercontent.com/gcomfident-crypto/stratadiff/main/schema/" ++
    "github-review-ledger-v1.schema.json"
def maxGithubWebhookBytes : Nat := 8 * 1024 * 1024
def maxLedgerDeliveries : Nat := 10000
def maxLedgerReviews : Nat := 1000
def deliveryAttestationDomain : String := "stratadiff-github-delivery-v2"
def receiptDigestDomain : String := "stratadiff-github-review-receipt-v1"
def dismissalDigestDomain : String := "stratadiff-github-review-dismissal-v1"
def headObservationDigestDomain : String := "stratadiff-github-head-observation-v1"
def ledgerBodyDigestDomain : String := "stratadiff-github-review-ledger-body-v1"
def ledgerSnapshotAttestationDomain : String := "stratadiff-github-review-ledger-snapshot-v1"

/-- `char::is_whitespace`. -/
def isWhitespace (c : Char) : Bool :=
  (9 ≤ c.toNat && c.toNat ≤ 13) || c.toNat = 32 || c.toNat = 0x85 || c.toNat = 0xA0 ||
    c.toNat = 0x1680 || (0x2000 ≤ c.toNat && c.toNat ≤ 0x200A) || c.toNat = 0x2028 ||
    c.toNat = 0x2029 || c.toNat = 0x202F || c.toNat = 0x205F || c.toNat = 0x3000

/-- `str::trim`. -/
def trim (value : String) : String :=
  String.ofList ((value.toList.dropWhile isWhitespace).reverse.dropWhile isWhitespace).reverse

/-- `to_ascii_lowercase`. -/
def toAsciiLowercase (value : String) : String := String.ofList (value.toList.map Char.toLower)

/-- `eq_ignore_ascii_case`. -/
def eqIgnoreAsciiCase (left right : String) : Bool :=
  toAsciiLowercase left = toAsciiLowercase right

/-- `is_sha256`: 64 lowercase hexadecimal digits. -/
def isSha256 (value : String) : Bool :=
  value.toList.length = 64 && value.toList.all fun c => c.isDigit || ('a' ≤ c ∧ c ≤ 'f')

def isAsciiDigit (byte : UInt8) : Bool := 48 ≤ byte && byte ≤ 57

def isAsciiAlphanumeric (byte : UInt8) : Bool :=
  isAsciiDigit byte || (65 ≤ byte && byte ≤ 90) || (97 ≤ byte && byte ≤ 122)

/-- `YYYY-MM-DDTHH:MM:SSZ`, with any digits. -/
def validGithubTimestamp (value : String) : Bool :=
  let bytes := utf8Bytes value
  bytes.length = 20 && bytes.zipIdx.all fun (byte, index) =>
    if index = 4 || index = 7 then byte = 45
    else if index = 10 then byte = 84
    else if index = 13 || index = 16 then byte = 58
    else if index = 19 then byte = 90
    else isAsciiDigit byte

def decodeLowerHexPairs : Bytes → Result Bytes
  | high :: low :: rest => do
      let high ← (hexNibble high).mapError refuse
      let low ← (hexNibble low).mapError refuse
      return UInt8.ofNat (high * 16 + low) :: (← decodeLowerHexPairs rest)
  | _ => .ok []
where
  refuse : Failure → Failure := fun _ =>
    .invalid "GitHub webhook SHA-256 signature must use lowercase hexadecimal"

def decodeLowerHex32 (value : String) : Result Bytes := do
  Result.ensure ((utf8Bytes value).length = 64)
    (.invalid "GitHub webhook SHA-256 signature has the wrong length")
  decodeLowerHexPairs (utf8Bytes value)

def decodeLowerHex64 (value : String) : Result Bytes := do
  Result.ensure ((utf8Bytes value).length = 128)
    (.invalid "receiver Ed25519 signature has the wrong length")
  decodeLowerHexPairs (utf8Bytes value)

section

variable {bytes : Bytes}

/-- The digits of bytes. -/
def hexDigits (bytes : Bytes) : Bytes :=
  bytes.flatMap fun byte => [encodeHexDigit (byte.toNat / 16), encodeHexDigit (byte.toNat % 16)]

theorem hexDigits_lower : ∀ digit ∈ hexDigits bytes, digit < 128 ∧
    (let c := Char.ofNat digit.toNat; c.isDigit || ('a' ≤ c ∧ c ≤ 'f')) = true := by
  have all : ∀ digit : Fin 16, encodeHexDigit digit < 128 ∧
      (let c := Char.ofNat (encodeHexDigit digit).toNat; c.isDigit || ('a' ≤ c ∧ c ≤ 'f')) =
        true := by decide +kernel
  intro digit member
  obtain ⟨byte, _, here⟩ := List.mem_flatMap.mp member
  have high : byte.toNat / 16 < 16 := by have := byte.toNat_lt; omega
  have low : byte.toNat % 16 < 16 := by omega
  simp only [List.mem_cons, List.not_mem_nil, or_false] at here
  obtain rfl | rfl := here
  · exact all ⟨_, high⟩
  · exact all ⟨_, low⟩

theorem utf8Bytes_encodeHex : utf8Bytes (encodeHex bytes) = hexDigits bytes :=
  utf8Bytes_asciiText fun digit member => (hexDigits_lower digit member).1

theorem hexDigits_length : (hexDigits bytes).length = 2 * bytes.length := by
  simp [hexDigits, List.length_flatMap, Nat.mul_comm]

theorem isSha256_encodeHex (h : bytes.length = 32) : isSha256 (encodeHex bytes) = true := by
  have length : (encodeHex bytes).toList.length = 64 := by
    change
      (String.ofList ((hexDigits bytes).map fun digit => Char.ofNat digit.toNat)).toList.length = 64
    rw [String.toList_ofList, List.length_map, hexDigits_length, h]
  have lower : (encodeHex bytes).toList.all (fun c => c.isDigit || ('a' ≤ c ∧ c ≤ 'f')) = true := by
    change (String.ofList ((hexDigits bytes).map fun digit => Char.ofNat digit.toNat)).toList.all
      _ = true
    rw [String.toList_ofList, List.all_map, List.all_eq_true]
    exact fun digit member => (hexDigits_lower digit member).2
  rw [isSha256, lower, Bool.and_true]
  exact decide_eq_true length

theorem decodeLowerHexPairs_hexDigits (bytes : Bytes) :
    decodeLowerHexPairs (hexDigits bytes) = .ok bytes := by
  have nibble : ∀ digit : Fin 16, hexNibble (encodeHexDigit digit) = .ok (digit : Nat) := by
    decide +kernel
  induction bytes with
  | nil => rfl
  | cons byte bytes ih =>
      have high : byte.toNat / 16 < 16 := by have := byte.toNat_lt; omega
      have low : byte.toNat % 16 < 16 := by omega
      have here : UInt8.ofNat (byte.toNat / 16 * 16 + byte.toNat % 16) = byte := by
        rw [Nat.div_add_mod']
        exact UInt8.ofNat_toNat
      change decodeLowerHexPairs (encodeHexDigit (byte.toNat / 16) ::
        encodeHexDigit (byte.toNat % 16) :: hexDigits bytes) = _
      rw [decodeLowerHexPairs, nibble ⟨_, high⟩, nibble ⟨_, low⟩, ih]
      simp only [Except.mapError, Result.ok_bind, here]
      rfl

theorem decodeLowerHex32_encodeHex (h : bytes.length = 32) :
    decodeLowerHex32 (encodeHex bytes) = .ok bytes := by
  rw [decodeLowerHex32, utf8Bytes_encodeHex, hexDigits_length, h, decodeLowerHexPairs_hexDigits]
  rfl

theorem decodeLowerHex64_encodeHex (h : bytes.length = 64) :
    decodeLowerHex64 (encodeHex bytes) = .ok bytes := by
  rw [decodeLowerHex64, utf8Bytes_encodeHex, hexDigits_length, h, decodeLowerHexPairs_hexDigits]
  rfl

end

/-! ## Single records -/

def validateProviderUrl (value : String) : Result Unit :=
  let isPrefix := "https://".toList.isPrefixOf value.toList
  let authority := if isPrefix then value.toList.drop "https://".toList.length else []
  .ensure (authority ≠ [] ∧ '/' ∉ authority ∧ authority.any isWhitespace = false)
    (.invalid "GitHub provider URL must be an HTTPS origin without a path or trailing slash")

def validateDeliveryId (value : String) : Result Unit :=
  let bytes := utf8Bytes value
  .ensure (bytes ≠ [] ∧ bytes.length ≤ 128 ∧
      bytes.all (fun byte => isAsciiAlphanumeric byte || byte = 45) = true)
    (.invalid "GitHub delivery ID is invalid")

def validateReceiverKeyId (value : String) : Result Unit :=
  let bytes := utf8Bytes value
  .ensure (bytes ≠ [] ∧ bytes.length ≤ 128 ∧
      bytes.all (fun byte => isAsciiAlphanumeric byte || byte = 45 || byte = 95 || byte = 46 ||
        byte = 58) = true)
    (.invalid "receiver signing key ID is invalid")

def validateReceiverIdentity (identity : ReceiverIdentity) : Result Unit := do
  Result.ensure (identity.algorithm = "ed25519")
    (.invalid "unsupported receiver signature algorithm")
  validateReceiverKeyId identity.keyId
  let _ ← (decodeLowerHex32 identity.publicKey).mapError
    (·.withContext "receiver Ed25519 public key is invalid: ")
  return ()

def validateRepositoryIdentity (identity : GithubRepositoryIdentity) : Result Unit := do
  Result.ensure (identity.id ≠ 0) (.invalid "GitHub repository ID must not be zero")
  Result.ensure (identity.nodeId ≠ "") (.invalid "GitHub repository node ID is empty")
  Result.ensure ('/' ∈ identity.fullName.toList)
    (.invalid "GitHub repository full name must contain owner/name")

def validatePullRequestIdentity (identity : GithubPullRequestIdentity) : Result Unit := do
  Result.ensure (identity.id ≠ 0) (.invalid "GitHub pull request ID must not be zero")
  Result.ensure (identity.nodeId ≠ "") (.invalid "GitHub pull request node ID is empty")
  Result.ensure (identity.number ≠ 0) (.invalid "GitHub pull request number must not be zero")

def repositoryIdentity (payload : RepositoryPayload) : GithubRepositoryIdentity :=
  ⟨payload.id, payload.nodeId, payload.fullName⟩

def pullRequestIdentity (payload : PullRequestPayload) : GithubPullRequestIdentity :=
  ⟨payload.id, payload.nodeId, payload.number⟩

def validateRepository (payload : RepositoryPayload) : Result Unit :=
  validateRepositoryIdentity (repositoryIdentity payload)

def validatePullRequest (payload : PullRequestPayload) : Result Unit := do
  validatePullRequestIdentity (pullRequestIdentity payload)
  Result.ensure (isSha1 payload.baseSha) (.invalid "pull request base is not a full SHA-1")
  Result.ensure (isSha1 payload.headSha) (.invalid "pull request head is not a full SHA-1")

def validateReviewReceipt (receipt : GithubReviewReceipt) : Result Unit := do
  Result.ensure (receipt.reviewId ≠ 0) (.invalid "GitHub review ID must not be zero")
  Result.ensure (receipt.reviewerId ≠ 0) (.invalid "GitHub reviewer ID must not be zero")
  Result.ensure (receipt.reviewNodeId ≠ "") (.invalid "GitHub review node ID is empty")
  Result.ensure (receipt.reviewerNodeId ≠ "") (.invalid "GitHub reviewer node ID is empty")
  Result.ensure (receipt.reviewerLogin ≠ "") (.invalid "GitHub reviewer login is empty")
  Result.ensure (trim receipt.reviewerLogin = receipt.reviewerLogin)
    (.invalid "GitHub reviewer login contains surrounding whitespace")
  Result.ensure (isSha1 receipt.commitId) (.invalid "GitHub review commit is not a full SHA-1")
  Result.ensure (validGithubTimestamp receipt.submittedAt)
    (.invalid "GitHub review submission time is invalid")
  Result.ensure (receipt.htmlUrl ≠ "") (.invalid "GitHub review URL is empty")
  Result.ensure (receipt.authorAssociation ≠ "")
    (.invalid "GitHub review author association is empty")
  validateDeliveryId receipt.sourceDeliveryId
  Result.ensure (isSha256 receipt.payloadSha256) (.invalid "invalid payload SHA-256")
  Result.ensure (receipt.receiptSha256 = "" ∨ isSha256 receipt.receiptSha256)
    (.invalid "invalid review receipt SHA-256")

def validateReviewDismissal (dismissal : GithubReviewDismissal) : Result Unit := do
  Result.ensure (dismissal.reviewId ≠ 0) (.invalid "GitHub review ID must not be zero")
  Result.ensure (dismissal.reviewerId ≠ 0) (.invalid "GitHub reviewer ID must not be zero")
  Result.ensure (dismissal.reviewerNodeId ≠ "") (.invalid "GitHub reviewer node ID is empty")
  Result.ensure (dismissal.reviewerLogin ≠ "") (.invalid "GitHub reviewer login is empty")
  Result.ensure (trim dismissal.reviewerLogin = dismissal.reviewerLogin)
    (.invalid "GitHub reviewer login contains surrounding whitespace")
  Result.ensure (dismissal.commitId.all isSha1)
    (.invalid "dismissed GitHub review commit is not a full SHA-1")
  Result.ensure (dismissal.submittedAt.all validGithubTimestamp)
    (.invalid "dismissed GitHub review submission time is invalid")
  validateDeliveryId dismissal.sourceDeliveryId
  Result.ensure (validGithubTimestamp dismissal.receivedAt)
    (.invalid "invalid review dismissal timestamp")
  Result.ensure (isSha256 dismissal.payloadSha256) (.invalid "invalid payload SHA-256")

def validateHeadObservation (observation : GithubHeadObservation) : Result Unit := do
  Result.ensure (isSha1 observation.beforeCommit ∧ isSha1 observation.headCommit ∧
    isSha1 observation.baseCommit) (.invalid "head observation contains an invalid commit ID")
  validateDeliveryId observation.sourceDeliveryId
  Result.ensure (validGithubTimestamp observation.receivedAt)
    (.invalid "invalid head observation timestamp")
  Result.ensure (isSha256 observation.payloadSha256) (.invalid "invalid payload SHA-256")

/-! ## Digests and signatures -/

section

variable (services : Services)

def hexSha256 (bytes : Bytes) : String := encodeHex (services.sha256 bytes)

/-- An absent text is `null`. -/
def optionalString : Option String → Json
  | none => .null
  | some text => .string text

def receiptDigest (receipt : GithubReviewReceipt) : String :=
  hexSha256 services (services.toVec (.object [
    ("domain", .string receiptDigestDomain), ("review_id", .ofNat receipt.reviewId),
    ("review_node_id", .string receipt.reviewNodeId), ("reviewer_id", .ofNat receipt.reviewerId),
    ("reviewer_node_id", .string receipt.reviewerNodeId),
    ("reviewer_login", .string receipt.reviewerLogin), ("state", .string receipt.state.name),
    ("commit_id", .string receipt.commitId), ("submitted_at", .string receipt.submittedAt),
    ("html_url", .string receipt.htmlUrl),
    ("author_association", .string receipt.authorAssociation),
    ("source_delivery_id", .string receipt.sourceDeliveryId),
    ("payload_sha256", .string receipt.payloadSha256)]))

def dismissalDigest (dismissal : GithubReviewDismissal) : String :=
  hexSha256 services (services.toVec (.object [
    ("domain", .string dismissalDigestDomain), ("review_id", .ofNat dismissal.reviewId),
    ("reviewer_id", .ofNat dismissal.reviewerId),
    ("reviewer_node_id", .string dismissal.reviewerNodeId),
    ("reviewer_login", .string dismissal.reviewerLogin),
    ("commit_id", optionalString dismissal.commitId),
    ("submitted_at", optionalString dismissal.submittedAt),
    ("source_delivery_id", .string dismissal.sourceDeliveryId),
    ("received_at", .string dismissal.receivedAt),
    ("payload_sha256", .string dismissal.payloadSha256)]))

def headObservationDigest (observation : GithubHeadObservation) : String :=
  hexSha256 services (services.toVec (.object [
    ("domain", .string headObservationDigestDomain),
    ("before_commit", .string observation.beforeCommit),
    ("head_commit", .string observation.headCommit),
    ("base_commit", .string observation.baseCommit),
    ("source_delivery_id", .string observation.sourceDeliveryId),
    ("received_at", .string observation.receivedAt),
    ("payload_sha256", .string observation.payloadSha256)]))

def DerivedFact.digest : DerivedFact → Option String
  | .reviewReceipt fact => some (receiptDigest services fact)
  | .dismissal fact => some (dismissalDigest services fact)
  | .headObservation fact => some (headObservationDigest services fact)
  | .ignoredReview => none

def GithubRepositoryIdentity.json (identity : GithubRepositoryIdentity) : Json :=
  .object [("id", .ofNat identity.id), ("node_id", .string identity.nodeId),
    ("full_name", .string identity.fullName)]

def GithubPullRequestIdentity.json (identity : GithubPullRequestIdentity) : Json :=
  .object [("id", .ofNat identity.id), ("node_id", .string identity.nodeId),
    ("number", .ofNat identity.number)]

def ReceiverIdentity.json (identity : ReceiverIdentity) : Json :=
  .object [("algorithm", .string identity.algorithm), ("key_id", .string identity.keyId),
    ("public_key", .string identity.publicKey)]

def GithubWebhookDelivery.json (delivery : GithubWebhookDelivery) : Json :=
  .object [("delivery_id", .string delivery.deliveryId), ("kind", .string delivery.kind.name),
    ("received_at", .string delivery.receivedAt),
    ("payload_sha256", .string delivery.payloadSha256),
    ("derived_fact_sha256", optionalString delivery.derivedFactSha256),
    ("receiver_signature", .string delivery.receiverSignature)]

def GithubReviewReceipt.json (receipt : GithubReviewReceipt) : Json :=
  .object [("review_id", .ofNat receipt.reviewId), ("review_node_id", .string receipt.reviewNodeId),
    ("reviewer_id", .ofNat receipt.reviewerId),
    ("reviewer_node_id", .string receipt.reviewerNodeId),
    ("reviewer_login", .string receipt.reviewerLogin), ("state", .string receipt.state.name),
    ("commit_id", .string receipt.commitId), ("submitted_at", .string receipt.submittedAt),
    ("html_url", .string receipt.htmlUrl),
    ("author_association", .string receipt.authorAssociation),
    ("source_delivery_id", .string receipt.sourceDeliveryId),
    ("payload_sha256", .string receipt.payloadSha256),
    ("receipt_sha256", .string receipt.receiptSha256)]

def GithubReviewDismissal.json (dismissal : GithubReviewDismissal) : Json :=
  .object [("review_id", .ofNat dismissal.reviewId), ("reviewer_id", .ofNat dismissal.reviewerId),
    ("reviewer_node_id", .string dismissal.reviewerNodeId),
    ("reviewer_login", .string dismissal.reviewerLogin),
    ("commit_id", optionalString dismissal.commitId),
    ("submitted_at", optionalString dismissal.submittedAt),
    ("source_delivery_id", .string dismissal.sourceDeliveryId),
    ("received_at", .string dismissal.receivedAt),
    ("payload_sha256", .string dismissal.payloadSha256)]

def GithubHeadObservation.json (observation : GithubHeadObservation) : Json :=
  .object [("before_commit", .string observation.beforeCommit),
    ("head_commit", .string observation.headCommit),
    ("base_commit", .string observation.baseCommit),
    ("source_delivery_id", .string observation.sourceDeliveryId),
    ("received_at", .string observation.receivedAt),
    ("payload_sha256", .string observation.payloadSha256)]

def deliveryAttestationMessage (scope : Scope) (delivery : GithubWebhookDelivery) : Bytes :=
  services.toVec (.object [
    ("domain", .string deliveryAttestationDomain),
    ("receiver_key_id", .string scope.receiver.keyId),
    ("receiver_public_key", .string scope.receiver.publicKey),
    ("provider_url", .string scope.providerUrl), ("repository", scope.repository.json),
    ("pull_request", scope.pullRequest.json), ("delivery_id", .string delivery.deliveryId),
    ("kind", .string delivery.kind.name), ("received_at", .string delivery.receivedAt),
    ("payload_sha256", .string delivery.payloadSha256),
    ("derived_fact_sha256", optionalString delivery.derivedFactSha256)])

def ledgerBodyDigest (ledger : GithubReviewLedger) : String :=
  hexSha256 services (services.toVec (.object [
    ("domain", .string ledgerBodyDigestDomain), ("schema", .string ledger.schema),
    ("provider_url", .string ledger.providerUrl), ("repository", ledger.repository.json),
    ("pull_request", ledger.pullRequest.json), ("receiver", ledger.receiver.json),
    ("deliveries", .array (ledger.deliveries.map (·.json))),
    ("review_receipts", .array (ledger.reviewReceipts.map (·.json))),
    ("dismissals", .array (ledger.dismissals.map (·.json))),
    ("head_observations", .array (ledger.headObservations.map (·.json)))]))

def ledgerSnapshotAttestationMessage (receiver : ReceiverIdentity)
    (snapshot : GithubLedgerSnapshot) : Bytes :=
  services.toVec (.object [
    ("domain", .string ledgerSnapshotAttestationDomain),
    ("receiver_key_id", .string receiver.keyId),
    ("receiver_public_key", .string receiver.publicKey), ("revision", .ofNat snapshot.revision),
    ("delivery_count", .ofNat snapshot.deliveryCount),
    ("review_receipt_count", .ofNat snapshot.reviewReceiptCount),
    ("dismissal_count", .ofNat snapshot.dismissalCount),
    ("head_observation_count", .ofNat snapshot.headObservationCount),
    ("body_sha256", .string snapshot.bodySha256)])

/-- `sign_delivery`. -/
def signDelivery (scope : Scope) (delivery : GithubWebhookDelivery) (signingKey : Bytes) : String :=
  encodeHex (services.sign signingKey (deliveryAttestationMessage services scope delivery))

/-- The check of a signature over a message by the receiver of a ledger. -/
def verifyReceiverSignature (receiver : ReceiverIdentity) (signature : String) (message : Bytes)
    (signatureContext failed : String) : Result Unit := do
  let publicKey ← (decodeLowerHex32 receiver.publicKey).mapError
    (·.withContext "receiver Ed25519 public key is invalid: ")
  match services.verifyingKeyError publicKey with
  | some error => .error (.invalid ("receiver Ed25519 public key is not valid: " ++ error))
  | none => do
      let signatureBytes ← (decodeLowerHex64 signature).mapError (·.withContext signatureContext)
      Result.ensure (services.verify publicKey message signatureBytes = true) (.invalid failed)

def verifyDeliverySignature (scope : Scope) (delivery : GithubWebhookDelivery) : Result Unit :=
  verifyReceiverSignature services scope.receiver delivery.receiverSignature
    (deliveryAttestationMessage services scope delivery) "receiver Ed25519 signature is invalid: "
    "receiver delivery attestation verification failed"

def signLedgerSnapshot (ledger : GithubReviewLedger) (revision : Nat) (signingKey : Bytes) :
    GithubReviewLedger :=
  let snapshot : GithubLedgerSnapshot := ⟨revision, ledger.deliveries.length,
    ledger.reviewReceipts.length, ledger.dismissals.length, ledger.headObservations.length,
    ledgerBodyDigest services ledger, ""⟩
  let message := ledgerSnapshotAttestationMessage services ledger.receiver snapshot
  { ledger with
    snapshot :=
      { snapshot with receiverSignature := encodeHex (services.sign signingKey message) } }

def verifyLedgerSnapshot (ledger : GithubReviewLedger) : Result Unit := do
  let snapshot := ledger.snapshot
  Result.ensure (snapshot.revision ≠ 0) (.invalid "GitHub ledger snapshot revision is zero")
  Result.ensure (snapshot.deliveryCount = ledger.deliveries.length ∧
      snapshot.reviewReceiptCount = ledger.reviewReceipts.length ∧
      snapshot.dismissalCount = ledger.dismissals.length ∧
      snapshot.headObservationCount = ledger.headObservations.length)
    (.invalid "GitHub ledger snapshot counts do not match its body")
  Result.ensure (isSha256 snapshot.bodySha256) (.invalid "invalid GitHub ledger body SHA-256")
  Result.ensure (snapshot.bodySha256 = ledgerBodyDigest services ledger)
    (.invalid "GitHub ledger snapshot body digest mismatch")
  verifyReceiverSignature services ledger.receiver snapshot.receiverSignature
    (ledgerSnapshotAttestationMessage services ledger.receiver snapshot)
    "receiver ledger snapshot signature is invalid: "
    "receiver ledger snapshot attestation verification failed"

end

/-! ## Digests of samples

A sample has a table of the digests of the texts it needs. -/

namespace Sample

/-- What the texts are told apart by. -/
def fingerprint (bytes : Bytes) : Nat :=
  bytes.foldl (fun sum byte => (sum * 257 + byte.toNat) % 4294967296) 0

def fromHex (text : String) : Bytes :=
  ((decodeLowerHexPairs (utf8Bytes text)).toOption).getD []

/-- The entry of a table for some bytes, in a fixed width. -/
def entry (table : List (Nat × String)) (width : Nat) (bytes : Bytes) : Bytes :=
  (fromHex ((table.lookup (fingerprint bytes)).getD "") ++ List.replicate width 0).take width

theorem entry_length {table : List (Nat × String)} {width : Nat} {bytes : Bytes} :
    (entry table width bytes).length = width := by
  simp [entry]

end Sample

end Stratadiff.Ledger
