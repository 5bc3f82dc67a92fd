import Stratadiff.Ledger.Ingest

/-!
# When a ledger is valid

What the loops of `validate` check, and what a delivery that was opened brings with it.
The ledger that some deliveries make is valid when the facts of different deliveries
agree: no review has two receipts, and a dismissal fits the receipt of its review.
-/

namespace Stratadiff.Ledger

variable {services : Services}

/-! ## The loops -/

theorem validateDeliveries_eq_ok {scope : Scope} {seen : List String}
    {deliveries : List GithubWebhookDelivery} :
    validateDeliveries services scope seen deliveries = .ok () ↔
      Keyed.Fresh (·.deliveryId) seen deliveries ∧ ∀ delivery ∈ deliveries,
        validateDeliveryId delivery.deliveryId = .ok () ∧
        validGithubTimestamp delivery.receivedAt = true ∧
        isSha256 delivery.payloadSha256 = true ∧
        delivery.derivedFactSha256.all isSha256 = true ∧
        verifyDeliverySignature services scope delivery = .ok () := by
  induction deliveries generalizing seen with
  | nil => simp [validateDeliveries, Keyed.fresh_nil]
  | cons delivery deliveries ih =>
      simp only [validateDeliveries, Result.check_bind_eq_ok, Result.ensure_eq_ok, ih,
        Keyed.fresh_cons, List.forall_mem_cons]
      constructor
      · rintro ⟨id, fresh, time, payload, fact, signature, others, rest⟩
        exact ⟨⟨fresh, others⟩, ⟨id, time, payload, fact, signature⟩, rest⟩
      · rintro ⟨⟨fresh, others⟩, ⟨id, time, payload, fact, signature⟩, rest⟩
        exact ⟨id, fresh, time, payload, fact, signature, others, rest⟩

/-- The delivery that a fact refers to. -/
def Refers (deliveries : List GithubWebhookDelivery) (id : String)
    (P : GithubWebhookDelivery → Prop) : Prop :=
  ∃ delivery, deliveries.find? (fun delivery => delivery.deliveryId = id) = some delivery ∧
    P delivery

theorem validateReceipts_eq_ok {deliveries : List GithubWebhookDelivery} {reviewIds : List Nat}
    {deliveryIds : List String} {receipts : List GithubReviewReceipt} :
    validateReceipts services deliveries reviewIds deliveryIds receipts = .ok () ↔
      Keyed.Fresh (·.reviewId) reviewIds receipts ∧
      Keyed.Fresh (·.sourceDeliveryId) deliveryIds receipts ∧
      ∀ receipt ∈ receipts, validateReviewReceipt receipt = .ok () ∧
        Refers deliveries receipt.sourceDeliveryId fun delivery =>
          delivery.kind = .pullRequestReviewSubmitted ∧
          receipt.payloadSha256 = delivery.payloadSha256 ∧
          receipt.receiptSha256 = receiptDigest services receipt ∧
          delivery.derivedFactSha256 = some (receiptDigest services receipt) := by
  induction receipts generalizing reviewIds deliveryIds with
  | nil => simp [validateReceipts, Keyed.fresh_nil]
  | cons receipt receipts ih =>
      simp only [validateReceipts, deliveryOf, Result.check_bind_eq_ok, Result.ofOption_bind_eq_ok,
        Result.ensure_eq_ok, ih, Keyed.fresh_cons, List.forall_mem_cons]
      constructor
      · rintro ⟨review, valid, delivery, found, kind, fresh, payload, digest, fact, reviews,
          sources, rest⟩
        exact ⟨⟨review, reviews⟩, ⟨fresh, sources⟩,
          ⟨valid, delivery, found, kind, payload, digest, fact⟩, rest⟩
      · rintro ⟨⟨review, reviews⟩, ⟨fresh, sources⟩,
          ⟨valid, delivery, found, kind, payload, digest, fact⟩, rest⟩
        exact ⟨review, valid, delivery, found, kind, fresh, payload, digest, fact, reviews, sources,
          rest⟩

theorem validateDismissals_eq_ok {deliveries : List GithubWebhookDelivery}
    {receipts : List GithubReviewReceipt} {deliveryIds : List String}
    {dismissals : List GithubReviewDismissal} :
    validateDismissals services deliveries receipts deliveryIds dismissals = .ok () ↔
      Keyed.Fresh (·.sourceDeliveryId) deliveryIds dismissals ∧
      ∀ dismissal ∈ dismissals, validateReviewDismissal dismissal = .ok () ∧
        (Refers deliveries dismissal.sourceDeliveryId fun delivery =>
          delivery.kind = .pullRequestReviewDismissed ∧
          (dismissal.receivedAt = delivery.receivedAt ∧
            dismissal.payloadSha256 = delivery.payloadSha256) ∧
          delivery.derivedFactSha256 = some (dismissalDigest services dismissal)) ∧
        (receipts.find? fun receipt => receipt.reviewId = dismissal.reviewId).all
          (dismissalMatches dismissal) = true := by
  induction dismissals generalizing deliveryIds with
  | nil => simp [validateDismissals, Keyed.fresh_nil]
  | cons dismissal dismissals ih =>
      simp only [validateDismissals, deliveryOf, Result.check_bind_eq_ok,
        Result.ofOption_bind_eq_ok, Result.ensure_eq_ok, ih, Keyed.fresh_cons, List.forall_mem_cons]
      constructor
      · rintro ⟨valid, delivery, found, kind, fresh, same, fact, fits, sources, rest⟩
        exact ⟨⟨fresh, sources⟩, ⟨valid, ⟨delivery, found, kind, same, fact⟩, fits⟩, rest⟩
      · rintro ⟨⟨fresh, sources⟩, ⟨valid, ⟨delivery, found, kind, same, fact⟩, fits⟩, rest⟩
        exact ⟨valid, delivery, found, kind, fresh, same, fact, fits, sources, rest⟩

theorem validateHeads_eq_ok {deliveries : List GithubWebhookDelivery} {deliveryIds : List String}
    {heads : List GithubHeadObservation} :
    validateHeads services deliveries deliveryIds heads = .ok () ↔
      Keyed.Fresh (·.sourceDeliveryId) deliveryIds heads ∧
      ∀ head ∈ heads, validateHeadObservation head = .ok () ∧
        Refers deliveries head.sourceDeliveryId fun delivery =>
          delivery.kind = .pullRequestSynchronize ∧
          (head.receivedAt = delivery.receivedAt ∧
            head.payloadSha256 = delivery.payloadSha256) ∧
          delivery.derivedFactSha256 = some (headObservationDigest services head) := by
  induction heads generalizing deliveryIds with
  | nil => simp [validateHeads, Keyed.fresh_nil]
  | cons head heads ih =>
      simp only [validateHeads, deliveryOf, Result.check_bind_eq_ok,
        Result.ofOption_bind_eq_ok, Result.ensure_eq_ok, ih, Keyed.fresh_cons, List.forall_mem_cons]
      constructor
      · rintro ⟨valid, delivery, found, kind, fresh, same, fact, sources, rest⟩
        exact ⟨⟨fresh, sources⟩, ⟨valid, delivery, found, kind, same, fact⟩, rest⟩
      · rintro ⟨⟨fresh, sources⟩, ⟨valid, delivery, found, kind, same, fact⟩, rest⟩
        exact ⟨valid, delivery, found, kind, fresh, same, fact, sources, rest⟩

/-! ## The fact of a delivery -/

/-- What the fact of a delivery is, by the kind of the delivery. -/
inductive FactOf (services : Services) (kind : GithubWebhookKind)
    (deliveryId receivedAt payloadSha256 : String) : DerivedFact → Prop where
  | receipt {receipt : GithubReviewReceipt} : kind = .pullRequestReviewSubmitted →
      validateReviewReceipt receipt = .ok () → receipt.sourceDeliveryId = deliveryId →
      receipt.payloadSha256 = payloadSha256 →
      receipt.receiptSha256 = receiptDigest services receipt →
      FactOf services kind deliveryId receivedAt payloadSha256 (.reviewReceipt receipt)
  | ignored : kind = .pullRequestReviewSubmitted →
      FactOf services kind deliveryId receivedAt payloadSha256 .ignoredReview
  | dismissal {dismissal : GithubReviewDismissal} : kind = .pullRequestReviewDismissed →
      validateReviewDismissal dismissal = .ok () → dismissal.sourceDeliveryId = deliveryId →
      dismissal.receivedAt = receivedAt → dismissal.payloadSha256 = payloadSha256 →
      FactOf services kind deliveryId receivedAt payloadSha256 (.dismissal dismissal)
  | head {observation : GithubHeadObservation} : kind = .pullRequestSynchronize →
      validateHeadObservation observation = .ok () → observation.sourceDeliveryId = deliveryId →
      observation.receivedAt = receivedAt → observation.payloadSha256 = payloadSha256 →
      FactOf services kind deliveryId receivedAt payloadSha256 (.headObservation observation)

theorem isSha256_hexSha256 (lawful : services.Lawful) (bytes : Bytes) :
    isSha256 (hexSha256 services bytes) = true := isSha256_encodeHex (lawful.digestLength bytes)

/-- The digest of a receipt may take the place of the empty text. -/
theorem validateReviewReceipt_digest (lawful : services.Lawful) {receipt : GithubReviewReceipt}
    (h : validateReviewReceipt receipt = .ok ()) :
    validateReviewReceipt { receipt with receiptSha256 := receiptDigest services receipt } =
      .ok () := by
  simp only [validateReviewReceipt, Result.check_bind_eq_ok, Result.ensure_eq_ok] at h ⊢
  obtain ⟨id, reviewer, node, reviewerNode, login, trimmed, commit, time, url, association, source,
    payload, _⟩ := h
  exact ⟨id, reviewer, node, reviewerNode, login, trimmed, commit, time, url, association, source,
    payload, .inr (isSha256_hexSha256 lawful _)⟩

theorem submittedReceipt_spec (lawful : services.Lawful) {review : GithubReviewPayload}
    {deliveryId payloadSha256 : String} {receipt : GithubReviewReceipt}
    (h : submittedReceipt services review deliveryId payloadSha256 = .ok (some receipt)) :
    validateReviewReceipt receipt = .ok () ∧ receipt.sourceDeliveryId = deliveryId ∧
      receipt.payloadSha256 = payloadSha256 ∧
      receipt.receiptSha256 = receiptDigest services receipt := by
  obtain ⟨state, _, h⟩ := Result.bind_eq_ok.mp h
  cases state with
  | none => cases h
  | some state =>
      simp only [Result.ofOption_bind_eq_ok, Result.check_bind_eq_ok, Result.pure_eq_ok,
        Option.some.injEq] at h
      obtain ⟨user, _, _, commitId, _, submittedAt, _, valid, rfl⟩ := h
      exact ⟨validateReviewReceipt_digest lawful valid, rfl, rfl, rfl⟩

theorem dismissedReview_spec {review : GithubReviewPayload}
    {deliveryId receivedAt payloadSha256 : String} {dismissal : GithubReviewDismissal}
    (h : dismissedReview review deliveryId receivedAt payloadSha256 = .ok dismissal) :
    validateReviewDismissal dismissal = .ok () ∧ dismissal.sourceDeliveryId = deliveryId ∧
      dismissal.receivedAt = receivedAt ∧ dismissal.payloadSha256 = payloadSha256 := by
  simp only [dismissedReview, Result.ofOption_bind_eq_ok, Result.check_bind_eq_ok,
    Result.pure_eq_ok] at h
  obtain ⟨_, user, _, _, valid, rfl⟩ := h
  exact ⟨valid, rfl, rfl, rfl⟩

theorem observedHead_spec {webhook : PullRequestSynchronizeWebhook}
    {deliveryId receivedAt payloadSha256 : String} {observation : GithubHeadObservation}
    (h : observedHead webhook deliveryId receivedAt payloadSha256 = .ok observation) :
    validateHeadObservation observation = .ok () ∧ observation.sourceDeliveryId = deliveryId ∧
      observation.receivedAt = receivedAt ∧ observation.payloadSha256 = payloadSha256 := by
  simp only [observedHead, Result.check_bind_eq_ok, Result.pure_eq_ok] at h
  obtain ⟨_, _, _, _, valid, rfl⟩ := h
  exact ⟨valid, rfl, rfl, rfl⟩

theorem fromParsed_spec (lawful : services.Lawful) {parsed : ParsedWebhook}
    {kind : GithubWebhookKind} {deliveryId receivedAt payloadSha256 : String} {fact : DerivedFact}
    (known : parsed.kind = .ok kind)
    (h : DerivedFact.fromParsed services parsed deliveryId receivedAt payloadSha256 = .ok fact) :
    FactOf services kind deliveryId receivedAt payloadSha256 fact := by
  cases parsed with
  | review webhook =>
      rw [ParsedWebhook.kind] at known
      rw [DerivedFact.fromParsed] at h
      split at h
      · rename_i submitted
        rw [if_pos submitted] at known
        obtain rfl := Except.ok.inj known
        obtain ⟨receipt, submitted, h⟩ := Result.bind_eq_ok.mp h
        cases receipt with
        | none =>
            obtain rfl := Except.ok.inj h
            exact .ignored rfl
        | some receipt =>
            obtain rfl := Except.ok.inj h
            obtain ⟨valid, source, payload, digest⟩ := submittedReceipt_spec lawful submitted
            exact .receipt rfl valid source payload digest
      · rename_i notSubmitted
        rw [if_neg notSubmitted] at known
        split at known
        · obtain rfl := Except.ok.inj known
          obtain ⟨dismissal, dismissed, h⟩ := Result.bind_eq_ok.mp h
          obtain rfl := Except.ok.inj h
          obtain ⟨valid, source, received, payload⟩ := dismissedReview_spec dismissed
          exact .dismissal rfl valid source received payload
        · cases known
  | synchronize webhook =>
      obtain rfl := Except.ok.inj known
      obtain ⟨observation, observed, h⟩ := Result.bind_eq_ok.mp h
      obtain rfl := Except.ok.inj h
      obtain ⟨valid, source, received, payload⟩ := observedHead_spec observed
      exact .head rfl valid source received payload

/-! ## Deliveries to one receiver -/

/-- Who ingests. -/
structure Receiver where
  providerUrl : String
  secret : Bytes
  keyId : String
  signingKey : Bytes
  deriving DecidableEq, Repr

structure Delivery where
  eventName : String
  deliveryId : String
  receivedAt : String
  signatureHeader : String
  payload : Bytes
  deriving DecidableEq, Repr

def Receiver.request (receiver : Receiver) (delivery : Delivery) : GithubWebhookIngest :=
  ⟨receiver.providerUrl, delivery.eventName, delivery.deliveryId, delivery.receivedAt,
    delivery.signatureHeader, receiver.secret, receiver.keyId, receiver.signingKey,
    delivery.payload⟩

/-- A delivery that is well formed by itself. -/
structure Processed (services : Services) (receiver : Receiver) where
  delivery : Delivery
  opened : Opened
  fact : DerivedFact
  opens : openDelivery services (receiver.request delivery) = .ok opened
  derives : DerivedFact.fromParsed services opened.parsed delivery.deliveryId delivery.receivedAt
    opened.payloadSha256 = .ok fact

namespace Processed

variable {receiver : Receiver}

theorem ext_delivery {p q : Processed services receiver} (h : p.delivery = q.delivery) : p = q := by
  obtain ⟨delivery, opened, fact, opens, derives⟩ := p
  obtain ⟨delivery', opened', fact', opens', derives'⟩ := q
  obtain rfl : delivery = delivery' := h
  obtain rfl : opened = opened' := Except.ok.inj (opens.symm.trans opens')
  obtain rfl : fact = fact' := Except.ok.inj (derives.symm.trans derives')
  rfl

/-- The records of a delivery in a ledger. -/
def record (p : Processed services receiver) (scope : Scope) : GithubWebhookDelivery :=
  signedDelivery services (receiver.request p.delivery) p.opened p.fact scope

def receipt? (p : Processed services receiver) : Option GithubReviewReceipt :=
  match p.fact with
  | .reviewReceipt receipt => some receipt
  | _ => none

def dismissal? (p : Processed services receiver) : Option GithubReviewDismissal :=
  match p.fact with
  | .dismissal dismissal => some dismissal
  | _ => none

def head? (p : Processed services receiver) : Option GithubHeadObservation :=
  match p.fact with
  | .headObservation observation => some observation
  | _ => none

/-- What was checked when a delivery was opened. -/
structure Checked (services : Services) (receiver : Receiver) (delivery : Delivery)
    (opened : Opened) : Prop where
  deliveryId : validateDeliveryId delivery.deliveryId = .ok ()
  receivedAt : validGithubTimestamp delivery.receivedAt = true
  payload : opened.payloadSha256 = hexSha256 services delivery.payload
  kind : opened.parsed.kind = .ok opened.kind
  providerUrl : validateProviderUrl opened.scope.providerUrl = .ok ()
  repository : validateRepositoryIdentity opened.scope.repository = .ok ()
  pullRequest : validatePullRequestIdentity opened.scope.pullRequest = .ok ()
  keyId : validateReceiverKeyId opened.scope.receiver.keyId = .ok ()
  receiver : opened.scope.receiver = ⟨"ed25519", receiver.keyId,
    encodeHex (services.verifyingKey receiver.signingKey)⟩

theorem checked_of_opens {delivery : Delivery} {opened : Opened}
    (opens : openDelivery services (receiver.request delivery) = .ok opened) :
    Checked services receiver delivery opened := by
  simp only [openDelivery, Result.check_bind_eq_ok, Result.ensure_eq_ok] at opens
  obtain ⟨providerUrl, deliveryId, keyId, receivedAt, _, opens⟩ := opens
  obtain ⟨parsed, _, opens⟩ := Result.bind_eq_ok.mp opens
  obtain ⟨kind, known, opens⟩ := Result.bind_eq_ok.mp opens
  simp only [validateRepository, validatePullRequest, Result.check_bind_eq_ok,
    Result.pure_eq_ok] at opens
  obtain ⟨repository, ⟨pullRequest, _⟩, opens⟩ := opens
  rw [← opens]
  exact ⟨deliveryId, receivedAt, rfl, known, providerUrl, repository, pullRequest, keyId, rfl⟩

theorem checked (p : Processed services receiver) :
    Checked services receiver p.delivery p.opened := checked_of_opens p.opens

theorem factOf (lawful : services.Lawful) (p : Processed services receiver) :
    FactOf services p.opened.kind p.delivery.deliveryId p.delivery.receivedAt
      p.opened.payloadSha256 p.fact :=
  fromParsed_spec lawful p.checked.kind p.derives

/-- The signature of a record is one that the ledger accepts. -/
theorem record_verifies (lawful : services.Lawful) (p : Processed services receiver) {scope : Scope}
    (same : p.opened.scope = scope) :
    verifyDeliverySignature services scope (p.record scope) = .ok () := by
  have key : scope.receiver.publicKey = encodeHex (services.verifyingKey receiver.signingKey) := by
    rw [← same, p.checked.receiver]
  simp only [verifyDeliverySignature, verifyReceiverSignature, key,
    decodeLowerHex32_encodeHex (lawful.verifyingKeyLength _), lawful.accepts, Except.mapError,
    Result.ok_bind]
  have signature : (p.record scope).receiverSignature = encodeHex (services.sign receiver.signingKey
      (deliveryAttestationMessage services scope (p.record scope))) := rfl
  rw [signature, decodeLowerHex64_encodeHex (lawful.signatureLength _ _)]
  exact Result.ensure_of (lawful.verifies _ _)

end Processed

end Stratadiff.Ledger
