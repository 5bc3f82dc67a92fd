import Stratadiff.Ledger.Frame

/-!
# Events that are delivered again

A receiver may get an event twice, under two delivery ids. The second dismissal or
synchronize event becomes one more fact, which changes nothing of the active receipts. A
submitted review becomes a receipt that names its delivery, so that the second one is not
equal to the first, and the review id counts as reused.
-/

namespace Stratadiff.Ledger

section

variable {services : Services} {ledger : GithubReviewLedger}

/-- A well-formed request brings an event that a valid ledger holds already, under a new delivery
id. -/
structure Redelivers (services : Services) (ledger : GithubReviewLedger)
    (ingest : GithubWebhookIngest) (opened : Opened) : Prop where
  valid : ledger.validate services = .ok ()
  opens : openDelivery services ingest = .ok opened
  scope : opened.scope = ledger.toScope
  new : ingest.deliveryId ∉ ledger.deliveries.map (·.deliveryId)
  /-- The fact that the payload gave under the delivery id it came with first. -/
  held : ∃ original ∈ ledger.deliveries, original.payloadSha256 = opened.payloadSha256 ∧
    ∃ fact ∈ ledger.facts, DerivedFact.fromParsed services opened.parsed original.deliveryId
      original.receivedAt opened.payloadSha256 = .ok fact

/-- The request as a delivery to its receiver. -/
theorem Redelivers.checked {ingest : GithubWebhookIngest} {opened : Opened}
    (h : Redelivers services ledger ingest opened) :
    Processed.Checked services ⟨ingest.providerUrl, ingest.secret, ingest.receiverKeyId,
      ingest.receiverSigningKey⟩ ⟨ingest.eventName, ingest.deliveryId, ingest.receivedAt,
      ingest.signatureHeader, ingest.payload⟩ opened := Processed.checked_of_opens h.opens

/-- The request is taken and leaves the active receipts as they are. -/
def Tolerated (services : Services) (ledger : GithubReviewLedger) (ingest : GithubWebhookIngest) :
    Prop :=
  ∃ ledger', ingestGithubWebhook services (some ledger) ingest = .ok (ledger', .applied) ∧
    ledger'.activeReceipts = ledger.activeReceipts

/-! ## The facts of one event under two ids -/

theorem submittedReceipt_reviewId {review : GithubReviewPayload} {deliveryId payloadSha256 : String}
    {receipt : GithubReviewReceipt}
    (h : submittedReceipt services review deliveryId payloadSha256 = .ok (some receipt)) :
    receipt.reviewId = review.id := by
  obtain ⟨state, _, h⟩ := Result.bind_eq_ok.mp h
  cases state with
  | none => cases h
  | some state =>
      simp only [Result.ofOption_bind_eq_ok, Result.check_bind_eq_ok, Result.pure_eq_ok,
        Option.some.injEq] at h
      obtain ⟨_, _, _, _, _, _, _, _, rfl⟩ := h
      rfl

theorem dismissedReview_again {review : GithubReviewPayload} {payloadSha256 : String}
    {deliveryId deliveryId' receivedAt receivedAt' : String} {dismissal : GithubReviewDismissal}
    (h : dismissedReview review deliveryId receivedAt payloadSha256 = .ok dismissal)
    (id : validateDeliveryId deliveryId' = .ok ())
    (time : validGithubTimestamp receivedAt' = true) :
    dismissedReview review deliveryId' receivedAt' payloadSha256 =
      .ok { dismissal with sourceDeliveryId := deliveryId', receivedAt := receivedAt' } := by
  simp only [dismissedReview, validateReviewDismissal, Result.ofOption_bind_eq_ok,
    Result.check_bind_eq_ok, Result.ensure_eq_ok, Result.pure_eq_ok] at h ⊢
  obtain ⟨dismissed, user, known, human, ⟨review, reviewer, node, login, trimmed, commit, submitted,
    _, _, payload⟩, rfl⟩ := h
  exact ⟨dismissed, user, known, human, ⟨review, reviewer, node, login, trimmed, commit, submitted,
    id, time, payload⟩, rfl⟩

theorem observedHead_again {webhook : PullRequestSynchronizeWebhook} {payloadSha256 : String}
    {deliveryId deliveryId' receivedAt receivedAt' : String} {observation : GithubHeadObservation}
    (h : observedHead webhook deliveryId receivedAt payloadSha256 = .ok observation)
    (id : validateDeliveryId deliveryId' = .ok ())
    (time : validGithubTimestamp receivedAt' = true) :
    observedHead webhook deliveryId' receivedAt' payloadSha256 =
      .ok { observation with sourceDeliveryId := deliveryId', receivedAt := receivedAt' } := by
  simp only [observedHead, validateHeadObservation, Result.check_bind_eq_ok, Result.ensure_eq_ok,
    Result.pure_eq_ok] at h ⊢
  obtain ⟨before, after, head, base, ⟨commits, _, _, payload⟩, rfl⟩ := h
  exact ⟨before, after, head, base, ⟨commits, id, time, payload⟩, rfl⟩

/-- A submitted review gives a receipt of the same review under any id. -/
theorem submitted_again {parsed : ParsedWebhook} {payloadSha256 : String}
    {deliveryId deliveryId' receivedAt receivedAt' : String} {receipt : GithubReviewReceipt}
    {fact : DerivedFact}
    (h : DerivedFact.fromParsed services parsed deliveryId receivedAt payloadSha256 =
      .ok (.reviewReceipt receipt))
    (h' : DerivedFact.fromParsed services parsed deliveryId' receivedAt' payloadSha256 = .ok fact) :
    ∃ receipt', fact = .reviewReceipt receipt' ∧ receipt'.reviewId = receipt.reviewId ∧
      receipt'.sourceDeliveryId = deliveryId' := by
  cases parsed with
  | review webhook =>
      rw [DerivedFact.fromParsed] at h h'
      split at h
      · next submitted =>
        rw [if_pos submitted] at h'
        obtain ⟨first, some, h⟩ := Result.bind_eq_ok.mp h
        obtain ⟨second, again, h'⟩ := Result.bind_eq_ok.mp h'
        cases first with
        | none => cases h
        | some receipt =>
            obtain rfl := DerivedFact.reviewReceipt.inj (Except.ok.inj h)
            cases second with
            | none =>
                -- the state decides whether there is a receipt, whatever the id is
                obtain ⟨state, known, some⟩ := Result.bind_eq_ok.mp some
                obtain ⟨state', known', again⟩ := Result.bind_eq_ok.mp again
                obtain rfl := Except.ok.inj (known.symm.trans known')
                cases state with
                | none => cases some
                | some state =>
                    simp only [Result.ofOption_bind_eq_ok, Result.check_bind_eq_ok,
                      Result.pure_eq_ok] at again
                    obtain ⟨_, _, _, _, _, _, _, _, absent⟩ := again
                    cases absent
            | some receipt' =>
                refine ⟨receipt', (Except.ok.inj h').symm, ?_, submittedReceipt_source again⟩
                rw [submittedReceipt_reviewId some, submittedReceipt_reviewId again]
      · obtain ⟨_, _, h⟩ := Result.bind_eq_ok.mp h
        cases h
  | synchronize webhook =>
      obtain ⟨_, _, h⟩ := Result.bind_eq_ok.mp h
      cases h

/-- The fact of an event under another delivery. -/
def DerivedFact.redelivered (deliveryId receivedAt : String) : DerivedFact → DerivedFact
  | .dismissal fact =>
      .dismissal { fact with sourceDeliveryId := deliveryId, receivedAt := receivedAt }
  | .headObservation fact =>
      .headObservation { fact with sourceDeliveryId := deliveryId, receivedAt := receivedAt }
  | fact => fact

theorem fromParsed_again {parsed : ParsedWebhook} {payloadSha256 : String}
    {kind : GithubWebhookKind}
    {deliveryId deliveryId' receivedAt receivedAt' : String} {fact : DerivedFact}
    (known : parsed.kind = .ok kind) (other : kind ≠ .pullRequestReviewSubmitted)
    (h : DerivedFact.fromParsed services parsed deliveryId receivedAt payloadSha256 = .ok fact)
    (id : validateDeliveryId deliveryId' = .ok ())
    (time : validGithubTimestamp receivedAt' = true) :
    DerivedFact.fromParsed services parsed deliveryId' receivedAt' payloadSha256 =
      .ok (fact.redelivered deliveryId' receivedAt') := by
  cases parsed with
  | review webhook =>
      rw [DerivedFact.fromParsed] at h ⊢
      split at h
      · next submitted =>
        rw [ParsedWebhook.kind, if_pos submitted] at known
        exact absurd (Except.ok.inj known).symm other
      · next notSubmitted =>
        obtain ⟨dismissal, dismissed, h⟩ := Result.bind_eq_ok.mp h
        obtain rfl := Except.ok.inj h
        rw [if_neg notSubmitted, dismissedReview_again dismissed id time]
        rfl
  | synchronize webhook =>
      obtain ⟨observation, observed, h⟩ := Result.bind_eq_ok.mp h
      obtain rfl := Except.ok.inj h
      rw [DerivedFact.fromParsed, observedHead_again observed id time]
      rfl

/-! ## A new delivery -/

/-- The ledger that a new delivery makes, once its fact was added. -/
def taken (services : Services) (ledger appended : GithubReviewLedger)
    (ingest : GithubWebhookIngest)
    (opened : Opened) (fact : DerivedFact) : GithubReviewLedger :=
  signLedgerSnapshot services
    { appended with deliveries := appended.deliveries ++
        [signedDelivery services ingest opened fact ledger.toScope] }.sort
    (ledger.snapshot.revision + 1) ingest.receiverSigningKey

/-- When a delivery with a new id is taken. -/
theorem ingest_new_eq_ok {ingest : GithubWebhookIngest} {opened : Opened}
    (valid : ledger.validate services = .ok ()) (opens : openDelivery services ingest = .ok opened)
    (scope : opened.scope = ledger.toScope)
    (new : ingest.deliveryId ∉ ledger.deliveries.map (·.deliveryId))
    {ledger' : GithubReviewLedger} {outcome : IngestOutcome} :
    ingestGithubWebhook services (some ledger) ingest = .ok (ledger', outcome) ↔
      ledger.deliveries.length < maxLedgerDeliveries ∧
      ledger.snapshot.revision + 1 ≤ usizeMax ∧
      ∃ fact appended, DerivedFact.fromParsed services opened.parsed ingest.deliveryId
          ingest.receivedAt opened.payloadSha256 = .ok fact ∧
        fact.appendTo ledger = .ok appended ∧
        taken services ledger appended ingest opened fact = ledger' ∧
        ledger'.validate services = .ok () ∧ outcome = .applied := by
  have ledgerOpens : openLedger services opened.scope (some ledger) = .ok ledger := by
    simp only [openLedger, Result.check_bind_eq_ok, Result.ensure_eq_ok]
    exact ⟨valid, by rw [scope], by rw [scope], by rw [scope], by rw [scope], rfl⟩
  have absent : ledger.deliveries.find? (fun existing => existing.deliveryId = ingest.deliveryId) =
      none := by
    refine List.find?_eq_none.mpr fun existing there same => new ?_
    exact List.mem_map.mpr ⟨existing, there, of_decide_eq_true same⟩
  rw [ingestGithubWebhook, opens, Result.ok_bind, ledgerOpens, Result.ok_bind, absent]
  simp only [Result.check_bind_eq_ok, Result.ensure_eq_ok]
  refine and_congr_right fun _ => ?_
  constructor
  · intro h
    obtain ⟨fact, derives, h⟩ := Result.bind_eq_ok.mp h
    obtain ⟨appended, appends, h⟩ := Result.bind_eq_ok.mp h
    obtain ⟨revision, next, h⟩ := Result.ofOption_bind_eq_ok.mp h
    obtain ⟨bound, rfl⟩ := checkedAdd_eq_some.mp next
    simp only [Result.check_bind_eq_ok, Result.pure_eq_ok, Prod.mk.injEq] at h
    obtain ⟨checked, rfl, rfl⟩ := h
    exact ⟨bound, fact, appended, derives, appends, rfl, checked, rfl⟩
  · rintro ⟨bound, fact, appended, derives, appends, rfl, checked, rfl⟩
    rw [derives, Result.ok_bind, appends, Result.ok_bind, checkedAdd_of_le bound,
      Result.ofOption_some, Result.ok_bind]
    exact (Result.check_bind_eq_ok).mpr ⟨checked, rfl⟩

/-- A submitted review is refused under a second delivery id. -/
theorem submission_again_refused {ingest : GithubWebhookIngest} {opened : Opened}
    (h : Redelivers services ledger ingest opened) (lawful : services.Lawful)
    (submitted : opened.kind = .pullRequestReviewSubmitted) {ledger' : GithubReviewLedger}
    {outcome : IngestOutcome} :
    ingestGithubWebhook services (some ledger) ingest ≠ .ok (ledger', outcome) := by
  intro run
  obtain ⟨_, _, fact', appended, derives', appends, _⟩ :=
    (ingest_new_eq_ok h.valid h.opens h.scope h.new).mp run
  obtain ⟨original, there, _, fact, member, derives⟩ := h.held
  have consistent := (validate_eq_ok.mp h.valid).2.1
  have known := fromParsed_spec lawful h.checked.kind derives
  rw [submitted] at known
  obtain ⟨receipt, received, rfl⟩ | ⟨_, _, rfl⟩ | ⟨_, _, rfl⟩ := mem_facts.mp member
  · obtain ⟨receipt', rfl, sameReview, source⟩ := submitted_again derives derives'
    have found : ledger.reviewReceipts.find? (fun existing =>
        existing.reviewId = receipt'.reviewId) = some receipt :=
      Keyed.find?_eq_some consistent.reviews received sameReview.symm
    rw [DerivedFact.appendTo, insertReviewReceipt, found] at appends
    simp only [Result.check_bind_eq_ok, Result.ensure_eq_ok] at appends
    obtain ⟨rfl, _⟩ := appends
    -- an equal receipt would name the new delivery, but every receipt names one of the ledger
    obtain ⟨_, bearer, here, named, _⟩ := consistent.receipts receipt received
    exact h.new (List.mem_map.mpr ⟨bearer, here, named.trans source⟩)
  · cases known with
    | dismissal kind => cases kind
  · cases known with
    | head kind => cases kind

/-! ## A dismissal or head observation more -/

/-- Only which records there are matters, not their order. -/
theorem GithubReviewLedger.Consistent.perm {other : GithubReviewLedger}
    (consistent : ledger.Consistent services) (scope : other.toScope = ledger.toScope)
    (deliveries : other.deliveries.Perm ledger.deliveries)
    (receipts : other.reviewReceipts.Perm ledger.reviewReceipts)
    (dismissals : other.dismissals.Perm ledger.dismissals)
    (heads : other.headObservations.Perm ledger.headObservations) : other.Consistent services where
  ids := (deliveries.map _).nodup_iff.mpr consistent.ids
  deliveries delivery member := by
    rw [scope]
    exact consistent.deliveries delivery (deliveries.mem_iff.mp member)
  reviews := (receipts.map _).nodup_iff.mpr consistent.reviews
  receiptSources := (receipts.map _).nodup_iff.mpr consistent.receiptSources
  receipts receipt member := by
    simp only [deliveries.mem_iff]
    exact consistent.receipts receipt (receipts.mem_iff.mp member)
  dismissalSources := (dismissals.map _).nodup_iff.mpr consistent.dismissalSources
  dismissals dismissal member := by
    simp only [deliveries.mem_iff, receipts.mem_iff]
    exact consistent.dismissals dismissal (dismissals.mem_iff.mp member)
  headSources := (heads.map _).nodup_iff.mpr consistent.headSources
  heads head member := by
    simp only [deliveries.mem_iff]
    exact consistent.heads head (heads.mem_iff.mp member)
  facts delivery member := by
    have valid := consistent.facts delivery (deliveries.mem_iff.mp member)
    simp only [validateFacts, (receipts.map _).mem_iff, (dismissals.map _).mem_iff,
      (heads.map _).mem_iff]
    exact valid

/-- A ledger with one delivery more, and with the dismissals or head observations it brings. -/
def GithubReviewLedger.grown (ledger : GithubReviewLedger) (delivery : GithubWebhookDelivery)
    (dismissals : List GithubReviewDismissal) (heads : List GithubHeadObservation) :
    GithubReviewLedger :=
  { ledger with
    deliveries := ledger.deliveries ++ [delivery]
    dismissals := ledger.dismissals ++ dismissals
    headObservations := ledger.headObservations ++ heads }

/-- Records that name an id which no other record names. -/
theorem sources_append {α : Type} {source : α → String} {xs ys : List α} {id : String}
    (old : (xs.map source).Nodup) (fresh : ∀ x ∈ xs, source x ≠ id) (single : ys.length ≤ 1)
    (named : ∀ y ∈ ys, source y = id) : ((xs ++ ys).map source).Nodup := by
  rw [List.map_append, List.nodup_append]
  refine ⟨old, ?_, ?_⟩
  · match ys, single with
    | [], _ => exact List.nodup_nil
    | [y], _ => exact List.nodup_singleton _
  · intro a ha b hb same
    obtain ⟨x, hx, rfl⟩ := List.mem_map.mp ha
    obtain ⟨y, hy, rfl⟩ := List.mem_map.mp hb
    exact fresh x hx (same.trans (named y hy))

theorem GithubReviewLedger.Consistent.grow {delivery : GithubWebhookDelivery}
    {dismissals : List GithubReviewDismissal} {heads : List GithubHeadObservation}
    (consistent : ledger.Consistent services)
    (new : delivery.deliveryId ∉ ledger.deliveries.map (·.deliveryId))
    (checked : validateDeliveryId delivery.deliveryId = .ok () ∧
      validGithubTimestamp delivery.receivedAt = true ∧ isSha256 delivery.payloadSha256 = true ∧
      delivery.derivedFactSha256.all isSha256 = true ∧
      verifyDeliverySignature services ledger.toScope delivery = .ok ())
    (fewDismissals : dismissals.length ≤ 1) (fewHeads : heads.length ≤ 1)
    (dismissed : ∀ dismissal ∈ dismissals, dismissal.sourceDeliveryId = delivery.deliveryId ∧
      validateReviewDismissal dismissal = .ok () ∧ delivery.kind = .pullRequestReviewDismissed ∧
      (dismissal.receivedAt = delivery.receivedAt ∧
        dismissal.payloadSha256 = delivery.payloadSha256) ∧
      delivery.derivedFactSha256 = some (dismissalDigest services dismissal) ∧
      ∀ receipt ∈ ledger.reviewReceipts, receipt.reviewId = dismissal.reviewId →
        dismissalMatches dismissal receipt = true)
    (observed : ∀ head ∈ heads, head.sourceDeliveryId = delivery.deliveryId ∧
      validateHeadObservation head = .ok () ∧ delivery.kind = .pullRequestSynchronize ∧
      (head.receivedAt = delivery.receivedAt ∧ head.payloadSha256 = delivery.payloadSha256) ∧
      delivery.derivedFactSha256 = some (headObservationDigest services head))
    (fact : validateFacts (ledger.grown delivery dismissals heads) delivery = .ok ()) :
    (ledger.grown delivery dismissals heads).Consistent services := by
  have known {other : GithubWebhookDelivery} (there : other ∈ ledger.deliveries) :
      other ∈ ledger.deliveries ++ [delivery] := List.mem_append_left _ there
  have added : delivery ∈ ledger.deliveries ++ [delivery] := by simp
  have fresh {fact : DerivedFact} (member : fact ∈ ledger.facts) :
      ¬ fact.Names delivery.deliveryId := by
    intro names
    obtain ⟨bearer, there, named, _⟩ := consistent.bearer member
    exact new (List.mem_map.mpr ⟨bearer, there, Option.some.inj (named.symm.trans names)⟩)
  refine ⟨?_, ?_, consistent.reviews, consistent.receiptSources, ?_, ?_, ?_, ?_, ?_, ?_⟩
  · show ((ledger.deliveries ++ [delivery]).map (·.deliveryId)).Nodup
    have others : ∀ other ∈ ledger.deliveries, other.deliveryId ≠ delivery.deliveryId :=
      fun other there same => new (List.mem_map.mpr ⟨other, there, same⟩)
    refine sources_append consistent.ids others (Nat.le_refl 1) fun other member => ?_
    rw [List.mem_singleton.mp member]
  · intro other member
    obtain member | member := List.mem_append.mp member
    · exact consistent.deliveries other member
    · obtain rfl := List.mem_singleton.mp member
      exact checked
  · intro receipt member
    obtain ⟨valid, bearer, there, rest⟩ := consistent.receipts receipt member
    exact ⟨valid, bearer, known there, rest⟩
  · refine sources_append consistent.dismissalSources ?_ fewDismissals fun dismissal member =>
      (dismissed dismissal member).1
    exact fun dismissal there same =>
      fresh (mem_facts.mpr (.inr (.inl ⟨dismissal, there, rfl⟩))) (congrArg some same)
  · intro dismissal member
    obtain member | member := List.mem_append.mp member
    · obtain ⟨valid, ⟨bearer, there, rest⟩, fits⟩ := consistent.dismissals dismissal member
      exact ⟨valid, ⟨bearer, known there, rest⟩, fits⟩
    · obtain ⟨source, valid, kind, same, digest, fits⟩ := dismissed dismissal member
      exact ⟨valid, ⟨delivery, added, source.symm, kind, same, digest⟩, fits⟩
  · refine sources_append consistent.headSources ?_ fewHeads fun head member =>
      (observed head member).1
    exact fun head there same =>
      fresh (mem_facts.mpr (.inr (.inr ⟨head, there, rfl⟩))) (congrArg some same)
  · intro head member
    obtain member | member := List.mem_append.mp member
    · obtain ⟨valid, bearer, there, rest⟩ := consistent.heads head member
      exact ⟨valid, bearer, known there, rest⟩
    · obtain ⟨source, valid, kind, same, digest⟩ := observed head member
      exact ⟨valid, delivery, added, source.symm, kind, same, digest⟩
  · intro other member
    obtain member | member := List.mem_append.mp member
    · -- the new records name another delivery
      have valid := consistent.facts other member
      have different : delivery.deliveryId ≠ other.deliveryId := fun same =>
        new (List.mem_map.mpr ⟨other, member, same.symm⟩)
      have sameDismissals : other.deliveryId ∈ (ledger.dismissals ++ dismissals).map
          (·.sourceDeliveryId) ↔ other.deliveryId ∈ ledger.dismissals.map (·.sourceDeliveryId) := by
        rw [List.map_append, List.mem_append]
        refine or_iff_left fun named => ?_
        obtain ⟨dismissal, there, source⟩ := List.mem_map.mp named
        exact different ((dismissed dismissal there).1.symm.trans source)
      have sameHeads : other.deliveryId ∈ (ledger.headObservations ++ heads).map
          (·.sourceDeliveryId) ↔
            other.deliveryId ∈ ledger.headObservations.map (·.sourceDeliveryId) := by
        rw [List.map_append, List.mem_append]
        refine or_iff_left fun named => ?_
        obtain ⟨head, there, source⟩ := List.mem_map.mp named
        exact different ((observed head there).1.symm.trans source)
      simp only [validateFacts, GithubReviewLedger.grown, sameDismissals, sameHeads]
      exact valid
    · obtain rfl := List.mem_singleton.mp member
      exact fact

/-- The record of a request is one that the ledger accepts. -/
theorem Redelivers.record {ingest : GithubWebhookIngest} {opened : Opened} {fact : DerivedFact}
    (h : Redelivers services ledger ingest opened) (lawful : services.Lawful)
    (derives : DerivedFact.fromParsed services opened.parsed ingest.deliveryId ingest.receivedAt
      opened.payloadSha256 = .ok fact) :
    let delivery := signedDelivery services ingest opened fact ledger.toScope
    validateDeliveryId delivery.deliveryId = .ok () ∧
      validGithubTimestamp delivery.receivedAt = true ∧ isSha256 delivery.payloadSha256 = true ∧
      delivery.derivedFactSha256.all isSha256 = true ∧
      verifyDeliverySignature services ledger.toScope delivery = .ok () := by
  let receiver : Receiver := ⟨ingest.providerUrl, ingest.secret, ingest.receiverKeyId,
    ingest.receiverSigningKey⟩
  let p : Processed services receiver := ⟨⟨ingest.eventName, ingest.deliveryId, ingest.receivedAt,
    ingest.signatureHeader, ingest.payload⟩, opened, fact, h.opens, derives⟩
  refine ⟨h.checked.deliveryId, h.checked.receivedAt, ?_, record_fact_valid lawful p,
    p.record_verifies lawful h.scope⟩
  show isSha256 opened.payloadSha256 = true
  rw [h.checked.payload]
  exact isSha256_hexSha256 lawful _

theorem Redelivers.key {ingest : GithubWebhookIngest} {opened : Opened}
    (h : Redelivers services ledger ingest opened) :
    ledger.receiver.publicKey = encodeHex (services.verifyingKey ingest.receiverSigningKey) := by
  have same : ledger.receiver = opened.scope.receiver := by rw [h.scope]
  rw [same, h.checked.receiver]

/-- A ledger that is grown, sorted and signed is valid when it is consistent and has room. -/
theorem validate_signed (lawful : services.Lawful) {grown : GithubReviewLedger} {revision : Nat}
    {signingKey : Bytes} (heading : grown.Heading) (consistent : grown.Consistent services)
    (positive : revision ≠ 0)
    (key : grown.receiver.publicKey = encodeHex (services.verifyingKey signingKey)) :
    (signLedgerSnapshot services grown.sort revision signingKey).validate services = .ok () := by
  refine validate_eq_ok.mpr ⟨?_, ?_, verifyLedgerSnapshot_sign lawful positive key⟩
  · obtain ⟨schema, providerUrl, repository, pullRequest, receiver, deliveries, receipts⟩ := heading
    refine ⟨schema, providerUrl, repository, pullRequest, receiver, ?_, ?_⟩
    · exact (List.perm_insertionSort _ _).length_eq.trans_le deliveries
    · exact (List.perm_insertionSort _ _).length_eq.trans_le receipts
  · exact consistent.perm rfl (List.perm_insertionSort _ _) (List.perm_insertionSort _ _)
      (List.perm_insertionSort _ _) (List.perm_insertionSort _ _)

/-- The same dismissal under another delivery dismisses what it dismissed. -/
theorem activeReceipts_again {dismissal again : GithubReviewDismissal}
    (unique : (ledger.reviewReceipts.map (·.reviewId)).Nodup)
    (member : dismissal ∈ ledger.dismissals) (review : again.reviewId = dismissal.reviewId)
    (reviewer : again.reviewerId = dismissal.reviewerId)
    (time : again.submittedAt = dismissal.submittedAt) :
    { ledger with dismissals := again :: ledger.dismissals }.activeReceipts =
      ledger.activeReceipts := by
  refine GithubReviewLedger.activeReceipts_ext fun receipt => ?_
  rw [GithubReviewLedger.mem_activeReceipts (by exact unique),
    GithubReviewLedger.mem_activeReceipts unique]
  refine and_congr_right fun _ => ?_
  show (∀ other ∈ again :: ledger.dismissals, _ → ledger.DismissesOlder other receipt) ↔ _
  rw [List.forall_mem_cons]
  refine and_iff_right_of_imp fun older same => ?_
  obtain ⟨submittedAt, known, below⟩ := older dismissal member (reviewer.symm.trans same)
  refine ⟨submittedAt, ?_, review ▸ below⟩
  rwa [GithubReviewLedger.dismissedAt, time, review]

section

variable {ingest : GithubWebhookIngest} {opened : Opened}

/-- A request is tolerated when its fact only adds dismissals or head observations that fit and
leave the active receipts as they are. -/
theorem Redelivers.tolerated {fact : DerivedFact} {appended : GithubReviewLedger}
    (h : Redelivers services ledger ingest opened) (lawful : services.Lawful)
    (dismissals : List GithubReviewDismissal) (heads : List GithubHeadObservation)
    (room : ledger.deliveries.length < maxLedgerDeliveries)
    (counts : ledger.snapshot.revision + 1 ≤ usizeMax)
    (derives : DerivedFact.fromParsed services opened.parsed ingest.deliveryId ingest.receivedAt
      opened.payloadSha256 = .ok fact)
    (appends : fact.appendTo ledger = .ok appended)
    (adds : { appended with deliveries := appended.deliveries ++
        [signedDelivery services ingest opened fact ledger.toScope] } =
      ledger.grown (signedDelivery services ingest opened fact ledger.toScope) dismissals heads)
    (consistent : (ledger.grown (signedDelivery services ingest opened fact ledger.toScope)
      dismissals heads).Consistent services)
    (active : { ledger with dismissals := dismissals ++ ledger.dismissals }.activeReceipts =
      ledger.activeReceipts) : Tolerated services ledger ingest := by
  have heading : (ledger.grown (signedDelivery services ingest opened fact ledger.toScope)
      dismissals heads).Heading := by
    obtain ⟨schema, providerUrl, repository, pullRequest, receiver, _, receipts⟩ :=
      (validate_eq_ok.mp h.valid).1
    refine ⟨schema, providerUrl, repository, pullRequest, receiver, ?_, receipts⟩
    rw [GithubReviewLedger.grown, List.length_append]
    exact room
  refine ⟨taken services ledger appended ingest opened fact,
    (ingest_new_eq_ok h.valid h.opens h.scope h.new).mpr
      ⟨room, counts, fact, appended, derives, appends, rfl, ?_, rfl⟩, ?_⟩
  · rw [taken, adds]
    exact validate_signed lawful heading consistent (Nat.succ_ne_zero _) h.key
  · rw [taken, adds, ← active]
    have unique := (GithubReviewLedger.receipts_of_validate h.valid).1
    have perm : (ledger.grown (signedDelivery services ingest opened fact ledger.toScope)
        dismissals heads).sort.dismissals.Perm (dismissals ++ ledger.dismissals) :=
      (List.perm_insertionSort _ _).trans List.perm_append_comm
    exact GithubReviewLedger.activeReceipts_eq_of_perm unique (List.perm_insertionSort _ _) perm

/-- A dismissal or synchronize event is taken under a second delivery id when there is room. -/
theorem other_again_tolerated (h : Redelivers services ledger ingest opened)
    (lawful : services.Lawful) (other : opened.kind ≠ .pullRequestReviewSubmitted)
    (room : ledger.deliveries.length < maxLedgerDeliveries)
    (counts : ledger.snapshot.revision + 1 ≤ usizeMax) : Tolerated services ledger ingest := by
  have consistent := (validate_eq_ok.mp h.valid).2.1
  obtain ⟨original, _, _, fact, member, first⟩ := h.held
  have derives : DerivedFact.fromParsed services opened.parsed ingest.deliveryId ingest.receivedAt
      opened.payloadSha256 = .ok (fact.redelivered ingest.deliveryId ingest.receivedAt) :=
    fromParsed_again h.checked.kind other first h.checked.deliveryId h.checked.receivedAt
  have original := fromParsed_spec lawful h.checked.kind first
  have again := fromParsed_spec lawful h.checked.kind derives
  have record := h.record lawful derives
  obtain ⟨receipt, _, rfl⟩ | ⟨dismissal, dismissed, rfl⟩ | ⟨head, _, rfl⟩ := mem_facts.mp member
  · cases original with
    | receipt kind => exact absurd kind other
  · cases again with
    | dismissal kind valid source received payload =>
        have fits := (consistent.dismissals dismissal dismissed).2.2
        refine h.tolerated lawful [{ dismissal with
          sourceDeliveryId := ingest.deliveryId
          receivedAt := ingest.receivedAt }] [] room counts derives rfl ?_ ?_ ?_
        · rw [GithubReviewLedger.grown, List.append_nil]
        · refine consistent.grow h.new record (Nat.le_refl 1) (Nat.zero_le 1) ?_ (by simp) ?_
          · intro again here
            obtain rfl := List.mem_singleton.mp here
            exact ⟨source, valid, kind, ⟨received, payload⟩, rfl, fits⟩
          · simp only [validateFacts, signedDelivery, kind, Result.check_bind_eq_ok,
              Result.ensure_eq_ok]
            exact ⟨rfl, List.mem_map.mpr ⟨_, List.mem_append_right _ List.mem_cons_self, rfl⟩⟩
        · exact activeReceipts_again consistent.reviews dismissed rfl rfl rfl
  · cases again with
    | head kind valid source received payload =>
        refine h.tolerated lawful [] [{ head with
          sourceDeliveryId := ingest.deliveryId
          receivedAt := ingest.receivedAt }] room counts derives rfl ?_ ?_ rfl
        · rw [GithubReviewLedger.grown, List.append_nil]
        · refine consistent.grow h.new record (Nat.zero_le 1) (Nat.le_refl 1) (by simp) ?_ ?_
          · intro again here
            obtain rfl := List.mem_singleton.mp here
            exact ⟨source, valid, kind, ⟨received, payload⟩, rfl⟩
          · simp only [validateFacts, signedDelivery, kind, Result.check_bind_eq_ok,
              Result.ensure_eq_ok]
            exact ⟨rfl, List.mem_map.mpr ⟨_, List.mem_append_right _ List.mem_cons_self, rfl⟩⟩

end

/-- An event that a ledger holds is taken under a second delivery id, with the same receipts active,
exactly when it is not a submitted review and the ledger has room for a delivery. -/
theorem redelivery_tolerated_iff {ingest : GithubWebhookIngest} {opened : Opened}
    (lawful : services.Lawful) (h : Redelivers services ledger ingest opened) :
    Tolerated services ledger ingest ↔
      opened.kind ≠ .pullRequestReviewSubmitted ∧
        ledger.deliveries.length < maxLedgerDeliveries ∧
        ledger.snapshot.revision + 1 ≤ usizeMax := by
  constructor
  · rintro ⟨ledger', run, _⟩
    refine ⟨fun submitted => submission_again_refused h lawful submitted run, ?_⟩
    obtain ⟨room, counts, _⟩ := (ingest_new_eq_ok h.valid h.opens h.scope h.new).mp run
    exact ⟨room, counts⟩
  · rintro ⟨other, room, counts⟩
    exact other_again_tolerated h lawful other room counts

/-- The ledger of one delivery, and its event again. -/
theorem redelivers_build {receiver : Receiver} {scope : Scope} {p : Processed services receiver}
    {delivery : Delivery} (lawful : services.Lawful) (alone : Coherent scope [p])
    (held : p.fact ∈ (build scope [p]).facts)
    (opens : openDelivery services (receiver.request delivery) = .ok p.opened)
    (new : delivery.deliveryId ≠ p.delivery.deliveryId) :
    Redelivers services (build scope [p]) (receiver.request delivery) p.opened where
  valid := alone.validate lawful (List.cons_ne_nil p [])
  opens := opens
  scope := alone.inScope p List.mem_cons_self
  new := fun member => new (List.mem_singleton.mp member)
  held := ⟨p.record scope, List.mem_cons_self, rfl, p.fact, held, p.derives⟩

end

/-! ## A sample

The deliveries of the other samples once more, under other ids and five seconds later. -/

namespace Sample

def digestsAgain : List (Nat × String) :=
  [(942139218, "c719237de6a928a49d21cb7c9fb2a74d0fb47d40c46cefdcc5261df3388b2da4"),
   (2925929292, "a2b00387173130e82162a3f236bcb25e901c85a95e266434c83849d9ccfa924c"),
   (43412287, "947cc1ccb4d895f15909a762c162667e2a7a81f650c15ec7cf4c8733591cfe9b")]

def signaturesAgain : List (Nat × String) :=
  [(3882162418, "f2e9dd37dac2cd0282446ddc35e9da87e23e6510930f915667e1f75a6ab7b1ad" ++
    "1402378ba817342dda1b432d4c2e4409c36adaa65c63ea1905fc55ffc352af0e"),
   (2878021464, "0b8c98fa24ca71b635c7298d884bae53c70695fdb03a35a21346db802c27e220" ++
    "4eb4e8ae312efb28aba64f0cb6884fd8e096ddb5dd1052c3bb820b39691f3a03"),
   (1997278495, "596049f5a7b41a84089ebbb48155d8c6ada9e7281fe9626ed62fb941287cbdd0" ++
    "173b8558dab1170e3c1068915f584ba2c4ffc2ff263997bd50a10331c92d150e")]

def servicesAgain : Services :=
  { services with
    sha256 := entry (digests ++ digestsAgain) 32
    sign := fun _ => entry (signatures ++ signaturesAgain) 64
    verify := fun _ message signature =>
      signature = entry (signatures ++ signaturesAgain) 64 message }

theorem lawfulAgain : servicesAgain.Lawful where
  verifies _ _ := decide_eq_true rfl
  accepts _ := rfl
  verifyingKeyLength _ := publicKey_length
  signatureLength _ _ := entry_length
  digestLength _ := entry_length

def firstDismissal : Processed servicesAgain receiver where
  delivery := dismissed
  opened := dismissal.opened
  fact := dismissal.fact
  opens := by decide +kernel
  derives := by decide +kernel

def firstSubmission : Processed servicesAgain receiver where
  delivery := submitted
  opened := submission.opened
  fact := submission.fact
  opens := by decide +kernel
  derives := by decide +kernel

def dismissedAgain : Delivery :=
  { dismissed with deliveryId := "delivery-dismiss-again", receivedAt := "2026-09-05T02:00:05Z" }

def submittedAgain : Delivery :=
  { submitted with deliveryId := "delivery-submit-again", receivedAt := "2026-09-05T02:00:05Z" }

theorem coherent_dismissal : Coherent scope [firstDismissal] where
  inScope p member := by rw [List.mem_singleton.mp member]; rfl
  ids := List.nodup_singleton _
  deliveries := by decide
  receipts := by decide
  reviews := List.nodup_nil
  dismissals _ _ _ member := absurd member List.not_mem_nil

theorem coherent_submission : Coherent scope [firstSubmission] where
  inScope p member := by rw [List.mem_singleton.mp member]; rfl
  ids := List.nodup_singleton _
  deliveries := by decide
  receipts := by decide
  reviews := List.nodup_singleton _
  dismissals _ member := absurd member List.not_mem_nil

theorem opens_again :
    openDelivery servicesAgain (receiver.request dismissedAgain) = .ok firstDismissal.opened ∧
      openDelivery servicesAgain (receiver.request submittedAgain) =
        .ok firstSubmission.opened := by
  refine ⟨?_, ?_⟩
  · decide +kernel
  · decide +kernel

theorem redelivers_dismissal : Redelivers servicesAgain (build scope [firstDismissal])
    (receiver.request dismissedAgain) firstDismissal.opened :=
  redelivers_build lawfulAgain coherent_dismissal (by decide) opens_again.1 (by decide)

theorem redelivers_submission : Redelivers servicesAgain (build scope [firstSubmission])
    (receiver.request submittedAgain) firstSubmission.opened :=
  redelivers_build lawfulAgain coherent_submission (by decide) opens_again.2 (by decide)

end Sample

open Sample in
/-- The dismissal of a review comes twice. -/
theorem redelivery_tolerated_sample :
    Tolerated servicesAgain (build scope [firstDismissal]) (receiver.request dismissedAgain) :=
  (redelivery_tolerated_iff lawfulAgain redelivers_dismissal).mpr
    ⟨by decide, by decide, by decide⟩

open Sample in
/-- A submitted review comes twice: it is the active receipt of a valid ledger, and the request
with the same payload under another delivery id fails. -/
theorem submission_again_counterexample :
    Redelivers servicesAgain (build scope [firstSubmission]) (receiver.request submittedAgain)
        firstSubmission.opened ∧
      (build scope [firstSubmission]).activeReceipts = firstSubmission.receipt?.toList ∧
      ¬ Tolerated servicesAgain (build scope [firstSubmission])
        (receiver.request submittedAgain) := by
  refine ⟨redelivers_submission, by decide, ?_⟩
  rintro ⟨ledger', run, _⟩
  exact submission_again_refused redelivers_submission lawfulAgain rfl run

end Stratadiff.Ledger
