import Stratadiff.Ledger.Valid

/-!
# The ledger of a collection of deliveries

A ledger is the sorted collection of what its deliveries bring, signed with their number
as its revision. Which deliveries can be together is `Coherent`: a property of the
collection that each part of it has too. The ledger of a collection does not depend on
the order of the deliveries, and it is valid exactly when they fit together.
-/

namespace Stratadiff.Ledger

variable {services : Services} {receiver : Receiver} {scope : Scope}
variable {ps qs : List (Processed services receiver)}

/-- The records and facts of some deliveries, sorted. -/
def body (scope : Scope) (ps : List (Processed services receiver)) : GithubReviewLedger :=
  GithubReviewLedger.sort ⟨scope, githubReviewLedgerSchema, ps.map (·.record scope),
    ps.filterMap (·.receipt?), ps.filterMap (·.dismissal?), ps.filterMap (·.head?),
    ⟨0, 0, 0, 0, 0, "", ""⟩⟩

/-- The ledger of some deliveries. -/
def build (scope : Scope) (ps : List (Processed services receiver)) : GithubReviewLedger :=
  signLedgerSnapshot services (body scope ps) ps.length receiver.signingKey

/-- The deliveries fit together. -/
structure Coherent (scope : Scope) (ps : List (Processed services receiver)) : Prop where
  inScope : ∀ p ∈ ps, p.opened.scope = scope
  ids : (ps.map (·.delivery.deliveryId)).Nodup
  deliveries : ps.length ≤ maxLedgerDeliveries
  receipts : (ps.filterMap (·.receipt?)).length ≤ maxLedgerReviews
  reviews : ((ps.filterMap (·.receipt?)).map (·.reviewId)).Nodup
  dismissals : ∀ dismissal ∈ ps.filterMap (·.dismissal?), ∀ receipt ∈ ps.filterMap (·.receipt?),
    receipt.reviewId = dismissal.reviewId → dismissalMatches dismissal receipt = true

namespace Coherent

theorem sublist (h : Coherent scope ps) (sub : qs.Sublist ps) : Coherent scope qs where
  inScope p member := h.inScope p (sub.subset member)
  ids := h.ids.sublist (sub.map _)
  deliveries := sub.length_le.trans h.deliveries
  receipts := (sub.filterMap _).length_le.trans h.receipts
  reviews := h.reviews.sublist ((sub.filterMap _).map _)
  dismissals dismissal dismissed receipt received :=
    h.dismissals dismissal ((sub.filterMap _).subset dismissed) receipt
      ((sub.filterMap _).subset received)

theorem perm (h : Coherent scope ps) (perm : ps.Perm qs) : Coherent scope qs where
  inScope p member := h.inScope p (perm.mem_iff.mpr member)
  ids := (perm.map _).nodup_iff.mp h.ids
  deliveries := perm.length_eq ▸ h.deliveries
  receipts := (perm.filterMap _).length_eq ▸ h.receipts
  reviews := ((perm.filterMap _).map _).nodup_iff.mp h.reviews
  dismissals dismissal dismissed receipt received :=
    h.dismissals dismissal ((perm.filterMap _).mem_iff.mpr dismissed) receipt
      ((perm.filterMap _).mem_iff.mpr received)

theorem nodup (h : Coherent scope ps) : ps.Nodup := h.ids.of_map _

theorem part (h : Coherent scope ps) (sub : qs ⊆ ps)
    (ids : (qs.map (·.delivery.deliveryId)).Nodup) : Coherent scope qs := by
  obtain ⟨rs, same, sub⟩ := List.subperm_of_subset ids.of_map sub
  exact (h.sublist sub).perm same

end Coherent

theorem coherent_nil : Coherent scope ([] : List (Processed services receiver)) where
  inScope _ member := absurd member List.not_mem_nil
  ids := List.nodup_nil
  deliveries := Nat.zero_le _
  receipts := Nat.zero_le _
  reviews := List.nodup_nil
  dismissals _ member := absurd member List.not_mem_nil

/-! ## Facts and their deliveries -/

section

variable (lawful : services.Lawful)

include lawful

theorem receipt?_spec {p : Processed services receiver} {receipt : GithubReviewReceipt}
    (h : p.receipt? = some receipt) :
    p.opened.kind = .pullRequestReviewSubmitted ∧ validateReviewReceipt receipt = .ok () ∧
      receipt.sourceDeliveryId = p.delivery.deliveryId ∧
      receipt.payloadSha256 = p.opened.payloadSha256 ∧
      receipt.receiptSha256 = receiptDigest services receipt ∧ p.fact = .reviewReceipt receipt := by
  have fact := p.factOf lawful
  rw [Processed.receipt?] at h
  cases hf : p.fact with
  | reviewReceipt found =>
      rw [hf] at h fact
      obtain rfl := Option.some.inj h
      cases fact with
      | receipt kind valid source payload digest => exact ⟨kind, valid, source, payload, digest,
          rfl⟩
  | dismissal _ | headObservation _ | ignoredReview =>
      rw [hf] at h
      cases h

theorem dismissal?_spec {p : Processed services receiver} {dismissal : GithubReviewDismissal}
    (h : p.dismissal? = some dismissal) :
    p.opened.kind = .pullRequestReviewDismissed ∧ validateReviewDismissal dismissal = .ok () ∧
      dismissal.sourceDeliveryId = p.delivery.deliveryId ∧
      dismissal.receivedAt = p.delivery.receivedAt ∧
      dismissal.payloadSha256 = p.opened.payloadSha256 ∧ p.fact = .dismissal dismissal := by
  have fact := p.factOf lawful
  rw [Processed.dismissal?] at h
  cases hf : p.fact with
  | dismissal found =>
      rw [hf] at h fact
      obtain rfl := Option.some.inj h
      cases fact with
      | dismissal kind valid source received payload =>
          exact ⟨kind, valid, source, received, payload, rfl⟩
  | reviewReceipt _ | headObservation _ | ignoredReview =>
      rw [hf] at h
      cases h

theorem head?_spec {p : Processed services receiver} {observation : GithubHeadObservation}
    (h : p.head? = some observation) :
    p.opened.kind = .pullRequestSynchronize ∧ validateHeadObservation observation = .ok () ∧
      observation.sourceDeliveryId = p.delivery.deliveryId ∧
      observation.receivedAt = p.delivery.receivedAt ∧
      observation.payloadSha256 = p.opened.payloadSha256 ∧
      p.fact = .headObservation observation := by
  have fact := p.factOf lawful
  rw [Processed.head?] at h
  cases hf : p.fact with
  | headObservation found =>
      rw [hf] at h fact
      obtain rfl := Option.some.inj h
      cases fact with
      | head kind valid source received payload =>
          exact ⟨kind, valid, source, received, payload, rfl⟩
  | reviewReceipt _ | dismissal _ | ignoredReview =>
      rw [hf] at h
      cases h

end

/-- The facts of different deliveries have different sources. -/
theorem sources_nodup {φ : Type} {fact? : Processed services receiver → Option φ}
    {source : φ → String}
    (sourced : ∀ p fact, fact? p = some fact → source fact = p.delivery.deliveryId)
    (ids : (ps.map (·.delivery.deliveryId)).Nodup) : ((ps.filterMap fact?).map source).Nodup :=
  (Keyed.filterMap_sublist fun p _ => sourced p).nodup ids

/-- What dismissals are sorted by. -/
abbrev dismissalKey (dismissal : GithubReviewDismissal) : Lex (Nat × String) :=
  toLex (dismissal.reviewId, dismissal.sourceDeliveryId)

theorem dismissals_nodup (lawful : services.Lawful)
    (ids : (ps.map (·.delivery.deliveryId)).Nodup) :
    ((ps.filterMap (·.dismissal?)).map dismissalKey).Nodup := by
  have sources : ((ps.filterMap (·.dismissal?)).map (·.sourceDeliveryId)).Nodup :=
    sources_nodup (fun p fact found => (dismissal?_spec lawful found).2.2.1) ids
  refine List.Nodup.of_map (fun key : Lex (Nat × String) => (ofLex key).2) ?_
  rwa [List.map_map]

/-- The ledger depends on which deliveries there are, not on their order. -/
theorem build_eq_of_perm (lawful : services.Lawful) (h : Coherent scope ps) (perm : ps.Perm qs) :
    build scope ps = build scope qs := by
  have records : ((ps.map (·.record scope)).map (·.deliveryId)).Nodup := by
    rw [List.map_map]
    exact h.ids
  have dismissed := dismissals_nodup lawful h.ids
  have heads : ((ps.filterMap (·.head?)).map (·.sourceDeliveryId)).Nodup :=
    sources_nodup (fun p fact found => (head?_spec lawful found).2.2.1) h.ids
  have sorted : body scope ps = body scope qs := by
    simp only [body, GithubReviewLedger.sort,
      Keyed.sorted_eq_of_perm records (perm.map _),
      Keyed.sorted_eq_of_perm h.reviews (perm.filterMap _),
      Keyed.sorted_eq_of_perm dismissed (perm.filterMap _),
      Keyed.sorted_eq_of_perm heads (perm.filterMap _)]
  rw [build, build, sorted, perm.length_eq]

/-! ## Validity -/

section

variable (lawful : services.Lawful)

/-- The records of the deliveries are told apart by their ids. -/
theorem records_nodup (h : (ps.map (·.delivery.deliveryId)).Nodup) :
    ((build scope ps).deliveries.map (·.deliveryId)).Nodup := by
  show ((Keyed.sorted (·.deliveryId) (ps.map (·.record scope))).map (·.deliveryId)).Nodup
  rw [Keyed.nodup_map_sorted, List.map_map]
  exact h

theorem find_record (h : (ps.map (·.delivery.deliveryId)).Nodup)
    {p : Processed services receiver} (member : p ∈ ps) {id : String}
    (same : p.delivery.deliveryId = id) :
    (build scope ps).deliveries.find? (fun delivery => delivery.deliveryId = id) =
      some (p.record scope) := by
  refine Keyed.find?_eq_some (records_nodup h) ?_ same
  exact Keyed.mem_sorted.mpr (List.mem_map.mpr ⟨p, member, rfl⟩)

include lawful

theorem record_fact_valid (p : Processed services receiver) :
    (p.record scope).derivedFactSha256.all isSha256 = true := by
  change (p.fact.digest services).all isSha256 = true
  cases p.fact with
  | reviewReceipt receipt => exact isSha256_hexSha256 lawful _
  | dismissal dismissal => exact isSha256_hexSha256 lawful _
  | headObservation observation => exact isSha256_hexSha256 lawful _
  | ignoredReview => rfl

theorem validateDeliveries_build (inScope : ∀ p ∈ ps, p.opened.scope = scope)
    (ids : (ps.map (·.delivery.deliveryId)).Nodup) :
    validateDeliveries services scope [] (build scope ps).deliveries = .ok () := by
  rw [validateDeliveries_eq_ok, Keyed.fresh_nil_iff]
  refine ⟨records_nodup ids, ?_⟩
  intro delivery member
  obtain ⟨p, there, rfl⟩ := List.mem_map.mp (Keyed.mem_sorted.mp member)
  refine ⟨p.checked.deliveryId, p.checked.receivedAt, ?_, record_fact_valid lawful p,
    p.record_verifies lawful (inScope p there)⟩
  change isSha256 p.opened.payloadSha256 = true
  rw [p.checked.payload]
  exact isSha256_hexSha256 lawful _

theorem validateReceipts_build (ids : (ps.map (·.delivery.deliveryId)).Nodup) :
    validateReceipts services (build scope ps).deliveries [] [] (build scope ps).reviewReceipts =
      .ok () ↔ ((ps.filterMap (·.receipt?)).map (·.reviewId)).Nodup := by
  rw [validateReceipts_eq_ok, Keyed.fresh_nil_iff, Keyed.fresh_nil_iff]
  change ((Keyed.sorted _ (ps.filterMap (·.receipt?))).map _).Nodup ∧
    ((Keyed.sorted _ (ps.filterMap (·.receipt?))).map _).Nodup ∧
    (∀ receipt ∈ Keyed.sorted _ (ps.filterMap (·.receipt?)), _) ↔ _
  rw [Keyed.nodup_map_sorted, Keyed.nodup_map_sorted]
  refine ⟨fun h => h.1, fun reviews => ⟨reviews,
    sources_nodup (fun p fact found => (receipt?_spec lawful found).2.2.1) ids, ?_⟩⟩
  intro receipt member
  obtain ⟨p, there, found⟩ := List.mem_filterMap.mp (Keyed.mem_sorted.mp member)
  obtain ⟨kind, valid, source, payload, digest, fact⟩ := receipt?_spec lawful found
  refine ⟨valid, p.record scope, find_record ids there source.symm, kind, payload, digest, ?_⟩
  change p.fact.digest services = _
  rw [fact]
  rfl

theorem validateDismissals_build (ids : (ps.map (·.delivery.deliveryId)).Nodup)
    (reviews : ((ps.filterMap (·.receipt?)).map (·.reviewId)).Nodup) :
    validateDismissals services (build scope ps).deliveries (build scope ps).reviewReceipts []
        (build scope ps).dismissals = .ok () ↔
      ∀ dismissal ∈ ps.filterMap (·.dismissal?), ∀ receipt ∈ ps.filterMap (·.receipt?),
        receipt.reviewId = dismissal.reviewId → dismissalMatches dismissal receipt = true := by
  have sorted : ((build scope ps).reviewReceipts.map (·.reviewId)).Nodup :=
    Keyed.nodup_map_sorted.mpr reviews
  rw [validateDismissals_eq_ok, Keyed.fresh_nil_iff]
  constructor
  · intro h dismissal dismissed receipt received same
    have fits := (h.2 dismissal (Keyed.mem_sorted.mpr dismissed)).2.2
    rw [Keyed.find?_eq_some sorted (Keyed.mem_sorted.mpr received) same] at fits
    exact fits
  · intro h
    refine ⟨Keyed.nodup_map_sorted.mpr
      (sources_nodup (fun p fact found => (dismissal?_spec lawful found).2.2.1) ids), ?_⟩
    intro dismissal member
    have dismissed := Keyed.mem_sorted.mp member
    obtain ⟨p, there, found⟩ := List.mem_filterMap.mp dismissed
    obtain ⟨kind, valid, source, received, payload, fact⟩ := dismissal?_spec lawful found
    refine ⟨valid, ⟨p.record scope, find_record ids there source.symm, kind, ⟨received, payload⟩,
      ?_⟩, ?_⟩
    · change p.fact.digest services = _
      rw [fact]
      rfl
    · rw [Option.all_eq_true]
      intro receipt found
      have received := Keyed.mem_sorted.mp (List.mem_of_find?_eq_some found)
      exact h dismissal dismissed receipt received (by simpa using List.find?_some found)

theorem validateHeads_build (ids : (ps.map (·.delivery.deliveryId)).Nodup) :
    validateHeads services (build scope ps).deliveries [] (build scope ps).headObservations =
      .ok () := by
  rw [validateHeads_eq_ok, Keyed.fresh_nil_iff]
  refine ⟨Keyed.nodup_map_sorted.mpr
    (sources_nodup (fun p fact found => (head?_spec lawful found).2.2.1) ids), ?_⟩
  intro head member
  obtain ⟨p, there, found⟩ := List.mem_filterMap.mp (Keyed.mem_sorted.mp member)
  obtain ⟨kind, valid, source, received, payload, fact⟩ := head?_spec lawful found
  refine ⟨valid, p.record scope, find_record ids there source.symm, kind, ⟨received, payload⟩, ?_⟩
  change p.fact.digest services = _
  rw [fact]
  rfl

/-- Each delivery has its fact, and an ignored review has none. -/
theorem validateFacts_build (ids : (ps.map (·.delivery.deliveryId)).Nodup)
    {p : Processed services receiver} (there : p ∈ ps) :
    validateFacts (build scope ps) (p.record scope) = .ok () := by
  have fact := p.factOf lawful
  have digest : (p.record scope).derivedFactSha256 = p.fact.digest services := rfl
  have kind : (p.record scope).kind = p.opened.kind := rfl
  have id : (p.record scope).deliveryId = p.delivery.deliveryId := rfl
  rw [validateFacts, kind, digest, id]
  cases hf : p.fact with
  | reviewReceipt receipt =>
      rw [hf] at fact
      cases fact with
      | receipt known valid source payload hashed =>
          rw [known]
          refine Result.ensure_of (List.mem_map.mpr ⟨receipt, Keyed.mem_sorted.mpr ?_, source⟩)
          exact List.mem_filterMap.mpr ⟨p, there, by simp [Processed.receipt?, hf]⟩
  | ignoredReview =>
      rw [hf] at fact
      cases fact with
      | ignored known =>
          rw [known]
          refine Result.ensure_of ?_
          intro member
          obtain ⟨receipt, member, source⟩ := List.mem_map.mp member
          obtain ⟨q, here, found⟩ := List.mem_filterMap.mp (Keyed.mem_sorted.mp member)
          obtain ⟨_, _, source', _, _, receipted⟩ := receipt?_spec lawful found
          have same : q = p := Keyed.eq_of_key ids here there (source'.symm.trans source)
          rw [same, hf] at receipted
          cases receipted
  | dismissal dismissal =>
      rw [hf] at fact
      cases fact with
      | dismissal known valid source received payload =>
          rw [known]
          simp only [Result.check_bind_eq_ok, Result.ensure_eq_ok]
          refine ⟨rfl, List.mem_map.mpr ⟨dismissal, Keyed.mem_sorted.mpr ?_, source⟩⟩
          exact List.mem_filterMap.mpr ⟨p, there, by simp [Processed.dismissal?, hf]⟩
  | headObservation observation =>
      rw [hf] at fact
      cases fact with
      | head known valid source received payload =>
          rw [known]
          simp only [Result.check_bind_eq_ok, Result.ensure_eq_ok]
          refine ⟨rfl, List.mem_map.mpr ⟨observation, Keyed.mem_sorted.mpr ?_, source⟩⟩
          exact List.mem_filterMap.mpr ⟨p, there, by simp [Processed.head?, hf]⟩

/-- A snapshot that was just signed is one that the ledger accepts. -/
theorem verifyLedgerSnapshot_sign {ledger : GithubReviewLedger} {revision : Nat}
    {signingKey : Bytes} (positive : revision ≠ 0)
    (key : ledger.receiver.publicKey = encodeHex (services.verifyingKey signingKey)) :
    verifyLedgerSnapshot services (signLedgerSnapshot services ledger revision signingKey) =
      .ok () := by
  simp only [verifyLedgerSnapshot, Result.check_bind_eq_ok, Result.ensure_eq_ok]
  refine ⟨positive, ⟨rfl, rfl, rfl, rfl⟩, isSha256_hexSha256 lawful _, rfl, ?_⟩
  have receiver_eq : (signLedgerSnapshot services ledger revision signingKey).receiver.publicKey =
      encodeHex (services.verifyingKey signingKey) := key
  simp only [verifyReceiverSignature, receiver_eq,
    decodeLowerHex32_encodeHex (lawful.verifyingKeyLength _), lawful.accepts, Except.mapError,
    Result.ok_bind]
  have signature :
      (signLedgerSnapshot services ledger revision signingKey).snapshot.receiverSignature =
        encodeHex (services.sign signingKey (ledgerSnapshotAttestationMessage services
          (signLedgerSnapshot services ledger revision signingKey).receiver
          (signLedgerSnapshot services ledger revision signingKey).snapshot)) := rfl
  rw [signature, decodeLowerHex64_encodeHex (lawful.signatureLength _ _)]
  exact Result.ensure_of (lawful.verifies _ _)

theorem verifyLedgerSnapshot_build {p : Processed services receiver} (there : p ∈ ps)
    (inScope : p.opened.scope = scope) :
      verifyLedgerSnapshot services (build scope ps) = .ok () := by
  have key : scope.receiver.publicKey = encodeHex (services.verifyingKey receiver.signingKey) := by
    rw [← inScope, p.checked.receiver]
  have nonempty : ps.length ≠ 0 := by
    intro empty
    rw [List.length_eq_zero_iff.mp empty] at there
    cases there
  exact verifyLedgerSnapshot_sign lawful nonempty key

/-- The ledger of deliveries of one pull request with different ids is valid exactly when
they fit together. -/
theorem validate_build (nonempty : ps ≠ []) (inScope : ∀ p ∈ ps, p.opened.scope = scope)
    (ids : (ps.map (·.delivery.deliveryId)).Nodup) :
    (build scope ps).validate services = .ok () ↔ Coherent scope ps := by
  obtain ⟨p, there⟩ := List.exists_mem_of_ne_nil ps nonempty
  obtain ⟨_, _, _, _, providerUrl, repository, pullRequest, keyId, identity⟩ := p.checked
  rw [inScope p there] at providerUrl repository pullRequest keyId identity
  have facts : (build scope ps).deliveries.forM (validateFacts (build scope ps)) = .ok () := by
    refine Result.forM_eq_ok.mpr fun delivery member => ?_
    obtain ⟨q, here, rfl⟩ := List.mem_map.mp (Keyed.mem_sorted.mp member)
    exact validateFacts_build lawful ids here
  have receiverValid : validateReceiverIdentity scope.receiver = .ok () := by
    rw [identity] at keyId ⊢
    rw [validateReceiverIdentity]
    simp only [keyId, decodeLowerHex32_encodeHex (lawful.verifyingKeyLength _), Except.mapError]
    rfl
  simp only [GithubReviewLedger.validate, Result.check_bind_eq_ok, Result.ensure_eq_ok]
  constructor
  · rintro ⟨_, _, _, _, _, deliveries, receipts, _, reviews, dismissals, _⟩
    have reviews := (validateReceipts_build lawful ids).mp reviews
    refine ⟨inScope, ids, ?_, ?_, reviews, (validateDismissals_build lawful ids reviews).mp
      dismissals⟩
    · simpa [build, body, signLedgerSnapshot, GithubReviewLedger.sort] using deliveries
    · simpa [build, body, signLedgerSnapshot, GithubReviewLedger.sort] using receipts
  · intro h
    refine ⟨rfl, providerUrl, repository, pullRequest, receiverValid, ?_, ?_,
      validateDeliveries_build lawful inScope ids,
      (validateReceipts_build lawful ids).mpr h.reviews,
        (validateDismissals_build lawful ids h.reviews).mpr h.dismissals,
      validateHeads_build lawful ids, facts,
      verifyLedgerSnapshot_build lawful there (inScope p there)⟩
    · simpa [build, body, signLedgerSnapshot, GithubReviewLedger.sort] using h.deliveries
    · simpa [build, body, signLedgerSnapshot, GithubReviewLedger.sort] using h.receipts

end

end Stratadiff.Ledger
