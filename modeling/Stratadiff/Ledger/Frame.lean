import Stratadiff.Ledger.Active

/-!
# Steps of the ledger

What a valid ledger holds, in terms of its members: every fact names the delivery it came
with, and every delivery that signs the digest of a fact has that fact. A step adds one
delivery and at most one fact, and nothing else changes.
-/

namespace Stratadiff.Ledger

/-! ## Facts and the deliveries they name -/

/-- The delivery that a fact names. -/
def DerivedFact.source? : DerivedFact → Option String
  | .reviewReceipt fact => some fact.sourceDeliveryId
  | .dismissal fact => some fact.sourceDeliveryId
  | .headObservation fact => some fact.sourceDeliveryId
  | .ignoredReview => none

def DerivedFact.Names (fact : DerivedFact) (deliveryId : String) : Prop :=
  fact.source? = some deliveryId

/-- The facts of a ledger, whatever list they are kept in. -/
def GithubReviewLedger.facts (ledger : GithubReviewLedger) : List DerivedFact :=
  ledger.reviewReceipts.map .reviewReceipt ++ ledger.dismissals.map .dismissal ++
    ledger.headObservations.map .headObservation

/-- Facts and the deliveries that carry one belong together one by one. -/
structure GithubReviewLedger.OneToOne (services : Services) (ledger : GithubReviewLedger) :
    Prop where
  deliveries : ledger.deliveries.Nodup
  facts : ledger.facts.Nodup
  /-- A fact names one delivery, which carries its digest. -/
  delivery : ∀ fact ∈ ledger.facts, ∃! delivery, delivery ∈ ledger.deliveries ∧
    fact.Names delivery.deliveryId ∧ fact.digest services = delivery.derivedFactSha256 ∧
      delivery.derivedFactSha256.isSome
  /-- A delivery that carries a digest is named by one fact. -/
  fact : ∀ delivery ∈ ledger.deliveries, delivery.derivedFactSha256.isSome →
    ∃! fact, fact ∈ ledger.facts ∧ fact.Names delivery.deliveryId

/-! ## Validity in terms of members -/

/-- What was checked before the lists. -/
structure GithubReviewLedger.Heading (ledger : GithubReviewLedger) : Prop where
  schema : ledger.schema = githubReviewLedgerSchema
  providerUrl : validateProviderUrl ledger.providerUrl = .ok ()
  repository : validateRepositoryIdentity ledger.repository = .ok ()
  pullRequest : validatePullRequestIdentity ledger.pullRequest = .ok ()
  receiver : validateReceiverIdentity ledger.receiver = .ok ()
  deliveries : ledger.deliveries.length ≤ maxLedgerDeliveries
  receipts : ledger.reviewReceipts.length ≤ maxLedgerReviews

/-- What the loops check, without an order of the lists. -/
structure GithubReviewLedger.Consistent (services : Services) (ledger : GithubReviewLedger) :
    Prop where
  ids : (ledger.deliveries.map (·.deliveryId)).Nodup
  deliveries : ∀ delivery ∈ ledger.deliveries,
    validateDeliveryId delivery.deliveryId = .ok () ∧
    validGithubTimestamp delivery.receivedAt = true ∧ isSha256 delivery.payloadSha256 = true ∧
    delivery.derivedFactSha256.all isSha256 = true ∧
    verifyDeliverySignature services ledger.toScope delivery = .ok ()
  reviews : (ledger.reviewReceipts.map (·.reviewId)).Nodup
  receiptSources : (ledger.reviewReceipts.map (·.sourceDeliveryId)).Nodup
  receipts : ∀ receipt ∈ ledger.reviewReceipts, validateReviewReceipt receipt = .ok () ∧
    ∃ delivery ∈ ledger.deliveries, delivery.deliveryId = receipt.sourceDeliveryId ∧
      delivery.kind = .pullRequestReviewSubmitted ∧
      receipt.payloadSha256 = delivery.payloadSha256 ∧
      receipt.receiptSha256 = receiptDigest services receipt ∧
      delivery.derivedFactSha256 = some (receiptDigest services receipt)
  dismissalSources : (ledger.dismissals.map (·.sourceDeliveryId)).Nodup
  dismissals : ∀ dismissal ∈ ledger.dismissals, validateReviewDismissal dismissal = .ok () ∧
    (∃ delivery ∈ ledger.deliveries, delivery.deliveryId = dismissal.sourceDeliveryId ∧
      delivery.kind = .pullRequestReviewDismissed ∧
      (dismissal.receivedAt = delivery.receivedAt ∧
        dismissal.payloadSha256 = delivery.payloadSha256) ∧
      delivery.derivedFactSha256 = some (dismissalDigest services dismissal)) ∧
    ∀ receipt ∈ ledger.reviewReceipts, receipt.reviewId = dismissal.reviewId →
      dismissalMatches dismissal receipt = true
  headSources : (ledger.headObservations.map (·.sourceDeliveryId)).Nodup
  heads : ∀ head ∈ ledger.headObservations, validateHeadObservation head = .ok () ∧
    ∃ delivery ∈ ledger.deliveries, delivery.deliveryId = head.sourceDeliveryId ∧
      delivery.kind = .pullRequestSynchronize ∧
      (head.receivedAt = delivery.receivedAt ∧ head.payloadSha256 = delivery.payloadSha256) ∧
      delivery.derivedFactSha256 = some (headObservationDigest services head)
  facts : ∀ delivery ∈ ledger.deliveries, validateFacts ledger delivery = .ok ()

section

variable {services : Services} {ledger other : GithubReviewLedger}

theorem refers_iff {deliveries : List GithubWebhookDelivery} {id : String}
    {P : GithubWebhookDelivery → Prop} (ids : (deliveries.map (·.deliveryId)).Nodup) :
    Refers deliveries id P ↔ ∃ delivery ∈ deliveries, delivery.deliveryId = id ∧ P delivery := by
  constructor
  · rintro ⟨delivery, found, holds⟩
    exact ⟨delivery, List.mem_of_find?_eq_some found, by simpa using List.find?_some found, holds⟩
  · rintro ⟨delivery, member, same, holds⟩
    exact ⟨delivery, Keyed.find?_eq_some ids member same, holds⟩

theorem find_all_iff {receipts : List GithubReviewReceipt} {dismissal : GithubReviewDismissal}
    (reviews : (receipts.map (·.reviewId)).Nodup) :
    (receipts.find? fun receipt => receipt.reviewId = dismissal.reviewId).all
        (dismissalMatches dismissal) = true ↔
      ∀ receipt ∈ receipts, receipt.reviewId = dismissal.reviewId →
        dismissalMatches dismissal receipt = true := by
  rw [Option.all_eq_true]
  constructor
  · intro h receipt member same
    exact h receipt (Keyed.find?_eq_some reviews member same)
  · intro h receipt found
    exact h receipt (List.mem_of_find?_eq_some found) (by simpa using List.find?_some found)

theorem validate_eq_ok : ledger.validate services = .ok () ↔
    ledger.Heading ∧ ledger.Consistent services ∧
      verifyLedgerSnapshot services ledger = .ok () := by
  simp only [GithubReviewLedger.validate, Result.check_bind_eq_ok, Result.ensure_eq_ok,
    validateDeliveries_eq_ok, validateReceipts_eq_ok, validateDismissals_eq_ok, validateHeads_eq_ok,
    Keyed.fresh_nil_iff, Result.forM_eq_ok]
  constructor
  · rintro ⟨schema, providerUrl, repository, pullRequest, receiver, deliveries, receipts,
      ⟨ids, eachDelivery⟩, ⟨reviews, receiptSources, eachReceipt⟩,
      ⟨dismissalSources, eachDismissal⟩, ⟨headSources, eachHead⟩, facts, snapshot⟩
    refine ⟨⟨schema, providerUrl, repository, pullRequest, receiver, deliveries, receipts⟩, ?_,
      snapshot⟩
    simp only [refers_iff ids, find_all_iff reviews] at eachReceipt eachDismissal eachHead
    exact ⟨ids, eachDelivery, reviews, receiptSources, eachReceipt, dismissalSources, eachDismissal,
      headSources, eachHead, facts⟩
  · rintro ⟨⟨schema, providerUrl, repository, pullRequest, receiver, deliveries, receipts⟩,
      consistent, snapshot⟩
    simp only [refers_iff consistent.ids, find_all_iff consistent.reviews]
    exact ⟨schema, providerUrl, repository, pullRequest, receiver, deliveries, receipts,
      ⟨consistent.ids, consistent.deliveries⟩,
      ⟨consistent.reviews, consistent.receiptSources, consistent.receipts⟩,
      ⟨consistent.dismissalSources, consistent.dismissals⟩,
      ⟨consistent.headSources, consistent.heads⟩, consistent.facts, snapshot⟩

/-! ## One fact for each delivery that carries one -/

/-- The kind of delivery that brings a fact. -/
def DerivedFact.deliveryKind : DerivedFact → GithubWebhookKind
  | .reviewReceipt _ => .pullRequestReviewSubmitted
  | .dismissal _ => .pullRequestReviewDismissed
  | .headObservation _ => .pullRequestSynchronize
  | .ignoredReview => .pullRequestReviewSubmitted

theorem mem_facts {fact : DerivedFact} : fact ∈ ledger.facts ↔
    (∃ receipt ∈ ledger.reviewReceipts, .reviewReceipt receipt = fact) ∨
      (∃ dismissal ∈ ledger.dismissals, .dismissal dismissal = fact) ∨
      ∃ head ∈ ledger.headObservations, .headObservation head = fact := by
  simp only [GithubReviewLedger.facts, List.mem_append, List.mem_map, or_assoc]

namespace GithubReviewLedger.Consistent

variable (consistent : ledger.Consistent services)

include consistent

/-- The delivery that a fact names is of its kind and carries its digest. -/
theorem bearer {fact : DerivedFact} (here : fact ∈ ledger.facts) :
    ∃ delivery ∈ ledger.deliveries, fact.Names delivery.deliveryId ∧
      delivery.kind = fact.deliveryKind ∧ fact.digest services = delivery.derivedFactSha256 ∧
        delivery.derivedFactSha256.isSome := by
  obtain ⟨receipt, member, rfl⟩ | ⟨dismissal, member, rfl⟩ | ⟨head, member, rfl⟩ :=
    mem_facts.mp here
  · obtain ⟨_, delivery, there, same, kind, _, _, digest⟩ := consistent.receipts receipt member
    exact ⟨delivery, there, congrArg some same.symm, kind, digest.symm, by rw [digest]; rfl⟩
  · obtain ⟨_, ⟨delivery, there, same, kind, _, digest⟩, _⟩ :=
      consistent.dismissals dismissal member
    exact ⟨delivery, there, congrArg some same.symm, kind, digest.symm, by rw [digest]; rfl⟩
  · obtain ⟨_, delivery, there, same, kind, _, digest⟩ := consistent.heads head member
    exact ⟨delivery, there, congrArg some same.symm, kind, digest.symm, by rw [digest]; rfl⟩

theorem delivery_unique {left right : GithubWebhookDelivery} {fact : DerivedFact}
    (hl : left ∈ ledger.deliveries) (hr : right ∈ ledger.deliveries)
    (namesLeft : fact.Names left.deliveryId) (namesRight : fact.Names right.deliveryId) :
    left = right :=
  Keyed.eq_of_key consistent.ids hl hr (Option.some.inj (namesLeft.symm.trans namesRight))

/-- Facts that name one delivery are one fact: they are of its kind, and the facts of a kind have
different sources. -/
theorem fact_unique {left right : DerivedFact} {delivery : GithubWebhookDelivery}
    (there : delivery ∈ ledger.deliveries) (hl : left ∈ ledger.facts) (hr : right ∈ ledger.facts)
    (namesLeft : left.Names delivery.deliveryId) (namesRight : right.Names delivery.deliveryId) :
    left = right := by
  obtain ⟨bearer, hb, named, kind, _⟩ := consistent.bearer hl
  obtain ⟨bearer', hb', named', kind', _⟩ := consistent.bearer hr
  obtain rfl := consistent.delivery_unique there hb namesLeft named
  obtain rfl := consistent.delivery_unique there hb' namesRight named'
  have sources : left.source? = right.source? := namesLeft.trans namesRight.symm
  rw [kind] at kind'
  obtain ⟨receipt, member, rfl⟩ | ⟨dismissal, member, rfl⟩ | ⟨head, member, rfl⟩ :=
    mem_facts.mp hl <;>
  obtain ⟨receipt', member', rfl⟩ | ⟨dismissal', member', rfl⟩ | ⟨head', member', rfl⟩ :=
    mem_facts.mp hr <;> try cases kind'
  · rw [Keyed.eq_of_key consistent.receiptSources member member' (Option.some.inj sources)]
  · rw [Keyed.eq_of_key consistent.dismissalSources member member' (Option.some.inj sources)]
  · rw [Keyed.eq_of_key consistent.headSources member member' (Option.some.inj sources)]

theorem facts_nodup : ledger.facts.Nodup := by
  have receipts : (ledger.reviewReceipts.map DerivedFact.reviewReceipt).Nodup :=
    consistent.receiptSources.of_map.map fun _ _ => DerivedFact.reviewReceipt.inj
  have dismissals : (ledger.dismissals.map DerivedFact.dismissal).Nodup :=
    consistent.dismissalSources.of_map.map fun _ _ => DerivedFact.dismissal.inj
  have heads : (ledger.headObservations.map DerivedFact.headObservation).Nodup :=
    consistent.headSources.of_map.map fun _ _ => DerivedFact.headObservation.inj
  rw [GithubReviewLedger.facts, List.nodup_append, List.nodup_append]
  refine ⟨⟨receipts, dismissals, ?_⟩, heads, ?_⟩
  · intro left hl right hr same
    obtain ⟨_, _, rfl⟩ := List.mem_map.mp hl
    obtain ⟨_, _, rfl⟩ := List.mem_map.mp hr
    cases same
  · intro left hl right hr same
    obtain ⟨_, _, rfl⟩ := List.mem_map.mp hr
    subst same
    obtain there | there := List.mem_append.mp hl
    · obtain ⟨_, _, same⟩ := List.mem_map.mp there
      cases same
    · obtain ⟨_, _, same⟩ := List.mem_map.mp there
      cases same

/-- A delivery that carries a digest has its fact in the ledger. -/
theorem exists_fact {delivery : GithubWebhookDelivery} (there : delivery ∈ ledger.deliveries)
    (carries : delivery.derivedFactSha256.isSome) :
    ∃ fact ∈ ledger.facts, fact.Names delivery.deliveryId := by
  have valid := consistent.facts delivery there
  rw [validateFacts] at valid
  cases kind : delivery.kind with
  | pullRequestReviewSubmitted =>
      simp only [kind, carries, if_true, Result.ensure_eq_ok] at valid
      obtain ⟨receipt, member, same⟩ := List.mem_map.mp valid
      exact ⟨_, mem_facts.mpr (.inl ⟨receipt, member, rfl⟩), congrArg some same⟩
  | pullRequestReviewDismissed =>
      simp only [kind, Result.check_bind_eq_ok, Result.ensure_eq_ok] at valid
      obtain ⟨dismissal, member, same⟩ := List.mem_map.mp valid.2
      exact ⟨_, mem_facts.mpr (.inr (.inl ⟨dismissal, member, rfl⟩)), congrArg some same⟩
  | pullRequestSynchronize =>
      simp only [kind, Result.check_bind_eq_ok, Result.ensure_eq_ok] at valid
      obtain ⟨head, member, same⟩ := List.mem_map.mp valid.2
      exact ⟨_, mem_facts.mpr (.inr (.inr ⟨head, member, rfl⟩)), congrArg some same⟩

theorem oneToOne : ledger.OneToOne services where
  deliveries := consistent.ids.of_map
  facts := consistent.facts_nodup
  delivery := by
    intro fact member
    obtain ⟨delivery, there, names, _, digest, carries⟩ := consistent.bearer member
    refine ⟨delivery, ⟨there, names, digest, carries⟩, ?_⟩
    rintro other ⟨there', names', _⟩
    exact consistent.delivery_unique there' there names' names
  fact := by
    intro delivery there carries
    obtain ⟨fact, member, names⟩ := consistent.exists_fact there carries
    refine ⟨fact, ⟨member, names⟩, ?_⟩
    rintro other ⟨member', names'⟩
    exact consistent.fact_unique there member' member names' names

end GithubReviewLedger.Consistent

/-! ## The step -/

theorem submittedReceipt_source {review : GithubReviewPayload} {deliveryId payloadSha256 : String}
    {receipt : GithubReviewReceipt}
    (h : submittedReceipt services review deliveryId payloadSha256 = .ok (some receipt)) :
    receipt.sourceDeliveryId = deliveryId := by
  obtain ⟨state, _, h⟩ := Result.bind_eq_ok.mp h
  cases state with
  | none => cases h
  | some state =>
      simp only [Result.ofOption_bind_eq_ok, Result.check_bind_eq_ok, Result.pure_eq_ok,
        Option.some.injEq] at h
      obtain ⟨_, _, _, _, _, _, _, _, rfl⟩ := h
      rfl

/-- The fact of a delivery names it. -/
theorem fromParsed_names {parsed : ParsedWebhook} {deliveryId receivedAt payloadSha256 : String}
    {fact : DerivedFact}
    (h : DerivedFact.fromParsed services parsed deliveryId receivedAt payloadSha256 = .ok fact) :
    fact = .ignoredReview ∨ fact.Names deliveryId := by
  cases parsed with
  | review webhook =>
      rw [DerivedFact.fromParsed] at h
      split at h
      · obtain ⟨receipt, submitted, h⟩ := Result.bind_eq_ok.mp h
        cases receipt with
        | none => exact .inl (Except.ok.inj h).symm
        | some receipt =>
            obtain rfl := Except.ok.inj h
            exact .inr (congrArg some (submittedReceipt_source submitted))
      · obtain ⟨dismissal, dismissed, h⟩ := Result.bind_eq_ok.mp h
        obtain rfl := Except.ok.inj h
        exact .inr (congrArg some (dismissedReview_spec dismissed).2.1)
  | synchronize webhook =>
      obtain ⟨observation, observed, h⟩ := Result.bind_eq_ok.mp h
      obtain rfl := Except.ok.inj h
      exact .inr (congrArg some (observedHead_spec observed).2.1)

/-- A ledger with at most one more fact, and its deliveries as they were. -/
structure Appends (ledger appended : GithubReviewLedger) (fact : DerivedFact) : Prop where
  scope : appended.toScope = ledger.toScope
  deliveries : appended.deliveries = ledger.deliveries
  facts : appended.facts = ledger.facts ∨
    (fact ≠ .ignoredReview ∧ appended.facts.Perm (fact :: ledger.facts))

theorem appendTo_appends {fact : DerivedFact} {appended : GithubReviewLedger}
    (h : fact.appendTo ledger = .ok appended) : Appends ledger appended fact := by
  cases fact with
  | reviewReceipt receipt =>
      rw [DerivedFact.appendTo, insertReviewReceipt] at h
      split at h
      · simp only [Result.check_bind_eq_ok, Result.pure_eq_ok] at h
        obtain ⟨_, rfl⟩ := h
        exact ⟨rfl, rfl, .inl rfl⟩
      · simp only [Result.check_bind_eq_ok, Result.pure_eq_ok] at h
        obtain ⟨_, rfl⟩ := h
        refine ⟨rfl, rfl, .inr ⟨by simp, ?_⟩⟩
        simp only [GithubReviewLedger.facts, List.map_append, List.map_cons, List.map_nil,
          List.append_assoc, List.singleton_append]
        exact List.perm_middle
  | dismissal dismissal =>
      obtain rfl := Except.ok.inj h
      refine ⟨rfl, rfl, .inr ⟨by simp, ?_⟩⟩
      simp only [GithubReviewLedger.facts, List.map_append, List.map_cons, List.map_nil,
        List.append_assoc, List.singleton_append]
      rw [← List.append_assoc, ← List.append_assoc]
      exact List.perm_middle
  | headObservation observation =>
      obtain rfl := Except.ok.inj h
      refine ⟨rfl, rfl, .inr ⟨by simp, ?_⟩⟩
      simp only [GithubReviewLedger.facts, List.map_append, List.map_cons, List.map_nil]
      rw [← List.append_assoc]
      exact List.perm_append_comm
  | ignoredReview =>
      obtain rfl := Except.ok.inj h
      exact ⟨rfl, rfl, .inl rfl⟩

theorem facts_perm (receipts : other.reviewReceipts.Perm ledger.reviewReceipts)
    (dismissals : other.dismissals.Perm ledger.dismissals)
    (heads : other.headObservations.Perm ledger.headObservations) :
    other.facts.Perm ledger.facts :=
  ((receipts.map _).append (dismissals.map _)).append (heads.map _)

theorem sort_facts (ledger : GithubReviewLedger) : ledger.sort.facts.Perm ledger.facts :=
  facts_perm (List.perm_insertionSort _ _) (List.perm_insertionSort _ _)
    (List.perm_insertionSort _ _)

/-- What a step from a ledger makes: its delivery and at most one fact, which names it, are new. -/
structure Stepped (services : Services) (ledger ledger' : GithubReviewLedger)
    (deliveryId : String) : Prop where
  valid : ledger'.validate services = .ok ()
  scope : ledger'.toScope = ledger.toScope
  revision : ledger'.snapshot.revision = ledger.snapshot.revision + 1
  deliveries : ∃ delivery, delivery.deliveryId = deliveryId ∧
    ledger'.deliveries.Perm (delivery :: ledger.deliveries)
  facts : ∃ new : Option DerivedFact, (∀ fact ∈ new, fact.Names deliveryId) ∧
    ledger'.facts.Perm (new.toList ++ ledger.facts)

theorem stepped_of_ingest {ledger' : GithubReviewLedger} {outcome : IngestOutcome}
    {ingest : GithubWebhookIngest}
    (h : ingestGithubWebhook services (some ledger) ingest = .ok (ledger', outcome)) :
    (ingest.deliveryId ∈ ledger.deliveries.map (·.deliveryId) ∧ ledger' = ledger ∧
        outcome = .duplicate) ∨
      (ingest.deliveryId ∉ ledger.deliveries.map (·.deliveryId) ∧
        Stepped services ledger ledger' ingest.deliveryId ∧ outcome = .applied) := by
  obtain ⟨opened, _, h⟩ := Result.bind_eq_ok.mp h
  obtain ⟨_, opens, h⟩ := Result.bind_eq_ok.mp h
  simp only [openLedger, Result.check_bind_eq_ok, Result.pure_eq_ok] at opens
  obtain ⟨_, _, _, _, _, rfl⟩ := opens
  split at h
  · next existing found =>
    simp only [Result.check_bind_eq_ok, Result.pure_eq_ok, Prod.mk.injEq] at h
    obtain ⟨_, rfl, rfl⟩ := h
    refine .inl ⟨List.mem_map.mpr ⟨existing, List.mem_of_find?_eq_some found, ?_⟩, rfl, rfl⟩
    simpa using List.find?_some found
  · next absent =>
    obtain ⟨_, _, h⟩ := Result.bind_eq_ok.mp h
    obtain ⟨fact, derives, h⟩ := Result.bind_eq_ok.mp h
    obtain ⟨appended, appends, h⟩ := Result.bind_eq_ok.mp h
    obtain ⟨revision, next, h⟩ := Result.ofOption_bind_eq_ok.mp h
    simp only [Result.check_bind_eq_ok, Result.pure_eq_ok, Prod.mk.injEq] at h
    obtain ⟨valid, rfl, rfl⟩ := h
    obtain ⟨scope, kept, facts⟩ := appendTo_appends appends
    have new : ingest.deliveryId ∉ ledger.deliveries.map (·.deliveryId) := by
      intro member
      obtain ⟨existing, there, equal⟩ := List.mem_map.mp member
      exact List.find?_eq_none.mp absent existing there (decide_eq_true equal)
    refine .inr ⟨new, ⟨valid, ?_, (checkedAdd_eq_some.mp next).2.symm, ?_, ?_⟩, rfl⟩
    · exact scope
    · refine ⟨signedDelivery services ingest opened fact ledger.toScope, rfl, ?_⟩
      refine (List.perm_insertionSort _ _).trans ?_
      show (appended.deliveries ++ [_]).Perm _
      rw [kept]
      exact List.perm_append_comm
    · have sorted := sort_facts { appended with
        deliveries := appended.deliveries ++ [signedDelivery services ingest opened fact
          ledger.toScope] }
      obtain unchanged | ⟨factual, added⟩ := facts
      · exact ⟨none, by simp, sorted.trans (.of_eq unchanged)⟩
      · refine ⟨some fact, ?_, sorted.trans added⟩
        rintro _ ⟨⟩
        exact (fromParsed_names derives).resolve_left factual

/-- The ledger that is kept after a request: a failed one leaves the ledger as it was. -/
def keptLedger (services : Services) (stored : Option GithubReviewLedger)
    (ingest : GithubWebhookIngest) : Option GithubReviewLedger :=
  match ingestGithubWebhook services stored ingest with
  | .ok (ledger, _) => some ledger
  | .error _ => stored

end

/-- In a valid ledger facts and the deliveries that carry one belong together one by one. A known
delivery leaves the ledger as it is; a new one that is ingested gives a valid ledger with the next
revision, the delivery, and at most one new fact, which names it. A failed request hands out no
ledger, so the caller keeps the one it has: that part holds by the definition of `keptLedger`. -/
theorem ledger_step_frame {services : Services} {ledger : GithubReviewLedger}
    (valid : ledger.validate services = .ok ()) :
    ledger.OneToOne services ∧
    (∀ ingest ledger' outcome,
      ingestGithubWebhook services (some ledger) ingest = .ok (ledger', outcome) →
      (ingest.deliveryId ∈ ledger.deliveries.map (·.deliveryId) ∧ ledger' = ledger ∧
        outcome = .duplicate) ∨
      (ingest.deliveryId ∉ ledger.deliveries.map (·.deliveryId) ∧
        Stepped services ledger ledger' ingest.deliveryId ∧ outcome = .applied)) ∧
    ∀ ingest failure, ingestGithubWebhook services (some ledger) ingest = .error failure →
      keptLedger services (some ledger) ingest = some ledger := by
  refine ⟨(validate_eq_ok.mp valid).2.1.oneToOne, fun _ _ _ => stepped_of_ingest, ?_⟩
  intro ingest failure failed
  rw [keptLedger, failed]

open Sample in
/-- The dismissal of a review after its submission. -/
theorem ledger_step_frame_sample : ∃ ledger',
    ingestGithubWebhook services (some (build scope [submission])) (receiver.request dismissed) =
      .ok (ledger', .applied) ∧
    Stepped services (build scope [submission]) ledger' "delivery-dismiss" := by
  have sub : [submission] ⊆ [dismissal, submission] := List.subset_cons_self _ _
  have small : Coherent scope [submission] := coherent.part sub (List.nodup_singleton _)
  have valid : (build scope [submission]).validate services = .ok () :=
    small.validate lawful (List.cons_ne_nil _ _)
  have larger : Coherent scope ([submission] ++ [dismissal]) :=
    coherent.perm (List.Perm.swap submission dismissal [])
  have new : dismissal.delivery.deliveryId ∉ [submission].map (·.delivery.deliveryId) := by
    decide
  have run := (ingest_new lawful small (p := dismissal) rfl new).mpr ⟨larger, rfl, rfl⟩
  refine ⟨_, run, ?_⟩
  obtain ⟨_, _, outcome⟩ | ⟨_, stepped, _⟩ := (ledger_step_frame valid).2.1 _ _ _ run
  · cases outcome
  · exact stepped

end Stratadiff.Ledger
