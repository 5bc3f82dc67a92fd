import Stratadiff.Ledger.Collection

/-!
# The order of deliveries does not matter

Ingesting a new delivery takes the ledger of a collection to the ledger of the collection
with that delivery, and succeeds exactly when the larger collection fits together; a
delivery that is in the collection is a duplicate. As every part of a collection that
fits together does too, an order of ingestion cannot fail half way where another one
succeeds.
-/

namespace Stratadiff.Ledger

section

variable {services : Services} {receiver : Receiver} {scope : Scope}
variable {ps qs : List (Processed services receiver)} {p : Processed services receiver}

/-- What a receiver has after some deliveries. -/
def ledgerOf (scope : Scope) : List (Processed services receiver) → Option GithubReviewLedger
  | [] => none
  | p :: ps => some (build scope (p :: ps))

theorem ledgerOf_of_ne_nil (h : ps ≠ []) : ledgerOf scope ps = some (build scope ps) := by
  cases ps with
  | nil => exact absurd rfl h
  | cons p ps => rfl

section

variable (lawful : services.Lawful)

include lawful

theorem Coherent.validate (h : Coherent scope ps) (nonempty : ps ≠ []) :
    (build scope ps).validate services = .ok () :=
  (validate_build lawful nonempty h.inScope h.ids).mpr h

theorem openLedger_ledgerOf (h : Coherent scope ps) :
    ∃ snapshot : GithubLedgerSnapshot, snapshot.revision = ps.length ∧
      openLedger services scope (ledgerOf scope ps) =
        .ok { body scope ps with snapshot := snapshot } := by
  cases ps with
  | nil => exact ⟨_, rfl, rfl⟩
  | cons p ps =>
      refine ⟨(build scope (p :: ps)).snapshot, rfl, ?_⟩
      simp only [ledgerOf, openLedger, Result.check_bind_eq_ok, Result.ensure_eq_ok]
      exact ⟨h.validate lawful (List.cons_ne_nil p ps), rfl, rfl, rfl, rfl, rfl⟩

end

/-- A ledger takes only deliveries of its own pull request and receiver. -/
theorem scope_of_openLedger {opened : Scope} {ledger : GithubReviewLedger} (nonempty : ps ≠ [])
    (h : openLedger services opened (ledgerOf scope ps) = .ok ledger) : opened = scope := by
  rw [ledgerOf_of_ne_nil nonempty] at h
  simp only [openLedger, Result.check_bind_eq_ok, Result.ensure_eq_ok] at h
  obtain ⟨_, providerUrl, repository, pullRequest, receiver, _⟩ := h
  obtain ⟨_, _, _, _⟩ := opened
  obtain ⟨_, _, _, _⟩ := scope
  obtain rfl := providerUrl
  obtain rfl := repository
  obtain rfl := pullRequest
  obtain rfl := receiver
  rfl

/-! ## A new delivery -/

/-- A ledger with the fact of a delivery. -/
def withFact (ledger : GithubReviewLedger) (p : Processed services receiver) : GithubReviewLedger :=
  { ledger with
    reviewReceipts := ledger.reviewReceipts ++ p.receipt?.toList
    dismissals := ledger.dismissals ++ p.dismissal?.toList
    headObservations := ledger.headObservations ++ p.head?.toList }

/-- Whether a receipt is the first of its review and still has room. -/
def Room (ps : List (Processed services receiver)) (p : Processed services receiver) : Prop :=
  ∀ receipt, p.receipt? = some receipt →
    receipt.reviewId ∉ (ps.filterMap (·.receipt?)).map (·.reviewId) ∧
      (ps.filterMap (·.receipt?)).length < maxLedgerReviews

theorem nodup_snoc (ids : (ps.map (·.delivery.deliveryId)).Nodup)
    (new : p.delivery.deliveryId ∉ ps.map (·.delivery.deliveryId)) :
    ((ps ++ [p]).map (·.delivery.deliveryId)).Nodup := by
  rw [List.map_append, List.nodup_append]
  refine ⟨ids, List.nodup_singleton _, ?_⟩
  rintro id member _ (_ | ⟨_, ⟨⟩⟩) rfl
  exact new member

theorem find_new {id : String} (new : id ∉ ps.map (·.delivery.deliveryId)) :
    (body scope ps).deliveries.find? (fun existing => existing.deliveryId = id) = none := by
  rw [List.find?_eq_none]
  intro record member same
  obtain ⟨q, there, rfl⟩ := List.mem_map.mp (Keyed.mem_sorted.mp member)
  exact new (List.mem_map.mpr ⟨q, there, of_decide_eq_true same⟩)

theorem filterMap_snoc {φ : Type} (fact? : Processed services receiver → Option φ) :
    (ps ++ [p]).filterMap fact? = ps.filterMap fact? ++ (fact? p).toList := by
  rw [List.filterMap_append]
  cases h : fact? p with
  | none => rw [List.filterMap_cons_none h, List.filterMap_nil, Option.toList_none]
  | some fact => rw [List.filterMap_cons_some h, List.filterMap_nil, Option.toList_some]

theorem Coherent.room (h : Coherent scope (ps ++ [p])) : Room ps p := by
  have reviews := h.reviews
  have receipts := h.receipts
  rw [filterMap_snoc] at reviews receipts
  intro receipt found
  rw [found, Option.toList_some] at reviews receipts
  rw [List.map_append, List.nodup_append] at reviews
  rw [List.length_append, List.length_singleton] at receipts
  refine ⟨?_, receipts⟩
  intro member
  exact reviews.2.2 _ member _ List.mem_cons_self rfl

theorem Room.nodup (room : Room ps p)
    (reviews : ((ps.filterMap (·.receipt?)).map (·.reviewId)).Nodup) :
    (((ps ++ [p]).filterMap (·.receipt?)).map (·.reviewId)).Nodup := by
  rw [filterMap_snoc, List.map_append, List.nodup_append]
  refine ⟨reviews, ?_, ?_⟩
  · cases p.receipt? with
    | none => exact List.nodup_nil
    | some receipt => exact List.nodup_singleton _
  · intro id member other there same
    obtain ⟨receipt, found, rfl⟩ := List.mem_map.mp there
    exact (room receipt (Option.mem_toList.mp found)).1 (same ▸ member)

section

variable (lawful : services.Lawful)
variable (new : p.delivery.deliveryId ∉ ps.map (·.delivery.deliveryId))
variable {snapshot : GithubLedgerSnapshot}

include lawful new

/-- Another receipt of the same review comes from another delivery, so it is a conflict. -/
theorem insertReviewReceipt_body {receipt : GithubReviewReceipt} {ledger : GithubReviewLedger}
    (found : p.receipt? = some receipt) :
    insertReviewReceipt { body scope ps with snapshot := snapshot } receipt = .ok ledger ↔
      Room ps p ∧ ledger = { body scope ps with
        reviewReceipts := (body scope ps).reviewReceipts ++ [receipt]
        snapshot := snapshot } := by
  have room : Room ps p ↔ receipt.reviewId ∉ (ps.filterMap (·.receipt?)).map (·.reviewId) ∧
      (ps.filterMap (·.receipt?)).length < maxLedgerReviews := by
    constructor
    · intro h
      exact h receipt found
    · intro h other same
      obtain rfl := Option.some.inj (found.symm.trans same)
      exact h
  rw [room, insertReviewReceipt]
  cases same : (body scope ps).reviewReceipts.find? fun existing =>
      existing.reviewId = receipt.reviewId with
  | some existing =>
      have known := Keyed.mem_sorted.mp (List.mem_of_find?_eq_some same)
      obtain ⟨q, there, received⟩ := List.mem_filterMap.mp known
      have review : existing.reviewId = receipt.reviewId := by simpa using List.find?_some same
      have differ : existing ≠ receipt := by
        rintro rfl
        refine new (List.mem_map.mpr ⟨q, there, ?_⟩)
        rw [← (receipt?_spec lawful received).2.2.1, (receipt?_spec lawful found).2.2.1]
      simp only [Result.check_bind_eq_ok, Result.ensure_eq_ok]
      constructor
      · intro h
        exact absurd h.1 differ
      · intro h
        exact absurd (List.mem_map.mpr ⟨existing, known, review⟩) h.1.1
  | none =>
      have fresh : receipt.reviewId ∉ (ps.filterMap (·.receipt?)).map (·.reviewId) := by
        intro member
        obtain ⟨existing, known, review⟩ := List.mem_map.mp member
        have := List.find?_eq_none.mp same existing (Keyed.mem_sorted.mpr known)
        exact this (decide_eq_true review)
      have length : (body scope ps).reviewReceipts.length = (ps.filterMap (·.receipt?)).length :=
        Keyed.length_sorted
      simp only [Result.check_bind_eq_ok, Result.ensure_eq_ok, Result.pure_eq_ok, length]
      constructor
      · rintro ⟨room, rfl⟩
        exact ⟨⟨fresh, room⟩, rfl⟩
      · rintro ⟨⟨_, room⟩, rfl⟩
        exact ⟨room, rfl⟩

theorem appendTo_body {ledger : GithubReviewLedger} :
    p.fact.appendTo { body scope ps with snapshot := snapshot } = .ok ledger ↔
      Room ps p ∧ ledger = withFact { body scope ps with snapshot := snapshot } p := by
  have other : p.receipt? = none → Room ps p := by
    intro none receipt found
    rw [none] at found
    cases found
  cases fact : p.fact with
  | reviewReceipt receipt =>
      have found : p.receipt? = some receipt := by simp [Processed.receipt?, fact]
      rw [DerivedFact.appendTo, insertReviewReceipt_body lawful new found]
      simp [withFact, Processed.receipt?, Processed.dismissal?, Processed.head?, fact]
  | dismissal dismissal =>
      have room := other (by simp [Processed.receipt?, fact])
      simp [DerivedFact.appendTo, withFact, Processed.receipt?, Processed.dismissal?,
        Processed.head?, fact, room, eq_comm]
  | headObservation observation =>
      have room := other (by simp [Processed.receipt?, fact])
      simp [DerivedFact.appendTo, withFact, Processed.receipt?, Processed.dismissal?,
        Processed.head?, fact, room, eq_comm]
  | ignoredReview =>
      have room := other (by simp [Processed.receipt?, fact])
      simp [DerivedFact.appendTo, withFact, Processed.receipt?, Processed.dismissal?,
        Processed.head?, fact, room, eq_comm]

omit new in
/-- Sorting the ledger with a new delivery gives the larger collection. -/
theorem sort_withFact (ids : ((ps ++ [p]).map (·.delivery.deliveryId)).Nodup)
    (reviews : (((ps ++ [p]).filterMap (·.receipt?)).map (·.reviewId)).Nodup) :
    GithubReviewLedger.sort { withFact { body scope ps with snapshot := snapshot } p with
      deliveries := (body scope ps).deliveries ++ [p.record scope] } =
        { body scope (ps ++ [p]) with snapshot := snapshot } := by
  have records : (((ps ++ [p]).map (·.record scope)).map (·.deliveryId)).Nodup := by
    rw [List.map_map]
    exact ids
  have dismissed := dismissals_nodup lawful ids
  have heads : (((ps ++ [p]).filterMap (·.head?)).map (·.sourceDeliveryId)).Nodup :=
    sources_nodup (fun p fact found => (head?_spec lawful found).2.2.1) ids
  rw [filterMap_snoc] at reviews dismissed heads
  rw [List.map_append] at records
  have sorted :
      GithubReviewLedger.sort { withFact { body scope ps with snapshot := snapshot } p with
      deliveries := (body scope ps).deliveries ++ [p.record scope] } =
        { body scope ps with
          deliveries := Keyed.sorted (·.deliveryId)
            (Keyed.sorted (·.deliveryId) (ps.map (·.record scope)) ++ [p].map (·.record scope))
          reviewReceipts := Keyed.sorted (·.reviewId)
            (Keyed.sorted (·.reviewId) (ps.filterMap (·.receipt?)) ++ p.receipt?.toList)
          dismissals := Keyed.sorted dismissalKey
            (Keyed.sorted dismissalKey (ps.filterMap (·.dismissal?)) ++ p.dismissal?.toList)
          headObservations := Keyed.sorted (·.sourceDeliveryId)
            (Keyed.sorted (·.sourceDeliveryId) (ps.filterMap (·.head?)) ++ p.head?.toList)
          snapshot := snapshot } := rfl
  rw [sorted, Keyed.sorted_append_sorted records, Keyed.sorted_append_sorted reviews,
    Keyed.sorted_append_sorted dismissed, Keyed.sorted_append_sorted heads, ← List.map_append,
    ← filterMap_snoc, ← filterMap_snoc, ← filterMap_snoc]
  rfl

end

section

variable (lawful : services.Lawful)

include lawful

/-- A new delivery is taken exactly when it fits to the ones that are there. -/
theorem ingest_new (h : Coherent scope ps) (inScope : p.opened.scope = scope)
    (new : p.delivery.deliveryId ∉ ps.map (·.delivery.deliveryId))
    {ledger : GithubReviewLedger} {outcome : IngestOutcome} :
    ingestGithubWebhook services (ledgerOf scope ps) (receiver.request p.delivery) =
        .ok (ledger, outcome) ↔
      Coherent scope (ps ++ [p]) ∧ ledger = build scope (ps ++ [p]) ∧ outcome = .applied := by
  obtain ⟨snapshot, revision, opens⟩ := openLedger_ledgerOf lawful h
  have ids := nodup_snoc h.ids new
  have scopes : ∀ q ∈ ps ++ [p], q.opened.scope = scope := by
    intro q member
    rcases List.mem_append.mp member with member | member
    · exact h.inScope q member
    · rw [List.mem_singleton.mp member]
      exact inScope
  have length : (body scope ps).deliveries.length = ps.length :=
    Keyed.length_sorted.trans (List.length_map _)
  simp only [ingestGithubWebhook, p.opens, Result.ok_bind, inScope, opens]
  rw [show ({ body scope ps with snapshot := snapshot } : GithubReviewLedger).deliveries.find?
    (fun existing => existing.deliveryId = (receiver.request p.delivery).deliveryId) = none
    from find_new new]
  have derives : DerivedFact.fromParsed services p.opened.parsed
      (receiver.request p.delivery).deliveryId (receiver.request p.delivery).receivedAt
      p.opened.payloadSha256 = .ok p.fact := p.derives
  have larger (reviews : (((ps ++ [p]).filterMap (·.receipt?)).map (·.reviewId)).Nodup) :
      signLedgerSnapshot services
        (GithubReviewLedger.sort { withFact { body scope ps with snapshot := snapshot } p with
          deliveries := (body scope ps).deliveries ++ [p.record scope] })
        (ps.length + 1) receiver.signingKey = build scope (ps ++ [p]) := by
    rw [sort_withFact lawful ids reviews, build, List.length_append]
    rfl
  simp only [derives, Result.ok_bind, Result.check_bind_eq_ok, Result.ensure_eq_ok, length]
  constructor
  · rintro ⟨room, ingested⟩
    obtain ⟨appended, append, ingested⟩ := Result.bind_eq_ok.mp ingested
    obtain ⟨fits, rfl⟩ := (appendTo_body lawful new).mp append
    obtain ⟨next, added, ingested⟩ := Result.ofOption_bind_eq_ok.mp ingested
    obtain ⟨-, rfl⟩ := checkedAdd_eq_some.mp added
    rw [revision] at ingested
    erw [larger (fits.nodup h.reviews)] at ingested
    simp only [Result.check_bind_eq_ok, Result.pure_eq_ok, Prod.mk.injEq] at ingested
    obtain ⟨valid, rfl, rfl⟩ := ingested
    exact ⟨(validate_build lawful (by simp) scopes ids).mp valid, rfl, rfl⟩
  · rintro ⟨fits, rfl, rfl⟩
    have room := fits.room
    have count : ps.length < maxLedgerDeliveries := by
      have := fits.deliveries
      rw [List.length_append, List.length_singleton] at this
      omega
    have next : checkedAdd ps.length 1 = some (ps.length + 1) :=
      checkedAdd_of_le
        (le_trans (Nat.succ_le_of_lt count) (by decide : maxLedgerDeliveries ≤ usizeMax))
    refine ⟨count, Result.bind_eq_ok.mpr ⟨_, (appendTo_body lawful new).mpr ⟨room, rfl⟩, ?_⟩⟩
    rw [revision, next, Result.ofOption_some, Result.ok_bind]
    erw [larger fits.reviews, fits.validate lawful (by simp)]
    rfl

/-- A delivery that is there already changes nothing. -/
theorem ingest_known (h : Coherent scope ps) (member : p ∈ ps) :
    ingestGithubWebhook services (some (build scope ps)) (receiver.request p.delivery) =
      .ok (build scope ps, .duplicate) := by
  have nonempty : ps ≠ [] := List.ne_nil_of_mem member
  have opens : openLedger services scope (some (build scope ps)) = .ok (build scope ps) := by
    simp only [openLedger, Result.check_bind_eq_ok, Result.ensure_eq_ok]
    exact ⟨h.validate lawful nonempty, rfl, rfl, rfl, rfl, rfl⟩
  simp only [ingestGithubWebhook, p.opens, Result.ok_bind, h.inScope p member, opens]
  rw [show (build scope ps).deliveries.find? (fun existing =>
    existing.deliveryId = (receiver.request p.delivery).deliveryId) = some (p.record scope)
    from find_record h.ids member rfl]
  exact Result.check_bind_eq_ok.mpr ⟨Result.ensure_of ⟨rfl, rfl⟩, rfl⟩

/-- What is ingested was well formed by itself. -/
theorem processed_of_ingest (h : Coherent scope ps) {delivery : Delivery}
    (new : delivery.deliveryId ∉ ps.map (·.delivery.deliveryId))
    {ingested : GithubReviewLedger × IngestOutcome}
    (ingest : ingestGithubWebhook services (ledgerOf scope ps) (receiver.request delivery) =
      .ok ingested) :
    ∃ p : Processed services receiver, p.delivery = delivery ∧
      Coherent p.opened.scope ps ∧ ledgerOf p.opened.scope ps = ledgerOf scope ps := by
  obtain ⟨opened, opens, ingest⟩ := Result.bind_eq_ok.mp ingest
  obtain ⟨ledger, started, ingest⟩ := Result.bind_eq_ok.mp ingest
  obtain ⟨coherent, same⟩ : Coherent opened.scope ps ∧
      ledgerOf opened.scope ps = ledgerOf scope ps := by
    cases ps with
    | nil => exact ⟨coherent_nil, rfl⟩
    | cons q qs =>
        rw [scope_of_openLedger (List.cons_ne_nil q qs) started]
        exact ⟨h, rfl⟩
  obtain ⟨snapshot, _, opened_eq⟩ := openLedger_ledgerOf lawful coherent
  rw [same, started] at opened_eq
  obtain rfl := Except.ok.inj opened_eq
  rw [show
    ({ body opened.scope ps with snapshot := snapshot } : GithubReviewLedger).deliveries.find?
    (fun existing => existing.deliveryId = (receiver.request delivery).deliveryId) = none
    from find_new new] at ingest
  obtain ⟨_, ingest⟩ := Result.check_bind_eq_ok.mp ingest
  obtain ⟨fact, derives, _⟩ := Result.bind_eq_ok.mp ingest
  exact ⟨⟨delivery, opened, fact, opens, derives⟩, rfl, coherent, same⟩

end

/-! ## Runs -/

/-- Ingest deliveries one after another. -/
def ingestAll (services : Services) (receiver : Receiver) :
    Option GithubReviewLedger → List Delivery → Result (Option GithubReviewLedger)
  | ledger, [] => .ok ledger
  | ledger, delivery :: deliveries => do
      let (ledger, _) ← ingestGithubWebhook services ledger (receiver.request delivery)
      ingestAll services receiver (some ledger) deliveries

/-- The deliveries of a collection. -/
abbrev deliveriesOf (ps : List (Processed services receiver)) : List Delivery := ps.map (·.delivery)

theorem mem_deliveriesOf_snoc {delivery : Delivery} :
    delivery ∈ deliveriesOf (ps ++ [p]) ↔ delivery ∈ deliveriesOf ps ∨ delivery = p.delivery := by
  rw [deliveriesOf, List.map_append, List.mem_append, List.map_singleton, List.mem_singleton]

theorem mem_or_again {known deliveries : List Delivery} {delivery other : Delivery}
    (member : delivery ∈ known) :
    other ∈ known ∨ other ∈ delivery :: deliveries ↔ other ∈ known ∨ other ∈ deliveries := by
  rw [List.mem_cons]
  constructor
  · rintro (there | rfl | there)
    · exact .inl there
    · exact .inl member
    · exact .inr there
  · rintro (there | there)
    · exact .inl there
    · exact .inr (.inr there)

/-- A delivery is known by its id. -/
def Fixed (deliveries : List Delivery) : Prop :=
  ∀ a ∈ deliveries, ∀ b ∈ deliveries, a.deliveryId = b.deliveryId → a = b

section

variable (lawful : services.Lawful)

include lawful

/-- What was ingested fits together. -/
theorem coherent_of_ingestAll {all deliveries : List Delivery} {ledger : Option GithubReviewLedger}
    (fixed : Fixed all) (h : Coherent scope ps) (there : deliveriesOf ps ⊆ all)
    (more : deliveries ⊆ all)
    (run : ingestAll services receiver (ledgerOf scope ps) deliveries = .ok ledger) :
    ∃ (scope' : Scope) (qs : List (Processed services receiver)), Coherent scope' qs ∧
      ledger = ledgerOf scope' qs ∧
      ∀ delivery, delivery ∈ deliveriesOf qs ↔ delivery ∈ deliveriesOf ps ∨
        delivery ∈ deliveries := by
  induction deliveries generalizing scope ps with
  | nil =>
      obtain rfl := Except.ok.inj run
      exact ⟨scope, ps, h, rfl, by simp⟩
  | cons delivery deliveries ih =>
      obtain ⟨⟨next, outcome⟩, ingest, run⟩ := Result.bind_eq_ok.mp run
      have here : delivery ∈ all := more List.mem_cons_self
      have rest : deliveries ⊆ all := List.subset_of_cons_subset more
      by_cases known : delivery.deliveryId ∈ ps.map (·.delivery.deliveryId)
      · obtain ⟨p, member, same⟩ := List.mem_map.mp known
        obtain rfl : p.delivery = delivery :=
          fixed _ (there (List.mem_map_of_mem member)) _ here same
        rw [ledgerOf_of_ne_nil (List.ne_nil_of_mem member), ingest_known lawful h member] at ingest
        obtain ⟨rfl, _⟩ := Prod.mk.inj (Except.ok.inj ingest)
        have run : ingestAll services receiver (ledgerOf scope ps) deliveries = .ok ledger := by
          rw [ledgerOf_of_ne_nil (List.ne_nil_of_mem member)]
          exact run
        obtain ⟨scope', qs, coherent, rfl, members⟩ := ih h there rest run
        refine ⟨scope', qs, coherent, rfl, ?_⟩
        intro other
        rw [members, mem_or_again (List.mem_map_of_mem member)]
      · obtain ⟨p, rfl, coherent, same⟩ := processed_of_ingest lawful h known ingest
        rw [← same] at ingest
        obtain ⟨larger, rfl, _⟩ := (ingest_new lawful coherent rfl known).mp ingest
        have run : ingestAll services receiver (ledgerOf p.opened.scope (ps ++ [p])) deliveries =
            .ok ledger := by
          rw [ledgerOf_of_ne_nil (List.concat_ne_nil p ps)]
          exact run
        have there : deliveriesOf (ps ++ [p]) ⊆ all := by
          intro other member
          rcases mem_deliveriesOf_snoc.mp member with member | rfl
          · exact there member
          · exact here
        obtain ⟨scope', qs, coherent, rfl, members⟩ := ih larger there rest run
        refine ⟨scope', qs, coherent, rfl, ?_⟩
        intro other
        rw [members, mem_deliveriesOf_snoc, List.mem_cons, or_assoc]

/-- Deliveries of a collection that fits together are ingested in any order. -/
theorem ingestAll_of_coherent {deliveries : List Delivery} (h : Coherent scope qs) (part : ps ⊆ qs)
    (ids : (ps.map (·.delivery.deliveryId)).Nodup) (more : deliveries ⊆ deliveriesOf qs) :
    ∃ rs : List (Processed services receiver), rs ⊆ qs ∧ (rs.map (·.delivery.deliveryId)).Nodup ∧
      ingestAll services receiver (ledgerOf scope ps) deliveries = .ok (ledgerOf scope rs) ∧
      ∀ delivery, delivery ∈ deliveriesOf rs ↔ delivery ∈ deliveriesOf ps ∨
        delivery ∈ deliveries := by
  induction deliveries generalizing ps with
  | nil => exact ⟨ps, part, ids, rfl, by simp⟩
  | cons delivery deliveries ih =>
      obtain ⟨p, here, rfl⟩ := List.mem_map.mp (more List.mem_cons_self)
      have rest : deliveries ⊆ deliveriesOf qs := List.subset_of_cons_subset more
      have coherent : Coherent scope ps := h.part part ids
      by_cases known : p.delivery.deliveryId ∈ ps.map (·.delivery.deliveryId)
      · obtain ⟨q, member, same⟩ := List.mem_map.mp known
        obtain rfl : q = p := Keyed.eq_of_key h.ids (part member) here same
        obtain ⟨rs, sub, nodup, run, members⟩ := ih part ids rest
        refine ⟨rs, sub, nodup, ?_, ?_⟩
        · rw [ledgerOf_of_ne_nil (List.ne_nil_of_mem member)] at run ⊢
          rw [ingestAll, ingest_known lawful coherent member]
          exact run
        · intro other
          rw [members, mem_or_again (List.mem_map_of_mem member)]
      · have ids : ((ps ++ [p]).map (·.delivery.deliveryId)).Nodup := nodup_snoc ids known
        have part : ps ++ [p] ⊆ qs :=
          List.append_subset.mpr ⟨part, List.cons_subset.mpr ⟨here, List.nil_subset qs⟩⟩
        have larger : Coherent scope (ps ++ [p]) := h.part part ids
        obtain ⟨rs, sub, nodup, run, members⟩ := ih part ids rest
        refine ⟨rs, sub, nodup, ?_, ?_⟩
        · rw [ledgerOf_of_ne_nil (List.concat_ne_nil p ps)] at run
          rw [ingestAll, (ingest_new lawful coherent (h.inScope p here) known).mpr
            ⟨larger, rfl, rfl⟩]
          exact run
        · intro other
          rw [members, mem_deliveriesOf_snoc, List.mem_cons, or_assoc]

/-- The ledger of a collection depends on its members only. -/
theorem ledgerOf_eq_of_members (h : Coherent scope ps) (h' : Coherent scope qs)
    (same : ∀ delivery, delivery ∈ deliveriesOf ps ↔ delivery ∈ deliveriesOf qs) :
    ledgerOf scope ps = ledgerOf scope qs := by
  have subset : ∀ {xs ys : List (Processed services receiver)},
      (∀ delivery, delivery ∈ deliveriesOf xs → delivery ∈ deliveriesOf ys) → xs ⊆ ys := by
    intro xs ys among p member
    obtain ⟨q, there, eq⟩ := List.mem_map.mp (among _ (List.mem_map_of_mem member))
    rwa [← Processed.ext_delivery eq]
  have perm : ps.Perm qs := (List.perm_ext_iff_of_nodup h.nodup h'.nodup).mpr fun p =>
    ⟨fun member => subset (fun delivery => (same delivery).mp) member,
      fun member => subset (fun delivery => (same delivery).mpr) member⟩
  cases ps with
  | nil => rw [List.nil_perm.mp perm]
  | cons p ps =>
      have nonempty : qs ≠ [] := by
        rintro rfl
        exact List.cons_ne_nil p ps (List.perm_nil.mp perm)
      rw [ledgerOf_of_ne_nil nonempty, ledgerOf, build_eq_of_perm lawful h perm]

end

/-- Deliveries that can be ingested in some order can be ingested in every order, with the same
ledger in the end; and a delivery that was ingested is a duplicate from then on. -/
theorem ingest_confluent (lawful : services.Lawful) {deliveries : List Delivery}
    {ledger : Option GithubReviewLedger} (fixed : Fixed deliveries)
    (run : ingestAll services receiver none deliveries = .ok ledger) :
    (∀ order : List Delivery, (∀ delivery, delivery ∈ order ↔ delivery ∈ deliveries) →
      ingestAll services receiver none order = .ok ledger) ∧
    ∀ begun : List Delivery, begun ⊆ deliveries → ∀ delivery ∈ begun,
      ∃ reached, ingestAll services receiver none begun = .ok (some reached) ∧
        ingestGithubWebhook services (some reached) (receiver.request delivery) =
          .ok (reached, .duplicate) := by
  have start : Coherent default ([] : List (Processed services receiver)) := coherent_nil
  obtain ⟨scope, qs, coherent, rfl, members⟩ := coherent_of_ingestAll lawful fixed start
    (List.nil_subset _) (List.Subset.refl _) run
  have among : ∀ delivery, delivery ∈ deliveriesOf qs ↔ delivery ∈ deliveries := by
    intro delivery
    rw [members]
    exact or_iff_right List.not_mem_nil
  constructor
  · intro order same
    obtain ⟨rs, part, ids, run', members'⟩ := ingestAll_of_coherent lawful coherent
      (List.nil_subset qs) List.nodup_nil fun delivery member =>
        (among delivery).mpr ((same delivery).mp member)
    have eq : ledgerOf scope rs = ledgerOf scope qs := by
      refine ledgerOf_eq_of_members lawful (coherent.part part ids) coherent ?_
      intro delivery
      rw [members', among, ← same]
      exact or_iff_right List.not_mem_nil
    rw [← eq]
    exact run'
  · intro begun sub delivery member
    obtain ⟨rs, part, ids, run', members'⟩ := ingestAll_of_coherent lawful coherent
      (List.nil_subset qs) List.nodup_nil fun delivery member => (among delivery).mpr (sub member)
    obtain ⟨p, there, rfl⟩ := List.mem_map.mp ((members' delivery).mpr (.inr member))
    refine ⟨build scope rs, ?_, ingest_known lawful (coherent.part part ids) there⟩
    rw [← ledgerOf_of_ne_nil (List.ne_nil_of_mem there)]
    exact run'

end

/-! ## A sample

The dismissal of a review and its submission, as the tests of the source have them. The
digests and signatures are the ones SHA-256, HMAC and Ed25519 give for these texts. -/

namespace Sample

/-- Items with a comma before every one but the first. -/
def separated : List Bytes → Bytes
  | [] => []
  | item :: items => item ++ items.flatMap fun item => 44 :: item

def quoted (text : String) : Bytes := 34 :: utf8Bytes text ++ [34]

mutual

/-- `serde_json::to_vec` of texts that need no escape. -/
def toVec : Json → Bytes
  | .null => [110, 117, 108, 108]
  | .bool true => [116, 114, 117, 101]
  | .bool false => [102, 97, 108, 115, 101]
  | .number value => value.text.map fun c => UInt8.ofNat c.toNat
  | .string value => quoted value
  | .array values => 91 :: separated (toVecs values) ++ [93]
  | .object fields => 123 :: separated (toVecFields fields) ++ [125]

def toVecs : List Json → List Bytes
  | [] => []
  | value :: values => toVec value :: toVecs values

def toVecFields : List (String × Json) → List Bytes
  | [] => []
  | (key, value) :: fields => (quoted key ++ 58 :: toVec value) :: toVecFields fields

end

def digests : List (Nat × String) :=
  [(1442544518, "ab3c3ce887e9d2ba15f509da2938b6c5fbacb618ec8327820495f26f4489e15c"),
   (1686998048, "75cc61535307f083c5995e340bb67b0064664d2b6f65f4f9ae9375ed4dd704d3"),
   (3156580654, "1814236f72c4f9ebae9d1e21583f6a8d037497d0bb0f6dc9be0ff7d70de20ada"),
   (1461201439, "982a12527e5d8e9fbb913119185383c531209c3ee231477e676547314c407122"),
   (498121940, "831e8f298e5cdeba8e52ed6f451af67eea77adc4f16abae5fcd57c51e69c0f2b"),
   (2953752448, "124a3d3c26b2fa032625f57f80f8e3a5b6405c5a615d9a6da25b20e4aca292eb"),
   (3417556443, "435fbd6c20b8e903ef2700cc338f3c957e999cb5d1bbe50951af54f67d14c6c6"),
   (122875859, "bba55cb02db1026e2aee74503a60b7a52d8472116e7537e70b72633ba9ae1618"),
   (2236191846, "1958f31ef65300b856b68511bdd4d7b3eda8ed6d8195324d10136da4a768e480"),
   (3275392469, "4fe73480656571b862640d9f68b9b8d71929e17080b2610b5c6bd46851e33bd1"),
   (3670222747, "4e9eee44d8ae7a79a18a4088cf6f45f2ad9ef4a834c3c71fef34b752ef0b2832"),
   (2530094517, "7f9f8b7d10584939ab60993cc77413ce8673b188800d6a6b530448fb81da8905"),
   (467473754, "de01e6ac9e3f9c15aaece32b55d70cedad41740da56731ce8c37c6541236a7e4")]

def codes : List (Nat × String) :=
  [(1442544518, "a315587120edc281c1ebf1626b3b780b10b78c284b50b9e6f1bf7960a9bccad6"),
   (3156580654, "fb670c47228aa8759cbd394f8da15398d60c655ea88a9c048b3a5a7babd9ecd5"),
   (122875859, "8e4a419226c207d7f4834a97a3449130dcb68d82f1ec6da6e02dba8b6058ced7"),
   (2236191846, "13acda25667dbb65d02776c6e5ce3b980e37e9d55e07f3cb6d5f67df65f8b22e")]

def signatures : List (Nat × String) :=
  [(39792721, "4518b23dd3afb940b7680a5e22a9da35bdd31fd4551f81b4ba6d450c279612b9" ++
    "b31b74c304a1ae95ee9f77bc7c9eb3566f036032e279db214cfd221989492702"),
   (3832348435, "cf23e6290e9524d543c5efa20f1938b3d1d3aa115ad5acf77ad3f4b3300b2992" ++
    "6a723cf7948b7c7897669ae88da2c1d3c5a217fe469bb8f49fd4239488264c0c"),
   (2377726196, "19ee62cc554565ab98014a7400f93d00ab5053e27205c86b140a5626e084abb7" ++
    "7f10956670faef2ff3c85820dc66fdae1094ac145f58599a7382482b01e4e00b"),
   (3659665729, "8fbadb2681795628352ea1be8fc1810ed69a26625b24f363da07f1b1b676f391" ++
    "fdf1a84682f85eae7929acb745aab7cf37253b190c4ca02fa882894b50b8110c"),
   (3647591539, "bd258f644493e7d54a3cdd4f748ce4a24450c08fb17db77a1eedd73adf5a7bae" ++
    "19ab956f3a10045b54de9297ebc259ddc2bde46f37593f565eaa085b25b8830d"),
   (1528006384, "e99f7831b40c855425fc4f8ab89218d2644c9345758ba664c6363ed8650a3fed" ++
    "8a6e198aad95149e5d8884677fe557bd3ae86ca4977d4491ece6677f30acfa07"),
   (1688131128, "55f1497009ce1070ce13b449350259864e4f33538288908e2bc54842ef826a0c" ++
    "26362c1fde8f1a9336d635f553d72ddf3d1eb40edfd386eadd5a674868b3b805"),
   (2373705276, "1444aea6f3ae93258841278b41001ecb4ff6bd562a91fd1453d97b2f40b04ca4" ++
    "6d851ff3054a4e55e7e05ae5423e90a436aed652314fe6b1ec44ffce503d6403"),
   (1522827754, "37a4b89173222823569b735ba27ddbe8cb77fc433ed03e12bca0a0d621377184" ++
    "0d5962d1772c8d60014644b8620bba095d3d042103b87156c8ab66ac96f5b206")]

def publicKey : Bytes := fromHex "ea4a6c63e29c520abef5507b132ec5f9954776aebebe7b92421eea691446d22c"

theorem publicKey_length : publicKey.length = 32 := by decide +kernel

def alice : GithubUserPayload := ⟨17, "U_17", "alice", "User"⟩
def bob : GithubUserPayload := ⟨18, "U_18", "bob", "User"⟩

def review (id : Nat) (user : GithubUserPayload) (state submittedAt : String) :
    GithubReviewPayload :=
  ⟨id, "PRR_" ++ toString id, some user, state, some "c123456789012345678901234567890123456789",
    some submittedAt,
    "https://github.com/acme/widgets/pull/7#pullrequestreview-" ++ toString id, "MEMBER"⟩

/-- An approval, its dismissal, an older review of the same reviewer and one of another. -/
def approved : GithubReviewPayload := review 41 alice "approved" "2026-09-05T01:02:03Z"
def withdrawn : GithubReviewPayload := review 41 alice "dismissed" "2026-09-05T01:02:03Z"
def earlier : GithubReviewPayload := review 40 alice "changes_requested" "2026-09-04T01:02:03Z"
def other : GithubReviewPayload := review 42 bob "approved" "2026-09-05T01:30:00Z"

def webhook (action : String) (review : GithubReviewPayload) : PullRequestReviewWebhook :=
  ⟨action, review, ⟨700, "PR_700", 7, "aaaaaaaaaaaaaaaaaaaaaaaaaaaaaaaaaaaaaaaa",
    "bbbbbbbbbbbbbbbbbbbbbbbbbbbbbbbbbbbbbbbb"⟩, ⟨99, "R_99", "acme/widgets"⟩⟩

def userJson (user : GithubUserPayload) : Json :=
  .object [("id", .ofNat user.id), ("login", .string user.login), ("node_id", .string user.nodeId),
    ("type", .string user.accountType)]

/-- The members stand in the order of their keys, as `json!` writes them. -/
def payload (action : String) (review : GithubReviewPayload) : Bytes :=
  toVec (.object [("action", .string action),
    ("pull_request", .object [
      ("base", .object [("sha", .string "aaaaaaaaaaaaaaaaaaaaaaaaaaaaaaaaaaaaaaaa")]),
      ("head", .object [("sha", .string "bbbbbbbbbbbbbbbbbbbbbbbbbbbbbbbbbbbbbbbb")]),
      ("id", .ofNat 700), ("node_id", .string "PR_700"), ("number", .ofNat 7)]),
    ("repository", .object [("full_name", .string "acme/widgets"), ("id", .ofNat 99),
      ("node_id", .string "R_99")]),
    ("review", .object [("author_association", .string review.authorAssociation),
      ("commit_id", optionalString review.commitId),
      ("html_url", .string review.htmlUrl), ("id", .ofNat review.id),
      ("node_id", .string review.nodeId), ("state", .string review.state),
      ("submitted_at", optionalString review.submittedAt),
      ("user", review.user.elim .null userJson)])])

def services : Services where
  sha256 := entry digests 32
  hmacSha256 _ := entry codes 32
  verifyingKey _ := publicKey
  sign _ := entry signatures 64
  verifyingKeyError _ := none
  verify _ message signature := signature = entry signatures 64 message
  toVec := toVec
  decodeReview bytes :=
    if fingerprint bytes = 1442544518 then .ok (webhook "dismissed" withdrawn)
    else if fingerprint bytes = 3156580654 then .ok (webhook "submitted" approved)
    else if fingerprint bytes = 122875859 then .ok (webhook "submitted" earlier)
    else if fingerprint bytes = 2236191846 then .ok (webhook "submitted" other)
    else .error "expected value at line 1 column 1"
  decodeSynchronize _ := .error "missing field `before` at line 1 column 1"

theorem lawful : services.Lawful where
  verifies _ _ := decide_eq_true rfl
  accepts _ := rfl
  verifyingKeyLength _ := publicKey_length
  signatureLength _ _ := entry_length
  digestLength _ := entry_length

def receiver : Receiver :=
  ⟨"https://github.com", utf8Bytes "It's a Secret to Everybody", "test-key-2026-09",
    List.replicate 32 7⟩

def dismissed : Delivery :=
  ⟨"pull_request_review", "delivery-dismiss", "2026-09-05T02:00:00Z",
    "sha256=a315587120edc281c1ebf1626b3b780b10b78c284b50b9e6f1bf7960a9bccad6",
    payload "dismissed" withdrawn⟩

def submitted : Delivery :=
  ⟨"pull_request_review", "delivery-submit", "2026-09-05T02:00:00Z",
    "sha256=fb670c47228aa8759cbd394f8da15398d60c655ea88a9c048b3a5a7babd9ecd5",
    payload "submitted" approved⟩

def submittedEarlier : Delivery :=
  ⟨"pull_request_review", "delivery-earlier", "2026-09-05T02:00:00Z",
    "sha256=8e4a419226c207d7f4834a97a3449130dcb68d82f1ec6da6e02dba8b6058ced7",
    payload "submitted" earlier⟩

def submittedOther : Delivery :=
  ⟨"pull_request_review", "delivery-other", "2026-09-05T02:00:00Z",
    "sha256=13acda25667dbb65d02776c6e5ce3b980e37e9d55e07f3cb6d5f67df65f8b22e",
    payload "submitted" other⟩

def scope : Scope :=
  ⟨"https://github.com", ⟨99, "R_99", "acme/widgets"⟩, ⟨700, "PR_700", 7⟩,
    ⟨"ed25519", "test-key-2026-09",
      "ea4a6c63e29c520abef5507b132ec5f9954776aebebe7b92421eea691446d22c"⟩⟩

def dismissal : Processed services receiver where
  delivery := dismissed
  opened := ⟨scope, .pullRequestReviewDismissed,
    "ab3c3ce887e9d2ba15f509da2938b6c5fbacb618ec8327820495f26f4489e15c",
    .review (webhook "dismissed" withdrawn)⟩
  fact := .dismissal ⟨41, 17, "U_17", "alice", some "c123456789012345678901234567890123456789",
    some "2026-09-05T01:02:03Z", "delivery-dismiss", "2026-09-05T02:00:00Z",
    "ab3c3ce887e9d2ba15f509da2938b6c5fbacb618ec8327820495f26f4489e15c"⟩
  opens := by decide +kernel
  derives := by decide +kernel

def submission : Processed services receiver where
  delivery := submitted
  opened := ⟨scope, .pullRequestReviewSubmitted,
    "1814236f72c4f9ebae9d1e21583f6a8d037497d0bb0f6dc9be0ff7d70de20ada",
    .review (webhook "submitted" approved)⟩
  fact := .reviewReceipt ⟨41, "PRR_41", 17, "U_17", "alice", .approved,
    "c123456789012345678901234567890123456789", "2026-09-05T01:02:03Z",
    "https://github.com/acme/widgets/pull/7#pullrequestreview-41", "MEMBER", "delivery-submit",
    "1814236f72c4f9ebae9d1e21583f6a8d037497d0bb0f6dc9be0ff7d70de20ada",
    "982a12527e5d8e9fbb913119185383c531209c3ee231477e676547314c407122"⟩
  opens := by decide +kernel
  derives := by decide +kernel

def earlierSubmission : Processed services receiver where
  delivery := submittedEarlier
  opened := ⟨scope, .pullRequestReviewSubmitted,
    "bba55cb02db1026e2aee74503a60b7a52d8472116e7537e70b72633ba9ae1618",
    .review (webhook "submitted" earlier)⟩
  fact := .reviewReceipt ⟨40, "PRR_40", 17, "U_17", "alice", .changesRequested,
    "c123456789012345678901234567890123456789", "2026-09-04T01:02:03Z",
    "https://github.com/acme/widgets/pull/7#pullrequestreview-40", "MEMBER", "delivery-earlier",
    "bba55cb02db1026e2aee74503a60b7a52d8472116e7537e70b72633ba9ae1618",
    "4fe73480656571b862640d9f68b9b8d71929e17080b2610b5c6bd46851e33bd1"⟩
  opens := by decide +kernel
  derives := by decide +kernel

def otherSubmission : Processed services receiver where
  delivery := submittedOther
  opened := ⟨scope, .pullRequestReviewSubmitted,
    "1958f31ef65300b856b68511bdd4d7b3eda8ed6d8195324d10136da4a768e480",
    .review (webhook "submitted" other)⟩
  fact := .reviewReceipt ⟨42, "PRR_42", 18, "U_18", "bob", .approved,
    "c123456789012345678901234567890123456789", "2026-09-05T01:30:00Z",
    "https://github.com/acme/widgets/pull/7#pullrequestreview-42", "MEMBER", "delivery-other",
    "1958f31ef65300b856b68511bdd4d7b3eda8ed6d8195324d10136da4a768e480",
    "4e9eee44d8ae7a79a18a4088cf6f45f2ad9ef4a834c3c71fef34b752ef0b2832"⟩
  opens := by decide +kernel
  derives := by decide +kernel

theorem coherent_all :
    Coherent scope [dismissal, submission, earlierSubmission, otherSubmission] where
  inScope := by
    simp only [List.forall_mem_cons, List.not_mem_nil, false_implies, implies_true, and_true]
    exact ⟨rfl, rfl, rfl, rfl⟩
  ids := by decide +kernel
  deliveries := by decide +kernel
  receipts := by decide +kernel
  reviews := by decide +kernel
  dismissals := by decide +kernel

theorem coherent : Coherent scope [dismissal, submission] :=
  coherent_all.sublist (List.sublist_append_left [dismissal, submission] _)

theorem runs : ∃ ledger, ingestAll services receiver none [dismissed, submitted] = .ok ledger := by
  have part : ([] : List (Processed services receiver)) ⊆ [dismissal, submission] :=
    List.nil_subset _
  obtain ⟨reached, _, _, run, _⟩ := ingestAll_of_coherent lawful coherent part List.nodup_nil
    (List.Subset.refl [dismissed, submitted])
  exact ⟨ledgerOf scope reached, run⟩

end Sample

open Sample in
/-- A dismissal may come before its submission, after it, and again. -/
theorem ingest_confluent_sample : ∃ ledger,
    ingestAll services receiver none [dismissed, submitted] = .ok (some ledger) ∧
    ingestAll services receiver none [submitted, dismissed, submitted] = .ok (some ledger) ∧
    ingestGithubWebhook services (some ledger) (receiver.request dismissed) =
      .ok (ledger, .duplicate) := by
  obtain ⟨ledger, run⟩ := runs
  have fixed : Fixed [dismissed, submitted] := by
    have differ : dismissed.deliveryId ≠ submitted.deliveryId := by decide
    rintro a (_ | ⟨_, _ | ⟨_, ⟨⟩⟩⟩) b (_ | ⟨_, _ | ⟨_, ⟨⟩⟩⟩) same
    · rfl
    · exact absurd same differ
    · exact absurd same differ.symm
    · rfl
  obtain ⟨orders, again⟩ := ingest_confluent lawful fixed run
  obtain ⟨reached, run', duplicate⟩ := again [dismissed, submitted] (List.Subset.refl _) dismissed
    List.mem_cons_self
  refine ⟨reached, run', ?_, duplicate⟩
  rw [← run', run]
  refine orders _ ?_
  intro delivery
  simp only [List.mem_cons, List.not_mem_nil, or_false]
  constructor
  · rintro (here | here | here)
    · exact .inr here
    · exact .inl here
    · exact .inr here
  · rintro (here | here)
    · exact .inr (.inl here)
    · exact .inl here

end Stratadiff.Ledger
