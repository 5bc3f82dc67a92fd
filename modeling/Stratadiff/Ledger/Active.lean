import Stratadiff.Ledger.Confluence
import Stratadiff.Lib.Newest

/-!
# Active receipts

`active_receipts` keeps the latest review or dismissal of each reviewer. A dismissal is as
late as the review that it is of; a dismissal that names no time and whose review is not in
the ledger takes its reviewer out.
-/

namespace Stratadiff.Ledger

/-! ## The function -/

inductive Latest where
  | receipt (receipt : GithubReviewReceipt)
  | dismissal (dismissal : GithubReviewDismissal) (submittedAt : String)
  deriving DecidableEq, Repr

def Latest.key : Latest → Lex (String × Lex (Nat × Nat))
  | receipt review => toLex (review.submittedAt, toLex (review.reviewId, 0))
  | dismissal dismissed submittedAt => toLex (submittedAt, toLex (dismissed.reviewId, 1))

namespace GithubReviewLedger

/-- The receipt of a review: a map that is collected keeps the last one. -/
def receiptById (ledger : GithubReviewLedger) (reviewId : Nat) : Option GithubReviewReceipt :=
  ledger.reviewReceipts.reverse.find? fun receipt => receipt.reviewId = reviewId

/-- When the review that a dismissal is of was submitted, as far as the ledger tells. -/
def dismissedAt (ledger : GithubReviewLedger) (dismissal : GithubReviewDismissal) : Option String :=
  dismissal.submittedAt.or ((ledger.receiptById dismissal.reviewId).map (·.submittedAt))

/-- The latest of each reviewer, and the reviewers with a dismissal of unknown time. -/
def dismissalStep (ledger : GithubReviewLedger) (state : List (Nat × Latest) × List Nat)
    (dismissal : GithubReviewDismissal) : List (Nat × Latest) × List Nat :=
  match ledger.dismissedAt dismissal with
  | none => (state.1, dismissal.reviewerId :: state.2)
  | some submittedAt =>
      (Newest.advance Latest.key state.1 dismissal.reviewerId (.dismissal dismissal submittedAt),
        state.2)

def latestOfReceipts (ledger : GithubReviewLedger) : List (Nat × Latest) :=
  ledger.reviewReceipts.foldl (fun latest receipt =>
    Newest.advance Latest.key latest receipt.reviewerId (.receipt receipt)) []

/-- The receipt of an entry, when its reviewer is not ambiguous. -/
def activeReceipt (ambiguousReviewers : List Nat) : Nat × Latest → Option GithubReviewReceipt
  | (_, .receipt receipt) =>
      if receipt.reviewerId ∈ ambiguousReviewers then none else some receipt
  | (_, .dismissal _ _) => none

def activeReceipts (ledger : GithubReviewLedger) : List GithubReviewReceipt :=
  let state := ledger.dismissals.foldl ledger.dismissalStep (ledger.latestOfReceipts, [])
  Keyed.sorted (·.reviewerId) (state.1.filterMap (activeReceipt state.2))

end GithubReviewLedger

/-! ## Which receipts are active -/

/-- Reviews in the order they were submitted, and by id within a second. -/
def GithubReviewReceipt.order (receipt : GithubReviewReceipt) : Lex (String × Nat) :=
  toLex (receipt.submittedAt, receipt.reviewId)

/-- Whether the ledger tells that a dismissal is of a review before that of a receipt. -/
def GithubReviewLedger.DismissesOlder (ledger : GithubReviewLedger)
    (dismissal : GithubReviewDismissal) (receipt : GithubReviewReceipt) : Prop :=
  ∃ submittedAt, ledger.dismissedAt dismissal = some submittedAt ∧
    toLex (submittedAt, dismissal.reviewId) < receipt.order

/-- A dismissal invalidates the receipt of its own review, and every receipt of its reviewer
that is not of a later review than the dismissed one. -/
def GithubReviewLedger.Invalidates (ledger : GithubReviewLedger)
    (dismissal : GithubReviewDismissal) (receipt : GithubReviewReceipt) : Prop :=
  dismissal.reviewId = receipt.reviewId ∨
    (dismissal.reviewerId = receipt.reviewerId ∧ ¬ ledger.DismissesOlder dismissal receipt)

/-- The receipts that no other one of their reviewer comes after. -/
def GithubReviewLedger.LatestReceipt (ledger : GithubReviewLedger)
    (receipt : GithubReviewReceipt) : Prop :=
  receipt ∈ ledger.reviewReceipts ∧ ∀ other ∈ ledger.reviewReceipts,
    other.reviewerId = receipt.reviewerId → other.order ≤ receipt.order

namespace GithubReviewLedger

variable {ledger : GithubReviewLedger} {receipt : GithubReviewReceipt}

/-- What the loops put into the table. -/
def receiptEntries (ledger : GithubReviewLedger) : List (Nat × Latest) :=
  ledger.reviewReceipts.map fun receipt => (receipt.reviewerId, .receipt receipt)

def dismissalEntry (ledger : GithubReviewLedger) (dismissal : GithubReviewDismissal) :
    Option (Nat × Latest) :=
  (ledger.dismissedAt dismissal).map fun submittedAt =>
    (dismissal.reviewerId, .dismissal dismissal submittedAt)

theorem latestOfReceipts_holds :
    Newest.Holds Latest.key ledger.receiptEntries ledger.latestOfReceipts := by
  have start : Newest.Holds Latest.key ([] : List (Nat × Latest)) [] := .nil
  have loop := start.foldl ledger.receiptEntries
  rwa [List.nil_append, receiptEntries, List.foldl_map] at loop

/-- The loop over dismissals, from any table and any set of ambiguous reviewers. -/
theorem dismissals_foldl {entries latest : List (Nat × Latest)} (ambiguous : List Nat)
    (dismissals : List GithubReviewDismissal) (holds : Newest.Holds Latest.key entries latest) :
    Newest.Holds Latest.key (entries ++ dismissals.filterMap ledger.dismissalEntry)
        (dismissals.foldl ledger.dismissalStep (latest, ambiguous)).1 ∧
      ∀ reviewer, reviewer ∈ (dismissals.foldl ledger.dismissalStep (latest, ambiguous)).2 ↔
        reviewer ∈ ambiguous ∨ ∃ dismissal ∈ dismissals,
          dismissal.reviewerId = reviewer ∧ ledger.dismissedAt dismissal = none := by
  induction dismissals generalizing entries latest ambiguous with
  | nil => simpa using holds
  | cons dismissal dismissals ih =>
      rw [List.foldl_cons, dismissalStep]
      cases time : ledger.dismissedAt dismissal with
      | none =>
          obtain ⟨table, reviewers⟩ := ih (dismissal.reviewerId :: ambiguous) holds
          have skipped : ledger.dismissalEntry dismissal = none := by rw [dismissalEntry, time]; rfl
          rw [List.filterMap_cons_none skipped]
          refine ⟨table, fun reviewer => ?_⟩
          rw [reviewers, List.mem_cons, List.exists_mem_cons_iff]
          simp only [time, and_true]
          rw [eq_comm (a := reviewer), or_assoc, or_left_comm]
      | some submittedAt =>
          obtain ⟨table, reviewers⟩ := ih ambiguous
            (holds.advance dismissal.reviewerId (.dismissal dismissal submittedAt))
          have entry : ledger.dismissalEntry dismissal =
              some (dismissal.reviewerId, .dismissal dismissal submittedAt) := by
            rw [dismissalEntry, time]
            rfl
          rw [List.filterMap_cons_some entry]
          rw [List.append_assoc, List.singleton_append] at table
          refine ⟨table, fun reviewer => ?_⟩
          rw [reviewers, List.exists_mem_cons_iff]
          simp [time]

theorem receipt_le_receipt {left right : GithubReviewReceipt} :
    (Latest.receipt left).key ≤ (Latest.receipt right).key ↔ left.order ≤ right.order := by
  simp only [Latest.key, GithubReviewReceipt.order, Prod.Lex.le_iff, ofLex_toLex]
  grind

theorem dismissal_le_receipt {dismissal : GithubReviewDismissal} {submittedAt : String} :
    (Latest.dismissal dismissal submittedAt).key ≤ (Latest.receipt receipt).key ↔
      toLex (submittedAt, dismissal.reviewId) < receipt.order := by
  simp only [Latest.key, GithubReviewReceipt.order, Prod.Lex.le_iff, Prod.Lex.lt_iff, ofLex_toLex]
  grind

theorem receiptById_eq_some (unique : (ledger.reviewReceipts.map (·.reviewId)).Nodup)
    {reviewId : Nat} : ledger.receiptById reviewId = some receipt ↔
      receipt ∈ ledger.reviewReceipts ∧ receipt.reviewId = reviewId := by
  constructor
  · intro found
    rw [receiptById] at found
    exact ⟨List.mem_reverse.mp (List.mem_of_find?_eq_some found),
      by simpa using List.find?_some found⟩
  · rintro ⟨member, same⟩
    refine Keyed.find?_eq_some ?_ (List.mem_reverse.mpr member) same
    rw [List.map_reverse, List.nodup_reverse]
    exact unique

/-- The table at the end of both loops. -/
theorem latest_holds (ledger : GithubReviewLedger) :
    Newest.Holds Latest.key
        (ledger.receiptEntries ++ ledger.dismissals.filterMap ledger.dismissalEntry)
        (ledger.dismissals.foldl ledger.dismissalStep (ledger.latestOfReceipts, [])).1 ∧
      ∀ reviewer,
        reviewer ∈ (ledger.dismissals.foldl ledger.dismissalStep (ledger.latestOfReceipts, [])).2 ↔
          ∃ dismissal ∈ ledger.dismissals,
            dismissal.reviewerId = reviewer ∧ ledger.dismissedAt dismissal = none := by
  obtain ⟨table, reviewers⟩ := dismissals_foldl [] ledger.dismissals
    latestOfReceipts_holds
  exact ⟨table, fun reviewer => by simpa using reviewers reviewer⟩

theorem receipt_entry {reviewer : Nat} :
    (reviewer, .receipt receipt) ∈
        ledger.receiptEntries ++ ledger.dismissals.filterMap ledger.dismissalEntry ↔
      receipt ∈ ledger.reviewReceipts ∧ receipt.reviewerId = reviewer := by
  rw [List.mem_append, List.mem_filterMap, receiptEntries, List.mem_map]
  constructor
  · rintro (⟨other, member, same⟩ | ⟨dismissal, _, found⟩)
    · obtain ⟨rfl, review⟩ := Prod.mk.inj same
      obtain rfl := Latest.receipt.inj review
      exact ⟨member, rfl⟩
    · obtain ⟨_, _, same⟩ := Option.map_eq_some_iff.mp found
      cases (Prod.mk.inj same).2
  · rintro ⟨member, rfl⟩
    exact .inl ⟨receipt, member, rfl⟩

theorem dismissal_entry {reviewer : Nat} {dismissal : GithubReviewDismissal}
    {submittedAt : String} :
    (reviewer, .dismissal dismissal submittedAt) ∈
        ledger.receiptEntries ++ ledger.dismissals.filterMap ledger.dismissalEntry ↔
      dismissal ∈ ledger.dismissals ∧ dismissal.reviewerId = reviewer ∧
        ledger.dismissedAt dismissal = some submittedAt := by
  rw [List.mem_append, List.mem_filterMap, receiptEntries, List.mem_map]
  constructor
  · rintro (⟨other, _, same⟩ | ⟨other, member, found⟩)
    · cases (Prod.mk.inj same).2
    · obtain ⟨time, known, same⟩ := Option.map_eq_some_iff.mp found
      obtain ⟨rfl, dismissed⟩ := Prod.mk.inj same
      obtain ⟨rfl, rfl⟩ := Latest.dismissal.inj dismissed
      exact ⟨member, rfl, known⟩
  · rintro ⟨member, rfl, known⟩
    exact .inr ⟨dismissal, member, Option.map_eq_some_iff.mpr ⟨submittedAt, known, rfl⟩⟩

/-- A receipt is active when it is the latest one of its reviewer and each dismissal of the
reviewer is of an older review. -/
theorem mem_activeReceipts (unique : (ledger.reviewReceipts.map (·.reviewId)).Nodup) :
    receipt ∈ ledger.activeReceipts ↔ ledger.LatestReceipt receipt ∧
      ∀ dismissal ∈ ledger.dismissals, dismissal.reviewerId = receipt.reviewerId →
        ledger.DismissesOlder dismissal receipt := by
  obtain ⟨holds, ambiguous⟩ := latest_holds ledger
  rw [activeReceipts, Keyed.mem_sorted, List.mem_filterMap]
  generalize ledger.dismissals.foldl ledger.dismissalStep (ledger.latestOfReceipts, []) = state at *
  constructor
  · rintro ⟨⟨reviewer, review | ⟨_, _⟩⟩, stored, found⟩
    · rw [activeReceipt] at found
      split at found
      · cases found
      · next clear =>
        rw [ambiguous] at clear
        obtain rfl := Option.some.inj found
        obtain ⟨member, rfl⟩ := receipt_entry.mp (holds.among _ stored)
        refine ⟨⟨member, ?_⟩, ?_⟩
        · intro other there same
          exact receipt_le_receipt.mp (holds.greatest stored (receipt_entry.mpr ⟨there, same⟩))
        · intro dismissal there same
          cases time : ledger.dismissedAt dismissal with
          | none => exact absurd ⟨dismissal, there, same, time⟩ clear
          | some submittedAt =>
              have below := holds.greatest stored (dismissal_entry.mpr ⟨there, same, time⟩)
              exact ⟨submittedAt, time, dismissal_le_receipt.mp below⟩
    · cases found
  · rintro ⟨⟨member, latest⟩, older⟩
    refine ⟨(receipt.reviewerId, .receipt receipt), ?_, ?_⟩
    · refine holds.kept (receipt_entry.mpr ⟨member, rfl⟩) ?_
      rintro (other | ⟨dismissal, submittedAt⟩) there above
      · obtain ⟨there, same⟩ := receipt_entry.mp there
        have equal := le_antisymm (latest other there same) (receipt_le_receipt.mp above)
        have ids : other.reviewId = receipt.reviewId :=
          congrArg (fun order => (ofLex order).2) equal
        rw [Keyed.eq_of_key unique there member ids]
      · obtain ⟨there, same, time⟩ := dismissal_entry.mp there
        obtain ⟨time', known, below⟩ := older dismissal there same
        obtain rfl : submittedAt = time' := Option.some.inj (time.symm.trans known)
        have lower := dismissal_le_receipt.mpr below
        have equal := le_antisymm lower above
        exact absurd (congrArg (fun key => (ofLex (ofLex key).2).2) equal) Nat.one_ne_zero
    · rw [activeReceipt, if_neg]
      rw [ambiguous]
      rintro ⟨dismissal, there, same, time⟩
      obtain ⟨_, known, _⟩ := older dismissal there same
      rw [time] at known
      cases known

/-- One receipt for each reviewer, in the order of the reviewers. -/
theorem activeReceipts_pairwise :
    (ledger.activeReceipts.map (·.reviewerId)).Pairwise (· < ·) := by
  obtain ⟨holds, _⟩ := latest_holds ledger
  rw [activeReceipts]
  generalize ledger.dismissals.foldl ledger.dismissalStep (ledger.latestOfReceipts, []) = state at *
  refine Keyed.sorted_map_pairwise ((Keyed.filterMap_sublist ?_).nodup holds.groups)
  rintro ⟨reviewer, review | ⟨_, _⟩⟩ stored receipt found
  · rw [activeReceipt] at found
    split at found
    · cases found
    · obtain rfl := Option.some.inj found
      exact (receipt_entry.mp (holds.among _ stored)).2
  · cases found

/-- Ledgers with the same active receipts list them alike. -/
theorem activeReceipts_ext {other : GithubReviewLedger}
    (members : ∀ receipt, receipt ∈ other.activeReceipts ↔ receipt ∈ ledger.activeReceipts) :
    other.activeReceipts = ledger.activeReceipts := by
  have ordered (ledger : GithubReviewLedger) := List.pairwise_map.mp ledger.activeReceipts_pairwise
  have nodup (ledger : GithubReviewLedger) : ledger.activeReceipts.Nodup :=
    List.Nodup.of_map _ (ledger.activeReceipts_pairwise.imp ne_of_lt)
  have perm := (List.perm_ext_iff_of_nodup (nodup other) (nodup ledger)).mpr members
  refine perm.eq_of_pairwise ?_ (ordered other) (ordered ledger)
  intro _ _ _ _ below above
  exact absurd (below.trans above) (lt_irrefl _)

/-- The active receipts depend on which records the ledger has, not on their order. -/
theorem activeReceipts_eq_of_perm {other : GithubReviewLedger}
    (unique : (ledger.reviewReceipts.map (·.reviewId)).Nodup)
    (receipts : other.reviewReceipts.Perm ledger.reviewReceipts)
    (dismissals : other.dismissals.Perm ledger.dismissals) :
    other.activeReceipts = ledger.activeReceipts := by
  have unique' : (other.reviewReceipts.map (·.reviewId)).Nodup :=
    (receipts.map (·.reviewId)).nodup_iff.mpr unique
  have times : other.dismissedAt = ledger.dismissedAt := by
    funext dismissal
    have byId : other.receiptById dismissal.reviewId = ledger.receiptById dismissal.reviewId := by
      ext receipt
      rw [receiptById_eq_some unique', receiptById_eq_some unique, receipts.mem_iff]
    rw [dismissedAt, dismissedAt, byId]
  refine activeReceipts_ext fun receipt => ?_
  simp only [mem_activeReceipts unique', mem_activeReceipts unique, LatestReceipt, DismissesOlder,
    times, receipts.mem_iff, dismissals.mem_iff]

/-- Dismissals only take receipts away. -/
theorem activeReceipts_subset {other : GithubReviewLedger}
    (unique : (ledger.reviewReceipts.map (·.reviewId)).Nodup)
    (receipts : other.reviewReceipts = ledger.reviewReceipts)
    (dismissals : ledger.dismissals ⊆ other.dismissals) :
    other.activeReceipts ⊆ ledger.activeReceipts := by
  have unique' : (other.reviewReceipts.map (·.reviewId)).Nodup := receipts ▸ unique
  have times : other.dismissedAt = ledger.dismissedAt := by
    funext dismissal
    rw [dismissedAt, dismissedAt, receiptById, receiptById, receipts]
  intro receipt active
  simp only [mem_activeReceipts unique', mem_activeReceipts unique, LatestReceipt,
    DismissesOlder, times, receipts] at active ⊢
  exact ⟨active.1, fun dismissal there => active.2 dismissal (dismissals there)⟩

/-- What the receipts of a valid ledger are known by, and how its dismissals fit them. -/
theorem receipts_of_validate {services : Services} (valid : ledger.validate services = .ok ()) :
    (ledger.reviewReceipts.map (·.reviewId)).Nodup ∧
      ∀ dismissal ∈ ledger.dismissals, ∀ receipt ∈ ledger.reviewReceipts,
        dismissal.reviewId = receipt.reviewId → dismissalMatches dismissal receipt = true := by
  simp only [validate, Result.check_bind_eq_ok] at valid
  obtain ⟨_, _, _, _, _, _, _, _, receipts, dismissals, _⟩ := valid
  have unique := Keyed.fresh_nil_iff.mp (validateReceipts_eq_ok.mp receipts).1
  refine ⟨unique, ?_⟩
  intro dismissal dismissed receipt received same
  have fits := ((validateDismissals_eq_ok.mp dismissals).2 dismissal dismissed).2.2
  rwa [Keyed.find?_eq_some unique received same.symm] at fits

/-- A dismissal invalidates a receipt exactly when it is one of the reviewer's that is not of
an older review: the one of the review itself is among these. -/
theorem invalidates_iff {services : Services} (valid : ledger.validate services = .ok ())
    {dismissal : GithubReviewDismissal} (dismissed : dismissal ∈ ledger.dismissals)
    (received : receipt ∈ ledger.reviewReceipts) :
    ledger.Invalidates dismissal receipt ↔
      dismissal.reviewerId = receipt.reviewerId ∧ ¬ ledger.DismissesOlder dismissal receipt := by
  obtain ⟨unique, fits⟩ := receipts_of_validate valid
  refine or_iff_right_of_imp ?_
  intro same
  have fits := fits dismissal dismissed receipt received same
  simp only [dismissalMatches, Bool.and_eq_true, decide_eq_true_eq] at fits
  obtain ⟨⟨⟨⟨reviewer, _⟩, _⟩, _⟩, time⟩ := fits
  refine ⟨reviewer.symm, ?_⟩
  rintro ⟨submittedAt, known, older⟩
  have byId : ledger.receiptById dismissal.reviewId = some receipt :=
    (receiptById_eq_some unique).mpr ⟨received, same.symm⟩
  have submitted : submittedAt = receipt.submittedAt := by
    rw [dismissedAt, byId] at known
    cases own : dismissal.submittedAt with
    | none =>
        rw [own] at known
        exact (Option.some.inj known).symm
    | some text =>
        rw [own] at known time
        rw [← Option.some.inj known]
        simpa using (of_decide_eq_true time).symm
  rw [submitted, same] at older
  exact lt_irrefl _ older

end GithubReviewLedger

/-- Of a valid ledger the active receipts are the latest ones that no dismissal invalidates, one
for each reviewer at most. They do not depend on the order of the lists, there is none for a
reviewer whose latest receipt is dismissed, and further dismissals only take receipts away. -/
theorem active_receipts_exact {services : Services} {ledger : GithubReviewLedger}
    (valid : ledger.validate services = .ok ()) :
    (∀ receipt, receipt ∈ ledger.activeReceipts ↔ ledger.LatestReceipt receipt ∧
      ∀ dismissal ∈ ledger.dismissals, ¬ ledger.Invalidates dismissal receipt) ∧
    (ledger.activeReceipts.map (·.reviewerId)).Pairwise (· < ·) ∧
    (∀ other : GithubReviewLedger, other.reviewReceipts.Perm ledger.reviewReceipts →
      other.dismissals.Perm ledger.dismissals → other.activeReceipts = ledger.activeReceipts) ∧
    (∀ latest, ledger.LatestReceipt latest → ∀ dismissal ∈ ledger.dismissals,
      dismissal.reviewId = latest.reviewId →
        ∀ receipt ∈ ledger.activeReceipts, receipt.reviewerId ≠ latest.reviewerId) ∧
    ∀ (dismissal : GithubReviewDismissal) (other : GithubReviewLedger),
      other.reviewReceipts.Perm ledger.reviewReceipts →
      other.dismissals.Perm (dismissal :: ledger.dismissals) →
        other.activeReceipts ⊆ ledger.activeReceipts := by
  have unique := (GithubReviewLedger.receipts_of_validate valid).1
  have exact : ∀ receipt, receipt ∈ ledger.activeReceipts ↔ ledger.LatestReceipt receipt ∧
      ∀ dismissal ∈ ledger.dismissals, ¬ ledger.Invalidates dismissal receipt := by
    intro receipt
    rw [GithubReviewLedger.mem_activeReceipts unique]
    refine and_congr_right fun latest => forall₂_congr fun dismissal dismissed => ?_
    rw [GithubReviewLedger.invalidates_iff valid dismissed latest.1, not_and, not_not]
  refine ⟨exact, ledger.activeReceipts_pairwise,
    fun _ => GithubReviewLedger.activeReceipts_eq_of_perm unique, ?_, ?_⟩
  · intro latest isLatest dismissal dismissed same receipt active reviewer
    obtain ⟨⟨received, top⟩, clear⟩ := (exact receipt).mp active
    have order := le_antisymm (top latest isLatest.1 reviewer.symm)
      (isLatest.2 receipt received reviewer)
    have ids : latest.reviewId = receipt.reviewId := congrArg (fun order => (ofLex order).2) order
    exact clear dismissal dismissed (.inl (same.trans ids))
  · intro dismissal other receipts dismissals
    -- the dismissals are put in front of the ledger as it is, and its lists then reordered
    have grown : other.activeReceipts =
        { ledger with dismissals := dismissal :: ledger.dismissals }.activeReceipts :=
      GithubReviewLedger.activeReceipts_eq_of_perm unique receipts dismissals
    rw [grown]
    exact GithubReviewLedger.activeReceipts_subset unique rfl (List.subset_cons_self _ _)

namespace Sample

/-- A ledger with a dismissal, an older receipt of the same reviewer and one of another. -/
def withDismissal : GithubReviewLedger :=
  build scope [dismissal, submission, earlierSubmission, otherSubmission]

def beforeDismissal : GithubReviewLedger :=
  build scope [submission, earlierSubmission, otherSubmission]

/-- The receipt that is dismissed. -/
def dismissedReceipt : GithubReviewReceipt :=
  ⟨41, "PRR_41", 17, "U_17", "alice", .approved, "c123456789012345678901234567890123456789",
    "2026-09-05T01:02:03Z", "https://github.com/acme/widgets/pull/7#pullrequestreview-41",
    "MEMBER", "delivery-submit",
    "1814236f72c4f9ebae9d1e21583f6a8d037497d0bb0f6dc9be0ff7d70de20ada",
    "982a12527e5d8e9fbb913119185383c531209c3ee231477e676547314c407122"⟩

end Sample

open Sample in
/-- A reviewer with an older receipt has none that is active once the latest is dismissed; the
receipt of another reviewer stays active. -/
theorem active_receipts_exact_sample :
    beforeDismissal.activeReceipts = dismissedReceipt :: otherSubmission.receipt?.toList ∧
      withDismissal.activeReceipts = otherSubmission.receipt?.toList ∧
      ∀ receipt ∈ withDismissal.activeReceipts, withDismissal.LatestReceipt receipt ∧
        receipt.reviewerId ≠ 17 := by
  have valid : withDismissal.validate services = .ok () :=
    coherent_all.validate lawful (List.cons_ne_nil _ _)
  obtain ⟨exact, _, _, noFallback, _⟩ := active_receipts_exact valid
  have latest : withDismissal.LatestReceipt dismissedReceipt := by
    have last : dismissedReceipt ∈ withDismissal.reviewReceipts ∧
        ∀ other ∈ withDismissal.reviewReceipts,
          other.reviewerId = dismissedReceipt.reviewerId →
            other.submittedAt < dismissedReceipt.submittedAt ∨ other = dismissedReceipt := by
      decide +kernel
    refine ⟨last.1, fun other listed reviewer => ?_⟩
    obtain earlier | rfl := last.2 other listed reviewer
    · exact (Prod.Lex.toLex_lt_toLex.mpr (.inl earlier)).le
    · exact le_rfl
  have known : ∃ dismissal ∈ withDismissal.dismissals, dismissal.reviewId = 41 := by decide +kernel
  obtain ⟨dismissal, listed, same⟩ := known
  have computed : beforeDismissal.activeReceipts =
        dismissedReceipt :: otherSubmission.receipt?.toList ∧
      withDismissal.activeReceipts = otherSubmission.receipt?.toList := by
    decide +kernel
  refine ⟨computed.1, computed.2, fun receipt active => ?_⟩
  exact ⟨((exact receipt).mp active).1,
    noFallback dismissedReceipt latest dismissal listed same receipt active⟩

end Stratadiff.Ledger
