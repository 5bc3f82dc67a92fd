import Stratadiff.Inbox.Decision
import Stratadiff.Lib.Newest

/-!
# The checkpoint of a reviewer

The inbox reads the reviews of a reviewer from one interface of GitHub and offers to resume
from the latest completed one; resuming reads them again from another (`github.rs`) and
resolves the checkpoint anew. Both take the review with the greatest instant, and of equal
instants the one with the greatest id, so they take the same one.
-/

namespace Stratadiff.Inbox

open Ledger (toAsciiLowercase eqIgnoreAsciiCase trim)

/-! ## Resolving a checkpoint -/

def githubCheckpointSchema : String := "stratadiff-github-review-checkpoint-v1"
def maxGithubReviews : Nat := 10000
def selectionPolicy : String :=
  "latest_nondismissed_human_approved_or_changes_requested_review_for_explicit_reviewer"

structure GithubUser where
  login : String
  accountType : String
  deriving DecidableEq, Repr

structure GithubReview where
  id : Nat
  user : Option GithubUser
  state : String
  htmlUrl : String
  commitId : String
  submittedAt : Option String
  authorAssociation : String
  deriving DecidableEq, Repr

structure GithubReviewCheckpoint where
  reviewId : Nat
  reviewerLogin : String
  reviewState : String
  commitId : String
  submittedAt : String
  htmlUrl : String
  authorAssociation : String
  deriving DecidableEq, Repr

structure GithubCheckpointResolution where
  schema : String
  selectionPolicy : String
  requestedReviewer : String
  observedReviews : Nat
  matchingReviewerReviews : Nat
  eligibleReviews : Nat
  checkpoint : Option GithubReviewCheckpoint
  deriving DecidableEq, Repr

/-- `YYYY-MM-DDTHH:MM:SSZ` with any digits, and up to nine digits of a fraction. -/
def validGithubTimestamp (value : String) : Bool :=
  let text := value.toList
  let base := text.take 19
  let validBase :=
    (base[4]? = some '-' ∧ base[7]? = some '-' ∧ base[10]? = some 'T' ∧ base[13]? = some ':' ∧
      base[16]? = some ':') ∧
    base.zipIdx.all fun (c, index) => index ∈ [4, 7, 10, 13, 16] || c.isDigit
  if text.length < 20 then false
  else if ¬ validBase then false
  else if text.length = 20 then text[19]? = some 'Z'
  else
    let fractionDigits := text.length - 21
    1 ≤ fractionDigits && fractionDigits ≤ 9 && text[19]? = some '.' &&
      text.getLast? = some 'Z' && (slice text 20 (text.length - 1)).all Char.isDigit

def timestampFraction (text : List Char) : List Char :=
  if text.length = 20 then [] else slice text 20 (text.length - 1)

def compareGithubTimestamps (left right : String) : Ordering :=
  let left := left.toList
  let right := right.toList
  (Instant.compareText (left.take 19) (right.take 19)).then
    (Instant.comparePadded 9 (timestampFraction left) (timestampFraction right))

/-- Whether a review is a completed one of a human with the login. -/
def GithubReview.isEligible (reviewer : String) (review : GithubReview) : Bool :=
  review.user.any fun user =>
    eqIgnoreAsciiCase user.login reviewer && user.accountType == "User" && isCompleted review.state

/-- What the loop over the reviews has found. -/
structure Eligible where
  matchingReviewerReviews : Nat
  eligible : List GithubReviewCheckpoint
  deriving DecidableEq, Repr

def observeGithubReview (reviewer : String) (found : Eligible) (review : GithubReview) :
    Result Eligible :=
  match review.user with
  | none => pure found
  | some user =>
      if !eqIgnoreAsciiCase user.login reviewer then
        pure found
      else
        let matchingReviewerReviews := found.matchingReviewerReviews + 1
        if user.accountType ≠ "User" ∨ ¬ isCompleted review.state then
          pure ⟨matchingReviewerReviews, found.eligible⟩
        else
          match review.submittedAt with
          | none =>
              .error (.invalid
                s!"GitHub completed review {review.id} is missing its submitted_at timestamp")
          | some submittedAt => do
              Result.ensure (validGithubTimestamp submittedAt)
                (.invalid s!"GitHub review {review.id} has an invalid submitted_at timestamp")
              Result.ensure (validOid review.commitId)
                (.invalid s!"GitHub review {review.id} has an invalid commit_id")
              Result.ensure (review.htmlUrl ≠ "")
                (.invalid s!"GitHub review {review.id} has an empty html_url")
              return ⟨matchingReviewerReviews, found.eligible ++
                [⟨review.id, user.login, toAsciiLowercase review.state, review.commitId,
                  submittedAt, review.htmlUrl, review.authorAssociation⟩]⟩

/-- Not after: by time, and then by id. -/
def checkpointOrder (left right : GithubReviewCheckpoint) : Bool :=
  (compareGithubTimestamps left.submittedAt right.submittedAt).then
    (compare left.reviewId right.reviewId) != .gt

def resolveGithubReviews (reviews : List GithubReview) (reviewer : String) :
    Result GithubCheckpointResolution := do
  Result.ensure (reviewer ≠ "") (.invalid "GitHub reviewer login must not be empty")
  Result.ensure (trim reviewer = reviewer)
    (.invalid "GitHub reviewer login must not contain surrounding whitespace")
  Result.ensure (reviews.length ≤ maxGithubReviews)
    (.limit
      s!"GitHub review count limit exceeded: observed {reviews.length}, limit {maxGithubReviews}")
  let found ← reviews.foldlM (observeGithubReview reviewer) ⟨0, []⟩
  let eligible := found.eligible.mergeSort checkpointOrder
  return ⟨githubCheckpointSchema, selectionPolicy, reviewer, reviews.length,
    found.matchingReviewerReviews, eligible.length, eligible.getLast?⟩

/-! ## Instants -/

/-- The seconds of a timestamp, as an exact number. -/
def Timestamp.instant (timestamp : Timestamp) : ℚ :=
  timestamp.components.seconds + Instant.fraction timestamp.fraction

/-- The instant that a text names. -/
def instant (text : String) : Option ℚ :=
  (parseTimestamp text "review_timestamp_invalid").toOption.map Timestamp.instant

theorem instant_eq_some {text : String} {time : ℚ} :
    instant text = some time ↔ ∃ timestamp,
      parseTimestamp text "review_timestamp_invalid" = .ok timestamp ∧
        timestamp.instant = time := by
  unfold instant
  cases parseTimestamp text "review_timestamp_invalid" <;> simp [Except.toOption]

section

variable {parts parts' : Parts}

theorem Parts.Valid.length_base (valid : parts.Valid) : parts.base.length = 19 := by
  simp [Parts.base, valid.year.2, valid.month.2, valid.day.2, valid.hour.2, valid.minute.2,
    valid.second.2]

/-- The same separator decides nothing. -/
theorem compareText_separator (c : Char) (left right : List Char) :
    Instant.compareText (c :: left) (c :: right) = Instant.compareText left right := by
  rw [Instant.compareText, List.compareLex_cons_cons, Instant.compareChar_self]
  rfl

/-- Written dates compare as their components. -/
theorem compare_base (valid : parts.Valid) (valid' : parts'.Valid) :
    Instant.compareText parts.base parts'.base = parts.components.compare parts'.components := by
  have digits {x y : List Char} {n : Nat} (hx : Instant.Digits x ∧ x.length = n)
      (hy : Instant.Digits y ∧ y.length = n) :
      Instant.compareText x y = compare (Instant.value x) (Instant.value y) :=
    Instant.compareText_eq (hx.2.trans hy.2.symm) hx.1 hy.1
  rw [Parts.base, Parts.base,
    Instant.compareText_append (valid.year.2.trans valid'.year.2.symm), compareText_separator,
    Instant.compareText_append (valid.month.2.trans valid'.month.2.symm), compareText_separator,
    Instant.compareText_append (valid.day.2.trans valid'.day.2.symm), compareText_separator,
    Instant.compareText_append (valid.hour.2.trans valid'.hour.2.symm), compareText_separator,
    Instant.compareText_append (valid.minute.2.trans valid'.minute.2.symm), compareText_separator,
    digits valid.year valid'.year, digits valid.month valid'.month, digits valid.day valid'.day,
    digits valid.hour valid'.hour, digits valid.minute valid'.minute,
    digits valid.second valid'.second]
  rfl

theorem Parts.instant_eq : parts.timestamp.instant =
    parts.components.seconds + Instant.fraction parts.fraction := rfl

/-- Components first, and then fractions, is the order of the instants. -/
theorem compare_instant (valid : parts.Valid) (valid' : parts'.Valid) {order : Ordering}
    (fractions : order = compare (Instant.fraction parts.fraction)
      (Instant.fraction parts'.fraction)) :
    (parts.components.compare parts'.components).then order =
      compare parts.timestamp.instant parts'.timestamp.instant := by
  have below := Instant.fraction_lt_one valid.fraction
  have below' := Instant.fraction_lt_one valid'.fraction
  have above := @Instant.fraction_nonneg parts.fraction
  have above' := @Instant.fraction_nonneg parts'.fraction
  rw [Instant.Civil.compare_eq valid.calendar valid'.calendar, fractions, Parts.instant_eq,
    Parts.instant_eq]
  refine Instant.compare_then (fun lt => ?_) (fun gt => ?_) fun eq => ?_
  · have step :
        (parts.components.seconds : ℚ) + 1 ≤ parts'.components.seconds := by exact_mod_cast lt
    linarith
  · have step :
        (parts'.components.seconds : ℚ) + 1 ≤ parts.components.seconds := by exact_mod_cast gt
    linarith
  · rw [eq]
    exact Instant.compare_congr (by intro; linarith) (by intro; linarith) (by intro h; rw [h])

theorem timestamp_compare (valid : parts.Valid) (valid' : parts'.Valid) :
    parts.timestamp.compare parts'.timestamp =
      compare parts.timestamp.instant parts'.timestamp.instant :=
  compare_instant valid valid' (Instant.comparePadded_eq (le_max_left _ _) (le_max_right _ _)
    valid.fraction valid'.fraction)

theorem Parts.Valid.take_text (valid : parts.Valid) : parts.text.take 19 = parts.base := by
  rw [Parts.text, ← valid.length_base, List.take_left]

theorem Parts.Valid.length_text_of_nil (valid : parts.Valid) (none : parts.fraction = []) :
    parts.text.length = 20 := by
  simp [Parts.text, none, valid.length_base]

theorem Parts.Valid.length_text (valid : parts.Valid) (some : parts.fraction ≠ []) :
    parts.text.length = 21 + parts.fraction.length := by
  simp [Parts.text, some, valid.length_base]
  omega

/-- The digits behind the point are found by their places. -/
theorem Parts.Valid.timestampFraction (valid : parts.Valid) :
    timestampFraction parts.text = parts.fraction := by
  have base := valid.length_base
  unfold Inbox.timestampFraction
  by_cases none : parts.fraction = []
  · rw [if_pos (valid.length_text_of_nil none), none]
  · have some := List.length_pos_iff.mpr none
    have length := valid.length_text none
    rw [if_neg (by omega), slice, length, Parts.text, if_neg none]
    have whole : parts.base ++ '.' :: (parts.fraction ++ ['Z']) =
        (parts.base ++ ['.']) ++ (parts.fraction ++ ['Z']) := by simp
    have front : (parts.base ++ ['.']).length = 20 := by simp [base]
    rw [whole, ← front, List.drop_left, front]
    exact List.take_left' (by omega)

theorem compareGithubTimestamps_eq {text text' : String} (valid : parts.Valid)
    (valid' : parts'.Valid) (written : text.toList = parts.text)
    (written' : text'.toList = parts'.text)
    (short : parts.fraction.length ≤ 9) (short' : parts'.fraction.length ≤ 9) :
    compareGithubTimestamps text text' =
      compare parts.timestamp.instant parts'.timestamp.instant := by
  rw [compareGithubTimestamps]
  simp only [written, written', valid.take_text, valid'.take_text, valid.timestampFraction,
    valid'.timestampFraction, compare_base valid valid']
  exact compare_instant valid valid' (Instant.comparePadded_eq short short' valid.fraction
    valid'.fraction)

/-- What resuming accepts has nine digits behind the point at most. -/
theorem Parts.Valid.length_fraction {text : String} (valid : parts.Valid)
    (written : text.toList = parts.text) (accepted : validGithubTimestamp text = true) :
    parts.fraction.length ≤ 9 := by
  by_cases none : parts.fraction = []
  · simp [none]
  · have some := List.length_pos_iff.mpr none
    have length := valid.length_text none
    rw [validGithubTimestamp, written] at accepted
    simp only [length] at accepted
    split at accepted
    · cases accepted
    · split at accepted
      · cases accepted
      · rw [if_neg (by omega)] at accepted
        simp only [Bool.and_eq_true, decide_eq_true_eq] at accepted
        omega

end

/-! ## Histories -/

/-- A completed review, as either interface describes it. -/
structure CompletedReview where
  databaseId : Option Nat
  submittedAt : Option ℚ
  state : String
  commitOid : Option String
  deriving DecidableEq

def ReviewObservation.completed (review : ReviewObservation) : CompletedReview :=
  ⟨review.databaseId, review.submittedAt.bind instant, review.state, review.commitOid⟩

def GithubReview.completed (review : GithubReview) : CompletedReview :=
  ⟨some review.id, review.submittedAt.bind instant, review.state, some review.commitId⟩

/-- The completed reviews that the inbox observed. -/
def completedNodes (nodes : List ReviewObservation) : List CompletedReview :=
  (nodes.filter fun review => isCompleted review.state).map ReviewObservation.completed

/-- The completed reviews of a reviewer among those that resuming reads. -/
def completedReviews (reviews : List GithubReview) (reviewer : String) : List CompletedReview :=
  (reviews.filter (GithubReview.isEligible reviewer)).map GithubReview.completed

/-- Both interfaces describe the same completed reviews, each in some order. -/
def SameHistory (nodes : List ReviewObservation) (reviews : List GithubReview) (reviewer : String) :
    Prop :=
  (completedNodes nodes).Perm (completedReviews reviews reviewer)

/-- The review of a history with the greatest instant, and of equal instants with the greatest
id. -/
def IsLatest (history : List CompletedReview) (review : CompletedReview) : Prop :=
  review ∈ history ∧ ∃ time id, review.submittedAt = some time ∧ review.databaseId = some id ∧
    ∀ other ∈ history, ∃ time' id', other.submittedAt = some time' ∧
      other.databaseId = some id' ∧ toLex (time', id') ≤ toLex (time, id)

/-! ## The checkpoint of the inbox -/

/-- By instant, and then by id. -/
def Checkpoint.key (checkpoint : Checkpoint) : ℚ ×ₗ ℕ :=
  toLex (checkpoint.submittedAt.instant, checkpoint.databaseId)

theorem compare_key {time time' : ℚ} {id id' : Nat} :
    (compare time time').then (compare id id') =
      compare (toLex (time, id)) (toLex (time', id')) := by
  refine Instant.compare_then (fun lt => Prod.Lex.toLex_lt_toLex.mpr (.inl lt))
    (fun gt => Prod.Lex.toLex_lt_toLex.mpr (.inl gt)) fun eq => ?_
  subst eq
  exact Instant.compare_congr (fun lt => Prod.Lex.toLex_lt_toLex.mpr (.inr ⟨rfl, lt⟩))
    (fun gt => Prod.Lex.toLex_lt_toLex.mpr (.inr ⟨rfl, gt⟩)) (by rintro rfl; rfl)

/-- What a review is as a checkpoint, read from its fields. -/
theorem checkpointOf_eq_some {review : ReviewObservation} {checkpoint : Checkpoint} :
    checkpointOf review = some checkpoint ↔
      isCompleted review.state = true ∧ checkpoint.review = review ∧
      review.databaseId = some checkpoint.databaseId ∧
      ∃ text, review.submittedAt = some text ∧
        parseTimestamp text "review_timestamp_invalid" = .ok checkpoint.submittedAt := by
  obtain ⟨submittedAt, databaseId, kept⟩ := checkpoint
  unfold checkpointOf asCheckpoint
  by_cases completed : isCompleted review.state = true
  · cases review.submittedAt with
    | none => simp [completed]
    | some text =>
        cases parsed : parseTimestamp text "review_timestamp_invalid" with
        | error e => simp [completed, parsed, Except.toOption]
        | ok timestamp =>
            cases review.databaseId with
            | none => simp [completed]
            | some id =>
                simp only [completed, if_true, Option.bind_some, parsed, Except.toOption,
                  Option.map_some, Option.some.injEq, Checkpoint.mk.injEq, true_and,
                    exists_eq_left', Except.ok.injEq]
                constructor
                · rintro ⟨rfl, rfl, rfl⟩
                  exact ⟨rfl, rfl, rfl⟩
                · rintro ⟨rfl, rfl, rfl⟩
                  exact ⟨rfl, rfl, rfl⟩
  · simp [completed]

/-- A time that was read from a text. -/
def Timestamp.IsRead (timestamp : Timestamp) : Prop :=
  ∃ parts : Parts, parts.Valid ∧ timestamp = parts.timestamp

theorem keep_eq_later {checkpoint : Option Checkpoint} {next : Checkpoint}
    (read : next.submittedAt.IsRead) (old : ∀ c ∈ checkpoint, c.submittedAt.IsRead) :
    keep checkpoint next = Newest.later Checkpoint.key checkpoint next := by
  cases checkpoint with
  | none => rfl
  | some old' =>
      obtain ⟨parts, valid, here⟩ := read
      obtain ⟨parts', valid', there⟩ := old old' rfl
      have order : replaces next (some old') = decide (old'.key < next.key) := by
        rw [replaces, here, there, timestamp_compare valid valid', compare_key, ← here, ← there]
        show (compare next.key old'.key == .gt) = _
        rw [Bool.eq_iff_iff, beq_iff_eq, compare_gt_iff_gt, decide_eq_true_iff]
      rw [keep, order, Newest.later, Option.all_some]

theorem foldl_keep {items : List Checkpoint} {init : Option Checkpoint}
    (read : ∀ c ∈ items, c.submittedAt.IsRead) (start : ∀ c ∈ init, c.submittedAt.IsRead) :
    items.foldl keep init = items.foldl (Newest.later Checkpoint.key) init := by
  induction items generalizing init with
  | nil => rfl
  | cons next items ih =>
      have first := read next (by simp)
      rw [List.foldl_cons, List.foldl_cons, ← keep_eq_later first start]
      refine ih (fun c member => read c (by simp [member])) fun c kept => ?_
      unfold keep at kept
      split at kept
      · exact Option.mem_some.mp kept ▸ first
      · exact start c kept

section

variable {sha256 : Bytes → Bytes} {candidate : CandidateObservation} {host : String}
variable {actor : ActorObservation} {reviewer : ReviewerObservation}
variable {requested : Option RepositoryObservation} {strict : Bool}
variable {decision : InboxCandidateDecision} {nodes : List ReviewObservation}

/-- What is decided from the checkpoint of a candidate. -/
def decideFrom (sha256 : Bytes → Bytes) (candidate : CandidateObservation) (host : String)
    (reviewer : ReviewerObservation) (strict : Bool) : Option Checkpoint → InboxCandidateDecision
  | none => ⟨.noEligibleReviews, none, none, none, none⟩
  | some checkpoint => decideCheckpoint sha256 candidate host reviewer strict checkpoint.review

theorem decideCandidate_eq_ok :
    decideCandidate sha256 candidate host actor reviewer requested strict = .ok decision ↔
      validateCandidate candidate host actor requested = .ok () ∧
      (∀ review ∈ candidate.reviewHistory.nodes,
        Accepted candidate.pullRequest reviewer review) ∧
      (candidate.reviewHistory.nodes.map (·.nodeId)).Nodup ∧
      (candidate.reviewHistory.nodes.filterMap (·.databaseId)).Nodup ∧
      decision = decideFrom sha256 candidate host reviewer strict
        ((candidate.reviewHistory.nodes.filterMap checkpointOf).foldl keep none) := by
  unfold decideCandidate
  rw [Result.check_bind_eq_ok, Result.bind_eq_ok]
  simp only [observeReviews_eq_ok]
  constructor
  · rintro ⟨valid, _, ⟨accepted, names, _, ids, _, rfl⟩, h⟩
    refine ⟨valid, accepted, names, ids, ?_⟩
    dsimp only at h
    split at h
    · rename_i none
      rw [none]
      exact (Except.ok.inj h).symm
    · rename_i checkpoint found
      rw [found]
      exact (Except.ok.inj h).symm
  · rintro ⟨valid, accepted, names, ids, rfl⟩
    refine ⟨valid, _, ⟨accepted, names, by simp, ids, by simp, rfl⟩, ?_⟩
    dsimp only
    split <;> rename_i found <;> rw [found] <;> rfl

theorem decideFrom_checkpoint (checkpoint : Option Checkpoint) :
    (decideFrom sha256 candidate host reviewer strict checkpoint).checkpointReviewNodeId =
      checkpoint.map (·.review.nodeId) := by
  cases checkpoint with
  | none => rfl
  | some checkpoint =>
      show (decideCheckpoint sha256 candidate host reviewer strict
        checkpoint.review).checkpointReviewNodeId = _
      unfold decideCheckpoint
      dsimp only
      repeat' split
      all_goals rfl

/-- The completed reviews of accepted ones have their times. -/
theorem exists_checkpoint {pullRequest : PullRequestObservation} {review : ReviewObservation}
    (accepted : Accepted pullRequest reviewer review)
    (completed : isCompleted review.state = true) :
    ∃ checkpoint, checkpointOf review = some checkpoint := by
  obtain ⟨id, time, _⟩ := accepted.completed completed
  obtain ⟨id, number⟩ := Option.isSome_iff_exists.mp id
  obtain ⟨text, given⟩ := Option.isSome_iff_exists.mp time
  obtain ⟨timestamp, read⟩ := accepted.submitted text given
  exact ⟨⟨timestamp, id, review⟩, checkpointOf_eq_some.mpr ⟨completed, rfl, number, text, given,
    read⟩⟩

theorem checkpointOf_isRead {review : ReviewObservation} {checkpoint : Checkpoint}
    (h : checkpointOf review = some checkpoint) : checkpoint.submittedAt.IsRead := by
  obtain ⟨_, _, _, _, _, parsed⟩ := checkpointOf_eq_some.mp h
  obtain ⟨parts, valid, _, same⟩ := exists_parts parsed
  exact ⟨parts, valid, same⟩

theorem foldl_checkpointOf (nodes : List ReviewObservation) :
    (nodes.filterMap checkpointOf).foldl keep none =
      (nodes.filterMap checkpointOf).foldl (Newest.later Checkpoint.key) none := by
  refine foldl_keep (fun c member => ?_) (by simp)
  obtain ⟨_, _, found⟩ := List.mem_filterMap.mp member
  exact checkpointOf_isRead found

/-- A review and the checkpoint it is have one time and one id. -/
theorem completed_of_checkpointOf {review : ReviewObservation} {checkpoint : Checkpoint}
    (h : checkpointOf review = some checkpoint) :
    review.completed.submittedAt = some checkpoint.submittedAt.instant ∧
      review.completed.databaseId = some checkpoint.databaseId := by
  obtain ⟨_, _, number, text, given, parsed⟩ := checkpointOf_eq_some.mp h
  refine ⟨?_, number⟩
  show review.submittedAt.bind instant = _
  rw [given, Option.bind_some]
  exact instant_eq_some.mpr ⟨_, parsed, rfl⟩

theorem mem_completedNodes {review : CompletedReview} :
    review ∈ completedNodes nodes ↔
      ∃ node ∈ nodes, isCompleted node.state = true ∧ node.completed = review := by
  simp [completedNodes, and_assoc]

/-- The checkpoint that is kept is the latest completed review. -/
theorem isLatest_of_kept {pullRequest : PullRequestObservation} {checkpoint : Checkpoint}
    (accepted : ∀ review ∈ nodes, Accepted pullRequest reviewer review)
    (kept : (nodes.filterMap checkpointOf).foldl keep none = some checkpoint) :
    checkpoint.review ∈ nodes ∧ checkpointOf checkpoint.review = some checkpoint ∧
      IsLatest (completedNodes nodes) checkpoint.review.completed := by
  rw [foldl_checkpointOf] at kept
  obtain ⟨among, greatest⟩ := (Newest.Greatest.foldl_later _).2 _ kept
  obtain ⟨node, member, found⟩ := List.mem_filterMap.mp among
  obtain ⟨completed, rfl, _⟩ := checkpointOf_eq_some.mp found
  obtain ⟨time, number⟩ := completed_of_checkpointOf found
  refine ⟨member, found, mem_completedNodes.mpr ⟨_, member, completed, rfl⟩, _, _, time, number,
    fun other there => ?_⟩
  obtain ⟨node', member', completed', rfl⟩ := mem_completedNodes.mp there
  obtain ⟨checkpoint', found'⟩ := exists_checkpoint (accepted node' member') completed'
  obtain ⟨time', number'⟩ := completed_of_checkpointOf found'
  exact ⟨_, _, time', number', greatest _ (List.mem_filterMap.mpr ⟨node', member', found'⟩)⟩

theorem kept_eq_none_iff {pullRequest : PullRequestObservation}
    (accepted : ∀ review ∈ nodes, Accepted pullRequest reviewer review) :
    (nodes.filterMap checkpointOf).foldl keep none = none ↔ completedNodes nodes = [] := by
  rw [foldl_checkpointOf]
  have empty : nodes.filterMap checkpointOf = [] ↔ completedNodes nodes = [] := by
    rw [List.filterMap_eq_nil_iff, completedNodes, List.map_eq_nil_iff, List.filter_eq_nil_iff]
    refine forall₂_congr fun node member => ⟨fun none completed => ?_, fun plain => ?_⟩
    · obtain ⟨checkpoint, found⟩ := exists_checkpoint (accepted node member) completed
      rw [none] at found
      cases found
    · cases found : checkpointOf node with
      | none => rfl
      | some checkpoint => exact absurd (checkpointOf_eq_some.mp found).1 plain
  rw [← empty]
  exact ⟨(Newest.Greatest.foldl_later _).1, fun nil => by rw [nil]; rfl⟩

/-- Items of a list that have different keys are told apart by them. -/
theorem eq_of_nodup_filterMap {α : Type} {key : α → Option Nat} {items : List α} {x y : α}
    {id : Nat}
    (ids : (items.filterMap key).Nodup) (first : x ∈ items) (second : y ∈ items)
    (here : key x = some id) (there : key y = some id) : x = y := by
  by_contra different
  have : Std.Symm fun a b => ∀ i, key a = some i → ∀ j, key b = some j → i ≠ j :=
    ⟨fun _ _ apart j hj i hi => (apart i hi j hj).symm⟩
  exact (List.pairwise_filterMap.mp ids).forall first second different id here id there rfl

/-- The order of the reviews does not matter when no id occurs twice. -/
theorem kept_perm {nodes' : List ReviewObservation} (ids : (nodes.filterMap (·.databaseId)).Nodup)
    (perm : nodes'.Perm nodes) :
    (nodes'.filterMap checkpointOf).foldl keep none =
      (nodes.filterMap checkpointOf).foldl keep none := by
  have items := perm.filterMap checkpointOf
  rw [foldl_checkpointOf, foldl_checkpointOf]
  refine Newest.Greatest.foldl_later_perm items fun c here c' there same => ?_
  obtain ⟨review, member, found⟩ := List.mem_filterMap.mp (items.mem_iff.mp here)
  obtain ⟨review', member', found'⟩ := List.mem_filterMap.mp (items.mem_iff.mp there)
  have number := (checkpointOf_eq_some.mp found).2.2.1
  have number' := (checkpointOf_eq_some.mp found').2.2.1
  have id : c.databaseId = c'.databaseId := (Prod.mk.inj (toLex.injective same)).2
  rw [← id] at number'
  rw [eq_of_nodup_filterMap ids member member' number number', found'] at found
  exact (Option.some.inj found).symm

/-! ## The checkpoint of resuming -/

/-- What an eligible review is as a checkpoint. -/
def githubCheckpointOf (reviewer : String) (review : GithubReview) :
    Option GithubReviewCheckpoint :=
  if review.isEligible reviewer then
    review.user.bind fun user => review.submittedAt.map fun submittedAt =>
      ⟨review.id, user.login, toAsciiLowercase review.state, review.commitId, submittedAt,
        review.htmlUrl, review.authorAssociation⟩
  else
    none

/-- What is checked of each eligible review by itself. -/
structure GithubAccepted (review : GithubReview) : Prop where
  submitted : ∃ text, review.submittedAt = some text ∧ validGithubTimestamp text = true
  commit : validOid review.commitId = true
  url : review.htmlUrl ≠ ""

def isMatching (reviewer : String) (review : GithubReview) : Bool :=
  review.user.any fun user => eqIgnoreAsciiCase user.login reviewer

theorem observeGithubReview_eq_ok {name : String} {found found' : Eligible}
    {review : GithubReview} :
    observeGithubReview name found review = .ok found' ↔
      (review.isEligible name = true → GithubAccepted review) ∧
      found' = ⟨found.matchingReviewerReviews + if isMatching name review then 1 else 0,
        found.eligible ++ (githubCheckpointOf name review).toList⟩ := by
  unfold observeGithubReview githubCheckpointOf isMatching GithubReview.isEligible
  cases review.user with
  | none => simp [pure, Except.pure, @eq_comm _ found']
  | some user =>
      by_cases same : eqIgnoreAsciiCase user.login name = true
      · by_cases eligible : user.accountType = "User" ∧ isCompleted review.state = true
        · simp only [same, eligible.1, eligible.2, Option.any_some, beq_self_eq_true, Bool.and_true,
            forall_const, if_true, Bool.not_true, Bool.false_eq_true, if_false, ne_eq,
            not_true_eq_false, or_self, Option.bind_some]
          cases submitted : review.submittedAt with
          | none =>
              refine iff_of_false (by simp) fun h => ?_
              obtain ⟨_, given, _⟩ := h.1.submitted
              rw [submitted] at given
              cases given
          | some text =>
              simp only [Result.check_bind_eq_ok, Result.ensure_eq_ok, Result.pure_eq_ok]
              constructor
              · rintro ⟨time, commit, url, rfl⟩
                exact ⟨⟨⟨text, submitted, time⟩, commit, url⟩, rfl⟩
              · rintro ⟨⟨⟨_, given, time⟩, commit, url⟩, rfl⟩
                obtain rfl := Option.some.inj (submitted.symm.trans given)
                exact ⟨time, commit, url, rfl⟩
        · have other : user.accountType ≠ "User" ∨ ¬ isCompleted review.state = true := by
            rwa [← not_and_or]
          simp only [same, other, if_true, Bool.not_true, Bool.false_eq_true, if_false,
            Option.any_some, Bool.true_and, Bool.and_eq_true, beq_iff_eq, eligible, false_imp_iff,
            true_and, Option.toList_none, List.append_nil]
          exact ⟨fun h => (Except.ok.inj h).symm, fun h => congrArg Except.ok h.symm⟩
      · simp [same, pure, Except.pure, @eq_comm _ found']

theorem observeGithubReviews_eq_ok {name : String} {found found' : Eligible}
    {reviews : List GithubReview} :
    reviews.foldlM (observeGithubReview name) found = .ok found' ↔
      (∀ review ∈ reviews, review.isEligible name = true → GithubAccepted review) ∧
      found' = ⟨found.matchingReviewerReviews + reviews.countP (isMatching name),
        found.eligible ++ reviews.filterMap (githubCheckpointOf name)⟩ := by
  induction reviews generalizing found with
  | nil => simp [pure, Except.pure, @eq_comm _ found']
  | cons review reviews ih =>
      simp only [List.foldlM_cons, Result.bind_eq_ok, observeGithubReview_eq_ok, ih,
        List.forall_mem_cons]
      have eligible : (githubCheckpointOf name review).toList ++
          reviews.filterMap (githubCheckpointOf name) =
            (review :: reviews).filterMap (githubCheckpointOf name) := by
        cases here : githubCheckpointOf name review with
        | none => rw [List.filterMap_cons_none here, Option.toList_none, List.nil_append]
        | some checkpoint =>
            rw [List.filterMap_cons_some here, Option.toList_some, List.singleton_append]
      have matching := @List.countP_cons _ (isMatching name) review reviews
      constructor
      · rintro ⟨_, ⟨accepted, rfl⟩, all, rfl⟩
        refine ⟨⟨accepted, all⟩, ?_⟩
        rw [← eligible, matching, List.append_assoc, Nat.add_assoc, Nat.add_comm (List.countP _ _)]
      · rintro ⟨⟨accepted, all⟩, rfl⟩
        refine ⟨_, ⟨accepted, rfl⟩, all, ?_⟩
        rw [← eligible, matching, List.append_assoc, Nat.add_assoc, Nat.add_comm (List.countP _ _)]

theorem resolveGithubReviews_eq_ok {reviews : List GithubReview} {name : String}
    {resolution : GithubCheckpointResolution} :
    resolveGithubReviews reviews name = .ok resolution ↔
      (name ≠ "" ∧ trim name = name ∧ reviews.length ≤ maxGithubReviews) ∧
      (∀ review ∈ reviews, review.isEligible name = true → GithubAccepted review) ∧
      resolution = ⟨githubCheckpointSchema, selectionPolicy, name, reviews.length,
        reviews.countP (isMatching name),
        ((reviews.filterMap (githubCheckpointOf name)).mergeSort checkpointOrder).length,
        ((reviews.filterMap (githubCheckpointOf name)).mergeSort checkpointOrder).getLast?⟩ := by
  unfold resolveGithubReviews
  simp only [Result.check_bind_eq_ok, Result.ensure_eq_ok, and_assoc]
  refine and_congr_right fun _ => and_congr_right fun _ => and_congr_right fun _ => ?_
  rw [Result.bind_eq_ok]
  simp only [observeGithubReviews_eq_ok, Result.pure_eq_ok]
  constructor
  · rintro ⟨_, ⟨accepted, rfl⟩, rfl⟩
    exact ⟨accepted, by simp⟩
  · rintro ⟨accepted, rfl⟩
    exact ⟨_, ⟨accepted, rfl⟩, by simp⟩

theorem githubCheckpointOf_eq_some {name : String} {review : GithubReview}
    {checkpoint : GithubReviewCheckpoint} :
    githubCheckpointOf name review = some checkpoint ↔
      review.isEligible name = true ∧ ∃ user submittedAt, review.user = some user ∧
        review.submittedAt = some submittedAt ∧
        ⟨review.id, user.login, toAsciiLowercase review.state, review.commitId, submittedAt,
          review.htmlUrl, review.authorAssociation⟩ = checkpoint := by
  unfold githubCheckpointOf
  split
  · next eligible => simp [eligible, Option.bind_eq_some_iff]
  · next plain => simp [plain]

/-- By instant, and then by id. -/
def GithubReviewCheckpoint.key (checkpoint : GithubReviewCheckpoint) : ℚ ×ₗ ℕ :=
  toLex ((instant checkpoint.submittedAt).getD 0, checkpoint.reviewId)

/-- Sorting by text and id is sorting by instant and id. -/
theorem checkpointOrder_eq {left right : GithubReviewCheckpoint} {time time' : ℚ}
    (here : instant left.submittedAt = some time) (there : instant right.submittedAt = some time')
    (accepted : validGithubTimestamp left.submittedAt = true)
    (accepted' : validGithubTimestamp right.submittedAt = true) :
    checkpointOrder left right = decide (left.key ≤ right.key) := by
  obtain ⟨_, parsed, same⟩ := instant_eq_some.mp here
  obtain ⟨_, parsed', same'⟩ := instant_eq_some.mp there
  obtain ⟨parts, valid, written, rfl⟩ := exists_parts parsed
  obtain ⟨parts', valid', written', rfl⟩ := exists_parts parsed'
  rw [checkpointOrder, compareGithubTimestamps_eq valid valid' written written'
    (valid.length_fraction written accepted) (valid'.length_fraction written' accepted'), same,
    same', compare_key, GithubReviewCheckpoint.key, GithubReviewCheckpoint.key, here, there]
  show (compare (toLex (time, left.reviewId)) (toLex (time', right.reviewId)) != .gt) = _
  rw [Bool.eq_iff_iff, bne_iff_ne, ne_eq, compare_gt_iff_gt, not_lt, decide_eq_true_iff]
  rfl

end

/-! ## One history -/

section

variable {history history' : List CompletedReview} {x y : CompletedReview}

theorem IsLatest.perm (latest : IsLatest history x) (same : history.Perm history') :
    IsLatest history' x := by
  obtain ⟨member, time, id, submitted, number, greatest⟩ := latest
  exact ⟨same.mem_iff.mp member, time, id, submitted, number, fun other there =>
    greatest other (same.mem_iff.mpr there)⟩

theorem IsLatest.unique (ids : (history.filterMap (·.databaseId)).Nodup)
    (first : IsLatest history x)
    (second : IsLatest history y) : x = y := by
  obtain ⟨member, time, id, submitted, number, greatest⟩ := first
  obtain ⟨member', time', id', submitted', number', greatest'⟩ := second
  obtain ⟨_, _, here, there, below⟩ := greatest y member'
  obtain ⟨_, _, here', there', below'⟩ := greatest' x member
  rw [submitted', Option.some.injEq] at here
  rw [number', Option.some.injEq] at there
  rw [submitted, Option.some.injEq] at here'
  rw [number, Option.some.injEq] at there'
  subst here there here' there'
  have same := toLex.injective (le_antisymm below below')
  rw [(Prod.mk.inj same).2] at number'
  exact eq_of_nodup_filterMap ids member member' number number'

variable {nodes : List ReviewObservation} {reviews : List GithubReview} {name : String}

theorem nodup_completedNodes (ids : (nodes.filterMap (·.databaseId)).Nodup) :
    ((completedNodes nodes).filterMap (·.databaseId)).Nodup := by
  rw [completedNodes, List.filterMap_map]
  exact ids.sublist (List.Sublist.filterMap _ List.filter_sublist)

theorem nodup_completedReviews (ids : (nodes.filterMap (·.databaseId)).Nodup)
    (same : SameHistory nodes reviews name) :
    ((completedReviews reviews name).filterMap (·.databaseId)).Nodup :=
  (same.filterMap _).nodup_iff.mp (nodup_completedNodes ids)

theorem mem_completedReviews {review : CompletedReview} :
    review ∈ completedReviews reviews name ↔
      ∃ r ∈ reviews, r.isEligible name = true ∧ r.completed = review := by
  simp [completedReviews, and_assoc]

/-- The eligible reviews of a history that the inbox accepts have their times. -/
theorem exists_instant {pullRequest : PullRequestObservation} {reviewer : ReviewerObservation}
    (accepted : ∀ review ∈ nodes, Accepted pullRequest reviewer review)
    (same : SameHistory nodes reviews name) {review : GithubReview} (member : review ∈ reviews)
    (eligible : review.isEligible name = true) :
    ∃ time, review.completed.submittedAt = some time := by
  have there : review.completed ∈ completedNodes nodes :=
    same.mem_iff.mpr (mem_completedReviews.mpr ⟨review, member, eligible, rfl⟩)
  obtain ⟨node, among, completed, described⟩ := mem_completedNodes.mp there
  obtain ⟨checkpoint, found⟩ := exists_checkpoint (accepted node among) completed
  exact ⟨_, described ▸ (completed_of_checkpointOf found).1⟩

/-- What is known of the checkpoints of a history that both sides accept. -/
theorem checkpoint_of_mem {pullRequest : PullRequestObservation} {reviewer : ReviewerObservation}
    (accepted : ∀ review ∈ nodes, Accepted pullRequest reviewer review)
    (same : SameHistory nodes reviews name)
    (github : ∀ review ∈ reviews, review.isEligible name = true → GithubAccepted review)
    {checkpoint : GithubReviewCheckpoint}
    (member : checkpoint ∈ reviews.filterMap (githubCheckpointOf name)) :
    ∃ review ∈ reviews, review.isEligible name = true ∧
      githubCheckpointOf name review = some checkpoint ∧
      review.completed.submittedAt = instant checkpoint.submittedAt ∧
      (∃ time, instant checkpoint.submittedAt = some time) ∧
      validGithubTimestamp checkpoint.submittedAt = true := by
  obtain ⟨review, there, found⟩ := List.mem_filterMap.mp member
  obtain ⟨eligible, user, text, _, submitted, rfl⟩ := githubCheckpointOf_eq_some.mp found
  obtain ⟨_, given, valid⟩ := (github review there eligible).submitted
  obtain rfl := Option.some.inj (submitted.symm.trans given)
  have time : review.completed.submittedAt = instant text := by
    show review.submittedAt.bind instant = _
    rw [submitted, Option.bind_some]
  exact ⟨review, there, eligible, found, time, time ▸ exists_instant accepted same there eligible,
    valid⟩

/-- The checkpoint that resuming takes is the latest completed review. -/
theorem isLatest_of_resolved {pullRequest : PullRequestObservation} {reviewer : ReviewerObservation}
    (accepted : ∀ review ∈ nodes, Accepted pullRequest reviewer review)
    (same : SameHistory nodes reviews name)
    (github : ∀ review ∈ reviews, review.isEligible name = true → GithubAccepted review)
    {checkpoint : GithubReviewCheckpoint}
    (greatest : Newest.Greatest GithubReviewCheckpoint.key
      (reviews.filterMap (githubCheckpointOf name)) checkpoint) :
    ∃ review ∈ reviews, githubCheckpointOf name review = some checkpoint ∧
      review.completed.submittedAt = instant checkpoint.submittedAt ∧
      IsLatest (completedReviews reviews name) review.completed := by
  obtain ⟨review, there, eligible, found, named, ⟨time, read⟩, _⟩ :=
    checkpoint_of_mem accepted same github greatest.among
  obtain ⟨_, _, _, _, _, rfl⟩ := githubCheckpointOf_eq_some.mp found
  refine ⟨review, there, found, named, mem_completedReviews.mpr ⟨review, there, eligible, rfl⟩,
    time, review.id, named.trans read, rfl, fun other member => ?_⟩
  obtain ⟨r, here, eligible', rfl⟩ := mem_completedReviews.mp member
  obtain ⟨text', submitted', _⟩ := (github r here eligible').submitted
  obtain ⟨user', isUser⟩ : ∃ user', r.user = some user' := by
    obtain ⟨user', isUser, _⟩ := (Option.any_eq_true _ _).mp eligible'
    exact ⟨user', isUser⟩
  have found' := githubCheckpointOf_eq_some.mpr ⟨eligible', user', text', isUser, submitted', rfl⟩
  obtain ⟨time', read'⟩ := exists_instant accepted same here eligible'
  have below := greatest.greatest _ (List.mem_filterMap.mpr ⟨r, here, found'⟩)
  have text : instant text' = some time' := by
    rwa [← Option.bind_some (f := instant), ← submitted']
  rw [GithubReviewCheckpoint.key, GithubReviewCheckpoint.key, read, text] at below
  exact ⟨time', r.id, read', rfl, below⟩

/-- Checkpoints of one history are told apart by their ids. -/
theorem distinct_checkpoints (ids : (nodes.filterMap (·.databaseId)).Nodup)
    (same : SameHistory nodes reviews name) :
    ∀ x ∈ reviews.filterMap (githubCheckpointOf name),
      ∀ y ∈ reviews.filterMap (githubCheckpointOf name), x.key = y.key → x = y := by
  intro x first y second keys
  obtain ⟨review, here, found⟩ := List.mem_filterMap.mp first
  obtain ⟨review', here', found'⟩ := List.mem_filterMap.mp second
  obtain ⟨eligible, _, _, _, _, rfl⟩ := githubCheckpointOf_eq_some.mp found
  obtain ⟨eligible', _, _, _, _, rfl⟩ := githubCheckpointOf_eq_some.mp found'
  have number : review.id = review'.id := (Prod.mk.inj (toLex.injective keys)).2
  have apart := nodup_completedReviews ids same
  rw [completedReviews, List.filterMap_map] at apart
  have one : review = review' := eq_of_nodup_filterMap apart
    (List.mem_filter.mpr ⟨here, eligible⟩) (List.mem_filter.mpr ⟨here', eligible'⟩) rfl
    (congrArg some number.symm)
  subst one
  exact Option.some.inj (found.symm.trans found')

end

/-! ## Both sides agree -/

section

variable {sha256 : Bytes → Bytes} {candidate candidate' : CandidateObservation} {host : String}
variable {actor : ActorObservation} {reviewer : ReviewerObservation}
variable {requested : Option RepositoryObservation} {strict : Bool}
variable {decision : InboxCandidateDecision} {reviews reviews' : List GithubReview}
variable {resolution : GithubCheckpointResolution}

/-- Sorting by text and id takes a greatest checkpoint of a history both sides accept. -/
theorem greatest_of_resolved {pullRequest : PullRequestObservation} {name : String}
    {nodes : List ReviewObservation}
    (accepted : ∀ review ∈ nodes, Accepted pullRequest reviewer review)
    (same : SameHistory nodes reviews name)
    (github : ∀ review ∈ reviews, review.isEligible name = true → GithubAccepted review)
    {checkpoint : GithubReviewCheckpoint}
    (last : ((reviews.filterMap (githubCheckpointOf name)).mergeSort checkpointOrder).getLast? =
      some checkpoint) :
    Newest.Greatest GithubReviewCheckpoint.key (reviews.filterMap (githubCheckpointOf name))
      checkpoint := by
  refine Newest.Greatest.getLast_mergeSort (fun a here b there => ?_) last
  obtain ⟨_, _, _, _, _, ⟨time, read⟩, valid⟩ := checkpoint_of_mem accepted same github here
  obtain ⟨_, _, _, _, _, ⟨time', read'⟩, valid'⟩ := checkpoint_of_mem accepted same github there
  exact checkpointOrder_eq read read' valid valid'

/-- Resuming finds nothing exactly when no review is complete. -/
theorem resolved_eq_none_iff {name : String}
    (github : ∀ review ∈ reviews, review.isEligible name = true → GithubAccepted review) :
    ((reviews.filterMap (githubCheckpointOf name)).mergeSort checkpointOrder).getLast? = none ↔
      completedReviews reviews name = [] := by
  rw [List.getLast?_eq_none_iff, ← List.length_eq_zero_iff, List.length_mergeSort,
    List.length_eq_zero_iff, List.filterMap_eq_nil_iff, completedReviews, List.map_eq_nil_iff,
    List.filter_eq_nil_iff]
  refine forall₂_congr fun review member => ⟨fun none eligible => ?_, fun plain => ?_⟩
  · obtain ⟨text, submitted, _⟩ := (github review member eligible).submitted
    obtain ⟨user, isUser, _⟩ := (Option.any_eq_true _ _).mp eligible
    rw [githubCheckpointOf_eq_some.mpr ⟨eligible, user, text, isUser, submitted, rfl⟩] at none
    cases none
  · rw [githubCheckpointOf, if_neg plain]

/-- The order of the reviews does not matter for what resuming takes. -/
theorem resolved_perm {pullRequest : PullRequestObservation} {name : String}
    {nodes : List ReviewObservation}
    (accepted : ∀ review ∈ nodes, Accepted pullRequest reviewer review)
    (ids : (nodes.filterMap (·.databaseId)).Nodup) (same : SameHistory nodes reviews name)
    (resolved : resolveGithubReviews reviews name = .ok resolution) (perm : reviews'.Perm reviews) :
    resolveGithubReviews reviews' name = .ok resolution := by
  obtain ⟨⟨named, trimmed, few⟩, github, rfl⟩ := resolveGithubReviews_eq_ok.mp resolved
  have same' : SameHistory nodes reviews' name :=
    same.trans (((perm.filter _).map _).symm)
  have github' : ∀ review ∈ reviews', review.isEligible name = true → GithubAccepted review :=
    fun review member => github review (perm.mem_iff.mp member)
  have items := perm.filterMap (githubCheckpointOf name)
  refine resolveGithubReviews_eq_ok.mpr ⟨⟨named, trimmed, perm.length_eq ▸ few⟩, github', ?_⟩
  have latest :
      ((reviews'.filterMap (githubCheckpointOf name)).mergeSort checkpointOrder).getLast? =
      ((reviews.filterMap (githubCheckpointOf name)).mergeSort checkpointOrder).getLast? := by
    cases first :
      ((reviews'.filterMap (githubCheckpointOf name)).mergeSort checkpointOrder).getLast? with
    | none =>
        have empty := (resolved_eq_none_iff github').mp first
        have empty' : completedReviews reviews name = [] :=
          List.perm_nil.mp (empty ▸ ((perm.filter _).map _).symm)
        rw [(resolved_eq_none_iff github).mpr empty']
    | some checkpoint =>
        cases second :
            ((reviews.filterMap (githubCheckpointOf name)).mergeSort checkpointOrder).getLast? with
        | none =>
            have empty := (resolved_eq_none_iff github).mp second
            have empty' : completedReviews reviews' name = [] :=
              List.perm_nil.mp (empty ▸ ((perm.filter _).map _))
            rw [(resolved_eq_none_iff github').mpr empty'] at first
            cases first
        | some checkpoint' =>
            have greatest := greatest_of_resolved accepted same' github' first
            have greatest' := greatest_of_resolved accepted same github second
            rw [greatest.unique (greatest'.perm items.symm) (distinct_checkpoints ids same')]
  rw [latest, perm.length_eq, perm.countP_eq, List.length_mergeSort, List.length_mergeSort,
    items.length_eq]

/-- The decision does not depend on the order of the reviews. -/
theorem decideCandidate_perm {nodes : List ReviewObservation}
    (decided : decideCandidate sha256 candidate host actor reviewer requested strict = .ok decision)
    (perm : nodes.Perm candidate.reviewHistory.nodes) :
    decideCandidate sha256
      { candidate with reviewHistory := { candidate.reviewHistory with nodes := nodes } }
      host actor reviewer requested strict = .ok decision := by
  obtain ⟨valid, accepted, names, ids, rfl⟩ := decideCandidate_eq_ok.mp decided
  refine decideCandidate_eq_ok.mpr
    ⟨?_, fun review member => accepted review (perm.mem_iff.mp member),
    (perm.map _).nodup_iff.mpr names, (perm.filterMap _).nodup_iff.mpr ids, ?_⟩
  · rw [← valid]
    unfold validateCandidate validatePullRequest validateRevalidation validateHistory
    simp only [perm.length_eq]
  · rw [kept_perm ids perm]
    rfl

/-- Of a history that both sides accept, the inbox offers the latest completed review, and
resuming takes the same one, in whatever order the reviews come. -/
theorem checkpoints_agree
    (decided : decideCandidate sha256 candidate host actor reviewer requested strict = .ok decision)
    (resolved : resolveGithubReviews reviews reviewer.login = .ok resolution)
    (same : SameHistory candidate.reviewHistory.nodes reviews reviewer.login) :
    (decision.checkpointReviewNodeId = none ↔ completedNodes candidate.reviewHistory.nodes = []) ∧
    (resolution.checkpoint = none ↔ completedNodes candidate.reviewHistory.nodes = []) ∧
    (candidate.reviewHistory.nodes.map (·.nodeId)).Nodup ∧
    (∀ nodeId, decision.checkpointReviewNodeId = some nodeId →
      ∃ review ∈ candidate.reviewHistory.nodes, review.nodeId = nodeId ∧
        IsLatest (completedNodes candidate.reviewHistory.nodes) review.completed ∧
        ∃ checkpoint, resolution.checkpoint = some checkpoint ∧
          review.databaseId = some checkpoint.reviewId ∧
          review.commitOid = some checkpoint.commitId ∧
          review.submittedAt.bind instant = instant checkpoint.submittedAt ∧
          checkpoint.reviewState = toAsciiLowercase review.state) ∧
    (∀ nodes : List ReviewObservation, nodes.Perm candidate.reviewHistory.nodes →
      decideCandidate sha256
        { candidate with reviewHistory := { candidate.reviewHistory with nodes := nodes } }
        host actor reviewer requested strict = .ok decision) ∧
    ∀ reviews' : List GithubReview, reviews'.Perm reviews →
      resolveGithubReviews reviews' reviewer.login = .ok resolution := by
  obtain ⟨valid, accepted, names, ids, rfl⟩ := decideCandidate_eq_ok.mp decided
  obtain ⟨named, github, found⟩ := resolveGithubReviews_eq_ok.mp resolved
  have empty : completedNodes candidate.reviewHistory.nodes = [] ↔
      completedReviews reviews reviewer.login = [] :=
    ⟨fun none => List.nil_perm.mp (none ▸ same), fun none => List.perm_nil.mp (none ▸ same)⟩
  rw [decideFrom_checkpoint]
  refine ⟨?_, ?_, names, ?_, fun nodes perm => decideCandidate_perm decided perm,
    fun reviews' perm => resolved_perm accepted ids same resolved perm⟩
  · rw [Option.map_eq_none_iff]
    exact kept_eq_none_iff accepted
  · rw [found, empty]
    exact resolved_eq_none_iff github
  · intro nodeId offered
    obtain ⟨kept, isKept, rfl⟩ := Option.map_eq_some_iff.mp offered
    obtain ⟨member, _, latest⟩ := isLatest_of_kept accepted isKept
    refine ⟨kept.review, member, rfl, latest, ?_⟩
    cases last : resolution.checkpoint with
    | none =>
        rw [found] at last
        have none := empty.mpr ((resolved_eq_none_iff github).mp last)
        rw [(kept_eq_none_iff accepted).mpr none] at isKept
        cases isKept
    | some checkpoint =>
        rw [found] at last
        obtain ⟨review, there, isCheckpoint, time, latest'⟩ :=
          isLatest_of_resolved accepted same github
          (greatest_of_resolved accepted same github last)
        have one : kept.review.completed = review.completed :=
          (latest.perm same).unique (nodup_completedReviews ids same) latest'
        obtain ⟨number, submitted, state, commit⟩ := CompletedReview.mk.inj one
        obtain ⟨_, _, _, _, _, rfl⟩ := githubCheckpointOf_eq_some.mp isCheckpoint
        exact ⟨_, rfl, number, commit, submitted.trans time, by rw [state]⟩

end

/-- Two approvals within one second, the later id spelled with a fraction of zeros. -/
def sampleNodes : List ReviewObservation :=
  let oid := "1111111111111111111111111111111111111111"
  let author : ReviewerObservation := ⟨"User", "ann", "U1"⟩
  [⟨author, none, some oid, some 8, "R8", "APPROVED", some "2024-02-29T10:00:00.000Z",
      "https://h/o/r/pull/1#pullrequestreview-8"⟩,
    ⟨author, none, some oid, some 7, "R7", "APPROVED", some "2024-02-29T10:00:00Z",
      "https://h/o/r/pull/1#pullrequestreview-7"⟩]

def sampleReviews : List GithubReview :=
  let oid := "1111111111111111111111111111111111111111"
  [⟨7, some ⟨"Ann", "User"⟩, "APPROVED", "u", oid, some "2024-02-29T10:00:00Z", "MEMBER"⟩,
    ⟨9, some ⟨"bob", "User"⟩, "APPROVED", "u", oid, some "2024-02-29T11:00:00Z", "MEMBER"⟩,
    ⟨8, some ⟨"ann", "User"⟩, "APPROVED", "u", oid, some "2024-02-29T10:00:00.0Z", "MEMBER"⟩]

/-- A pull request whose head has moved since. -/
def sampleCandidate : CandidateObservation :=
  let repository : RepositoryObservation := ⟨"o/r", "N1", "https://h/o/r"⟩
  { pullRequest := {
      currentBaseOid := some "3333333333333333333333333333333333333333"
      headOid := some "2222222222222222222222222222222222222222"
      nodeId := "P1"
      number := 1
      state := "OPEN"
      totalReviewCount := 2
      updatedAt := "2024-03-01T00:00:00Z"
      url := "https://h/o/r/pull/1" }
    repository := repository
    revalidation := ⟨"matched", "P1", repository, true, ⟨"ann", "U1"⟩⟩
    reviewHistory := ⟨true, sampleNodes, 1, 2, true⟩
    reviewRequestActive := false }

def sampleTransition : String :=
  "a4752d88fe9212f9c17df34b3aad07c2a12ac3a51ab09f2a97b61b8076eb77b8"

/-- SHA-256 of what the transition is bound to. -/
def sampleSha256 : Bytes → Bytes := Ledger.Sample.entry [(524734292, sampleTransition)] 32

theorem sample_sameHistory : SameHistory sampleNodes sampleReviews "ann" := by
  have reversed : (completedNodes sampleNodes).reverse = completedReviews sampleReviews "ann" := by
    decide +kernel
  rw [SameHistory, ← reversed]
  exact (List.reverse_perm _).symm

theorem checkpoints_agree_sample :
    decideCandidate sampleSha256 sampleCandidate "h" ⟨"ann", "U1"⟩ ⟨"User", "ann", "U1"⟩ none true =
        .ok ⟨.actionable, some "R8", none, some sampleTransition, some "head_changed"⟩ ∧
      ∃ resolution, resolveGithubReviews sampleReviews "ann" = .ok resolution ∧
        resolution.checkpoint.map (·.reviewId) = some 8 := by
  have decided : decideCandidate sampleSha256 sampleCandidate "h" ⟨"ann", "U1"⟩
      ⟨"User", "ann", "U1"⟩ none true =
        .ok ⟨.actionable, some "R8", none, some sampleTransition, some "head_changed"⟩ := by
    decide +kernel
  have accepted : ∀ review ∈ sampleReviews, review.isEligible "ann" = true →
      GithubAccepted review := by
    simp only [sampleReviews, List.forall_mem_cons]
    exact ⟨fun _ => ⟨⟨_, rfl, by decide +kernel⟩, by decide +kernel, by decide⟩,
      fun other => absurd other (by decide +kernel),
      fun _ => ⟨⟨_, rfl, by decide +kernel⟩, by decide +kernel, by decide⟩, by simp⟩
  have resolved := resolveGithubReviews_eq_ok.mpr
    ⟨⟨(by decide : "ann" ≠ ""), by decide +kernel, by decide⟩, accepted, rfl⟩
  obtain ⟨_, _, _, offered, _⟩ := checkpoints_agree decided resolved sample_sameHistory
  obtain ⟨review, member, name, _, checkpoint, found, number, _⟩ := offered "R8" rfl
  refine ⟨decided, _, resolved, ?_⟩
  rw [found, Option.map_some, ← number]
  obtain rfl | later : review = sampleNodes[0] ∨ review ∈ [sampleNodes[1]] :=
    List.mem_cons.mp member
  · rfl
  · obtain rfl := List.mem_singleton.mp later
    exact absurd name (by decide +kernel)

end Stratadiff.Inbox
