import Stratadiff.Coverage.Model
import Stratadiff.Lib.Keyed

/-!
# Which requirements are covered

The requirements of an input and what covers one of them, without the cache, the budgets
and the order in which the source evaluates them. A report marks a requirement as covered
exactly when one of the owners of its path has a receipt that covers it.
-/

namespace Stratadiff.Coverage

open Run
open Ledger (GithubReviewReceipt eqIgnoreAsciiCase)

/-- A change that has to be covered, at the path that says whose it is. -/
structure Requirement where
  scope : CoverageFileScope
  change : ReviewChangeIdentity
  path : Option (String × PathEncoding)
  deriving DecidableEq, Repr

/-- The proof carries a current change, or leaves nothing at a retired path. -/
def Carries (result : CheckpointCoverageProofResult) (scope : CoverageFileScope)
    (change : ReviewChangeIdentity) (path : String) : Prop :=
  ∃ carried delta, result = .verified carried delta ∧
    match scope with
    | .currentChange => ∃ entry ∈ carried, entry.change = change
    | .retiredResidue =>
        (∀ entry ∈ delta.entries, ∀ owned, entry.file.ownershipPath = some owned → owned.1 ≠ path) ∧
          ∀ entry ∈ delta.unresolvedRetiredChanges, entry.path ≠ path

theorem proofCovers_eq_ok_true {result : CheckpointCoverageProofResult} {scope : CoverageFileScope}
    {change : ReviewChangeIdentity} {path : String} :
    proofCovers result scope change path = .ok true ↔ Carries result scope change path := by
  cases result with
  | unavailable reason => simp [proofCovers, Carries]
  | verified carried delta =>
      cases scope with
      | currentChange => simp [proofCovers, Carries]
      | retiredResidue =>
          simp only [proofCovers, Except.ok.injEq, Carries,
            CheckpointCoverageProofResult.verified.injEq, leavesNoResidue, Bool.and_eq_true,
            Bool.not_eq_true', List.any_eq_false, Option.any_eq_true, decide_eq_true_eq,
            not_exists, not_and]
          constructor
          · rintro ⟨displayable, unresolved⟩
            exact ⟨carried, delta, ⟨rfl, rfl⟩, displayable, unresolved⟩
          · rintro ⟨_, _, ⟨rfl, rfl⟩, displayable, unresolved⟩
            exact ⟨displayable, unresolved⟩

namespace CoverageInput

variable (input : CoverageInput)

/-- The rule of CODEOWNERS that wins at the path of a requirement. -/
def winningRule (requirement : Requirement) : Option CodeownerRuleMatch :=
  match requirement.path, input.policy with
  | some (path, .utf8), .ok policy => (policy.resolveUtf8Path path).toOption.join
  | _, _ => none

/-- One of the reviewers an owner stands for has an active receipt, under the login the snapshot
has for the reviewer, whose checkpoint proof carries the change. -/
def OwnerCovers (owner : CodeownerIdentity) (scope : CoverageFileScope)
    (change : ReviewChangeIdentity) (path : String) : Prop :=
  ∃ reviewers, input.ownership.resolve owner = .ok reviewers ∧ ∃ reviewer ∈ reviewers,
    ∃ receipt ∈ input.receipts, receipt.reviewerId = reviewer ∧
      (∃ user, input.ownership.user reviewer = some user ∧
        eqIgnoreAsciiCase user.login receipt.reviewerLogin = true) ∧
      ∃ proof ∈ input.proofs, proof.checkpointCommit = receipt.commitId ∧
        Carries proof.result scope change path

def CoveredBy (requirement : Requirement) : Prop :=
  ∃ rule, input.winningRule requirement = some rule ∧ ∃ owner ∈ rule.ownerAlternatives,
    ∃ path encoding, requirement.path = some (path, encoding) ∧
      input.OwnerCovers owner requirement.scope requirement.change path

/-- A checkpoint leaves an entry at a path that no current change has. -/
def RetiredAt (key : String × PathEncoding) : Prop :=
  ∃ proof ∈ input.proofs, ∃ carried delta, proof.result = .verified carried delta ∧
    ∃ entry ∈ delta.entries, entry.file.changeIdentity ∉ input.currentIdentities ∧
      entry.file.ownershipPath = some key ∧ key ∉ input.currentPaths

/-- A checkpoint leaves a change that could not be resolved, where no current change is. -/
def LeftUnresolved (unresolved : UnresolvedCoverage) : Prop :=
  ∃ proof ∈ input.proofs, ∃ carried delta, proof.result = .verified carried delta ∧
    ∃ change ∈ delta.unresolvedRetiredChanges,
      (change.path, change.pathEncoding) ∉ input.currentPaths ∧
      unresolved = ⟨proof.checkpointCommit, change.path, change.pathEncoding,
        unresolvedReasonText change.reason⟩

def currentRequirement (file : ReviewFile) : Requirement :=
  ⟨.currentChange, file.changeIdentity, file.ownershipPath⟩

def retiredRequirement (retired : (String × PathEncoding) × ReviewChangeIdentity) : Requirement :=
  ⟨.retiredResidue, retired.2, some retired.1⟩

/-! ## The reviewers of an owner -/

section

variable {input} {scope : CoverageFileScope} {change : ReviewChangeIdentity} {path : String}

/-- What makes `visitReviewer` add a covering review. -/
def ReviewerCovers (input : CoverageInput) (scope : CoverageFileScope)
    (change : ReviewChangeIdentity) (path : String) (reviewer : Nat) : Prop :=
  ∃ receipt, input.receiptByReviewer reviewer = some receipt ∧
    (∃ user, input.ownership.user reviewer = some user ∧
      eqIgnoreAsciiCase user.login receipt.reviewerLogin = true) ∧
    ∃ proof, input.proofByCheckpoint receipt.commitId = some proof ∧
      Carries proof.result scope change path

theorem visitReviewer_covering (alternative : OwnerCoverage) (reviewer : Nat) :
    (input.visitReviewer scope change path alternative reviewer).coveringReviewIds ≠ [] ↔
      alternative.coveringReviewIds ≠ [] ∨ input.ReviewerCovers scope change path reviewer := by
  rw [visitReviewer]
  cases received : input.receiptByReviewer reviewer with
  | none => simp [ReviewerCovers, received]
  | some receipt =>
      cases known : input.ownership.user reviewer with
      | none => simp [ReviewerCovers, received, known]
      | some user =>
          cases same : eqIgnoreAsciiCase user.login receipt.reviewerLogin with
          | false => simp [ReviewerCovers, received, known, same]
          | true =>
              cases proved : input.proofByCheckpoint receipt.commitId with
              | none => simp [ReviewerCovers, received, known, same, proved]
              | some proof =>
                  simp only [ReviewerCovers, received, known, same, proved, Option.some.injEq,
                    exists_eq_left', true_and, ← proofCovers_eq_ok_true, Bool.not_true,
                    Bool.false_eq_true, if_false]
                  cases proofCovers proof.result scope change path with
                  | error reason => simp
                  | ok covers => cases covers <;> simp

theorem foldl_visitReviewer_covering (reviewers : List Nat) (alternative : OwnerCoverage) :
    (reviewers.foldl (input.visitReviewer scope change path) alternative).coveringReviewIds ≠ [] ↔
      alternative.coveringReviewIds ≠ [] ∨
        ∃ reviewer ∈ reviewers, input.ReviewerCovers scope change path reviewer := by
  induction reviewers generalizing alternative with
  | nil => simp
  | cons reviewer reviewers ih =>
      rw [List.foldl_cons, ih, visitReviewer_covering, or_assoc]
      simp only [List.mem_cons, exists_eq_or_imp]

theorem reviewerCovers_iff (reviewers : (input.receipts.map (·.reviewerId)).Nodup)
    (checkpoints : (input.proofs.map (·.checkpointCommit)).Nodup) {owner : CodeownerIdentity} :
    (∃ ids, input.ownership.resolve owner = .ok ids ∧
        ∃ reviewer ∈ ids, input.ReviewerCovers scope change path reviewer) ↔
      input.OwnerCovers owner scope change path := by
  simp only [ReviewerCovers, OwnerCovers, receiptByReviewer, proofByCheckpoint,
    lastWith_eq_some reviewers, lastWith_eq_some checkpoints, and_assoc]

end

/-! ## One requirement -/

/-- The cache has what `resolve` returns. -/
def Cached (input : CoverageInput) (expansion : Expansion) : Prop :=
  ∀ owner resolution, expansion.resolutionCache.lookup owner = some resolution →
    resolution = (input.ownership.resolve owner).mapError (·.text)

section

variable {input} {scope : CoverageFileScope} {change : ReviewChangeIdentity} {path : String}

theorem reserve_keeps (additional : Nat) :
    Keeps input.Cached (reserve additional) fun _ => True := by
  refine Keeps.bind Keeps.get fun expansion cached => ?_
  refine Keeps.lift_bind fun observed _ => Keeps.lift_bind fun _ _ => ?_
  exact Keeps.modify fun _ kept => kept

theorem reserveResolvedOwner_keeps (reviewerCount : Nat) :
    Keeps input.Cached (reserveResolvedOwner reviewerCount) fun _ => True :=
  Keeps.lift_bind fun _ _ => Keeps.lift_bind fun _ _ => reserve_keeps _

theorem resolveOwner_keeps (owner : CodeownerIdentity) :
    Keeps input.Cached (input.resolveOwner owner) fun resolution =>
      resolution = (input.ownership.resolve owner).mapError (·.text) := by
  refine Keeps.bind Keeps.get fun expansion cached => ?_
  cases found : expansion.resolutionCache.lookup owner with
  | some resolution => exact Keeps.pure (cached owner resolution found)
  | none =>
      refine Keeps.bind (Keeps.modify ?_) fun _ _ => Keeps.pure rfl
      intro s kept other resolution there
      rw [List.lookup_cons] at there
      split at there
      · next same =>
        rw [beq_iff_eq] at same
        rw [same, ← Option.some.inj there]
      · exact kept other resolution there

theorem checkedAlternative_covering {alternative checked : OwnerCoverage}
    (h : checkedAlternative alternative = .ok checked) :
    checked.coveringReviewIds ≠ [] ↔ alternative.coveringReviewIds ≠ [] := by
  simp only [checkedAlternative, Result.check_bind_eq_ok, Result.pure_eq_ok] at h
  obtain ⟨_, _, _, _, rfl⟩ := h
  rw [ne_eq, ne_eq, not_iff_not]
  constructor
  · intro empty
    exact List.perm_nil.mp (empty ▸ (List.perm_insertionSort _ _).symm)
  · intro empty
    simp [sortedIds, empty]

theorem evaluateOwner_keeps (owner : CodeownerIdentity) :
    Keeps input.Cached (input.evaluateOwner scope change path owner) fun alternative =>
      alternative.coveringReviewIds ≠ [] ↔ ∃ ids, input.ownership.resolve owner = .ok ids ∧
        ∃ reviewer ∈ ids, input.ReviewerCovers scope change path reviewer := by
  have evaluated : Keeps input.Cached (input.ownerAlternative scope change path owner)
      fun alternative => alternative.coveringReviewIds ≠ [] ↔
        ∃ ids, input.ownership.resolve owner = .ok ids ∧
          ∃ reviewer ∈ ids, input.ReviewerCovers scope change path reviewer := by
    refine Keeps.bind (resolveOwner_keeps owner) fun resolution resolved => ?_
    cases hr : input.ownership.resolve owner with
    | ok ids =>
        rw [hr] at resolved
        obtain rfl : resolution = .ok ids := resolved
        refine Keeps.bind (reserveResolvedOwner_keeps ids.length) fun _ _ => Keeps.pure ?_
        rw [foldl_visitReviewer_covering]
        simp
    | error blocker =>
        rw [hr] at resolved
        obtain rfl : resolution = .error blocker.text := resolved
        refine Keeps.bind (reserve_keeps 1) fun _ _ => Keeps.pure ?_
        simp
  refine Keeps.bind evaluated fun alternative covering => Keeps.lift fun checked h => ?_
  rw [checkedAlternative_covering h, covering]

theorem exists_iff_of_forall₂ {α β : Type} {P : α → Prop} {Q : β → Prop} {xs : List α} {ys : List β}
    (h : List.Forall₂ (fun x y => Q y ↔ P x) xs ys) : (∃ y ∈ ys, Q y) ↔ ∃ x ∈ xs, P x := by
  induction h with
  | nil => simp
  | cons first _ ih => simp only [List.mem_cons, exists_eq_or_imp, first, ih]

/-- What a report says of a requirement. -/
structure Evaluated (input : CoverageInput) (requirement : Requirement) (file : FileCoverage) :
    Prop where
  scope : file.scope = requirement.scope
  change : file.change = requirement.change
  path : ∀ path encoding, requirement.path = some (path, encoding) →
    file.path = path ∧ file.pathEncoding = encoding
  state : file.state = .covered ↔ input.CoveredBy requirement

theorem stateOf_covered {alternatives : List OwnerCoverage} :
    (stateOf alternatives).1 = .covered ↔
      ∃ alternative ∈ alternatives, alternative.coveringReviewIds ≠ [] := by
  rw [stateOf]
  split
  · next covering =>
    rw [List.any_eq_true] at covering
    simpa using covering
  · next none =>
    rw [List.any_eq_true] at none
    split <;> simpa using none

theorem Evaluated.blocked {encoding : PathEncoding} {rule : Option CodeownerRuleMatch}
    {reason : String}
    (unowned : ∀ rule, input.winningRule ⟨scope, change, some (path, encoding)⟩ = some rule →
      rule.ownerAlternatives = []) :
    input.Evaluated ⟨scope, change, some (path, encoding)⟩
      (blockedFile change path encoding scope rule reason) where
  scope := rfl
  change := rfl
  path := by
    rintro _ _ ⟨⟩
    exact ⟨rfl, rfl⟩
  state := by
    constructor
    · intro impossible
      cases impossible
    · rintro ⟨rule, wins, owner, member, _⟩
      rw [unowned rule wins] at member
      cases member

variable (reviewers : (input.receipts.map (·.reviewerId)).Nodup)
variable (checkpoints : (input.proofs.map (·.checkpointCommit)).Nodup)

include reviewers checkpoints

theorem evaluateChangeCoverage_keeps (encoding : PathEncoding) :
    Keeps input.Cached (input.evaluateChangeCoverage change path encoding scope)
      (input.Evaluated ⟨scope, change, some (path, encoding)⟩) := by
  cases encoding with
  | gitBytesPercentEncoded =>
      refine Keeps.pure (Evaluated.blocked ?_)
      intro rule wins
      cases wins
  | utf8 =>
      cases hp : input.policy with
      | error reason =>
          simp only [evaluateChangeCoverage, hp, ne_eq, not_true, if_false]
          refine Keeps.pure (Evaluated.blocked ?_)
          intro rule wins
          simp [winningRule, hp] at wins
      | ok policy =>
          have wins_eq : input.winningRule ⟨scope, change, some (path, .utf8)⟩ =
              (policy.resolveUtf8Path path).toOption.join := by
            simp [winningRule, hp]
          rcases found : policy.resolveUtf8Path path with error | _ | rule
          · simp only [evaluateChangeCoverage, hp, found, ne_eq, not_true, if_false]
            refine Keeps.pure (Evaluated.blocked ?_)
            intro rule wins
            rw [wins_eq, found] at wins
            cases wins
          · simp only [evaluateChangeCoverage, hp, found, ne_eq, not_true, if_false]
            refine Keeps.pure (Evaluated.blocked ?_)
            intro rule wins
            rw [wins_eq, found] at wins
            cases wins
          · rw [found] at wins_eq
            simp only [evaluateChangeCoverage, hp, found, ne_eq, not_true, if_false]
            split
            · next unowned =>
              refine Keeps.pure (Evaluated.blocked ?_)
              intro other same
              obtain rfl : rule = other := Option.some.inj (wins_eq.symm.trans same)
              exact unowned
            · refine Keeps.bind (Keeps.mapM (fun owner => evaluateOwner_keeps owner) _)
                fun alternatives evaluated => Keeps.pure ?_
              refine ⟨rfl, rfl, ?_, ?_⟩
              · rintro _ _ ⟨⟩
                exact ⟨rfl, rfl⟩
              · show (stateOf alternatives).1 = .covered ↔ _
                rw [stateOf_covered, exists_iff_of_forall₂ evaluated]
                simp only [reviewerCovers_iff reviewers checkpoints, CoveredBy, wins_eq]
                constructor
                · rintro ⟨owner, member, covers⟩
                  exact ⟨rule, rfl, owner, member, path, .utf8, rfl, covers⟩
                · rintro ⟨_, ⟨⟩, owner, member, _, _, ⟨⟩, covers⟩
                  exact ⟨owner, member, covers⟩

theorem evaluateFileCoverage_keeps (file : ReviewFile) :
    Keeps input.Cached (input.evaluateFileCoverage file)
      (input.Evaluated (currentRequirement file)) := by
  cases path : file.ownershipPath with
  | none =>
      simp only [evaluateFileCoverage, currentRequirement, path]
      refine Keeps.pure ⟨rfl, rfl, ?_, ?_⟩
      · rintro _ _ ⟨⟩
      · constructor
        · rintro ⟨⟩
        · rintro ⟨_, _, _, _, _, _, ⟨⟩, _⟩
  | some key =>
      simp only [evaluateFileCoverage, currentRequirement, path]
      exact evaluateChangeCoverage_keeps reviewers checkpoints key.2

theorem evaluateAll_keeps (retired : List ((String × PathEncoding) × ReviewChangeIdentity)) :
    Keeps input.Cached (input.evaluateAll retired) (List.Forall₂ input.Evaluated
      (input.files.map currentRequirement ++ retired.map retiredRequirement)) := by
  refine Keeps.bind (Keeps.mapM (evaluateFileCoverage_keeps reviewers checkpoints) _)
    fun current evaluated => ?_
  have body (entry : (String × PathEncoding) × ReviewChangeIdentity) : Keeps input.Cached
      (input.evaluateChangeCoverage entry.2 entry.1.1 entry.1.2 .retiredResidue)
      (input.Evaluated (retiredRequirement entry)) :=
    evaluateChangeCoverage_keeps reviewers checkpoints entry.1.2
  refine Keeps.bind (Keeps.mapM body _) fun residue evaluated' => ?_
  refine Keeps.pure (List.rel_append ?_ ?_)
  · rwa [List.forall₂_map_left_iff]
  · rwa [List.forall₂_map_left_iff]

end

/-! ## The residue -/

/-- A loop that collects what each item adds. -/
theorem foldlM_collects {σ α κ : Type} {step : σ → α → Result σ} {view : σ → κ → Prop}
    {adds : α → κ → Prop}
    (each : ∀ s x s', step s x = .ok s' → ∀ k, view s' k ↔ view s k ∨ adds x k)
    {xs : List α} {s s' : σ} (h : xs.foldlM step s = .ok s') (k : κ) :
    view s' k ↔ view s k ∨ ∃ x ∈ xs, adds x k := by
  induction xs generalizing s with
  | nil =>
      obtain rfl := Result.pure_eq_ok.mp h
      simp
  | cons x xs ih =>
      rw [List.foldlM_cons] at h
      obtain ⟨next, first, rest⟩ := Result.bind_eq_ok.mp h
      rw [ih rest, each s x next first, or_assoc]
      simp only [List.mem_cons, exists_eq_or_imp]

section

variable {input} {residue residue' : Residue}

/-- An entry that makes a requirement at a path. -/
def Retires (input : CoverageInput) (entry : ReviewDeltaFile) (key : String × PathEncoding) :
    Prop :=
  entry.file.changeIdentity ∉ input.currentIdentities ∧ entry.file.ownershipPath = some key ∧
    key ∉ input.currentPaths

theorem addEntry_spec {entry : ReviewDeltaFile} (h : input.addEntry residue entry = .ok residue') :
    (∀ key, key ∈ residue'.retiredPaths.map Prod.fst ↔
      key ∈ residue.retiredPaths.map Prod.fst ∨ input.Retires entry key) ∧
    residue'.unresolved = residue.unresolved := by
  rw [addEntry] at h
  split at h
  · next current =>
    obtain rfl := Except.ok.inj h
    simp [Retires, current]
  · next retired =>
    cases path : entry.file.ownershipPath with
    | none =>
        rw [path] at h
        obtain rfl := Except.ok.inj h
        simp [Retires, path]
    | some key =>
        rw [path] at h
        simp only at h
        split at h
        · next current =>
          obtain rfl := Except.ok.inj h
          refine ⟨?_, rfl⟩
          intro other
          refine (or_iff_left ?_).symm
          rintro ⟨_, same, foreign⟩
          obtain rfl := Option.some.inj (path.symm.trans same)
          exact foreign current
        · next foreign =>
          split at h
          · next known =>
            obtain rfl := Except.ok.inj h
            refine ⟨?_, rfl⟩
            intro other
            refine (or_iff_left_of_imp ?_).symm
            rintro ⟨_, same, _⟩
            obtain rfl := Option.some.inj (path.symm.trans same)
            exact known
          · obtain ⟨count, _, h⟩ := Result.bind_eq_ok.mp h
            obtain rfl := Result.pure_eq_ok.mp h
            refine ⟨?_, rfl⟩
            intro other
            rw [((List.perm_orderedInsert _ _ _).map Prod.fst).mem_iff, List.map_cons,
              List.mem_cons, or_comm]
            refine or_congr_right ?_
            simp only [Retires, path, Option.some.injEq]
            constructor
            · rintro rfl
              exact ⟨retired, rfl, foreign⟩
            · rintro ⟨_, rfl, _⟩
              rfl

/-- A change that is left unresolved where no current change is. -/
def Leaves (input : CoverageInput) (checkpointCommit : String)
    (change : ReviewDeltaUnresolvedChange) (unresolved : UnresolvedCoverage) : Prop :=
  (change.path, change.pathEncoding) ∉ input.currentPaths ∧
    unresolved = ⟨checkpointCommit, change.path, change.pathEncoding,
      unresolvedReasonText change.reason⟩

theorem addUnresolved_spec {commit : String} {change : ReviewDeltaUnresolvedChange}
    (h : input.addUnresolved commit residue change = .ok residue') :
    (∀ unresolved, unresolved ∈ residue'.unresolved ↔
      unresolved ∈ residue.unresolved ∨ input.Leaves commit change unresolved) ∧
    residue'.retiredPaths = residue.retiredPaths := by
  rw [addUnresolved] at h
  split at h
  · next current =>
    obtain rfl := Except.ok.inj h
    simp [Leaves, current]
  · next foreign =>
    simp only at h
    split at h
    · next known =>
      obtain rfl := Except.ok.inj h
      refine ⟨?_, rfl⟩
      intro other
      refine (or_iff_left_of_imp ?_).symm
      rintro ⟨_, rfl⟩
      exact known
    · obtain ⟨count, _, h⟩ := Result.bind_eq_ok.mp h
      obtain rfl := Result.pure_eq_ok.mp h
      refine ⟨?_, rfl⟩
      intro other
      rw [(List.perm_orderedInsert _ _ _).mem_iff, List.mem_cons, or_comm]
      exact or_congr_right ⟨fun same => ⟨foreign, same⟩, fun leaves => leaves.2⟩

theorem addProof_spec {proof : CheckpointCoverageProof}
    (h : input.addProof residue proof = .ok residue') :
    (∀ key, key ∈ residue'.retiredPaths.map Prod.fst ↔ key ∈ residue.retiredPaths.map Prod.fst ∨
      ∃ carried delta, proof.result = .verified carried delta ∧
        ∃ entry ∈ delta.entries, input.Retires entry key) ∧
    (∀ unresolved, unresolved ∈ residue'.unresolved ↔ unresolved ∈ residue.unresolved ∨
      ∃ carried delta, proof.result = .verified carried delta ∧
        ∃ change ∈ delta.unresolvedRetiredChanges,
          input.Leaves proof.checkpointCommit change unresolved) := by
  rw [addProof] at h
  cases result : proof.result with
  | unavailable reason =>
      rw [result] at h
      obtain rfl := Except.ok.inj h
      simp
  | verified carried delta =>
      rw [result] at h
      obtain ⟨middle, entries, changes⟩ := Result.bind_eq_ok.mp h
      have entry_keeps (s : Residue) (entry : ReviewDeltaFile) (s' : Residue)
          (step : input.addEntry s entry = .ok s') (unresolved : UnresolvedCoverage) :
          unresolved ∈ s'.unresolved ↔ unresolved ∈ s.unresolved ∨ False := by
        rw [(addEntry_spec step).2, or_false]
      have change_keeps (s : Residue) (change : ReviewDeltaUnresolvedChange) (s' : Residue)
          (step : input.addUnresolved proof.checkpointCommit s change = .ok s')
          (key : String × PathEncoding) :
          key ∈ s'.retiredPaths.map Prod.fst ↔ key ∈ s.retiredPaths.map Prod.fst ∨ False := by
        rw [(addUnresolved_spec step).2, or_false]
      have retired := foldlM_collects
        (fun (s : Residue) (entry : ReviewDeltaFile) (s' : Residue)
          (step : input.addEntry s entry = .ok s') => (addEntry_spec step).1) entries
      have unresolved := foldlM_collects
        (fun (s : Residue) (change : ReviewDeltaUnresolvedChange) (s' : Residue)
          (step : input.addUnresolved proof.checkpointCommit s change = .ok s') =>
            (addUnresolved_spec step).1) changes
      constructor
      · intro key
        rw [foldlM_collects change_keeps changes, retired]
        simp
      · intro left
        rw [unresolved, foldlM_collects entry_keeps entries]
        simp

theorem collectResidue_spec (h : input.collectResidue = .ok residue) :
    (∀ key, key ∈ residue.retiredPaths.map Prod.fst ↔ input.RetiredAt key) ∧
    ∀ unresolved, unresolved ∈ residue.unresolved ↔ input.LeftUnresolved unresolved := by
  obtain ⟨count, _, proofs⟩ := Result.bind_eq_ok.mp h
  have retired := foldlM_collects
    (fun (s : Residue) (proof : CheckpointCoverageProof) (s' : Residue)
      (step : input.addProof s proof = .ok s') => (addProof_spec step).1) proofs
  have unresolved := foldlM_collects
    (fun (s : Residue) (proof : CheckpointCoverageProof) (s' : Residue)
      (step : input.addProof s proof = .ok s') => (addProof_spec step).2) proofs
  constructor
  · intro key
    rw [retired]
    exact or_iff_right List.not_mem_nil
  · intro left
    rw [unresolved]
    exact or_iff_right List.not_mem_nil

end

/-! ## The report -/

/-- The current changes, and a requirement for each retired path. -/
def Requires (requirements : List Requirement) : Prop :=
  ∃ retired : List ((String × PathEncoding) × ReviewChangeIdentity),
    requirements = input.files.map currentRequirement ++ retired.map retiredRequirement ∧
    ∀ key, key ∈ retired.map Prod.fst ↔ input.RetiredAt key

theorem gatePassed_iff {files : List FileCoverage} {unresolved : List UnresolvedCoverage}
    {total : Nat} (h : checkedAdd files.length unresolved.length = some total) :
    countState .covered files = total ↔
      (∀ file ∈ files, file.state = .covered) ∧ unresolved = [] := by
  obtain ⟨-, rfl⟩ := checkedAdd_eq_some.mp h
  have below : countState .covered files ≤ files.length := List.countP_le_length
  constructor
  · intro all
    have none : unresolved.length = 0 := by omega
    refine ⟨?_, List.length_eq_zero_iff.mp none⟩
    have full : countState .covered files = files.length := by omega
    intro file member
    exact of_decide_eq_true (List.countP_eq_length.mp full file member)
  · rintro ⟨all, rfl⟩
    exact List.countP_eq_length.mpr fun file member => decide_eq_true (all file member)

/-- A report lists every requirement, marks as covered those that are, and passes the gate when
all are and nothing is left unresolved. -/
theorem assess_sound_complete {report : CoverageReport}
    (reviewers : (input.receipts.map (·.reviewerId)).Nodup)
    (checkpoints : (input.proofs.map (·.checkpointCommit)).Nodup)
    (h : input.assess = .ok report) :
    (∃ requirements evaluated, input.Requires requirements ∧ report.files.Perm evaluated ∧
      List.Forall₂ input.Evaluated requirements evaluated) ∧
    (∀ unresolved, unresolved ∈ report.unresolvedResidue ↔ input.LeftUnresolved unresolved) ∧
    (report.summary.gatePassed = true ↔
      (∀ file ∈ report.files, file.state = .covered) ∧ report.unresolvedResidue = []) := by
  obtain ⟨residue, collected, h⟩ := Result.bind_eq_ok.mp h
  obtain ⟨_, h⟩ := Result.check_bind_eq_ok.mp h
  obtain ⟨files, evaluated, h⟩ := Result.bind_eq_ok.mp h
  obtain ⟨blocked, _, h⟩ := Result.ofOption_bind_eq_ok.mp h
  obtain ⟨total, added, h⟩ := Result.ofOption_bind_eq_ok.mp h
  obtain ⟨_, h⟩ := Result.check_bind_eq_ok.mp h
  obtain rfl := Result.pure_eq_ok.mp h
  obtain ⟨retired, unresolved⟩ := collectResidue_spec collected
  have start : input.Cached ⟨[], 0⟩ := by
    intro owner resolution impossible
    cases impossible
  refine ⟨⟨_, files, ⟨residue.retiredPaths, rfl, retired⟩, List.perm_insertionSort _ _, ?_⟩,
    unresolved, ?_⟩
  · exact (evaluateAll_keeps reviewers checkpoints residue.retiredPaths).result start evaluated
  · rw [← gatePassed_iff added]
    exact decide_eq_true_iff

end CoverageInput

/-! One modified file, whose owner has an approval under some login at a checkpoint that
carries the file. -/

def sampleFile : ReviewFile where
  status := .modified
  similarityPercent := none
  beforePath := some "f"
  beforePathEncoding := some .utf8
  afterPath := some "f"
  afterPathEncoding := some .utf8
  beforeMode := some "100644"
  afterMode := some "100644"
  beforeBlob := some "a"
  afterBlob := some "b"
  beforeBytes := none
  afterBytes := none
  lineChangeEnvelope := none
  language := none
  priority := .reviewFirst
  lane := .reviewFirst
  checkpointState := none
  checkpointMatchBasis := none
  reason := ""

def sampleRule : CodeownerRuleMatch := ⟨1, "*", [.user "o"]⟩

def sampleProof : CheckpointCoverageProof :=
  ⟨"c", [1], [1], .verified [⟨sampleFile.changeIdentity, .exactGitChangeIdentity⟩]
    ⟨"", "", .checkpointToHead, "", "", "", "", ⟨0, 0, 0, true⟩, [], []⟩⟩

def sampleInput (login : String) : CoverageInput where
  files := [sampleFile]
  policy := .ok ⟨⟨"", "", "", 0, ""⟩, fun _ => .ok (some sampleRule)⟩
  ownership := ⟨[⟨1, "o", .write⟩], []⟩
  receipts := [⟨1, "", 1, "", login, .approved, "c", "", "", "", "", "", ""⟩]
  proofs := [sampleProof]

/-- The changes of a report with what it says of them. -/
def CoverageReport.verdicts (report : CoverageReport) :
    List (ReviewChangeIdentity × FileCoverageState) :=
  report.files.map fun file => (file.change, file.state)

theorem sampleInput_verdict {login : String} {state : FileCoverageState}
    (h : (sampleInput login).assess.toOption.map CoverageReport.verdicts =
      some [(sampleFile.changeIdentity, state)]) :
    ∃ report, (sampleInput login).assess = .ok report ∧
      report.verdicts = [(sampleFile.changeIdentity, state)] := by
  obtain ⟨report, assessed, verdicts⟩ := Option.map_eq_some_iff.mp h
  refine ⟨report, ?_, verdicts⟩
  cases run : (sampleInput login).assess with
  | error failure =>
      rw [run] at assessed
      cases assessed
  | ok found =>
      rw [run] at assessed
      rw [Option.some.inj assessed]

/-- Under the owner's own login the approval covers the file and the gate passes. -/
theorem assess_sound_complete_sample : ∃ report, (sampleInput "o").assess = .ok report ∧
    (report.summary.gatePassed = true ↔ report.unresolvedResidue = []) := by
  obtain ⟨report, assessed, verdicts⟩ := sampleInput_verdict
    (show (sampleInput "o").assess.toOption.map CoverageReport.verdicts =
      some [(sampleFile.changeIdentity, .covered)] by decide +kernel)
  obtain ⟨_, _, gate⟩ := (sampleInput "o").assess_sound_complete (by decide) (by decide) assessed
  refine ⟨report, assessed, gate.trans (and_iff_right fun file member => ?_)⟩
  have listed : (file.change, file.state) ∈ report.verdicts := List.mem_map_of_mem member
  rw [verdicts, List.mem_singleton] at listed
  exact congrArg Prod.snd listed

/-- Under another login the approval is not counted, although the owner is resolved to its
reviewer and the checkpoint carries the file. -/
theorem blocked_under_other_login : ∃ report, (sampleInput "old").assess = .ok report ∧
    report.verdicts = [(sampleFile.changeIdentity, .blocked)] ∧
    (sampleInput "old").winningRule (CoverageInput.currentRequirement sampleFile) =
      some sampleRule ∧
    .user "o" ∈ sampleRule.ownerAlternatives ∧
    (sampleInput "old").ownership.resolve (.user "o") = .ok [1] ∧
    ∃ receipt ∈ (sampleInput "old").receipts, receipt.reviewerId = 1 ∧
      ∃ proof ∈ (sampleInput "old").proofs, proof.checkpointCommit = receipt.commitId ∧
        Carries proof.result .currentChange sampleFile.changeIdentity "f" := by
  obtain ⟨report, assessed, verdicts⟩ := sampleInput_verdict
    (show (sampleInput "old").assess.toOption.map CoverageReport.verdicts =
      some [(sampleFile.changeIdentity, .blocked)] by decide +kernel)
  refine ⟨report, assessed, verdicts, rfl, List.mem_singleton.mpr rfl, by decide +kernel,
    _, List.mem_singleton.mpr rfl, rfl, sampleProof, List.mem_singleton.mpr rfl, rfl, ?_⟩
  exact ⟨_, _, rfl, _, List.mem_singleton.mpr rfl, rfl⟩

end Stratadiff.Coverage
