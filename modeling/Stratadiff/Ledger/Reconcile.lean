import Stratadiff.Ledger.Valid
import Stratadiff.Lib.BackWalk

/-!
# The current head

`reconcile_current_head` accepts an authoritative head when the synchronize transitions of
the ledger lead to it: the walk back from the head must go through all of them.
-/

namespace Stratadiff.Ledger

/-- `is_object_id`: a SHA-1 or SHA-256 in lowercase hexadecimal digits. -/
def isObjectId (value : String) : Bool :=
  (value.toList.length = 40 || value.toList.length = 64) &&
    value.toList.all fun c => c.isDigit || ('a' ≤ c ∧ c ≤ 'f')

structure GithubEffectivePullRequest where
  baseCommit : String
  headCommit : String
  auditedTransitionCount : Nat
  deriving DecidableEq, Repr

/-- What the loop over the observations has seen. -/
structure TransitionHistory where
  successors : List (String × String)
  predecessors : List (String × String)
  transitions : List (String × String)
  deriving DecidableEq, Repr

def recordTransition (history : TransitionHistory) (observation : GithubHeadObservation) :
    Result TransitionHistory := do
  Result.ensure (observation.beforeCommit ≠ observation.headCommit)
    (.invalid "synchronize transition does not advance the pull request head")
  let edge := (observation.beforeCommit, observation.headCommit)
  if edge ∈ history.transitions then return history
  Result.ensure ((history.successors.lookup edge.1).all (· = edge.2))
    (.invalid "synchronize transition history has conflicting successors")
  Result.ensure ((history.predecessors.lookup edge.2).all (· = edge.1))
    (.invalid "synchronize transition history has conflicting predecessors")
  return ⟨Newest.insert edge.1 edge.2 history.successors,
    Newest.insert edge.2 edge.1 history.predecessors, edge :: history.transitions⟩

/-- The walk back from the head, when there are transitions. -/
def TransitionHistory.checkConnected (history : TransitionHistory)
    (authoritativeHeadCommit : String) : Result Unit :=
  if history.transitions ≠ [] then do
    let visited ← Result.ofOption (.invalid "synchronize transition history contains a cycle")
      (BackWalk.walkBack history.predecessors [] authoritativeHeadCommit)
    Result.ensure (visited.length = history.transitions.length) (.invalid
      "synchronize transition history is disconnected from the authoritative pull request head")
  else .ok ()

def GithubReviewLedger.reconcileCurrentHead (services : Services) (ledger : GithubReviewLedger)
    (authoritativeBaseCommit authoritativeHeadCommit : String) :
    Result GithubEffectivePullRequest := do
  Result.ensure (isObjectId authoritativeBaseCommit)
    (.invalid "authoritative pull request base is not a full object ID")
  Result.ensure (isObjectId authoritativeHeadCommit)
    (.invalid "authoritative pull request head is not a full object ID")
  ledger.validate services
  let history ← ledger.headObservations.foldlM recordTransition ⟨[], [], []⟩
  history.checkConnected authoritativeHeadCommit
  return ⟨authoritativeBaseCommit, authoritativeHeadCommit, ledger.headObservations.length⟩

/-! ## What is recorded -/

def GithubHeadObservation.transition (observation : GithubHeadObservation) : String × String :=
  (observation.beforeCommit, observation.headCommit)

/-- The transitions that a ledger records, with repetitions. -/
def GithubReviewLedger.transitions (ledger : GithubReviewLedger) : List (String × String) :=
  ledger.headObservations.map (·.transition)

/-- A history holds the transitions that were met, each of them once. -/
structure Recorded (met : List (String × String)) (history : TransitionHistory) : Prop where
  distinct : history.transitions.Nodup
  members : ∀ edge, edge ∈ history.transitions ↔ edge ∈ met
  successors : ∀ u v, history.successors.lookup u = some v ↔ (u, v) ∈ history.transitions
  predecessors : ∀ u v, history.predecessors.lookup v = some u ↔ (u, v) ∈ history.transitions

/-- No transition is a loop, and no two of them have one end in common. -/
structure Separate (met : List (String × String)) : Prop where
  loops : ∀ u, (u, u) ∉ met
  successors : ∀ u v v', (u, v) ∈ met → (u, v') ∈ met → v = v'
  predecessors : ∀ u u' v, (u, v) ∈ met → (u', v) ∈ met → u = u'

theorem Separate.of_formPathTo {last : String} {met : List (String × String)}
    (h : BackWalk.FormPathTo last met) : Separate met := by
  obtain ⟨path, nodup, same⟩ := h
  refine ⟨?_, ?_, ?_⟩
  · intro u member
    exact BackWalk.loop_free nodup ((same _).mp member)
  · intro u v v' first second
    exact BackWalk.successor_unique nodup ((same _).mp first) ((same _).mp second)
  · intro u u' v first second
    exact BackWalk.predecessor_unique nodup ((same _).mp first) ((same _).mp second)

variable {met : List (String × String)} {history history' : TransitionHistory}
variable {observation : GithubHeadObservation}

/-- A map with one more transition, whose end had no other one. -/
theorem lookup_insert_edge {table edges : List (String × String)} {source target : String}
    (exact : ∀ a b, table.lookup a = some b ↔ (a, b) ∈ edges)
    (fits : (table.lookup source).all (· = target) = true) (a b : String) :
    (Newest.insert source target table).lookup a = some b ↔
      (a, b) = (source, target) ∨ (a, b) ∈ edges := by
  rw [Newest.lookup_insert, Prod.mk.injEq]
  split
  · next same =>
    subst same
    rw [Option.some.injEq]
    constructor
    · rintro rfl
      exact .inl ⟨rfl, rfl⟩
    · rintro (⟨_, rfl⟩ | member)
      · rfl
      · rw [(exact a b).mpr member, Option.all_some, decide_eq_true_iff] at fits
        exact fits.symm
  · next different =>
    rw [exact]
    constructor
    · exact .inr
    · rintro (⟨rfl, _⟩ | member)
      · exact absurd rfl different
      · exact member

/-- What recording a transition does when it succeeds. -/
theorem Recorded.step (recorded : Recorded met history)
    (h : recordTransition history observation = .ok history') :
    Recorded (met ++ [observation.transition]) history' := by
  simp only [recordTransition, Result.check_bind_eq_ok] at h
  obtain ⟨_, h⟩ := h
  split at h
  · next again =>
    obtain rfl := Except.ok.inj h
    refine ⟨recorded.distinct, fun edge => ?_, recorded.successors, recorded.predecessors⟩
    rw [List.mem_append, List.mem_singleton, recorded.members]
    exact (or_iff_left_of_imp fun same => same ▸ (recorded.members _).mp again).symm
  · next new =>
    simp only [Result.check_bind_eq_ok, Result.ensure_eq_ok] at h
    obtain ⟨successor, predecessor, h⟩ := h
    obtain rfl := Except.ok.inj h
    refine ⟨List.nodup_cons.mpr ⟨new, recorded.distinct⟩, fun edge => ?_, fun u v => ?_,
      fun u v => ?_⟩
    · rw [List.mem_cons, List.mem_append, List.mem_singleton, recorded.members]
      exact or_comm
    · rw [List.mem_cons]
      exact lookup_insert_edge recorded.successors successor u v
    · have backward : ∀ a b, history.predecessors.lookup a = some b ↔
          (a, b) ∈ history.transitions.map Prod.swap := by
        intro a b
        rw [recorded.predecessors]
        simp
      rw [List.mem_cons, lookup_insert_edge backward predecessor v u]
      simp [and_comm]

/-- What the loop over the observations records when it succeeds. -/
theorem Recorded.run {observations : List GithubHeadObservation} (recorded : Recorded met history)
    (h : observations.foldlM recordTransition history = .ok history') :
    Recorded (met ++ observations.map (·.transition)) history' := by
  induction observations generalizing met history with
  | nil =>
      obtain rfl := Except.ok.inj h
      simpa using recorded
  | cons observation observations ih =>
      rw [List.foldlM_cons] at h
      obtain ⟨next, step, rest⟩ := Result.bind_eq_ok.mp h
      have final := ih (recorded.step step) rest
      rwa [List.append_assoc, List.singleton_append] at final

/-- A transition that stays separate from the ones met can be recorded. -/
theorem Recorded.recordable (recorded : Recorded met history)
    (separate : Separate (met ++ [observation.transition])) :
    ∃ history', recordTransition history observation = .ok history' := by
  have there : observation.transition ∈ met ++ [observation.transition] := by simp
  have known : ∀ edge, edge ∈ history.transitions → edge ∈ met ++ [observation.transition] :=
    fun edge member => List.mem_append_left _ ((recorded.members edge).mp member)
  have advances : observation.beforeCommit ≠ observation.headCommit := by
    intro same
    refine separate.loops observation.beforeCommit ?_
    have loop : observation.transition = (observation.beforeCommit, observation.beforeCommit) := by
      rw [GithubHeadObservation.transition, ← same]
    exact loop ▸ there
  rw [recordTransition, Result.ensure_of advances, Result.ok_bind]
  dsimp only
  split
  · exact ⟨history, rfl⟩
  · have successor : (history.successors.lookup observation.beforeCommit).all
        (· = observation.headCommit) = true := by
      rw [Option.all_eq_true]
      intro other found
      exact decide_eq_true
        (separate.successors _ _ _ (known _ ((recorded.successors _ _).mp found)) there)
    have predecessor : (history.predecessors.lookup observation.headCommit).all
        (· = observation.beforeCommit) = true := by
      rw [Option.all_eq_true]
      intro other found
      exact decide_eq_true
        (separate.predecessors _ _ _ (known _ ((recorded.predecessors _ _).mp found)) there)
    simp only [successor, predecessor, Result.ensure_of, Result.ok_bind]
    exact ⟨_, rfl⟩

theorem Separate.sublist {fewer : List (String × String)} (separate : Separate met)
    (part : fewer ⊆ met) : Separate fewer where
  loops u member := separate.loops u (part member)
  successors u v v' first second := separate.successors u v v' (part first) (part second)
  predecessors u u' v first second := separate.predecessors u u' v (part first) (part second)

/-- Separate transitions are all recorded. -/
theorem Recorded.runs {observations : List GithubHeadObservation} (recorded : Recorded met history)
    (separate : Separate (met ++ observations.map (·.transition))) :
    ∃ history', observations.foldlM recordTransition history = .ok history' := by
  induction observations generalizing met history with
  | nil => exact ⟨history, rfl⟩
  | cons observation observations ih =>
      rw [List.map_cons, List.append_cons] at separate
      obtain ⟨next, step⟩ := recorded.recordable
        (separate.sublist (List.subset_append_left _ _))
      obtain ⟨history', rest⟩ := ih (recorded.step step) separate
      refine ⟨history', ?_⟩
      rw [List.foldlM_cons, step, Result.ok_bind]
      exact rest

theorem recorded_nil : Recorded [] ⟨[], [], []⟩ where
  distinct := List.nodup_nil
  members edge := Iff.rfl
  successors u v := by simp
  predecessors u v := by simp

/-! ## When a head is reconciled -/

namespace GithubReviewLedger

variable {services : Services} {ledger : GithubReviewLedger} {base head : String}

/-- No transitions, or one path that uses each of them and ends at the head. -/
def LeadsTo (ledger : GithubReviewLedger) (head : String) : Prop :=
  ledger.transitions = [] ∨ BackWalk.FormPathTo head ledger.transitions

/-- The recorded transitions decide whether the walk back is accepted. -/
theorem checkConnected_eq_ok {history : TransitionHistory}
    (recorded : Recorded ledger.transitions history) :
    history.checkConnected head = .ok () ↔ ledger.LeadsTo head := by
  have empty : history.transitions = [] ↔ ledger.transitions = [] := by
    simp only [List.eq_nil_iff_forall_not_mem, recorded.members]
  have path : BackWalk.FormPathTo head history.transitions ↔
      BackWalk.FormPathTo head ledger.transitions := by
    simp only [BackWalk.FormPathTo, recorded.members]
  rw [LeadsTo, ← empty, ← path, TransitionHistory.checkConnected]
  split
  · next some =>
    rw [Result.ofOption_bind_eq_ok, or_iff_right some,
      ← BackWalk.walkBack_exact recorded.distinct recorded.predecessors]
    simp only [Result.ensure_eq_ok]
  · next none => exact iff_of_true rfl (.inl (not_not.mp none))

theorem reconcileCurrentHead_eq_ok {effective : GithubEffectivePullRequest} :
    ledger.reconcileCurrentHead services base head = .ok effective ↔
      isObjectId base = true ∧ isObjectId head = true ∧ ledger.validate services = .ok () ∧
        ledger.LeadsTo head ∧ effective = ⟨base, head, ledger.headObservations.length⟩ := by
  simp only [reconcileCurrentHead, Result.check_bind_eq_ok, Result.ensure_eq_ok]
  refine and_congr_right fun _ => and_congr_right fun _ => and_congr_right fun _ => ?_
  have history_of {history : TransitionHistory}
      (run : ledger.headObservations.foldlM recordTransition ⟨[], [], []⟩ = .ok history) :
      Recorded ledger.transitions history := recorded_nil.run run
  constructor
  · intro h
    obtain ⟨history, run, h⟩ := Result.bind_eq_ok.mp h
    simp only [Result.check_bind_eq_ok, Result.pure_eq_ok] at h
    exact ⟨(checkConnected_eq_ok (history_of run)).mp h.1, h.2.symm⟩
  · rintro ⟨leads, rfl⟩
    have separate : Separate ([] ++ ledger.transitions) := by
      obtain none | path := leads
      · rw [none]
        exact ⟨by simp, by simp, by simp⟩
      · exact .of_formPathTo path
    obtain ⟨history, run⟩ := recorded_nil.runs separate
    rw [run, Result.ok_bind, (checkConnected_eq_ok (history_of run)).mpr leads]
    rfl

/-- Only which transitions there are matters. -/
theorem leadsTo_congr {other : GithubReviewLedger}
    (same : ∀ edge, edge ∈ other.transitions ↔ edge ∈ ledger.transitions) :
    other.LeadsTo head ↔ ledger.LeadsTo head := by
  simp only [LeadsTo, List.eq_nil_iff_forall_not_mem, BackWalk.FormPathTo, same]

end GithubReviewLedger

/-- A head is reconciled exactly when the transitions of the ledger are none or form one path that
uses each of them, meets no commit twice and ends at the head; their order and repetition are
counted but decide nothing. -/
theorem reconcile_exact (services : Services) (ledger : GithubReviewLedger) (base head : String) :
    (∀ effective, ledger.reconcileCurrentHead services base head = .ok effective ↔
      isObjectId base = true ∧ isObjectId head = true ∧ ledger.validate services = .ok () ∧
        (ledger.transitions = [] ∨ BackWalk.FormPathTo head ledger.transitions) ∧
        effective = ⟨base, head, ledger.headObservations.length⟩) ∧
    ∀ other : GithubReviewLedger,
      (other.validate services = .ok () ↔ ledger.validate services = .ok ()) →
      (∀ edge, edge ∈ other.transitions ↔ edge ∈ ledger.transitions) →
      ((∃ effective, other.reconcileCurrentHead services base head = .ok effective) ↔
        ∃ effective, ledger.reconcileCurrentHead services base head = .ok effective) := by
  refine ⟨fun effective => GithubReviewLedger.reconcileCurrentHead_eq_ok, ?_⟩
  intro other valid same
  simp only [GithubReviewLedger.reconcileCurrentHead_eq_ok, valid,
    GithubReviewLedger.leadsTo_congr same, exists_and_left, exists_eq, and_true]

end Stratadiff.Ledger
