import Stratadiff.Review.Listing
import Stratadiff.Review.Resume

/-!
# What a passing gate means

A gate that passes shows nothing to the reviewer, so everything must be accounted
for by something the reviewer has seen: every current change is a reviewed one, or
is replayed from one; every reviewed change is still there, is replayed onto the
current head, or left files that are the same at the checkpoint and at the head.
-/

namespace Stratadiff

open Run

/-! ## Discovered changes -/

/-- Git's raw diff lists exactly the paths that differ. -/
def Repository.DiffExact (repository : Repository) : Prop :=
  ∀ before after stdout changes, repository.rawDiff before after = .ok stdout →
    parseRawDiff stdout (maxReviewFiles * 2) = .ok changes →
      ListsDifferences gitPath before after changes

section

variable {repository : Repository} {fromCommit toCommit : String} {changes : List GitChange}

theorem Discovered.unique {changes' : List GitChange}
    (h : Discovered repository fromCommit toCommit changes)
    (h' : Discovered repository fromCommit toCommit changes') : changes = changes' := by
  obtain ⟨stdout, listed, parsed⟩ := h
  obtain ⟨stdout', listed', parsed'⟩ := h'
  rw [listed, Except.ok.injEq] at listed'
  rw [← listed', parsed, Except.ok.injEq] at parsed'
  exact parsed'

/-- Discovered changes are the paired differences of the two trees, in another order. -/
theorem Discovered.listed (h : Discovered repository fromCommit toCommit changes)
    (exact : repository.DiffExact) :
    ∃ raw, ListsDifferences gitPath (repository.tree fromCommit) (repository.tree toCommit) raw ∧
      changes.Perm (pairRelocations raw) := by
  obtain ⟨stdout, answered, parsed⟩ := h
  rw [parseGitChangeOutput] at parsed
  obtain ⟨raw, read, parsed⟩ := Result.bind_eq_ok.mp parsed
  obtain ⟨_, _, parsed⟩ := Result.bind_eq_ok.mp parsed
  rw [Result.pure_eq_ok] at parsed
  refine ⟨raw, exact _ _ _ _ answered read, ?_⟩
  rw [← parsed]
  exact List.perm_insertionSort _ _

theorem Discovered.beforePath_nodup (h : Discovered repository fromCommit toCommit changes)
    (exact : repository.DiffExact) : (changes.filterMap Change.beforePath).Nodup := by
  obtain ⟨raw, differences, permuted⟩ := h.listed exact
  exact (permuted.filterMap _).nodup_iff.mpr (differences.beforePath_nodup gitPath_injective)

theorem Discovered.path_of_mem (h : Discovered repository fromCommit toCommit changes)
    (exact : repository.DiffExact) {change : GitChange} (member : change ∈ changes) :
    change.beforePath ≠ none ∨ change.afterPath ≠ none := by
  obtain ⟨raw, differences, permuted⟩ := h.listed exact
  exact differences.path_of_mem (permuted.mem_iff.mp member)

/-- The paths of a discovered change are files of the two commits. -/
theorem Discovered.holds (h : Discovered repository fromCommit toCommit changes)
    (exact : repository.DiffExact) {change : GitChange} (member : change ∈ changes) {path : GitPath}
    (listed : change.beforePath = some path ∨ change.afterPath = some path)
    (utf8 : path.encoding = .utf8) : repository.Holds (utf8Bytes path.display) := by
  obtain ⟨raw, differences, permuted⟩ := h.listed exact
  have inside := permuted.mem_iff.mp member
  have named {file : Bytes} (same : gitPath file = path) : utf8Bytes path.display = file := by
    rw [← bytes_gitPath file, same, GitPath.bytes, utf8]
  rcases listed with old | new
  · obtain ⟨file, held, same⟩ :=
      differences.held_before (List.mem_filterMap.mpr ⟨change, inside, old⟩)
    exact ⟨fromCommit, named same ▸ held⟩
  · obtain ⟨file, held, same⟩ :=
      differences.held_after (List.mem_filterMap.mpr ⟨change, inside, new⟩)
    exact ⟨toCommit, named same ▸ held⟩

/-- Commits without a change between them have one tree. -/
theorem Discovered.tree_eq (h : Discovered repository fromCommit toCommit [])
    (exact : repository.DiffExact) : repository.tree fromCommit = repository.tree toCommit := by
  obtain ⟨raw, differences, permuted⟩ := h.listed exact
  exact Tree.ext_get (differences.eq_of_pairRelocations_nil permuted.nil_eq.symm)

end

theorem GitPath.ext_map {left right : Option GitPath}
    (display : left.map GitPath.display = right.map GitPath.display)
    (encoding : left.map GitPath.encoding = right.map GitPath.encoding) : left = right := by
  cases left with
  | none =>
      cases right with
      | none => rfl
      | some right => simp at display
  | some left =>
      cases right with
      | none => simp at display
      | some right =>
          obtain ⟨leftDisplay, leftEncoding⟩ := left
          obtain ⟨rightDisplay, rightEncoding⟩ := right
          simp only [Option.map_some, Option.some.injEq] at display encoding
          rw [display, encoding]

/-- A file stands for one change. -/
theorem ReviewFile.Describes.unique {file : ReviewFile} {change change' : GitChange}
    (h : file.Describes change) (h' : file.Describes change') : change = change' := by
  simp only [ReviewFile.Describes, reviewFileMatchesChange, Bool.and_eq_true,
    decide_eq_true_eq] at h h'
  obtain ⟨⟨⟨⟨⟨⟨⟨⟨⟨status, similarity⟩, before⟩, beforeEncoding⟩, after⟩, afterEncoding⟩,
    beforeMode⟩, afterMode⟩, beforeBlob⟩, afterBlob⟩ := h
  obtain ⟨⟨⟨⟨⟨⟨⟨⟨⟨status', similarity'⟩, before'⟩, beforeEncoding'⟩, after'⟩, afterEncoding'⟩,
    beforeMode'⟩, afterMode'⟩, beforeBlob'⟩, afterBlob'⟩ := h'
  have beforePath := GitPath.ext_map (before.symm.trans before')
    (beforeEncoding.symm.trans beforeEncoding')
  have afterPath := GitPath.ext_map (after.symm.trans after')
    (afterEncoding.symm.trans afterEncoding')
  cases change
  cases change'
  simp_all

/-! ## Candidates -/

section

variable {checkpointChanges : List GitChange} {current checkpointChange : GitChange} {index : Nat}

theorem uniqueReplayCandidate_some
    (h : uniqueReplayCandidate checkpointChanges current = some (index, checkpointChange)) :
    checkpointChanges[index]? = some checkpointChange ∧
      replayCandidateMetadataMatches checkpointChange current = true := by
  rw [uniqueReplayCandidate] at h
  split at h
  · next found position only =>
    cases h
    have member : (checkpointChange, index) ∈ [(checkpointChange, index)] := by simp
    rw [← only, List.mem_filter] at member
    exact ⟨List.mem_zipIdx_iff_getElem?.mp member.1, member.2⟩
  · cases h

theorem replayCandidateMetadataMatches_beforePath
    (h : replayCandidateMetadataMatches checkpointChange current = true) :
    ∃ path, checkpointChange.beforePath = some path ∧ current.beforePath = some path := by
  rw [replayCandidateMetadataMatches] at h
  split at h
  · cases h
  split at h
  · cases h
  next path before =>
  split at h
  · cases h
  next same =>
  simp only [ne_eq, Bool.or_eq_true, decide_eq_true_eq, not_or, not_not] at same
  exact ⟨path, before, same.1.2⟩

/-- Changes with different old paths are told apart by them. -/
theorem eq_of_beforePath {changes : List GitChange} {first second : GitChange} {path : GitPath}
    (nodup : (changes.filterMap Change.beforePath).Nodup) (memberFirst : first ∈ changes)
    (memberSecond : second ∈ changes) (pathFirst : first.beforePath = some path)
    (pathSecond : second.beforePath = some path) : first = second := by
  induction changes with
  | nil => cases memberFirst
  | cons change changes ih =>
      have listed : ∀ {other : GitChange}, other ∈ changes → other.beforePath = some path →
          path ∈ changes.filterMap Change.beforePath := fun member found =>
        List.mem_filterMap.mpr ⟨_, member, found⟩
      rw [List.filterMap_cons] at nodup
      rcases List.mem_cons.mp memberFirst with rfl | inFirst <;>
        rcases List.mem_cons.mp memberSecond with rfl | inSecond
      · rfl
      · rw [pathFirst, List.nodup_cons] at nodup
        exact absurd (listed inSecond pathSecond) nodup.1
      · rw [pathSecond, List.nodup_cons] at nodup
        exact absurd (listed inFirst pathFirst) nodup.1
      · refine ih ?_ inFirst inSecond
        split at nodup
        · exact nodup
        · exact (List.nodup_cons.mp nodup).2

end

/-! ## Accounted changes -/

section

variable (engine : Engine)

/-- A reviewed change that is replayed onto a current one with the bytes of the head. -/
def Replayed (checkpointChange current : GitChange) : Prop :=
  ∃ bytes, FourWayReplay engine checkpointChange current bytes bytes

/-- A current change that the reviewer has seen. -/
def CurrentAccounted (checkpointChanges : List GitChange) (current : GitChange) : Prop :=
  current ∈ checkpointChanges ∨
    ∃ checkpointChange ∈ checkpointChanges, Replayed engine checkpointChange current

/-- A reviewed change that a current change continues. -/
def Continued (currentChanges : List GitChange) (checkpointChange : GitChange) : Prop :=
  checkpointChange ∈ currentChanges ∨
    ∃ current ∈ currentChanges, Replayed engine checkpointChange current

/-- A reviewed change that is not lost at the current head. -/
def CheckpointAccounted (checkpointCommit baseCommit headCommit : String)
    (currentChanges : List GitChange) (checkpointChange : GitChange) : Prop :=
  Continued engine currentChanges checkpointChange ∨
    (∃ snapshot, samePathSnapshotChange engine.repository baseCommit headCommit checkpointChange =
      .ok (some snapshot) ∧ Replayed engine checkpointChange snapshot) ∨
    checkpointChangePaths checkpointChange ≠ [] ∧
      ∀ path ∈ checkpointChangePaths checkpointChange,
        SameEntry engine.repository checkpointCommit headCommit path

/-- A reviewed change that a delta without entries passes over. -/
def PassedOver (checkpointCommit baseCommit headCommit : String)
    (currentChanges : List GitChange) (checkpointChange : GitChange) : Prop :=
  Continued engine currentChanges checkpointChange ∨
    (∃ snapshot, samePathSnapshotChange engine.repository baseCommit headCommit checkpointChange =
      .ok (some snapshot) ∧ Replayed engine checkpointChange snapshot) ∨
    checkpointChangePaths checkpointChange ≠ [] ∧
      ∀ path ∈ checkpointChangePaths checkpointChange,
        SameLookup engine.repository checkpointCommit headCommit path

end

/-! ## The loop over the current changes -/

section

variable {engine : Engine} {limits : VerificationLimits} {review : RepositoryReview}
variable {checkpointChanges : List GitChange}

/-- A path that is set aside because its checkpoint change is continued. -/
def SetAside (engine : Engine) (checkpointChanges currentChanges : List GitChange)
    (tagged : Nat × GitPath) : Prop :=
  ∃ checkpointChange, checkpointChanges[tagged.1]? = some checkpointChange ∧
    Continued engine currentChanges checkpointChange

/-- Every file of the review that is reported as unchanged stands for a carried change. -/
def CarriedReview (engine : Engine) (checkpointChanges : List GitChange)
    (review : RepositoryReview) : Prop :=
  ∀ file ∈ review.files, file.checkpointState = some .unchangedSinceCheckpoint →
    ∃ change, file.Describes change ∧ Carried engine checkpointChanges change

theorem Continued.mono {currents currents' : List GitChange} {checkpointChange : GitChange}
    (h : Continued engine currents checkpointChange) (more : currents ⊆ currents') :
    Continued engine currents' checkpointChange := by
  rcases h with same | ⟨current, member, replayed⟩
  · exact .inl (more same)
  · exact .inr ⟨current, more member, replayed⟩

theorem SetAside.mono {currents currents' : List GitChange} {tagged : Nat × GitPath}
    (h : SetAside engine checkpointChanges currents tagged) (more : currents ⊆ currents') :
    SetAside engine checkpointChanges currents' tagged := by
  obtain ⟨checkpointChange, found, continued⟩ := h
  exact ⟨checkpointChange, found, continued.mono more⟩

theorem setAside_exact {current : GitChange} {tagged : Nat × GitPath}
    (h : tagged ∈ (exactIndices checkpointChanges current).flatMap fun index =>
      (checkpointChanges[index]?.map (allCheckpointPaths index)).getD []) :
    SetAside engine checkpointChanges [current] tagged := by
  obtain ⟨index, found, member⟩ := List.mem_flatMap.mp h
  have exact := exactIndices_mem found
  rw [exact, Option.map_some, Option.getD_some, allCheckpointPaths, List.mem_map] at member
  obtain ⟨path, _, rfl⟩ := member
  exact ⟨current, exact, .inl (List.mem_singleton.mpr rfl)⟩

theorem setAside_all {current checkpointChange : GitChange} {index : Nat} {tagged : Nat × GitPath}
    (found : checkpointChanges[index]? = some checkpointChange)
    (continued : Continued engine [current] checkpointChange)
    (h : tagged ∈ allCheckpointPaths index checkpointChange) :
    SetAside engine checkpointChanges [current] tagged := by
  obtain ⟨path, _, rfl⟩ := List.mem_map.mp h
  exact ⟨checkpointChange, found, continued⟩

theorem Carried.accounted {current : GitChange} (h : Carried engine checkpointChanges current) :
    CurrentAccounted engine checkpointChanges current := by
  rcases h with same | ⟨index, checkpointChange, bytes, candidate, replay⟩
  · exact .inl same
  · exact .inr ⟨checkpointChange,
      List.mem_of_getElem? (uniqueReplayCandidate_some candidate).1, bytes, replay⟩

/-- The candidate of a carried change is continued by it. -/
theorem Carried.candidate_continued {current checkpointChange : GitChange} {index : Nat}
    (h : Carried engine checkpointChanges current)
    (nodup : (checkpointChanges.filterMap Change.beforePath).Nodup)
    (candidate : uniqueReplayCandidate checkpointChanges current = some (index, checkpointChange)) :
    Continued engine [current] checkpointChange := by
  rcases h with same | ⟨index', checkpointChange', bytes, candidate', replay⟩
  · -- The change itself is in the checkpoint, so the candidate has its path and is the change.
    obtain ⟨found, metadata⟩ := uniqueReplayCandidate_some candidate
    obtain ⟨path, old, new⟩ := replayCandidateMetadataMatches_beforePath metadata
    have := eq_of_beforePath nodup (List.mem_of_getElem? found) same old new
    exact .inl (List.mem_singleton.mpr this)
  · rw [candidate, Option.some.injEq, Prod.mk.injEq] at candidate'
    obtain ⟨_, rfl⟩ := candidate'
    exact .inr ⟨current, List.mem_singleton.mpr rfl, bytes, replay⟩

theorem reviewFileForChange_ok {current : GitChange} {file : ReviewFile}
    (h : reviewFileForChange review current = .ok file) :
    file ∈ review.files ∧ file.Describes current := by
  rw [reviewFileForChange] at h
  split at h
  · cases h
  · next found only =>
    cases h
    have member : file ∈ [file] := List.mem_singleton.mpr rfl
    rw [← only, List.mem_filter] at member
    exact member
  · cases h

/-- What a round over a current change leaves when it lists nothing. -/
structure CurrentRound (engine : Engine) (checkpointChanges currents : List GitChange)
    (state state' : ResumeState) : Prop where
  entries : state.entries = []
  unresolved : state'.unresolved = state.unresolved
  accounted : ∀ current ∈ currents, CurrentAccounted engine checkpointChanges current
  associated : ∀ tagged ∈ state'.associated, tagged ∈ state.associated ∨
    SetAside engine checkpointChanges currents tagged

theorem CurrentRound.associate {current : GitChange} {state : ResumeState}
    {paths : List (Nat × GitPath)} (entries : state.entries = [])
    (accounted : CurrentAccounted engine checkpointChanges current)
    (aside : ∀ tagged ∈ paths, SetAside engine checkpointChanges [current] tagged) :
    CurrentRound engine checkpointChanges [current] state (state.associate paths) := by
  refine ⟨entries, rfl, ?_, ?_⟩
  · intro change member
    rw [List.mem_singleton.mp member]
    exact accounted
  · intro tagged member
    rcases List.mem_append.mp member with old | new
    · exact .inl old
    · exact .inr (aside tagged new)

theorem CurrentRound.cons {current : GitChange} {currents : List GitChange}
    {state middle state' : ResumeState}
    (first : CurrentRound engine checkpointChanges [current] state middle)
    (rest : CurrentRound engine checkpointChanges currents middle state') :
    CurrentRound engine checkpointChanges (current :: currents) state state' := by
  refine ⟨first.entries, rest.unresolved.trans first.unresolved, ?_, ?_⟩
  · intro change member
    rcases List.mem_cons.mp member with rfl | later
    · exact first.accounted change (List.mem_singleton.mpr rfl)
    · exact rest.accounted change later
  · intro tagged member
    rcases rest.associated tagged member with earlier | aside
    · rcases first.associated tagged earlier with old | aside
      · exact .inl old
      · refine .inr (aside.mono ?_)
        intro change member
        rw [List.mem_singleton.mp member]
        exact List.mem_cons_self
    · exact .inr (aside.mono (List.subset_cons_self _ _))

theorem resumeCurrentChange_keeps (carried : CarriedReview engine checkpointChanges review)
    (nodup : (checkpointChanges.filterMap Change.beforePath).Nodup) (current : GitChange)
    (state : ResumeState) :
    Keeps (ReviewAnalysisContext.Faithful engine.repository)
      (resumeCurrentChange engine limits review checkpointChanges current state)
      fun state' => state'.entries = [] →
        CurrentRound engine checkpointChanges [current] state state' := by
  refine .lift_bind fun file found => ?_
  obtain ⟨member, describes⟩ := reviewFileForChange_ok found
  have pushed (s : ResumeState) (entry : ReviewDeltaFile) : (s.push entry).entries ≠ [] := by
    simp [ResumeState.push]
  have twice (first second : List (Nat × GitPath)) :
      (state.associate first).associate second = state.associate (first ++ second) := by
    simp [ResumeState.associate, List.append_assoc]
  split
  · next unchanged =>
    obtain ⟨change, describes', carried⟩ := carried file member unchanged
    rw [describes'.unique describes] at carried
    split
    · next index checkpointChange candidate =>
      refine .pure fun entries => ?_
      rw [twice]
      refine .associate entries carried.accounted ?_
      intro tagged member
      rcases List.mem_append.mp member with exact | all
      · exact setAside_exact exact
      · exact setAside_all (uniqueReplayCandidate_some candidate).1
          (carried.candidate_continued nodup candidate) all
    · refine .pure fun entries => .associate entries carried.accounted fun tagged exact =>
        setAside_exact exact
  · split
    · next index checkpointChange candidate =>
      obtain ⟨at_index, _⟩ := uniqueReplayCandidate_some candidate
      refine .bind (contextReconstructReviewBaseline_keeps _ _) fun outcome sound => ?_
      split
      · next reconstruction =>
        split
        · exact .bind .get fun context _ => .lift_bind fun entry _ =>
            .pure fun entries => absurd entries (pushed _ _)
        · next same =>
          rw [not_not] at same
          have replayed : Replayed engine checkpointChange current :=
            ⟨reconstruction.currentAfter, same ▸ sound.replay _ rfl⟩
          refine .pure fun entries => ?_
          rw [twice]
          refine .associate entries
            (.inr ⟨checkpointChange, List.mem_of_getElem? at_index, replayed⟩) ?_
          intro tagged member
          rcases List.mem_append.mp member with exact | all
          · exact setAside_exact exact
          · exact setAside_all at_index
              (.inr ⟨current, List.mem_singleton.mpr rfl, replayed⟩) all
      · exact .lift_bind fun entry _ => .pure fun entries => absurd entries (pushed _ _)
    · split
      · exact .lift_bind fun entry _ => .pure fun entries => absurd entries (pushed _ _)
      · exact .lift_bind fun entry _ => .pure fun entries => absurd entries (pushed _ _)

theorem resumeCurrentChanges_keeps (carried : CarriedReview engine checkpointChanges review)
    (nodup : (checkpointChanges.filterMap Change.beforePath).Nodup) (currents : List GitChange)
    (state : ResumeState) :
    Keeps (ReviewAnalysisContext.Faithful engine.repository)
      (resumeCurrentChanges engine limits review checkpointChanges currents state)
      fun state' => state'.entries = [] →
        CurrentRound engine checkpointChanges currents state state' := by
  induction currents generalizing state with
  | nil =>
      refine .pure fun entries => ⟨entries, rfl, ?_, fun tagged member => .inl member⟩
      exact fun _ member => absurd member List.not_mem_nil
  | cons current currents ih =>
      refine .bind (resumeCurrentChange_keeps carried nodup current state) fun middle first =>
        (ih middle).mono fun state' rest entries => ?_
      have rest := rest entries
      exact (first rest.entries).cons rest

/-! ## The loop over the checkpoint changes -/

/-- Without an entry and without an unresolved change, no lookup of a path differs. -/
theorem fallbackEntries_keeps (checkpointCommit headCommit : String) (paths : List GitPath)
    (fallback : CheckpointHeadFallback) :
    Keeps (ReviewAnalysisContext.Faithful engine.repository)
      (fallbackEntries engine limits checkpointCommit headCommit paths fallback)
      fun found => found.entries = [] → found.unresolved = [] →
        fallback.entries = [] ∧ fallback.unresolved = [] ∧
          ∀ path ∈ paths, SameLookup engine.repository checkpointCommit headCommit path := by
  induction paths generalizing fallback with
  | nil =>
      refine .pure fun entries unresolved => ⟨entries, unresolved, ?_⟩
      exact fun _ member => absurd member List.not_mem_nil
  | cons path paths ih =>
      rw [fallbackEntries]
      split
      · refine (ih _).mono fun found rest entries unresolved => ?_
        have := (rest entries unresolved).2.1
        simp at this
      next utf8 =>
      rw [not_not] at utf8
      refine .lift_bind fun checkpointEntry atCheckpoint => .lift_bind fun headEntry atHead => ?_
      split
      · next same =>
        refine (ih _).mono fun found rest entries unresolved => ?_
        obtain ⟨first, second, others⟩ := rest entries unresolved
        refine ⟨first, second, ?_⟩
        intro path' member
        rcases List.mem_cons.mp member with rfl | later
        · exact ⟨utf8, headEntry, same ▸ atCheckpoint, atHead⟩
        · exact others path' later
      · refine .bind (reserveSources_keeps _) fun _ _ => .bind (analyzeChange_keeps _) fun _ _ =>
          .lift_bind fun entry _ => (ih _).mono fun found rest entries unresolved => ?_
        have := (rest entries unresolved).1
        simp at this

/-- Nothing is listed so far. -/
def ResumeState.Clear (state : ResumeState) : Prop := state.entries = [] ∧ state.unresolved = []

theorem resumeFallback_keeps (checkpointCommit : String) (paths : List GitPath)
    (state : ResumeState) :
    Keeps (ReviewAnalysisContext.Faithful engine.repository)
      (resumeFallback engine limits review checkpointCommit paths state)
      fun state' => state'.associated = state.associated ∧
        (state'.Clear → state.Clear ∧ ∀ path ∈ paths,
          SameLookup engine.repository checkpointCommit review.headCommit path) := by
  refine .bind (.lift_bind fun _ _ => .bind (consumeFileVisits_keeps _) fun _ _ =>
    fallbackEntries_keeps _ _ _ _) fun fallback rest => .pure ⟨rfl, ?_⟩
  rintro ⟨entries, unresolved⟩
  obtain ⟨noEntries, noFallback⟩ := List.append_eq_nil_iff.mp entries
  obtain ⟨noUnresolved, noFallback'⟩ := List.append_eq_nil_iff.mp unresolved
  exact ⟨⟨noEntries, noUnresolved⟩, (rest noFallback noFallback').2.2⟩

theorem checkpointChangePaths_ne_nil {change : GitChange}
    (h : change.beforePath ≠ none ∨ change.afterPath ≠ none) :
      checkpointChangePaths change ≠ [] := by
  rw [checkpointChangePaths]
  split
  · split <;> simp
  · simp
  · simp
  · next before after => simp [before, after] at h

/-- A change with a path that was set aside is continued; otherwise none of its paths was. -/
theorem passedOver_of_unassociated {currents : List GitChange}
    {checkpointChange : GitChange} {index : Nat} {state : ResumeState} {checkpointCommit : String}
    (found : checkpointChanges[index]? = some checkpointChange)
    (paths : checkpointChangePaths checkpointChange ≠ [])
    (aside : ∀ tagged ∈ state.associated, SetAside engine checkpointChanges currents tagged)
    (same : ∀ path ∈ (checkpointChangePaths checkpointChange).filter
      (fun path => ¬ state.associated.contains (index, path)),
      SameLookup engine.repository checkpointCommit review.headCommit path) :
    PassedOver engine checkpointCommit review.baseCommit review.headCommit currents
      checkpointChange := by
  by_cases some_path : ∃ path, (index, path) ∈ state.associated
  · obtain ⟨path, member⟩ := some_path
    obtain ⟨other, at_index, continued⟩ := aside _ member
    rw [found, Option.some.injEq] at at_index
    rw [at_index]
    exact .inl continued
  · refine .inr (.inr ⟨paths, fun path member => same path (List.mem_filter.mpr ⟨member, ?_⟩)⟩)
    have unassociated : (index, path) ∉ state.associated := fun h => some_path ⟨path, h⟩
    simpa using unassociated

theorem resumeCheckpointChange_keeps {currents : List GitChange} {checkpointChange : GitChange}
    {index : Nat} {state : ResumeState} (checkpointCommit : String)
    (found : checkpointChanges[index]? = some checkpointChange)
    (paths : checkpointChangePaths checkpointChange ≠ [])
    (aside : state.Clear →
      ∀ tagged ∈ state.associated, SetAside engine checkpointChanges currents tagged) :
    Keeps (ReviewAnalysisContext.Faithful engine.repository)
      (resumeCheckpointChange engine limits review checkpointCommit index checkpointChange state)
      fun state' => state'.associated = state.associated ∧
        (state'.Clear → state.Clear ∧ PassedOver engine checkpointCommit
          review.baseCommit review.headCommit currents checkpointChange) := by
  have fallback : Keeps (ReviewAnalysisContext.Faithful engine.repository)
      (resumeFallback engine limits review checkpointCommit
        ((checkpointChangePaths checkpointChange).filter
          fun path => ¬ state.associated.contains (index, path)) state)
      fun state' => state'.associated = state.associated ∧
        (state'.Clear → state.Clear ∧ PassedOver engine checkpointCommit
          review.baseCommit review.headCommit currents checkpointChange) := by
    refine (resumeFallback_keeps _ _ _).mono fun state' listed => ⟨listed.1, ?_⟩
    intro clear'
    obtain ⟨clear, same⟩ := listed.2 clear'
    exact ⟨clear, passedOver_of_unassociated found paths (aside clear) same⟩
  rw [resumeCheckpointChange]
  split
  · next none =>
    refine .pure ⟨rfl, fun clear => ⟨clear, ?_⟩⟩
    refine passedOver_of_unassociated found paths (aside clear) ?_
    rw [none]
    exact fun _ member => absurd member List.not_mem_nil
  refine .bind (consumeFileVisits_keeps _) fun _ _ => .lift_bind fun snapshot taken => ?_
  split
  · exact fallback
  next currentSnapshot =>
  refine .bind (reserveSources_keeps _) fun _ _ =>
    .bind (contextReconstructReviewBaseline_keeps _ _) fun outcome sound => ?_
  split
  · next reconstruction =>
    split
    · refine .bind (analyzeChange_keeps _) fun _ _ => .bind .get fun _ _ =>
        .lift_bind fun entry _ => .pure ⟨rfl, fun clear => ?_⟩
      simp [ResumeState.push, ResumeState.Clear] at clear
    · next same =>
      rw [not_not] at same
      refine .pure ⟨rfl, fun clear => ⟨clear, .inr (.inl ?_)⟩⟩
      exact ⟨currentSnapshot, taken, reconstruction.currentAfter, same ▸ sound.replay _ rfl⟩
  · exact fallback

theorem resumeCheckpointChanges_keeps {currents : List GitChange} {state : ResumeState}
    (checkpointCommit : String) (remaining : List (GitChange × Nat))
    (found : ∀ entry ∈ remaining, checkpointChanges[entry.2]? = some entry.1)
    (paths : ∀ entry ∈ remaining, checkpointChangePaths entry.1 ≠ [])
    (aside : state.Clear →
      ∀ tagged ∈ state.associated, SetAside engine checkpointChanges currents tagged) :
    Keeps (ReviewAnalysisContext.Faithful engine.repository)
      (resumeCheckpointChanges engine limits review checkpointCommit remaining state)
      fun state' => state'.Clear → state.Clear ∧ ∀ entry ∈ remaining,
        PassedOver engine checkpointCommit review.baseCommit review.headCommit currents
          entry.1 := by
  induction remaining generalizing state with
  | nil => exact .pure fun clear => ⟨clear, fun _ member => absurd member List.not_mem_nil⟩
  | cons entry remaining ih =>
      refine .bind (resumeCheckpointChange_keeps checkpointCommit (found entry List.mem_cons_self)
        (paths entry List.mem_cons_self) aside) fun middle first => ?_
      refine (ih (fun later member => found later (List.mem_cons_of_mem _ member))
        (fun later member => paths later (List.mem_cons_of_mem _ member))
        (fun clear => first.1 ▸ aside (first.2 clear).1)).mono fun state' rest clear' => ?_
      obtain ⟨middleClear, others⟩ := rest clear'
      obtain ⟨clear, accounted⟩ := first.2 middleClear
      refine ⟨clear, fun later member => ?_⟩
      rcases List.mem_cons.mp member with rfl | member
      · exact accounted
      · exact others later member

/-! ## The gate -/

theorem dedupRuns_eq_nil {changes : List ReviewDeltaUnresolvedChange} (h : dedupRuns changes = []) :
    changes = [] := by
  fun_induction dedupRuns changes with
  | case1 => rfl
  | case2 change => cases h
  | case3 first rest ih => exact absurd (ih h) (by simp)
  | case4 first second rest different ih => cases h

theorem insertionSort_eq_nil {α : Type} {r : α → α → Prop} [DecidableRel r] {xs : List α}
    (h : xs.insertionSort r = []) : xs = [] :=
  List.length_eq_zero_iff.mp (by rw [← List.length_insertionSort r xs, h, List.length_nil])

theorem reviewFiles_keeps (changes : List GitChange) (files : List ReviewFile) :
    Keeps (ReviewAnalysisContext.Faithful engine.repository)
      (reviewFiles engine limits changes files)
      fun reviewed => reviewed.length = files.length + changes.length := by
  induction changes generalizing files with
  | nil => exact .pure rfl
  | cons change changes ih =>
      refine .bind (analyzeChange_keeps _) fun file _ => (ih _).mono fun reviewed length => ?_
      rw [length]
      simp
      omega

/-- An empty diff of two commits lists no change. -/
theorem reviewGitSnapshotDelta_keeps (fromCommit toCommit : String) :
    Keeps (ReviewAnalysisContext.Faithful engine.repository)
      (reviewGitSnapshotDelta engine fromCommit toCommit)
      fun delta => delta.summary.gatePassed = true →
        Discovered engine.repository fromCommit toCommit [] := by
  refine .bind (discoverChanges_keeps _ _) fun changes discovered =>
    .bind (consumeFileVisits_keeps _) fun _ _ => .bind (reserveSources_keeps _) fun _ _ =>
    .bind (reviewFiles_keeps _ _) fun files length => .lift_bind fun entries listed =>
    .lift_bind fun _ _ => .pure fun gate => ?_
  have count : entries.length = changes.length := by
    rw [Result.mapM_length listed, List.length_insertionSort, length, List.length_nil, Nat.zero_add]
  simp only [summarizeReviewDelta, List.length_nil, Nat.add_zero, decide_eq_true_eq] at gate
  rw [count, List.length_eq_zero_iff] at gate
  rwa [gate] at discovered

/-- Every change of a resumed review is accounted for or passed over. -/
def ResumePassed (engine : Engine) (checkpoint : ReviewCheckpoint)
    (review : RepositoryReview) : Prop :=
  ∃ checkpointChanges currentChanges,
    Discovered engine.repository checkpoint.baseCommit checkpoint.commit checkpointChanges ∧
    Discovered engine.repository review.baseCommit review.headCommit currentChanges ∧
    (∀ current ∈ currentChanges, CurrentAccounted engine checkpointChanges current) ∧
    ∀ checkpointChange ∈ checkpointChanges, PassedOver engine checkpoint.commit
      review.baseCommit review.headCommit currentChanges checkpointChange

/-- With an unmoved base the checkpoint and the head have one tree, so their changes agree. -/
theorem ResumePassed.of_same_base {checkpoint : ReviewCheckpoint}
    (exact : engine.repository.DiffExact) (sameBase : checkpoint.baseCommit = review.baseCommit)
    (discovered : Discovered engine.repository checkpoint.baseCommit checkpoint.commit
      checkpointChanges)
    (none : Discovered engine.repository checkpoint.commit review.headCommit []) :
    ResumePassed engine checkpoint review := by
  have trees := none.tree_eq exact
  refine ⟨checkpointChanges, checkpointChanges, discovered, ?_, fun current member => .inl member,
    fun change member => .inl (.inl member)⟩
  rw [Discovered, trees, sameBase] at discovered
  exact discovered

theorem reviewGitResumeDelta_keeps {checkpoint : ReviewCheckpoint}
    (exact : engine.repository.DiffExact) (resumed : review.checkpoint = some checkpoint)
    (carries : review.CarriesOnly engine) :
    Keeps (ReviewAnalysisContext.Faithful engine.repository) (reviewGitResumeDelta engine review)
      fun delta => delta.summary.gatePassed = true → ResumePassed engine checkpoint review := by
  obtain ⟨reviewedChanges, reviewed, carried⟩ := carries checkpoint resumed
  rw [reviewGitResumeDelta, resumed]
  refine .lift_bind fun found same => ?_
  rw [Result.ofOption_some, Except.ok.injEq] at same
  cases same
  split
  · next sameBase =>
    refine .bind (reviewGitSnapshotDelta_keeps _ _) fun delta none => .lift_bind fun _ _ =>
      .pure fun gate => .of_same_base exact sameBase reviewed (none gate)
  refine .bind (discoverChanges_keeps _ _) fun checkpointChanges discovered =>
    .bind (discoverChanges_keeps _ _) fun currentChanges current =>
    .bind (consumeFileVisits_keeps _) fun _ _ => .bind (consumeFileVisits_keeps _) fun _ _ =>
    .bind (reserveSources_keeps _) fun _ _ => ?_
  cases reviewed.unique discovered
  refine .bind (resumeCurrentChanges_keeps carried (discovered.beforePath_nodup exact) _ _)
    fun middle currentRound => ?_
  have aside (clear : middle.Clear) : ∀ tagged ∈ middle.associated,
      SetAside engine reviewedChanges currentChanges tagged := by
    intro tagged member
    rcases (currentRound clear.1).associated tagged member with start | aside
    · cases start
    · exact aside
  refine .bind (resumeCheckpointChanges_keeps _ _ ?_ ?_ aside) fun state checkpointRound =>
    .lift_bind fun _ _ => .pure fun gate => ?_
  · exact fun entry member => List.mem_zipIdx_iff_getElem?.mp member
  · intro entry member
    have listed := List.mem_of_getElem? (List.mem_zipIdx_iff_getElem?.mp member)
    exact checkpointChangePaths_ne_nil (discovered.path_of_mem exact listed)
  simp only [summarizeReviewDelta, decide_eq_true_eq, Nat.add_eq_zero_iff,
    List.length_eq_zero_iff] at gate
  have clear : state.Clear :=
    ⟨insertionSort_eq_nil gate.1, insertionSort_eq_nil (dedupRuns_eq_nil gate.2)⟩
  obtain ⟨middleClear, accounted⟩ := checkpointRound clear
  refine ⟨reviewedChanges, currentChanges, discovered, current,
    (currentRound middleClear.1).accounted, fun change member => ?_⟩
  obtain ⟨index, found⟩ := List.mem_iff_getElem?.mp member
  exact accounted (change, index) (List.mem_zipIdx_iff_getElem?.mpr found)

/-- What is passed over is accounted for where the lookups of its paths can be trusted. -/
theorem PassedOver.accounted {checkpointCommit baseCommit headCommit : String}
    {currents : List GitChange} {checkpointChange : GitChange}
    (h : PassedOver engine checkpointCommit baseCommit headCommit currents checkpointChange)
    (lookups : ¬ Continued engine currents checkpointChange →
      ∀ path ∈ checkpointChangePaths checkpointChange,
        SameLookup engine.repository checkpointCommit headCommit path →
          SameEntry engine.repository checkpointCommit headCommit path) :
    CheckpointAccounted engine checkpointCommit baseCommit headCommit currents
      checkpointChange := by
  by_cases continued : Continued engine currents checkpointChange
  · exact .inl continued
  · rcases h.resolve_left continued with snapshot | ⟨paths, same⟩
    · exact .inr (.inl snapshot)
    · exact .inr (.inr ⟨paths, fun path member =>
        lookups continued path member (same path member)⟩)

theorem mem_checkpointChangePaths {change : GitChange} {path : GitPath} :
    path ∈ checkpointChangePaths change ↔
      change.beforePath = some path ∨ change.afterPath = some path := by
  rw [checkpointChangePaths]
  split
  · next before after atBefore atAfter =>
    split
    · next same => simp [atBefore, atAfter, same, eq_comm]
    · simp [atBefore, atAfter, eq_comm]
  · next before atBefore atAfter => simp [atBefore, atAfter, eq_comm]
  · next after atBefore atAfter => simp [atBefore, atAfter, eq_comm]
  · next atBefore atAfter => simp [atBefore, atAfter]

/-- When the gate of a resume delta passes, the review it continues hides nothing: every
current change was seen at the checkpoint, and no change seen there was lost that Git looks up
by its own name. A path with a colon at its front is looked up by another one. -/
theorem resume_gate_sound {headCommit baseCommit : String} {checkpoint : ReviewCheckpoint}
    {delta : ReviewDelta} {context resumeContext : ReviewAnalysisContext}
    (exact : engine.repository.DiffExact) (listed : engine.repository.ListsTrees)
    (faithful : context.Faithful engine.repository)
    (reviewed : (outcome (reviewGitRangeWithResolvedBases engine headCommit baseCommit
      (some checkpoint)) context).1 = .ok review)
    (resumeFaithful : resumeContext.Faithful engine.repository)
    (resumed : (outcome (reviewGitResumeDelta engine review) resumeContext).1 = .ok delta)
    (gate : delta.summary.gatePassed = true) :
    (∃ checkpointChanges currentChanges,
      Discovered engine.repository checkpoint.baseCommit checkpoint.commit checkpointChanges ∧
      Discovered engine.repository baseCommit headCommit currentChanges ∧
      (∀ current ∈ currentChanges, CurrentAccounted engine checkpointChanges current) ∧
      ∀ checkpointChange ∈ checkpointChanges,
        (¬ Continued engine currentChanges checkpointChange →
          ∀ path ∈ checkpointChangePaths checkpointChange, Literal (utf8Bytes path.display)) →
        CheckpointAccounted engine checkpoint.commit baseCommit headCommit currentChanges
          checkpointChange) ∧
    ∀ path : GitPath, path.encoding = .utf8 →
      Literal (utf8Bytes path.display) ∨ ColonName (utf8Bytes path.display) →
        (TrustsLookups path ↔ Literal (utf8Bytes path.display)) := by
  obtain ⟨rfl, rfl, same, carries⟩ :=
    (reviewGitRangeWithResolvedBases_keeps headCommit baseCommit (some checkpoint)).result
      faithful reviewed
  refine ⟨?_, fun path utf8 spelling => trustsLookups_iff utf8 spelling⟩
  obtain ⟨checkpointChanges, currentChanges, old, new, accounted, passed⟩ :=
    (reviewGitResumeDelta_keeps exact same carries).result resumeFaithful resumed gate
  refine ⟨checkpointChanges, currentChanges, old, new, accounted, fun change member literal => ?_⟩
  refine (passed change member).accounted fun retired path inside same => ?_
  exact same.sameEntry listed
    (old.holds exact member (mem_checkpointChangePaths.mp inside) same.1)
      (literal retired path inside)

end

/-! A file is edited at its start in the review and at its end upstream; the review is
resumed on the new base. -/

def resumedObjects : List (String × Bytes) :=
  movedBaseObjects ++ [("dddddddddddddddddddddddddddddddddddddddd", [88, 98, 99, 89, 90])]

def resumedTree (objectId : String) : Tree := Finmap.singleton [102] ⟨"100644", objectId⟩

/-- The commits and the object of the file in each. -/
def resumedCommits : List (String × String) :=
  [("1111111111111111111111111111111111111111", "aaaaaaaaaaaaaaaaaaaaaaaaaaaaaaaaaaaaaaaa"),
   ("2222222222222222222222222222222222222222", "bbbbbbbbbbbbbbbbbbbbbbbbbbbbbbbbbbbbbbbb"),
   ("3333333333333333333333333333333333333333", "cccccccccccccccccccccccccccccccccccccccc"),
   ("4444444444444444444444444444444444444444", "dddddddddddddddddddddddddddddddddddddddd")]

def resumedRawDiff (before after : String) : Bytes :=
  utf8Bytes s!":100644 100644 {before} {after} M" ++ [0, 102, 0]

def resumedEngine : Engine :=
  { movedBaseEngine with
    repository :=
      { tree := fun commit => match resumedCommits.lookup commit with
          | some objectId => resumedTree objectId
          | none => ∅
        rawDiff := fun before after =>
          if before = resumedTree "aaaaaaaaaaaaaaaaaaaaaaaaaaaaaaaaaaaaaaaa" ∧
              after = resumedTree "bbbbbbbbbbbbbbbbbbbbbbbbbbbbbbbbbbbbbbbb" then
            .ok (resumedRawDiff "aaaaaaaaaaaaaaaaaaaaaaaaaaaaaaaaaaaaaaaa"
              "bbbbbbbbbbbbbbbbbbbbbbbbbbbbbbbbbbbbbbbb")
          else if before = resumedTree "cccccccccccccccccccccccccccccccccccccccc" ∧
              after = resumedTree "dddddddddddddddddddddddddddddddddddddddd" then
            .ok (resumedRawDiff "cccccccccccccccccccccccccccccccccccccccc"
              "dddddddddddddddddddddddddddddddddddddddd")
          else .error "not recorded"
        lsTree := fun commit pathspec => .ok (Tree.print
          (match resumedCommits.lookup commit with
            | some objectId => resumedTree objectId
            | none => ∅) (spelled pathspec))
        objectSize := fun objectId => match resumedObjects.lookup objectId with
          | some bytes => .ok bytes.length
          | none => .error "missing"
        objectBytes := fun objectId => match resumedObjects.lookup objectId with
          | some bytes => .ok bytes
          | none => .error "missing" } }

/-- The trees of one file differ in its change. -/
theorem loneTree_listsDifferences {path : Bytes} {name : GitPath} {before after : String}
    (named : gitPath path = name) (different : before ≠ after) :
    ListsDifferences gitPath (loneTree path before) (loneTree path after)
      [⟨.modified, none, some name, some name, some "100644", some "100644", some before,
        some after⟩] := by
  refine ⟨[path], List.nodup_singleton path, fun file => ?_, ?_⟩
  · by_cases h : file = path
    · simp [h, loneTree_get, different]
    · simp [h, loneTree_get_of_ne h]
  · simp [rawChange, loneTree_get, rawStatus, named]

theorem resumedTree_listsDifferences {before after : String} (different : before ≠ after) :
    ListsDifferences gitPath (resumedTree before) (resumedTree after)
      [movedBaseChange before after] := by
  have named : gitPath [102] = ⟨"f", .utf8⟩ := by decide +kernel
  exact loneTree_listsDifferences named different

/-- What Git lists of the two commits before and of the two after is read as the one change. -/
theorem resumedRawDiff_parsed :
    parseRawDiff (resumedRawDiff "aaaaaaaaaaaaaaaaaaaaaaaaaaaaaaaaaaaaaaaa"
        "bbbbbbbbbbbbbbbbbbbbbbbbbbbbbbbbbbbbbbbb") (maxReviewFiles * 2) =
      .ok [movedBaseChange "aaaaaaaaaaaaaaaaaaaaaaaaaaaaaaaaaaaaaaaa"
        "bbbbbbbbbbbbbbbbbbbbbbbbbbbbbbbbbbbbbbbb"] ∧
    parseRawDiff (resumedRawDiff "cccccccccccccccccccccccccccccccccccccccc"
        "dddddddddddddddddddddddddddddddddddddddd") (maxReviewFiles * 2) =
      .ok [movedBaseChange "cccccccccccccccccccccccccccccccccccccccc"
        "dddddddddddddddddddddddddddddddddddddddd"] := by
  refine ⟨?_, ?_⟩
  · decide +kernel
  · decide +kernel

theorem resumedEngine_diffExact : resumedEngine.repository.DiffExact := by
  intro before after stdout changes listed parsed
  simp only [resumedEngine] at listed
  split at listed
  · next trees =>
    cases listed
    rw [resumedRawDiff_parsed.1, Except.ok.injEq] at parsed
    rw [trees.1, trees.2, ← parsed]
    exact resumedTree_listsDifferences (by decide)
  · split at listed
    · next trees =>
      cases listed
      rw [resumedRawDiff_parsed.2, Except.ok.injEq] at parsed
      rw [trees.1, trees.2, ← parsed]
      exact resumedTree_listsDifferences (by decide)
    · cases listed

theorem resumedEngine_listsTrees : resumedEngine.repository.ListsTrees := by
  refine listsTrees_of_print ?_ fun commit pathspec => rfl
  intro commit path entry found
  simp only [resumedEngine] at found
  split at found
  · next objectId held =>
    have isObject : ∀ entry ∈ resumedCommits, entry.2.toList ≠ [] ∧
        (entry.2.toList.all fun c => !isAsciiWhitespace c) = true := by decide
    obtain ⟨_, _, split, _⟩ := List.lookup_eq_some_iff.mp held
    have member : (commit, objectId) ∈ resumedCommits := by simp [split]
    exact loneTree_words (isWord_of_all (isObject _ member).1 (isObject _ member).2) found
  · cases found

def resumedReview : Result RepositoryReview :=
  (outcome (reviewGitRangeWithResolvedBases resumedEngine
    "4444444444444444444444444444444444444444" "3333333333333333333333333333333333333333"
    (some ⟨"2222222222222222222222222222222222222222",
      "1111111111111111111111111111111111111111"⟩)) .unbounded).1

def resumedDelta (review : RepositoryReview) : Result ReviewDelta :=
  (outcome (reviewGitResumeDelta resumedEngine review) .unbounded).1

/-- Whether a review and the delta that resumes it pass the gate. -/
def gatePasses (review : Result RepositoryReview) (resume : RepositoryReview → Result ReviewDelta) :
    Bool :=
  match review with
  | .error _ => false
  | .ok review =>
      match resume review with
      | .error _ => false
      | .ok delta => delta.summary.gatePassed

theorem gatePasses_spec {run : Result RepositoryReview}
    {resume : RepositoryReview → Result ReviewDelta} (h : gatePasses run resume = true) :
    ∃ review delta, run = .ok review ∧ resume review = .ok delta ∧
      delta.summary.gatePassed = true := by
  cases run with
  | error failure => cases h
  | ok review =>
      rw [gatePasses.eq_2] at h
      split at h
      · cases h
      · next delta resumed => exact ⟨review, delta, rfl, resumed, h⟩

theorem resumedReview_passes : gatePasses resumedReview resumedDelta = true := by decide +kernel

theorem resume_gate_sound_replayed_file : gatePasses resumedReview resumedDelta = true ∧
    ∃ checkpointChanges currentChanges,
      Discovered resumedEngine.repository "1111111111111111111111111111111111111111"
        "2222222222222222222222222222222222222222" checkpointChanges ∧
      Discovered resumedEngine.repository "3333333333333333333333333333333333333333"
        "4444444444444444444444444444444444444444" currentChanges ∧
      ∀ current ∈ currentChanges, CurrentAccounted resumedEngine checkpointChanges current := by
  refine ⟨resumedReview_passes, ?_⟩
  obtain ⟨review, delta, reviewed, resumed, passed⟩ := gatePasses_spec resumedReview_passes
  rw [resumedReview] at reviewed
  have unbounded := ReviewAnalysisContext.Faithful.unbounded resumedEngine.repository
  obtain ⟨⟨checkpointChanges, currentChanges, old, new, accounted, _⟩, _⟩ := resume_gate_sound
    resumedEngine_diffExact resumedEngine_listsTrees unbounded reviewed unbounded resumed passed
  exact ⟨checkpointChanges, currentChanges, old, new, accounted⟩

/-! The one file is named `:x`. Its reviewed edit is dropped on the new base. -/

/-- The commits and the object of the file in each. -/
def colonCommits : List (String × String) :=
  [("1111111111111111111111111111111111111111", "aaaaaaaaaaaaaaaaaaaaaaaaaaaaaaaaaaaaaaaa"),
   ("2222222222222222222222222222222222222222", "bbbbbbbbbbbbbbbbbbbbbbbbbbbbbbbbbbbbbbbb"),
   ("3333333333333333333333333333333333333333", "aaaaaaaaaaaaaaaaaaaaaaaaaaaaaaaaaaaaaaaa"),
   ("4444444444444444444444444444444444444444", "aaaaaaaaaaaaaaaaaaaaaaaaaaaaaaaaaaaaaaaa")]

def colonTree (commit : String) : Tree :=
  match colonCommits.lookup commit with
  | some objectId => loneTree [58, 120] objectId
  | none => ∅

def colonRawDiff : Bytes :=
  utf8Bytes (":100644 100644 aaaaaaaaaaaaaaaaaaaaaaaaaaaaaaaaaaaaaaaa " ++
    "bbbbbbbbbbbbbbbbbbbbbbbbbbbbbbbbbbbbbbbb M") ++ [0, 58, 120, 0]

def colonEngine : Engine :=
  { movedBaseEngine with
    repository :=
      { movedBaseEngine.repository with
        tree := colonTree
        rawDiff := fun before after =>
          if before = after then .ok []
          else if before = loneTree [58, 120] "aaaaaaaaaaaaaaaaaaaaaaaaaaaaaaaaaaaaaaaa" ∧
              after = loneTree [58, 120] "bbbbbbbbbbbbbbbbbbbbbbbbbbbbbbbbbbbbbbbb" then
            .ok colonRawDiff
          else .error "not recorded"
        lsTree := fun commit pathspec => .ok ((colonTree commit).print (spelled pathspec)) } }

def colonChange : GitChange :=
  ⟨.modified, none, some ⟨":x", .utf8⟩, some ⟨":x", .utf8⟩, some "100644", some "100644",
    some "aaaaaaaaaaaaaaaaaaaaaaaaaaaaaaaaaaaaaaaa",
      some "bbbbbbbbbbbbbbbbbbbbbbbbbbbbbbbbbbbbbbbb"⟩

theorem colonRawDiff_parsed : parseRawDiff colonRawDiff (maxReviewFiles * 2) = .ok [colonChange] ∧
    gitPath [58, 120] = ⟨":x", .utf8⟩ := by
  refine ⟨?_, ?_⟩
  · decide +kernel
  · decide +kernel

theorem colonEngine_diffExact : colonEngine.repository.DiffExact := by
  intro before after stdout changes listed parsed
  simp only [colonEngine] at listed
  split at listed
  · next same =>
    cases listed
    cases parsed
    exact ⟨[], List.nodup_nil, fun path => by simp [same], rfl⟩
  · split at listed
    · next trees =>
      cases listed
      rw [colonRawDiff_parsed.1, Except.ok.injEq] at parsed
      rw [trees.1, trees.2, ← parsed]
      exact loneTree_listsDifferences colonRawDiff_parsed.2 (by decide)
    · cases listed

theorem colonEngine_listsTrees : colonEngine.repository.ListsTrees := by
  refine listsTrees_of_print ?_ fun commit pathspec => rfl
  intro commit path entry found
  simp only [colonEngine, colonTree] at found
  split at found
  · next objectId held =>
    have isObject : ∀ entry ∈ colonCommits, entry.2.toList ≠ [] ∧
        (entry.2.toList.all fun c => !isAsciiWhitespace c) = true := by decide
    obtain ⟨_, _, split, _⟩ := List.lookup_eq_some_iff.mp held
    have member : (commit, objectId) ∈ colonCommits := by simp [split]
    exact loneTree_words (isWord_of_all (isObject _ member).1 (isObject _ member).2) found
  · cases found

def colonReview : Result RepositoryReview :=
  (outcome (reviewGitRangeWithResolvedBases colonEngine
    "4444444444444444444444444444444444444444" "3333333333333333333333333333333333333333"
    (some ⟨"2222222222222222222222222222222222222222",
      "1111111111111111111111111111111111111111"⟩)) .unbounded).1

def colonDelta (review : RepositoryReview) : Result ReviewDelta :=
  (outcome (reviewGitResumeDelta colonEngine review) .unbounded).1

theorem colonReview_passes : gatePasses colonReview colonDelta = true ∧
    samePathSnapshotChange colonEngine.repository "3333333333333333333333333333333333333333"
      "4444444444444444444444444444444444444444" colonChange = .ok none := by
  refine ⟨?_, ?_⟩
  · decide +kernel
  · decide +kernel

/-- The gate passes and a reviewed change is lost: the file is not found under its name. -/
theorem resume_gate_loses_colon_path : colonEngine.repository.DiffExact ∧
    colonEngine.repository.ListsTrees ∧
    ∃ review delta change, colonReview = .ok review ∧ colonDelta review = .ok delta ∧
      delta.summary.gatePassed = true ∧
      Discovered colonEngine.repository "1111111111111111111111111111111111111111"
        "2222222222222222222222222222222222222222" [change] ∧
      Discovered colonEngine.repository "3333333333333333333333333333333333333333"
        "4444444444444444444444444444444444444444" [] ∧
      ¬ CheckpointAccounted colonEngine "2222222222222222222222222222222222222222"
        "3333333333333333333333333333333333333333" "4444444444444444444444444444444444444444" []
        change := by
  obtain ⟨review, delta, reviewed, resumed, passed⟩ := gatePasses_spec colonReview_passes.1
  refine ⟨colonEngine_diffExact, colonEngine_listsTrees, review, delta, colonChange, reviewed,
    resumed, passed, ⟨colonRawDiff, ?_, ?_⟩, ⟨[], ?_, rfl⟩, ?_⟩
  · decide +kernel
  · rw [parseGitChangeOutput, colonRawDiff_parsed.1]
    decide +kernel
  · decide +kernel
  · rintro (continued | ⟨snapshot, taken, _⟩ | ⟨_, same⟩)
    · rcases continued with member | ⟨current, member, _⟩
      · cases member
      · cases member
    · rw [colonReview_passes.2] at taken
      cases taken
    · have here : (⟨":x", .utf8⟩ : GitPath) ∈ checkpointChangePaths colonChange := by decide
      have entries := (same _ here).2
      revert entries
      decide +kernel

end Stratadiff
