import Stratadiff.Lib.Keyed
import Stratadiff.Review.Gate

/-!
# Where a review and its resume delta agree

The review sorts the current changes into carried ones and ones that need review; the
delta lists what is left to look at. They walk the changes separately. A change that
needs review has an entry, unless the delta replays it exactly, and a carried change has
none: no entry and no unresolved change names one of its paths.
-/

namespace Stratadiff

open Run

/-! ## Paths of discovered changes -/

/-- No two changes of a list have a path in common. -/
def DisjointPaths (changes : List GitChange) : Prop :=
  ∀ (i j : Nat) (change other : GitChange) (path : GitPath), changes[i]? = some change →
    changes[j]? = some other → path ∈ checkpointChangePaths change →
      path ∈ checkpointChangePaths other → i = j

/-- A side that no two changes have in common tells their places apart. -/
theorem index_of_side {changes : List GitChange} {side : GitChange → Option GitPath}
    (nodup : (changes.filterMap side).Nodup) {i j : Nat} {change other : GitChange}
    {path : GitPath} (first : changes[i]? = some change) (second : changes[j]? = some other)
    (sideFirst : side change = some path) (sideSecond : side other = some path) : i = j := by
  induction changes generalizing i j with
  | nil => simp at first
  | cons head changes ih =>
      have listed : ∀ {k : Nat} {found : GitChange}, changes[k]? = some found →
          side found = some path → path ∈ changes.filterMap side := fun there same =>
        List.mem_filterMap.mpr ⟨_, List.mem_of_getElem? there, same⟩
      rw [List.filterMap_cons] at nodup
      cases i with
      | zero =>
          cases j with
          | zero => rfl
          | succ j =>
              rw [List.getElem?_cons_zero, Option.some.injEq] at first
              subst first
              rw [sideFirst, List.nodup_cons] at nodup
              exact absurd (listed second sideSecond) nodup.1
      | succ i =>
          cases j with
          | zero =>
              rw [List.getElem?_cons_zero, Option.some.injEq] at second
              subst second
              rw [sideSecond, List.nodup_cons] at nodup
              exact absurd (listed first sideFirst) nodup.1
          | succ j =>
              refine congrArg _ (ih ?_ first second)
              split at nodup
              · exact nodup
              · exact (List.nodup_cons.mp nodup).2

/-- The path of a change in place. -/
def inPlacePath (change : GitChange) : Option GitPath :=
  if change.beforePath = change.afterPath then change.beforePath else none

section

variable {before after : Tree} {raw : List GitChange}

theorem inPlacePath_rawChange {path : Bytes} :
    inPlacePath (rawChange gitPath before after path) =
      if before.get path ≠ none ∧ after.get path ≠ none then some (gitPath path) else none := by
  rw [inPlacePath, rawChange]
  cases old : before.get path with
  | none => simp
  | some oldEntry =>
      cases new : after.get path with
      | none => simp
      | some newEntry => simp

/-- Pairing deletions with additions keeps the changes in place. -/
theorem ListsDifferences.inPlace_perm (h : ListsDifferences gitPath before after raw) :
    ((pairRelocations raw).filterMap inPlacePath).Perm (raw.filterMap inPlacePath) := by
  obtain ⟨paths, _, differ, rfl⟩ := h
  refine pairRelocations_perm _ ?_
  intro deleted deletedMember added addedMember deletion addition
  obtain ⟨old, oldMember, rfl⟩ := List.mem_map.mp deletedMember
  obtain ⟨new, _, rfl⟩ := List.mem_map.mp addedMember
  have gone := rawChange_deleted deletion
  have fresh := rawChange_added addition
  have was : before.get old ≠ none := fun absent =>
    (differ old).mp oldMember (absent.trans gone.symm)
  rw [inPlacePath_rawChange, inPlacePath_rawChange]
  obtain ⟨oldEntry, oldAt⟩ := Option.ne_none_iff_exists'.mp was
  have apart : old ≠ new := by
    rintro rfl
    exact was fresh
  have moved : inPlacePath (relocation (rawChange gitPath before after old)
      (rawChange gitPath before after new)) = none := by
    rw [inPlacePath, relocation]
    cases newAt : after.get new with
    | none => simp [rawChange, oldAt, newAt]
    | some newEntry =>
        have names : gitPath old ≠ gitPath new := fun same => apart (gitPath_injective same)
        simp [rawChange, oldAt, newAt, names]
  rw [moved]
  simp [gone, fresh]

theorem ListsDifferences.afterPath_nodup (h : ListsDifferences gitPath before after raw) :
    ((pairRelocations raw).filterMap Change.afterPath).Nodup := by
  refine (h.after_perm (fun path _ _ => path) (fun _ _ => rfl)).nodup_iff.mpr ?_
  obtain ⟨paths, nodup, _, rfl⟩ := h
  rw [List.filterMap_map]
  refine nodup.filterMap ?_
  intro path path' shared left right
  simp only [Function.comp, rawChange, Option.mem_def, Option.map_eq_some_iff] at left right
  obtain ⟨_, _, rfl⟩ := left
  obtain ⟨_, _, same⟩ := right
  exact (gitPath_injective same).symm

/-- A path that is an old path and a new path is changed in place. -/
theorem ListsDifferences.inPlace_of_both (h : ListsDifferences gitPath before after raw)
    {path : GitPath} (old : path ∈ (pairRelocations raw).filterMap Change.beforePath)
    (new : path ∈ (pairRelocations raw).filterMap Change.afterPath) :
    path ∈ (pairRelocations raw).filterMap inPlacePath := by
  rw [h.inPlace_perm.mem_iff]
  rw [(h.before_perm (fun path _ _ => path) (fun _ _ => rfl)).mem_iff] at old
  rw [(h.after_perm (fun path _ _ => path) (fun _ _ => rfl)).mem_iff] at new
  obtain ⟨paths, _, _, rfl⟩ := h
  simp only [List.filterMap_map, List.mem_filterMap, Function.comp] at old new ⊢
  obtain ⟨first, firstMember, atFirst⟩ := old
  obtain ⟨second, _, atSecond⟩ := new
  simp only [rawChange, Option.map_eq_some_iff] at atFirst atSecond
  obtain ⟨oldEntry, oldAt, rfl⟩ := atFirst
  obtain ⟨newEntry, newAt, same⟩ := atSecond
  cases gitPath_injective same
  refine ⟨first, firstMember, ?_⟩
  rw [inPlacePath_rawChange, if_pos]
  simp [oldAt, newAt]

end

theorem Discovered.disjointPaths {repository : Repository} {fromCommit toCommit : String}
    {changes : List GitChange} (h : Discovered repository fromCommit toCommit changes)
    (exact : repository.DiffExact) : DisjointPaths changes := by
  obtain ⟨raw, differences, permuted⟩ := h.listed exact
  have oldNodup := (permuted.filterMap _).nodup_iff.mpr
    (differences.beforePath_nodup gitPath_injective)
  have newNodup := (permuted.filterMap _).nodup_iff.mpr differences.afterPath_nodup
  -- The old path of one change and the new path of another are both of the change in place.
  have cross : ∀ {i j : Nat} {change other : GitChange} {path : GitPath},
      changes[i]? = some change → changes[j]? = some other → change.beforePath = some path →
        other.afterPath = some path → i = j := by
    intro i j change other path first second old new
    have listed := differences.inPlace_of_both
      ((permuted.filterMap _).mem_iff.mp
        (List.mem_filterMap.mpr ⟨change, List.mem_of_getElem? first, old⟩))
      ((permuted.filterMap _).mem_iff.mp
        (List.mem_filterMap.mpr ⟨other, List.mem_of_getElem? second, new⟩))
    rw [← (permuted.filterMap _).mem_iff] at listed
    obtain ⟨middle, member, inPlace⟩ := List.mem_filterMap.mp listed
    obtain ⟨k, there⟩ := List.getElem?_of_mem member
    rw [inPlacePath] at inPlace
    split at inPlace
    · next same =>
      have toFirst := index_of_side oldNodup first there old inPlace
      have toSecond := index_of_side newNodup second there new (same ▸ inPlace)
      exact toFirst.trans toSecond.symm
    · cases inPlace
  intro i j change other path first second member otherMember
  rcases mem_checkpointChangePaths.mp member with old | new
  · rcases mem_checkpointChangePaths.mp otherMember with old' | new'
    · exact index_of_side oldNodup first second old old'
    · exact cross first second old new'
  · rcases mem_checkpointChangePaths.mp otherMember with old' | new'
    · exact (cross second first old' new).symm
    · exact index_of_side newNodup first second new new'

/-! ## Entries and the paths they name -/

/-- An entry for a change has the change's paths. -/
def ReviewDeltaFile.Shows (entry : ReviewDeltaFile) (change : GitChange) : Prop :=
  entry.file.beforePath = change.beforePath.map GitPath.display ∧
    entry.file.beforePathEncoding = change.beforePath.map GitPath.encoding ∧
    entry.file.afterPath = change.afterPath.map GitPath.display ∧
    entry.file.afterPathEncoding = change.afterPath.map GitPath.encoding

/-- A path that is one of the two of an entry. -/
def ReviewDeltaFile.Names (entry : ReviewDeltaFile) (path : GitPath) : Prop :=
  entry.file.beforePath = some path.display ∧ entry.file.beforePathEncoding = some path.encoding ∨
    entry.file.afterPath = some path.display ∧ entry.file.afterPathEncoding = some path.encoding

def ReviewDeltaUnresolvedChange.Names (change : ReviewDeltaUnresolvedChange) (path : GitPath) :
    Prop :=
  change.path = path.display ∧ change.pathEncoding = path.encoding

theorem ReviewDeltaFile.Shows.path_of_names {entry : ReviewDeltaFile} {change : GitChange}
    {path : GitPath} (shows' : entry.Shows change) (names : entry.Names path) :
    path ∈ checkpointChangePaths change := by
  obtain ⟨before, beforeEncoding, after, afterEncoding⟩ := shows'
  rw [mem_checkpointChangePaths]
  rcases names with ⟨display, encoding⟩ | ⟨display, encoding⟩
  · exact .inl (GitPath.ext_map (before.symm.trans display) (beforeEncoding.symm.trans encoding))
  · exact .inr (GitPath.ext_map (after.symm.trans display) (afterEncoding.symm.trans encoding))

theorem reviewDeltaGitEntry_file {file : ReviewFile} {basis : ReviewDeltaBaselineBasis}
    {beforeCommit afterCommit : String} {reason : Option ReviewDeltaFallbackReason}
    {entry : ReviewDeltaFile}
    (h : reviewDeltaGitEntry file basis beforeCommit afterCommit reason = .ok entry) :
    entry.file = file := by
  rw [reviewDeltaGitEntry] at h
  obtain ⟨_, _, h⟩ := Result.bind_eq_ok.mp h
  obtain ⟨_, _, h⟩ := Result.bind_eq_ok.mp h
  cases h
  rfl

theorem ReviewFile.Describes.shows {file : ReviewFile} {change : GitChange}
    {entry : ReviewDeltaFile} (describes : file.Describes change) (same : entry.file = file) :
    entry.Shows change := by
  simp only [ReviewFile.Describes, reviewFileMatchesChange, Bool.and_eq_true,
    decide_eq_true_eq] at describes
  obtain ⟨⟨⟨⟨⟨⟨⟨⟨⟨_, _⟩, before⟩, beforeEncoding⟩, after⟩, afterEncoding⟩, _⟩, _⟩, _⟩, _⟩ :=
    describes
  rw [← same] at before beforeEncoding after afterEncoding
  exact ⟨before, beforeEncoding, after, afterEncoding⟩

/-- A reconstructed entry is for the new path of its change, on both sides. -/
theorem reconstructedDeltaEntry_shows {engine : Engine} {limits : VerificationLimits}
    {file : ReviewFile} {change : GitChange} {reconstruction : ReconstructedReviewBaseline}
    {headCommit : String} {retain : Bool} {entry : ReviewDeltaFile}
    (inPlace : change.beforePath = change.afterPath)
    (h : reconstructedDeltaEntry engine limits file change reconstruction headCommit retain =
      .ok entry) : entry.Shows change := by
  rw [reconstructedDeltaEntry] at h
  obtain ⟨path, atPath, h⟩ := Result.bind_eq_ok.mp h
  obtain ⟨_, _, h⟩ := Result.bind_eq_ok.mp h
  obtain ⟨_, _, h⟩ := Result.bind_eq_ok.mp h
  obtain ⟨_, _, h⟩ := Result.bind_eq_ok.mp h
  obtain ⟨_, _, h⟩ := Result.bind_eq_ok.mp h
  obtain ⟨_, _, h⟩ := Result.bind_eq_ok.mp h
  obtain ⟨_, _, h⟩ := Result.bind_eq_ok.mp h
  cases h
  have new := Result.ofOption_eq_ok.mp atPath
  have old := inPlace.trans new
  simp [ReviewDeltaFile.Shows, old, new]

theorem replayCandidateMetadataMatches_inPlace {checkpoint current : GitChange}
    (h : replayCandidateMetadataMatches checkpoint current = true) :
    current.beforePath = current.afterPath ∧ ∃ path, checkpointChangePaths checkpoint = [path] ∧
      current.beforePath = some path := by
  rw [replayCandidateMetadataMatches] at h
  split at h
  · cases h
  split at h
  · cases h
  next path before =>
  split at h
  · cases h
  next same =>
  simp only [ne_eq, Bool.or_eq_true, decide_eq_true_eq, not_or, not_not] at same
  refine ⟨same.1.2.trans same.2.symm, path, ?_, same.1.2⟩
  rw [checkpointChangePaths, before, same.1.1]
  simp

/-! ## The loop over the current changes -/

section

variable {engine : Engine} {limits : VerificationLimits} {review : RepositoryReview}
variable {checkpointChanges : List GitChange}

/-- The delta replays the only candidate of a current change with the bytes of the head. -/
def ReplayedAlone (engine : Engine) (checkpointChanges : List GitChange) (current : GitChange) :
    Prop :=
  ∃ index checkpointChange,
    uniqueReplayCandidate checkpointChanges current = some (index, checkpointChange) ∧
      Replayed engine checkpointChange current

/-- What the delta has said of the current changes it has come to. -/
structure Listed (engine : Engine) (checkpointChanges : List GitChange) (review : RepositoryReview)
    (currents : List GitChange) (state : ResumeState) : Prop where
  found : ∀ current ∈ currents, ∃ file, reviewFileForChange review current = .ok file
  entries : ∀ entry ∈ state.entries, ∃ current ∈ currents, ∃ file,
    reviewFileForChange review current = .ok file ∧
      file.checkpointState ≠ some .unchangedSinceCheckpoint ∧ entry.Shows current
  needed : ∀ current ∈ currents, ∀ file, reviewFileForChange review current = .ok file →
    file.checkpointState ≠ some .unchangedSinceCheckpoint →
      (∃ entry ∈ state.entries, entry.Shows current) ∨
        ReplayedAlone engine checkpointChanges current
  carried : ∀ current ∈ currents, ∀ file, reviewFileForChange review current = .ok file →
    file.checkpointState = some .unchangedSinceCheckpoint →
      ∀ (index : Nat) (checkpointChange : GitChange) (path : GitPath),
        checkpointChanges[index]? = some checkpointChange →
        path ∈ checkpointChangePaths checkpointChange → path ∈ checkpointChangePaths current →
          (index, path) ∈ state.associated
  unresolved : state.unresolved = []

namespace Listed

variable {currents : List GitChange} {current : GitChange} {state : ResumeState}
variable {file : ReviewFile}

/-- A round that lists nothing. -/
theorem pass {paths : List (Nat × GitPath)}
    (listed : Listed engine checkpointChanges review currents state)
    (found : reviewFileForChange review current = .ok file)
    (needed : file.checkpointState ≠ some .unchangedSinceCheckpoint →
      ReplayedAlone engine checkpointChanges current)
    (carried : file.checkpointState = some .unchangedSinceCheckpoint →
      ∀ (index : Nat) (checkpointChange : GitChange) (path : GitPath),
        checkpointChanges[index]? = some checkpointChange →
        path ∈ checkpointChangePaths checkpointChange → path ∈ checkpointChangePaths current →
          (index, path) ∈ paths) :
    Listed engine checkpointChanges review (currents ++ [current]) (state.associate paths) where
  found := by
    intro other member
    rcases List.mem_append.mp member with old | new
    · exact listed.found other old
    · rw [List.mem_singleton.mp new]
      exact ⟨file, found⟩
  entries := by
    intro entry member
    obtain ⟨other, old, rest⟩ := listed.entries entry member
    exact ⟨other, List.mem_append_left _ old, rest⟩
  needed := by
    intro other member otherFile otherFound state
    rcases List.mem_append.mp member with old | new
    · exact listed.needed other old otherFile otherFound state
    · rw [List.mem_singleton.mp new] at otherFound ⊢
      rw [found, Except.ok.injEq] at otherFound
      exact .inr (needed (otherFound ▸ state))
  carried := by
    intro other member otherFile otherFound state index checkpointChange path at_index here there
    rcases List.mem_append.mp member with old | new
    · exact List.mem_append_left _
        (listed.carried other old otherFile otherFound state index checkpointChange path at_index
          here there)
    · rw [List.mem_singleton.mp new] at otherFound there
      rw [found, Except.ok.injEq] at otherFound
      exact List.mem_append_right _
        (carried (otherFound ▸ state) index checkpointChange path at_index here there)
  unresolved := listed.unresolved

/-- A round that lists an entry of a change that needs review. -/
theorem push {paths : List (Nat × GitPath)} {entry : ReviewDeltaFile}
    (listed : Listed engine checkpointChanges review currents state)
    (found : reviewFileForChange review current = .ok file)
    (needs : file.checkpointState ≠ some .unchangedSinceCheckpoint)
    (shows' : entry.Shows current) :
    Listed engine checkpointChanges review (currents ++ [current])
      ((state.associate paths).push entry) where
  found := by
    intro other member
    rcases List.mem_append.mp member with old | new
    · exact listed.found other old
    · rw [List.mem_singleton.mp new]
      exact ⟨file, found⟩
  entries := by
    intro other member
    rcases List.mem_append.mp member with old | new
    · obtain ⟨change, before, rest⟩ := listed.entries other old
      exact ⟨change, List.mem_append_left _ before, rest⟩
    · rw [List.mem_singleton.mp new]
      exact ⟨current, List.mem_append_right _ (List.mem_singleton.mpr rfl), file, found, needs,
        shows'⟩
  needed := by
    intro other member otherFile otherFound state
    rcases List.mem_append.mp member with old | new
    · rcases listed.needed other old otherFile otherFound state with ⟨entry', there, shown⟩ |
        replayed
      · exact .inl ⟨entry', List.mem_append_left _ there, shown⟩
      · exact .inr replayed
    · rw [List.mem_singleton.mp new]
      exact .inl ⟨entry, List.mem_append_right _ (List.mem_singleton.mpr rfl), shows'⟩
  carried := by
    intro other member otherFile otherFound state index checkpointChange path at_index here there
    rcases List.mem_append.mp member with old | new
    · exact List.mem_append_left _
        (listed.carried other old otherFile otherFound state index checkpointChange path at_index
          here there)
    · rw [List.mem_singleton.mp new, found, Except.ok.injEq] at otherFound
      exact absurd (otherFound ▸ state) needs
  unresolved := listed.unresolved

end Listed

theorem mem_exactIndices {change : GitChange} {index : Nat} :
    index ∈ exactIndices checkpointChanges change ↔ checkpointChanges[index]? = some change := by
  refine ⟨exactIndices_mem, fun found => ?_⟩
  simp only [exactIndices, List.mem_map, List.mem_filter, decide_eq_true_eq]
  exact ⟨(change, index), ⟨List.mem_zipIdx_iff_getElem?.mpr found, rfl⟩, rfl⟩

/-- The paths that a round sets aside for the identities of a change. -/
def exactPaths (checkpointChanges : List GitChange) (current : GitChange) : List (Nat × GitPath) :=
  (exactIndices checkpointChanges current).flatMap fun index =>
    (checkpointChanges[index]?.map (allCheckpointPaths index)).getD []

theorem mem_exactPaths {current : GitChange} {index : Nat} {path : GitPath}
    (found : checkpointChanges[index]? = some current)
    (member : path ∈ checkpointChangePaths current) :
    (index, path) ∈ exactPaths checkpointChanges current := by
  refine List.mem_flatMap.mpr ⟨index, mem_exactIndices.mpr found, ?_⟩
  rw [found, Option.map_some, Option.getD_some]
  exact List.mem_map_of_mem member

/-- The checkpoint's paths that a carried change shares are set aside with it. -/
theorem Carried.aside {current checkpointChange : GitChange} {index : Nat} {path : GitPath}
    {paths : List (Nat × GitPath)} (carried : Carried engine checkpointChanges current)
    (disjoint : DisjointPaths checkpointChanges)
    (exact : exactPaths checkpointChanges current ⊆ paths)
    (candidate : ∀ position other,
      uniqueReplayCandidate checkpointChanges current = some (position, other) →
        allCheckpointPaths position other ⊆ paths)
    (found : checkpointChanges[index]? = some checkpointChange)
    (here : path ∈ checkpointChangePaths checkpointChange)
    (there : path ∈ checkpointChangePaths current) : (index, path) ∈ paths := by
  rcases carried with same | ⟨position, other, bytes, unique, replay⟩
  · obtain ⟨position, at_position⟩ := List.getElem?_of_mem same
    cases disjoint index position checkpointChange current path found at_position here there
    exact exact (mem_exactPaths at_position there)
  · obtain ⟨at_position, metadata⟩ := uniqueReplayCandidate_some unique
    obtain ⟨inPlace, only, otherPaths, currentPath⟩ :=
      replayCandidateMetadataMatches_inPlace metadata
    have same : path = only := by
      rcases mem_checkpointChangePaths.mp there with old | new
      · exact Option.some.inj (old.symm.trans currentPath)
      · exact Option.some.inj (new.symm.trans (inPlace.symm.trans currentPath))
    subst same
    have listed : path ∈ checkpointChangePaths other := by simp [otherPaths]
    cases disjoint index position checkpointChange other path found at_position here listed
    exact candidate index other unique (List.mem_map_of_mem listed)

theorem resumeCurrentChange_lists (carried : CarriedReview engine checkpointChanges review)
    (disjoint : DisjointPaths checkpointChanges) (currents : List GitChange) (current : GitChange)
    {state : ResumeState} (listed : Listed engine checkpointChanges review currents state) :
    Keeps (ReviewAnalysisContext.Faithful engine.repository)
      (resumeCurrentChange engine limits review checkpointChanges current state)
      (Listed engine checkpointChanges review (currents ++ [current])) := by
  refine .lift_bind fun file found => ?_
  obtain ⟨member, describes⟩ := reviewFileForChange_ok found
  have twice (first second : List (Nat × GitPath)) :
      (state.associate first).associate second = state.associate (first ++ second) := by
    simp [ResumeState.associate, List.append_assoc]
  dsimp only
  split
  · next unchanged =>
    obtain ⟨change, describes', carried⟩ := carried file member unchanged
    rw [describes'.unique describes] at carried
    split
    · next position other candidate =>
      rw [twice]
      refine .pure (listed.pass found (fun needs => absurd unchanged needs) fun _ index
        checkpointChange path at_index here there =>
          carried.aside disjoint (List.subset_append_left _ _) ?_ at_index here there)
      intro position' other' candidate'
      rw [candidate, Option.some.injEq, Prod.mk.injEq] at candidate'
      obtain ⟨rfl, rfl⟩ := candidate'
      exact List.subset_append_right _ _
    · next none =>
      refine .pure (listed.pass found (fun needs => absurd unchanged needs) fun _ index
        checkpointChange path at_index here there =>
          carried.aside disjoint (List.Subset.refl _) ?_ at_index here there)
      intro position' other' candidate'
      rw [none] at candidate'
      cases candidate'
  · next needs =>
    split
    · next position other candidate =>
      obtain ⟨_, metadata⟩ := uniqueReplayCandidate_some candidate
      refine .bind (contextReconstructReviewBaseline_keeps _ _) fun outcome sound => ?_
      rw [twice]
      split
      · next reconstruction =>
        split
        · exact .bind .get fun context _ => .lift_bind fun entry made =>
            .pure (listed.push found needs (reconstructedDeltaEntry_shows
              (replayCandidateMetadataMatches_inPlace metadata).1 made))
        · next same =>
          rw [not_not] at same
          have replayed : Replayed engine other current :=
            ⟨reconstruction.currentAfter, same ▸ sound.replay _ rfl⟩
          exact .pure (listed.pass found (fun _ => ⟨position, other, candidate, replayed⟩)
            fun unchanged => absurd unchanged needs)
      · exact .lift_bind fun entry made =>
          .pure (listed.push found needs (describes.shows (reviewDeltaGitEntry_file made)))
    · split
      · exact .lift_bind fun entry made =>
          .pure (listed.push found needs (describes.shows (reviewDeltaGitEntry_file made)))
      · refine .lift_bind fun entry made => ?_
        rw [twice]
        exact .pure (listed.push found needs (describes.shows (reviewDeltaGitEntry_file made)))

theorem resumeCurrentChanges_lists (carried : CarriedReview engine checkpointChanges review)
    (disjoint : DisjointPaths checkpointChanges) (currents rest : List GitChange)
    {state : ResumeState} (listed : Listed engine checkpointChanges review currents state) :
    Keeps (ReviewAnalysisContext.Faithful engine.repository)
      (resumeCurrentChanges engine limits review checkpointChanges rest state)
      (Listed engine checkpointChanges review (currents ++ rest)) := by
  induction rest generalizing currents state with
  | nil =>
      rw [List.append_nil]
      exact .pure listed
  | cons current rest ih =>
      refine .bind (resumeCurrentChange_lists carried disjoint currents current listed)
        fun middle first => ?_
      have later := ih (currents ++ [current]) first
      rwa [List.append_assoc] at later

/-! ## The loop over the checkpoint changes -/

theorem fallbackChange_path {path named : GitPath} {checkpointEntry headEntry : Option GitTreeEntry}
    (h : named ∈ checkpointChangePaths (fallbackChange path checkpointEntry headEntry)) :
    named = path := by
  rcases mem_checkpointChangePaths.mp h with old | new
  · simp only [fallbackChange, Option.map_eq_some_iff] at old
    obtain ⟨_, _, same⟩ := old
    exact same.symm
  · simp only [fallbackChange, Option.map_eq_some_iff] at new
    obtain ⟨_, _, same⟩ := new
    exact same.symm

/-- Whatever a fallback lists is for one of its paths. -/
structure FallbackFor (paths : List GitPath) (start fallback : CheckpointHeadFallback) : Prop where
  keeps : start.entries ⊆ fallback.entries
  entries : ∀ entry ∈ fallback.entries, entry ∈ start.entries ∨
    ∃ path ∈ paths, ∀ named, entry.Names named → named = path
  unresolved : ∀ change ∈ fallback.unresolved, change ∈ start.unresolved ∨
    ∃ path ∈ paths, change.path = path.display ∧ change.pathEncoding = path.encoding

theorem FallbackFor.cons {path : GitPath} {paths : List GitPath}
    {start middle fallback : CheckpointHeadFallback} (rest : FallbackFor paths middle fallback)
    (first : FallbackFor [path] start middle) : FallbackFor (path :: paths) start fallback where
  keeps := List.Subset.trans first.keeps rest.keeps
  entries := by
    intro entry member
    rcases rest.entries entry member with earlier | ⟨later, there, only⟩
    · rcases first.entries entry earlier with old | ⟨here, at_here, only⟩
      · exact .inl old
      · exact .inr ⟨path, List.mem_cons_self, List.mem_singleton.mp at_here ▸ only⟩
    · exact .inr ⟨later, List.mem_cons_of_mem _ there, only⟩
  unresolved := by
    intro change member
    rcases rest.unresolved change member with earlier | ⟨later, there, named⟩
    · rcases first.unresolved change earlier with old | ⟨here, at_here, named⟩
      · exact .inl old
      · exact .inr ⟨path, List.mem_cons_self, List.mem_singleton.mp at_here ▸ named⟩
    · exact .inr ⟨later, List.mem_cons_of_mem _ there, named⟩

theorem FallbackFor.refl (paths : List GitPath) (fallback : CheckpointHeadFallback) :
    FallbackFor paths fallback fallback :=
  ⟨List.Subset.refl _, fun _ member => .inl member, fun _ member => .inl member⟩

theorem fallbackEntries_for (checkpointCommit headCommit : String) (paths : List GitPath)
    (fallback : CheckpointHeadFallback) :
    Keeps (ReviewAnalysisContext.Faithful engine.repository)
      (fallbackEntries engine limits checkpointCommit headCommit paths fallback)
      (FallbackFor paths fallback) := by
  induction paths generalizing fallback with
  | nil => exact .pure (.refl _ _)
  | cons path paths ih =>
      rw [fallbackEntries]
      split
      · refine (ih _).mono fun found rest => .cons rest ⟨List.Subset.refl _, fun _ => .inl, ?_⟩
        intro change member
        rcases List.mem_append.mp member with old | new
        · exact .inl old
        · rw [List.mem_singleton.mp new]
          exact .inr ⟨path, List.mem_singleton.mpr rfl, rfl, rfl⟩
      refine .lift_bind fun checkpointEntry _ => .lift_bind fun headEntry _ => ?_
      split
      · exact (ih _).mono fun found rest => .cons rest (.refl _ _)
      · refine .bind (reserveSources_keeps _) fun _ _ => .bind (analyzeChange_keeps _)
          fun file describes => .lift_bind fun entry made => (ih _).mono fun found rest =>
            .cons rest ⟨List.subset_append_left _ _, ?_, fun _ => .inl⟩
        intro other member
        rcases List.mem_append.mp member with old | new
        · exact .inl old
        · rw [List.mem_singleton.mp new]
          have describes : ReviewFile.Describes { file with
              checkpointState := some .needsReviewNow
              reason := file.reason ++ fallbackReasonText }
              (fallbackChange path checkpointEntry headEntry) := describes
          have shown := describes.shows (reviewDeltaGitEntry_file made)
          exact .inr ⟨path, List.mem_singleton.mpr rfl, fun named names =>
            fallbackChange_path (shown.path_of_names names)⟩

/-- What names only a checkpoint's path that no current change has set aside. -/
def LeftOver (checkpointChanges : List GitChange) (associated : List (Nat × GitPath))
    (names : GitPath → Prop) : Prop :=
  ∃ index checkpointChange path, checkpointChanges[index]? = some checkpointChange ∧
    path ∈ checkpointChangePaths checkpointChange ∧ (index, path) ∉ associated ∧
      ∀ named, names named → named = path

/-- What the loop over the checkpoint changes adds is for paths that are left over. -/
structure Resumed (checkpointChanges : List GitChange) (start state : ResumeState) : Prop where
  associated : state.associated = start.associated
  keeps : start.entries ⊆ state.entries
  entries : ∀ entry ∈ state.entries, entry ∈ start.entries ∨
    LeftOver checkpointChanges start.associated entry.Names
  unresolved : ∀ change ∈ state.unresolved, change ∈ start.unresolved ∨
    LeftOver checkpointChanges start.associated change.Names

namespace Resumed

variable {start middle state : ResumeState}

theorem refl (state : ResumeState) : Resumed checkpointChanges state state :=
  ⟨rfl, List.Subset.refl _, fun _ => .inl, fun _ => .inl⟩

theorem trans (first : Resumed checkpointChanges start middle)
    (rest : Resumed checkpointChanges middle state) : Resumed checkpointChanges start state where
  associated := rest.associated.trans first.associated
  keeps := List.Subset.trans first.keeps rest.keeps
  entries := by
    intro entry member
    rcases rest.entries entry member with earlier | left
    · exact first.entries entry earlier
    · exact .inr (first.associated ▸ left)
  unresolved := by
    intro change member
    rcases rest.unresolved change member with earlier | left
    · exact first.unresolved change earlier
    · exact .inr (first.associated ▸ left)

end Resumed

theorem samePathSnapshotChange_paths {repository : Repository} {baseCommit headCommit : String}
    {checkpoint snapshot : GitChange}
    (h : samePathSnapshotChange repository baseCommit headCommit checkpoint = .ok (some snapshot)) :
    ∃ path, checkpointChangePaths checkpoint = [path] ∧ snapshot.beforePath = some path ∧
      snapshot.afterPath = some path := by
  rw [samePathSnapshotChange] at h
  split at h
  · cases h
  split at h
  · cases h
  next path before =>
  split at h
  · cases h
  next same =>
  rw [not_or, not_not] at same
  obtain ⟨atBase, _, h⟩ := Result.bind_eq_ok.mp h
  split at h
  · cases h
  obtain ⟨atHead, _, h⟩ := Result.bind_eq_ok.mp h
  split at h
  · cases h
  cases h
  refine ⟨path, ?_, rfl, rfl⟩
  rw [checkpointChangePaths, before, same.1]
  simp

theorem resumeCheckpointChange_resumes (checkpointCommit : String) {index : Nat}
    {checkpointChange : GitChange} (found : checkpointChanges[index]? = some checkpointChange)
    (state : ResumeState) :
    Keeps (ReviewAnalysisContext.Faithful engine.repository)
      (resumeCheckpointChange engine limits review checkpointCommit index checkpointChange state)
      (Resumed checkpointChanges state) := by
  have left : ∀ {path : GitPath} {names : GitPath → Prop},
      path ∈ (checkpointChangePaths checkpointChange).filter
        (fun path => ¬ state.associated.contains (index, path)) →
      (∀ named, names named → named = path) →
        LeftOver checkpointChanges state.associated names := by
    intro path names member only
    obtain ⟨here, free⟩ := List.mem_filter.mp member
    exact ⟨index, checkpointChange, path, found, here, by simpa using free, only⟩
  have fallback : Keeps (ReviewAnalysisContext.Faithful engine.repository)
      (resumeFallback engine limits review checkpointCommit
        ((checkpointChangePaths checkpointChange).filter
          fun path => ¬ state.associated.contains (index, path)) state)
      (Resumed checkpointChanges state) := by
    refine .bind (.lift_bind fun _ _ => .bind (consumeFileVisits_keeps _) fun _ _ =>
      fallbackEntries_for _ _ _ _) fun fallback listed =>
        .pure ⟨rfl, List.subset_append_left _ _, ?_, ?_⟩
    · intro entry member
      rcases List.mem_append.mp member with old | new
      · exact .inl old
      · rcases listed.entries entry new with none | ⟨path, there, only⟩
        · cases none
        · exact .inr (left there only)
    · intro change member
      rcases List.mem_append.mp member with old | new
      · exact .inl old
      · rcases listed.unresolved change new with none | ⟨path, there, display, encoding⟩
        · cases none
        · refine .inr (left there fun named names => ?_)
          obtain ⟨shown, shownEncoding⟩ := names
          have same : named = path := by
            cases named
            cases path
            simp_all
          exact same
  rw [resumeCheckpointChange]
  split
  · exact .pure (.refl _)
  next some_left =>
  refine .bind (consumeFileVisits_keeps _) fun _ _ => .lift_bind fun snapshot taken => ?_
  split
  · exact fallback
  next currentSnapshot =>
  refine .bind (reserveSources_keeps _) fun _ _ =>
    .bind (contextReconstructReviewBaseline_keeps _ _) fun outcome sound => ?_
  split
  · split
    · refine .bind (analyzeChange_keeps _) fun _ _ => .bind .get fun _ _ =>
        .lift_bind fun entry made => .pure ⟨rfl, List.subset_append_left _ _, ?_, fun _ => .inl⟩
      obtain ⟨path, paths, before, after⟩ := samePathSnapshotChange_paths taken
      intro other member
      rcases List.mem_append.mp member with old | new
      · exact .inl old
      · rw [List.mem_singleton.mp new]
        -- The change has one path, and some path of it is left over.
        have shown := reconstructedDeltaEntry_shows (before.trans after.symm) made
        have there : path ∈ (checkpointChangePaths checkpointChange).filter
            (fun path => ¬ state.associated.contains (index, path)) := by
          obtain ⟨some_path, member⟩ := List.exists_mem_of_ne_nil _ some_left
          have only := (List.mem_filter.mp member).1
          rw [paths, List.mem_singleton] at only
          exact only ▸ member
        refine .inr (left there fun named names => ?_)
        rcases mem_checkpointChangePaths.mp (shown.path_of_names names) with old | new
        · exact Option.some.inj (old.symm.trans before)
        · exact Option.some.inj (new.symm.trans after)
    · exact .pure (.refl _)
  · exact fallback

theorem resumeCheckpointChanges_resumes (checkpointCommit : String)
    (remaining : List (GitChange × Nat))
    (found : ∀ entry ∈ remaining, checkpointChanges[entry.2]? = some entry.1)
    (state : ResumeState) :
    Keeps (ReviewAnalysisContext.Faithful engine.repository)
      (resumeCheckpointChanges engine limits review checkpointCommit remaining state)
      (Resumed checkpointChanges state) := by
  induction remaining generalizing state with
  | nil => exact .pure (.refl _)
  | cons entry remaining ih =>
      refine .bind (resumeCheckpointChange_resumes checkpointCommit
        (found entry List.mem_cons_self) state) fun middle first => ?_
      exact (ih (fun later member => found later (List.mem_cons_of_mem _ member)) middle).mono
        fun _ rest => first.trans rest

/-! ## The delta -/

theorem dedupRuns_sublist (changes : List ReviewDeltaUnresolvedChange) :
    (dedupRuns changes).Sublist changes := by
  fun_induction dedupRuns changes with
  | case1 => exact .slnil
  | case2 change => exact .refl _
  | case3 first rest ih => exact ih.cons _
  | case4 first second rest different ih => exact ih.cons_cons _

theorem validateUnresolved_nodup {seen : List String} {changes : List ReviewDeltaUnresolvedChange}
    (h : validateUnresolved seen changes = .ok ()) :
    (changes.map ReviewDeltaUnresolvedChange.path).Nodup ∧
      ∀ change ∈ changes, change.path ∉ seen := by
  induction changes generalizing seen with
  | nil => exact ⟨List.nodup_nil, fun _ member => absurd member List.not_mem_nil⟩
  | cons change changes ih =>
      rw [validateUnresolved] at h
      obtain ⟨_, h⟩ := Result.check_bind_eq_ok.mp h
      obtain ⟨fresh, h⟩ := Result.check_bind_eq_ok.mp h
      obtain ⟨nodup, others⟩ := ih h
      rw [Result.ensure_eq_ok] at fresh
      refine ⟨List.nodup_cons.mpr ⟨fun member => ?_, nodup⟩, ?_⟩
      · obtain ⟨other, there, same⟩ := List.mem_map.mp member
        exact others other there (same ▸ List.mem_cons_self)
      · intro other member
        rcases List.mem_cons.mp member with rfl | later
        · exact fresh.2
        · exact fun earlier => others other later (List.mem_cons_of_mem _ earlier)

theorem ReviewDelta.validate_unresolved {delta : ReviewDelta} (h : delta.validate = .ok ()) :
    validateUnresolved [] delta.unresolvedRetiredChanges = .ok () := by
  rw [ReviewDelta.validate] at h
  obtain ⟨_, h⟩ := Result.check_bind_eq_ok.mp h
  obtain ⟨_, h⟩ := Result.check_bind_eq_ok.mp h
  obtain ⟨_, h⟩ := Result.check_bind_eq_ok.mp h
  obtain ⟨_, h⟩ := Result.check_bind_eq_ok.mp h
  obtain ⟨_, h⟩ := Result.check_bind_eq_ok.mp h
  obtain ⟨_, h⟩ := Result.check_bind_eq_ok.mp h
  obtain ⟨_, h⟩ := Result.check_bind_eq_ok.mp h
  obtain ⟨_, h⟩ := Result.check_bind_eq_ok.mp h
  obtain ⟨_, h⟩ := Result.bind_eq_ok.mp h
  exact h.2

/-- A delta that is valid lists its unresolved paths in order and once. -/
theorem unresolved_ascending {changes : List ReviewDeltaUnresolvedChange}
    (nodup : ((dedupRuns (changes.insertionSort fun left right => left.path ≤ right.path)).map
      ReviewDeltaUnresolvedChange.path).Nodup) :
    (dedupRuns (changes.insertionSort fun left right => left.path ≤ right.path)).Pairwise
      fun left right => left.path < right.path := by
  have ordered : (changes.insertionSort fun left right => left.path ≤ right.path).Pairwise
      fun left right => left.path ≤ right.path := Keyed.sorted_pairwise changes
  have ordered := ordered.sublist (dedupRuns_sublist _)
  exact (ordered.and (List.pairwise_map.mp nodup)).imp fun both => lt_of_le_of_ne both.1 both.2

/-- The review and the delta agree on a current change. -/
structure Agree (engine : Engine) (checkpointChanges : List GitChange) (review : RepositoryReview)
    (delta : ReviewDelta) (change : GitChange) : Prop where
  reviewed : ∃ file ∈ review.files, file.Describes change
  needed : ∀ file ∈ review.files, file.Describes change →
    file.checkpointState = some .needsReviewNow →
      (∃ entry ∈ delta.entries, entry.Shows change) ∨
        ReplayedAlone engine checkpointChanges change
  carried : ∀ file ∈ review.files, file.Describes change →
    file.checkpointState = some .unchangedSinceCheckpoint →
      ∀ path ∈ checkpointChangePaths change, (∀ entry ∈ delta.entries, ¬ entry.Names path) ∧
        ∀ unresolved ∈ delta.unresolvedRetiredChanges, ¬ unresolved.Names path

theorem reviewFileForChange_unique {current : GitChange} {file other : ReviewFile}
    (h : reviewFileForChange review current = .ok file) (member : other ∈ review.files)
    (describes : other.Describes current) : other = file := by
  rw [reviewFileForChange] at h
  have listed : other ∈ review.files.filter fun file => reviewFileMatchesChange file current :=
    List.mem_filter.mpr ⟨member, describes⟩
  split at h
  · cases h
  · next found only =>
    cases h
    rw [only] at listed
    exact List.mem_singleton.mp listed
  · cases h

/-- What the two loops leave is an agreement on every current change. -/
theorem agree_of_loops {currents : List GitChange} {middle state : ResumeState}
    {delta : ReviewDelta} (disjoint : DisjointPaths currents)
    (listed : Listed engine checkpointChanges review currents middle)
    (resumed : Resumed checkpointChanges middle state)
    (entries : ∀ entry, entry ∈ delta.entries ↔ entry ∈ state.entries)
    (unresolved : delta.unresolvedRetiredChanges ⊆ state.unresolved) {change : GitChange}
    (member : change ∈ currents) : Agree engine checkpointChanges review delta change where
  reviewed := by
    obtain ⟨file, found⟩ := listed.found change member
    exact ⟨file, reviewFileForChange_ok found⟩
  needed := by
    intro file there describes state
    obtain ⟨only, found⟩ := listed.found change member
    cases reviewFileForChange_unique found there describes
    rcases listed.needed change member file found (by simp [state]) with ⟨entry, old, shown⟩ | alone
    · exact .inl ⟨entry, (entries entry).mpr (resumed.keeps old), shown⟩
    · exact .inr alone
  carried := by
    intro file there describes unchanged path here
    obtain ⟨only, found⟩ := listed.found change member
    cases reviewFileForChange_unique found there describes
    have left : ∀ {names : GitPath → Prop},
        LeftOver checkpointChanges middle.associated names → ¬ names path := by
      rintro names ⟨index, checkpointChange, lone, at_index, listedPath, free, only'⟩ named
      cases only' path named
      exact free (listed.carried change member file found unchanged index checkpointChange path
        at_index listedPath here)
    refine ⟨fun entry present names => ?_, fun gone present names => ?_⟩
    · rcases resumed.entries entry ((entries entry).mp present) with old | leftOver
      · -- The entry is of another current change, which shares no path.
        obtain ⟨other, otherMember, otherFile, otherFound, needs, shown⟩ :=
          listed.entries entry old
        obtain ⟨i, at_i⟩ := List.getElem?_of_mem member
        obtain ⟨j, at_j⟩ := List.getElem?_of_mem otherMember
        cases disjoint i j change other path at_i at_j here (shown.path_of_names names)
        cases at_i.symm.trans at_j
        cases found.symm.trans otherFound
        exact needs unchanged
      · exact left leftOver names
    · rcases resumed.unresolved gone (unresolved present) with old | leftOver
      · rw [listed.unresolved] at old
        cases old
      · exact left leftOver names

theorem reviewGitResumeDelta_agrees {checkpoint : ReviewCheckpoint}
    (exact : engine.repository.DiffExact) (resumed : review.checkpoint = some checkpoint)
    (moved : checkpoint.baseCommit ≠ review.baseCommit) (carries : review.CarriesOnly engine) :
    Keeps (ReviewAnalysisContext.Faithful engine.repository) (reviewGitResumeDelta engine review)
      fun delta => delta.validate = .ok () ∧
        delta.unresolvedRetiredChanges.Pairwise (fun left right => left.path < right.path) ∧
        ∃ checkpointChanges currentChanges,
          Discovered engine.repository checkpoint.baseCommit checkpoint.commit checkpointChanges ∧
          Discovered engine.repository review.baseCommit review.headCommit currentChanges ∧
          ∀ change ∈ currentChanges, Agree engine checkpointChanges review delta change := by
  obtain ⟨reviewedChanges, reviewed, carried⟩ := carries checkpoint resumed
  rw [reviewGitResumeDelta, resumed]
  refine .lift_bind fun found same => ?_
  rw [Result.ofOption_some, Except.ok.injEq] at same
  cases same
  rw [if_neg moved]
  refine .bind (discoverChanges_keeps _ _) fun checkpointChanges discovered =>
    .bind (discoverChanges_keeps _ _) fun currentChanges current =>
    .bind (consumeFileVisits_keeps _) fun _ _ => .bind (consumeFileVisits_keeps _) fun _ _ =>
    .bind (reserveSources_keeps _) fun _ _ => ?_
  cases reviewed.unique discovered
  have start : Listed engine reviewedChanges review [] ⟨[], [], []⟩ :=
    ⟨fun _ h => absurd h List.not_mem_nil, fun _ h => absurd h List.not_mem_nil,
      fun _ h => absurd h List.not_mem_nil, fun _ h => absurd h List.not_mem_nil, rfl⟩
  refine .bind (resumeCurrentChanges_lists carried (discovered.disjointPaths exact) [] _ start)
    fun middle listed => .bind (resumeCheckpointChanges_resumes _ _
      (fun entry member => List.mem_zipIdx_iff_getElem?.mp member) _) fun state resumed =>
    .lift_bind fun _ valid => .pure ⟨valid, ?_, reviewedChanges, currentChanges, discovered,
      current, fun change member => ?_⟩
  · exact unresolved_ascending (validateUnresolved_nodup (ReviewDelta.validate_unresolved valid)).1
  · refine agree_of_loops (current.disjointPaths exact) listed resumed ?_ ?_ member
    · exact fun entry => List.mem_insertionSort _
    · intro gone present
      exact (List.mem_insertionSort _).mp ((dedupRuns_sublist _).subset present)

/-- Review and resume delta agree over a moved base: a current change that the review says
needs review has an entry, unless the delta replays its only candidate with the bytes of the
head; a change that the review carries has none; and the delta is valid. -/
theorem review_and_delta_agree {headCommit baseCommit : String} {checkpoint : ReviewCheckpoint}
    {delta : ReviewDelta} {context resumeContext : ReviewAnalysisContext}
    (exact : engine.repository.DiffExact) (moved : checkpoint.baseCommit ≠ baseCommit)
    (faithful : context.Faithful engine.repository)
    (reviewed : (outcome (reviewGitRangeWithResolvedBases engine headCommit baseCommit
      (some checkpoint)) context).1 = .ok review)
    (resumeFaithful : resumeContext.Faithful engine.repository)
    (resumed : (outcome (reviewGitResumeDelta engine review) resumeContext).1 = .ok delta) :
    delta.validate = .ok () ∧
      delta.unresolvedRetiredChanges.Pairwise (fun left right => left.path < right.path) ∧
      ∃ checkpointChanges currentChanges,
        Discovered engine.repository checkpoint.baseCommit checkpoint.commit checkpointChanges ∧
        Discovered engine.repository baseCommit headCommit currentChanges ∧
        ∀ change ∈ currentChanges, Agree engine checkpointChanges review delta change := by
  obtain ⟨rfl, rfl, same, carries⟩ :=
    (reviewGitRangeWithResolvedBases_keeps headCommit baseCommit (some checkpoint)).result
      faithful reviewed
  exact (reviewGitResumeDelta_agrees exact same moved carries).result resumeFaithful resumed

end

/-! The same file, and the file as it is when no edit of it has been reviewed. -/

/-- The commits and the object of the file in each; nothing is changed in the review. -/
def unreviewedCommits : List (String × String) :=
  [("1111111111111111111111111111111111111111", "aaaaaaaaaaaaaaaaaaaaaaaaaaaaaaaaaaaaaaaa"),
   ("2222222222222222222222222222222222222222", "aaaaaaaaaaaaaaaaaaaaaaaaaaaaaaaaaaaaaaaa"),
   ("3333333333333333333333333333333333333333", "cccccccccccccccccccccccccccccccccccccccc"),
   ("4444444444444444444444444444444444444444", "dddddddddddddddddddddddddddddddddddddddd")]

def unreviewedTree (commit : String) : Tree :=
  match unreviewedCommits.lookup commit with
  | some objectId => resumedTree objectId
  | none => ∅

def unreviewedEngine : Engine :=
  { resumedEngine with
    repository := { resumedEngine.repository with
      tree := unreviewedTree
      rawDiff := fun before after =>
        if before = after then .ok [] else resumedEngine.repository.rawDiff before after
      lsTree := fun commit pathspec => .ok ((unreviewedTree commit).print (spelled pathspec)) } }

theorem unreviewedEngine_diffExact : unreviewedEngine.repository.DiffExact := by
  intro before after stdout changes listed parsed
  simp only [unreviewedEngine] at listed
  split at listed
  · next same =>
    cases listed
    cases parsed
    exact ⟨[], List.nodup_nil, fun path => by simp [same], rfl⟩
  · exact resumedEngine_diffExact _ _ _ _ listed parsed

def unreviewedReview : Result RepositoryReview :=
  (outcome (reviewGitRangeWithResolvedBases unreviewedEngine
    "4444444444444444444444444444444444444444" "3333333333333333333333333333333333333333"
    (some ⟨"2222222222222222222222222222222222222222",
      "1111111111111111111111111111111111111111"⟩)) .unbounded).1

def unreviewedDelta (review : RepositoryReview) : Result ReviewDelta :=
  (outcome (reviewGitResumeDelta unreviewedEngine review) .unbounded).1

/-- What has become of the file at the head. -/
def headChange : GitChange :=
  movedBaseChange "cccccccccccccccccccccccccccccccccccccccc"
    "dddddddddddddddddddddddddddddddddddddddd"

/-- Whether a change of a review that is resumed has a state. -/
def reviewsAs (state : CheckpointState) (change : GitChange) (review : Result RepositoryReview)
    (resume : RepositoryReview → Result ReviewDelta) : Bool :=
  match review with
  | .error _ => false
  | .ok review =>
      match resume review with
      | .error _ => false
      | .ok _ => review.files.any fun file => reviewFileMatchesChange file change &&
          file.checkpointState = some state

theorem reviewsAs_spec {state : CheckpointState} {change : GitChange}
    {run : Result RepositoryReview} {resume : RepositoryReview → Result ReviewDelta}
    (h : reviewsAs state change run resume = true) :
    ∃ review delta, run = .ok review ∧ resume review = .ok delta ∧
      ∃ file ∈ review.files, file.Describes change ∧ file.checkpointState = some state := by
  cases run with
  | error failure => cases h
  | ok review =>
      rw [reviewsAs.eq_2] at h
      split at h
      · cases h
      · next delta resumed =>
        simp only [List.any_eq_true, Bool.and_eq_true, decide_eq_true_eq] at h
        exact ⟨review, delta, rfl, resumed, h⟩

theorem resumed_discovered : Discovered resumedEngine.repository
    "3333333333333333333333333333333333333333" "4444444444444444444444444444444444444444"
    [headChange] := by
  refine ⟨resumedRawDiff "cccccccccccccccccccccccccccccccccccccccc"
    "dddddddddddddddddddddddddddddddddddddddd", ?_, ?_⟩
  · decide +kernel
  · rw [parseGitChangeOutput, resumedRawDiff_parsed.2]
    decide +kernel

theorem unreviewed_discovered :
    Discovered unreviewedEngine.repository "1111111111111111111111111111111111111111"
        "2222222222222222222222222222222222222222" [] ∧
      Discovered unreviewedEngine.repository "3333333333333333333333333333333333333333"
        "4444444444444444444444444444444444444444" [headChange] := by
  obtain ⟨stdout, listed, parsed⟩ := resumed_discovered
  refine ⟨⟨[], by decide +kernel, rfl⟩, stdout, ?_, parsed⟩
  rw [← listed]
  decide +kernel

/-- The file is carried when its edit was reviewed, and the delta does not name it; when no edit
of it was reviewed it needs review, and the delta has an entry for it. -/
theorem review_and_delta_agree_sample :
    (∃ review delta, resumedReview = .ok review ∧ resumedDelta review = .ok delta ∧
      delta.validate = .ok () ∧
      (∀ entry ∈ delta.entries, ¬ entry.Names ⟨"f", .utf8⟩) ∧
      ∀ unresolved ∈ delta.unresolvedRetiredChanges, ¬ unresolved.Names ⟨"f", .utf8⟩) ∧
    ∃ review delta, unreviewedReview = .ok review ∧ unreviewedDelta review = .ok delta ∧
      delta.validate = .ok () ∧ ∃ entry ∈ delta.entries, entry.Shows headChange := by
  have states : reviewsAs .unchangedSinceCheckpoint headChange resumedReview resumedDelta = true ∧
      reviewsAs .needsReviewNow headChange unreviewedReview unreviewedDelta = true := by
    decide +kernel
  constructor
  · obtain ⟨review, delta, reviewed, resumed, file, member, describes, carried⟩ :=
      reviewsAs_spec states.1
    refine ⟨review, delta, reviewed, resumed, ?_⟩
    rw [resumedReview] at reviewed
    have unbounded := ReviewAnalysisContext.Faithful.unbounded resumedEngine.repository
    obtain ⟨valid, _, _, currentChanges, _, current, agrees⟩ := review_and_delta_agree
      resumedEngine_diffExact (by decide) unbounded reviewed unbounded resumed
    obtain rfl := current.unique resumed_discovered
    have agree := agrees headChange List.mem_cons_self
    exact ⟨valid, agree.carried file member describes carried _ (by decide)⟩
  · obtain ⟨review, delta, reviewed, resumed, file, member, describes, needed⟩ :=
      reviewsAs_spec states.2
    refine ⟨review, delta, reviewed, resumed, ?_⟩
    rw [unreviewedReview] at reviewed
    have unbounded := ReviewAnalysisContext.Faithful.unbounded unreviewedEngine.repository
    obtain ⟨valid, _, checkpointChanges, currentChanges, old, current, agrees⟩ :=
      review_and_delta_agree unreviewedEngine_diffExact (by decide) unbounded reviewed unbounded
        resumed
    obtain rfl := old.unique unreviewed_discovered.1
    obtain rfl := current.unique unreviewed_discovered.2
    have agree := agrees headChange List.mem_cons_self
    rcases agree.needed file member describes needed with entry | ⟨_, _, candidate, _⟩
    · exact ⟨valid, entry⟩
    · cases candidate

/-! The same file, reviewed in a context that has loaded four changes of large files before,
and resumed in a new one. -/

/-- Eight objects of the largest size that is analyzed. -/
def largeObjects : List (String × Bytes) :=
  ["10", "20", "30", "40", "50", "60", "70", "80"].zipIdx.map fun entry =>
    (entry.1 ++ "00000000000000000000000000000000000000",
      List.replicate VerificationLimits.default.maxSourceBytes (UInt8.ofNat (97 + entry.2)))

/-- The loader of a review after these objects. -/
def spentLoader : BlobLoader :=
  { BlobLoader.default with
    sizes := largeObjects.map fun entry => (entry.1, VerificationLimits.default.maxSourceBytes)
    bytes := largeObjects
    structuralOids := largeObjects.map Prod.fst
    structuralSourceBytes := largeObjects.length * VerificationLimits.default.maxSourceBytes }

def spentContext : ReviewAnalysisContext :=
  { ReviewAnalysisContext.unbounded with blobLoader := spentLoader }

/-- The repository of the sample with the large objects. -/
def crowdedEngine : Engine :=
  { resumedEngine with
    repository := { resumedEngine.repository with
      objectSize := fun objectId => match largeObjects.lookup objectId with
        | some _ => .ok VerificationLimits.default.maxSourceBytes
        | none => resumedEngine.repository.objectSize objectId
      objectBytes := fun objectId => match largeObjects.lookup objectId with
        | some bytes => .ok bytes
        | none => resumedEngine.repository.objectBytes objectId } }

theorem spentContext_faithful : spentContext.Faithful crowdedEngine.repository := by
  have unbounded := ReviewAnalysisContext.Faithful.unbounded crowdedEngine.repository
  refine ⟨fun objectId bytes cached => ?_, unbounded.changes, unbounded.files⟩
  change largeObjects.lookup objectId = some bytes at cached
  simp only [crowdedEngine, cached]

def crowdedReview : Result RepositoryReview :=
  (outcome (reviewGitRangeWithResolvedBases crowdedEngine
    "4444444444444444444444444444444444444444" "3333333333333333333333333333333333333333"
    (some ⟨"2222222222222222222222222222222222222222",
      "1111111111111111111111111111111111111111"⟩)) spentContext).1

def crowdedDelta (review : RepositoryReview) : Result ReviewDelta :=
  (outcome (reviewGitResumeDelta crowdedEngine review) .unbounded).1

/-- Whether a change needs review while the delta that resumes the review lists nothing. -/
def missesEntry (change : GitChange) (review : Result RepositoryReview)
    (resume : RepositoryReview → Result ReviewDelta) : Bool :=
  match review with
  | .error _ => false
  | .ok review =>
      match resume review with
      | .error _ => false
      | .ok delta => delta.entries.isEmpty && delta.unresolvedRetiredChanges.isEmpty &&
          review.files.any fun file => reviewFileMatchesChange file change &&
            file.checkpointState = some .needsReviewNow

theorem missesEntry_spec {change : GitChange} {run : Result RepositoryReview}
    {resume : RepositoryReview → Result ReviewDelta} (h : missesEntry change run resume = true) :
    ∃ review delta, run = .ok review ∧ resume review = .ok delta ∧ delta.entries = [] ∧
      delta.unresolvedRetiredChanges = [] ∧ ∃ file ∈ review.files, file.Describes change ∧
        file.checkpointState = some .needsReviewNow := by
  cases run with
  | error failure => cases h
  | ok review =>
      rw [missesEntry.eq_2] at h
      split at h
      · cases h
      · next delta resumed =>
        simp only [Bool.and_eq_true, List.isEmpty_iff, List.any_eq_true, decide_eq_true_eq] at h
        obtain ⟨⟨entries, unresolved⟩, file, member, describes, state⟩ := h
        exact ⟨review, delta, rfl, resumed, entries, unresolved, file, member, describes, state⟩

/-- A change that needs review has no entry: the review has used up its aggregate source
budget, and the delta, with a budget of its own, replays the change. -/
theorem needed_without_entry : crowdedEngine.repository.DiffExact ∧
    spentContext.Faithful crowdedEngine.repository ∧
    ∃ review delta change, crowdedReview = .ok review ∧ crowdedDelta review = .ok delta ∧
      Discovered crowdedEngine.repository "3333333333333333333333333333333333333333"
        "4444444444444444444444444444444444444444" [change] ∧
      (∃ file ∈ review.files, file.Describes change ∧
        file.checkpointState = some .needsReviewNow) ∧
      (¬ ∃ entry ∈ delta.entries, entry.Shows change) ∧
      ∀ path ∈ checkpointChangePaths change,
        ¬ ∃ unresolved ∈ delta.unresolvedRetiredChanges, unresolved.Names path := by
  refine ⟨resumedEngine_diffExact, spentContext_faithful, ?_⟩
  have misses : missesEntry headChange crowdedReview crowdedDelta = true := by decide +kernel
  obtain ⟨review, delta, reviewed, resumed, entries, unresolved, file⟩ := missesEntry_spec misses
  refine ⟨review, delta, _, reviewed, resumed, resumed_discovered, file, ?_, ?_⟩
  · rw [entries]
    rintro ⟨entry, member, _⟩
    cases member
  · rw [unresolved]
    rintro path _ ⟨gone, member, _⟩
    cases member

end Stratadiff
