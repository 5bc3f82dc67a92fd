import Stratadiff.Git.Change

/-!
# Trees and what the code asks Git for

A tree is a finite map from a path to the mode and the object recorded there.
The repository is only read through Git, so it is a record of answers: the tree
of a commit, the raw diff of two trees, the listing of a path, the size and the bytes of
an object. The raw diff is text; `ListsDifferences` is what it says once it is parsed.
-/

namespace Stratadiff

structure GitTreeEntry where
  mode : String
  objectId : String
  deriving DecidableEq, Repr

/-- The files of a commit. -/
abbrev Tree := Finmap fun _ : Bytes => GitTreeEntry

namespace Tree

def get (tree : Tree) (path : Bytes) : Option GitTreeEntry := tree.lookup path

theorem ext_get {left right : Tree} (h : ∀ path, left.get path = right.get path) : left = right :=
  Finmap.ext_lookup h

end Tree

structure Repository where
  /-- The tree of a commit. -/
  tree : String → Tree
  /-- `git diff --raw -z --no-renames`. -/
  rawDiff : Tree → Tree → Except String Bytes
  /-- `git ls-tree -z --full-tree`, for a commit and a pathspec. -/
  lsTree : String → Bytes → Except String Bytes
  /-- `git cat-file -s`. -/
  objectSize : String → Except String Nat
  /-- `git cat-file blob`. -/
  objectBytes : String → Except String Bytes

section

variable {ρ : Type} (parsePath : Bytes → ρ)

/-- The part of a mode that tells files, links and gitlinks apart. -/
def fileType (mode : String) : List Char := mode.toList.take 3

def rawStatus : Option GitTreeEntry → Option GitTreeEntry → FileStatus
  | none, _ => .added
  | some _, none => .deleted
  | some before, some after =>
      if fileType before.mode = fileType after.mode then .modified else .typeChanged

/-- The record of one path that differs between two trees. -/
def rawChange (before after : Tree) (path : Bytes) : Change ρ where
  status := rawStatus (before.get path) (after.get path)
  similarityPercent := none
  beforePath := (before.get path).map fun _ => parsePath path
  afterPath := (after.get path).map fun _ => parsePath path
  beforeMode := (before.get path).map GitTreeEntry.mode
  afterMode := (after.get path).map GitTreeEntry.mode
  beforeBlob := (before.get path).map GitTreeEntry.objectId
  afterBlob := (after.get path).map GitTreeEntry.objectId

/-- The records of a raw diff are those of the paths that differ, each listed once. -/
def ListsDifferences (before after : Tree) (changes : List (Change ρ)) : Prop :=
  ∃ paths : List Bytes, paths.Nodup ∧ (∀ path, path ∈ paths ↔ before.get path ≠ after.get path) ∧
    changes = paths.map (rawChange parsePath before after)

end

section

variable {ρ : Type} {parsePath : Bytes → ρ} {before after : Tree} {changes : List (Change ρ)}

theorem rawChange_added {path : Bytes}
    (h : (rawChange parsePath before after path).status = .added) : before.get path = none := by
  simp only [rawChange] at h
  unfold rawStatus at h
  split at h
  · assumption
  · cases h
  · split at h <;> cases h

theorem rawChange_deleted {path : Bytes}
    (h : (rawChange parsePath before after path).status = .deleted) : after.get path = none := by
  simp only [rawChange] at h
  unfold rawStatus at h
  split at h
  · cases h
  · assumption
  · split at h <;> cases h

/-- Pairing deletions with additions keeps what the records say of the old sides. -/
theorem ListsDifferences.before_perm {β : Type}
    (h : ListsDifferences parsePath before after changes)
    (side : Option ρ → Option String → Option String → Option β)
    (absent : ∀ mode blob, side none mode blob = none) :
    ((pairRelocations changes).filterMap fun change =>
        side change.beforePath change.beforeMode change.beforeBlob).Perm
      (changes.filterMap fun change =>
        side change.beforePath change.beforeMode change.beforeBlob) := by
  obtain ⟨paths, _, _, rfl⟩ := h
  refine pairRelocations_perm _ ?_
  intro deleted _ added member _ addition
  obtain ⟨path, _, rfl⟩ := List.mem_map.mp member
  have none := rawChange_added addition
  simp [relocation, rawChange, none, absent]

theorem ListsDifferences.after_perm {β : Type} (h : ListsDifferences parsePath before after changes)
    (side : Option ρ → Option String → Option String → Option β)
    (absent : ∀ mode blob, side none mode blob = none) :
    ((pairRelocations changes).filterMap fun change =>
        side change.afterPath change.afterMode change.afterBlob).Perm
      (changes.filterMap fun change =>
        side change.afterPath change.afterMode change.afterBlob) := by
  obtain ⟨paths, _, _, rfl⟩ := h
  refine pairRelocations_perm _ ?_
  intro deleted member added _ deletion _
  obtain ⟨path, _, rfl⟩ := List.mem_map.mp member
  have none := rawChange_deleted deletion
  simp [relocation, rawChange, none, absent]

/-- The old paths of the changes are files of the old tree. -/
theorem ListsDifferences.held_before (h : ListsDifferences parsePath before after changes)
    {path : ρ} (member : path ∈ (pairRelocations changes).filterMap Change.beforePath) :
    ∃ file, before.get file ≠ none ∧ parsePath file = path := by
  have listed := (h.before_perm (fun path _ _ => path) fun _ _ => rfl).mem_iff.mp member
  obtain ⟨paths, _, _, rfl⟩ := h
  obtain ⟨_, there, found⟩ := List.mem_filterMap.mp listed
  obtain ⟨file, _, rfl⟩ := List.mem_map.mp there
  obtain ⟨entry, held, rfl⟩ := Option.map_eq_some_iff.mp found
  exact ⟨file, by simp [held], rfl⟩

/-- The new paths of the changes are files of the new tree. -/
theorem ListsDifferences.held_after (h : ListsDifferences parsePath before after changes)
    {path : ρ} (member : path ∈ (pairRelocations changes).filterMap Change.afterPath) :
    ∃ file, after.get file ≠ none ∧ parsePath file = path := by
  have listed := (h.after_perm (fun path _ _ => path) fun _ _ => rfl).mem_iff.mp member
  obtain ⟨paths, _, _, rfl⟩ := h
  obtain ⟨_, there, found⟩ := List.mem_filterMap.mp listed
  obtain ⟨file, _, rfl⟩ := List.mem_map.mp there
  obtain ⟨entry, held, rfl⟩ := Option.map_eq_some_iff.mp found
  exact ⟨file, by simp [held], rfl⟩

/-- No path is changed twice. -/
theorem ListsDifferences.beforePath_nodup (h : ListsDifferences parsePath before after changes)
    (injective : Function.Injective parsePath) :
    ((pairRelocations changes).filterMap Change.beforePath).Nodup := by
  refine (h.before_perm (fun path _ _ => path) (fun _ _ => rfl)).nodup_iff.mpr ?_
  obtain ⟨paths, nodup, _, rfl⟩ := h
  rw [List.filterMap_map]
  refine nodup.filterMap ?_
  intro path path' shared left right
  simp only [Function.comp, rawChange, Option.mem_def, Option.map_eq_some_iff] at left right
  obtain ⟨_, _, rfl⟩ := left
  obtain ⟨_, _, same⟩ := right
  exact (injective same).symm

/-- Every change is a change of some path. -/
theorem ListsDifferences.path_of_mem (h : ListsDifferences parsePath before after changes)
    {change : Change ρ} (member : change ∈ pairRelocations changes) :
    change.beforePath ≠ none ∨ change.afterPath ≠ none := by
  obtain ⟨paths, _, differ, rfl⟩ := h
  let pathless (change : Change ρ) : Option Unit :=
    if change.beforePath = none ∧ change.afterPath = none then some () else none
  have listed : ∀ path ∈ paths, pathless (rawChange parsePath before after path) = none := by
    intro path member
    have different := (differ path).mp member
    simp only [pathless, rawChange, Option.map_eq_none_iff, ite_eq_right_iff, reduceCtorEq,
      imp_false, not_and]
    intro absent present
    exact different (absent.trans present.symm)
  have paired : ((pairRelocations (paths.map (rawChange parsePath before after))).filterMap
      pathless).Perm ((paths.map (rawChange parsePath before after)).filterMap pathless) := by
    refine pairRelocations_perm pathless ?_
    intro deleted deletedMember added addedMember deletion _
    obtain ⟨old, oldMember, rfl⟩ := List.mem_map.mp deletedMember
    obtain ⟨new, newMember, rfl⟩ := List.mem_map.mp addedMember
    have gone := rawChange_deleted deletion
    have present : before.get old ≠ none := fun absent =>
      (differ old).mp oldMember (absent.trans gone.symm)
    rw [listed old oldMember, listed new newMember]
    simp [pathless, relocation, rawChange, present]
  have none : (paths.map (rawChange parsePath before after)).filterMap pathless = [] := by
    rw [List.filterMap_map, List.filterMap_eq_nil_iff]
    exact listed
  rw [none, List.perm_nil, List.filterMap_eq_nil_iff] at paired
  have found := paired change member
  by_contra absent
  push Not at absent
  simp [pathless, absent] at found

/-- Trees without a paired change do not differ. -/
theorem ListsDifferences.eq_of_pairRelocations_nil
    (h : ListsDifferences parsePath before after changes) (none : pairRelocations changes = [])
    (path : Bytes) : before.get path = after.get path := by
  have old := h.before_perm (fun path _ _ => path) (fun _ _ => rfl)
  have new := h.after_perm (fun path _ _ => path) (fun _ _ => rfl)
  obtain ⟨paths, _, differ, rfl⟩ := h
  rw [none, List.filterMap_nil, List.nil_perm] at old new
  by_contra different
  have member : rawChange parsePath before after path ∈
      paths.map (rawChange parsePath before after) :=
    List.mem_map_of_mem ((differ path).mpr different)
  have noOld := List.filterMap_eq_nil_iff.mp old _ member
  have noNew := List.filterMap_eq_nil_iff.mp new _ member
  simp only [rawChange, Option.map_eq_none_iff] at noOld noNew
  exact different (noOld.trans noNew.symm)

end

end Stratadiff
