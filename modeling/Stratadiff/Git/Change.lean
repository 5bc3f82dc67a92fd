import Stratadiff.Core.Patch
import Stratadiff.Lib.Fallible

/-!
# Changes between two Git trees

The records of `git diff --raw -z --no-renames`, their parser, and the pairing of
a deletion with an addition of the same object into a relocation. `review.rs` and
`review_cache.rs` each carry a copy of this code that differs in how a path is
read, in the wording of its failures and in two more checks on a header; the shared
definitions take these as parameters.
-/

namespace Stratadiff

inductive FileStatus where
  | added
  | copied
  | deleted
  | modified
  | renamed
  | typeChanged
  deriving DecidableEq, Repr

/-- The order of the statuses. -/
def fileStatusRank : FileStatus → Nat
  | .added => 0
  | .copied => 1
  | .deleted => 2
  | .modified => 3
  | .renamed => 4
  | .typeChanged => 5

/-- A change of one file, with the two sides as the trees record them. -/
structure Change (ρ : Type) where
  status : FileStatus
  similarityPercent : Option Nat
  beforePath : Option ρ
  afterPath : Option ρ
  beforeMode : Option String
  afterMode : Option String
  beforeBlob : Option String
  afterBlob : Option String
  deriving DecidableEq, Repr

/-! ## Text -/

def utf8? (bytes : Bytes) : Option String := String.fromUTF8? ⟨bytes.toArray⟩

def isAsciiWhitespace (c : Char) : Bool :=
  c = ' ' || c = '\t' || c = '\n' || c = '\x0c' || c = '\r'

/-- `split_ascii_whitespace`: the words of a text. -/
def asciiWords (text : String) : List String :=
  ((text.toList.splitOnP isAsciiWhitespace).filter (fun word => word ≠ [])).map String.ofList

/-- `nonzero`: a column of zeros stands for an absent side. -/
def nonzero (value : String) : Option String :=
  if value.toList.all (fun c => c = '0') then none else some value

def isAsciiHexdigit (c : Char) : Bool :=
  c.isDigit || ('a' ≤ c ∧ c ≤ 'f') || ('A' ≤ c ∧ c ≤ 'F')

/-- `str::parse::<u8>`: an optional plus sign and decimal digits, at most 255. -/
def parseU8 (digits : List Char) : Option Nat :=
  let digits := match digits with
    | '+' :: rest => rest
    | _ => digits
  if digits ≠ [] ∧ digits.all Char.isDigit then
    let value := digits.foldl (fun value c => value * 10 + (c.toNat - '0'.toNat)) 0
    if value ≤ 255 then some value else none
  else none

/-! ## Records -/

/-- What one header of the raw diff says. -/
structure RawHeader where
  beforeMode : Option String
  afterMode : Option String
  beforeBlob : Option String
  afterBlob : Option String
  status : FileStatus
  similarityPercent : Option Nat

/-- The points in which the two copies of the parser differ. -/
structure RawDiffFormat (ρ : Type) where
  /-- `next_path`, on a field that is there. -/
  nextPath : Bytes → Result ρ
  missingPath : String
  checkHeader : Option String → Option String → Option String → Option String → Result Unit
  parseSimilarity : List Char → Result Nat
  recordName : String
  maxChanges : Nat
  limitMessage : Nat → String

section

variable {ρ : Type} (format : RawDiffFormat ρ)

def parseStatus (statusText : String) : Result (FileStatus × Option Nat) :=
  match statusText.toList with
  | [] => .error (.invalid "missing git diff status")
  | 'A' :: _ => .ok (.added, none)
  | 'C' :: rest => do return (.copied, some (← format.parseSimilarity ('C' :: rest)))
  | 'D' :: _ => .ok (.deleted, none)
  | 'M' :: _ => .ok (.modified, none)
  | 'R' :: rest => do return (.renamed, some (← format.parseSimilarity ('R' :: rest)))
  | 'T' :: _ => .ok (.typeChanged, none)
  | _ => .error (.invalid s!"unsupported git diff status: {statusText}")

def parseHeader (header : Bytes) : Result RawHeader := do
  let header ← Result.ofOption (.invalid "git diff header is not UTF-8") (utf8? header)
  match asciiWords header with
  | [prefixed, after, beforeId, afterId, statusText] => do
      let before ← match prefixed.toList with
        | ':' :: mode => .ok (String.ofList mode)
        | _ => .error (.invalid "missing git mode prefix")
      let beforeMode := nonzero before
      let afterMode := nonzero after
      let beforeBlob := nonzero beforeId
      let afterBlob := nonzero afterId
      format.checkHeader beforeMode afterMode beforeBlob afterBlob
      let (status, similarityPercent) ← parseStatus format statusText
      return ⟨beforeMode, afterMode, beforeBlob, afterBlob, status, similarityPercent⟩
  | _ => .error (.invalid s!"unexpected git raw diff header: {header}")

def consistentMetadata (header : RawHeader) : Result Unit :=
  let recordName := format.recordName
  match header.status with
  | .added => .ensure (header.beforeMode = none ∧ header.beforeBlob = none ∧
      header.afterMode ≠ none ∧ header.afterBlob ≠ none)
      (.invalid s!"added {recordName} has inconsistent object metadata")
  | .deleted => .ensure (header.beforeMode ≠ none ∧ header.beforeBlob ≠ none ∧
      header.afterMode = none ∧ header.afterBlob = none)
      (.invalid s!"deleted {recordName} has inconsistent object metadata")
  | _ => .ensure (header.beforeMode ≠ none ∧ header.beforeBlob ≠ none ∧
      header.afterMode ≠ none ∧ header.afterBlob ≠ none)
      (.invalid s!"paired {recordName} has inconsistent object metadata")

/-- The end of one round of the parser's loop: check the record and push it. -/
def pushChange (header : RawHeader) (beforePath afterPath : Option ρ)
    (changes : List (Change ρ)) : Result (List (Change ρ)) := do
  consistentMetadata format header
  let changes := changes ++ [⟨header.status, header.similarityPercent, beforePath, afterPath,
    header.beforeMode, header.afterMode, header.beforeBlob, header.afterBlob⟩]
  Result.ensure (changes.length ≤ format.maxChanges)
    (.limit (format.limitMessage changes.length))
  return changes

def parseRecords : List Bytes → List (Change ρ) → Result (List (Change ρ))
  | [], changes => .ok changes
  | [] :: fields, changes => do
      Result.ensure (fields = []) (.invalid "unexpected empty git diff record")
      return changes
  | (b :: bs) :: fields, changes => do
      let header ← parseHeader format (b :: bs)
      match fields with
      | [] => .error (.invalid format.missingPath)
      | first :: fields => do
          let firstPath ← format.nextPath first
          match header.status with
          | .added => do
              let changes ← pushChange format header none (some firstPath) changes
              parseRecords fields changes
          | .deleted => do
              let changes ← pushChange format header (some firstPath) none changes
              parseRecords fields changes
          | .modified | .typeChanged => do
              let changes ← pushChange format header (some firstPath) (some firstPath) changes
              parseRecords fields changes
          | .copied | .renamed =>
              match fields with
              | [] => .error (.invalid format.missingPath)
              | second :: fields => do
                  let secondPath ← format.nextPath second
                  let changes ← pushChange format header (some firstPath) (some secondPath)
                    changes
                  parseRecords fields changes

/-- `parse_raw_diff`: the fields of the output are separated by NUL. -/
def parseRawDiffWith (bytes : Bytes) : Result (List (Change ρ)) :=
  parseRecords format (bytes.splitOn 0) []

end

/-! ## Relocations -/

section

variable {ρ : Type}

/-- The object that a deletion leaves behind or an addition brings, with its mode. -/
def relocationKey (change : Change ρ) : Option (String × String) :=
  match change.status with
  | .deleted => do return (← change.beforeBlob, ← change.beforeMode)
  | .added => do return (← change.afterBlob, ← change.afterMode)
  | _ => none

/-- The indices of the deletions and of the additions of one object. -/
def relocationCandidates (changes : List (Change ρ)) (key : String × String) :
    List Nat × List Nat :=
  let having (status : FileStatus) := (List.range changes.length).filter fun index =>
    (changes[index]?.any fun change => change.status = status ∧ relocationKey change = some key)
  (having .deleted, having .added)

/-- Objects that are deleted once and added once. -/
def relocationPairs (changes : List (Change ρ)) : List (Nat × Nat) :=
  (changes.filterMap relocationKey).dedup.filterMap fun key =>
    match relocationCandidates changes key with
    | ([deleted], [added]) => some (deleted, added)
    | _ => none

def relocation (deleted added : Change ρ) : Change ρ where
  status := .renamed
  similarityPercent := some 100
  beforePath := deleted.beforePath
  afterPath := added.afterPath
  beforeMode := deleted.beforeMode
  afterMode := added.afterMode
  beforeBlob := deleted.beforeBlob
  afterBlob := added.afterBlob

/-- Take both changes out and put the relocation at the smaller index. -/
def relocate (changes : List (Option (Change ρ))) (pair : Nat × Nat) :
    List (Option (Change ρ)) :=
  match changes[pair.1]?, changes[pair.2]? with
  | some (some deleted), some (some added) =>
      ((changes.set pair.1 none).set pair.2 none).set (min pair.1 pair.2)
        (some (relocation deleted added))
  | _, _ => changes

def pairRelocations (changes : List (Change ρ)) : List (Change ρ) :=
  ((relocationPairs changes).foldl relocate (changes.map some)).filterMap id

/-! ## What the pairing keeps -/

section

open scoped List

variable {α β : Type} {g : α → Option β}

theorem filterMap_set_perm {xs : List α} {i : Nat} {x u : α} (hx : xs[i]? = some x) :
    ((g x).toList ++ (xs.set i u).filterMap g).Perm ((g u).toList ++ xs.filterMap g) := by
  obtain ⟨hi, rfl⟩ := List.getElem?_eq_some_iff.mp hx
  have front (y : α) (ys : List α) : (y :: ys).filterMap g = (g y).toList ++ ys.filterMap g := by
    cases h : g y <;> simp [h]
  have whole : xs = xs.take i ++ xs[i] :: xs.drop (i + 1) := by
    rw [← List.drop_eq_getElem_cons hi, List.take_append_drop]
  have after : (xs.set i u).filterMap g =
      (xs.take i).filterMap g ++ ((g u).toList ++ (xs.drop (i + 1)).filterMap g) := by
    rw [List.set_eq_take_append_cons_drop, if_pos hi, List.filterMap_append, front]
  have before : xs.filterMap g =
      (xs.take i).filterMap g ++ ((g xs[i]).toList ++ (xs.drop (i + 1)).filterMap g) := by
    conv_lhs => rw [whole]
    rw [List.filterMap_append, front]
  rw [after, before]
  simp only [← List.append_assoc]
  refine List.Perm.append_right _ ?_
  calc (g xs[i]).toList ++ (xs.take i).filterMap g ++ (g u).toList
      ~ (g u).toList ++ ((g xs[i]).toList ++ (xs.take i).filterMap g) := List.perm_append_comm
    _ ~ (g u).toList ++ ((xs.take i).filterMap g ++ (g xs[i]).toList) :=
        List.perm_append_comm.append_left _
    _ ~ (g u).toList ++ (xs.take i).filterMap g ++ (g xs[i]).toList := by
        rw [List.append_assoc]

/-- Replacing two items by two others that contribute the same values. -/
theorem filterMap_set_set_perm {xs : List α} {i j : Nat} {x y u v : α} (hij : i ≠ j)
    (hx : xs[i]? = some x) (hy : xs[j]? = some y)
    (same : ((g u).toList ++ (g v).toList).Perm ((g x).toList ++ (g y).toList)) :
    (((xs.set i u).set j v).filterMap g).Perm (xs.filterMap g) := by
  have first := filterMap_set_perm (g := g) (u := u) hx
  have second := filterMap_set_perm (g := g) (u := v)
    (show (xs.set i u)[j]? = some y by rw [List.getElem?_set_ne hij, hy])
  refine (List.perm_append_left_iff ((g x).toList ++ (g y).toList)).mp ?_
  calc (g x).toList ++ (g y).toList ++ ((xs.set i u).set j v).filterMap g
      ~ (g x).toList ++ ((g v).toList ++ (xs.set i u).filterMap g) := by
        rw [List.append_assoc]
        exact second.append_left _
    _ ~ (g v).toList ++ ((g x).toList ++ (xs.set i u).filterMap g) := by
        rw [← List.append_assoc, ← List.append_assoc]
        exact List.perm_append_comm.append_right _
    _ ~ (g v).toList ++ ((g u).toList ++ xs.filterMap g) := first.append_left _
    _ ~ (g x).toList ++ (g y).toList ++ xs.filterMap g := by
        rw [← List.append_assoc]
        exact (List.perm_append_comm.trans same).append_right _

end

/-- Two relocations that use four different records. -/
def SeparatePairs (p q : Nat × Nat) : Prop := p.1 ≠ q.1 ∧ p.2 ≠ q.2 ∧ p.1 ≠ q.2 ∧ p.2 ≠ q.1

/-- What a relocation is made of: one deletion and one addition of the same object. -/
structure RelocationOf (changes : List (Change ρ)) (key : String × String) (pair : Nat × Nat)
    (deleted added : Change ρ) : Prop where
  deletedAt : changes[pair.1]? = some deleted
  addedAt : changes[pair.2]? = some added
  deletion : deleted.status = .deleted
  addition : added.status = .added
  deletedKey : relocationKey deleted = some key
  addedKey : relocationKey added = some key

theorem RelocationOf.different {changes : List (Change ρ)} {key : String × String}
    {pair : Nat × Nat} {deleted added : Change ρ}
    (relocation : RelocationOf changes key pair deleted added) : pair.1 ≠ pair.2 := by
  intro equal
  have both := relocation.addedAt
  rw [← equal, relocation.deletedAt, Option.some.injEq] at both
  have status := relocation.deletion
  rw [both, relocation.addition] at status
  cases status

theorem relocationPair_of {changes : List (Change ρ)} {key : String × String} {pair : Nat × Nat}
    (h : (match relocationCandidates changes key with
      | ([deleted], [added]) => some (deleted, added)
      | _ => none) = some pair) :
    ∃ deleted added, RelocationOf changes key pair deleted added := by
  split at h
  · next deletedIndex addedIndex candidates =>
    cases h
    simp only [relocationCandidates, Prod.mk.injEq] at candidates
    have first : deletedIndex ∈ [deletedIndex] := by simp
    have second : addedIndex ∈ [addedIndex] := by simp
    rw [← candidates.1, List.mem_filter, Option.any_eq_true] at first
    rw [← candidates.2, List.mem_filter, Option.any_eq_true] at second
    obtain ⟨_, deleted, deletedAt, isDeleted⟩ := first
    obtain ⟨_, added, addedAt, isAdded⟩ := second
    simp only [decide_eq_true_eq] at isDeleted isAdded
    exact ⟨deleted, added, deletedAt, addedAt, isDeleted.1, isAdded.1, isDeleted.2, isAdded.2⟩
  · cases h

theorem relocationPairs_mem {changes : List (Change ρ)} {pair : Nat × Nat}
    (h : pair ∈ relocationPairs changes) :
    ∃ key deleted added, RelocationOf changes key pair deleted added := by
  obtain ⟨key, _, found⟩ := List.mem_filterMap.mp h
  exact ⟨key, relocationPair_of found⟩

/-- A record has one key, so the relocations of two objects share none. -/
theorem RelocationOf.separate {changes : List (Change ρ)} {key key' : String × String}
    {p q : Nat × Nat} {d a d' a' : Change ρ} (first : RelocationOf changes key p d a)
    (second : RelocationOf changes key' q d' a') (different : key ≠ key') : SeparatePairs p q := by
  have apart : ∀ {i j : Nat} {c c' : Change ρ}, changes[i]? = some c → changes[j]? = some c' →
      relocationKey c = some key → relocationKey c' = some key' → i ≠ j := by
    rintro i j c c' hi hj hc hc' rfl
    rw [hi, Option.some.injEq] at hj
    rw [← hj, hc, Option.some.injEq] at hc'
    exact different hc'
  exact ⟨apart first.deletedAt second.deletedAt first.deletedKey second.deletedKey,
    apart first.addedAt second.addedAt first.addedKey second.addedKey,
    apart first.deletedAt second.addedAt first.deletedKey second.addedKey,
    apart first.addedAt second.deletedAt first.addedKey second.deletedKey⟩

/-- A record is relocated at most once: every key is visited once. -/
theorem relocationPairs_separate (changes : List (Change ρ)) :
    (relocationPairs changes).Pairwise SeparatePairs := by
  refine List.Pairwise.filterMap _ ?_ (List.nodup_dedup _)
  intro key key' different p hp q hq
  obtain ⟨d, a, first⟩ := relocationPair_of hp
  obtain ⟨d', a', second⟩ := relocationPair_of hq
  exact first.separate second different

variable {β : Type} {side : Change ρ → Option β}

theorem relocate_perm {state : List (Option (Change ρ))} {pair : Nat × Nat}
    {deleted added : Change ρ} (different : pair.1 ≠ pair.2)
    (hd : state[pair.1]? = some (some deleted)) (ha : state[pair.2]? = some (some added))
    (same : ((side (relocation deleted added)).toList).Perm
      ((side deleted).toList ++ (side added).toList)) :
    ((relocate state pair).filterMap (fun change => change.bind side)).Perm
      (state.filterMap fun change => change.bind side) := by
  simp only [relocate, hd, ha]
  rcases Nat.lt_or_gt_of_ne different with less | greater
  · rw [Nat.min_eq_left (Nat.le_of_lt less), List.set_comm _ _ different.symm, List.set_set]
    exact filterMap_set_set_perm different hd ha (by simpa using same)
  · rw [Nat.min_eq_right (Nat.le_of_lt greater), List.set_set]
    exact filterMap_set_set_perm different hd ha (by simpa using same)

/-- Records that a relocation does not use stay where they are. -/
theorem relocate_getElem? {state : List (Option (Change ρ))} {pair : Nat × Nat} {i : Nat}
    (first : i ≠ pair.1) (second : i ≠ pair.2) : (relocate state pair)[i]? = state[i]? := by
  unfold relocate
  split
  · have least : i ≠ min pair.1 pair.2 := by omega
    rw [List.getElem?_set_ne least.symm, List.getElem?_set_ne second.symm,
      List.getElem?_set_ne first.symm]
  · rfl

theorem foldl_relocate_perm {pairs : List (Nat × Nat)} (side : Change ρ → Option β)
    (state : List (Option (Change ρ)))
    (separate : pairs.Pairwise SeparatePairs)
    (present : ∀ pair ∈ pairs, ∃ deleted added, pair.1 ≠ pair.2 ∧
      state[pair.1]? = some (some deleted) ∧ state[pair.2]? = some (some added) ∧
      ((side (relocation deleted added)).toList).Perm
        ((side deleted).toList ++ (side added).toList)) :
    ((pairs.foldl relocate state).filterMap (fun change => change.bind side)).Perm
      (state.filterMap fun change => change.bind side) := by
  induction pairs generalizing state with
  | nil => exact .refl _
  | cons pair pairs ih =>
      obtain ⟨first, rest⟩ := List.pairwise_cons.mp separate
      obtain ⟨deleted, added, different, hd, ha, same⟩ := present pair (by simp)
      refine (ih _ rest ?_).trans (relocate_perm different hd ha same)
      intro later member
      obtain ⟨deleted', added', different', hd', ha', same'⟩ :=
        present later (List.mem_cons_of_mem _ member)
      obtain ⟨h11, h22, h12, h21⟩ := first later member
      refine ⟨deleted', added', different', ?_, ?_, same'⟩
      · rw [relocate_getElem? h11.symm h21.symm, hd']
      · rw [relocate_getElem? h12.symm h22.symm, ha']

/-- Whatever a relocation takes over from its two records is neither lost nor doubled. -/
theorem pairRelocations_perm {changes : List (Change ρ)} (side : Change ρ → Option β)
    (same : ∀ deleted ∈ changes, ∀ added ∈ changes, deleted.status = .deleted →
      added.status = .added → ((side (relocation deleted added)).toList).Perm
        ((side deleted).toList ++ (side added).toList)) :
    ((pairRelocations changes).filterMap side).Perm (changes.filterMap side) := by
  have folded := foldl_relocate_perm side (changes.map some)
    (relocationPairs_separate changes) (by
      intro pair member
      obtain ⟨key, deleted, added, relocation⟩ := relocationPairs_mem member
      exact ⟨deleted, added, relocation.different, by simp [relocation.deletedAt],
        by simp [relocation.addedAt], same deleted (List.mem_of_getElem? relocation.deletedAt) added
          (List.mem_of_getElem? relocation.addedAt) relocation.deletion relocation.addition⟩)
  rw [pairRelocations, List.filterMap_filterMap]
  simpa [List.filterMap_map, Function.comp_def] using folded

end

end Stratadiff
