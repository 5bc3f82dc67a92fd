import Stratadiff.Git.RawDiff

/-!
# Pairing relocations

The two copies of the pairing, as the code runs them: a map from objects to the indices of
their deletions and additions, whose values come in any order, and slots that are emptied and
filled by index.
-/

namespace Stratadiff

variable {ρ σ : Type}

/-- The indices of the deletions and of the additions of each object. -/
abbrev Candidates := List ((String × String) × (List Nat × List Nat))

/-- Change the entry of an object, which is empty at first. -/
def Candidates.update (key : String × String) (change : List Nat × List Nat → List Nat × List Nat) :
    Candidates → Candidates
  | [] => [(key, change ([], []))]
  | (other, found) :: entries =>
      if other = key then (other, change found) :: entries
      else (other, found) :: Candidates.update key change entries

def collectCandidate (candidates : Candidates) (indexed : Change ρ × Nat) : Candidates :=
  let change := indexed.1
  let index := indexed.2
  match change.status with
  | .deleted =>
      match change.beforeBlob, change.beforeMode with
      | some objectId, some mode =>
          candidates.update (objectId, mode) fun found => (found.1 ++ [index], found.2)
      | _, _ => candidates
  | .added =>
      match change.afterBlob, change.afterMode with
      | some objectId, some mode =>
          candidates.update (objectId, mode) fun found => (found.1, found.2 ++ [index])
      | _, _ => candidates
  | _ => candidates

def collectCandidates (changes : List (Change ρ)) : Candidates :=
  changes.zipIdx.foldl collectCandidate []

/-- Objects with one deletion and one addition. -/
def uniquePairs (values : List (List Nat × List Nat)) : List (Nat × Nat) :=
  values.filterMap fun value =>
    match value with
    | ([deleted], [added]) => some (deleted, added)
    | _ => none

def takeSlot (slots : List (Option (Change ρ))) (index : Nat) (missing : String) :
    Result (Change ρ) :=
  Result.ofOption (.invalid missing) (slots[index]?.bind id)

/-- What is said when a candidate is not there. -/
structure MissingCandidate where
  deleted : String
  added : String

/-- Take both changes out of their slots and put the relocation into the first. -/
def takePair (missing : MissingCandidate) (slots : List (Option (Change ρ))) (pair : Nat × Nat) :
    Result (List (Option (Change ρ))) := do
  let deleted ← takeSlot slots pair.1 missing.deleted
  let slots := slots.set pair.1 none
  let added ← takeSlot slots pair.2 missing.added
  let slots := slots.set pair.2 none
  return slots.set (min pair.1 pair.2) (some (relocation deleted added))

/-- The pairing with the values of the map in the given order. -/
def pairInOrder (missing : MissingCandidate) (values : List (List Nat × List Nat))
    (changes : List (Change ρ)) : Result (List (Change ρ)) := do
  let slots ← (uniquePairs values).foldlM (takePair missing) (changes.map some)
  return slots.filterMap id

/-- `pair_unique_exact_relocations`, which panics where a candidate is missing. -/
def reviewPairing (values : List (List Nat × List Nat)) (changes : List GitChange) :
    Result (List GitChange) :=
  pairInOrder ⟨"unique deleted relocation candidate is present",
    "unique added relocation candidate is present"⟩ values changes

/-- `pair_exact_relocations`. -/
def cachePairing (values : List (List Nat × List Nat)) (changes : List ExactGitChangeIdentity) :
    Result (List ExactGitChangeIdentity) := do
  let changes ← pairInOrder ⟨"deleted relocation candidate is missing",
    "added relocation candidate is missing"⟩ values changes
  return changes.insertionSort fun left right => identityBefore left right

/-! ## The map -/

namespace Candidates

variable {key other : String × String} {change : List Nat × List Nat → List Nat × List Nat}

def get (candidates : Candidates) (key : String × String) : List Nat × List Nat :=
  (candidates.lookup key).getD ([], [])

theorem get_update (candidates : Candidates) :
    (candidates.update key change).get other =
      if other = key then change (candidates.get key) else candidates.get other := by
  induction candidates with
  | nil =>
      rw [update, get, List.lookup_cons]
      split <;> simp_all [get]
  | cons entry entries ih =>
      obtain ⟨first, found⟩ := entry
      rw [update]
      by_cases same : first = key
      · subst same
        by_cases here : other = first
        · simp [get, here]
        · simp [get, here, List.lookup_cons, beq_eq_false_iff_ne.mpr here]
      · rw [if_neg same, get, List.lookup_cons]
        by_cases here : other = first
        · subst here
          simp [get, same]
        · rw [beq_eq_false_iff_ne.mpr here]
          have rest := ih
          rw [get] at rest
          rw [rest]
          simp [get, List.lookup_cons, beq_eq_false_iff_ne.mpr here,
            beq_eq_false_iff_ne.mpr (Ne.symm same)]

theorem keys_update (candidates : Candidates) :
    (candidates.update key change).map Prod.fst =
      if key ∈ candidates.map Prod.fst then candidates.map Prod.fst
      else candidates.map Prod.fst ++ [key] := by
  induction candidates with
  | nil => simp [update]
  | cons entry entries ih =>
      obtain ⟨first, found⟩ := entry
      rw [update]
      by_cases same : first = key
      · simp [same]
      · rw [if_neg same, List.map_cons, ih]
        by_cases inside : key ∈ entries.map Prod.fst
        · simp [inside]
        · simp [inside, Ne.symm same]

theorem nodup_update {candidates : Candidates} (nodup : (candidates.map Prod.fst).Nodup) :
    ((candidates.update key change).map Prod.fst).Nodup := by
  rw [keys_update]
  split
  · exact nodup
  · next absent => exact List.nodup_append.mpr ⟨nodup, List.nodup_singleton key, by
      rintro found member other (_ | _) rfl
      · exact absent member
      · contradiction⟩

end Candidates

/-- Where a change is pushed. -/
def pushIndex (status : FileStatus) (index : Nat) (found : List Nat × List Nat) :
    List Nat × List Nat :=
  if status = .deleted then (found.1 ++ [index], found.2) else (found.1, found.2 ++ [index])

theorem collectCandidate_eq (candidates : Candidates) (change : Change ρ) (index : Nat) :
    collectCandidate candidates (change, index) =
      match relocationKey change with
      | none => candidates
      | some key => candidates.update key (pushIndex change.status index) := by
  obtain ⟨status, _, _, _, beforeMode, afterMode, beforeBlob, afterBlob⟩ := change
  cases status
  case deleted => cases beforeBlob <;> cases beforeMode <;> rfl
  case added => cases afterBlob <;> cases afterMode <;> rfl
  all_goals rfl

theorem relocationKey_status {change : Change ρ} {key : String × String}
    (found : relocationKey change = some key) :
    change.status = .deleted ∨ change.status = .added := by
  rw [relocationKey] at found
  split at found
  · next status => exact .inl status
  · next status => exact .inr status
  · cases found

theorem relocationCandidates_concat (changes : List (Change ρ)) (change : Change ρ)
    (key : String × String) :
    relocationCandidates (changes ++ [change]) key =
      if relocationKey change = some key then
        pushIndex change.status changes.length (relocationCandidates changes key)
      else relocationCandidates changes key := by
  have having (status : FileStatus) :
      ((List.range (changes ++ [change]).length).filter fun index =>
        (changes ++ [change])[index]?.any fun change =>
          change.status = status ∧ relocationKey change = some key) =
        ((List.range changes.length).filter fun index =>
          changes[index]?.any fun change =>
            change.status = status ∧ relocationKey change = some key) ++
          if change.status = status ∧ relocationKey change = some key then [changes.length]
          else [] := by
    rw [List.length_append, List.length_singleton, List.range_succ, List.filter_append]
    congr 1
    · refine List.filter_congr fun index member => ?_
      rw [List.getElem?_append_left (List.mem_range.mp member)]
    · rw [List.filter_singleton, List.getElem?_concat_length, Option.any_some]
      simp
  rw [relocationCandidates]
  beta_reduce
  rw [having, having]
  by_cases keyed : relocationKey change = some key
  · rw [if_pos keyed]
    obtain status | status := relocationKey_status keyed
    · simp [keyed, status, pushIndex, relocationCandidates]
    · simp [keyed, status, pushIndex, relocationCandidates]
  · simp [keyed, relocationCandidates]

theorem get_collectCandidates (changes : List (Change ρ)) (key : String × String) :
    (collectCandidates changes).get key = relocationCandidates changes key := by
  induction changes using List.reverseRecOn with
  | nil => rfl
  | append_singleton changes change ih =>
      have step : collectCandidates (changes ++ [change]) =
          collectCandidate (collectCandidates changes) (change, changes.length) := by
        simp [collectCandidates, List.zipIdx_append]
      rw [step, collectCandidate_eq, relocationCandidates_concat]
      cases found : relocationKey change with
      | none => simpa using ih
      | some other =>
          rw [Candidates.get_update]
          by_cases same : key = other
          · subst same
            simp [ih]
          · simp [same, Ne.symm same, ih]

theorem nodup_collectCandidates (changes : List (Change ρ)) :
    ((collectCandidates changes).map Prod.fst).Nodup := by
  have step : ∀ (indexed : List (Change ρ × Nat)) (candidates : Candidates),
      (candidates.map Prod.fst).Nodup →
        ((indexed.foldl collectCandidate candidates).map Prod.fst).Nodup := by
    intro indexed
    induction indexed with
    | nil => exact fun candidates nodup => nodup
    | cons head indexed ih =>
        intro candidates nodup
        refine ih _ ?_
        obtain ⟨change, index⟩ := head
        rw [collectCandidate_eq]
        split
        · exact nodup
        · exact Candidates.nodup_update nodup
  exact step _ _ List.nodup_nil

/-! ## The pairs

A pair is relocated when its records are the only deletion and the only addition of an object.
-/

/-- The one deletion and the one addition of an object, by their indices. -/
def Relocated (changes : List (Change ρ)) (pair : Nat × Nat) : Prop :=
  ∃ key, relocationCandidates changes key = ([pair.1], [pair.2])

theorem Relocated.relocationOf {changes : List (Change ρ)} {key : String × String}
    {pair : Nat × Nat} (only : relocationCandidates changes key = ([pair.1], [pair.2])) :
    ∃ deleted added, RelocationOf changes key pair deleted added :=
  relocationPair_of (by rw [only])

theorem mem_uniquePairs {values : List (List Nat × List Nat)} {pair : Nat × Nat} :
    pair ∈ uniquePairs values ↔ ([pair.1], [pair.2]) ∈ values := by
  rw [uniquePairs, List.mem_filterMap]
  constructor
  · rintro ⟨value, member, found⟩
    split at found
    · cases found
      exact member
    · cases found
  · exact fun member => ⟨_, member, rfl⟩

/-- What the map holds for an object. -/
theorem mem_collectCandidates {changes : List (Change ρ)} {key : String × String}
    {value : List Nat × List Nat} (member : (key, value) ∈ collectCandidates changes) :
    value = relocationCandidates changes key := by
  have found := (OrderedMap.lookup_eq_some (nodup_collectCandidates changes)).mpr member
  rw [← get_collectCandidates, Candidates.get, found, Option.getD_some]

/-- The values of the map, whatever their order, give the relocated pairs. -/
theorem mem_pairs {changes : List (Change ρ)} {values : List (List Nat × List Nat)}
    (perm : values.Perm ((collectCandidates changes).map Prod.snd)) {pair : Nat × Nat} :
    pair ∈ uniquePairs values ↔ Relocated changes pair := by
  rw [mem_uniquePairs, perm.mem_iff, List.mem_map]
  constructor
  · rintro ⟨⟨key, value⟩, member, rfl⟩
    exact ⟨key, (mem_collectCandidates member).symm⟩
  · rintro ⟨key, only⟩
    rw [← get_collectCandidates, Candidates.get] at only
    cases found : (collectCandidates changes).lookup key with
    | none =>
        rw [found] at only
        cases only
    | some value =>
        rw [found, Option.getD_some] at only
        exact ⟨(key, value),
          (OrderedMap.lookup_eq_some (nodup_collectCandidates changes)).mp found, only⟩

/-- No record is in two pairs. -/
theorem pairs_separate {changes : List (Change ρ)} {values : List (List Nat × List Nat)}
    (perm : values.Perm ((collectCandidates changes).map Prod.snd)) :
    (uniquePairs values).Pairwise SeparatePairs := by
  have symmetric : ∀ {p q}, SeparatePairs p q → SeparatePairs q p := fun apart =>
    ⟨apart.1.symm, apart.2.1.symm, apart.2.2.2.symm, apart.2.2.1.symm⟩
  have collected : (uniquePairs ((collectCandidates changes).map Prod.snd)).Pairwise
      SeparatePairs := by
    rw [uniquePairs, List.filterMap_map]
    have distinct := List.pairwise_map.mp (nodup_collectCandidates changes)
    refine List.Pairwise.filterMap _ ?_ (distinct.imp_of_mem fun first second different =>
      And.intro first (And.intro second different))
    rintro ⟨key, value⟩ ⟨key', value'⟩ ⟨first, second, different⟩ p hp q hq
    rw [mem_collectCandidates first] at hp
    rw [mem_collectCandidates second] at hq
    obtain ⟨d, a, relocation⟩ := relocationPair_of hp
    obtain ⟨d', a', relocation'⟩ := relocationPair_of hq
    exact relocation.separate relocation' different
  exact ((perm.filterMap _).pairwise_iff symmetric).mpr collected

/-! ## The slots -/

/-- What the pairing leaves in the slots: every relocated pair in the first of its slots, every
other record where it was. -/
structure Slots (changes : List (Change ρ)) (slots : List (Option (Change ρ))) : Prop where
  length : slots.length = changes.length
  first : ∀ pair deleted added, Relocated changes pair → changes[pair.1]? = some deleted →
    changes[pair.2]? = some added →
      slots[min pair.1 pair.2]? = some (some (relocation deleted added))
  second : ∀ pair, Relocated changes pair → slots[max pair.1 pair.2]? = some none
  others : ∀ index, (∀ pair, Relocated changes pair → index ≠ pair.1 ∧ index ≠ pair.2) →
    slots[index]? = changes[index]?.map some

/-- The slots before any pair of the list is relocated. -/
def Present (slots : List (Option (Change ρ))) (pair : Nat × Nat) : Prop :=
  pair.1 ≠ pair.2 ∧ ∃ deleted added, slots[pair.1]? = some (some deleted) ∧
    slots[pair.2]? = some (some added)

theorem takePair_eq {missing : MissingCandidate} {slots : List (Option (Change ρ))}
    {pair : Nat × Nat} (present : Present slots pair) :
    takePair missing slots pair = .ok (relocate slots pair) := by
  obtain ⟨different, deleted, added, hd, ha⟩ := present
  have later : (slots.set pair.1 none)[pair.2]? = some (some added) := by
    rw [List.getElem?_set_ne different, ha]
  simp only [takePair, takeSlot, hd, later, Option.bind_some, id, Result.ofOption_some,
    Result.ok_bind, relocate, ha]
  rfl

theorem Present.relocate {slots : List (Option (Change ρ))} {pair later : Nat × Nat}
    (separate : SeparatePairs pair later) (present : Present slots later) :
    Present (relocate slots pair) later := by
  obtain ⟨different, deleted, added, hd, ha⟩ := present
  obtain ⟨h11, h22, h12, h21⟩ := separate
  exact ⟨different, deleted, added, by rw [relocate_getElem? h11.symm h21.symm, hd],
    by rw [relocate_getElem? h12.symm h22.symm, ha]⟩

/-- No candidate is missing: the run goes through. -/
theorem foldlM_takePair {missing : MissingCandidate} {pairs : List (Nat × Nat)}
    {slots : List (Option (Change ρ))} (separate : pairs.Pairwise SeparatePairs)
    (present : ∀ pair ∈ pairs, Present slots pair) :
    pairs.foldlM (takePair missing) slots = .ok (pairs.foldl relocate slots) := by
  induction pairs generalizing slots with
  | nil => rfl
  | cons pair pairs ih =>
      obtain ⟨first, rest⟩ := List.pairwise_cons.mp separate
      rw [List.foldlM_cons, takePair_eq (present pair List.mem_cons_self), Result.ok_bind,
        List.foldl_cons]
      exact ih rest fun later member =>
        (present later (List.mem_cons_of_mem _ member)).relocate (first later member)

theorem relocate_length (slots : List (Option (Change ρ))) (pair : Nat × Nat) :
    (relocate slots pair).length = slots.length := by
  unfold relocate
  split <;> simp

theorem foldl_relocate_length (pairs : List (Nat × Nat)) (slots : List (Option (Change ρ))) :
    (pairs.foldl relocate slots).length = slots.length := by
  induction pairs generalizing slots with
  | nil => rfl
  | cons pair pairs ih => rw [List.foldl_cons, ih, relocate_length]

/-- A slot outside the pairs is left alone. -/
theorem foldl_relocate_other {pairs : List (Nat × Nat)} {slots : List (Option (Change ρ))}
    {index : Nat} (outside : ∀ pair ∈ pairs, index ≠ pair.1 ∧ index ≠ pair.2) :
    (pairs.foldl relocate slots)[index]? = slots[index]? := by
  induction pairs generalizing slots with
  | nil => rfl
  | cons pair pairs ih =>
      obtain ⟨here, rest⟩ := List.forall_mem_cons.mp outside
      rw [List.foldl_cons, ih rest, relocate_getElem? here.1 here.2]

theorem relocate_pair {slots : List (Option (Change ρ))} {pair : Nat × Nat}
    {deleted added : Change ρ} (different : pair.1 ≠ pair.2)
    (hd : slots[pair.1]? = some (some deleted)) (ha : slots[pair.2]? = some (some added)) :
    (relocate slots pair)[min pair.1 pair.2]? = some (some (relocation deleted added)) ∧
      (relocate slots pair)[max pair.1 pair.2]? = some none := by
  have first := (List.getElem?_eq_some_iff.mp hd).1
  have second := (List.getElem?_eq_some_iff.mp ha).1
  simp only [relocate, hd, ha]
  constructor
  · rw [List.getElem?_set_self (by simp only [List.length_set]; omega)]
  · rw [List.getElem?_set_ne (by omega)]
    rcases Nat.lt_or_gt_of_ne different with less | greater
    · rw [max_eq_right (Nat.le_of_lt less),
        List.getElem?_set_self (by simpa only [List.length_set] using second)]
    · rw [max_eq_left (Nat.le_of_lt greater), List.getElem?_set_ne (by omega),
        List.getElem?_set_self first]

/-- The slots of a pair after the whole run. -/
theorem foldl_relocate_pair {pairs : List (Nat × Nat)} {slots : List (Option (Change ρ))}
    (separate : pairs.Pairwise SeparatePairs) {pair : Nat × Nat} (member : pair ∈ pairs)
    {deleted added : Change ρ} (different : pair.1 ≠ pair.2)
    (hd : slots[pair.1]? = some (some deleted)) (ha : slots[pair.2]? = some (some added)) :
    (pairs.foldl relocate slots)[min pair.1 pair.2]? = some (some (relocation deleted added)) ∧
      (pairs.foldl relocate slots)[max pair.1 pair.2]? = some none := by
  induction pairs generalizing slots with
  | nil => cases member
  | cons head pairs ih =>
      obtain ⟨first, rest⟩ := List.pairwise_cons.mp separate
      rw [List.foldl_cons]
      rcases List.mem_cons.mp member with rfl | later
      · have outside (index : Nat) (isOne : index = pair.1 ∨ index = pair.2) :
            ∀ other ∈ pairs, index ≠ other.1 ∧ index ≠ other.2 := by
          intro other inside
          obtain ⟨h11, h22, h12, h21⟩ := first other inside
          obtain rfl | rfl := isOne
          · exact ⟨h11, h12⟩
          · exact ⟨h21, h22⟩
        rw [foldl_relocate_other (outside _ (by omega)),
          foldl_relocate_other (outside _ (by omega))]
        exact relocate_pair different hd ha
      · obtain ⟨h11, h22, h12, h21⟩ := first pair later
        exact ih rest later (by rw [relocate_getElem? h11.symm h21.symm, hd])
          (by rw [relocate_getElem? h12.symm h22.symm, ha])

/-- The relocated pairs of some changes are in their slots. -/
theorem Relocated.present {changes : List (Change ρ)} {pair : Nat × Nat}
    (relocated : Relocated changes pair) : Present (changes.map some) pair := by
  obtain ⟨key, only⟩ := relocated
  obtain ⟨deleted, added, relocation⟩ := Relocated.relocationOf only
  exact ⟨relocation.different, deleted, added, by simp [relocation.deletedAt],
    by simp [relocation.addedAt]⟩

theorem slots_foldl {changes : List (Change ρ)} {pairs : List (Nat × Nat)}
    (separate : pairs.Pairwise SeparatePairs)
    (exactly : ∀ pair, pair ∈ pairs ↔ Relocated changes pair) :
    Slots changes (pairs.foldl relocate (changes.map some)) where
  length := by rw [foldl_relocate_length, List.length_map]
  first pair deleted added relocated hd ha :=
    (foldl_relocate_pair separate ((exactly pair).mpr relocated) relocated.present.1
      (by simp [hd]) (by simp [ha])).1
  second pair relocated := by
    obtain ⟨different, deleted, added, hd, ha⟩ := relocated.present
    exact (foldl_relocate_pair separate ((exactly pair).mpr relocated) different hd ha).2
  others index outside := by
    rw [foldl_relocate_other fun pair member => outside pair ((exactly pair).mp member),
      List.getElem?_map]

/-- The slots are determined by the changes. -/
theorem Slots.unique {changes : List (Change ρ)} {slots slots' : List (Option (Change ρ))}
    (left : Slots changes slots) (right : Slots changes slots') : slots = slots' := by
  refine List.ext_getElem? fun index => ?_
  by_cases inside : ∃ pair, Relocated changes pair ∧ (index = pair.1 ∨ index = pair.2)
  · obtain ⟨pair, relocated, place⟩ := inside
    obtain ⟨key, only⟩ := relocated
    obtain ⟨deleted, added, relocation⟩ := Relocated.relocationOf only
    have place : index = min pair.1 pair.2 ∨ index = max pair.1 pair.2 := by omega
    obtain rfl | rfl := place
    · rw [left.first pair deleted added ⟨key, only⟩ relocation.deletedAt relocation.addedAt,
        right.first pair deleted added ⟨key, only⟩ relocation.deletedAt relocation.addedAt]
    · rw [left.second pair ⟨key, only⟩, right.second pair ⟨key, only⟩]
  · have outside : ∀ pair, Relocated changes pair → index ≠ pair.1 ∧ index ≠ pair.2 :=
      fun pair relocated => ⟨fun same => inside ⟨pair, relocated, .inl same⟩,
        fun same => inside ⟨pair, relocated, .inr same⟩⟩
    rw [left.others index outside, right.others index outside]

/-- Whatever the order of the map, the run goes through and leaves these slots. -/
theorem pairInOrder_eq {missing : MissingCandidate} {changes : List (Change ρ)}
    {values : List (List Nat × List Nat)}
    (perm : values.Perm ((collectCandidates changes).map Prod.snd))
    {slots : List (Option (Change ρ))} (after : Slots changes slots) :
    pairInOrder missing values changes = .ok (slots.filterMap id) := by
  have separate := pairs_separate perm
  have present : ∀ pair ∈ uniquePairs values, Present (changes.map some) pair :=
    fun pair member => ((mem_pairs perm).mp member).present
  rw [pairInOrder, foldlM_takePair separate present, Result.ok_bind,
    (slots_foldl separate fun pair => mem_pairs perm).unique after]
  rfl

/-- The pairing of the model is the one that the code runs. -/
theorem pairRelocations_eq {changes : List (Change ρ)} {slots : List (Option (Change ρ))}
    (after : Slots changes slots) : pairRelocations changes = slots.filterMap id := by
  have exactly (pair : Nat × Nat) : pair ∈ relocationPairs changes ↔ Relocated changes pair := by
    rw [relocationPairs, List.mem_filterMap]
    constructor
    · rintro ⟨key, _, found⟩
      split at found
      · next deleted added only =>
        cases found
        exact ⟨key, only⟩
      · cases found
    · rintro ⟨key, only⟩
      obtain ⟨deleted, added, relocation⟩ := Relocated.relocationOf only
      refine ⟨key, List.mem_dedup.mpr (List.mem_filterMap.mpr ⟨deleted,
        List.mem_of_getElem? relocation.deletedAt, relocation.deletedKey⟩), ?_⟩
      rw [only]
  rw [pairRelocations, (slots_foldl (relocationPairs_separate changes) exactly).unique after]

/-! ## Both subsystems -/

theorem relocationKey_mapPath (path : ρ → σ) (change : Change ρ) :
    relocationKey (change.mapPath path) = relocationKey change := rfl

theorem relocated_mapPath {path : ρ → σ} {changes : List (Change ρ)} {pair : Nat × Nat} :
    Relocated (changes.map (Change.mapPath path)) pair ↔ Relocated changes pair := by
  have same (key : String × String) :
      relocationCandidates (changes.map (Change.mapPath path)) key =
        relocationCandidates changes key := by
    simp only [relocationCandidates, List.length_map, List.getElem?_map, Option.any_map,
      relocationKey_mapPath]
    rfl
  simp only [Relocated, same]

/-- The slots do not depend on what the paths are. -/
theorem Slots.mapPath {path : ρ → σ} {changes : List (Change ρ)} {slots : List (Option (Change ρ))}
    (after : Slots changes slots) :
    Slots (changes.map (Change.mapPath path)) (slots.map (Option.map (Change.mapPath path))) where
  length := by rw [List.length_map, List.length_map, after.length]
  first pair deleted added relocated hd ha := by
    rw [List.getElem?_map, Option.map_eq_some_iff] at hd ha
    obtain ⟨deleted, hd, rfl⟩ := hd
    obtain ⟨added, ha, rfl⟩ := ha
    rw [List.getElem?_map, after.first pair deleted added (relocated_mapPath.mp relocated) hd ha]
    rfl
  second pair relocated := by
    rw [List.getElem?_map, after.second pair (relocated_mapPath.mp relocated)]
    rfl
  others index outside := by
    rw [List.getElem?_map, List.getElem?_map,
      after.others index fun pair relocated => outside pair (relocated_mapPath.mpr relocated)]
    cases changes[index]? <;> rfl

/-- The earlier side of a change: its path, mode and object. -/
def Change.beforeSide (change : Change ρ) : Option (ρ × String × String) := do
  return (← change.beforePath, ← change.beforeMode, ← change.beforeBlob)

def Change.afterSide (change : Change ρ) : Option (ρ × String × String) := do
  return (← change.afterPath, ← change.afterMode, ← change.afterBlob)

/-- For sided changes the pairing loses no side and doubles none. -/
theorem Slots.sides_perm {changes : List (Change ρ)} {slots : List (Option (Change ρ))}
    (after : Slots changes slots) (sided : ∀ change ∈ changes, change.Sided) :
    ((slots.filterMap id).filterMap Change.beforeSide).Perm
        (changes.filterMap Change.beforeSide) ∧
      ((slots.filterMap id).filterMap Change.afterSide).Perm
        (changes.filterMap Change.afterSide) := by
  rw [← pairRelocations_eq after]
  constructor
  · refine pairRelocations_perm _ fun deleted _ added member _ addition => ?_
    have sides := sided added member
    rw [Change.Sided, addition] at sides
    have none : added.beforeSide = none := by simp [Change.beforeSide, sides.1.1]
    rw [none, Option.toList_none, List.append_nil]
    exact .refl _
  · refine pairRelocations_perm _ fun deleted member added _ deletion _ => ?_
    have sides := sided deleted member
    rw [Change.Sided, deletion] at sides
    have none : deleted.afterSide = none := by simp [Change.afterSide, sides.2.1]
    rw [none, Option.toList_none, List.nil_append]
    exact .refl _

/-- Both subsystems relocate the same pairs of the same changes, whatever the order of their
maps: exactly the objects with one deletion and one addition; no side is lost or doubled. -/
theorem relocation_pairing_exact (changes : List RawChange)
    (sided : ∀ change ∈ changes, change.Sided) :
    ∃ slots, Slots changes slots ∧
      ((slots.filterMap id).filterMap Change.beforeSide).Perm
        (changes.filterMap Change.beforeSide) ∧
      ((slots.filterMap id).filterMap Change.afterSide).Perm
        (changes.filterMap Change.afterSide) ∧
      (∀ values, values.Perm
          ((collectCandidates (changes.map (Change.mapPath gitPath))).map Prod.snd) →
        reviewPairing values (changes.map (Change.mapPath gitPath)) =
          .ok ((slots.filterMap id).map (Change.mapPath gitPath))) ∧
      ∀ values, values.Perm
          ((collectCandidates (changes.map (Change.mapPath encodeBase64))).map Prod.snd) →
        cachePairing values (changes.map (Change.mapPath encodeBase64)) =
          .ok (((slots.filterMap id).map (Change.mapPath encodeBase64)).insertionSort
            fun left right => identityBefore left right) := by
  have separate := pairs_separate (.refl ((collectCandidates changes).map Prod.snd))
  have after : Slots changes _ := slots_foldl separate fun pair => mem_pairs (.refl _)
  obtain ⟨before, later⟩ := after.sides_perm sided
  have moved {σ : Type} (path : Bytes → σ) (slots : List (Option RawChange)) :
      (slots.map (Option.map (Change.mapPath path))).filterMap id =
        (slots.filterMap id).map (Change.mapPath path) := by
    rw [List.filterMap_map, List.map_filterMap]
    rfl
  refine ⟨_, after, before, later, fun values perm => ?_, fun values perm => ?_⟩
  · rw [reviewPairing, pairInOrder_eq perm after.mapPath, moved]
  · rw [cachePairing, pairInOrder_eq perm after.mapPath, moved]
    rfl

def sampleRelocation : List RawChange :=
  [⟨.deleted, none, some [97], none, some "100644", none, some "b1", none⟩,
   ⟨.modified, none, some [98], some [98], some "100644", some "100755", some "b1", some "b2"⟩,
   ⟨.added, none, none, some [99], none, some "100644", none, some "b1"⟩]

theorem relocation_pairing_exact_sample :
    ∃ slots, Slots sampleRelocation slots ∧
      reviewPairing [([0], [2])] (sampleRelocation.map (Change.mapPath gitPath)) =
        .ok ((slots.filterMap id).map (Change.mapPath gitPath)) := by
  have sided : ∀ change ∈ sampleRelocation, change.Sided := by
    simp [sampleRelocation, Change.Sided]
  obtain ⟨slots, after, _, _, review, _⟩ := relocation_pairing_exact sampleRelocation sided
  exact ⟨slots, after, review _ (.refl _)⟩

end Stratadiff
