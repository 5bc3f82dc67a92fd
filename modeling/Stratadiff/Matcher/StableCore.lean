import Stratadiff.Core.Model
import Stratadiff.Lib.Optima
import Stratadiff.Matcher.Groups

/-!
# The stable core of a component

`bounded_component_stable_core` fills the tables for a component and walks through its
candidates. A candidate in every longest alignment is forced; the others that occur are left
open, as a listed choice where every node has one partner only, and without any claim about
pairs where a group has several nodes on a side. The verifier computes the same outcome.
-/

namespace Stratadiff

def repeatedAmbiguityReason : String :=
  "repeated shape-equivalent children are intentionally unresolved; endpoint sets make no pair " ++
    "claims"

def optionalAmbiguityReason : String :=
  "multiple maximum-cardinality ordered alignments have coupled candidate choices"

structure AlignmentAmbiguity where
  before : List NodeId
  after : List NodeId
  constraint : AmbiguityConstraint
  reason : String
  deriving DecidableEq, Repr

structure AlignmentOutcome where
  forced : List (NodeId × NodeId) := []
  ambiguities : List AlignmentAmbiguity := []
  deriving DecidableEq, Repr

/-- The variables of the loop over the candidates of a component. -/
structure CoreScan where
  forced : List (NodeId × NodeId) := []
  possiblePairs : List AmbiguityPair := []
  ambiguousBefore : Finset NodeId := ∅
  ambiguousAfter : Finset NodeId := ∅
  hasDuplicateSymmetry : Bool := false

def sortPairs (pairs : List (NodeId × NodeId)) : List (NodeId × NodeId) :=
  pairs.insertionSort fun first second => first.1 < second.1 ∨
    first.1 = second.1 ∧ first.2 ≤ second.2

/-- `&groups[before_group[&before_id]]`. -/
def CandidateGroups.ofBefore (candidates : CandidateGroups) (id : NodeId) : CandidateGroup :=
  ((candidates.beforeGroup id).bind fun g => candidates.groups[g]?).getD ⟨[], [], true⟩

def CandidateGroup.isSingleton (group : CandidateGroup) : Bool :=
  group.before.length == 1 && group.after.length == 1

section

variable (shapeEqual canMap : NodeId → NodeId → Bool) (candidates : CandidateGroups)
variable (component : AlignmentComponent)

/-- What makes two nodes of a component a candidate. -/
def compatible (x y : NodeId) : Bool :=
  candidates.beforeGroup x == candidates.afterGroup y && shapeEqual x y && canMap x y

def componentMatrix : CandidateMatrix where
  rows := component.before.map fun x => component.after.map fun y =>
    compatible shapeEqual canMap candidates x y
  rectangular := by
    refine ⟨rfl, fun row member => ?_⟩
    obtain ⟨x, there, rfl⟩ := List.mem_map.mp member
    cases nodes : component.before with
    | nil =>
        rw [nodes] at there
        cases there
    | cons first rest => simp

namespace AlignmentComponent

/-- The pair of nodes in a row and a column. -/
def pairAt (cell : Nat × Nat) : NodeId × NodeId :=
  (component.before[cell.1]?.getD 0, component.after[cell.2]?.getD 0)

/-- The candidates in the order in which the loops come to them. -/
def cells : List (Nat × Nat) :=
  Grid.cells (List.range component.before.length) (List.range component.after.length)

end AlignmentComponent

def optimumOf : Nat :=
  Grid.entry (alignmentPrefixScores (componentMatrix shapeEqual canMap candidates component) none)
    component.before.length component.after.length

def occursAt (cell : Nat × Nat) : Bool :=
  let matrix := componentMatrix shapeEqual canMap candidates component
  candidateOccursInOptimum matrix (alignmentPrefixScores matrix none)
    (alignmentSuffixScores matrix) (optimumOf shapeEqual canMap candidates component) cell.1 cell.2

def groupAt (cell : Nat × Nat) : CandidateGroup :=
  candidates.ofBefore (component.pairAt cell).1

def forcedAt (cell : Nat × Nat) : Bool :=
  candidateIsForced (componentMatrix shapeEqual canMap candidates component)
    (optimumOf shapeEqual canMap candidates component) cell.1 cell.2
    (groupAt candidates component cell).isSingleton

/-- The body of the loop over the candidates. -/
def CoreScan.step (scan : CoreScan) (cell : Nat × Nat) : CoreScan :=
  if occursAt shapeEqual canMap candidates component cell then
    let pair := component.pairAt cell
    let group := groupAt candidates component cell
    if forcedAt shapeEqual canMap candidates component cell then
      { scan with forced := scan.forced ++ [pair] }
    else if group.isSingleton then
      { scan with
        possiblePairs := scan.possiblePairs ++ [⟨pair.1, pair.2⟩]
        ambiguousBefore := insert pair.1 scan.ambiguousBefore
        ambiguousAfter := insert pair.2 scan.ambiguousAfter }
    else
      { scan with
        possiblePairs := scan.possiblePairs ++ [⟨pair.1, pair.2⟩]
        hasDuplicateSymmetry := true
        ambiguousBefore := scan.ambiguousBefore ∪ group.before.toFinset
        ambiguousAfter := scan.ambiguousAfter ∪ group.after.toFinset }
  else scan

def coreScan : CoreScan :=
  (List.range component.before.length).foldl
    (fun scan beforeIndex => (List.range component.after.length).foldl
      (fun scan afterIndex =>
        scan.step shapeEqual canMap candidates component (beforeIndex, afterIndex)) scan) {}

/-- The group of pairs that a scan leaves open. -/
def CoreScan.ambiguity (scan : CoreScan) (optimum : Nat) : AlignmentAmbiguity where
  before := component.before.filter fun id => id ∈ scan.ambiguousBefore
  after := component.after.filter fun id => id ∈ scan.ambiguousAfter
  constraint :=
    if scan.hasDuplicateSymmetry then .symbolicAbstention .duplicateSymmetry .none
    else .exactOrderedAlignment .shapeEqual (optimum - scan.forced.length) scan.possiblePairs
  reason := if scan.hasDuplicateSymmetry then repeatedAmbiguityReason else optionalAmbiguityReason

def boundedComponentStableCore : AlignmentOutcome :=
  let optimum := optimumOf shapeEqual canMap candidates component
  if optimum = 0 then {}
  else
    let scan := coreScan shapeEqual canMap candidates component
    { forced := sortPairs scan.forced
      ambiguities :=
        if scan.possiblePairs.isEmpty then [] else [scan.ambiguity component optimum] }

end

/-! ## The scan -/

section

variable {shapeEqual canMap : NodeId → NodeId → Bool} {candidates : CandidateGroups}
variable {component : AlignmentComponent}

theorem mem_cells {cell : Nat × Nat} : cell ∈ component.cells ↔
    cell.1 < component.before.length ∧ cell.2 < component.after.length := by
  rw [AlignmentComponent.cells, Grid.mem_cells, List.mem_range, List.mem_range]

section

variable (shapeEqual canMap candidates component)

/-- An occurring candidate that is not forced. -/
def openAt (cell : Nat × Nat) : Bool :=
  occursAt shapeEqual canMap candidates component cell &&
    !forcedAt shapeEqual canMap candidates component cell

/-- The nodes before that an open candidate leaves unresolved. -/
def endpointsBefore (cell : Nat × Nat) : Finset NodeId :=
  if (groupAt candidates component cell).isSingleton then {(component.pairAt cell).1}
  else (groupAt candidates component cell).before.toFinset

def endpointsAfter (cell : Nat × Nat) : Finset NodeId :=
  if (groupAt candidates component cell).isSingleton then {(component.pairAt cell).2}
  else (groupAt candidates component cell).after.toFinset

/-- What a scan has after some candidates. -/
structure CoreScan.Covers (cells : List (Nat × Nat)) (scan : CoreScan) : Prop where
  forced : scan.forced = (cells.filter fun cell =>
    occursAt shapeEqual canMap candidates component cell &&
      forcedAt shapeEqual canMap candidates component cell).map component.pairAt
  possible : scan.possiblePairs = (cells.filter
    (openAt shapeEqual canMap candidates component)).map fun cell =>
      ⟨(component.pairAt cell).1, (component.pairAt cell).2⟩
  before : ∀ x, x ∈ scan.ambiguousBefore ↔ ∃ cell ∈ cells,
    openAt shapeEqual canMap candidates component cell = true ∧
      x ∈ endpointsBefore candidates component cell
  after : ∀ y, y ∈ scan.ambiguousAfter ↔ ∃ cell ∈ cells,
    openAt shapeEqual canMap candidates component cell = true ∧
      y ∈ endpointsAfter candidates component cell
  duplicate : scan.hasDuplicateSymmetry = true ↔ ∃ cell ∈ cells,
    openAt shapeEqual canMap candidates component cell = true ∧
      (groupAt candidates component cell).isSingleton = false

end

/-- A group with several nodes on a side has no forced pair. -/
theorem not_forced_of_group {cell : Nat × Nat}
    (several : (groupAt candidates component cell).isSingleton = false) :
    forcedAt shapeEqual canMap candidates component cell = false := by
  rw [forcedAt, candidateIsForced, several, Bool.false_and]

theorem CoreScan.Covers.step {cells : List (Nat × Nat)} {scan : CoreScan} {cell : Nat × Nat}
    (h : scan.Covers shapeEqual canMap candidates component cells) :
    (scan.step shapeEqual canMap candidates component cell).Covers shapeEqual canMap candidates
      component (cells ++ [cell]) := by
  rw [CoreScan.step]
  split
  · next occurs =>
      split
      · next isForced =>
          have notOpen : openAt shapeEqual canMap candidates component cell = false := by
            rw [openAt, occurs, isForced]
            rfl
          constructor
          · simp [List.filter_append, h.forced, occurs, isForced]
          · simp [List.filter_append, h.possible, notOpen]
          · intro x
            simp [h.before, notOpen]
          · intro y
            simp [h.after, notOpen]
          · simp [h.duplicate, notOpen]
      · next notForced =>
          rw [Bool.not_eq_true] at notForced
          have isOpen : openAt shapeEqual canMap candidates component cell = true := by
            rw [openAt, occurs, notForced]
            rfl
          dsimp only
          split
          · next single =>
              constructor
              · simp [List.filter_append, h.forced, occurs, notForced]
              · simp [List.filter_append, h.possible, isOpen]
              · intro x
                simp [h.before, isOpen, endpointsBefore, single, or_comm]
              · intro y
                simp [h.after, isOpen, endpointsAfter, single, or_comm]
              · simp [h.duplicate, isOpen, single]
          · next several =>
              rw [Bool.not_eq_true] at several
              constructor
              · simp [List.filter_append, h.forced, occurs, notForced]
              · simp [List.filter_append, h.possible, isOpen]
              · intro x
                simp [h.before, isOpen, endpointsBefore, several]
              · intro y
                simp [h.after, isOpen, endpointsAfter, several]
              · simp [isOpen, several]
  · next absent =>
      rw [Bool.not_eq_true] at absent
      have notOpen : openAt shapeEqual canMap candidates component cell = false := by
        rw [openAt, absent]
        rfl
      constructor
      · simp [List.filter_append, h.forced, absent]
      · simp [List.filter_append, h.possible, notOpen]
      · intro x
        simp [h.before, notOpen]
      · intro y
        simp [h.after, notOpen]
      · simp [h.duplicate, notOpen]

theorem coreScan_covers : (coreScan shapeEqual canMap candidates component).Covers shapeEqual
    canMap candidates component component.cells := by
  have loops : coreScan shapeEqual canMap candidates component = component.cells.foldl
      (CoreScan.step shapeEqual canMap candidates component) {} := Grid.foldl_cells
  rw [loops]
  induction component.cells using List.reverseRecOn with
  | nil => constructor <;> simp
  | append_singleton cells cell ih =>
      rw [List.foldl_append, List.foldl_cons, List.foldl_nil]
      exact ih.step

/-! ## What the scan finds -/

/-- The candidates of a component. -/
def Compatible (shapeEqual canMap : NodeId → NodeId → Bool) (candidates : CandidateGroups)
    (x y : NodeId) : Prop := compatible shapeEqual canMap candidates x y = true

instance (x y : NodeId) : Decidable (Compatible shapeEqual canMap candidates x y) :=
  inferInstanceAs (Decidable (_ = true))

theorem beforeLen_matrix :
    (componentMatrix shapeEqual canMap candidates component).beforeLen =
      component.before.length := by
  simp [CandidateMatrix.beforeLen, componentMatrix]

theorem afterLen_matrix (some : component.before ≠ []) :
    (componentMatrix shapeEqual canMap candidates component).afterLen =
      component.after.length := by
  cases nodes : component.before with
  | nil => exact absurd nodes some
  | cons first rest => simp [CandidateMatrix.afterLen, componentMatrix, nodes]

theorem before_eq_map : component.before =
    (List.range component.before.length).map fun i => component.before[i]?.getD 0 := by
  refine List.ext_getElem (by simp) fun i below _ => ?_
  simp [below]

theorem after_eq_map : component.after =
    (List.range component.after.length).map fun j => component.after[j]?.getD 0 := by
  refine List.ext_getElem (by simp) fun j below _ => ?_
  simp [below]

theorem candidate_matrix {i j : Nat} (row : i < component.before.length)
    (column : j < component.after.length) :
    (componentMatrix shapeEqual canMap candidates component).candidate i j = true ↔
      Compatible shapeEqual canMap candidates (component.before[i]?.getD 0)
        (component.after[j]?.getD 0) := by
  simp [CandidateMatrix.candidate, Grid.entry, componentMatrix, Compatible, row, column]

variable (shapeEqual canMap candidates) in
/-- The candidates of the tables, as positions of nodes. -/
theorem allowed_matrix (some : component.before ≠ []) :
    ∀ i ∈ List.range (componentMatrix shapeEqual canMap candidates component).beforeLen,
    ∀ j ∈ List.range (componentMatrix shapeEqual canMap candidates component).afterLen,
      ((componentMatrix shapeEqual canMap candidates component).Allowed none i j ↔
        Compatible shapeEqual canMap candidates (component.before[i]?.getD 0)
          (component.after[j]?.getD 0)) := by
  intro i row j column
  rw [List.mem_range, beforeLen_matrix] at row
  rw [List.mem_range, afterLen_matrix some] at column
  rw [CandidateMatrix.allowed_none, candidate_matrix row column]

theorem position_injective {ids : List NodeId} (nodup : ids.Nodup) :
    ∀ i ∈ List.range ids.length, ∀ j ∈ List.range ids.length,
      ids[i]?.getD 0 = ids[j]?.getD 0 → i = j := by
  intro i inside j inside' same
  rw [List.mem_range] at inside inside'
  rw [List.getElem?_eq_getElem inside, List.getElem?_eq_getElem inside'] at same
  exact (nodup.getElem_inj_iff).mp same

theorem optimumOf_eq (some : component.before ≠ []) :
    optimumOf shapeEqual canMap candidates component =
      maximumAlignment (Compatible shapeEqual canMap candidates) component.before
        component.after := by
  have score : alignmentScore (componentMatrix shapeEqual canMap candidates component) none = _ :=
    alignmentScore_eq
  rw [alignmentScore, beforeLen_matrix, afterLen_matrix some] at score
  rw [optimumOf, score]
  conv_rhs => rw [before_eq_map, after_eq_map]
  rw [maximum_map]
  have same := allowed_matrix shapeEqual canMap candidates some
  rw [beforeLen_matrix, afterLen_matrix some] at same
  simp only [maximumAlignment, alignmentSizes, isAlignment_congr same]

theorem exists_cell {pair : NodeId × NodeId} (left : pair.1 ∈ component.before)
    (right : pair.2 ∈ component.after) :
      ∃ cell ∈ component.cells, component.pairAt cell = pair := by
  obtain ⟨i, found⟩ := List.getElem?_of_mem left
  obtain ⟨j, found'⟩ := List.getElem?_of_mem right
  refine ⟨(i, j), mem_cells.mpr ⟨(List.getElem?_eq_some_iff.mp found).1,
    (List.getElem?_eq_some_iff.mp found').1⟩, ?_⟩
  rw [AlignmentComponent.pairAt, found, found', Option.getD_some, Option.getD_some]

variable (nodup : component.before.Nodup) (nodup' : component.after.Nodup)

include nodup nodup'

variable (shapeEqual canMap candidates) in
/-- The tests of the scan, as statements about the nodes of the component. -/
theorem tests_exact {cell : Nat × Nat} (member : cell ∈ component.cells) :
    (occursAt shapeEqual canMap candidates component cell = true ↔
      Occurs (Compatible shapeEqual canMap candidates) component.before component.after
        (component.pairAt cell)) ∧
    ((groupAt candidates component cell).isSingleton = true →
      (forcedAt shapeEqual canMap candidates component cell = true ↔
        Forced (Compatible shapeEqual canMap candidates) component.before component.after
          (component.pairAt cell))) := by
  obtain ⟨i, j⟩ := cell
  obtain ⟨row, column⟩ := mem_cells.mp member
  dsimp only at row column
  have some : component.before ≠ [] := List.ne_nil_of_length_pos (by omega)
  have exactly := stable_core_exact (componentMatrix shapeEqual canMap candidates component)
    (by rw [beforeLen_matrix]; exact row) (by rw [afterLen_matrix some]; exact column)
  have score : alignmentScore (componentMatrix shapeEqual canMap candidates component) none =
      optimumOf shapeEqual canMap candidates component := by
    rw [alignmentScore, beforeLen_matrix, afterLen_matrix some, optimumOf]
  have same := allowed_matrix shapeEqual canMap candidates some
  simp only [maximumAlignment_iff, isMaximum_congr same, score] at exactly
  rw [beforeLen_matrix, afterLen_matrix some] at exactly
  have renamed := occurs_forced_map (R := Compatible shapeEqual canMap candidates)
    (List.mem_range.mpr row) (List.mem_range.mpr column) (position_injective nodup)
    (position_injective nodup')
  rw [← before_eq_map, ← after_eq_map] at renamed
  constructor
  · exact exactly.1.trans renamed.1.symm
  · intro single
    rw [forcedAt, single]
    exact exactly.2.trans renamed.2.symm

theorem pairAt_injective : ∀ first ∈ component.cells, ∀ second ∈ component.cells,
    component.pairAt first = component.pairAt second → first = second := by
  rintro ⟨i, j⟩ member ⟨k, l⟩ member' same
  obtain ⟨row, column⟩ := mem_cells.mp member
  obtain ⟨row', column'⟩ := mem_cells.mp member'
  obtain ⟨left, right⟩ := Prod.mk.inj same
  cases position_injective nodup i (List.mem_range.mpr row) k (List.mem_range.mpr row') left
  cases position_injective nodup' j (List.mem_range.mpr column) l (List.mem_range.mpr column') right
  rfl

/-- Where every group with an open candidate is a single pair of nodes, a scan partitions the
occurring pairs into the forced ones and the open ones. -/
theorem scan_residue {scan : CoreScan}
    (covers : scan.Covers shapeEqual canMap candidates component component.cells)
    (single : scan.hasDuplicateSymmetry = false) :
    Residue (Compatible shapeEqual canMap candidates) component.before component.after
      scan.forced.toFinset
      (scan.possiblePairs.map fun pair => (pair.beforeId, pair.afterId)).toFinset := by
  have singleton : ∀ cell ∈ component.cells,
      occursAt shapeEqual canMap candidates component cell = true →
      (groupAt candidates component cell).isSingleton = true := by
    intro cell member occurs
    by_contra several
    rw [Bool.not_eq_true] at several
    have duplicate := covers.duplicate.mpr ⟨cell, member, by
      rw [openAt, occurs, not_forced_of_group several]
      rfl, several⟩
    rw [single] at duplicate
    cases duplicate
  have tests := fun cell (here : cell ∈ component.cells) =>
    tests_exact shapeEqual canMap candidates nodup nodup' here
  have placed : ∀ pair, Occurs (Compatible shapeEqual canMap candidates) component.before
      component.after pair → ∃ cell ∈ component.cells, component.pairAt cell = pair := by
    rintro pair ⟨aligned, maximum, member⟩
    exact exists_cell (maximum.left.subset (List.mem_map_of_mem member))
      (maximum.right.subset (List.mem_map_of_mem member))
  constructor
  · intro pair
    rw [List.mem_toFinset, covers.forced, List.mem_map]
    constructor
    · rintro ⟨cell, member, rfl⟩
      obtain ⟨here, both⟩ := List.mem_filter.mp member
      rw [Bool.and_eq_true] at both
      have exactly := tests cell here
      exact ⟨exactly.1.mp both.1, (exactly.2 (singleton cell here both.1)).mp both.2⟩
    · rintro ⟨occurs, isForced⟩
      obtain ⟨cell, here, rfl⟩ := placed pair occurs
      have exactly := tests cell here
      have occurs' := exactly.1.mpr occurs
      refine ⟨cell, List.mem_filter.mpr ⟨here, ?_⟩, rfl⟩
      rw [occurs', (exactly.2 (singleton cell here occurs')).mpr isForced]
      rfl
  · intro pair
    rw [List.mem_toFinset, covers.possible, List.map_map, List.mem_map]
    constructor
    · rintro ⟨cell, member, rfl⟩
      obtain ⟨here, both⟩ := List.mem_filter.mp member
      rw [openAt, Bool.and_eq_true, Bool.not_eq_true'] at both
      have exactly := tests cell here
      refine ⟨exactly.1.mp both.1, fun isForced => ?_⟩
      have flag := (exactly.2 (singleton cell here both.1)).mpr isForced
      rw [both.2] at flag
      cases flag
    · rintro ⟨occurs, notForced⟩
      obtain ⟨cell, here, rfl⟩ := placed pair occurs
      have exactly := tests cell here
      have occurs' := exactly.1.mpr occurs
      refine ⟨cell, List.mem_filter.mpr ⟨here, ?_⟩, rfl⟩
      rw [openAt, occurs', Bool.true_and, Bool.not_eq_true', Bool.eq_false_iff]
      exact fun isForced => notForced ((exactly.2 (singleton cell here occurs')).mp isForced)

/-- No pair is listed twice. -/
theorem scan_nodup {scan : CoreScan}
    (covers : scan.Covers shapeEqual canMap candidates component component.cells) :
    scan.forced.Nodup := by
  rw [covers.forced]
  refine List.Nodup.map_on ?_ (List.Nodup.filter _ ?_)
  · intro first member second member'
    exact pairAt_injective nodup nodup' first (List.mem_filter.mp member).1 second
      (List.mem_filter.mp member').1
  · exact (Grid.cells_pairwise List.pairwise_lt_range List.pairwise_lt_range).imp fun less => by
      rintro rfl
      omega

end

/-- A choice that an exact group admits: as many of the listed pairs as it requires, each
endpoint at most once, in the order of the endpoint arrays. -/
structure Resolution (group : AlignmentAmbiguity) (requiredMatches : Nat)
    (possiblePairs : List AmbiguityPair) (chosen : Finset (NodeId × NodeId)) : Prop where
  listed : ∀ pair ∈ chosen, (⟨pair.1, pair.2⟩ : AmbiguityPair) ∈ possiblePairs
  ordered : OrderPreserving group.before group.after chosen
  count : chosen.card = requiredMatches

section

variable {shapeEqual canMap : NodeId → NodeId → Bool} {candidates : CandidateGroups}
variable {component : AlignmentComponent} {group : AlignmentAmbiguity} {predicate : Predicate}
variable {requiredMatches : Nat} {possiblePairs : List AmbiguityPair}

theorem sortPairs_toFinset {pairs : List (NodeId × NodeId)} :
    (sortPairs pairs).toFinset = pairs.toFinset :=
  List.toFinset_eq_of_perm _ _ (List.perm_insertionSort _ _)

/-- How an exact group comes about. -/
theorem emitted_exact
    (emitted : group ∈
      (boundedComponentStableCore shapeEqual canMap candidates component).ambiguities)
    (exact : group.constraint = .exactOrderedAlignment predicate requiredMatches possiblePairs) :
    ∃ scan : CoreScan, scan.Covers shapeEqual canMap candidates component component.cells ∧
      scan.hasDuplicateSymmetry = false ∧ possiblePairs ≠ [] ∧ scan.possiblePairs = possiblePairs ∧
      requiredMatches = optimumOf shapeEqual canMap candidates component - scan.forced.length ∧
      group = scan.ambiguity component (optimumOf shapeEqual canMap candidates component) ∧
      (boundedComponentStableCore shapeEqual canMap candidates component).forced =
        sortPairs scan.forced := by
  simp only [boundedComponentStableCore] at emitted ⊢
  split at emitted
  · cases emitted
  · next some =>
      rw [if_neg some]
      dsimp only at emitted
      split at emitted
      · cases emitted
      · next listed =>
          rw [List.mem_singleton] at emitted
          subst emitted
          simp only [CoreScan.ambiguity] at exact
          split at exact
          · cases exact
          · next single =>
              rw [Bool.not_eq_true] at single
              injection exact with _ count pairs
              refine ⟨_, coreScan_covers, single, ?_, pairs, count.symm, rfl, rfl⟩
              rw [← pairs]
              simpa using listed

/-- The choices of an exact group are the order-preserving sets of open pairs. -/
theorem resolution_iff (nodup : component.before.Nodup) (nodup' : component.after.Nodup)
    {scan : CoreScan} {optimum : Nat} {chosen : Finset (NodeId × NodeId)}
    (covers : scan.Covers shapeEqual canMap candidates component component.cells)
    (single : scan.hasDuplicateSymmetry = false) :
    Resolution (scan.ambiguity component optimum) requiredMatches scan.possiblePairs chosen ↔
      chosen ⊆ (scan.possiblePairs.map fun pair => (pair.beforeId, pair.afterId)).toFinset ∧
        OrderPreserving component.before component.after chosen ∧
          chosen.card = requiredMatches := by
  have listed : ∀ pair : NodeId × NodeId, (⟨pair.1, pair.2⟩ : AmbiguityPair) ∈ scan.possiblePairs ↔
      pair ∈ (scan.possiblePairs.map fun pair => (pair.beforeId, pair.afterId)).toFinset := by
    rintro ⟨x, y⟩
    rw [List.mem_toFinset, List.mem_map]
    constructor
    · exact fun member => ⟨_, member, rfl⟩
    · rintro ⟨⟨x', y'⟩, member, same⟩
      cases same
      exact member
  -- An open pair of a single group is among the endpoints that the group lists.
  have endpoints : ∀ pair : NodeId × NodeId,
      (⟨pair.1, pair.2⟩ : AmbiguityPair) ∈ scan.possiblePairs →
      pair.1 ∈ (scan.ambiguity component optimum).before ∧
        pair.2 ∈ (scan.ambiguity component optimum).after := by
    rintro ⟨x, y⟩ member
    rw [covers.possible, List.mem_map] at member
    obtain ⟨cell, there, same⟩ := member
    obtain ⟨here, isOpen⟩ := List.mem_filter.mp there
    dsimp only at same ⊢
    obtain ⟨first, second⟩ := AmbiguityPair.mk.inj same
    have singleton : (groupAt candidates component cell).isSingleton = true := by
      by_contra several
      rw [Bool.not_eq_true] at several
      have duplicate := covers.duplicate.mpr ⟨cell, here, isOpen, several⟩
      rw [single] at duplicate
      cases duplicate
    obtain ⟨row, column⟩ := mem_cells.mp here
    constructor
    · refine List.mem_filter.mpr ⟨?_, decide_eq_true ((covers.before x).mpr
        ⟨cell, here, isOpen, ?_⟩)⟩
      · rw [← first, AlignmentComponent.pairAt, List.getElem?_eq_getElem row, Option.getD_some]
        exact List.getElem_mem row
      · rw [endpointsBefore, if_pos singleton, first]
        exact Finset.mem_singleton_self x
    · refine List.mem_filter.mpr ⟨?_, decide_eq_true ((covers.after y).mpr
        ⟨cell, here, isOpen, ?_⟩)⟩
      · rw [← second, AlignmentComponent.pairAt, List.getElem?_eq_getElem column, Option.getD_some]
        exact List.getElem_mem column
      · rw [endpointsAfter, if_pos singleton, second]
        exact Finset.mem_singleton_self y
  have order (within : ∀ pair ∈ chosen, (⟨pair.1, pair.2⟩ : AmbiguityPair) ∈ scan.possiblePairs) :
      OrderPreserving (scan.ambiguity component optimum).before
        (scan.ambiguity component optimum).after chosen ↔
          OrderPreserving component.before component.after chosen :=
    OrderPreserving.of_sublist nodup nodup' List.filter_sublist List.filter_sublist
      fun pair member => endpoints pair (within pair member)
  constructor
  · rintro ⟨within, ordered, count⟩
    exact ⟨fun pair member => (listed pair).mp (within pair member), (order within).mp ordered,
      count⟩
  · rintro ⟨within, ordered, count⟩
    have within' := fun pair member => (listed pair).mpr (within member)
    exact ⟨within', (order within').mpr ordered, count⟩

theorem component_nodup {region : Region} {shapes : ShapeClasses region}
    (member : component ∈ shapes.components canMap) :
    component.before.Nodup ∧ component.after.Nodup := by
  obtain ⟨before, after, _⟩ : (shapes.components canMap).flatMap (·.before) = _ ∧
      (shapes.components canMap).flatMap (·.after) = _ ∧ _ := components_blocks
  have beforeNodup : ((shapes.components canMap).flatMap (·.before)).Nodup := by
    rw [before]
    exact region.beforeNodup.filter _
  have afterNodup : ((shapes.components canMap).flatMap (·.after)).Nodup := by
    rw [after]
    exact region.afterNodup.filter _
  exact ⟨(List.nodup_flatMap.mp beforeNodup).1 component member,
    (List.nodup_flatMap.mp afterNodup).1 component member⟩

end

/-- Exact groups encode the optima: the choices that an exact group of a component admits,
each with the forced pairs of the component, are exactly its largest alignments; a choice has
at least one pair, and there is more than one choice. -/
theorem exact_group_encodes_optima (region : Region) (shapes : ShapeClasses region)
    (shapeEqual canMap : NodeId → NodeId → Bool) {component : AlignmentComponent}
    (member : component ∈ shapes.components canMap) {outcome : AlignmentOutcome}
    (run : boundedComponentStableCore shapeEqual canMap (shapes.grouped canMap) component = outcome)
    {group : AlignmentAmbiguity} (emitted : group ∈ outcome.ambiguities) {predicate : Predicate}
    {requiredMatches : Nat} {possiblePairs : List AmbiguityPair}
    (exact : group.constraint = .exactOrderedAlignment predicate requiredMatches possiblePairs) :
    (∀ pairs, Optimal (Compatible shapeEqual canMap (shapes.grouped canMap)) component.before
        component.after pairs ↔
      ∃ chosen, Resolution group requiredMatches possiblePairs chosen ∧
        pairs = chosen ∪ outcome.forced.toFinset) ∧
    1 ≤ requiredMatches ∧
    ∃ first second, Resolution group requiredMatches possiblePairs first ∧
      Resolution group requiredMatches possiblePairs second ∧ first ≠ second := by
  subst run
  obtain ⟨nodup, nodup'⟩ := component_nodup member
  obtain ⟨scan, covers, single, listed, rfl, rfl, rfl, outcomeForced⟩ := emitted_exact emitted exact
  have residue := scan_residue nodup nodup' covers single
  have some : component.before ≠ [] := by
    rintro empty
    have cells : component.cells = [] := by simp [AlignmentComponent.cells, Grid.cells, empty]
    rw [covers.possible, cells] at listed
    exact listed rfl
  have forcedCard : scan.forced.toFinset.card = scan.forced.length :=
    List.toFinset_card_of_nodup (scan_nodup nodup nodup' covers)
  rw [outcomeForced, sortPairs_toFinset]
  simp only [resolution_iff nodup nodup' covers single]
  have optima : ∀ pairs, Optimal (Compatible shapeEqual canMap (shapes.grouped canMap))
      component.before component.after pairs ↔ _ := fun _ => residue.optimal_iff nodup nodup'
  simp only [← optimumOf_eq some, forcedCard] at optima
  obtain ⟨least, first, second, optimal, optimal', different⟩ := residue.several nodup nodup'
    (by simpa using listed)
  rw [← optimumOf_eq some, forcedCard] at least
  refine ⟨fun pairs => ?_, least, ?_⟩
  · rw [optima pairs]
    simp only [and_assoc]
  · have resolution : ∀ pairs, Optimal (Compatible shapeEqual canMap (shapes.grouped canMap))
        component.before component.after pairs →
        pairs \ scan.forced.toFinset ⊆
          (scan.possiblePairs.map fun pair => (pair.beforeId, pair.afterId)).toFinset ∧
        OrderPreserving component.before component.after (pairs \ scan.forced.toFinset) ∧
        (pairs \ scan.forced.toFinset).card =
          optimumOf shapeEqual canMap (shapes.grouped canMap) component - scan.forced.length := by
      intro pairs best
      refine ⟨residue.sdiff_subset nodup nodup' best,
        best.toOrderPreserving.subset Finset.sdiff_subset, ?_⟩
      rw [Finset.card_sdiff_of_subset (residue.forced_subset nodup nodup' best), forcedCard,
        best.card_eq nodup nodup', optimumOf_eq some]
    exact ⟨_, _, resolution first optimal, resolution second optimal', different⟩

/-- Two nodes on either side whose only candidates cross each other. -/
def crossingRegion : Region where
  before := [1, 2]
  after := [1, 2]
  beforeNodup := by decide
  afterNodup := by decide

def crossingShapes : ShapeClasses crossingRegion where
  classes := [⟨[1], [2]⟩, ⟨[2], [1]⟩]
  before := by decide
  after := by decide
  nonempty := by decide
  apart := by simp [List.Disjoint]

def crossingComponent : AlignmentComponent := ⟨[1, 2], [1, 2], [0, 1]⟩

def crossingGroup : AlignmentAmbiguity :=
  ⟨[1, 2], [1, 2], .exactOrderedAlignment .shapeEqual 1 [⟨1, 2⟩, ⟨2, 1⟩], optionalAmbiguityReason⟩

/-- Of two crossing pairs one has to be chosen, and either may be. -/
theorem exact_group_encodes_optima_crossing :
    (∀ pairs, Optimal (Compatible (fun _ _ => true) (fun _ _ => true)
        (crossingShapes.grouped fun _ _ => true)) [1, 2] [1, 2] pairs ↔
      ∃ chosen, Resolution crossingGroup 1 [⟨1, 2⟩, ⟨2, 1⟩] chosen ∧
        pairs = chosen ∪ ([] : List (NodeId × NodeId)).toFinset) ∧
    ∃ first second, Resolution crossingGroup 1 [⟨1, 2⟩, ⟨2, 1⟩] first ∧
      Resolution crossingGroup 1 [⟨1, 2⟩, ⟨2, 1⟩] second ∧ first ≠ second := by
  have member : crossingComponent ∈ crossingShapes.components fun _ _ => true := by decide +kernel
  have run : boundedComponentStableCore (fun _ _ => true) (fun _ _ => true)
      (crossingShapes.grouped fun _ _ => true) crossingComponent = ⟨[], [crossingGroup]⟩ := by
    decide +kernel
  obtain ⟨optima, _, several⟩ := exact_group_encodes_optima crossingRegion crossingShapes
    (fun _ _ => true) (fun _ _ => true) member run (List.mem_singleton.mpr rfl) rfl
  exact ⟨optima, several⟩

end Stratadiff
