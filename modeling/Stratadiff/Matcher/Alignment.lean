import Stratadiff.Lib.Alignment
import Stratadiff.Lib.Grid

/-!
# The alignment tables of the matcher

`matcher.rs` decides with two tables which candidate pairs of a region are in some longest
order-preserving alignment, and by a third table without one candidate whether that
candidate is in all of them. The verifier computes the same tables.
-/

namespace Stratadiff

/-- A candidate matrix: a row for each item before, all of one length. -/
structure CandidateMatrix where
  rows : List (List Bool)
  rectangular : Grid.Shape rows rows.length ((rows.head?.map List.length).getD 0)

namespace CandidateMatrix

variable (candidates : CandidateMatrix)

def beforeLen : Nat := candidates.rows.length

/-- `candidates.first().map_or(0, Vec::len)`. -/
def afterLen : Nat := (candidates.rows.head?.map List.length).getD 0

def candidate (i j : Nat) : Bool := Grid.entry candidates.rows i j

end CandidateMatrix

/-- One step of the table of prefixes. -/
def prefixBest (candidates : CandidateMatrix) (forbidden : Option (Nat × Nat)) (cell : Nat × Nat)
    (scores : List (List Nat)) : Nat :=
  let best := max (Grid.entry scores cell.1 (cell.2 + 1)) (Grid.entry scores (cell.1 + 1) cell.2)
  if candidates.candidate cell.1 cell.2 ∧ forbidden ≠ some cell then
    max best (Grid.entry scores cell.1 cell.2 + 1)
  else best

def alignmentPrefixScores (candidates : CandidateMatrix) (forbidden : Option (Nat × Nat)) :
    List (List Nat) :=
  (List.range candidates.beforeLen).foldl
    (fun scores beforeIndex => (List.range candidates.afterLen).foldl
      (fun scores afterIndex => Grid.put scores (beforeIndex + 1) (afterIndex + 1)
        (prefixBest candidates forbidden (beforeIndex, afterIndex) scores)) scores)
    (Grid.fill (candidates.beforeLen + 1) (candidates.afterLen + 1) 0)

/-- One step of the table of suffixes. -/
def suffixBest (candidates : CandidateMatrix) (cell : Nat × Nat) (scores : List (List Nat)) : Nat :=
  let best := max (Grid.entry scores (cell.1 + 1) cell.2) (Grid.entry scores cell.1 (cell.2 + 1))
  if candidates.candidate cell.1 cell.2 then
    max best (Grid.entry scores (cell.1 + 1) (cell.2 + 1) + 1)
  else best

def alignmentSuffixScores (candidates : CandidateMatrix) : List (List Nat) :=
  (List.range candidates.beforeLen).reverse.foldl
    (fun scores beforeIndex => (List.range candidates.afterLen).reverse.foldl
      (fun scores afterIndex => Grid.put scores beforeIndex afterIndex
        (suffixBest candidates (beforeIndex, afterIndex) scores)) scores)
    (Grid.fill (candidates.beforeLen + 1) (candidates.afterLen + 1) 0)

def alignmentScore (candidates : CandidateMatrix) (forbidden : Option (Nat × Nat)) : Nat :=
  Grid.entry (alignmentPrefixScores candidates forbidden) candidates.beforeLen candidates.afterLen

def candidateOccursInOptimum (candidates : CandidateMatrix) (prefixes suffixes : List (List Nat))
    (optimum beforeIndex afterIndex : Nat) : Bool :=
  candidates.candidate beforeIndex afterIndex &&
    Grid.entry prefixes beforeIndex afterIndex + 1 +
      Grid.entry suffixes (beforeIndex + 1) (afterIndex + 1) == optimum

def candidateIsForced (candidates : CandidateMatrix) (optimum beforeIndex afterIndex : Nat)
    (candidateGroupIsSingleton : Bool) : Bool :=
  candidateGroupIsSingleton &&
    decide (alignmentScore candidates (some (beforeIndex, afterIndex)) < optimum)

/-! ## The tables -/

namespace CandidateMatrix

variable {candidates : CandidateMatrix} {forbidden : Option (Nat × Nat)}

/-- A candidate that is not forbidden. -/
def Allowed (candidates : CandidateMatrix) (forbidden : Option (Nat × Nat)) (i j : Nat) : Prop :=
  candidates.candidate i j = true ∧ forbidden ≠ some (i, j)

instance (i j : Nat) : Decidable (candidates.Allowed forbidden i j) :=
  inferInstanceAs (Decidable (_ ∧ _))

theorem allowed_none {i j : Nat} :
    candidates.Allowed none i j ↔ candidates.candidate i j = true := by
  simp [Allowed]

theorem inside {i j : Nat} (h : candidates.candidate i j = true) :
    i < candidates.beforeLen ∧ j < candidates.afterLen := by
  rw [candidate, Grid.entry] at h
  cases found : candidates.rows[i]? with
  | none =>
      rw [found] at h
      cases h
  | some row =>
      rw [found, Option.getD_some] at h
      cases value : row[j]? with
      | none =>
          rw [value] at h
          cases h
      | some _ =>
          have width := candidates.rectangular.columns row (List.mem_of_getElem? found)
          have below : j < row.length := (List.getElem?_eq_some_iff.mp value).1
          exact ⟨(List.getElem?_eq_some_iff.mp found).1, by rw [width] at below; exact below⟩

end CandidateMatrix

open CandidateMatrix

section

variable {candidates : CandidateMatrix} {forbidden : Option (Nat × Nat)}

theorem prefixScores_sweep : alignmentPrefixScores candidates forbidden =
    Grid.sweep (fun cell => (cell.1 + 1, cell.2 + 1)) (prefixBest candidates forbidden)
      (Grid.fill (candidates.beforeLen + 1) (candidates.afterLen + 1) 0)
      (Grid.cells (List.range candidates.beforeLen) (List.range candidates.afterLen)) := by
  rw [alignmentPrefixScores, Grid.sweep, ← Grid.foldl_cells]

/-- The cells of the table that one step looks at. -/
def prefixReads (cell place : Nat × Nat) : Prop :=
  place = (cell.1, cell.2 + 1) ∨ place = (cell.1 + 1, cell.2) ∨ place = (cell.1, cell.2)

theorem prefix_ordered {before after : Nat} :
    Grid.Ordered (fun cell => (cell.1 + 1, cell.2 + 1)) prefixReads
      (Grid.cells (List.range before) (List.range after)) where
  later := by
    refine (Grid.cells_pairwise List.pairwise_lt_range List.pairwise_lt_range).imp ?_
    intro first second ordered
    simp only [prefixReads, Prod.mk.injEq, ne_eq]
    omega
  own := by
    rintro ⟨i, j⟩ _
    simp [prefixReads]

theorem prefixBest_reads : Grid.Reads (prefixBest candidates forbidden) prefixReads := by
  intro cell grid grid' same
  simp only [prefixBest]
  rw [same _ (.inl rfl), same _ (.inr (.inl rfl)), same _ (.inr (.inr rfl))]

theorem prefix_inside {cell : Nat × Nat}
    (member : cell ∈ Grid.cells (List.range candidates.beforeLen)
      (List.range candidates.afterLen)) :
    cell.1 + 1 < candidates.beforeLen + 1 ∧ cell.2 + 1 < candidates.afterLen + 1 := by
  have both := Grid.mem_cells.mp member
  rw [List.mem_range, List.mem_range] at both
  omega

theorem prefixScores_succ {i j : Nat} (row : i < candidates.beforeLen)
    (column : j < candidates.afterLen) :
    Grid.entry (alignmentPrefixScores candidates forbidden) (i + 1) (j + 1) =
      prefixBest candidates forbidden (i, j) (alignmentPrefixScores candidates forbidden) := by
  rw [prefixScores_sweep]
  refine Grid.sweep_recurrence Grid.shape_fill (fun _ => prefix_inside) prefix_ordered
    prefixBest_reads (i, j) (Grid.mem_cells.mpr ?_)
  exact ⟨List.mem_range.mpr row, List.mem_range.mpr column⟩

/-- The first row and the first column stay as they were. -/
theorem prefixScores_edge {i j : Nat} (edge : i = 0 ∨ j = 0) :
    Grid.entry (alignmentPrefixScores candidates forbidden) i j = 0 := by
  rw [prefixScores_sweep, Grid.sweep_other Grid.shape_fill fun _ => prefix_inside]
  · exact Grid.entry_fill
  · intro cell _ same
    obtain ⟨rfl, rfl⟩ := Prod.mk.inj same
    omega

/-- The table of prefixes has the lengths of their longest alignments. -/
theorem prefixScores_eq {i j : Nat} (row : i ≤ candidates.beforeLen)
    (column : j ≤ candidates.afterLen) :
    Grid.entry (alignmentPrefixScores candidates forbidden) i j =
      maximumAlignment (candidates.Allowed forbidden) (List.range i) (List.range j) := by
  induction i generalizing j with
  | zero => rw [prefixScores_edge (.inl rfl), List.range_zero, maximum_nil_left]
  | succ i ihRow =>
      induction j with
      | zero => rw [prefixScores_edge (.inr rfl), List.range_zero, maximum_nil_right]
      | succ j ihColumn =>
          rw [prefixScores_succ row column, prefixBest, ihRow (by omega) column,
            ihRow (by omega) (by omega), ihColumn (by omega), List.range_succ, List.range_succ,
            maximum_snoc]
          rfl

theorem suffixScores_sweep : alignmentSuffixScores candidates =
    Grid.sweep id (suffixBest candidates)
      (Grid.fill (candidates.beforeLen + 1) (candidates.afterLen + 1) 0)
      (Grid.cells (List.range candidates.beforeLen).reverse
        (List.range candidates.afterLen).reverse) := by
  rw [alignmentSuffixScores, Grid.sweep, ← Grid.foldl_cells]
  rfl

def suffixReads (cell place : Nat × Nat) : Prop :=
  place = (cell.1 + 1, cell.2) ∨ place = (cell.1, cell.2 + 1) ∨ place = (cell.1 + 1, cell.2 + 1)

theorem suffix_ordered {before after : Nat} :
    Grid.Ordered id suffixReads
      (Grid.cells (List.range before).reverse (List.range after).reverse) where
  later := by
    refine (Grid.cells_pairwise (List.pairwise_reverse.mpr List.pairwise_lt_range)
      (List.pairwise_reverse.mpr List.pairwise_lt_range)).imp ?_
    rintro ⟨i, j⟩ ⟨i', j'⟩ ordered
    simp only [suffixReads, Prod.mk.injEq, ne_eq, id_eq]
    dsimp only at ordered
    omega
  own := by
    rintro ⟨i, j⟩ _
    simp [suffixReads]

theorem suffixBest_reads : Grid.Reads (suffixBest candidates) suffixReads := by
  intro cell grid grid' same
  simp only [suffixBest]
  rw [same _ (.inl rfl), same _ (.inr (.inl rfl)), same _ (.inr (.inr rfl))]

theorem mem_suffix_cells {i j : Nat} :
    (i, j) ∈ Grid.cells (List.range candidates.beforeLen).reverse
      (List.range candidates.afterLen).reverse ↔
        i < candidates.beforeLen ∧ j < candidates.afterLen := by
  simp [Grid.mem_cells]

theorem suffixScores_step {i j : Nat} (row : i < candidates.beforeLen)
    (column : j < candidates.afterLen) :
    Grid.entry (alignmentSuffixScores candidates) i j =
      suffixBest candidates (i, j) (alignmentSuffixScores candidates) := by
  rw [suffixScores_sweep]
  refine Grid.sweep_recurrence Grid.shape_fill ?_ suffix_ordered suffixBest_reads (i, j)
    (mem_suffix_cells.mpr ⟨row, column⟩)
  rintro ⟨a, b⟩ member
  have both := mem_suffix_cells.mp member
  dsimp only [id_eq]
  omega

/-- The last row and the last column stay as they were. -/
theorem suffixScores_edge {i j : Nat} (edge : candidates.beforeLen ≤ i ∨ candidates.afterLen ≤ j) :
    Grid.entry (alignmentSuffixScores candidates) i j = 0 := by
  rw [suffixScores_sweep, Grid.sweep_other Grid.shape_fill]
  · exact Grid.entry_fill
  · rintro ⟨a, b⟩ member
    have both := mem_suffix_cells.mp member
    dsimp only [id_eq]
    omega
  · rintro ⟨a, b⟩ member same
    cases same
    have both := mem_suffix_cells.mp member
    omega

/-- The table of suffixes has the lengths of their longest alignments. -/
theorem suffixScores_eq {i j k l : Nat} (row : i + k = candidates.beforeLen)
    (column : j + l = candidates.afterLen) :
    Grid.entry (alignmentSuffixScores candidates) i j =
      maximumAlignment (candidates.Allowed none) (List.range' i k) (List.range' j l) := by
  induction k generalizing i j l with
  | zero => rw [suffixScores_edge (.inl (by omega)), List.range'_zero, maximum_nil_left]
  | succ k ihRow =>
      induction l generalizing j with
      | zero => rw [suffixScores_edge (.inr (by omega)), List.range'_zero, maximum_nil_right]
      | succ l ihColumn =>
          have below : Grid.entry (alignmentSuffixScores candidates) (i + 1) j =
              maximumAlignment (candidates.Allowed none) (List.range' (i + 1) k)
                (List.range' j (l + 1)) := ihRow (by omega) column
          have right : Grid.entry (alignmentSuffixScores candidates) i (j + 1) =
              maximumAlignment (candidates.Allowed none) (List.range' i (k + 1))
                (List.range' (j + 1) l) := ihColumn (by omega)
          have both : Grid.entry (alignmentSuffixScores candidates) (i + 1) (j + 1) =
              maximumAlignment (candidates.Allowed none) (List.range' (i + 1) k)
                (List.range' (j + 1) l) := ihRow (by omega) (by omega)
          rw [suffixScores_step (by omega) (by omega), suffixBest, below, right, both,
            List.range'_succ, List.range'_succ, maximum_cons]
          simp only [allowed_none]

theorem alignmentScore_eq : alignmentScore candidates forbidden =
    maximumAlignment (candidates.Allowed forbidden) (List.range candidates.beforeLen)
      (List.range candidates.afterLen) :=
  prefixScores_eq le_rfl le_rfl

end

/-! ## Alignments of positions -/

/-- Candidates in strictly increasing order on both sides. -/
structure OrderedAlignment (candidates : CandidateMatrix) (pairs : List (Nat × Nat)) : Prop where
  ordered : pairs.Pairwise fun first second => first.1 < second.1 ∧ first.2 < second.2
  chosen : ∀ pair ∈ pairs, candidates.candidate pair.1 pair.2 = true

/-- An alignment with as many pairs as any. -/
structure MaximumAlignment (candidates : CandidateMatrix) (pairs : List (Nat × Nat)) : Prop
    extends OrderedAlignment candidates pairs where
  longest : ∀ other, OrderedAlignment candidates other → other.length ≤ pairs.length

section

variable {candidates : CandidateMatrix} {pairs : List (Nat × Nat)}

theorem sublist_range {places : List Nat} {bound : Nat} (ordered : places.Pairwise (· < ·))
    (below : ∀ place ∈ places, place < bound) : places.Sublist (List.range bound) := by
  refine List.sublist_of_subperm_of_pairwise (r := (· < ·)) ?_ ordered List.pairwise_lt_range
  exact List.subperm_of_subset ordered.nodup fun place member =>
    List.mem_range.mpr (below place member)

theorem orderedAlignment_iff : OrderedAlignment candidates pairs ↔
    IsAlignment (candidates.Allowed none) (List.range candidates.beforeLen)
      (List.range candidates.afterLen) pairs := by
  constructor
  · rintro ⟨ordered, isCandidate⟩
    refine ⟨sublist_range ?_ ?_, sublist_range ?_ ?_, ?_⟩
    · exact List.pairwise_map.mpr (ordered.imp And.left)
    · intro place member
      obtain ⟨pair, there, rfl⟩ := List.mem_map.mp member
      exact (inside (isCandidate pair there)).1
    · exact List.pairwise_map.mpr (ordered.imp And.right)
    · intro place member
      obtain ⟨pair, there, rfl⟩ := List.mem_map.mp member
      exact (inside (isCandidate pair there)).2
    · intro pair member
      exact allowed_none.mpr (isCandidate pair member)
  · rintro ⟨left, right, related⟩
    have firsts := List.pairwise_map.mp (List.pairwise_lt_range.sublist left)
    have seconds := List.pairwise_map.mp (List.pairwise_lt_range.sublist right)
    exact ⟨firsts.and seconds, fun pair member => allowed_none.mp (related pair member)⟩

theorem maximumAlignment_iff : MaximumAlignment candidates pairs ↔
    IsMaximum (candidates.Allowed none) (List.range candidates.beforeLen)
      (List.range candidates.afterLen) pairs := by
  constructor
  · rintro ⟨aligned, longest⟩
    have aligned' := orderedAlignment_iff.mp aligned
    refine ⟨aligned', le_antisymm aligned'.le_maximum (maximum_le fun other otherAligned => ?_)⟩
    exact longest other (orderedAlignment_iff.mpr otherAligned)
  · rintro ⟨aligned, longest⟩
    refine ⟨orderedAlignment_iff.mpr aligned, fun other otherAligned => ?_⟩
    rw [longest]
    exact (orderedAlignment_iff.mp otherAligned).le_maximum

/-- A row of positions around one of them. -/
theorem range_around {i bound : Nat} (below : i < bound) :
    List.range bound = List.range i ++ i :: List.range' (i + 1) (bound - (i + 1)) := by
  have split : bound = i + (bound - (i + 1) + 1) := by omega
  rw [← List.range'_succ, List.range_eq_range', List.range_eq_range']
  conv_lhs => rw [split]
  rw [← List.range'_append_1, Nat.zero_add]

theorem nodup_around {i bound : Nat} (below : i < bound) :
    (List.range i ++ i :: List.range' (i + 1) (bound - (i + 1))).Nodup := by
  rw [← range_around below]
  exact List.nodup_range

end

/-- The stable core is exact: a candidate passes the test for occurring in an optimum when
it is in some longest alignment, and the test for being forced when it is in every one. -/
theorem stable_core_exact (candidates : CandidateMatrix) {beforeIndex afterIndex : Nat}
    (row : beforeIndex < candidates.beforeLen) (column : afterIndex < candidates.afterLen) :
    (candidateOccursInOptimum candidates (alignmentPrefixScores candidates none)
        (alignmentSuffixScores candidates) (alignmentScore candidates none) beforeIndex
        afterIndex = true ↔
      ∃ pairs, MaximumAlignment candidates pairs ∧ (beforeIndex, afterIndex) ∈ pairs) ∧
    (candidateIsForced candidates (alignmentScore candidates none) beforeIndex afterIndex true =
        true ↔
      ∀ pairs, MaximumAlignment candidates pairs → (beforeIndex, afterIndex) ∈ pairs) := by
  have split := range_around row
  have split' := range_around column
  constructor
  · have occurs := occurs_iff (R := candidates.Allowed none) (nodup_around row)
      (nodup_around column)
    rw [← split, ← split'] at occurs
    simp only [maximumAlignment_iff]
    refine Iff.trans ?_ occurs.symm
    rw [candidateOccursInOptimum, Bool.and_eq_true, beq_iff_eq, alignmentScore_eq, allowed_none,
      prefixScores_eq row.le column.le,
        suffixScores_eq (k := candidates.beforeLen - (beforeIndex + 1))
        (l := candidates.afterLen - (afterIndex + 1)) (by omega) (by omega)]
  · have without : candidates.Allowed (some (beforeIndex, afterIndex)) =
        Without (candidates.Allowed none) (beforeIndex, afterIndex) := by
      funext i j
      rw [Allowed, Without, allowed_none, ne_eq, ne_eq, Option.some_inj]
      exact propext (and_congr_right' (not_congr eq_comm))
    simp only [maximumAlignment_iff]
    refine Iff.trans ?_ forced_iff.symm
    rw [candidateIsForced, Bool.true_and, decide_eq_true_iff, alignmentScore_eq, alignmentScore_eq,
      without]

/-- Two candidates that cross each other. -/
def crossingCandidates : CandidateMatrix where
  rows := [[false, true], [true, false]]
  rectangular := ⟨rfl, by decide⟩

/-- Either of two crossing candidates is in some longest alignment, neither is in all. -/
theorem stable_core_exact_crossing :
    (∃ pairs, MaximumAlignment crossingCandidates pairs ∧ (0, 1) ∈ pairs) ∧
      ¬ ∀ pairs, MaximumAlignment crossingCandidates pairs → (0, 1) ∈ pairs := by
  have row : 0 < crossingCandidates.beforeLen := by decide
  have column : 1 < crossingCandidates.afterLen := by decide
  obtain ⟨occurs, isForced⟩ := stable_core_exact crossingCandidates row column
  refine ⟨occurs.mp (by decide), fun all => ?_⟩
  have forced := isForced.mpr all
  revert forced
  decide

end Stratadiff
