import Stratadiff.Matcher.Ordered
import Stratadiff.Verifier.StableCore

/-!
# The verifier derives what the matcher computes

The verifier has copies of its own of the functions that come to the stable core of a region,
and it charges for what they do. What a copy returns, when the budget lasts, is what the
function of the matcher returns.
-/

namespace Stratadiff.Verifier

open Metered (Ensures Yields)

/-! ## Tests of two nodes -/

section

variable (before after : ParsedSyntax) (phase : PhaseMappings)

/-- `can_map_shape_pair` of the matcher, for the mappings of the global phase. -/
def PhaseMappings.canMap : NodeId → NodeId → Bool :=
  canMapShapePair before after phase.beforeToAfter phase.afterToBefore

end

section

variable {before after : ParsedSyntax} {phase : PhaseMappings} {context : String} {x y : NodeId}

theorem budgetedShapeEqual_yields :
    (budgetedShapeEqual before after x y context).Yields (shapeEqual before after x y) :=
  .after fun _ => Yields.pure

/-- The test for a conflict is the same in both. -/
theorem allows_iff : phase.Allows x y ↔
    (phase.beforeToAfter[x]?.join.any (· != y) || phase.afterToBefore[y]?.join.any (· != x)) =
      false := by
  have nowhere_else (entry : Option Nat) (id : Nat) :
      entry.any (· != id) = false ↔ ∀ mapped ∈ entry, mapped = id := by
    cases entry <;> simp
  rw [Bool.or_eq_false_iff, nowhere_else, nowhere_else]
  rfl

theorem phaseMappingsAreCompatible_yields :
    (phaseMappingsAreCompatible before after phase x y).Yields
      (phase.canMap before after x y) := by
  rw [phaseMappingsAreCompatible, PhaseMappings.canMap, canMapShapePair]
  generalize before.nodes.length = depth
  induction depth generalizing x y with
  | zero => exact .lift nofun
  | succ depth ih =>
      rw [descend, descend, compatibleStep, canMapShapeStep]
      refine .after fun _ => ?_
      by_cases allowed : phase.Allows x y
      · rw [if_neg (not_not.mpr allowed), allows_iff.mp allowed, if_neg Bool.false_ne_true]
        by_cases same : (before.children x).length = (after.children y).length
        · rw [if_neg (not_not.mpr same), beq_iff_eq.mpr same, Bool.true_and]
          exact Yields.allM fun pair _ => ih
        · rw [if_pos same, beq_eq_false_iff_ne.mpr same, Bool.false_and]
          exact Yields.pure
      · rw [if_pos allowed, if_pos (Bool.not_eq_false _ ▸ mt allows_iff.mpr allowed)]
        exact Yields.pure

end

/-! ## Shape classes -/

section

variable {sameM crossM : NodeId → NodeId → Check Bool} {same cross : NodeId → NodeId → Bool}
variable {id : NodeId} {classes : List ShapeClass} {beforeIds afterIds : List NodeId}

theorem placeBefore_yields (tests : ∀ x y, (sameM x y).Yields (same x y)) :
    (placeBefore sameM id classes).Yields (Stratadiff.placeBefore same id classes) := by
  induction classes with
  | nil => exact Yields.pure
  | cons shapeClass classes ih =>
      rw [placeBefore, Stratadiff.placeBefore]
      refine .after fun _ => Yields.bind (tests _ _) ?_
      cases same id shapeClass.representative with
      | true => exact Yields.pure
      | false => exact Yields.bind ih Yields.pure

theorem placeAfter_yields (tests : ∀ x y, (crossM x y).Yields (cross x y)) :
    (placeAfter crossM id classes).Yields (Stratadiff.placeAfter cross id classes) := by
  induction classes with
  | nil => exact Yields.pure
  | cons shapeClass classes ih =>
      rw [placeAfter, Stratadiff.placeAfter]
      refine .after fun _ => Yields.bind (tests _ _) ?_
      cases cross shapeClass.representative id with
      | true => exact Yields.pure
      | false => exact Yields.bind ih Yields.pure

theorem partitionIndexBucket_yields (sames : ∀ x y, (sameM x y).Yields (same x y))
    (crosses : ∀ x y, (crossM x y).Yields (cross x y)) :
    (partitionIndexBucket sameM crossM beforeIds afterIds).Yields
      (Stratadiff.partitionIndexBucket same cross beforeIds afterIds) := by
  refine Yields.bind (Yields.foldlM (fun _ _ _ => placeBefore_yields sames) _) ?_
  refine Yields.bind (Yields.foldlM (fun _ _ _ => placeAfter_yields crosses) _) ?_
  exact .after fun _ => Yields.pure

theorem verifiedShapeClasses_yields {before after : ParsedSyntax} :
    (verifiedShapeClasses before after beforeIds afterIds).Yields
      (Stratadiff.verifiedShapeClasses before after beforeIds afterIds) := by
  have indexed (tree : ParsedSyntax) (ids : List NodeId) (context : String) :
      (buckets tree ids shapeKey context).Yields (Buckets.of (shapeKey tree) ids) :=
    .after fun _ => Yields.pure
  rw [verifiedShapeClasses, Stratadiff.verifiedShapeClasses, List.flatMap_eq_foldl]
  refine Yields.bind (indexed _ _ _) (Yields.bind (indexed _ _ _) (.after fun _ => ?_))
  refine Yields.foldlM (fun classes entry _ => ?_) _
  cases Buckets.get (Buckets.of (shapeKey after) afterIds) entry.1 with
  | none =>
      rw [Option.map_none, Option.getD_none, List.append_nil]
      exact Yields.pure
  | some afterBucket =>
      rw [Option.map_some, Option.getD_some]
      refine Yields.bind (partitionIndexBucket_yields ?_ ?_) Yields.pure
      · exact fun _ _ => budgetedShapeEqual_yields
      · exact fun _ _ => budgetedShapeEqual_yields

end

/-! ## Candidate groups -/

section

variable {canMap : NodeId → NodeId → Bool} {shapeClass : ShapeClass} {scan : CandidateScan}

/-- Two nested loops over the pairs of a class are one over its edges. -/
theorem foldl_edges {σ : Type} {join : σ → Nat × Nat → σ} {start : σ} :
    shapeClass.before.zipIdx.foldl (fun scan x => shapeClass.after.zipIdx.foldl (fun scan y =>
        if canMap x.1 y.1 then join scan (x.2, shapeClass.before.length + y.2) else scan) scan)
        start =
      (shapeClass.edges canMap).foldl join start := by
  rw [ShapeClass.edges, List.foldl_flatMap]
  simp only [List.foldl_map, List.foldl_filter]

theorem foldl_join_sets {edges : List (Nat × Nat)} :
    (edges.foldl (fun scan edge => scan.join edge.1 edge.2) scan).sets =
      edges.foldl (fun sets edge => DisjointSets.union sets edge.1 edge.2) scan.sets := by
  induction edges generalizing scan with
  | nil => rfl
  | cons edge edges ih =>
      rw [List.foldl_cons, ih]
      rfl

theorem join_incident {left right vertex : Nat} (inside : left < scan.incident.length)
    (inside' : right < scan.incident.length) :
    (scan.join left right).incident[vertex]?.getD false =
      (scan.incident[vertex]?.getD false || (left == vertex || right == vertex)) := by
  rw [CandidateScan.join, List.getElem?_set, List.length_set, List.getElem?_set]
  by_cases last : right = vertex
  · subst last
    simp [inside']
  · by_cases first : left = vertex
    · subst first
      simp [inside, last]
    · simp [first, last]

theorem foldl_join_incident {edges : List (Nat × Nat)} {vertex : Nat}
    (inside : ∀ edge ∈ edges, edge.1 < scan.incident.length ∧ edge.2 < scan.incident.length) :
    (edges.foldl (fun scan edge => scan.join edge.1 edge.2) scan).incident[vertex]?.getD false =
      (scan.incident[vertex]?.getD false ||
        edges.any fun edge => edge.1 == vertex || edge.2 == vertex) := by
  induction edges generalizing scan with
  | nil => rw [List.foldl_nil, List.any_nil, Bool.or_false]
  | cons edge edges ih =>
      obtain ⟨first, later⟩ := List.forall_mem_cons.mp inside
      have width : (scan.join edge.1 edge.2).incident.length = scan.incident.length := by
        rw [CandidateScan.join, List.length_set, List.length_set]
      rw [List.foldl_cons, ih (width ▸ later), join_incident first.1 first.2, List.any_cons,
        Bool.or_assoc]

/-- The elements at the positions that pass a test. -/
theorem filterMap_places {ids : List NodeId} {p : Nat → Bool} :
    ((List.range ids.length).filter p).filterMap (fun place => ids[place]?) =
      (ids.zipIdx.filter fun entry => p entry.2).map Prod.fst := by
  induction ids using List.reverseRecOn with
  | nil => rfl
  | append_singleton ids id ih =>
      have earlier : ((List.range ids.length).filter p).filterMap
          (fun place => (ids ++ [id])[place]?) =
            ((List.range ids.length).filter p).filterMap fun place => ids[place]? := by
        refine List.filterMap_congr fun place member => ?_
        have below := List.mem_range.mp (List.mem_filter.mp member).1
        exact List.getElem?_append_left below
      rw [List.length_append, List.length_singleton, List.range_succ, List.filter_append,
        List.filterMap_append, earlier, ih, List.zipIdx_append, List.filter_append,
        List.map_append]
      by_cases passes : p ids.length = true
      · simp [passes]
      · simp [passes]

/-- Vertices that are nodes before. -/
theorem filterMap_before {p : Nat → Bool} {ids others : List NodeId} :
    ((List.range (ids.length + others.length)).filter p).filterMap (fun vertex => ids[vertex]?) =
      (ids.zipIdx.filter fun entry => p (0 + entry.2)).map Prod.fst := by
  simp only [Nat.zero_add, ← filterMap_places]
  rw [List.range_add, List.filter_append, List.filterMap_append, List.filter_map,
    List.filterMap_map]
  simp

/-- Vertices that are nodes after. -/
theorem filterMap_after {p : Nat → Bool} {ids others : List NodeId} :
    ((List.range (ids.length + others.length)).filter p).filterMap (fun vertex =>
        if vertex < ids.length then none else others[vertex - ids.length]?) =
      (others.zipIdx.filter fun entry => p (ids.length + entry.2)).map Prod.fst := by
  have none_before : ((List.range ids.length).filter p).filterMap (fun vertex =>
      if vertex < ids.length then none else others[vertex - ids.length]?) = [] := by
    rw [List.filterMap_eq_nil_iff]
    intro vertex member
    rw [if_pos (List.mem_range.mp (List.mem_filter.mp member).1)]
  rw [List.range_add, List.filter_append, List.filterMap_append, none_before, List.nil_append,
    List.filter_map, List.filterMap_map,
    ← @filterMap_places others fun place => p (ids.length + place)]
  simp [Function.comp_def]

/-- The groups that are collected after the loops are those of the matcher. -/
theorem connected_eq (sets : scan.sets = shapeClass.sets canMap)
    (incident : ∀ vertex, scan.incident[vertex]?.getD false = shapeClass.incident canMap vertex) :
    scan.connected shapeClass = (shapeClass.roots canMap).map fun root => {
      before := shapeClass.connected canMap shapeClass.before 0 root
      after := shapeClass.connected canMap shapeClass.after shapeClass.before.length root
      scanComplete := true } := by
  rw [CandidateScan.connected, Buckets.of_eq_map, List.map_map, ShapeClass.roots]
  simp only [sets, incident]
  refine List.map_congr_left fun root _ => ?_
  simp only [Function.comp_apply, Buckets.bucket, List.filter_filter]
  rw [filterMap_before, filterMap_after, ShapeClass.connected, ShapeClass.connected]
  simp only [Bool.and_comm, beq_eq_decide]

end

section

variable {before after : ParsedSyntax} {phase : PhaseMappings} {shapeClass : ShapeClass}
variable {scan : CandidateScan} {classes : List ShapeClass}

theorem scanCandidates_yields : (scanCandidates before after phase shapeClass scan).Yields
    ((shapeClass.edges (phase.canMap before after)).foldl
      (fun scan edge => scan.join edge.1 edge.2) scan) := by
  rw [← foldl_edges]
  refine Yields.foldlM (fun scan x _ => Yields.foldlM (fun scan y _ => ?_) _) _
  refine Yields.bind phaseMappingsAreCompatible_yields ?_
  cases phase.canMap before after x.1 y.1 with
  | true => exact Yields.pure
  | false => exact Yields.pure

/-- A product that exceeds the numbers of the machine also exceeds the limit. -/
theorem scanned_iff {beforeLen afterLen : Nat} :
    (∃ pairs ∈ checkedMul beforeLen afterLen, pairs ≤ orderedAlignmentCandidateScanLimit) ↔
      beforeLen * afterLen ≤ orderedAlignmentCandidateScanLimit := by
  have fits : orderedAlignmentCandidateScanLimit ≤ usizeMax := by decide
  rw [checkedMul]
  split
  · simp
  · simp
    omega

theorem shapeClassGroups_yields : (shapeClassGroups before after phase shapeClass).Yields
    (shapeClass.groups (phase.canMap before after)) := by
  rw [ShapeClass.groups]
  refine .after fun _ => ?_
  by_cases scanned : shapeClass.before.length * shapeClass.after.length ≤
      orderedAlignmentCandidateScanLimit
  · rw [if_neg (not_not.mpr (scanned_iff.mpr scanned)), if_neg (not_lt.mpr scanned)]
    refine .after fun _ => ?_
    refine Ensures.bind (.lift fun vertexCount added => (checkedAddNamed_eq_ok.mp added).2) ?_
    rintro vertexCount rfl
    have fresh (count vertex : Nat) : (List.replicate count false)[vertex]?.getD false = false := by
      rw [List.getElem?_replicate]
      split <;> rfl
    refine .after fun _ => Yields.bind scanCandidates_yields (.after fun _ => ?_)
    rw [connected_eq]
    · exact Yields.pure
    · exact foldl_join_sets
    · intro vertex
      rw [foldl_join_incident, fresh, Bool.false_or, ShapeClass.incident]
      simpa using ShapeClass.edges_inside
  · rw [if_pos (mt scanned_iff.mp scanned), if_pos (not_le.mp scanned)]
    exact .after fun _ => .after fun _ => Yields.pure

theorem verifiedCandidateGroups_yields :
    (verifiedCandidateGroups before after phase classes).Yields
      (Stratadiff.verifiedCandidateGroups (phase.canMap before after) classes) := by
  rw [verifiedCandidateGroups, Stratadiff.verifiedCandidateGroups, List.flatMap_eq_foldl]
  have visits (found : List CandidateGroup) (shapeClass : ShapeClass) (_ : shapeClass ∈ classes) :
      (shapeClassGroups before after phase shapeClass >>= fun more =>
        pure (found ++ more)).Yields (found ++ shapeClass.groups (phase.canMap before after)) :=
    Yields.bind shapeClassGroups_yields Yields.pure
  refine Yields.bind (Yields.foldlM visits []) ?_
  exact .after fun _ => .after fun _ => Yields.pure

end

/-! ## Components -/

section

variable {groups : CandidateGroups} {index : NodeId → Option Nat} {side : String} {id : NodeId}
variable {beforeIds afterIds : List NodeId} {state : Partition} {entry : NodeId × Nat}

theorem activeGroup_ensures :
    (activeGroup index side id).Ensures fun groupId => index id = some groupId :=
  .lift fun _ found => Result.ofOption_eq_ok.mp found

theorem visitActive_yields :
    (visitActive groups (groups.active beforeIds afterIds) state entry).Yields
      ((state.see (groups.active beforeIds afterIds)
        ((groups.active beforeIds afterIds).beforeGroup entry.1)).cut
          (groups.active beforeIds afterIds) entry.2) := by
  refine Ensures.bind activeGroup_ensures fun groupId found => ?_
  have same : (groups.active beforeIds afterIds).beforeGroup entry.1 = groupId := by
    show (groups.beforeGroup entry.1).getD 0 = groupId
    rw [found, Option.getD_some]
  rw [same]
  dsimp only
  split
  · exact .after fun _ => .after fun _ => Yields.pure
  · exact Yields.pure

theorem orderedInteractionComponents_yields :
    (orderedInteractionComponents groups beforeIds afterIds).Yields
      (Stratadiff.orderedInteractionComponents groups beforeIds afterIds) := by
  rw [orderedInteractionComponents, Stratadiff.orderedInteractionComponents]
  refine .after fun _ => .after fun _ => ?_
  cases (groups.active beforeIds afterIds).before.isEmpty with
  | true => exact Yields.pure
  | false =>
      refine .after fun _ => .after fun _ => .after fun _ => .after fun _ => .after fun _ => ?_
      refine .after fun _ => Yields.bind (Yields.foldlM (fun _ _ _ => visitActive_yields) _) ?_
      exact .after fun _ => Yields.pure

end

/-! ## Tables -/

section

variable {matrix : CandidateMatrix} {forbidden : Option (Nat × Nat)} {context : String}

theorem alignmentPrefixScores_yields :
    (alignmentPrefixScores matrix.rows forbidden context).Yields
      (Stratadiff.alignmentPrefixScores matrix forbidden) := by
  rw [prefixScores_sweep]
  exact .after fun _ => Yields.pure

theorem alignmentSuffixScores_yields :
    (alignmentSuffixScores matrix.rows context).Yields
      (Stratadiff.alignmentSuffixScores matrix) := by
  rw [suffixScores_sweep]
  exact .after fun _ => Yields.pure

theorem alignmentScore_yields :
    (alignmentScore matrix.rows forbidden context).Yields
      (Stratadiff.alignmentScore matrix forbidden) :=
  Yields.bind alignmentPrefixScores_yields Yields.pure

end

/-! ## A bounded component -/

section

variable (before after : ParsedSyntax) (phase : PhaseMappings) (groups : CandidateGroups)
variable (component : AlignmentComponent)

/-- The tables that the matcher fills for a component. -/
def matcherTables : ComponentTables :=
  let matrix := componentMatrix (shapeEqual before after) (phase.canMap before after) groups
    component
  { candidates := matrix.rows
    prefixes := Stratadiff.alignmentPrefixScores matrix none
    suffixes := Stratadiff.alignmentSuffixScores matrix
    optimum := optimumOf (shapeEqual before after) (phase.canMap before after) groups component }

variable {before after phase groups component} {x y : NodeId} {scan : CoreScan}
variable {cell : Nat × Nat} {optimum : Nat}

theorem isCandidate_yields {beforeGroup : Nat} (found : groups.beforeGroup x = some beforeGroup) :
    (isCandidate before after phase groups beforeGroup x y).Yields
      (compatible (shapeEqual before after) (phase.canMap before after) groups x y) := by
  refine Ensures.bind activeGroup_ensures fun afterGroup found' => ?_
  rw [compatible, found, found']
  by_cases same : beforeGroup = afterGroup
  · rw [if_pos same, beq_iff_eq.mpr (congrArg some same), Bool.true_and]
    refine Yields.bind budgetedShapeEqual_yields ?_
    cases shapeEqual before after x y with
    | true => exact phaseMappingsAreCompatible_yields
    | false => exact Yields.pure
  · rw [if_neg same, beq_eq_false_iff_ne.mpr fun both => same (Option.some_inj.mp both)]
    exact Yields.pure

theorem candidateMatrix_yields :
    (candidateMatrix before after phase groups component).Yields
      (matcherTables before after phase groups component).candidates := by
  refine .after fun _ => Yields.mapM fun x _ => ?_
  refine Ensures.bind activeGroup_ensures fun beforeGroup found => ?_
  exact Yields.mapM fun y _ => isCandidate_yields found

/-- The test of a candidate that has no other partner. -/
theorem forcedAt_eq (single : (groupAt groups component cell).isSingleton = true) :
    forcedAt (shapeEqual before after) (phase.canMap before after) groups component cell =
      decide (Stratadiff.alignmentScore (componentMatrix (shapeEqual before after)
        (phase.canMap before after) groups component) (some cell) <
          (matcherTables before after phase groups component).optimum) := by
  rw [forcedAt, candidateIsForced, single, Bool.true_and]
  rfl

theorem scanCell_yields :
    (scanCell groups component (matcherTables before after phase groups component) scan cell).Yields
      (scan.step (shapeEqual before after) (phase.canMap before after) groups component cell) := by
  have same : (matcherTables before after phase groups component).occurs cell =
      occursAt (shapeEqual before after) (phase.canMap before after) groups component cell := rfl
  rw [scanCell, CoreScan.step, same]
  cases occursAt (shapeEqual before after) (phase.canMap before after) groups component cell with
  | false => exact Yields.pure
  | true =>
      refine Ensures.bind activeGroup_ensures fun groupId found => ?_
      have group : groups.groups[groupId]?.getD ⟨[], [], true⟩ = groupAt groups component cell := by
        rw [groupAt, CandidateGroups.ofBefore, found]
        rfl
      rw [group]
      dsimp only
      cases single : (groupAt groups component cell).isSingleton with
      | false =>
          rw [not_forced_of_group single]
          exact Yields.bind Yields.pure Yields.pure
      | true =>
          refine Yields.bind alignmentScore_yields (Yields.bind Yields.pure ?_)
          rw [← forcedAt_eq single]
          cases forcedAt (shapeEqual before after) (phase.canMap before after) groups component
              cell with
          | true => exact Yields.pure
          | false => exact Yields.pure

/-- The loop over the candidates. -/
theorem scanCells_yields :
    (component.cells.foldlM
      (scanCell groups component (matcherTables before after phase groups component)) {}).Yields
        (coreScan (shapeEqual before after) (phase.canMap before after) groups component) := by
  have loops : coreScan (shapeEqual before after) (phase.canMap before after) groups component =
      component.cells.foldl (CoreScan.step (shapeEqual before after) (phase.canMap before after)
        groups component) {} := Grid.foldl_cells
  rw [loops]
  exact Yields.foldlM (fun scan cell _ => scanCell_yields) {}

theorem componentAmbiguity_yields :
    (componentAmbiguity component scan optimum).Yields (scan.ambiguity component optimum) :=
  .after fun _ => .after fun _ => .after fun _ => Yields.pure

theorem verifyBoundedComponent_yields :
    (verifyBoundedComponent before after phase groups component).Yields
      (boundedComponentStableCore (shapeEqual before after) (phase.canMap before after) groups
        component) := by
  refine Yields.bind candidateMatrix_yields ?_
  refine Yields.bind alignmentPrefixScores_yields (Yields.bind alignmentSuffixScores_yields ?_)
  rw [boundedComponentStableCore, ← optimumOf]
  by_cases empty : optimumOf (shapeEqual before after) (phase.canMap before after) groups
      component = 0
  · rw [if_pos empty, if_pos empty]
    exact Yields.pure
  · rw [if_neg empty, if_neg empty]
    refine .after fun _ => Yields.bind scanCells_yields (.after fun _ => ?_)
    dsimp only
    split
    · exact Yields.pure
    · exact Yields.bind componentAmbiguity_yields Yields.pure

theorem oversizedAlignment_yields :
    (oversizedAlignment groups component).Yields
      (oversizedAlignmentAmbiguities groups component) :=
  .after fun _ => .after fun _ => .after fun _ => Yields.pure

theorem componentOutcome_yields :
    (componentOutcome before after phase groups component).Yields
      (Stratadiff.componentOutcome before after (phase.canMap before after) groups
        component) := by
  rw [componentOutcome, Stratadiff.componentOutcome, withinAlignmentLimit]
  split
  · next within =>
      rw [decide_eq_true within.1, decide_eq_true within.2]
      exact verifyBoundedComponent_yields
  · next large =>
      have large : ¬ (decide (component.before.length ≤ orderedAlignmentComponentLimit) &&
          decide (component.after.length ≤ orderedAlignmentComponentLimit)) = true := by
        simpa using large
      rw [if_neg large]
      exact oversizedAlignment_yields

/-- The outcome that the verifier derives for a region is the one that the matcher computes. -/
theorem independentStableCore_yields {beforeIds afterIds : List NodeId} :
    (independentStableCore before after phase beforeIds afterIds).Yields
      (boundedOrderedStableCore before after (phase.canMap before after) beforeIds
        afterIds) := by
  rw [boundedOrderedStableCore]
  refine Yields.bind verifiedShapeClasses_yields ?_
  dsimp only
  split
  · exact Yields.pure
  · refine Yields.bind verifiedCandidateGroups_yields ?_
    split
    · exact Yields.pure
    · refine Yields.bind orderedInteractionComponents_yields ?_
      refine Yields.bind (Yields.foldlM (fun outcome _ _ => ?_) _) (.after fun _ => Yields.pure)
      exact Yields.bind componentOutcome_yields Yields.pure

end

end Stratadiff.Verifier
