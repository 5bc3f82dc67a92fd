import Stratadiff.Matcher.StableCore
import Stratadiff.Verifier.Relations

/-!
# Regions and classes

The parts of the verifier that come before the tables: the regions between exact children, what
the global anchors already map, the shape classes of a region and the groups of its candidates.
-/

namespace Stratadiff.Verifier

/-! ## Regions -/

/-- A map from the nodes of a list to their positions. -/
def positionOf (ids : List Nat) (id : Nat) : Option Nat := ids.zipIdx.reverse.lookup id

/-- Two pairs of positions in opposite orders. -/
def crosses (first second : Nat × Nat) : Bool :=
  first.1 != second.1 && (decide (first.1 < second.1) != decide (first.2 < second.2))

/-- `&ids[start..end]`. -/
def slice (ids : List Nat) (start stop : Nat) : List Nat := (ids.take stop).drop start

section

variable (before after : ParsedSyntax) (mappings : VerifiedMappings)

def exactAnchors (beforeChildren afterChildren : List Nat) : Check (List (Nat × Nat)) :=
  beforeChildren.zipIdx.filterMapM fun entry => do
    charge 1 "scanning before children for exact alignment anchors"
    return (mappings.relation entry.1).bind fun relation =>
      if isExactRelation relation then
        (positionOf afterChildren relation.after.id).map fun position => (entry.2, position)
      else none

def alignmentBarriers (anchors : List (Nat × Nat)) : Check (List (Nat × Nat)) :=
  anchors.filterM fun anchor => anchors.allM fun other => do
    charge 1 "checking exact-anchor order barriers"
    return !crosses anchor other

/-- The variables of the loop over the barriers. -/
structure RegionScan where
  regions : List (List Nat × List Nat)
  beforeStart : Nat
  afterStart : Nat

def collectRegion (beforeChildren afterChildren : List Nat) (scan : RegionScan)
    (barrier : Nat × Nat) : Check RegionScan := do
  charge (barrier.1 - scan.beforeStart) "collecting before ordered-alignment region"
  let beforeRegion := (slice beforeChildren scan.beforeStart barrier.1).filter fun id =>
    !mappings.isExactBefore id
  charge (barrier.2 - scan.afterStart) "collecting after ordered-alignment region"
  let afterRegion := (slice afterChildren scan.afterStart barrier.2).filter fun id =>
    !mappings.isExactAfter id
  return {
    regions := scan.regions ++ [(beforeRegion, afterRegion)]
    beforeStart := saturatingAdd barrier.1 1
    afterStart := saturatingAdd barrier.2 1 }

def orderedAlignmentRegions (beforeParent afterParent : Nat) :
    Check (List (List Nat × List Nat)) := do
  let beforeChildren := before.children beforeParent
  let afterChildren := after.children afterParent
  charge afterChildren.length "indexing after children for ordered alignment"
  let anchors ← exactAnchors mappings beforeChildren afterChildren
  let barriers ← alignmentBarriers anchors
  let scan ← (barriers ++ [(beforeChildren.length, afterChildren.length)]).foldlM
    (collectRegion mappings beforeChildren afterChildren) ⟨[], 0, 0⟩
  return scan.regions

/-! ## The mappings of the global phase -/

structure PhaseMappings where
  beforeToAfter : List (Option Nat)
  afterToBefore : List (Option Nat)

namespace PhaseMappings

variable (phase : PhaseMappings)

def toAfter (id : Nat) : Option Nat := phase.beforeToAfter[id]?.join

def toBefore (id : Nat) : Option Nat := phase.afterToBefore[id]?.join

def add (beforeId afterId : Nat) : PhaseMappings where
  beforeToAfter := phase.beforeToAfter.set beforeId (some afterId)
  afterToBefore := phase.afterToBefore.set afterId (some beforeId)

/-- No mapping takes one of two nodes elsewhere. -/
def Allows (beforeId afterId : Nat) : Prop :=
  (∀ mapped ∈ phase.toAfter beforeId, mapped = afterId) ∧
    ∀ mapped ∈ phase.toBefore afterId, mapped = beforeId

instance (beforeId afterId : Nat) : Decidable (phase.Allows beforeId afterId) :=
  inferInstanceAs (Decidable (_ ∧ _))

end PhaseMappings

/-- The body of `mark_phase_subtree`, with its calls to itself. -/
def markStep (next : Nat → Nat → PhaseMappings → Check PhaseMappings) (beforeId afterId : Nat)
    (phase : PhaseMappings) : Check PhaseMappings := do
  charge 1 "traversing a global phase-mapping subtree"
  Result.ensure (mappings.toAfter beforeId = some afterId)
    (.invalid "global-phase exact certificate is incomplete")
  Result.ensure (phase.Allows beforeId afterId)
    (.invalid "global-phase exact certificates conflict")
  ((before.children beforeId).zip (after.children afterId)).foldlM
    (fun phase pair => next pair.1 pair.2 phase) (phase.add beforeId afterId)

def markPhaseSubtree : Nat → Nat → PhaseMappings → Check PhaseMappings :=
  descend (fun _ => Metered.lift (.error tooDeep)) (markStep before after mappings)
    before.nodes.length

def globalPhaseMappings : Check PhaseMappings := do
  charge before.nodes.length "allocating before global phase mappings"
  charge after.nodes.length "allocating after global phase mappings"
  charge mappings.byBefore.length "scanning global exact relations for phase mappings"
  (mappings.relations.filter fun relation => hasEvidence relation globalAnchorEvidence).foldlM
    (fun phase relation =>
      markPhaseSubtree before after mappings relation.before.id relation.after.id phase)
    ⟨List.replicate before.nodes.length none, List.replicate after.nodes.length none⟩

end

section

variable (before after : ParsedSyntax) (phase : PhaseMappings)

/-- The body of `phase_mappings_are_compatible`, with its calls to itself. -/
def compatibleStep (next : Nat → Nat → Check Bool) (beforeId afterId : Nat) : Check Bool := do
  charge 1 "checking recursive phase compatibility"
  if ¬ phase.Allows beforeId afterId then
    return false
  else if (before.children beforeId).length ≠ (after.children afterId).length then
    return false
  else
    ((before.children beforeId).zip (after.children afterId)).allM fun pair =>
      next pair.1 pair.2

def phaseMappingsAreCompatible : Nat → Nat → Check Bool :=
  descend (Metered.lift (.error tooDeep)) (compatibleStep before after phase) before.nodes.length

end

section

variable {before : SyntaxTree} {after : ParsedSyntax} {beforeId afterId : Nat}

/-- For a tree the depth is never used up: the definition is the recursion of
`mark_phase_subtree`. -/
theorem markPhaseSubtree_eq {mappings : VerifiedMappings}
    (below : beforeId < before.nodes.length) :
    markPhaseSubtree before.toParsedSyntax after mappings beforeId afterId =
      markStep before.toParsedSyntax after mappings
        (markPhaseSubtree before.toParsedSyntax after mappings) beforeId afterId := by
  have descends : Descends before.preorder.children after.children
      (markStep before.toParsedSyntax after mappings) := by
    intro next next' l r same
    funext phase
    refine bind_congr fun _ => bind_congr fun _ => bind_congr fun _ => ?_
    apply Metered.foldlM_congr
    intro phase pair member
    rw [same pair member]
  exact descend_eq descends below (Nat.sub_le _ _)

/-- For a tree the depth is never used up: the definition is the recursion of
`phase_mappings_are_compatible`. -/
theorem phaseMappingsAreCompatible_eq {phase : PhaseMappings}
    (below : beforeId < before.nodes.length) :
    phaseMappingsAreCompatible before.toParsedSyntax after phase beforeId afterId =
      compatibleStep before.toParsedSyntax after phase
        (phaseMappingsAreCompatible before.toParsedSyntax after phase) beforeId afterId := by
  have descends : Descends before.preorder.children after.children
      (compatibleStep before.toParsedSyntax after phase) := by
    intro next next' l r same
    have children : (((before.children l).zip (after.children r)).allM fun pair =>
        next pair.1 pair.2) =
          ((before.children l).zip (after.children r)).allM fun pair => next' pair.1 pair.2 :=
      Metered.allM_congr same
    refine bind_congr fun _ => ?_
    rw [children]
  exact descend_eq descends below (Nat.sub_le _ _)

end

/-! ## Shape classes -/

section

variable (sameBeforeShape crossShape : NodeId → NodeId → Check Bool)

/-- Put a node before into the first class whose representative has its shape. -/
def placeBefore (id : NodeId) : List ShapeClass → Check (List ShapeClass)
  | [] => return [⟨[id], []⟩]
  | shapeClass :: classes => do
      charge 1 "partitioning a before shape bucket"
      if ← sameBeforeShape id shapeClass.representative then
        return { shapeClass with before := shapeClass.before ++ [id] } :: classes
      else
        return shapeClass :: (← placeBefore id classes)

/-- Put a node after into the first class whose representative has its shape, if any. -/
def placeAfter (id : NodeId) : List ShapeClass → Check (List ShapeClass)
  | [] => return []
  | shapeClass :: classes => do
      charge 1 "partitioning an after shape bucket"
      if ← crossShape shapeClass.representative id then
        return { shapeClass with after := shapeClass.after ++ [id] } :: classes
      else
        return shapeClass :: (← placeAfter id classes)

def partitionIndexBucket (beforeIds afterIds : List NodeId) : Check (List ShapeClass) := do
  let classes ← beforeIds.foldlM (fun classes id => placeBefore sameBeforeShape id classes) []
  let classes ← afterIds.foldlM (fun classes id => placeAfter crossShape id classes) classes
  charge classes.length "filtering empty shape classes"
  return classes.filter fun shapeClass => !shapeClass.after.isEmpty

end

section

variable (before after : ParsedSyntax)

def verifiedShapeClasses (beforeIds afterIds : List NodeId) : Check (List ShapeClass) := do
  let beforeIndex ← buckets before beforeIds shapeKey "building before shape buckets"
  let afterIndex ← buckets after afterIds shapeKey "building after shape buckets"
  chargeProduct beforeIndex.length (mapLookupLevels afterIndex.length)
    "joining exact shape buckets"
  beforeIndex.foldlM (fun classes entry =>
    match Buckets.get afterIndex entry.1 with
    | none => return classes
    | some afterBucket => do
        let more ← partitionIndexBucket
          (fun id representative => budgetedShapeEqual before before id representative
            "comparing before nodes during shape-class partitioning")
          (fun representative id => budgetedShapeEqual before after representative id
            "comparing snapshots during shape-class partitioning") entry.2 afterBucket
        return classes ++ more) []

/-! ## Candidate groups -/

/-- The variables of the loops over the pairs of a class. -/
structure CandidateScan where
  sets : Batteries.UnionFind
  incident : List Bool

def CandidateScan.join (scan : CandidateScan) (left right : Nat) : CandidateScan where
  sets := DisjointSets.union scan.sets left right
  incident := (scan.incident.set left true).set right true

/-- The map from roots to groups, whose values are in the order of the roots. -/
def CandidateScan.connected (scan : CandidateScan) (shapeClass : ShapeClass) :
    List CandidateGroup :=
  let beforeLen := shapeClass.before.length
  let incident := (List.range (beforeLen + shapeClass.after.length)).filter fun vertex =>
    scan.incident[vertex]?.getD false
  (Buckets.of (DisjointSets.find scan.sets) incident).map fun entry => {
    before := entry.2.filterMap fun vertex => shapeClass.before[vertex]?
    after := entry.2.filterMap fun vertex =>
      if vertex < beforeLen then none else shapeClass.after[vertex - beforeLen]?
    scanComplete := true }

variable (phase : PhaseMappings)

def scanCandidates (shapeClass : ShapeClass) (start : CandidateScan) : Check CandidateScan :=
  shapeClass.before.zipIdx.foldlM (fun scan x =>
    shapeClass.after.zipIdx.foldlM (fun scan y => do
      if ← phaseMappingsAreCompatible before after phase x.1 y.1 then
        return scan.join x.2 (shapeClass.before.length + y.2)
      else
        return scan) scan) start

/-- The groups of one class. -/
def shapeClassGroups (shapeClass : ShapeClass) : Check (List CandidateGroup) := do
  charge 1 "visiting a verified shape class"
  let beforeLen := shapeClass.before.length
  let afterLen := shapeClass.after.length
  if ¬ ∃ pairs ∈ checkedMul beforeLen afterLen, pairs ≤ orderedAlignmentCandidateScanLimit then
    charge beforeLen "copying unscanned before shape-class endpoints"
    charge afterLen "copying unscanned after shape-class endpoints"
    return [⟨shapeClass.before, shapeClass.after, false⟩]
  else
    chargeProduct beforeLen afterLen "scanning verified shape candidates"
    let vertexCount ← checkedAddNamed "verified candidate vertex count" beforeLen afterLen
    charge vertexCount "allocating verified candidate vertices"
    let scan ← scanCandidates before after phase shapeClass
      ⟨DisjointSets.new vertexCount, List.replicate vertexCount false⟩
    chargeNLogN vertexCount "collecting connected candidate groups"
    return scan.connected shapeClass

def verifiedCandidateGroups (classes : List ShapeClass) : Check CandidateGroups := do
  let groups ← classes.foldlM (fun groups shapeClass => do
    let more ← shapeClassGroups before after phase shapeClass
    return groups ++ more) []
  chargeNLogN groups.length "ordering verified candidate groups"
  let groups := sortGroups groups
  groups.forM fun group => do
    charge group.before.length "indexing before candidate endpoints"
    charge group.after.length "indexing after candidate endpoints"
  return {
    groups
    beforeGroup := groupIndex CandidateGroup.before groups
    afterGroup := groupIndex CandidateGroup.after groups }

end

end Stratadiff.Verifier
