import Stratadiff.Verifier.Regions

/-!
# The stable core, derived again

The verifier derives the ambiguities of a report by itself: for every region between mapped
parents it fills the tables of each component and compares what is forced with the relations.
-/

namespace Stratadiff.Verifier

/-! ## Tables -/

section

variable (candidates : List (List Bool))

/-- `candidates.first().map_or(0, Vec::len)`. -/
def matrixWidth : Nat := (candidates.head?.map List.length).getD 0

def alignmentPrefixScores (forbidden : Option (Nat × Nat)) (context : String) :
    Check (List (List Nat)) := do
  let beforeLen := candidates.length
  let afterLen := matrixWidth candidates
  chargeProduct beforeLen afterLen context
  return (Grid.cells (List.range beforeLen) (List.range afterLen)).foldl (fun scores cell =>
    let best := max (Grid.entry scores cell.1 (cell.2 + 1)) (Grid.entry scores (cell.1 + 1) cell.2)
    Grid.put scores (cell.1 + 1) (cell.2 + 1) <|
      if Grid.entry candidates cell.1 cell.2 ∧ forbidden ≠ some cell then
        max best (Grid.entry scores cell.1 cell.2 + 1)
      else best) (Grid.fill (beforeLen + 1) (afterLen + 1) 0)

def alignmentSuffixScores (context : String) : Check (List (List Nat)) := do
  let beforeLen := candidates.length
  let afterLen := matrixWidth candidates
  chargeProduct beforeLen afterLen context
  return (Grid.cells (List.range beforeLen).reverse (List.range afterLen).reverse).foldl
    (fun scores cell =>
      let best :=
        max (Grid.entry scores (cell.1 + 1) cell.2) (Grid.entry scores cell.1 (cell.2 + 1))
      Grid.put scores cell.1 cell.2 <|
        if Grid.entry candidates cell.1 cell.2 then
          max best (Grid.entry scores (cell.1 + 1) (cell.2 + 1) + 1)
        else best) (Grid.fill (beforeLen + 1) (afterLen + 1) 0)

def alignmentScore (forbidden : Option (Nat × Nat)) (context : String) : Check Nat := do
  let scores ← alignmentPrefixScores candidates forbidden context
  return Grid.entry scores candidates.length (matrixWidth candidates)

end

/-! ## Components -/

/-- The group of an active node, from the index of its side. -/
def activeGroup (index : NodeId → Option Nat) (side : String) (id : NodeId) : Check Nat :=
  Metered.lift <| Result.ofOption
    (.invalid s!"active {side} node is missing its verified candidate group") (index id)

/-- The body of the loop over the active nodes before. -/
def visitActive (candidates : CandidateGroups) (nodes : ActiveNodes) (state : Partition)
    (entry : NodeId × Nat) : Check Partition := do
  let groupId ← activeGroup candidates.beforeGroup "before" entry.1
  let seen := state.see nodes groupId
  if entry.2 = seen.beforePrefixLast ∧ seen.afterPrefixCount = seen.afterPrefixLast + 1 then
    charge (entry.2 + 1 - seen.beforeStart) "copying a before interaction component"
    charge (seen.afterPrefixCount - seen.afterStart) "copying an after interaction component"
  return seen.cut nodes entry.2

def orderedInteractionComponents (candidates : CandidateGroups) (beforeIds afterIds : List NodeId) :
    Check (List AlignmentComponent) := do
  let nodes := candidates.active beforeIds afterIds
  charge beforeIds.length "collecting active before candidate endpoints"
  charge afterIds.length "collecting active after candidate endpoints"
  if nodes.before.isEmpty then
    return []
  else
    chargeProduct candidates.groups.length 3 "allocating candidate-component indexes"
    charge nodes.before.length "indexing before candidate-component positions"
    let _ ← nodes.before.mapM (activeGroup candidates.beforeGroup "before")
    charge nodes.after.length "indexing after candidate-component positions"
    let _ ← nodes.after.mapM (activeGroup candidates.afterGroup "after")
    charge nodes.before.length "partitioning ordered candidate components"
    let state ← nodes.before.zipIdx.foldlM (visitActive candidates nodes)
      (Partition.start nodes.groupCount)
    Result.ensure (state.beforeStart = nodes.before.length ∧
        state.afterStart = nodes.after.length ∧ state.componentGroups = [])
      (.invalid "candidate groups do not form complete ordered interaction components")
    return state.components

def oversizedAlignment (candidates : CandidateGroups) (component : AlignmentComponent) :
    Check AlignmentOutcome := do
  charge component.groups.length "checking an oversized alignment component"
  let scanComplete := component.groups.all fun groupId =>
    (candidates.groups[groupId]?).any CandidateGroup.scanComplete
  charge component.before.length "copying oversized before endpoints"
  charge component.after.length "copying oversized after endpoints"
  return {
    forced := []
    ambiguities := [{
      before := component.before
      after := component.after
      constraint := .symbolicAbstention
        (if scanComplete then .componentLimit else .candidateScanLimit) .none
      reason :=
        if scanComplete then
          "ordered alignment candidate region exceeds the " ++
            s!"{orderedAlignmentComponentLimit}-child per-side cap; " ++
            "endpoint sets make no pair claims"
        else
          s!"shape-class candidate scan exceeds the {orderedAlignmentCandidateScanLimit}-pair " ++
            "cap; endpoint sets make no pair claims" }] }

section

variable (before after : ParsedSyntax) (phase : PhaseMappings) (groups : CandidateGroups)
variable (component : AlignmentComponent)

/-! ## A bounded component -/

def isCandidate (beforeGroup : Nat) (beforeId afterId : NodeId) : Check Bool := do
  let afterGroup ← activeGroup groups.afterGroup "after" afterId
  if beforeGroup = afterGroup then
    if ← budgetedShapeEqual before after beforeId afterId "checking a bounded candidate shape" then
      phaseMappingsAreCompatible before after phase beforeId afterId
    else
      return false
  else
    return false

def candidateMatrix : Check (List (List Bool)) := do
  chargeProduct component.before.length component.after.length
    "building a bounded candidate matrix"
  component.before.mapM fun beforeId => do
    let beforeGroup ← activeGroup groups.beforeGroup "before" beforeId
    component.after.mapM (isCandidate before after phase groups beforeGroup beforeId)

/-- The tables of a component and the length of its longest alignments. -/
structure ComponentTables where
  candidates : List (List Bool)
  prefixes : List (List Nat)
  suffixes : List (List Nat)
  optimum : Nat

def ComponentTables.occurs (tables : ComponentTables) (cell : Nat × Nat) : Bool :=
  Grid.entry tables.candidates cell.1 cell.2 &&
    Grid.entry tables.prefixes cell.1 cell.2 + 1 +
      Grid.entry tables.suffixes (cell.1 + 1) (cell.2 + 1) == tables.optimum

/-- The body of the loops over the candidates. -/
def scanCell (tables : ComponentTables) (scan : CoreScan) (cell : Nat × Nat) : Check CoreScan := do
  if !tables.occurs cell then
    return scan
  else
    let pair := component.pairAt cell
    let groupId ← activeGroup groups.beforeGroup "before" pair.1
    let group := groups.groups[groupId]?.getD ⟨[], [], true⟩
    let forced ←
      if group.isSingleton then do
        let score ← alignmentScore tables.candidates (some cell)
          "recomputing per-candidate forcedness"
        pure (decide (score < tables.optimum))
      else pure false
    if forced then
      return { scan with forced := scan.forced ++ [pair] }
    else if group.isSingleton then
      return { scan with
        possiblePairs := scan.possiblePairs ++ [⟨pair.1, pair.2⟩]
        ambiguousBefore := insert pair.1 scan.ambiguousBefore
        ambiguousAfter := insert pair.2 scan.ambiguousAfter }
    else
      return { scan with
        possiblePairs := scan.possiblePairs ++ [⟨pair.1, pair.2⟩]
        hasDuplicateSymmetry := true
        ambiguousBefore := scan.ambiguousBefore ∪ group.before.toFinset
        ambiguousAfter := scan.ambiguousAfter ∪ group.after.toFinset }

/-- The group of pairs that a scan leaves open, once it is charged. -/
def componentAmbiguity (scan : CoreScan) (optimum : Nat) : Check AlignmentAmbiguity := do
  let requiredMatches := optimum - scan.forced.length
  Result.ensure (scan.hasDuplicateSymmetry = true ∨
      ¬ (requiredMatches = 0 ∨ scan.possiblePairs.length ≤ requiredMatches))
    (.invalid "ordered ambiguity does not contain multiple valid resolutions")
  charge component.before.length "collecting ambiguous before endpoints"
  charge component.after.length "collecting ambiguous after endpoints"
  return scan.ambiguity component optimum

def verifyBoundedComponent : Check AlignmentOutcome := do
  let candidates ← candidateMatrix before after phase groups component
  let prefixes ← alignmentPrefixScores candidates none "computing ordered-alignment prefix DP"
  let suffixes ← alignmentSuffixScores candidates "computing ordered-alignment suffix DP"
  let optimum := Grid.entry prefixes component.before.length component.after.length
  if optimum = 0 then
    return {}
  else
    chargeProduct component.before.length component.after.length
      "scanning optimal ordered-alignment candidates"
    let scan ← component.cells.foldlM
      (scanCell groups component ⟨candidates, prefixes, suffixes, optimum⟩) {}
    chargeNLogN scan.forced.length "ordering component forced pairs"
    if scan.possiblePairs.isEmpty then
      return { forced := sortPairs scan.forced }
    else
      let ambiguity ← componentAmbiguity component scan optimum
      return { forced := sortPairs scan.forced, ambiguities := [ambiguity] }

def componentOutcome : Check AlignmentOutcome :=
  if component.before.length ≤ orderedAlignmentComponentLimit ∧
      component.after.length ≤ orderedAlignmentComponentLimit then
    verifyBoundedComponent before after phase groups component
  else
    oversizedAlignment groups component

end

section

variable (before after : ParsedSyntax)

def independentStableCore (phase : PhaseMappings) (beforeIds afterIds : List NodeId) :
    Check AlignmentOutcome := do
  let classes ← verifiedShapeClasses before after beforeIds afterIds
  if classes.isEmpty then
    return {}
  else
    let groups ← verifiedCandidateGroups before after phase classes
    if groups.groups.isEmpty then
      return {}
    else
      let components ← orderedInteractionComponents groups beforeIds afterIds
      let outcome ← components.foldlM (fun outcome component => do
        let more ← componentOutcome before after phase groups component
        return AlignmentOutcome.mk (outcome.forced ++ more.forced)
          (outcome.ambiguities ++ more.ambiguities)) {}
      chargeNLogN outcome.forced.length "ordering stable-core forced pairs"
      return { outcome with forced := sortPairs outcome.forced }

/-! ## The whole report -/

variable (mappings : VerifiedMappings)

/-- The pairs that must be related and the groups that must be reported, so far. -/
structure CoreClaims where
  expectedPairs : List (NodeId × NodeId)
  ambiguities : List AmbiguityGroup

def expectForced (claims : CoreClaims) (pair : NodeId × NodeId) : Check CoreClaims := do
  let relation ← Result.ofOption
    (.invalid "all-optima stable-core pair is missing from the relation set")
    (mappings.relation pair.1)
  Result.ensure (relation.after.id = pair.2 ∧ relation.correspondence = .modelForced ∧
      relation.predicate = .shapeEqual ∧ hasEvidence relation stableCoreEvidence)
    (.invalid "all-optima stable-core pair has an invalid relation certificate")
  return { claims with expectedPairs := pair :: claims.expectedPairs }

def expectAmbiguity (parents : Nat × Nat) (claims : CoreClaims) (ambiguity : AlignmentAmbiguity) :
    Check CoreClaims := do
  charge ambiguity.before.length "materializing verified ambiguity before endpoints"
  charge ambiguity.after.length "materializing verified ambiguity after endpoints"
  return { claims with
    ambiguities := claims.ambiguities ++ [{
      parentBefore := parents.1
      parentAfter := parents.2
      before := ambiguity.before.map fun id => (before.node id).asRef
      after := ambiguity.after.map fun id => (after.node id).asRef
      constraint := ambiguity.constraint
      reason := ambiguity.reason }] }

def expectRegion (phase : PhaseMappings) (parents : Nat × Nat) (claims : CoreClaims)
    (region : List NodeId × List NodeId) : Check CoreClaims := do
  let outcome ← independentStableCore before after phase region.1 region.2
  let claims ← outcome.forced.foldlM (expectForced mappings) claims
  outcome.ambiguities.foldlM (expectAmbiguity before after parents) claims

/-- Where the groups of a report are put. -/
def ambiguityOrder (group : AmbiguityGroup) : Nat ×ₗ (Nat ×ₗ (Nat ×ₗ Nat)) :=
  toLex (group.parentBefore, toLex (group.parentAfter,
    toLex (((group.before.head?.map NodeRef.id).getD usizeMax),
      (group.after.head?.map NodeRef.id).getD usizeMax)))

def verifyStableCore : Check (List AmbiguityGroup) := do
  let phase ← globalPhaseMappings before after mappings
  charge mappings.beforeToAfter.length "scanning mapped parents for stable-core verification"
  let claims ← mappings.mappedPairs.foldlM (fun claims parents => do
    let regions ← orderedAlignmentRegions before after mappings parents.1 parents.2
    regions.foldlM (expectRegion before after mappings phase parents) claims) ⟨[], []⟩
  charge mappings.byBefore.length "checking stable-core relation certificates"
  (mappings.relations.filter fun relation => hasEvidence relation stableCoreEvidence).forM
    fun relation => Result.ensure
      (claims.expectedPairs.contains (relation.before.id, relation.after.id))
      (.invalid "stable-core relation is not present in every optimal ordered alignment")
  chargeNLogN claims.ambiguities.length "ordering verified ambiguity groups"
  return claims.ambiguities.insertionSort fun first second =>
    ambiguityOrder first ≤ ambiguityOrder second

end

end Stratadiff.Verifier
