import Stratadiff.Verifier.StableCore

/-!
# The changes, derived again

What changed between two trees follows from the verified mappings and ambiguities. The
verifier derives the changes in the order of the report, and checks that the nodes the report
refers to are nodes of the trees.
-/

namespace Stratadiff.Verifier

section

variable (before after : ParsedSyntax) (mappings : VerifiedMappings)

/-! ## Deriving the changes -/

/-- The nodes of one side that some groups leave open. -/
def ambiguousNodes (side : AmbiguityGroup → List NodeRef) (ambiguities : List AmbiguityGroup) :
    List Nat :=
  ambiguities.flatMap fun group => (side group).map NodeRef.id

/-- A change of two nodes, or of one. -/
def changeOf (kind : ChangeKind) (beforeId afterId : Option Nat) (detail : String) :
    StructuralChange where
  kind := kind
  before := beforeId.map fun id => (before.node id).asRef
  after := afterId.map fun id => (after.node id).asRef
  detail := detail

def formattingChanges : Check (List StructuralChange) := do
  if ← budgetedSyntaxEqual before after before.root after.root
      "checking formatting-only syntax equality" then
    charge (max before.source.length after.source.length) "checking formatting-only source bytes"
    return if before.source = after.source then [] else
      [changeOf before after .formattingOnly before.root after.root
        "syntax is identical after discarding trivia; bytes differ"]
  else
    return []

/-- The positions after of the mapped children of a parent. -/
def childPositions (parents : Nat × Nat) : List Nat :=
  (before.children parents.1).filterMap fun child => do
    let afterChild ← mappings.toAfter child
    if (after.node afterChild).parent = some parents.2 then
      positionOf (after.children parents.2) afterChild
    else none

def orderChanges (parents : Nat × Nat) : Check (List StructuralChange) := do
  charge (after.children parents.2).length "indexing after children for derived changes"
  charge (before.children parents.1).length "scanning before children for derived changes"
  let positions := childPositions before after mappings parents
  return if (positions.zip positions.tail).any fun pair => pair.2 < pair.1 then
      [changeOf before after .childOrderChanged parents.1 parents.2
        ("the relative order of mapped direct children changed; " ++
          "no historical move identity is asserted")]
    else []

def relocations (relation : Relation) : List StructuralChange :=
  let beforeParent := (before.node relation.before.id).parent
  let afterParent := (after.node relation.after.id).parent
  if isExactRelation relation ∧ beforeParent.isSome ∧ afterParent.isSome ∧
      (beforeParent.bind mappings.toAfter).isSome ∧
      beforeParent.bind mappings.toAfter ≠ afterParent then
    [changeOf before after .equivalentRelocation relation.before.id relation.after.id
      "the before parent's mapped counterpart is not the exact subtree's actual after parent"]
  else []

/-- What an updated pair is called. -/
def updateOf (relation : Relation) : List StructuralChange :=
  match relation.correspondence with
  | .modelForced => [changeOf before after .modelForcedUpdate relation.before.id relation.after.id
      ("the pair occurs in every optimal ordered alignment and has equal shape but different " ++
        "syntax; no historical identity is asserted")]
  | .suggested => [changeOf before after .suggestedUpdate relation.before.id relation.after.id
      "local shape match; reported as a suggestion, not an identity fact"]
  | .inputPair => []

/-- The relation of the parent says that its shape is kept. -/
def parentKeepsShape (relation : Relation) : Bool :=
  ((before.node relation.before.id).parent.bind mappings.relation).any fun parent =>
    parent.predicate == .shapeEqual

def updates (relation : Relation) : Check (List StructuralChange) := do
  if relation.predicate = .shapeEqual then
    let same ← budgetedSyntaxEqual before after relation.before.id relation.after.id
      "checking update syntax equality"
    return if !same && !parentKeepsShape before mappings relation then
        updateOf before after relation
      else []
  else
    return []

def relationChanges (relation : Relation) : Check (List StructuralChange) := do
  let updated ← updates before after mappings relation
  return relocations before after mappings relation ++ updated

/-- A node whose parent is mapped, while it is neither mapped nor left open. -/
def isUnmatched (mapped : Nat → Option Nat) (ambiguous : List Nat) (node : SyntaxNode) : Bool :=
  (mapped node.id).isNone && !ambiguous.contains node.id &&
    node.parent.any fun parent => (mapped parent).isSome

def deletions (ambiguous : List Nat) : List StructuralChange :=
  ((before.nodes.drop 1).filter (isUnmatched mappings.toAfter ambiguous)).map fun node =>
    ⟨.delete, some node.asRef, none, "maximal unmatched subtree in the before snapshot"⟩

def insertions (ambiguous : List Nat) : List StructuralChange :=
  ((after.nodes.drop 1).filter (isUnmatched mappings.toBefore ambiguous)).map fun node =>
    ⟨.insert, none, some node.asRef, "maximal unmatched subtree in the after snapshot"⟩

def changeRank : ChangeKind → Nat
  | .insert => 0
  | .delete => 1
  | .equivalentRelocation => 2
  | .childOrderChanged => 3
  | .modelForcedUpdate => 4
  | .suggestedUpdate => 5
  | .formattingOnly => 6

def changeOrder (change : StructuralChange) : Nat ×ₗ (Nat ×ₗ Nat) :=
  toLex ((change.before.map NodeRef.id).getD usizeMax,
    toLex ((change.after.map NodeRef.id).getD usizeMax, changeRank change.kind))

def deriveChanges (ambiguities : List AmbiguityGroup) : Check (List StructuralChange) := do
  charge ambiguities.length "traversing ambiguities for derived changes"
  ambiguities.forM fun group => do
    charge group.before.length "collecting ambiguous before nodes for derived changes"
    charge group.after.length "collecting ambiguous after nodes for derived changes"
  let formatting ← formattingChanges before after
  charge mappings.beforeToAfter.length "scanning mapped parents for derived changes"
  let ordered ← mappings.mappedPairs.mapM (orderChanges before after mappings)
  charge mappings.byBefore.length "scanning relations for derived changes"
  let related ← (mappings.relations.filter fun relation =>
    relation.before.id ≠ before.root ∧ relation.correspondence ≠ .inputPair).mapM
      (relationChanges before after mappings)
  charge (before.nodes.length - 1) "scanning before nodes for deletions"
  let deleted := deletions before mappings (ambiguousNodes AmbiguityGroup.before ambiguities)
  charge (after.nodes.length - 1) "scanning after nodes for insertions"
  let inserted := insertions after mappings (ambiguousNodes AmbiguityGroup.after ambiguities)
  let changes := formatting ++ ordered.flatten ++ related.flatten ++ deleted ++ inserted
  chargeNLogN changes.length "ordering derived changes"
  return changes.insertionSort fun first second => changeOrder first ≤ changeOrder second

/-! ## References -/

/-- The variables of the loop over the pairs of a group. -/
structure PairScan where
  seen : List (Nat × Nat)
  order : List (Nat ×ₗ Nat)

def verifyAmbiguityPair (group : AmbiguityGroup) (scan : PairScan) (pair : AmbiguityPair) :
    Check PairScan := do
  let beforePosition ← Result.ofOption
    (.invalid "ambiguity pair references a before node outside its endpoint set")
    (positionOf (group.before.map NodeRef.id) pair.beforeId)
  let afterPosition ← Result.ofOption
    (.invalid "ambiguity pair references an after node outside its endpoint set")
    (positionOf (group.after.map NodeRef.id) pair.afterId)
  Result.ensure (!scan.seen.contains (pair.beforeId, pair.afterId))
    (.invalid "exact ordered ambiguity contains a duplicate pair")
  let same ← budgetedShapeEqual before after pair.beforeId pair.afterId
    "checking an ambiguity-pair shape predicate"
  Result.ensure (same = true)
    (.invalid "exact ordered ambiguity pair does not satisfy its predicate")
  return {
    seen := scan.seen ++ [(pair.beforeId, pair.afterId)]
    order := scan.order ++ [toLex (beforePosition, afterPosition)] }

def verifyPossiblePairs (group : AmbiguityGroup) (predicate : Predicate) (requiredMatches : Nat)
    (possiblePairs : List AmbiguityPair) : Check Unit := do
  Result.ensure (predicate = .shapeEqual)
    (.invalid "exact ordered ambiguity has an unsupported predicate")
  Result.ensure (0 < requiredMatches ∧ requiredMatches < possiblePairs.length)
    (.invalid "exact ordered ambiguity must encode multiple non-empty resolutions")
  Result.ensure (requiredMatches ≤ min group.before.length group.after.length)
    (.invalid "exact ordered ambiguity requires more matches than its endpoint sets permit")
  charge possiblePairs.length "allocating and validating ambiguity possible pairs"
  let scan ← possiblePairs.foldlM (verifyAmbiguityPair before after group) ⟨[], []⟩
  charge (scan.order.length - 1) "checking canonical ambiguity-pair order"
  Result.ensure (scan.order.IsChain (· < ·))
    (.invalid "exact ordered ambiguity pairs are not in canonical order")
  Result.ensure ((scan.seen.map Prod.fst).dedup.length = group.before.length ∧
      (scan.seen.map Prod.snd).dedup.length = group.after.length)
    (.invalid "exact ordered ambiguity contains unreferenced endpoints")

def verifyAmbiguityGroup (group : AmbiguityGroup) : Check Unit := do
  charge 1 "verifying an ambiguity group"
  Result.ensure (group.parentBefore < before.nodes.length)
    (.invalid "ambiguity references an unknown before parent")
  Result.ensure (group.parentAfter < after.nodes.length)
    (.invalid "ambiguity references an unknown after parent")
  group.before.forM fun node => do
    charge 1 "verifying an ambiguity before endpoint"
    let _ ← verifyNodeRef before node "ambiguity before member"
  group.after.forM fun node => do
    charge 1 "verifying an ambiguity after endpoint"
    let _ ← verifyNodeRef after node "ambiguity after member"
  charge group.before.length "indexing ambiguity before endpoints"
  charge group.after.length "indexing ambiguity after endpoints"
  Result.ensure (group.before ≠ [] ∧ group.after ≠ [])
    (.invalid "ambiguity endpoint sets must be non-empty")
  Result.ensure ((group.before.map NodeRef.id).Nodup ∧ (group.after.map NodeRef.id).Nodup)
    (.invalid "ambiguity endpoint sets contain duplicate nodes")
  match group.constraint with
  | .exactOrderedAlignment predicate requiredMatches possiblePairs =>
      verifyPossiblePairs before after group predicate requiredMatches possiblePairs
  | .symbolicAbstention _ _ => return

def verifyAmbiguityNodeReferences (report : DiffReport) : Check Unit :=
  report.ambiguities.forM (verifyAmbiguityGroup before after)

/-- The sides that a change of each kind has. -/
def validSides (change : StructuralChange) : Bool :=
  match change.kind with
  | .insert => change.before.isNone && change.after.isSome
  | .delete => change.before.isSome && change.after.isNone
  | .equivalentRelocation | .childOrderChanged | .modelForcedUpdate | .suggestedUpdate
  | .formattingOnly => change.before.isSome && change.after.isSome

def verifyChangeNodeReferences (report : DiffReport) : Check Unit :=
  report.changes.forM fun change => do
    charge 1 "verifying a structural change"
    change.before.forM fun node => discard (verifyNodeRef before node "change before endpoint")
    change.after.forM fun node => discard (verifyNodeRef after node "change after endpoint")
    Result.ensure (validSides change = true)
      (.invalid "structural change has invalid endpoints for its kind")

end

end Stratadiff.Verifier
