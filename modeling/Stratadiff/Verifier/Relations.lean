import Stratadiff.Lib.Descent
import Stratadiff.Matcher.ShapeClasses
import Stratadiff.Verifier.Budget

/-!
# Checking the relations

The first passes of the verifier: every relation refers to nodes of the two trees and holds,
the exact relations are those that hashes and parents single out, and none of them is missing.
-/

namespace Stratadiff.Verifier

def inputPairEvidence : List String := ["caller_supplied_file_pair"]

def globalAnchorEvidence : List String :=
  ["globally_unique_identical_syntax_subtree", "recursive_syntax_equality_check"]

def localAnchorEvidence : List String :=
  ["unique_identical_child_under_mapped_parent", "recursive_syntax_equality_check"]

def exactDescendantEvidence : List String := ["isomorphic_path_under_exact_anchor"]

def stableCoreEvidence : List String :=
  ["bounded_ordered_child_alignment_v1", "pair_present_in_every_optimal_alignment",
    "recursive_shape_equality_check", "not_a_historical_identity_claim"]

def hasEvidence (relation : Relation) (expected : List String) : Bool :=
  relation.evidence == expected

def isExactRelation (relation : Relation) : Bool :=
  relation.correspondence == .modelForced &&
    (relation.predicate == .byteEqual || relation.predicate == .syntaxEqual)

/-- `format!("{:?}", predicate)`. -/
def predicateDebugName : Predicate → String
  | .inputPair => "InputPair"
  | .byteEqual => "ByteEqual"
  | .syntaxEqual => "SyntaxEqual"
  | .shapeEqual => "ShapeEqual"

/-! ## Mappings -/

structure VerifiedMappings where
  beforeToAfter : List (Option Nat)
  afterToBefore : List (Option Nat)
  byBefore : List (Option Relation)

namespace VerifiedMappings

variable (mappings : VerifiedMappings)

def start (before after : ParsedSyntax) : VerifiedMappings where
  beforeToAfter := List.replicate before.nodes.length none
  afterToBefore := List.replicate after.nodes.length none
  byBefore := List.replicate before.nodes.length none

def toAfter (id : Nat) : Option Nat := mappings.beforeToAfter[id]?.join

def toBefore (id : Nat) : Option Nat := mappings.afterToBefore[id]?.join

def relation (id : Nat) : Option Relation := mappings.byBefore[id]?.join

def add (relation : Relation) : VerifiedMappings where
  beforeToAfter := mappings.beforeToAfter.set relation.before.id (some relation.after.id)
  afterToBefore := mappings.afterToBefore.set relation.after.id (some relation.before.id)
  byBefore := mappings.byBefore.set relation.before.id (some relation)

def isExactBefore (id : Nat) : Bool := (mappings.relation id).any isExactRelation

def isExactAfter (id : Nat) : Bool := (mappings.toBefore id).any mappings.isExactBefore

def mappedPairs : List (Nat × Nat) :=
  mappings.beforeToAfter.zipIdx.filterMap fun entry => entry.1.map fun afterId => (entry.2, afterId)

/-- `by_before.iter().flatten()`. -/
def relations : List Relation := mappings.byBefore.reduceOption

end VerifiedMappings

/-! ## Nodes -/

def verifyNodeRef (tree : ParsedSyntax) (reference : NodeRef) (context : String) :
    Result SyntaxNode := do
  let node ← Result.ofOption (.invalid s!"{context} references unknown node {reference.id}")
    tree.nodes[reference.id]?
  Result.ensure (node.asRef = reference)
    (.invalid s!"{context} metadata does not match a fresh parse")
  return node

def nodeSpanLen (tree : ParsedSyntax) (id : Nat) : Result Nat :=
  Result.ofOption (.limit "syntax node span length exceeds usize capacity")
    (checkedSub (tree.node id).span.endByte (tree.node id).span.startByte)

section

variable (left right : ParsedSyntax) (l r : Nat) (context : String)

def budgetedSyntaxEqual : Check Bool := do
  charge (max (left.size l) (right.size r)) context
  let leftLen ← nodeSpanLen left l
  let rightLen ← nodeSpanLen right r
  charge (max leftLen rightLen) context
  return syntaxEqual left right l r

def budgetedShapeEqual : Check Bool := do
  charge (max (left.size l) (right.size r)) context
  return shapeEqual left right l r

def budgetedNodeBytesEqual : Check Bool := do
  let leftLen ← nodeSpanLen left l
  let rightLen ← nodeSpanLen right r
  charge (max leftLen rightLen) context
  return left.text l == right.text r

end

def exactPredicate (before after : ParsedSyntax) (beforeId afterId : Nat) :
    Check (Option Predicate) := do
  if !(← budgetedSyntaxEqual before after beforeId afterId
      "checking an exact relation predicate") then
    return none
  else if ← budgetedNodeBytesEqual before after beforeId afterId
      "checking exact relation bytes" then
    return some .byteEqual
  else
    return some .syntaxEqual

/-! ## The relations one by one -/

section

variable (before after : ParsedSyntax) (relation : Relation)

def predicateHolds : Check Bool :=
  match relation.predicate with
  | .inputPair => return relation.before.id == before.root && relation.after.id == after.root
  | .byteEqual => budgetedNodeBytesEqual before after relation.before.id relation.after.id
      "checking a relation byte predicate"
  | .syntaxEqual => budgetedSyntaxEqual before after relation.before.id relation.after.id
      "checking a relation syntax predicate"
  | .shapeEqual => budgetedShapeEqual before after relation.before.id relation.after.id
      "checking a relation shape predicate"

/-- The match on the correspondence of a relation. -/
def verifyCorrespondence : Check Unit :=
  match relation.correspondence with
  | .inputPair =>
      Result.ensure (relation.predicate = .inputPair ∧ relation.before.id = before.root ∧
          relation.after.id = after.root ∧ hasEvidence relation inputPairEvidence)
        (.invalid "input-pair relation has an invalid endpoint, predicate, or evidence")
  | .modelForced => do
      if hasEvidence relation stableCoreEvidence then
        Result.ensure (relation.predicate = .shapeEqual)
          (.invalid "stable-core relation does not carry the shape predicate")
      else
        let expected ← exactPredicate before after relation.before.id relation.after.id
        let expected ← Result.ofOption
          (.invalid "exact model-forced relation has unequal syntax") expected
        Result.ensure (relation.predicate = expected)
          (.invalid "exact relation does not use its strongest predicate")
        Result.ensure (hasEvidence relation globalAnchorEvidence ∨
            hasEvidence relation localAnchorEvidence ∨
            hasEvidence relation exactDescendantEvidence)
          (.invalid "model-forced relation has unsupported evidence")
  | .suggested => Metered.lift
      (.error (.invalid "current report schema has no producer rule for suggested relations"))

/-- The variables of the loop over the relations. -/
structure RelationScan where
  mappings : VerifiedMappings
  previousBeforeId : Option Nat
  inputPairs : Nat

def verifyRelation (scan : RelationScan) : Check RelationScan := do
  charge 1 "verifying a relation"
  let _ ← verifyNodeRef before relation.before "relation before endpoint"
  let _ ← verifyNodeRef after relation.after "relation after endpoint"
  Result.ensure (∀ id ∈ scan.previousBeforeId, id < relation.before.id)
    (.invalid "relations are not in canonical before-node order")
  Result.ensure (scan.mappings.toAfter relation.before.id = none ∧
      scan.mappings.toBefore relation.after.id = none)
    (.invalid "relations violate one-to-one correspondence")
  let holds ← predicateHolds before after relation
  let predicate := predicateDebugName relation.predicate
  Result.ensure (holds = true)
    (.invalid <| s!"certified predicate {predicate} is false for relation {relation.before.id} " ++
      s!"-> {relation.after.id}")
  verifyCorrespondence before after relation
  Result.ensure (relation.predicate = .inputPair → relation.correspondence = .inputPair)
    (.invalid "input_pair predicate is reserved for the input-pair correspondence")
  return {
    mappings := scan.mappings.add relation
    previousBeforeId := some relation.before.id
    inputPairs := scan.inputPairs + if relation.correspondence = .inputPair then 1 else 0 }

end

def verifyRelations (report : DiffReport) (before after : ParsedSyntax) :
    Check VerifiedMappings := do
  let scan ← report.relations.foldlM
    (fun scan relation => verifyRelation before after relation scan)
    ⟨.start before after, none, 0⟩
  Result.ensure (scan.inputPairs = 1 ∧ scan.mappings.toAfter before.root = some after.root ∧
      scan.mappings.toBefore after.root = some before.root)
    (.invalid "report must contain exactly one root input-pair relation")
  return scan.mappings

/-! ## Global anchors -/

/-- A kind and a syntax hash. -/
abbrev ExactKey := String ×ₗ List Nat

/-- A hash map, listed in the order of its keys. -/
abbrev GlobalExactBuckets := List (ExactKey × List Nat)

/-- The order in which a hash map gives its entries. -/
structure Iteration where
  visit : GlobalExactBuckets → GlobalExactBuckets
  perm : ∀ buckets, (visit buckets).Perm buckets

structure GlobalExactIndex where
  before : GlobalExactBuckets
  after : GlobalExactBuckets

def globalExactKey (node : SyntaxNode) : ExactKey :=
  toLex (node.kind, node.syntaxHash.bytes.map UInt8.toNat)

def exactSubtreeBuckets (tree : ParsedSyntax) : Check GlobalExactBuckets :=
  tree.nodes.foldlM (fun buckets node => do
    charge 1 "building global exact buckets"
    if node.id ≠ tree.root ∧ 3 ≤ node.subtreeSize then
      return Buckets.push (globalExactKey node) node.id buckets
    else
      return buckets) []

def globalExactIndex (before after : ParsedSyntax) : Check GlobalExactIndex := do
  let beforeBuckets ← exactSubtreeBuckets before
  let afterBuckets ← exactSubtreeBuckets after
  return ⟨beforeBuckets, afterBuckets⟩

section

variable (before after : ParsedSyntax)

/-- Nodes that pass the first test are in the index. -/
def verifyGlobalAnchor (relation : Relation) (index : GlobalExactIndex) : Result Unit := do
  let beforeNode := before.node relation.before.id
  let afterNode := after.node relation.after.id
  Result.ensure (beforeNode.id ≠ before.root ∧ afterNode.id ≠ after.root ∧
      3 ≤ beforeNode.subtreeSize ∧ 3 ≤ afterNode.subtreeSize)
    (.invalid "global exact anchor does not satisfy the minimum subtree rule")
  let beforeIds := (Buckets.get index.before (globalExactKey beforeNode)).getD []
  let afterIds := (Buckets.get index.after (globalExactKey afterNode)).getD []
  Result.ensure (beforeIds.length = 1 ∧ afterIds.length = 1)
    (.invalid "global exact anchor is not unique in both snapshots")

def verifyMappedParents (mappings : VerifiedMappings) (relation : Relation) : Result Unit := do
  let beforeParent ← Result.ofOption (.invalid "local relation has no before parent")
    (before.node relation.before.id).parent
  let afterParent ← Result.ofOption (.invalid "local relation has no after parent")
    (after.node relation.after.id).parent
  Result.ensure (mappings.toAfter beforeParent = some afterParent)
    (.invalid "local relation endpoints do not share a mapped parent pair")

/-- What the recursion into two trees says when it is deeper than a tree can be. -/
def tooDeep : Failure := .limit "syntax tree is deeper than its nodes"

variable (mappings : VerifiedMappings)

/-- The checks of a pair of children before the recursion into it. -/
def verifyDescendant (certified : Nat → Option Nat) (pair : Nat × Nat) : Result Unit := do
  Result.ensure (mappings.toAfter pair.1 = some pair.2)
    (.invalid "exact anchor is missing an isomorphic descendant relation")
  let relation ← Result.ofOption
    (.invalid "exact anchor descendant has no relation record") (mappings.relation pair.1)
  Result.ensure (relation.correspondence = .modelForced)
    (.invalid "exact anchor descendant is not model-forced")
  Result.ensure (hasEvidence relation exactDescendantEvidence ∨
      hasEvidence relation globalAnchorEvidence ∨ hasEvidence relation localAnchorEvidence)
    (.invalid "exact anchor descendant has invalid evidence")
  Result.ensure (∀ existing ∈ certified pair.1, existing = pair.2)
    (.invalid "exact anchor certificates disagree on a descendant mapping")

/-- The body of `certify_exact_subtree`, with its calls to itself; `certified` maps the
descendants seen so far. -/
def certifyStep (next : Nat → Nat → (Nat → Option Nat) → Check (Nat → Option Nat))
    (beforeId afterId : Nat) (certified : Nat → Option Nat) : Check (Nat → Option Nat) := do
  charge 1 "traversing an exact-anchor subtree"
  Result.ensure ((before.children beforeId).length = (after.children afterId).length)
    (.invalid "exact anchor children are not isomorphic")
  ((before.children beforeId).zip (after.children afterId)).foldlM (fun certified pair => do
    verifyDescendant mappings certified pair
    next pair.1 pair.2 (Function.update certified pair.1 (some pair.2))) certified

def certifyExactSubtree : Nat → Nat → (Nat → Option Nat) → Check (Nat → Option Nat) :=
  descend (fun _ => Metered.lift (.error tooDeep)) (certifyStep before after mappings)
    before.nodes.length

def verifyExactAnchorEvidence (report : DiffReport) (index : GlobalExactIndex) : Check Unit := do
  let certified ← report.relations.foldlM (fun certified relation => do
    charge 1 "checking exact-anchor relation evidence"
    if relation.correspondence ≠ .modelForced then
      return certified
    else if hasEvidence relation globalAnchorEvidence then
      verifyGlobalAnchor before after relation index
      certifyExactSubtree before after mappings relation.before.id relation.after.id certified
    else if hasEvidence relation localAnchorEvidence then
      verifyMappedParents before after mappings relation
      certifyExactSubtree before after mappings relation.before.id relation.after.id certified
    else
      return certified) fun _ => none
  report.relations.forM fun relation => do
    charge 1 "checking exact-descendant relation evidence"
    Result.ensure (hasEvidence relation exactDescendantEvidence →
        certified relation.before.id = some relation.after.id)
      (.invalid <| s!"relation {relation.before.id} -> {relation.after.id} is not below a " ++
        "certified exact anchor")

/-- The body of the loop over the buckets. -/
def verifyGlobalBucket (index : GlobalExactIndex) (bucket : ExactKey × List Nat) : Check Unit := do
  charge 1 "checking a global exact bucket"
  match Buckets.get index.after bucket.1 with
  | none => return
  | some afterIds =>
      let beforeId := bucket.2.headD 0
      let afterId := afterIds.headD 0
      if bucket.2.length = 1 ∧ afterIds.length = 1 then
        if ← budgetedSyntaxEqual before after beforeId afterId
            "checking global exact-anchor completeness" then
          Result.ensure (mappings.toAfter beforeId = some afterId ∧ mappings.isExactBefore beforeId)
            (.invalid "globally unique exact anchor is absent from the relation set")

def verifyGlobalAnchorCompleteness (iteration : Iteration) (index : GlobalExactIndex) :
    Check Unit :=
  (iteration.visit index.before).forM (verifyGlobalBucket before after mappings index)

/-! ## Local anchors -/

def exactKey (tree : ParsedSyntax) (id : NodeId) : NodeKey := nodeKey tree SyntaxNode.syntaxHash id

def buckets (tree : ParsedSyntax) (ids : List NodeId) (key : ParsedSyntax → NodeId → NodeKey)
    (context : String) : Check (List (NodeKey × List NodeId)) := do
  chargeNLogN ids.length context
  return Buckets.of (key tree) ids

def uniquePairs (beforeIds afterIds : List NodeId) (key : ParsedSyntax → NodeId → NodeKey) :
    Check (List (NodeId × NodeId)) := do
  let beforeBuckets ← buckets before beforeIds key "building local before exact buckets"
  let afterBuckets ← buckets after afterIds key "building local after exact buckets"
  chargeProduct beforeBuckets.length (mapLookupLevels afterBuckets.length)
    "joining local exact buckets"
  return beforeBuckets.filterMap fun entry => do
    let afterBucket ← Buckets.get afterBuckets entry.1
    if entry.2.length = 1 ∧ afterBucket.length = 1 then
      some (entry.2.headD 0, afterBucket.headD 0)
    else none

/-- A relation that leaves its nodes to the search for local pairs. -/
def leavesOpen (relation : Relation) : Bool :=
  !isExactRelation relation || hasEvidence relation localAnchorEvidence

def localExactCandidates (tree : ParsedSyntax) (parent : Nat) : Check (List Nat) := do
  charge (tree.children parent).length "collecting local before exact candidates"
  return (tree.children parent).filter fun id => (mappings.relation id).all leavesOpen

def localExactCandidatesAfter (tree : ParsedSyntax) (parent : Nat) : Check (List Nat) := do
  charge (tree.children parent).length "collecting local after exact candidates"
  return (tree.children parent).filter fun id =>
    (mappings.toBefore id).all fun beforeId => (mappings.relation beforeId).all leavesOpen

/-- The body of the loop over the unique pairs of two parents. -/
def verifyLocalPair (verified : List (Nat × Nat)) (pair : Nat × Nat) :
    Check (List (Nat × Nat)) := do
  if ← budgetedSyntaxEqual before after pair.1 pair.2 "checking local exact-pair syntax" then
    Result.ensure (mappings.toAfter pair.1 = some pair.2 ∧ mappings.isExactBefore pair.1)
      (.invalid "unique exact children under a mapped parent are not related")
    return pair :: verified
  else
    return verified

def verifyLocalExactRelations : Check Unit := do
  charge mappings.beforeToAfter.length "scanning mapped parents for local exact relations"
  let verified ← mappings.mappedPairs.foldlM (fun verified parents => do
    let beforeChildren ← localExactCandidates mappings before parents.1
    let afterChildren ← localExactCandidatesAfter mappings after parents.2
    let pairs ← uniquePairs before after beforeChildren afterChildren exactKey
    pairs.foldlM (verifyLocalPair before after mappings) verified) []
  charge mappings.byBefore.length "scanning local exact relation certificates"
  (mappings.relations.filter fun relation => hasEvidence relation localAnchorEvidence).forM
    fun relation => do
      verifyMappedParents before after mappings relation
      Result.ensure ((relation.before.id, relation.after.id) ∈ verified)
        (.invalid "local exact anchor is not unique under its mapped parent")

end

/-! ## The recursion -/

/-- For a tree the depth is never used up: the definition is the recursion of
`certify_exact_subtree`. -/
theorem certifyExactSubtree_eq {before : SyntaxTree} {after : ParsedSyntax}
    {mappings : VerifiedMappings} {beforeId afterId : Nat}
    (below : beforeId < before.nodes.length) :
    certifyExactSubtree before.toParsedSyntax after mappings beforeId afterId =
      certifyStep before.toParsedSyntax after mappings
        (certifyExactSubtree before.toParsedSyntax after mappings) beforeId afterId := by
  have descends : Descends before.preorder.children after.children
      (certifyStep before.toParsedSyntax after mappings) := by
    intro next next' l r same
    funext certified
    refine bind_congr fun _ => bind_congr fun _ => Metered.foldlM_congr ?_ certified
    intro certified pair member
    rw [same pair member]
  exact descend_eq descends below (Nat.sub_le _ _)

end Stratadiff.Verifier
