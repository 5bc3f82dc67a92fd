import Stratadiff.Lib.Descent
import Stratadiff.Matcher.Candidates
import Stratadiff.Matcher.StableCore

/-!
# The stable core of a region

The children of two mapped parents that are between the same exact children are put into
classes, groups and components, and every component is aligned by itself. A component that is
too large for the tables is reported as it is.
-/

namespace Stratadiff

section

variable (before after : ParsedSyntax) (beforeToAfter afterToBefore : List (Option Nat))

/-- The body of `can_map_shape_pair`, with its calls to itself. -/
def canMapShapeStep (next : Nat → Nat → Bool) (beforeId afterId : Nat) : Bool :=
  if beforeToAfter[beforeId]?.join.any (· != afterId) ||
      afterToBefore[afterId]?.join.any (· != beforeId) then
    false
  else
    (before.children beforeId).length == (after.children afterId).length &&
      ((before.children beforeId).zip (after.children afterId)).all fun pair =>
        next pair.1 pair.2

def canMapShapePair : Nat → Nat → Bool :=
  descend false (canMapShapeStep before after beforeToAfter afterToBefore) before.nodes.length

end

/-- For a tree the depth is never used up: the definition is the recursion of
`can_map_shape_pair`. -/
theorem canMapShapePair_eq {before : SyntaxTree} {after : ParsedSyntax}
    {beforeToAfter afterToBefore : List (Option Nat)} {beforeId afterId : Nat}
    (below : beforeId < before.nodes.length) :
    canMapShapePair before.toParsedSyntax after beforeToAfter afterToBefore beforeId afterId =
      canMapShapeStep before.toParsedSyntax after beforeToAfter afterToBefore
        (canMapShapePair before.toParsedSyntax after beforeToAfter afterToBefore) beforeId
        afterId := by
  have descends : Descends before.preorder.children after.children
      (canMapShapeStep before.toParsedSyntax after beforeToAfter afterToBefore) := by
    intro next next' l r same
    have children : (((before.children l).zip (after.children r)).all fun pair =>
        next pair.1 pair.2) =
          ((before.children l).zip (after.children r)).all fun pair => next' pair.1 pair.2 := by
      rw [Bool.eq_iff_iff, List.all_eq_true, List.all_eq_true]
      exact forall₂_congr fun pair member => by rw [same pair member]
    rw [canMapShapeStep, canMapShapeStep, children]
  exact descend_eq descends below (Nat.sub_le _ _)

/-- The outcome of a component that is too large. -/
def oversizedAlignmentAmbiguities (candidates : CandidateGroups)
    (component : AlignmentComponent) : AlignmentOutcome :=
  let scanComplete := component.groups.all fun groupId =>
    (candidates.groups[groupId]?).any CandidateGroup.scanComplete
  { forced := []
    ambiguities := [{
      before := component.before
      after := component.after
      constraint := .symbolicAbstention
        (if scanComplete then .componentLimit else .candidateScanLimit) .none
      reason :=
        if scanComplete then
          "ordered alignment candidate region exceeds the " ++
            s!"{orderedAlignmentComponentLimit}-child per-side cap; " ++
            "endpoint sets make no pair claims"
        else
          s!"shape-class candidate scan exceeds the {orderedAlignmentCandidateScanLimit}-pair " ++
            "cap; endpoint sets make no pair claims" }] }

section

variable (before after : ParsedSyntax) (canMap : NodeId → NodeId → Bool)

/-- The outcome of a component, of any size. -/
def componentOutcome (candidates : CandidateGroups) (component : AlignmentComponent) :
    AlignmentOutcome :=
  if withinAlignmentLimit component.before.length component.after.length then
    boundedComponentStableCore (shapeEqual before after) canMap candidates component
  else
    oversizedAlignmentAmbiguities candidates component

def boundedOrderedStableCore (beforeIds afterIds : List NodeId) : AlignmentOutcome :=
  let classes := verifiedShapeClasses before after beforeIds afterIds
  if classes.isEmpty then {}
  else
    let candidates := verifiedCandidateGroups canMap classes
    if candidates.groups.isEmpty then {}
    else
      let outcome := (orderedInteractionComponents candidates beforeIds afterIds).foldl
        (fun outcome component =>
          let more := componentOutcome before after canMap candidates component
          AlignmentOutcome.mk (outcome.forced ++ more.forced)
            (outcome.ambiguities ++ more.ambiguities)) {}
      { outcome with forced := sortPairs outcome.forced }

end

end Stratadiff
