import Stratadiff.Core.Hash
import Stratadiff.Matcher.ShapeClasses

/-!
# Candidate groups are connected components

Within a class whose pairs are all looked at, two nodes are in one group exactly when a chain
of candidates connects them. A class with too many pairs is one group as it is, and a
component with such a group is too large for the tables.
-/

namespace Stratadiff

open Batteries (UnionFind)

def withinAlignmentLimit (before after : Nat) : Bool :=
  before ≤ orderedAlignmentComponentLimit && after ≤ orderedAlignmentComponentLimit

/-! ## Disjoint sets join nothing else -/

namespace DisjointSets

theorem new_equiv {len a b : Nat} (h : (new len).Equiv a b) : a = b := by
  rw [new] at h
  induction len with
  | zero => exact UnionFind.equiv_empty.mp h
  | succ len ih =>
      rw [List.range_succ, List.foldl_append, List.foldl_cons, List.foldl_nil,
        UnionFind.equiv_push] at h
      exact ih h

theorem union_equiv {sets : UnionFind} {left right a b : Nat}
    (h : (union sets left right).Equiv a b) :
    sets.Equiv a b ∨ sets.Equiv a right ∧ sets.Equiv left b ∨
      sets.Equiv a left ∧ sets.Equiv right b := by
  rw [union] at h
  split at h
  · exact UnionFind.equiv_union.mp h
  · exact .inl h

/-- Two vertices with one root are connected by the edges that have been joined. -/
theorem foldl_only {edges : List (Nat × Nat)} {len a b : Nat}
    (h : (edges.foldl (fun sets edge => union sets edge.1 edge.2) (new len)).Equiv a b) :
    Relation.EqvGen (fun u v => (u, v) ∈ edges) a b := by
  induction edges using List.reverseRecOn generalizing a b with
  | nil =>
      rw [new_equiv h]
      exact .refl b
  | append_singleton edges edge ih =>
      rw [List.foldl_append, List.foldl_cons, List.foldl_nil] at h
      have earlier {u v : Nat} (old : Relation.EqvGen (fun u v => (u, v) ∈ edges) u v) :
          Relation.EqvGen (fun u v => (u, v) ∈ edges ++ [edge]) u v :=
        Relation.EqvGen.mono (fun _ _ member => List.mem_append_left _ member) _ _ old
      have last : Relation.EqvGen (fun u v => (u, v) ∈ edges ++ [edge]) edge.1 edge.2 :=
        .rel _ _ (by simp)
      rcases union_equiv h with same | ⟨first, second⟩ | ⟨first, second⟩
      · exact earlier (ih same)
      · exact ((earlier (ih first)).trans _ _ _ (last.symm _ _)).trans _ _ _ (earlier (ih second))
      · exact ((earlier (ih first)).trans _ _ _ last).trans _ _ _ (earlier (ih second))

end DisjointSets

/-! ## The candidate graph of a region -/

section

variable {left right : SyntaxTree} (canMap : NodeId → NodeId → Bool)
variable (region : TreeRegion left right)

/-- A candidate: alike nodes on the two sides that may be mapped to each other. -/
inductive Linked : Endpoint → Endpoint → Prop
  | pair {x y : NodeId} (inside : x ∈ region.before) (inside' : y ∈ region.after)
      (alike : (Endpoint.before x).Alike left right (.after y)) (allowed : canMap x y = true) :
      Linked (.before x) (.after y)

/-- The groups that the matcher makes of the candidates of a region of two trees. -/
def regionGroups : CandidateGroups := region.shapes.grouped canMap

variable {canMap region} {u v : Endpoint} {x y : NodeId} {group : CandidateGroup}

/-- The candidates of the classes are the edges of the graph. -/
theorem candidate_iff : region.shapes.Candidate canMap x y ↔
    Linked canMap region (.before x) (.after y) := by
  constructor
  · rintro ⟨shapeClass, member, inClass, inClass', allowed⟩
    obtain ⟨known, _, _, _, is_class⟩ := inClass_iff member
    obtain ⟨inside, alike⟩ := (is_class (.before x)).mp inClass
    obtain ⟨inside', alike'⟩ := (is_class (.after y)).mp inClass'
    exact .pair inside inside' (alike.trans inside known (alike'.symm inside' known)) allowed
  · rintro ⟨inside, inside', alike, allowed⟩
    obtain ⟨shapeClass, member, inClass, inClass'⟩ := exists_class inside inside' alike
    exact ⟨shapeClass, member, inClass, inClass', allowed⟩

theorem regionGroups_of : GroupsOf (region.shapes.Candidate canMap) region.before region.after
    (regionGroups canMap region).groups := verifiedCandidateGroups_of region.shapes

/-- Where a group comes from. -/
theorem mem_regionGroups : group ∈ (regionGroups canMap region).groups ↔
    ∃ shapeClass ∈ regionClasses left right region, group ∈ shapeClass.groups canMap := by
  have perm : (regionGroups canMap region).groups.Perm
      (region.shapes.classes.flatMap fun shapeClass => shapeClass.groups canMap) :=
    List.perm_insertionSort _ _
  rw [perm.mem_iff, List.mem_flatMap]
  rfl

/-- A node of a group is in no other. -/
theorem inGroup_unique {other : CandidateGroup}
    (member : group ∈ (regionGroups canMap region).groups)
    (member' : other ∈ (regionGroups canMap region).groups) (here : u.InGroup group)
    (there : u.InGroup other) : group = other := by
  by_contra different
  have : Std.Symm fun first second : CandidateGroup =>
      first.before.Disjoint second.before ∧ first.after.Disjoint second.after :=
    ⟨fun _ _ apart => ⟨apart.1.symm, apart.2.symm⟩⟩
  have apart := regionGroups_of.apart.forall member member' different
  cases u with
  | before x => exact apart.1 here there
  | after y => exact apart.2 here there

/-- The two nodes of a candidate are in one group. -/
theorem Linked.grouped (h : Linked canMap region u v) :
    ∃ group ∈ (regionGroups canMap region).groups, u.InGroup group ∧ v.InGroup group := by
  cases h with
  | pair inside inside' alike allowed =>
      exact regionGroups_of.covers _ _ (candidate_iff.mpr (.pair inside inside' alike allowed))

/-- Groups are closed under candidates. -/
theorem inGroup_connected (member : group ∈ (regionGroups canMap region).groups)
    (h : Relation.EqvGen (Linked canMap region) u v) : u.InGroup group ↔ v.InGroup group := by
  induction h with
  | rel u v linked =>
      obtain ⟨other, member', here, there⟩ := linked.grouped
      constructor
      · intro inGroup
        rwa [inGroup_unique member member' inGroup here]
      · intro inGroup
        rwa [inGroup_unique member member' inGroup there]
  | refl => exact Iff.rfl
  | symm _ _ _ ih => exact ih.symm
  | trans _ _ _ _ _ first second => exact first.trans second

/-- The node at a vertex of a class. -/
def ShapeClass.vertex (shapeClass : ShapeClass) (i : Nat) : Endpoint :=
  if i < shapeClass.before.length then .before (shapeClass.before[i]?.getD 0)
  else .after (shapeClass.after[i - shapeClass.before.length]?.getD 0)

theorem linked_edge {shapeClass : ShapeClass}
    (member : shapeClass ∈ regionClasses left right region)
    {i j : Nat} (edge : (i, j) ∈ shapeClass.edges canMap) :
    Linked canMap region (shapeClass.vertex i) (shapeClass.vertex j) := by
  obtain ⟨i', j', x, y, first, second, allowed, same⟩ := ShapeClass.mem_edges.mp edge
  obtain ⟨rfl, rfl⟩ := Prod.mk.inj same
  have below := (List.getElem?_eq_some_iff.mp first).1
  rw [ShapeClass.vertex, if_pos below, first, ShapeClass.vertex, if_neg (by omega),
    Nat.add_sub_cancel_left, second]
  exact candidate_iff.mp ⟨shapeClass, member, List.mem_of_getElem? first,
    List.mem_of_getElem? second, allowed⟩

/-- The nodes that disjoint sets put together are connected. -/
theorem connected_of_find {shapeClass : ShapeClass}
    (member : shapeClass ∈ regionClasses left right region) {i j : Nat}
    (same : DisjointSets.find (shapeClass.sets canMap) i =
      DisjointSets.find (shapeClass.sets canMap) j) :
    Relation.EqvGen (Linked canMap region) (shapeClass.vertex i) (shapeClass.vertex j) := by
  have edges := DisjointSets.foldl_only same
  clear same
  induction edges with
  | rel i j edge => exact .rel _ _ (linked_edge member edge)
  | refl i => exact .refl _
  | symm i j _ ih => exact .symm _ _ ih
  | trans i j k _ _ first second => exact .trans _ _ _ first second

/-- A node of a group of one root sits at a vertex with that root. -/
theorem vertex_of_connected {shapeClass : ShapeClass} {root : Nat}
    (inGroup : u.InGroup ⟨shapeClass.connected canMap shapeClass.before 0 root,
      shapeClass.connected canMap shapeClass.after shapeClass.before.length root, true⟩) :
    ∃ i, shapeClass.vertex i = u ∧ DisjointSets.find (shapeClass.sets canMap) i = root := by
  cases u with
  | before x =>
      obtain ⟨i, found, _, same⟩ := ShapeClass.mem_connected.mp inGroup
      rw [Nat.zero_add] at same
      refine ⟨i, ?_, same⟩
      rw [ShapeClass.vertex, if_pos (List.getElem?_eq_some_iff.mp found).1, found]
      rfl
  | after y =>
      obtain ⟨i, found, _, same⟩ := ShapeClass.mem_connected.mp inGroup
      refine ⟨shapeClass.before.length + i, ?_, same⟩
      rw [ShapeClass.vertex, if_neg (by omega), Nat.add_sub_cancel_left, found]
      rfl

/-- What a group is: one root of a class whose pairs are few, or the class. -/
theorem group_cases (member : group ∈ (regionGroups canMap region).groups) :
    ∃ shapeClass ∈ regionClasses left right region,
      (group = ⟨shapeClass.before, shapeClass.after, false⟩ ∧
        orderedAlignmentCandidateScanLimit <
          shapeClass.before.length * shapeClass.after.length) ∨
      ∃ root, group = ⟨shapeClass.connected canMap shapeClass.before 0 root,
        shapeClass.connected canMap shapeClass.after shapeClass.before.length root, true⟩ := by
  obtain ⟨shapeClass, inClasses, there⟩ := mem_regionGroups.mp member
  refine ⟨shapeClass, inClasses, ?_⟩
  rw [ShapeClass.groups] at there
  split at there
  · next many => exact .inl ⟨List.mem_singleton.mp there, many⟩
  · obtain ⟨root, _, rfl⟩ := List.mem_map.mp there
    exact .inr ⟨root, rfl⟩

/-- The nodes of a group whose pairs were all looked at are connected. -/
theorem connected_of_inGroup (member : group ∈ (regionGroups canMap region).groups)
    (complete : group.scanComplete = true) (here : u.InGroup group) (there : v.InGroup group) :
    Relation.EqvGen (Linked canMap region) u v := by
  obtain ⟨shapeClass, inClasses, ⟨rfl, _⟩ | ⟨root, rfl⟩⟩ := group_cases member
  · cases complete
  · obtain ⟨i, rfl, first⟩ := vertex_of_connected here
    obtain ⟨j, rfl, second⟩ := vertex_of_connected there
    exact connected_of_find inClasses (first.trans second.symm)

/-- A group that was not looked at has too many nodes on a side. -/
theorem incomplete_large (member : group ∈ (regionGroups canMap region).groups)
    (incomplete : group.scanComplete = false) :
    (∃ shapeClass ∈ regionClasses left right region, group.before = shapeClass.before ∧
      group.after = shapeClass.after) ∧ group.before.Nodup ∧ group.after.Nodup ∧
    (orderedAlignmentComponentLimit < group.before.length ∨
      orderedAlignmentComponentLimit < group.after.length) := by
  obtain ⟨shapeClass, inClasses, ⟨rfl, many⟩ | ⟨root, rfl⟩⟩ := group_cases member
  · obtain ⟨_, _, before, after, _⟩ := inClass_iff inClasses
    refine ⟨⟨shapeClass, inClasses, rfl, rfl⟩, region.beforeNodup.sublist before,
      region.afterNodup.sublist after, ?_⟩
    by_contra! small
    have product := Nat.mul_le_mul small.1 small.2
    have limit : orderedAlignmentCandidateScanLimit =
        orderedAlignmentComponentLimit * orderedAlignmentComponentLimit * 4 := rfl
    dsimp only at product
    omega
  · cases incomplete

/-! ## Components hold whole groups -/

/-- Two nodes of one group. -/
def Grouped (canMap : NodeId → NodeId → Bool) (region : TreeRegion left right) (x y : NodeId) :
    Prop := ∃ g, (regionGroups canMap region).beforeGroup x = some g ∧
  (regionGroups canMap region).afterGroup y = some g

/-- The components of the candidates of a region of two trees. -/
def regionComponents (canMap : NodeId → NodeId → Bool) (region : TreeRegion left right) :
    List AlignmentComponent := region.shapes.components canMap

theorem components_grouped : Separate (Grouped canMap region)
    ((regionComponents canMap region).map fun block => (block.before, block.after)) := by
  by_cases empty : ((regionGroups canMap region).active region.before region.after).before = []
  · have none : regionComponents canMap region = [] := by
      simp only [regionGroups] at empty
      simp [regionComponents, ShapeClasses.components, orderedInteractionComponents, empty]
    rw [none]
    exact .nil
  · obtain ⟨reached, _⟩ := partition_reached (active_grouped empty) empty
    have found : regionComponents canMap region = (partition
        ((regionGroups canMap region).active region.before region.after)).components := by
      simp only [regionGroups] at empty ⊢
      simp [regionComponents, ShapeClasses.components, orderedInteractionComponents, empty]
    rw [found]
    refine separate_mono reached.separate ?_
    rintro x y ⟨g, first, second⟩
    simp only [ActiveNodes.Joined, CandidateGroups.active]
    rw [show (region.shapes.grouped canMap).beforeGroup x = some g from first,
      show (region.shapes.grouped canMap).afterGroup y = some g from second]

/-- A component has a node of a group on one of its sides. -/
def AlignmentComponent.Touches (component : AlignmentComponent) (group : CandidateGroup) :
    Prop :=
  (∃ x ∈ component.before, x ∈ group.before) ∨ ∃ y ∈ component.after, y ∈ group.after

/-- A component that has a node of a group has the whole group. -/
theorem component_whole {component : AlignmentComponent} {g : Nat}
    (member : component ∈ regionComponents canMap region)
    (found : (regionGroups canMap region).groups[g]? = some group)
    (touches : component.Touches group) :
    group.before ⊆ component.before ∧ group.after ⊆ component.after := by
  obtain ⟨before, after, _⟩ : (regionComponents canMap region).flatMap (·.before) = _ ∧
      (regionComponents canMap region).flatMap (·.after) = _ ∧ _ := components_blocks
  obtain ⟨k, place⟩ := List.getElem?_of_mem member
  have isGroup := List.mem_of_getElem? found
  have groupBefore {z : NodeId} (there : z ∈ group.before) :
      (regionGroups canMap region).beforeGroup z = some g :=
    beforeGroup_eq_some.mpr ⟨group, found, there⟩
  have groupAfter {z : NodeId} (there : z ∈ group.after) :
      (regionGroups canMap region).afterGroup z = some g :=
    afterGroup_eq_some.mpr ⟨group, found, there⟩
  have afters {x : NodeId} (inGroup : x ∈ group.before) (inside : x ∈ component.before) :
      group.after ⊆ component.after := by
    intro y there
    have active : y ∈ (regionComponents canMap region).flatMap (·.after) := by
      rw [after, List.mem_filter]
      exact ⟨regionGroups_of.afterWithin group isGroup y there,
        Option.isSome_iff_exists.mpr ⟨g, groupAfter there⟩⟩
    obtain ⟨other, isOther, inOther⟩ := List.mem_flatMap.mp active
    obtain ⟨j, place'⟩ := List.getElem?_of_mem isOther
    cases same_component components_grouped ⟨g, groupBefore inGroup, groupAfter there⟩ place inside
      place' inOther
    cases place.symm.trans place'
    exact inOther
  have befores {y : NodeId} (inGroup : y ∈ group.after) (inside : y ∈ component.after) :
      group.before ⊆ component.before := by
    intro z there
    have active : z ∈ (regionComponents canMap region).flatMap (·.before) := by
      rw [before, List.mem_filter]
      exact ⟨regionGroups_of.beforeWithin group isGroup z there,
        Option.isSome_iff_exists.mpr ⟨g, groupBefore there⟩⟩
    obtain ⟨other, isOther, inOther⟩ := List.mem_flatMap.mp active
    obtain ⟨j, place'⟩ := List.getElem?_of_mem isOther
    cases same_component components_grouped ⟨g, groupBefore there, groupAfter inGroup⟩ place'
      inOther place inside
    cases place.symm.trans place'
    exact inOther
  obtain ⟨someBefore, someAfter⟩ := regionGroups_of.nonempty group isGroup
  rcases touches with ⟨x, inside, inGroup⟩ | ⟨y, inside, inGroup⟩
  · obtain ⟨y, there⟩ := List.exists_mem_of_ne_nil _ someAfter
    have whole := afters inGroup inside
    exact ⟨befores there (whole there), whole⟩
  · obtain ⟨x, there⟩ := List.exists_mem_of_ne_nil _ someBefore
    have whole := befores inGroup inside
    exact ⟨whole, afters there (whole there)⟩

/-- The tables are only filled for components whose groups were looked at. -/
theorem bounded_complete {component : AlignmentComponent} {g : Nat}
    (member : component ∈ regionComponents canMap region)
    (small : withinAlignmentLimit component.before.length component.after.length = true)
    (found : (regionGroups canMap region).groups[g]? = some group)
    (touches : component.Touches group) : group.scanComplete = true := by
  by_contra incomplete
  rw [Bool.not_eq_true] at incomplete
  obtain ⟨before, after⟩ := component_whole member found touches
  obtain ⟨_, nodup, nodup', large⟩ := incomplete_large (List.mem_of_getElem? found) incomplete
  have fits := (List.subperm_of_subset nodup before).length_le
  have fits' := (List.subperm_of_subset nodup' after).length_le
  rw [withinAlignmentLimit, Bool.and_eq_true, decide_eq_true_eq, decide_eq_true_eq] at small
  omega

end

/-- A node of a well-formed tree. -/
structure TreeNode where
  tree : SyntaxTree
  id : NodeId
  valid : id < tree.nodes.length

/-- Shape equality of nodes of any trees. -/
def TreeNode.SameShape (u v : TreeNode) : Prop :=
  shapeEqual u.tree.toParsedSyntax v.tree.toParsedSyntax u.id v.id = true

theorem sameShape_equivalence : Equivalence TreeNode.SameShape where
  refl u := (shapeEqual_iff u.valid).mpr (.refl u.valid)
  symm {u v} h := (shapeEqual_iff v.valid).mpr ((shapeEqual_iff u.valid).mp h).symm
  trans {u v _} h h' := (shapeEqual_iff u.valid).mpr
    (((shapeEqual_iff u.valid).mp h).trans ((shapeEqual_iff v.valid).mp h'))

/-- Candidate grouping is exact: shape equality is an equivalence; two nodes of a region are
in one class exactly when they have one key and one shape and the region has such a node on
the other side, and no node is in two classes; the groups whose pairs were looked at are the
connected components of the candidates, and each candidate is in one group; a group that was
not looked at is a whole class with too many nodes on a side, and the tables are never filled
for a component that has a node of it. -/
theorem candidate_grouping_exact : Equivalence TreeNode.SameShape ∧
    ∀ (left right : SyntaxTree) (region : TreeRegion left right) (canMap : NodeId → NodeId → Bool),
      (∀ u v : Endpoint, u.InRegion region.toRegion → v.InRegion region.toRegion →
        ((∃ shapeClass ∈ regionClasses left right region,
            u.InClass shapeClass ∧ v.InClass shapeClass) ↔
          u.Alike left right v ∧
            ∃ w : Endpoint, w.InRegion region.toRegion ∧ u.Opposite w ∧ u.Alike left right w)) ∧
      ((regionClasses left right region).Pairwise fun first second =>
        ∀ u : Endpoint, u.InClass first → ¬ u.InClass second) ∧
      (∀ group ∈ (regionGroups canMap region).groups, group.scanComplete = true →
        (∃ u v, Linked canMap region u v ∧ u.InGroup group) ∧
          ∀ u v, u.InGroup group →
            (v.InGroup group ↔ Relation.EqvGen (Linked canMap region) u v)) ∧
      (∀ u v, Linked canMap region u v →
        ∃! group, group ∈ (regionGroups canMap region).groups ∧ u.InGroup group ∧ v.InGroup group) ∧
      (∀ group ∈ (regionGroups canMap region).groups, group.scanComplete = false →
        (∃ shapeClass ∈ regionClasses left right region, group.before = shapeClass.before ∧
          group.after = shapeClass.after) ∧
        (orderedAlignmentComponentLimit < group.before.length ∨
          orderedAlignmentComponentLimit < group.after.length) ∧
        ∀ component ∈ regionComponents canMap region, component.Touches group →
          withinAlignmentLimit component.before.length component.after.length = false) := by
  refine ⟨sameShape_equivalence, fun left right region canMap => ⟨?_, classes_apart, ?_, ?_, ?_⟩⟩
  · exact fun u v inside inside' => inClass_together inside inside'
  · intro group member complete
    refine ⟨?_, fun u v inGroup => ⟨connected_of_inGroup member complete inGroup, fun connected =>
      (inGroup_connected member connected).mp inGroup⟩⟩
    obtain ⟨shapeClass, inClasses, ⟨rfl, _⟩ | ⟨root, rfl⟩⟩ := group_cases member
    · cases complete
    · have nonempty := (regionGroups_of.nonempty _ member).1
      obtain ⟨x, there⟩ := List.exists_mem_of_ne_nil _ nonempty
      obtain ⟨i, found, incident, _⟩ := ShapeClass.mem_connected.mp there
      obtain ⟨edge, isEdge, here⟩ := ShapeClass.incident_iff.mp incident
      obtain ⟨i', j, x', y, first, second, allowed, rfl⟩ := ShapeClass.mem_edges.mp isEdge
      have below := (List.getElem?_eq_some_iff.mp found).1
      have same : i' = i := by
        dsimp only at here
        omega
      subst same
      cases found.symm.trans first
      exact ⟨.before x, .after y, candidate_iff.mp ⟨shapeClass, inClasses,
        List.mem_of_getElem? first, List.mem_of_getElem? second, allowed⟩, there⟩
  · intro u v linked
    obtain ⟨group, member, here, there⟩ := linked.grouped
    exact ⟨group, ⟨member, here, there⟩, fun other ⟨member', here', _⟩ =>
      inGroup_unique member' member here' here⟩
  · intro group member incomplete
    obtain ⟨isClass, _, _, large⟩ := incomplete_large member incomplete
    refine ⟨isClass, large, ?_⟩
    intro component isComponent touches
    by_contra small
    rw [Bool.not_eq_false] at small
    obtain ⟨g, found⟩ := List.getElem?_of_mem member
    rw [bounded_complete isComponent small found touches] at incomplete
    cases incomplete

/-- The roots' children, when nothing below the roots is mapped. -/
def scalarRegion : TreeRegion numberTree trueTree where
  before := [1]
  after := [1]
  beforeNodup := by decide
  afterNodup := by decide
  beforeKnown := by decide
  afterKnown := by decide

/-- A node without a candidate is a connected component of its own, and in no class or group. -/
theorem candidate_grouping_isolated :
    (Endpoint.before 1).InRegion scalarRegion.toRegion ∧
      (∀ shapeClass ∈ regionClasses numberTree trueTree scalarRegion,
        ¬ (Endpoint.before 1).InClass shapeClass) ∧
      ¬ ∃ group ∈ (regionGroups (fun _ _ => true) scalarRegion).groups, ∀ v : Endpoint,
        v.InGroup group ↔
          Relation.EqvGen (Linked (fun _ _ => true) scalarRegion) (.before 1) v := by
  have noClass : regionClasses numberTree trueTree scalarRegion = [] := by decide +kernel
  refine ⟨List.mem_singleton.mpr rfl, ?_, ?_⟩
  · rw [noClass]
    simp
  · rintro ⟨group, member, _⟩
    obtain ⟨shapeClass, inClasses, _⟩ := mem_regionGroups.mp member
    rw [noClass] at inClasses
    cases inClasses

end Stratadiff
