import Stratadiff.Matcher.Components

/-!
# Groups of candidates

Candidates relate nodes of one shape class. Within a class the nodes that candidates
connect are one group, found with disjoint sets; a class with too many pairs to look at is
one group as it is. The groups of a region then partition its active nodes as the
components need it.
-/

namespace Stratadiff

open Batteries (UnionFind)

/-- The nodes on the two sides of an ordered region. -/
structure Region where
  before : List NodeId
  after : List NodeId
  beforeNodup : before.Nodup
  afterNodup : after.Nodup

structure ShapeClass where
  before : List NodeId
  after : List NodeId
  deriving DecidableEq, Repr

/-- Shape classes of a region: disjoint, in the order of the region, with nodes on both
sides. -/
structure ShapeClasses (region : Region) where
  classes : List ShapeClass
  before : ∀ shapeClass ∈ classes, shapeClass.before.Sublist region.before
  after : ∀ shapeClass ∈ classes, shapeClass.after.Sublist region.after
  nonempty : ∀ shapeClass ∈ classes, shapeClass.before ≠ [] ∧ shapeClass.after ≠ []
  apart : classes.Pairwise fun first second =>
    first.before.Disjoint second.before ∧ first.after.Disjoint second.after

def orderedAlignmentComponentLimit : Nat := 64

def orderedAlignmentCandidateScanLimit : Nat :=
  orderedAlignmentComponentLimit * orderedAlignmentComponentLimit * 4

/-! ## Disjoint sets -/

namespace DisjointSets

def new (len : Nat) : UnionFind := (List.range len).foldl (fun sets _ => sets.push) .empty

/-- By rank, the left root on a tie. Compressing paths does not change any root. -/
def union (sets : UnionFind) (left right : Nat) : UnionFind :=
  if inside : left < sets.size ∧ right < sets.size then
    sets.union ⟨right, inside.2⟩ ⟨left, inside.1⟩
  else sets

def find (sets : UnionFind) (value : Nat) : Nat := sets.rootD value

end DisjointSets

/-! ## Groups -/

section

variable (canMap : NodeId → NodeId → Bool)

namespace ShapeClass

variable (shapeClass : ShapeClass)

/-- The candidates of a class as pairs of vertices: the nodes before, then those after. -/
def edges : List (Nat × Nat) :=
  shapeClass.before.zipIdx.flatMap fun x =>
    (shapeClass.after.zipIdx.filter fun y => canMap x.1 y.1).map fun y =>
      (x.2, shapeClass.before.length + y.2)

def sets : UnionFind :=
  (shapeClass.edges canMap).foldl (fun sets edge => DisjointSets.union sets edge.1 edge.2)
    (DisjointSets.new (shapeClass.before.length + shapeClass.after.length))

def incident (vertex : Nat) : Bool :=
  (shapeClass.edges canMap).any fun edge => edge.1 == vertex || edge.2 == vertex

/-- The nodes of one side that are connected to a root; their vertices start at `offset`. -/
def connected (ids : List NodeId) (offset root : Nat) : List NodeId :=
  (ids.zipIdx.filter fun entry => shapeClass.incident canMap (offset + entry.2) &&
    DisjointSets.find (shapeClass.sets canMap) (offset + entry.2) == root).map Prod.fst

/-- The roots of the incident vertices, in order. -/
def roots : List Nat :=
  (((List.range (shapeClass.before.length + shapeClass.after.length)).filter
    (shapeClass.incident canMap)).map
      (DisjointSets.find (shapeClass.sets canMap))).dedup.insertionSort
      (· ≤ ·)

def groups : List CandidateGroup :=
  if orderedAlignmentCandidateScanLimit < shapeClass.before.length * shapeClass.after.length then
    [⟨shapeClass.before, shapeClass.after, false⟩]
  else (shapeClass.roots canMap).map fun root => {
    before := shapeClass.connected canMap shapeClass.before 0 root
    after := shapeClass.connected canMap shapeClass.after shapeClass.before.length root
    scanComplete := true }

end ShapeClass

/-- `(group.before[0], group.after[0])`. -/
def CandidateGroup.key (group : CandidateGroup) : Nat × Nat :=
  (group.before.headD 0, group.after.headD 0)

def sortGroups (groups : List CandidateGroup) : List CandidateGroup :=
  groups.insertionSort fun first second => first.key.1 < second.key.1 ∨
    first.key.1 = second.key.1 ∧ first.key.2 ≤ second.key.2

/-- The number of the group of each node. -/
def groupIndex (side : CandidateGroup → List NodeId) (groups : List CandidateGroup) :
    NodeId → Option Nat :=
  groups.zipIdx.foldl (fun index entry => (side entry.1).foldl (fun index id =>
    Function.update index id (some entry.2)) index) fun _ => none

def verifiedCandidateGroups (classes : List ShapeClass) : CandidateGroups :=
  let groups := sortGroups (classes.flatMap fun shapeClass => shapeClass.groups canMap)
  { groups
    beforeGroup := groupIndex CandidateGroup.before groups
    afterGroup := groupIndex CandidateGroup.after groups }

end

/-! ## Disjoint sets join what they are told -/

namespace DisjointSets

theorem size_new {len : Nat} : (new len).size = len := by
  rw [new]
  induction len with
  | zero => rfl
  | succ len ih =>
      rw [List.range_succ, List.foldl_append, List.foldl_cons, List.foldl_nil]
      simp only [UnionFind.size, UnionFind.arr_push, Array.size_push]
      exact congrArg Nat.succ ih

theorem size_union {sets : UnionFind} {left right : Nat} :
    (union sets left right).size = sets.size := by
  rw [union]
  split
  · simp only [UnionFind.union, UnionFind.size, UnionFind.arr_link, UnionFind.linkAux_size]
    exact (UnionFind.find_size _ _).trans (UnionFind.find_size _ _)
  · rfl

theorem union_keeps {sets : UnionFind} {left right a b : Nat} (h : sets.Equiv a b) :
    (union sets left right).Equiv a b := by
  rw [union]
  split
  · exact UnionFind.equiv_union.mpr (.inl h)
  · exact h

theorem union_joins {sets : UnionFind} {left right : Nat} (first : left < sets.size)
    (second : right < sets.size) : (union sets left right).Equiv left right := by
  rw [union, dif_pos ⟨first, second⟩]
  exact UnionFind.equiv_union.mpr (.inr (.inr ⟨rfl, rfl⟩))

theorem foldl_joins {edges : List (Nat × Nat)} {sets : UnionFind}
    (inside : ∀ edge ∈ edges, edge.1 < sets.size ∧ edge.2 < sets.size) :
    (∀ a b, sets.Equiv a b →
      (edges.foldl (fun sets edge => union sets edge.1 edge.2) sets).Equiv a b) ∧
    ∀ edge ∈ edges, (edges.foldl (fun sets edge => union sets edge.1 edge.2) sets).Equiv
      edge.1 edge.2 := by
  induction edges generalizing sets with
  | nil => exact ⟨fun _ _ => id, by simp⟩
  | cons first edges ih =>
      obtain ⟨left, right⟩ := inside first (by simp)
      have insideRest : ∀ edge ∈ edges, edge.1 < (union sets first.1 first.2).size ∧
          edge.2 < (union sets first.1 first.2).size := by
        intro edge member
        rw [size_union]
        exact inside edge (List.mem_cons_of_mem _ member)
      obtain ⟨keeps, joins⟩ := ih insideRest
      refine ⟨fun a b same => keeps a b (union_keeps same), ?_⟩
      intro edge member
      rcases List.mem_cons.mp member with rfl | there
      · exact keeps _ _ (union_joins left right)
      · exact joins edge there

end DisjointSets

/-! ## The groups of a class -/

/-- Groups with nodes on both sides that are apart from each other and hold every candidate. -/
structure GroupsOf (R : NodeId → NodeId → Prop) (beforeIds afterIds : List NodeId)
    (groups : List CandidateGroup) : Prop where
  beforeWithin : ∀ group ∈ groups, ∀ x ∈ group.before, x ∈ beforeIds
  afterWithin : ∀ group ∈ groups, ∀ y ∈ group.after, y ∈ afterIds
  nonempty : ∀ group ∈ groups, group.before ≠ [] ∧ group.after ≠ []
  apart : groups.Pairwise fun first second =>
    first.before.Disjoint second.before ∧ first.after.Disjoint second.after
  covers : ∀ x y, R x y → ∃ group ∈ groups, x ∈ group.before ∧ y ∈ group.after

namespace ShapeClass

variable {canMap : NodeId → NodeId → Bool} {shapeClass : ShapeClass} {i j root : Nat}
variable {x y : NodeId}

/-- The candidates within a class. -/
def Candidate (canMap : NodeId → NodeId → Bool) (shapeClass : ShapeClass) (x y : NodeId) : Prop :=
  x ∈ shapeClass.before ∧ y ∈ shapeClass.after ∧ canMap x y = true

theorem mem_edges {edge : Nat × Nat} : edge ∈ shapeClass.edges canMap ↔
    ∃ i j x y, shapeClass.before[i]? = some x ∧ shapeClass.after[j]? = some y ∧
      canMap x y = true ∧ edge = (i, shapeClass.before.length + j) := by
  simp only [edges, List.mem_flatMap, List.mem_map, List.mem_filter, List.mem_zipIdx_iff_getElem?,
    Prod.exists]
  constructor
  · rintro ⟨x, i, first, y, j, ⟨second, holds⟩, rfl⟩
    exact ⟨i, j, x, y, first, second, holds, rfl⟩
  · rintro ⟨i, j, x, y, first, second, holds, rfl⟩
    exact ⟨x, i, first, y, j, ⟨second, holds⟩, rfl⟩

theorem edges_inside : ∀ edge ∈ shapeClass.edges canMap,
    edge.1 < shapeClass.before.length + shapeClass.after.length ∧
      edge.2 < shapeClass.before.length + shapeClass.after.length := by
  intro edge member
  obtain ⟨i, j, x, y, first, second, _, rfl⟩ := mem_edges.mp member
  have := (List.getElem?_eq_some_iff.mp first).1
  have := (List.getElem?_eq_some_iff.mp second).1
  dsimp only
  omega

/-- The two nodes of a candidate have one root. -/
theorem find_edge {edge : Nat × Nat} (member : edge ∈ shapeClass.edges canMap) :
    DisjointSets.find (shapeClass.sets canMap) edge.1 =
      DisjointSets.find (shapeClass.sets canMap) edge.2 := by
  refine (DisjointSets.foldl_joins ?_).2 edge member
  rw [DisjointSets.size_new]
  exact edges_inside

theorem incident_iff {vertex : Nat} : shapeClass.incident canMap vertex = true ↔
    ∃ edge ∈ shapeClass.edges canMap, edge.1 = vertex ∨ edge.2 = vertex := by
  simp [incident]

theorem mem_connected {ids : List NodeId} {offset : Nat} :
    x ∈ shapeClass.connected canMap ids offset root ↔ ∃ i, ids[i]? = some x ∧
      shapeClass.incident canMap (offset + i) = true ∧
      DisjointSets.find (shapeClass.sets canMap) (offset + i) = root := by
  simp only [connected, List.mem_map, List.mem_filter, List.mem_zipIdx_iff_getElem?, Prod.exists,
    Bool.and_eq_true, beq_iff_eq, exists_and_right, exists_eq_right]

theorem mem_roots : root ∈ shapeClass.roots canMap ↔ ∃ edge ∈ shapeClass.edges canMap,
    DisjointSets.find (shapeClass.sets canMap) edge.1 = root := by
  simp only [roots, List.mem_insertionSort, List.mem_dedup, List.mem_map, List.mem_filter,
    List.mem_range, incident_iff]
  constructor
  · rintro ⟨vertex, ⟨_, edge, member, rfl | rfl⟩, rfl⟩
    · exact ⟨edge, member, rfl⟩
    · exact ⟨edge, member, find_edge member⟩
  · rintro ⟨edge, member, rfl⟩
    exact ⟨edge.1, ⟨(edges_inside edge member).1, edge, member, .inl rfl⟩, rfl⟩

theorem roots_nodup : (shapeClass.roots canMap).Nodup :=
  (List.perm_insertionSort _ _).nodup_iff.mpr (List.nodup_dedup _)

/-- Both nodes of a candidate are connected to its root. -/
theorem connected_edge {edge : Nat × Nat} (member : edge ∈ shapeClass.edges canMap) :
    ∃ x y, x ∈ shapeClass.connected canMap shapeClass.before 0
        (DisjointSets.find (shapeClass.sets canMap) edge.1) ∧
      y ∈ shapeClass.connected canMap shapeClass.after shapeClass.before.length
        (DisjointSets.find (shapeClass.sets canMap) edge.1) ∧
      shapeClass.before[edge.1]? = some x ∧
      shapeClass.after[edge.2 - shapeClass.before.length]? = some y := by
  have same := find_edge member
  obtain ⟨i, j, x, y, first, second, _, rfl⟩ := mem_edges.mp member
  refine ⟨x, y, mem_connected.mpr ⟨i, first, ?_, ?_⟩, mem_connected.mpr ⟨j, second, ?_, ?_⟩,
    first, by simpa using second⟩
  · exact incident_iff.mpr ⟨_, member, .inl (Nat.zero_add i).symm⟩
  · rw [Nat.zero_add]
  · exact incident_iff.mpr ⟨_, member, .inr rfl⟩
  · exact same.symm

/-- A node is connected to one root. -/
theorem connected_disjoint {ids : List NodeId} {offset other : Nat} (nodup : ids.Nodup)
    (different : root ≠ other) :
    (shapeClass.connected canMap ids offset root).Disjoint
      (shapeClass.connected canMap ids offset other) := by
  intro x first second
  obtain ⟨i, here, _, rfl⟩ := mem_connected.mp first
  obtain ⟨j, there, _, rfl⟩ := mem_connected.mp second
  obtain ⟨below, rfl⟩ := List.getElem?_eq_some_iff.mp here
  obtain ⟨below', same⟩ := List.getElem?_eq_some_iff.mp there
  have equal := (nodup.getElem_inj_iff).mp same
  rw [equal] at different
  exact different rfl

theorem groups_of (beforeNodup : shapeClass.before.Nodup) (afterNodup : shapeClass.after.Nodup)
    (nonempty : shapeClass.before ≠ [] ∧ shapeClass.after ≠ []) :
    GroupsOf (shapeClass.Candidate canMap) shapeClass.before shapeClass.after
      (shapeClass.groups canMap) := by
  rw [groups]
  split
  · constructor
    · simp
    · simp
    · simpa using nonempty
    · simp
    · rintro x y ⟨first, second, _⟩
      exact ⟨_, List.mem_singleton.mpr rfl, first, second⟩
  · constructor
    · intro group member x inside
      obtain ⟨root, _, rfl⟩ := List.mem_map.mp member
      obtain ⟨i, found, _⟩ := mem_connected.mp inside
      exact List.mem_of_getElem? found
    · intro group member y inside
      obtain ⟨root, _, rfl⟩ := List.mem_map.mp member
      obtain ⟨i, found, _⟩ := mem_connected.mp inside
      exact List.mem_of_getElem? found
    · intro group member
      obtain ⟨root, isRoot, rfl⟩ := List.mem_map.mp member
      obtain ⟨edge, there, rfl⟩ := mem_roots.mp isRoot
      obtain ⟨x, y, first, second, _⟩ := connected_edge there
      exact ⟨List.ne_nil_of_mem first, List.ne_nil_of_mem second⟩
    · rw [List.pairwise_map]
      exact roots_nodup.imp fun different =>
        ⟨connected_disjoint beforeNodup different, connected_disjoint afterNodup different⟩
    · rintro x y ⟨first, second, holds⟩
      obtain ⟨i, here⟩ := List.getElem?_of_mem first
      obtain ⟨j, there⟩ := List.getElem?_of_mem second
      have member := mem_edges.mpr ⟨i, j, x, y, here, there, holds, rfl⟩
      obtain ⟨x', y', inBefore, inAfter, sameX, sameY⟩ := connected_edge member
      cases here.symm.trans sameX
      rw [Nat.add_sub_cancel_left] at sameY
      cases there.symm.trans sameY
      exact ⟨_, List.mem_map.mpr ⟨_, mem_roots.mpr ⟨_, member, rfl⟩, rfl⟩, inBefore, inAfter⟩

end ShapeClass

/-! ## The groups of a region -/

variable {canMap : NodeId → NodeId → Bool} {region : Region}

/-- The candidates of a region: nodes of one class that may be mapped to each other. -/
def ShapeClasses.Candidate (shapes : ShapeClasses region) (canMap : NodeId → NodeId → Bool)
    (x y : NodeId) : Prop :=
  ∃ shapeClass ∈ shapes.classes, shapeClass.Candidate canMap x y

theorem GroupsOf.perm {R : NodeId → NodeId → Prop} {beforeIds afterIds : List NodeId}
    {groups groups' : List CandidateGroup} (h : GroupsOf R beforeIds afterIds groups)
    (perm : groups'.Perm groups) : GroupsOf R beforeIds afterIds groups' where
  beforeWithin group member := h.beforeWithin group (perm.mem_iff.mp member)
  afterWithin group member := h.afterWithin group (perm.mem_iff.mp member)
  nonempty group member := h.nonempty group (perm.mem_iff.mp member)
  apart := h.apart.perm perm.symm fun apart => ⟨apart.1.symm, apart.2.symm⟩
  covers x y related := by
    obtain ⟨group, member, both⟩ := h.covers x y related
    exact ⟨group, perm.mem_iff.mpr member, both⟩

theorem verifiedCandidateGroups_of (shapes : ShapeClasses region) :
    GroupsOf (shapes.Candidate canMap) region.before region.after
      (verifiedCandidateGroups canMap shapes.classes).groups := by
  have each : ∀ shapeClass ∈ shapes.classes, GroupsOf (shapeClass.Candidate canMap)
      shapeClass.before shapeClass.after (shapeClass.groups canMap) := fun shapeClass member =>
    ShapeClass.groups_of (region.beforeNodup.sublist (shapes.before shapeClass member))
      (region.afterNodup.sublist (shapes.after shapeClass member))
      (shapes.nonempty shapeClass member)
  refine GroupsOf.perm ?_ (List.perm_insertionSort _ _)
  constructor
  · intro group member x inside
    obtain ⟨shapeClass, there, isGroup⟩ := List.mem_flatMap.mp member
    exact (shapes.before shapeClass there).subset
      ((each shapeClass there).beforeWithin group isGroup x inside)
  · intro group member y inside
    obtain ⟨shapeClass, there, isGroup⟩ := List.mem_flatMap.mp member
    exact (shapes.after shapeClass there).subset
      ((each shapeClass there).afterWithin group isGroup y inside)
  · intro group member
    obtain ⟨shapeClass, there, isGroup⟩ := List.mem_flatMap.mp member
    exact (each shapeClass there).nonempty group isGroup
  · rw [List.pairwise_flatMap]
    refine ⟨fun shapeClass member => (each shapeClass member).apart, ?_⟩
    refine shapes.apart.imp_of_mem ?_
    intro first second inFirst inSecond apart group member other otherMember
    refine ⟨fun x left right => ?_, fun y left right => ?_⟩
    · exact apart.1 ((each first inFirst).beforeWithin group member x left)
        ((each second inSecond).beforeWithin other otherMember x right)
    · exact apart.2 ((each first inFirst).afterWithin group member y left)
        ((each second inSecond).afterWithin other otherMember y right)
  · rintro x y ⟨shapeClass, member, candidate⟩
    obtain ⟨group, isGroup, both⟩ := (each shapeClass member).covers x y candidate
    exact ⟨group, List.mem_flatMap.mpr ⟨shapeClass, member, isGroup⟩, both⟩

theorem foldl_update {ids : List NodeId} {index : NodeId → Option Nat} {number : Nat} {x : NodeId} :
    ids.foldl (fun index id => Function.update index id (some number)) index x =
      if x ∈ ids then some number else index x := by
  induction ids generalizing index with
  | nil => simp
  | cons id ids ih =>
      rw [List.foldl_cons, ih]
      by_cases same : x = id
      · subst same
        simp
      · simp [same]

/-- A node's number is that of the group it is in. -/
theorem groupIndex_eq_some {side : CandidateGroup → List NodeId} {groups : List CandidateGroup}
    (apart : groups.Pairwise fun first second => (side first).Disjoint (side second)) {x : NodeId}
    {g : Nat} : groupIndex side groups x = some g ↔
      ∃ group, groups[g]? = some group ∧ x ∈ side group := by
  induction groups using List.reverseRecOn generalizing g with
  | nil => simp [groupIndex]
  | append_singleton groups last ih =>
      obtain ⟨before, _, across⟩ := List.pairwise_append.mp apart
      have step : groupIndex side (groups ++ [last]) x =
          if x ∈ side last then some groups.length else groupIndex side groups x := by
        simp only [groupIndex, List.zipIdx_append, List.foldl_append, List.zipIdx_singleton,
          List.foldl_cons, List.foldl_nil, foldl_update, Nat.zero_add]
      rw [step]
      by_cases here : x ∈ side last
      · rw [if_pos here, Option.some_inj]
        constructor
        · rintro rfl
          exact ⟨last, by simp, here⟩
        · rintro ⟨group, found, inside⟩
          rw [List.getElem?_append] at found
          split at found
          · exact absurd here fun there =>
              across group (List.mem_of_getElem? found) last (by simp) inside there
          · next above =>
              have := (List.getElem?_eq_some_iff.mp found).1
              rw [List.length_singleton] at this
              omega
      · rw [if_neg here, ih before]
        constructor
        · rintro ⟨group, found, inside⟩
          refine ⟨group, ?_, inside⟩
          rw [List.getElem?_append_left (List.getElem?_eq_some_iff.mp found).1]
          exact found
        · rintro ⟨group, found, inside⟩
          rw [List.getElem?_append] at found
          split at found
          · exact ⟨group, found, inside⟩
          · rw [List.getElem?_singleton] at found
            split at found
            · cases found
              exact absurd inside here
            · cases found

section

variable (canMap) (shapes : ShapeClasses region)

/-- The groups that the matcher makes of the candidates of a region. -/
def ShapeClasses.grouped : CandidateGroups := verifiedCandidateGroups canMap shapes.classes

def ShapeClasses.components : List AlignmentComponent :=
  orderedInteractionComponents (shapes.grouped canMap) region.before region.after

end

section

variable {shapes : ShapeClasses region} {x y : NodeId}

theorem beforeGroup_eq_some {g : Nat} : (shapes.grouped canMap).beforeGroup x = some g ↔
    ∃ group, (shapes.grouped canMap).groups[g]? = some group ∧ x ∈ group.before :=
  groupIndex_eq_some ((verifiedCandidateGroups_of shapes).apart.imp And.left)

theorem afterGroup_eq_some {g : Nat} : (shapes.grouped canMap).afterGroup y = some g ↔
    ∃ group, (shapes.grouped canMap).groups[g]? = some group ∧ y ∈ group.after :=
  groupIndex_eq_some ((verifiedCandidateGroups_of shapes).apart.imp And.right)

/-- The nodes of a candidate are in one group. -/
theorem candidate_grouped (candidate : shapes.Candidate canMap x y) :
    ∃ g, (shapes.grouped canMap).beforeGroup x = some g ∧
      (shapes.grouped canMap).afterGroup y = some g := by
  obtain ⟨group, member, first, second⟩ := (verifiedCandidateGroups_of shapes).covers x y candidate
  obtain ⟨g, found⟩ := List.getElem?_of_mem member
  exact ⟨g, beforeGroup_eq_some.mpr ⟨group, found, first⟩,
    afterGroup_eq_some.mpr ⟨group, found, second⟩⟩

theorem mem_active_before :
    x ∈ ((shapes.grouped canMap).active region.before region.after).before ↔
      x ∈ region.before ∧ ∃ g, (shapes.grouped canMap).beforeGroup x = some g := by
  simp [CandidateGroups.active, Option.isSome_iff_exists]

theorem mem_active_after :
    y ∈ ((shapes.grouped canMap).active region.before region.after).after ↔
      y ∈ region.after ∧ ∃ g, (shapes.grouped canMap).afterGroup y = some g := by
  simp [CandidateGroups.active, Option.isSome_iff_exists]

/-- A group has nodes of the region on both sides. -/
theorem group_sides {g : Nat} {group : CandidateGroup}
    (found : (shapes.grouped canMap).groups[g]? = some group) :
    ∃ x y, x ∈ region.before ∧ y ∈ region.after ∧
      (shapes.grouped canMap).beforeGroup x = some g ∧
      (shapes.grouped canMap).afterGroup y = some g := by
  have groups : GroupsOf (shapes.Candidate canMap) region.before region.after
      (shapes.grouped canMap).groups := verifiedCandidateGroups_of shapes
  have member := List.mem_of_getElem? found
  obtain ⟨first, second⟩ := groups.nonempty group member
  obtain ⟨x, inBefore⟩ := List.exists_mem_of_ne_nil _ first
  obtain ⟨y, inAfter⟩ := List.exists_mem_of_ne_nil _ second
  exact ⟨x, y, groups.beforeWithin group member x inBefore,
    groups.afterWithin group member y inAfter, beforeGroup_eq_some.mpr ⟨group, found, inBefore⟩,
    afterGroup_eq_some.mpr ⟨group, found, inAfter⟩⟩

theorem active_grouped
    (nonempty : ((shapes.grouped canMap).active region.before region.after).before ≠ []) :
    ((shapes.grouped canMap).active region.before region.after).Grouped where
  beforeKnown := by
    intro x member
    obtain ⟨_, g, here⟩ := mem_active_before.mp member
    obtain ⟨group, found, _⟩ := beforeGroup_eq_some.mp here
    simp only [CandidateGroups.active, here, Option.getD_some]
    exact (List.getElem?_eq_some_iff.mp found).1
  afterKnown := by
    intro y member
    obtain ⟨_, g, here⟩ := mem_active_after.mp member
    obtain ⟨group, found, _⟩ := afterGroup_eq_some.mp here
    simp only [CandidateGroups.active, here, Option.getD_some]
    exact (List.getElem?_eq_some_iff.mp found).1
  hasBefore := by
    intro y member
    obtain ⟨_, g, here⟩ := mem_active_after.mp member
    obtain ⟨group, found, _⟩ := afterGroup_eq_some.mp here
    obtain ⟨x, _, inRegion, _, there, _⟩ := group_sides found
    refine ⟨x, mem_active_before.mpr ⟨inRegion, g, there⟩, ?_⟩
    simp only [ActiveNodes.Joined, CandidateGroups.active, here, there]
  someAfter := by
    obtain ⟨x, member⟩ := List.exists_mem_of_ne_nil _ nonempty
    obtain ⟨_, g, here⟩ := mem_active_before.mp member
    obtain ⟨group, found, _⟩ := beforeGroup_eq_some.mp here
    obtain ⟨_, y, _, inRegion, _, there⟩ := group_sides found
    exact List.ne_nil_of_mem (mem_active_after.mpr ⟨inRegion, g, there⟩)

theorem separate_mono {R S : NodeId → NodeId → Prop} {blocks : List (List NodeId × List NodeId)}
    (h : Separate R blocks) (imp : ∀ x y, S x y → R x y) : Separate S blocks :=
  List.Pairwise.imp (fun apart => ⟨fun x first y second related =>
    apart.1 x first y second (imp x y related), fun x first y second related =>
    apart.2 x first y second (imp x y related)⟩) h

/-- The components hold the active nodes of the region in order, and no candidate is of two
components. -/
theorem components_blocks :
    (shapes.components canMap).flatMap (·.before) =
      region.before.filter (fun id => ((shapes.grouped canMap).beforeGroup id).isSome) ∧
    (shapes.components canMap).flatMap (·.after) =
      region.after.filter (fun id => ((shapes.grouped canMap).afterGroup id).isSome) ∧
    Separate (shapes.Candidate canMap)
      ((shapes.components canMap).map fun block => (block.before, block.after)) := by
  by_cases empty : ((shapes.grouped canMap).active region.before region.after).before = []
  · have none : shapes.components canMap = [] := by
      simp [ShapeClasses.components, orderedInteractionComponents, empty]
    rw [none]
    refine ⟨empty.symm, ?_, by simp [Separate]⟩
    -- A group with a node after would have one before.
    symm
    rw [List.flatMap_nil, List.eq_nil_iff_forall_not_mem]
    intro y member
    obtain ⟨_, g, here⟩ := mem_active_after.mp member
    obtain ⟨group, found, _⟩ := afterGroup_eq_some.mp here
    obtain ⟨x, _, inRegion, _, there, _⟩ := group_sides found
    have inactive := mem_active_before.mpr ⟨inRegion, g, there⟩
    rw [empty] at inactive
    cases inactive
  · obtain ⟨reached, beforeAll, afterAll, _⟩ := partition_reached (active_grouped empty) empty
    have some : shapes.components canMap = (partition
        ((shapes.grouped canMap).active region.before region.after)).components := by
      simp [ShapeClasses.components, orderedInteractionComponents, empty]
    rw [some]
    have before := reached.blocksBefore
    have after := reached.blocksAfter
    rw [beforeAll, List.take_length] at before
    rw [afterAll, List.take_length] at after
    refine ⟨before, after, separate_mono reached.separate ?_⟩
    intro x y candidate
    obtain ⟨g, first, second⟩ := candidate_grouped candidate
    simp only [ActiveNodes.Joined, CandidateGroups.active, first, second]

end

/-- A member of a list of lists without repetitions is in one of them. -/
theorem existsUnique_block {α β : Type} {blocks : List α} {side : α → List β} {x : β}
    (nodup : (blocks.flatMap side).Nodup) (member : x ∈ blocks.flatMap side) :
    ∃! k : Nat, ∃ block : α, blocks[k]? = some block ∧ x ∈ side block := by
  obtain ⟨block, there, inside⟩ := List.mem_flatMap.mp member
  obtain ⟨k, found⟩ := List.getElem?_of_mem there
  refine ⟨k, ⟨block, found, inside⟩, ?_⟩
  rintro j ⟨other, found', inside'⟩
  by_contra different
  have apart := (List.nodup_flatMap.mp nodup).2
  obtain ⟨below, rfl⟩ := List.getElem?_eq_some_iff.mp found
  obtain ⟨below', rfl⟩ := List.getElem?_eq_some_iff.mp found'
  rcases Nat.lt_or_gt_of_ne different with less | more
  · exact List.pairwise_iff_getElem.mp apart j k below' below less inside' inside
  · exact List.pairwise_iff_getElem.mp apart k j below below' more inside inside'

/-- The two nodes of a candidate are in one component. -/
theorem same_component {R : NodeId → NodeId → Prop} {components : List AlignmentComponent}
    (separate : Separate R (components.map fun block => (block.before, block.after)))
    {k j : Nat} {first second : AlignmentComponent} {x y : NodeId} (related : R x y)
    (found : components[k]? = some first) (inFirst : x ∈ first.before)
    (found' : components[j]? = some second) (inSecond : y ∈ second.after) : k = j := by
  by_contra different
  obtain ⟨below, rfl⟩ := List.getElem?_eq_some_iff.mp found
  obtain ⟨below', rfl⟩ := List.getElem?_eq_some_iff.mp found'
  have apart := List.pairwise_map.mp separate
  rcases Nat.lt_or_gt_of_ne different with less | more
  · exact (List.pairwise_iff_getElem.mp apart k j below below' less).1 x inFirst y inSecond related
  · exact (List.pairwise_iff_getElem.mp apart j k below' below more).2 x inFirst y inSecond related

/-- Components preserve optima: every node of a candidate is in one component, candidates do
not leave their component, the longest alignments of the components are together as long
as those of the region, and a pair is in some, or in every, longest alignment of the region
when it is so in its component. -/
theorem components_preserve_optima (region : Region) (shapes : ShapeClasses region)
    (canMap : NodeId → NodeId → Bool) :
    (∀ x y, shapes.Candidate canMap x y →
      (∃! k : Nat, ∃ component : AlignmentComponent,
        (shapes.components canMap)[k]? = some component ∧ x ∈ component.before) ∧
      (∃! k : Nat, ∃ component : AlignmentComponent,
        (shapes.components canMap)[k]? = some component ∧ y ∈ component.after) ∧
      ∀ component ∈ shapes.components canMap, x ∈ component.before ↔ y ∈ component.after) ∧
    ((shapes.components canMap).map fun component =>
      maximumAlignment (shapes.Candidate canMap) component.before component.after).sum =
        maximumAlignment (shapes.Candidate canMap) region.before region.after ∧
    ∀ component ∈ shapes.components canMap, ∀ pair : NodeId × NodeId,
      pair.1 ∈ component.before → pair.2 ∈ component.after →
      (Occurs (shapes.Candidate canMap) region.before region.after pair ↔
        Occurs (shapes.Candidate canMap) component.before component.after pair) ∧
      (Forced (shapes.Candidate canMap) region.before region.after pair ↔
        Forced (shapes.Candidate canMap) component.before component.after pair) := by
  obtain ⟨before, after, separate⟩ :
      (shapes.components canMap).flatMap (·.before) = _ ∧
        (shapes.components canMap).flatMap (·.after) = _ ∧ _ := components_blocks
  have beforeNodup : ((shapes.components canMap).flatMap (·.before)).Nodup := by
    rw [before]
    exact region.beforeNodup.filter _
  have afterNodup : ((shapes.components canMap).flatMap (·.after)).Nodup := by
    rw [after]
    exact region.afterNodup.filter _
  have placed : ∀ x y, shapes.Candidate canMap x y →
      x ∈ (shapes.components canMap).flatMap (·.before) ∧
        y ∈ (shapes.components canMap).flatMap (·.after) := by
    rintro x y candidate
    obtain ⟨g, first, second⟩ := candidate_grouped candidate
    obtain ⟨shapeClass, member, inBefore, inAfter, _⟩ := candidate
    rw [before, after, List.mem_filter, List.mem_filter, first, second]
    exact ⟨⟨(shapes.before shapeClass member).subset inBefore, rfl⟩,
      (shapes.after shapeClass member).subset inAfter, rfl⟩
  have partners : ∀ x ∈ region.before, ∀ y ∈ region.after, shapes.Candidate canMap x y →
      ((shapes.grouped canMap).beforeGroup x).isSome = true ∧
        ((shapes.grouped canMap).afterGroup y).isSome = true := by
    intro x _ y _ candidate
    obtain ⟨g, first, second⟩ := candidate_grouped candidate
    rw [first, second]
    exact ⟨rfl, rfl⟩
  refine ⟨?_, ?_, ?_⟩
  · intro x y candidate
    obtain ⟨inBefore, inAfter⟩ := placed x y candidate
    refine ⟨existsUnique_block beforeNodup inBefore, existsUnique_block afterNodup inAfter, ?_⟩
    intro component member
    obtain ⟨k, found⟩ := List.getElem?_of_mem member
    constructor
    · intro here
      obtain ⟨other, otherMember, there⟩ := List.mem_flatMap.mp inAfter
      obtain ⟨j, found'⟩ := List.getElem?_of_mem otherMember
      cases same_component separate candidate found here found' there
      cases found.symm.trans found'
      exact there
    · intro there
      obtain ⟨other, otherMember, here⟩ := List.mem_flatMap.mp inBefore
      obtain ⟨j, found'⟩ := List.getElem?_of_mem otherMember
      cases same_component separate candidate found' here found there
      cases found.symm.trans found'
      exact here
  · have total := maximum_blocks separate
    rw [List.flatMap_map, List.flatMap_map, List.map_map] at total
    rw [← maximum_filter partners, ← before, ← after]
    exact total.symm
  · intro component member pair inBefore _
    have blocks := occurs_forced_blocks separate (by rw [List.flatMap_map]; exact beforeNodup)
      (List.mem_map.mpr ⟨component, member, rfl⟩) inBefore
    rw [List.flatMap_map, List.flatMap_map] at blocks
    simp only [before, after] at blocks
    simp only [Occurs, Forced, isMaximum_filter partners] at blocks ⊢
    exact blocks

end Stratadiff
