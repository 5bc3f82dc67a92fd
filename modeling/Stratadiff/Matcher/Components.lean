import Stratadiff.Matcher.Alignment

/-!
# Components of a region

The candidates of a region are in groups, and a region is cut where whole groups fill a
prefix of both sides. The alignments of the parts are then independent of each other.
-/

namespace Stratadiff

abbrev NodeId := Nat

structure CandidateGroup where
  before : List NodeId
  after : List NodeId
  scanComplete : Bool
  deriving DecidableEq, Repr

structure CandidateGroups where
  groups : List CandidateGroup
  beforeGroup : NodeId → Option Nat
  afterGroup : NodeId → Option Nat

structure AlignmentComponent where
  before : List NodeId
  after : List NodeId
  groups : List Nat
  deriving DecidableEq, Repr

/-- The nodes of a region that are in groups, with their groups. -/
structure ActiveNodes where
  before : List NodeId
  after : List NodeId
  groupCount : Nat
  beforeGroup : NodeId → Nat
  afterGroup : NodeId → Nat

def CandidateGroups.active (candidates : CandidateGroups) (beforeIds afterIds : List NodeId) :
    ActiveNodes where
  before := beforeIds.filter fun id => (candidates.beforeGroup id).isSome
  after := afterIds.filter fun id => (candidates.afterGroup id).isSome
  groupCount := candidates.groups.length
  beforeGroup id := (candidates.beforeGroup id).getD 0
  afterGroup id := (candidates.afterGroup id).getD 0

/-- The last position of each group among some nodes. -/
def lastPositions (groupCount : Nat) (group : NodeId → Nat) (ids : List NodeId) : List Nat :=
  ids.zipIdx.foldl (fun last entry => last.set (group entry.1) entry.2)
    (List.replicate groupCount 0)

/-- The number of nodes of each group. -/
def groupCounts (groupCount : Nat) (group : NodeId → Nat) (ids : List NodeId) : List Nat :=
  ids.foldl (fun counts id => counts.modify (group id) (· + 1)) (List.replicate groupCount 0)

/-- The variables of the loop over the nodes before. -/
structure Partition where
  components : List AlignmentComponent
  seen : List Bool
  componentGroups : List Nat
  beforeStart : Nat
  afterStart : Nat
  beforePrefixLast : Nat
  afterPrefixLast : Nat
  afterPrefixCount : Nat
  deriving DecidableEq, Repr

namespace Partition

def start (groupCount : Nat) : Partition where
  components := []
  seen := List.replicate groupCount false
  componentGroups := []
  beforeStart := 0
  afterStart := 0
  beforePrefixLast := 0
  afterPrefixLast := 0
  afterPrefixCount := 0

/-- Come to a node of a group. -/
def see (nodes : ActiveNodes) (state : Partition) (groupId : Nat) : Partition :=
  if state.seen[groupId]?.getD false then state
  else { state with
    seen := state.seen.set groupId true
    componentGroups := state.componentGroups ++ [groupId]
    beforePrefixLast := max state.beforePrefixLast
      ((lastPositions nodes.groupCount nodes.beforeGroup nodes.before)[groupId]?.getD 0)
    afterPrefixLast := max state.afterPrefixLast
      ((lastPositions nodes.groupCount nodes.afterGroup nodes.after)[groupId]?.getD 0)
    afterPrefixCount := state.afterPrefixCount +
      (groupCounts nodes.groupCount nodes.afterGroup nodes.after)[groupId]?.getD 0 }

/-- A cut is independent only when complete connected candidate groups occupy prefixes on
both sides. -/
def cut (nodes : ActiveNodes) (state : Partition) (position : Nat) : Partition :=
  if position = state.beforePrefixLast ∧ state.afterPrefixCount = state.afterPrefixLast + 1 then
    { state with
      components := state.components ++ [{
        before := (nodes.before.take (position + 1)).drop state.beforeStart
        after := (nodes.after.take state.afterPrefixCount).drop state.afterStart
        groups := state.componentGroups }]
      componentGroups := []
      beforeStart := position + 1
      afterStart := state.afterPrefixCount }
  else state

end Partition

/-- The loop of `ordered_interaction_components`. -/
def partition (nodes : ActiveNodes) : Partition :=
  nodes.before.zipIdx.foldl (fun state entry =>
    (state.see nodes (nodes.beforeGroup entry.1)).cut nodes entry.2)
    (Partition.start nodes.groupCount)

def orderedInteractionComponents (candidates : CandidateGroups) (beforeIds afterIds : List NodeId) :
    List AlignmentComponent :=
  let nodes := candidates.active beforeIds afterIds
  if nodes.before.isEmpty then [] else (partition nodes).components

/-! ## Loops over positions -/

/-- The rule for a loop over the elements of a list with their positions. -/
theorem foldl_positions {α σ : Type} {ids : List α} {init : σ} {step : σ → α × Nat → σ}
    (I : Nat → σ → Prop) (start : I 0 init)
    (body : ∀ k id state, ids[k]? = some id → I k state → I (k + 1) (step state (id, k))) :
    I ids.length (ids.zipIdx.foldl step init) := by
  induction ids using List.reverseRecOn with
  | nil => exact start
  | append_singleton ids id ih =>
      have before := ih fun k other state found holds =>
        body k other state (by rw [List.getElem?_append_left (List.getElem?_eq_some_iff.mp found).1]
                               exact found) holds
      rw [List.zipIdx_append, List.foldl_append, List.length_append]
      simpa using body ids.length id _ (by simp) before

section

variable {groupCount : Nat} {group : NodeId → Nat} {ids : List NodeId}

theorem lastPositions_concat {id : NodeId} : lastPositions groupCount group (ids ++ [id]) =
    (lastPositions groupCount group ids).set (group id) ids.length := by
  simp [lastPositions, List.zipIdx_append]

theorem length_lastPositions : (lastPositions groupCount group ids).length = groupCount := by
  induction ids using List.reverseRecOn with
  | nil => simp [lastPositions]
  | append_singleton ids id ih => rw [lastPositions_concat, List.length_set, ih]

theorem le_lastPositions {k : Nat} {id : NodeId} (found : ids[k]? = some id)
    (known : group id < groupCount) :
    k ≤ (lastPositions groupCount group ids)[group id]?.getD 0 := by
  induction ids using List.reverseRecOn with
  | nil => simp at found
  | append_singleton ids last ih =>
      rw [lastPositions_concat, List.getElem?_set, length_lastPositions]
      have below : k < ids.length + 1 := by simpa using (List.getElem?_eq_some_iff.mp found).1
      by_cases same : group last = group id
      · rw [if_pos same, if_pos (by rw [same]; exact known), Option.getD_some]
        omega
      · rw [if_neg same]
        rw [List.getElem?_append] at found
        split at found
        · exact ih found
        · next above =>
            have here : k - ids.length = 0 := by omega
            rw [here, List.getElem?_cons_zero] at found
            cases found
            exact absurd rfl same

theorem lastPositions_le {g : Nat} :
    (lastPositions groupCount group ids)[g]?.getD 0 ≤ ids.length - 1 := by
  induction ids using List.reverseRecOn with
  | nil =>
      simp only [lastPositions, List.zipIdx_nil, List.foldl_nil, List.getElem?_replicate]
      split <;> simp
  | append_singleton ids last ih =>
      rw [lastPositions_concat, List.getElem?_set, List.length_append, List.length_singleton]
      split
      · split
        · simp
        · simp
      · omega

theorem groupCounts_concat {id : NodeId} : groupCounts groupCount group (ids ++ [id]) =
    (groupCounts groupCount group ids).modify (group id) (· + 1) := by
  simp [groupCounts]

theorem groupCounts_eq {g : Nat} (known : g < groupCount) :
    (groupCounts groupCount group ids)[g]? = some (ids.countP fun id => group id == g) := by
  induction ids using List.reverseRecOn with
  | nil => simp [groupCounts, known]
  | append_singleton ids last ih =>
      rw [groupCounts_concat, List.getElem?_modify, ih, List.countP_append]
      by_cases same : group last = g
      · simp [same]
      · simp [same]

end

/-! ## The cuts -/

open IsAlignment (Uncrossed)

namespace ActiveNodes

variable (nodes : ActiveNodes)

/-- Two nodes of one group. -/
def Joined (x y : NodeId) : Prop := nodes.beforeGroup x = nodes.afterGroup y

/-- The groups are numbered, each group of the nodes after has a node before, and there are
nodes on both sides. -/
structure Grouped : Prop where
  beforeKnown : ∀ x ∈ nodes.before, nodes.beforeGroup x < nodes.groupCount
  afterKnown : ∀ y ∈ nodes.after, nodes.afterGroup y < nodes.groupCount
  hasBefore : ∀ y ∈ nodes.after, ∃ x ∈ nodes.before, nodes.Joined x y
  someAfter : nodes.after ≠ []

end ActiveNodes

/-- What holds after the loop has come to `k` nodes. -/
structure Partition.Reached (nodes : ActiveNodes) (k : Nat) (state : Partition) : Prop where
  width : state.seen.length = nodes.groupCount
  seen : ∀ g < nodes.groupCount, state.seen[g]?.getD false = true ↔
    ∃ x ∈ nodes.before.take k, nodes.beforeGroup x = g
  beforeLast : ∀ g < nodes.groupCount, state.seen[g]?.getD false = true →
    (lastPositions nodes.groupCount nodes.beforeGroup nodes.before)[g]?.getD 0 ≤
      state.beforePrefixLast
  afterLast : ∀ g < nodes.groupCount, state.seen[g]?.getD false = true →
    (lastPositions nodes.groupCount nodes.afterGroup nodes.after)[g]?.getD 0 ≤
      state.afterPrefixLast
  beforeBound : state.beforePrefixLast ≤ nodes.before.length - 1
  afterBound : state.afterPrefixLast ≤ nodes.after.length - 1
  count : state.afterPrefixCount =
    nodes.after.countP fun y => state.seen[nodes.afterGroup y]?.getD false
  started : state.beforeStart ≤ k ∧ state.afterStart ≤ state.afterPrefixCount
  blocksBefore : state.components.flatMap (·.before) = nodes.before.take state.beforeStart
  blocksAfter : state.components.flatMap (·.after) = nodes.after.take state.afterStart
  closed : Uncrossed nodes.Joined (nodes.before.take state.beforeStart)
    (nodes.before.drop state.beforeStart) (nodes.after.take state.afterStart)
    (nodes.after.drop state.afterStart)
  separate : Separate nodes.Joined (state.components.map fun block => (block.before, block.after))

namespace Partition

variable {nodes : ActiveNodes} {k : Nat} {state : Partition}

theorem Reached.start : Reached nodes 0 (.start nodes.groupCount) where
  width := by simp [Partition.start]
  seen := by
    intro g known
    simp [Partition.start, known]
  beforeLast := by
    intro g known seen
    simp [Partition.start, known] at seen
  afterLast := by
    intro g known seen
    simp [Partition.start, known] at seen
  beforeBound := by simp [Partition.start]
  afterBound := by simp [Partition.start]
  count := by
    symm
    rw [Partition.start, List.countP_eq_zero]
    intro y _
    simp only [List.getElem?_replicate]
    split <;> simp
  started := ⟨le_rfl, le_rfl⟩
  blocksBefore := by simp [Partition.start]
  blocksAfter := by simp [Partition.start]
  closed := by simp [Partition.start, Uncrossed]
  separate := by simp [Partition.start, Separate]

theorem countP_or {α : Type} {p q : α → Bool} {ys : List α}
    (apart : ∀ y ∈ ys, q y = true → p y = false) :
    ys.countP (fun y => q y || p y) = ys.countP p + ys.countP q := by
  induction ys with
  | nil => rfl
  | cons y ys ih =>
      have rest := ih fun other member => apart other (List.mem_cons_of_mem _ member)
      rw [List.countP_cons, List.countP_cons, List.countP_cons, rest]
      cases holds : q y with
      | false =>
          simp only [Bool.false_or, Bool.false_eq_true, if_false]
          omega
      | true =>
          simp only [apart y (by simp) holds, Bool.true_or, if_true, Bool.false_eq_true, if_false]
          omega

/-- One more node before. -/
theorem mem_take_succ {x y : NodeId} (found : nodes.before[k]? = some x) :
    y ∈ nodes.before.take (k + 1) ↔ y ∈ nodes.before.take k ∨ y = x := by
  obtain ⟨below, rfl⟩ := List.getElem?_eq_some_iff.mp found
  rw [List.take_succ_eq_append_getElem below, List.mem_append, List.mem_singleton]

/-- The flags after a group has been seen. -/
theorem seen_set {g other : Nat} (width : state.seen.length = nodes.groupCount)
    (known : g < nodes.groupCount) :
    (state.seen.set g true)[other]?.getD false = (other == g || state.seen[other]?.getD false) := by
  rw [List.getElem?_set]
  by_cases same : g = other
  · subst same
    simp [width, known]
  · simp [same, Ne.symm same]

theorem Reached.see {x : NodeId} (reached : Reached nodes k state)
    (grouped : nodes.Grouped) (found : nodes.before[k]? = some x) :
    Reached nodes (k + 1) (state.see nodes (nodes.beforeGroup x)) := by
  have known := grouped.beforeKnown x (List.mem_of_getElem? found)
  rw [Partition.see]
  split
  · next already =>
      refine { reached with seen := ?_, started := ⟨?_, reached.started.2⟩ }
      · intro g below
        rw [reached.seen g below]
        constructor
        · rintro ⟨y, member, rfl⟩
          exact ⟨y, (mem_take_succ found).mpr (.inl member), rfl⟩
        · rintro ⟨y, member, rfl⟩
          rcases (mem_take_succ found).mp member with there | rfl
          · exact ⟨y, there, rfl⟩
          · exact (reached.seen _ known).mp already
      · have := reached.started.1
        omega
  · next fresh =>
      have flags (other : Nat) : (state.seen.set (nodes.beforeGroup x) true)[other]?.getD false =
          (other == nodes.beforeGroup x || state.seen[other]?.getD false) :=
        seen_set reached.width known
      refine { reached with
        width := by rw [List.length_set]; exact reached.width
        seen := ?_, beforeLast := ?_, afterLast := ?_, beforeBound := ?_, afterBound := ?_
        count := ?_, started := ⟨?_, ?_⟩ }
      · intro g below
        dsimp only
        rw [flags, Bool.or_eq_true, beq_iff_eq, reached.seen g below]
        constructor
        · rintro (rfl | ⟨y, member, rfl⟩)
          · exact ⟨x, (mem_take_succ found).mpr (.inr rfl), rfl⟩
          · exact ⟨y, (mem_take_succ found).mpr (.inl member), rfl⟩
        · rintro ⟨y, member, rfl⟩
          rcases (mem_take_succ found).mp member with there | rfl
          · exact .inr ⟨y, there, rfl⟩
          · exact .inl rfl
      · intro g below
        dsimp only
        rw [flags, Bool.or_eq_true, beq_iff_eq]
        rintro (rfl | before)
        · exact le_max_right _ _
        · exact le_max_of_le_left (reached.beforeLast g below before)
      · intro g below
        dsimp only
        rw [flags, Bool.or_eq_true, beq_iff_eq]
        rintro (rfl | before)
        · exact le_max_right _ _
        · exact le_max_of_le_left (reached.afterLast g below before)
      · exact max_le reached.beforeBound lastPositions_le
      · exact max_le reached.afterBound lastPositions_le
      · simp only [flags]
        rw [groupCounts_eq known, Option.getD_some, reached.count, countP_or]
        intro y _ same
        rw [beq_iff_eq] at same
        rw [same]
        simpa using fresh
      · have := reached.started.1
        dsimp only
        omega
      · have := reached.started.2
        dsimp only
        omega

/-- Where the seen groups fill a prefix on both sides, no two nodes of one group are on
different sides of the cut. -/
theorem Reached.closed_cut (reached : Reached nodes (k + 1) state) (grouped : nodes.Grouped)
    (here : k = state.beforePrefixLast)
    (full : state.afterPrefixCount = state.afterPrefixLast + 1) :
    Uncrossed nodes.Joined (nodes.before.take (k + 1)) (nodes.before.drop (k + 1))
      (nodes.after.take state.afterPrefixCount) (nodes.after.drop state.afterPrefixCount) := by
  have beforeSeen : ∀ x ∈ nodes.before.take (k + 1),
      state.seen[nodes.beforeGroup x]?.getD false = true := fun x member =>
    (reached.seen _ (grouped.beforeKnown x (List.mem_of_mem_take member))).mpr ⟨x, member, rfl⟩
  have beforeUnseen : ∀ x ∈ nodes.before.drop (k + 1),
      ¬ state.seen[nodes.beforeGroup x]?.getD false = true := by
    intro x member seen
    obtain ⟨j, found⟩ := List.getElem?_of_mem member
    rw [List.getElem?_drop] at found
    have known := grouped.beforeKnown x (List.mem_of_mem_drop member)
    have last := le_lastPositions found known
    have bound := reached.beforeLast _ known seen
    omega
  have afterUnseen : ∀ y ∈ nodes.after.drop state.afterPrefixCount,
      ¬ state.seen[nodes.afterGroup y]?.getD false = true := by
    intro y member seen
    obtain ⟨j, found⟩ := List.getElem?_of_mem member
    rw [List.getElem?_drop] at found
    have known := grouped.afterKnown y (List.mem_of_mem_drop member)
    have last := le_lastPositions found known
    have bound := reached.afterLast _ known seen
    omega
  -- As many nodes after are of seen groups as the prefix has, and none behind it.
  have afterSeen : ∀ y ∈ nodes.after.take state.afterPrefixCount,
      state.seen[nodes.afterGroup y]?.getD false = true := by
    have split := congrArg (List.countP fun y => state.seen[nodes.afterGroup y]?.getD false)
      (List.take_append_drop state.afterPrefixCount nodes.after)
    rw [List.countP_append, ← reached.count, List.countP_eq_zero.mpr afterUnseen] at split
    have short := List.length_take_le state.afterPrefixCount nodes.after
    have atMost := List.countP_le_length (p := fun y => state.seen[nodes.afterGroup y]?.getD false)
      (l := nodes.after.take state.afterPrefixCount)
    exact List.countP_eq_length.mp (by omega)
  constructor
  · intro x first y second joined
    have seen := beforeSeen x first
    rw [joined] at seen
    exact afterUnseen y second seen
  · intro x first y second joined
    have seen := afterSeen y second
    rw [← joined] at seen
    exact beforeUnseen x first seen

theorem take_append_slice {α : Type} {xs : List α} {s t : Nat} (ordered : s ≤ t) :
    xs.take s ++ (xs.take t).drop s = xs.take t := by
  have whole := List.take_append_drop s (xs.take t)
  rwa [List.take_take, min_eq_left ordered] at whole

theorem slice_subset {α : Type} {xs : List α} {s t : Nat} : (xs.take t).drop s ⊆ xs.drop s := by
  rw [List.drop_take]
  exact List.take_subset _ _

theorem Reached.cut (reached : Reached nodes (k + 1) state) (grouped : nodes.Grouped) :
    Reached nodes (k + 1) (state.cut nodes k) := by
  rw [Partition.cut]
  split
  · next now =>
      obtain ⟨here, full⟩ := now
      refine { reached with
        started := ⟨le_rfl, le_rfl⟩, blocksBefore := ?_, blocksAfter := ?_
        closed := reached.closed_cut grouped here full, separate := ?_ }
      · rw [List.flatMap_append, reached.blocksBefore, List.flatMap_singleton]
        exact take_append_slice reached.started.1
      · rw [List.flatMap_append, reached.blocksAfter, List.flatMap_singleton]
        exact take_append_slice reached.started.2
      · rw [List.map_append, Separate, List.pairwise_append]
        refine ⟨reached.separate, by simp, ?_⟩
        intro block member new isNew
        obtain ⟨component, there, rfl⟩ := List.mem_map.mp member
        rw [List.map_singleton, List.mem_singleton] at isNew
        subst isNew
        have beforeSub : ∀ x ∈ component.before, x ∈ nodes.before.take state.beforeStart := by
          intro x inside
          rw [← reached.blocksBefore]
          exact List.mem_flatMap.mpr ⟨component, there, inside⟩
        have afterSub : ∀ y ∈ component.after, y ∈ nodes.after.take state.afterStart := by
          intro y inside
          rw [← reached.blocksAfter]
          exact List.mem_flatMap.mpr ⟨component, there, inside⟩
        exact ⟨fun x first y second =>
            reached.closed.1 x (beforeSub x first) y (slice_subset second),
          fun x first y second => reached.closed.2 x (slice_subset first) y (afterSub y second)⟩
  · exact reached

/-- The last node always ends a component, and with it both sides. -/
theorem Reached.complete {x : NodeId} (reached : Reached nodes (k + 1) state)
    (grouped : nodes.Grouped) (found : nodes.before[k]? = some x)
    (last : k + 1 = nodes.before.length) :
    (state.cut nodes k).beforeStart = nodes.before.length ∧
      (state.cut nodes k).afterStart = nodes.after.length ∧
      (state.cut nodes k).componentGroups = [] := by
  have known := grouped.beforeKnown x (List.mem_of_getElem? found)
  have seen : ∀ y ∈ nodes.before, state.seen[nodes.beforeGroup y]?.getD false = true := by
    intro y member
    refine (reached.seen _ (grouped.beforeKnown y member)).mpr ⟨y, ?_, rfl⟩
    rw [last, List.take_length]
    exact member
  have here : k = state.beforePrefixLast := by
    have least := le_lastPositions found known
    have bound := reached.beforeLast _ known (seen x (List.mem_of_getElem? found))
    have most := reached.beforeBound
    omega
  have afterSeen : ∀ y ∈ nodes.after, state.seen[nodes.afterGroup y]?.getD false = true := by
    intro y member
    obtain ⟨z, there, joined⟩ := grouped.hasBefore y member
    have flag := seen z there
    rwa [joined] at flag
  have all : state.afterPrefixCount = nodes.after.length := by
    rw [reached.count]
    exact List.countP_eq_length.mpr afterSeen
  have positive : 0 < nodes.after.length := List.length_pos_of_ne_nil grouped.someAfter
  have full : state.afterPrefixCount = state.afterPrefixLast + 1 := by
    have inside : nodes.after.length - 1 < nodes.after.length := by omega
    have there := List.getElem?_eq_getElem inside
    have member := List.getElem_mem inside
    have least := le_lastPositions there (grouped.afterKnown _ member)
    have bound := reached.afterLast _ (grouped.afterKnown _ member) (afterSeen _ member)
    have most := reached.afterBound
    omega
  rw [Partition.cut, if_pos ⟨here, full⟩]
  exact ⟨last, all, rfl⟩

end Partition

/-- The components of a region with its groups. -/
theorem partition_reached {nodes : ActiveNodes} (grouped : nodes.Grouped)
    (nonempty : nodes.before ≠ []) :
    Partition.Reached nodes nodes.before.length (partition nodes) ∧
      (partition nodes).beforeStart = nodes.before.length ∧
      (partition nodes).afterStart = nodes.after.length ∧
      (partition nodes).componentGroups = [] := by
  have run : Partition.Reached nodes nodes.before.length (partition nodes) ∧
      (0 < nodes.before.length → nodes.before.length = nodes.before.length → _) :=
    foldl_positions (fun k state => Partition.Reached nodes k state ∧
      (0 < k → k = nodes.before.length →
        state.beforeStart = nodes.before.length ∧ state.afterStart = nodes.after.length ∧
          state.componentGroups = [])) ⟨.start, fun positive => absurd positive (lt_irrefl 0)⟩ ?_
  · exact ⟨run.1, run.2 (List.length_pos_of_ne_nil nonempty) rfl⟩
  · rintro k x state found ⟨reached, _⟩
    have seen := reached.see grouped found
    exact ⟨seen.cut grouped, fun _ last => seen.complete grouped found last⟩

end Stratadiff
