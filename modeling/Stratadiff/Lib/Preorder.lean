import Mathlib

/-!
# Trees in preorder

A tree is stored as a table of its nodes in preorder: the subtree of a node is an interval
of numbers that starts with the node, and the subtrees of its children fill the rest of the
interval one after another. Two nodes are paired when a test holds of them, they have
equally many children, and their children are paired in order; the nodes of paired subtrees
are then paired position by position.
-/

/-- Numbers whose intervals fill an interval one after another. -/
def Tiles (size : Nat → Nat) : List Nat → Nat → Nat → Prop
  | [], start, stop => start = stop
  | c :: cs, start, stop => c = start ∧ Tiles size cs (start + size c) stop

instance Tiles.decidable (size : Nat → Nat) :
    (cs : List Nat) → (start stop : Nat) → Decidable (Tiles size cs start stop)
  | [], start, stop => inferInstanceAs (Decidable (start = stop))
  | c :: cs, start, stop =>
      have := decidable size cs (start + size c) stop
      inferInstanceAs (Decidable (c = start ∧ Tiles size cs (start + size c) stop))

namespace Tiles

variable {size : Nat → Nat} {cs : List Nat} {start stop : Nat}

theorem le (h : Tiles size cs start stop) : start ≤ stop := by
  induction cs generalizing start with
  | nil => exact le_of_eq h
  | cons c cs ih =>
      have rest := ih h.2
      omega

theorem mem {c : Nat} (h : Tiles size cs start stop) (member : c ∈ cs) :
    start ≤ c ∧ c + size c ≤ stop := by
  induction cs generalizing start with
  | nil => cases member
  | cons d cs ih =>
      obtain ⟨rfl, rest⟩ := h
      rcases List.mem_cons.mp member with rfl | there
      · exact ⟨le_rfl, rest.le⟩
      · have bounds := ih rest there
        omega

theorem exists_of_mem {k : Nat} (h : Tiles size cs start stop) (from_start : start ≤ k)
    (below : k < stop) : ∃ c ∈ cs, c ≤ k ∧ k < c + size c := by
  induction cs generalizing start with
  | nil =>
      have same : start = stop := h
      omega
  | cons c cs ih =>
      obtain ⟨rfl, rest⟩ := h
      by_cases here : k < c + size c
      · exact ⟨c, by simp, from_start, here⟩
      · obtain ⟨d, member, bounds⟩ := ih rest (by omega)
        exact ⟨d, List.mem_cons_of_mem _ member, bounds⟩

theorem append {ds : List Nat} {middle : Nat} (h : Tiles size cs start middle)
    (h' : Tiles size ds middle stop) : Tiles size (cs ++ ds) start stop := by
  induction cs generalizing start with
  | nil =>
      have same : start = middle := h
      rw [same]
      exact h'
  | cons c cs ih => exact ⟨h.1, ih h.2⟩

theorem congr {size' : Nat → Nat} (h : Tiles size cs start stop)
    (same : ∀ c ∈ cs, size' c = size c) : Tiles size' cs start stop := by
  induction cs generalizing start with
  | nil => exact h
  | cons c cs ih =>
      refine ⟨h.1, ?_⟩
      rw [same c (by simp)]
      exact ih h.2 fun d member => same d (List.mem_cons_of_mem _ member)

theorem length_eq (h : Tiles size cs start stop) : start + (cs.map size).sum = stop := by
  induction cs generalizing start with
  | nil => exact h
  | cons c cs ih =>
      have rest := ih h.2
      rw [List.map_cons, List.sum_cons]
      omega

end Tiles

/-- A table of nodes in preorder, as the children and the subtree sizes of its entries. -/
structure PreorderTree where
  count : Nat
  children : Nat → List Nat
  size : Nat → Nat
  nonempty : 0 < count
  tiles : ∀ i < count, Tiles size (children i) (i + 1) (i + size i)
  inside : ∀ i < count, ∀ c ∈ children i, c < count
  within : ∀ i < count, i + size i ≤ count
  whole : size 0 = count

namespace PreorderTree

variable (tree : PreorderTree)

/-- `j` is `i` or below it. -/
def InSubtree (i j : Nat) : Prop := i ≤ j ∧ j < i + tree.size i

instance (i j : Nat) : Decidable (tree.InSubtree i j) := inferInstanceAs (Decidable (_ ∧ _))

variable {tree} {i j k p q : Nat}

theorem size_pos (below : i < tree.count) : 0 < tree.size i := by
  have order := (tree.tiles i below).le
  omega

theorem InSubtree.refl (below : i < tree.count) : tree.InSubtree i i :=
  ⟨le_rfl, by have := size_pos below; omega⟩

theorem child_bounds (below : i < tree.count) (child : j ∈ tree.children i) :
    i < j ∧ j + tree.size j ≤ i + tree.size i := by
  have bounds := (tree.tiles i below).mem child
  omega

theorem child_lt (below : i < tree.count) (child : j ∈ tree.children i) : j < tree.count :=
  tree.inside i below j child

theorem child_inSubtree (below : i < tree.count) (child : j ∈ tree.children i) :
    tree.InSubtree i j := by
  have bounds := child_bounds below child
  have positive := size_pos (child_lt below child)
  exact ⟨by omega, by omega⟩

/-- A node below another is in the subtree of one of its children. -/
theorem InSubtree.child (below : i < tree.count) (h : tree.InSubtree i j) (different : i ≠ j) :
    ∃ c ∈ tree.children i, tree.InSubtree c j := by
  have first := h.1
  exact (tree.tiles i below).exists_of_mem (by omega) h.2

variable (tree) in
/-- The rule for trees: what holds of a node when it holds of its children. -/
theorem induction {motive : Nat → Prop}
    (step : ∀ i < tree.count, (∀ c ∈ tree.children i, motive c) → motive i) :
    ∀ i < tree.count, motive i := by
  have all : ∀ n i, i < tree.count → tree.count - i ≤ n → motive i := by
    intro n
    induction n with
    | zero => intro i below most; omega
    | succ n ih =>
        intro i below most
        refine step i below fun c child => ih c (child_lt below child) ?_
        have := (child_bounds below child).1
        omega
  exact fun i below => all _ i below le_rfl

theorem InSubtree.trans (below : i < tree.count) (h : tree.InSubtree i j)
    (h' : tree.InSubtree j k) :
    tree.InSubtree i k := by
  have nested : ∀ i < tree.count, ∀ j, tree.InSubtree i j →
      j + tree.size j ≤ i + tree.size i := by
    refine induction tree fun i below ih j h => ?_
    by_cases same : i = j
    · rw [same]
    · obtain ⟨c, child, there⟩ := h.child below same
      have inner := ih c child j there
      have outer := child_bounds below child
      omega
  have bound := nested i below j h
  exact ⟨h.1.trans h'.1, lt_of_lt_of_le h'.2 bound⟩

/-- A subtree is what can be reached from its node by children. -/
theorem inSubtree_iff_reach (below : i < tree.count) :
    tree.InSubtree i j ↔ Relation.ReflTransGen (fun p c => c ∈ tree.children p) i j := by
  constructor
  · have down : ∀ i < tree.count, tree.InSubtree i j →
        Relation.ReflTransGen (fun p c => c ∈ tree.children p) i j := by
      refine induction tree fun i below ih h => ?_
      by_cases same : i = j
      · rw [same]
      · obtain ⟨c, child, there⟩ := h.child below same
        exact .head child (ih c child there)
    exact down i below
  · intro reach
    have known : j < tree.count ∧ tree.InSubtree i j := by
      induction reach with
      | refl => exact ⟨below, .refl below⟩
      | tail _ child ih =>
          exact ⟨child_lt ih.1 child, ih.2.trans below (child_inSubtree ih.1 child)⟩
    exact known.2

/-- The size of a node is the number of nodes that can be reached from it. -/
theorem size_eq_ncard (below : i < tree.count) : tree.size i =
    { j | Relation.ReflTransGen (fun p c => c ∈ tree.children p) i j }.ncard := by
  have interval : { j | Relation.ReflTransGen (fun p c => c ∈ tree.children p) i j } =
      ↑(Finset.Ico i (i + tree.size i)) := by
    ext j
    rw [Finset.coe_Ico, Set.mem_Ico]
    exact (inSubtree_iff_reach below).symm
  rw [interval, Set.ncard_coe_finset, Nat.card_Ico, Nat.add_sub_cancel_left]

theorem inSubtree_zero (below : i < tree.count) : tree.InSubtree 0 i :=
  ⟨Nat.zero_le i, by rw [Nat.zero_add, tree.whole]; exact below⟩

end PreorderTree

/-! ## Pairs of subtrees -/

/-- The nodes are tested, have equally many children, and their children are paired; `link`
is tested of the children alone. -/
inductive Paired (leftChildren rightChildren : Nat → List Nat) (here link : Nat → Nat → Prop) :
    Nat → Nat → Prop
  | node {l r : Nat} (tested : here l r)
      (length : (leftChildren l).length = (rightChildren r).length)
      (links : ∀ pair ∈ (leftChildren l).zip (rightChildren r), link pair.1 pair.2)
      (children : ∀ pair ∈ (leftChildren l).zip (rightChildren r),
        Paired leftChildren rightChildren here link pair.1 pair.2) :
      Paired leftChildren rightChildren here link l r

/-- The recursion that tests for a pair, to a depth. -/
def pairedTo (leftChildren rightChildren : Nat → List Nat) (here link : Nat → Nat → Bool) :
    Nat → Nat → Nat → Bool
  | 0, _, _ => false
  | depth + 1, l, r => here l r && (leftChildren l).length == (rightChildren r).length &&
      ((leftChildren l).zip (rightChildren r)).all fun pair =>
        link pair.1 pair.2 && pairedTo leftChildren rightChildren here link depth pair.1 pair.2

namespace Paired

section

variable {leftChildren rightChildren thirdChildren : Nat → List Nat}
variable {here here' link link' : Nat → Nat → Prop} {l r : Nat}

theorem tested (h : Paired leftChildren rightChildren here link l r) : here l r := by
  cases h
  assumption

theorem length (h : Paired leftChildren rightChildren here link l r) :
    (leftChildren l).length = (rightChildren r).length := by
  cases h
  assumption

theorem child (h : Paired leftChildren rightChildren here link l r) {pair : Nat × Nat}
    (member : pair ∈ (leftChildren l).zip (rightChildren r)) :
    link pair.1 pair.2 ∧ Paired leftChildren rightChildren here link pair.1 pair.2 := by
  cases h with
  | node _ _ links children => exact ⟨links pair member, children pair member⟩

theorem mono (h : Paired leftChildren rightChildren here link l r)
    (imp : ∀ l r, (leftChildren l).length = (rightChildren r).length → here l r → here' l r)
    (imp' : ∀ l r, link l r → link' l r) :
    Paired leftChildren rightChildren here' link' l r := by
  induction h with
  | node tested length links _ ih =>
      exact .node (imp _ _ length tested) length (fun pair member => imp' _ _ (links pair member))
        ih

theorem symm (h : Paired leftChildren rightChildren here link l r) :
    Paired rightChildren leftChildren (fun r l => here l r) (fun r l => link l r) r l := by
  induction h with
  | @node l r tested length links _ ih =>
      have swapped : ∀ pair ∈ (rightChildren r).zip (leftChildren l), pair.swap ∈
          (leftChildren l).zip (rightChildren r) := by
        intro pair member
        rw [← List.zip_swap]
        exact List.mem_map.mpr ⟨pair, member, rfl⟩
      exact .node tested length.symm (fun pair member => links pair.swap (swapped pair member))
        fun pair member => ih pair.swap (swapped pair member)

/-- Pairs of a first and a second tree and of the second and a third compose. -/
theorem trans {here'' link'' : Nat → Nat → Prop} {m : Nat}
    (h : Paired leftChildren thirdChildren here link l m)
    (h' : Paired thirdChildren rightChildren here' link' m r)
    (comp : ∀ l m r, (leftChildren l).length = (thirdChildren m).length → here l m → here' m r →
      here'' l r)
    (comp' : ∀ l m r, link l m → link' m r → link'' l r) :
    Paired leftChildren rightChildren here'' link'' l r := by
  induction h generalizing r with
  | @node l m tested length links _ ih =>
      have through : ∀ pair ∈ (leftChildren l).zip (rightChildren r),
          ∃ n, (pair.1, n) ∈ (leftChildren l).zip (thirdChildren m) ∧
            (n, pair.2) ∈ (thirdChildren m).zip (rightChildren r) := by
        intro pair member
        obtain ⟨k, found⟩ := List.getElem?_of_mem member
        obtain ⟨first, second⟩ := List.getElem?_zip_eq_some.mp found
        have inside := (List.getElem?_eq_some_iff.mp first).1
        have middle : (thirdChildren m)[k]? = some (thirdChildren m)[k] :=
          List.getElem?_eq_getElem (length ▸ inside)
        refine ⟨(thirdChildren m)[k],
          List.mem_of_getElem? (List.getElem?_zip_eq_some.mpr ⟨first, middle⟩),
          List.mem_of_getElem? (List.getElem?_zip_eq_some.mpr ⟨middle, second⟩)⟩
      refine .node (comp _ _ _ length tested h'.tested) (length.trans h'.length) ?_ ?_
      · intro pair member
        obtain ⟨n, first, second⟩ := through pair member
        exact comp' _ n _ (links (pair.1, n) first) (h'.child second).1
      · intro pair member
        obtain ⟨n, first, second⟩ := through pair member
        exact ih (pair.1, n) first (h'.child second).2

end

section

variable {left right : PreorderTree} {here link : Nat → Nat → Prop} {l r : Nat}

variable (left) in
theorem refl (reflexive : ∀ i < left.count, here i i) (reflexive' : ∀ i < left.count, link i i) :
    ∀ i < left.count, Paired left.children left.children here link i i := by
  refine PreorderTree.induction left fun i below ih => ?_
  have same : ∀ pair ∈ (left.children i).zip (left.children i),
      pair.2 = pair.1 ∧ pair.1 ∈ left.children i := by
    intro pair member
    obtain ⟨k, found⟩ := List.getElem?_of_mem member
    obtain ⟨first, second⟩ := List.getElem?_zip_eq_some.mp found
    exact ⟨(Option.some.inj (first.symm.trans second)).symm, List.mem_of_getElem? first⟩
  refine .node (reflexive i below) rfl ?_ ?_
  · intro pair member
    obtain ⟨equal, child⟩ := same pair member
    rw [equal]
    exact reflexive' _ (PreorderTree.child_lt below child)
  · intro pair member
    obtain ⟨equal, child⟩ := same pair member
    rw [equal]
    exact ih _ child

variable (left) in
/-- To the depth of the tree the recursion decides whether two nodes are paired. -/
theorem iff_pairedTo {here link : Nat → Nat → Bool} {depth : Nat} {rightChildren : Nat → List Nat}
    (below : l < left.count) (deep : left.count - l ≤ depth) :
    pairedTo left.children rightChildren here link depth l r = true ↔
      Paired left.children rightChildren (fun l r => here l r = true)
        (fun l r => link l r = true) l r := by
  induction depth generalizing l r with
  | zero => omega
  | succ depth ih =>
      have shallower : ∀ pair ∈ (left.children l).zip (rightChildren r),
          pair.1 < left.count ∧ left.count - pair.1 ≤ depth := by
        intro pair member
        have child := (List.of_mem_zip member).1
        have := (PreorderTree.child_bounds below child).1
        exact ⟨PreorderTree.child_lt below child, by omega⟩
      rw [pairedTo, Bool.and_eq_true, Bool.and_eq_true, beq_iff_eq, List.all_eq_true]
      simp only [Bool.and_eq_true]
      constructor
      · rintro ⟨⟨tested, length⟩, all⟩
        refine .node tested length (fun pair member => (all pair member).1) fun pair member => ?_
        obtain ⟨inside, enough⟩ := shallower pair member
        exact (ih inside enough).mp (all pair member).2
      · intro h
        refine ⟨⟨h.tested, h.length⟩, fun pair member => ?_⟩
        obtain ⟨inside, enough⟩ := shallower pair member
        exact ⟨(h.child member).1, (ih inside enough).mpr (h.child member).2⟩

end

end Paired
