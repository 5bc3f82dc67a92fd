import Stratadiff.Lib.Preorder

/-!
# Descents into two trees

A function that calls itself for pairs of children is iterated to a depth. When the first tree
is in preorder its number of nodes is depth enough: the iteration is then the recursion itself,
and what it gives at the bottom is never used.
-/

/-- Iterate one step of a recursion on two nodes to a depth. -/
def descend {α : Type} (bottom : α) (step : (Nat → Nat → α) → Nat → Nat → α) :
    Nat → Nat → Nat → α
  | 0, _, _ => bottom
  | depth + 1, l, r => step (descend bottom step depth) l r

/-- A step that continues with pairs of children only. -/
def Descends {α : Type} (leftChildren rightChildren : Nat → List Nat)
    (step : (Nat → Nat → α) → Nat → Nat → α) : Prop :=
  ∀ next next' l r,
    (∀ pair ∈ (leftChildren l).zip (rightChildren r), next pair.1 pair.2 = next' pair.1 pair.2) →
      step next l r = step next' l r

section

variable {α : Type} {tree : PreorderTree} {rightChildren : Nat → List Nat}
variable {bottom : α} {step : (Nat → Nat → α) → Nat → Nat → α} {l r depth depth' : Nat}

theorem descend_congr (descends : Descends tree.children rightChildren step)
    (below : l < tree.count) (deep : tree.count - l ≤ depth) (deep' : tree.count - l ≤ depth') :
    descend bottom step depth l r = descend bottom step depth' l r := by
  induction depth generalizing l r depth' with
  | zero => omega
  | succ depth ih =>
      cases depth' with
      | zero => omega
      | succ depth' =>
          rw [descend, descend]
          apply descends
          intro pair member
          have child := (List.of_mem_zip member).1
          have later := (PreorderTree.child_bounds below child).1
          exact ih (PreorderTree.child_lt below child) (by omega) (by omega)

/-- An iteration that is deep enough satisfies the equation of the recursion. -/
theorem descend_eq (descends : Descends tree.children rightChildren step)
    (below : l < tree.count) (deep : tree.count - l ≤ depth) :
    descend bottom step depth l r = step (descend bottom step depth) l r := by
  have deeper : tree.count - l ≤ depth + 1 := by omega
  calc descend bottom step depth l r
      = descend bottom step (depth + 1) l r := descend_congr descends below deep deeper
    _ = step (descend bottom step depth) l r := rfl

end
