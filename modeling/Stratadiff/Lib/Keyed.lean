import Mathlib

/-!
# Lists of records with a key

A list whose keys are all different is determined, once it is sorted by key, by its
members; and a lookup by key finds the one member with it. `Fresh` is what a loop checks
that keeps the set of the keys it has seen.
-/

namespace Keyed

variable {α κ : Type}

/-- The list in the order of its keys. -/
abbrev sorted [LinearOrder κ] (key : α → κ) (xs : List α) : List α :=
  xs.insertionSort fun x y => key x ≤ key y

variable {key : α → κ} {xs ys : List α} {x y : α}

theorem eq_of_key (nodup : (xs.map key).Nodup) (hx : x ∈ xs) (hy : y ∈ xs) (same : key x = key y) :
    x = y := List.inj_on_of_nodup_map nodup hx hy same

theorem sorted_pairwise [LinearOrder κ] (xs : List α) :
    (sorted key xs).Pairwise fun x y => key x ≤ key y := by
  have trans : IsTrans α fun x y => key x ≤ key y := ⟨fun _ _ _ => le_trans⟩
  have total : Std.Total fun x y : α => key x ≤ key y := ⟨fun x y => le_total (key x) (key y)⟩
  exact List.pairwise_insertionSort _ xs

/-- Sorting by a key that tells the members apart forgets the order. -/
theorem sorted_eq_of_perm [LinearOrder κ] (nodup : (xs.map key).Nodup) (perm : xs.Perm ys) :
    sorted key xs = sorted key ys := by
  have both : (sorted key xs).Perm (sorted key ys) :=
    (List.perm_insertionSort _ xs).trans (perm.trans (List.perm_insertionSort _ ys).symm)
  refine both.eq_of_pairwise ?_ (sorted_pairwise xs) (sorted_pairwise ys)
  intro x y hx hy below above
  have hx : x ∈ xs := (List.perm_insertionSort _ xs).mem_iff.mp hx
  have hy : y ∈ xs := perm.mem_iff.mpr ((List.perm_insertionSort _ ys).mem_iff.mp hy)
  exact eq_of_key nodup hx hy (le_antisymm below above)

section

variable [LinearOrder κ]

@[simp] theorem mem_sorted : x ∈ sorted key xs ↔ x ∈ xs := (List.perm_insertionSort _ xs).mem_iff

@[simp] theorem length_sorted : (sorted key xs).length = xs.length :=
  (List.perm_insertionSort _ xs).length_eq

theorem nodup_map_sorted {β : Type} {f : α → β} :
    ((sorted key xs).map f).Nodup ↔ (xs.map f).Nodup :=
  ((List.perm_insertionSort _ xs).map f).nodup_iff

theorem sorted_map_pairwise (nodup : (xs.map key).Nodup) :
    ((sorted key xs).map key).Pairwise (· < ·) := by
  have below : ((sorted key xs).map key).Pairwise (· ≤ ·) :=
    List.pairwise_map.mpr (sorted_pairwise xs)
  have different : ((sorted key xs).map key).Pairwise (· ≠ ·) := nodup_map_sorted.mpr nodup
  exact (below.and different).imp fun both => lt_of_le_of_ne both.1 both.2

/-- Sorting again after a member is added. -/
theorem sorted_append_sorted (nodup : ((xs ++ ys).map key).Nodup) :
    sorted key (sorted key xs ++ ys) = sorted key (xs ++ ys) := by
  have perm : (xs ++ ys).Perm (sorted key xs ++ ys) :=
    (List.perm_insertionSort _ xs).symm.append_right ys
  exact (sorted_eq_of_perm nodup perm).symm

end

/-- What is taken from members under their own keys has keys in the same order. -/
theorem filterMap_sublist {β : Type} {f : α → Option β} {g : β → κ}
    (same : ∀ x ∈ xs, ∀ y, f x = some y → g y = key x) :
    ((xs.filterMap f).map g).Sublist (xs.map key) := by
  induction xs with
  | nil => exact .slnil
  | cons x xs ih =>
      have rest := ih fun other member => same other (List.mem_cons_of_mem x member)
      cases found : f x with
      | none =>
          rw [List.filterMap_cons_none found]
          exact rest.cons (key x)
      | some y =>
          rw [List.filterMap_cons_some found, List.map_cons, same x List.mem_cons_self y found]
          exact rest.cons_cons (key x)

theorem find?_eq_some [DecidableEq κ] (nodup : (xs.map key).Nodup) (member : x ∈ xs) {k : κ}
    (same : key x = k) : xs.find? (fun y => key y = k) = some x := by
  cases found : xs.find? (fun y => decide (key y = k)) with
  | none =>
      have := List.find?_eq_none.mp found x member
      simp [same] at this
  | some y =>
      have hy := List.mem_of_find?_eq_some found
      have key_y : key y = k := by simpa using List.find?_some found
      rw [eq_of_key nodup hy member (key_y.trans same.symm)]

/-- The keys are all different, and different from the ones seen before. -/
def Fresh (key : α → κ) (seen : List κ) (xs : List α) : Prop :=
  (xs.map key).Nodup ∧ ∀ x ∈ xs, key x ∉ seen

variable {seen : List κ}

theorem fresh_nil : Fresh key seen [] :=
  ⟨List.nodup_nil, fun _ member => absurd member List.not_mem_nil⟩

theorem fresh_cons :
    Fresh key seen (x :: xs) ↔ key x ∉ seen ∧ Fresh key (key x :: seen) xs := by
  rw [Fresh, Fresh, List.forall_mem_cons]
  simp only [List.map_cons, List.nodup_cons, List.mem_cons, not_or, List.mem_map, not_exists,
    not_and]
  constructor
  · rintro ⟨⟨different, nodup⟩, here, rest⟩
    exact ⟨here, nodup, fun y member => ⟨different y member, rest y member⟩⟩
  · rintro ⟨here, nodup, rest⟩
    exact ⟨⟨fun y member => (rest y member).1, nodup⟩, here, fun y member => (rest y member).2⟩

theorem fresh_nil_iff : Fresh key [] xs ↔ (xs.map key).Nodup := by simp [Fresh]

end Keyed
