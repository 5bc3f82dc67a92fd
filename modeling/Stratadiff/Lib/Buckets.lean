import Stratadiff.Lib.OrderedMap

/-!
# Buckets

A map from keys to the elements with that key, in the order in which they came, filled one
element at a time. The buckets are in the order of their keys, and a bucket is what a filter
by its key leaves.
-/

namespace Buckets

variable {κ α : Type} [LinearOrder κ]

def push (key : κ) (x : α) : List (κ × List α) → List (κ × List α)
  | [] => [(key, [x])]
  | entry :: entries =>
      if key < entry.1 then (key, [x]) :: entry :: entries
      else if key = entry.1 then (entry.1, entry.2 ++ [x]) :: entries
      else entry :: push key x entries

/-- The buckets of some elements. -/
def of (key : α → κ) (xs : List α) : List (κ × List α) :=
  xs.foldl (fun buckets x => push (key x) x buckets) []

def get (entries : List (κ × List α)) (key : κ) : Option (List α) := entries.lookup key

/-- The elements with a key. -/
def bucket (key : α → κ) (k : κ) (xs : List α) : List α := xs.filter fun x => key x = k

variable {key k : κ} {x : α} {xs : List α} {entries : List (κ × List α)}

theorem mem_keys_push : k ∈ (push key x entries).map Prod.fst ↔
    k = key ∨ k ∈ entries.map Prod.fst := by
  induction entries with
  | nil => simp [push]
  | cons entry entries ih =>
      rw [push]
      split
      · simp
      · split
        · next same => simp [same]
        · rw [List.map_cons, List.mem_cons, ih, List.map_cons, List.mem_cons]
          exact or_left_comm

theorem push_sorted (sorted : (entries.map Prod.fst).Pairwise (· < ·)) :
    ((push key x entries).map Prod.fst).Pairwise (· < ·) := by
  induction entries with
  | nil => simp [push]
  | cons entry entries ih =>
      have split := sorted
      rw [List.map_cons, List.pairwise_cons] at split
      rw [push]
      split
      · next less =>
          rw [List.map_cons, List.pairwise_cons]
          refine ⟨fun other member => ?_, sorted⟩
          rcases List.mem_cons.mp member with rfl | later
          · exact less
          · exact less.trans (split.1 other later)
      · next notLess =>
          split
          · exact sorted
          · next different =>
              rw [List.map_cons, List.pairwise_cons]
              refine ⟨fun other member => ?_, ih split.2⟩
              rcases mem_keys_push.mp member with rfl | later
              · exact lt_of_le_of_ne (not_lt.mp notLess) (Ne.symm different)
              · exact split.1 other later

variable {other : κ} {ys : List α}

theorem lookup_cons_self : ((k, ys) :: entries).lookup k = some ys := by
  rw [List.lookup_cons, beq_self_eq_true]

theorem lookup_cons_ne (different : k ≠ other) :
    ((other, ys) :: entries).lookup k = entries.lookup k := by
  rw [List.lookup_cons, beq_eq_false_iff_ne.mpr different]

theorem lookup_push (sorted : (entries.map Prod.fst).Pairwise (· < ·)) :
    (push key x entries).lookup k =
      if k = key then some ((entries.lookup key).getD [] ++ [x]) else entries.lookup k := by
  induction entries with
  | nil =>
      split
      · next same =>
          subst same
          exact lookup_cons_self
      · next different => exact lookup_cons_ne different
  | cons entry entries ih =>
      obtain ⟨first, bucket⟩ := entry
      rw [List.map_cons, List.pairwise_cons] at sorted
      rw [push]
      dsimp only at sorted ⊢
      split
      · next less =>
          have absent : ((first, bucket) :: entries).lookup key = none := by
            rw [lookup_cons_ne (ne_of_lt less), List.lookup_eq_none_iff]
            intro entry member
            rw [bne_iff_ne]
            rintro rfl
            exact lt_asymm less (sorted.1 _ (List.mem_map_of_mem member))
          split
          · next same =>
              subst same
              rw [absent]
              exact lookup_cons_self
          · next different => exact lookup_cons_ne different
      · split
        · next same =>
            subst same
            rw [lookup_cons_self, Option.getD_some]
            split
            · next here =>
                subst here
                exact lookup_cons_self
            · next different => rw [lookup_cons_ne different, lookup_cons_ne different]
        · next different =>
            rw [lookup_cons_ne different]
            by_cases here : k = first
            · subst here
              rw [if_neg (Ne.symm different), lookup_cons_self, lookup_cons_self]
            · rw [lookup_cons_ne here, lookup_cons_ne here, ih sorted.2]

variable {key : α → κ}

theorem of_concat : of key (xs ++ [x]) = push (key x) x (of key xs) := by
  rw [of, List.foldl_append]
  rfl

theorem of_sorted : ((of key xs).map Prod.fst).Pairwise (· < ·) := by
  induction xs using List.reverseRecOn with
  | nil => exact .nil
  | append_singleton xs x ih =>
      rw [of_concat]
      exact push_sorted ih

theorem mem_bucket : x ∈ bucket key k xs ↔ x ∈ xs ∧ key x = k := by simp [bucket]

theorem bucket_sublist : (bucket key k xs).Sublist xs := List.filter_sublist

/-- What is in the bucket of a key. -/
theorem get_of : get (of key xs) k =
    if bucket key k xs = [] then none else some (bucket key k xs) := by
  induction xs using List.reverseRecOn with
  | nil => simp [of, get, bucket]
  | append_singleton xs x ih =>
      rw [get] at ih
      rw [get, of_concat, lookup_push of_sorted, bucket, List.filter_append]
      by_cases same : k = key x
      · subst same
        rw [if_pos rfl, lookup_self ih]
        simp [bucket]
      · have other : ¬ key x = k := fun h => same h.symm
        rw [if_neg same, ih]
        simp [other, bucket]
where
  lookup_self {k : κ} {bucket : List α} {entries : List (κ × List α)}
      (h : entries.lookup k = if bucket = [] then none else some bucket) :
      (entries.lookup k).getD [] = bucket := by
    rw [h]
    split
    · next empty => rw [empty, Option.getD_none]
    · rw [Option.getD_some]

theorem mem_of : (k, ys) ∈ of key xs ↔ ys = bucket key k xs ∧ ys ≠ [] := by
  rw [← OrderedMap.lookup_eq_some (of_sorted.imp fun less => ne_of_lt less), ← get, get_of]
  split
  · next empty =>
      constructor
      · intro h
        cases h
      · rintro ⟨rfl, some⟩
        exact absurd empty some
  · next some =>
      rw [Option.some_inj]
      constructor
      · rintro rfl
        exact ⟨rfl, some⟩
      · rintro ⟨rfl, _⟩
        rfl

theorem mem_keys_of : k ∈ (of key xs).map Prod.fst ↔ k ∈ xs.map key := by
  induction xs using List.reverseRecOn with
  | nil => rfl
  | append_singleton xs x ih =>
      rw [of_concat, mem_keys_push, ih, List.map_append, List.mem_append, List.map_singleton,
        List.mem_singleton, or_comm]

theorem keys_of : (of key xs).map Prod.fst = (xs.map key).dedup.insertionSort (· ≤ ·) := by
  have sorted : ((of key xs).map Prod.fst).Pairwise (· < ·) := of_sorted
  have perm : ((of key xs).map Prod.fst).Perm ((xs.map key).dedup.insertionSort (· ≤ ·)) := by
    have nodup : ((of key xs).map Prod.fst).Nodup := sorted.imp fun less => ne_of_lt less
    refine .trans ?_ (List.perm_insertionSort _ _).symm
    rw [List.perm_ext_iff_of_nodup nodup (List.nodup_dedup _)]
    intro k
    rw [mem_keys_of, List.mem_dedup]
  refine perm.eq_of_pairwise (fun _ _ _ _ => le_antisymm) (sorted.imp le_of_lt) ?_
  exact List.pairwise_insertionSort _ _

/-- A bucket for each key that occurs. -/
theorem of_eq_map : of key xs =
    ((xs.map key).dedup.insertionSort (· ≤ ·)).map fun k => (k, bucket key k xs) := by
  have whole : ∀ entry ∈ of key xs, (entry.1, bucket key entry.1 xs) = id entry := by
    rintro ⟨k, ys⟩ member
    rw [← (mem_of.mp member).1, id]
  calc of key xs
      = (of key xs).map id := (List.map_id _).symm
    _ = (of key xs).map fun entry => (entry.1, bucket key entry.1 xs) :=
        (List.map_congr_left whole).symm
    _ = ((of key xs).map Prod.fst).map fun k => (k, bucket key k xs) := by
        rw [List.map_map]
        rfl
    _ = _ := by rw [keys_of]

theorem keys_pairwise : (of key xs).Pairwise fun first second => first.1 ≠ second.1 := by
  have ordered : (of key xs).Pairwise fun first second => first.1 < second.1 :=
    List.pairwise_map.mp of_sorted
  exact ordered.imp fun less => ne_of_lt less

end Buckets
