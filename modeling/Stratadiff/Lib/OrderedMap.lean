import Mathlib

/-!
# Maps in the order of their keys

A map is the list of its entries with strictly increasing keys, so that two maps
with the same entries are the same map and a traversal is a traversal of the list.
Entries are only ever added under new keys: `insertNew` fails on a key that is
already there.
-/

structure OrderedMap (κ ν : Type) [LinearOrder κ] where
  entries : List (κ × ν)
  sorted : (entries.map Prod.fst).Pairwise (· < ·)

namespace OrderedMap

/-- Under distinct keys a lookup finds every entry. -/
theorem lookup_eq_some {κ ν : Type} [BEq κ] [LawfulBEq κ] {key : κ} {value : ν}
    {entries : List (κ × ν)} (nodup : (entries.map Prod.fst).Nodup) :
    entries.lookup key = some value ↔ (key, value) ∈ entries := by
  induction entries with
  | nil => simp
  | cons entry entries ih =>
      rw [List.map_cons, List.nodup_cons] at nodup
      rw [List.lookup_cons, List.mem_cons]
      split
      · next same =>
        rw [beq_iff_eq] at same
        constructor
        · intro found
          exact .inl (Prod.ext same (Option.some.inj found).symm)
        · rintro (first | later)
          · rw [← first]
          · exact absurd (List.mem_map_of_mem later) (same ▸ nodup.1)
      · next different =>
        rw [ih nodup.2]
        constructor
        · exact .inr
        · rintro (first | later)
          · rw [← first] at different
            simp at different
          · exact later

variable {κ ν : Type} [LinearOrder κ]

instance [DecidableEq ν] : DecidableEq (OrderedMap κ ν) := fun left right =>
  decidable_of_iff (left.entries = right.entries) (by cases left; cases right; simp)

def empty : OrderedMap κ ν := ⟨[], .nil⟩

def keys (map : OrderedMap κ ν) : List κ := map.entries.map Prod.fst

def get? (map : OrderedMap κ ν) (key : κ) : Option ν := map.entries.lookup key

/-- Put an entry in front of the first entry with a larger key. -/
def place (key : κ) (value : ν) : List (κ × ν) → List (κ × ν)
  | [] => [(key, value)]
  | entry :: entries =>
      if key < entry.1 then (key, value) :: entry :: entries
      else entry :: place key value entries

theorem place_perm (key : κ) (value : ν) (entries : List (κ × ν)) :
    (place key value entries).Perm ((key, value) :: entries) := by
  induction entries with
  | nil => exact .refl _
  | cons entry entries ih =>
      rw [place]
      split
      · exact .refl _
      · exact (ih.cons entry).trans (.swap _ _ _)

theorem place_sorted {key : κ} {value : ν} {entries : List (κ × ν)}
    (sorted : (entries.map Prod.fst).Pairwise (· < ·)) (absent : entries.lookup key = none) :
    ((place key value entries).map Prod.fst).Pairwise (· < ·) := by
  induction entries with
  | nil => simp [place]
  | cons entry entries ih =>
      rw [List.lookup_cons] at absent
      split at absent
      · cases absent
      next different =>
      rw [List.map_cons, List.pairwise_cons] at sorted
      rw [place]
      split
      · next less =>
        rw [List.map_cons, List.map_cons, List.pairwise_cons, List.pairwise_cons]
        refine ⟨?_, sorted⟩
        intro other member
        rcases List.mem_cons.mp member with rfl | later
        · exact less
        · exact less.trans (sorted.1 other later)
      · next notLess =>
        rw [List.map_cons, List.pairwise_cons]
        refine ⟨?_, ih sorted.2 absent⟩
        intro other member
        have placed := ((place_perm key value entries).map Prod.fst).mem_iff.mp member
        rcases List.mem_cons.mp placed with rfl | later
        · refine lt_of_le_of_ne (not_lt.mp notLess) ?_
          rintro rfl
          simp at different
        · exact sorted.1 other later

/-- Add an entry under a new key. -/
def insertNew (map : OrderedMap κ ν) (key : κ) (value : ν) : Option (OrderedMap κ ν) :=
  if absent : map.entries.lookup key = none then
    some ⟨place key value map.entries, place_sorted map.sorted absent⟩
  else none

/-! ## Entries -/

variable {map map' : OrderedMap κ ν} {key : κ} {value : ν}

theorem keys_nodup (map : OrderedMap κ ν) : map.keys.Nodup :=
  map.sorted.imp fun less => ne_of_lt less

theorem get?_eq_some : map.get? key = some value ↔ (key, value) ∈ map.entries :=
  lookup_eq_some map.keys_nodup

theorem mem_keys : key ∈ map.keys ↔ ∃ value, map.get? key = some value := by
  rw [keys, List.mem_map]
  constructor
  · rintro ⟨⟨key', value⟩, member, rfl⟩
    exact ⟨value, get?_eq_some.mpr member⟩
  · rintro ⟨value, found⟩
    exact ⟨(key, value), get?_eq_some.mp found, rfl⟩

theorem get?_eq_none : map.get? key = none ↔ key ∉ map.keys := by
  rw [mem_keys, not_exists, Option.eq_none_iff_forall_ne_some]

/-- Maps with the same entries are the same map. -/
theorem ext_perm (h : map.entries.Perm map'.entries) : map = map' := by
  have same : map.entries = map'.entries := by
    refine h.eq_of_pairwise ?_ (List.pairwise_map.mp map.sorted) (List.pairwise_map.mp map'.sorted)
    intro left right _ _ less greater
    exact absurd (less.trans greater) (lt_irrefl _)
  cases map
  cases map'
  cases same
  rfl

theorem insertNew_eq_some :
    map.insertNew key value = some map' ↔
      key ∉ map.keys ∧ map'.entries.Perm ((key, value) :: map.entries) := by
  rw [insertNew, ← get?_eq_none]
  constructor
  · intro h
    split at h
    · next absent =>
      cases h
      exact ⟨absent, place_perm _ _ _⟩
    · cases h
  · rintro ⟨absent, entries⟩
    rw [dif_pos (show map.entries.lookup key = none from absent), Option.some.injEq]
    exact ext_perm ((place_perm _ _ _).trans entries.symm)

end OrderedMap
