import Stratadiff.Lib.Newest

/-!
# Walking back along edges

Edges go from a vertex to its successor, and a map gives the predecessor of a vertex. The
walk follows the map from a vertex until there is no predecessor, and fails when it meets
an edge for the second time. It ends always, as the map is finite, and it goes through all
edges exactly when they form one path without a repeated vertex that ends where it begins.

A path is the list of its vertices from the last to the first.
-/

namespace BackWalk

variable {α : Type}

/-- The edges of a path. -/
def edgesOf : List α → List (α × α)
  | vertex :: before :: path => (before, vertex) :: edgesOf (before :: path)
  | _ => []

/-- The edges are those of one path to a vertex that meets no vertex twice. -/
def FormPathTo (last : α) (edges : List (α × α)) : Prop :=
  ∃ path, (last :: path).Nodup ∧ ∀ edge, edge ∈ edges ↔ edge ∈ edgesOf (last :: path)

theorem mem_of_edgesOf {path : List α} {before vertex : α} (h : (before, vertex) ∈ edgesOf path) :
    before ∈ path.tail ∧ vertex ∈ path := by
  induction path with
  | nil => cases h
  | cons first path ih =>
      cases path with
      | nil => cases h
      | cons second path =>
          obtain here | later := List.mem_cons.mp h
          · obtain ⟨rfl, rfl⟩ := Prod.mk.inj here
            exact ⟨List.mem_cons_self, List.mem_cons_self⟩
          · obtain ⟨source, target⟩ := ih later
            exact ⟨List.mem_cons_of_mem _ source, List.mem_cons_of_mem _ target⟩

theorem edgesOf_nodup {path : List α} (nodup : path.Nodup) : (edgesOf path).Nodup := by
  induction path with
  | nil => exact List.nodup_nil
  | cons last path ih =>
      cases path with
      | nil => exact List.nodup_nil
      | cons before path =>
          rw [List.nodup_cons] at nodup
          rw [edgesOf, List.nodup_cons]
          exact ⟨fun again => nodup.1 (mem_of_edgesOf again).2, ih nodup.2⟩

/-- No vertex of a path has two predecessors. -/
theorem predecessor_unique {path : List α} (nodup : path.Nodup) {u u' v : α}
    (h : (u, v) ∈ edgesOf path) (h' : (u', v) ∈ edgesOf path) : u = u' := by
  induction path with
  | nil => cases h
  | cons last path ih =>
      cases path with
      | nil => cases h
      | cons before path =>
          rw [List.nodup_cons] at nodup
          rw [edgesOf, List.mem_cons] at h h'
          obtain here | later := h
          · obtain ⟨rfl, rfl⟩ := Prod.mk.inj here
            obtain here' | later' := h'
            · exact (Prod.mk.inj here').1.symm
            · exact absurd (mem_of_edgesOf later').2 nodup.1
          · obtain here' | later' := h'
            · obtain ⟨rfl, rfl⟩ := Prod.mk.inj here'
              exact absurd (mem_of_edgesOf later).2 nodup.1
            · exact ih nodup.2 later later'

/-- No vertex of a path has two successors. -/
theorem successor_unique {path : List α} (nodup : path.Nodup) {u v v' : α}
    (h : (u, v) ∈ edgesOf path) (h' : (u, v') ∈ edgesOf path) : v = v' := by
  induction path with
  | nil => cases h
  | cons last path ih =>
      cases path with
      | nil => cases h
      | cons before path =>
          rw [List.nodup_cons] at nodup
          have first := (List.nodup_cons.mp nodup.2).1
          rw [edgesOf, List.mem_cons] at h h'
          obtain here | later := h
          · obtain ⟨rfl, rfl⟩ := Prod.mk.inj here
            obtain here' | later' := h'
            · exact (Prod.mk.inj here').2.symm
            · exact absurd (mem_of_edgesOf later').1 first
          · obtain here' | later' := h'
            · obtain ⟨rfl, rfl⟩ := Prod.mk.inj here'
              exact absurd (mem_of_edgesOf later).1 first
            · exact ih nodup.2 later later'

theorem loop_free {path : List α} (nodup : path.Nodup) {v : α} : (v, v) ∉ edgesOf path := by
  induction path with
  | nil => exact List.not_mem_nil
  | cons last path ih =>
      cases path with
      | nil => exact List.not_mem_nil
      | cons before path =>
          rw [List.nodup_cons] at nodup
          rw [edgesOf, List.mem_cons, Prod.mk.injEq, not_or]
          refine ⟨?_, ih nodup.2⟩
          rintro ⟨rfl, rfl⟩
          exact nodup.1 List.mem_cons_self

/-- The first vertex of a path has no predecessor. -/
theorem first_of_path {path : List α} (nodup : path.Nodup) {first : α}
    (h : path.getLast? = some first) {u : α} : (u, first) ∉ edgesOf path := by
  induction path with
  | nil => exact List.not_mem_nil
  | cons last path ih =>
      cases path with
      | nil => exact List.not_mem_nil
      | cons before path =>
          rw [List.nodup_cons] at nodup
          rw [List.getLast?_cons_cons] at h
          rw [edgesOf, List.mem_cons, Prod.mk.injEq, not_or]
          refine ⟨?_, ih nodup.2 h⟩
          rintro ⟨_, rfl⟩
          exact nodup.1 (List.mem_of_getLast? h)

/-! ## The walk -/

variable [DecidableEq α]

theorem unvisited_lt {predecessors visited : List (α × α)} {before cursor : α}
    (found : predecessors.lookup cursor = some before) (new : (before, cursor) ∉ visited) :
    (predecessors.filter fun entry => (entry.2, entry.1) ∉ (before, cursor) :: visited).length <
      (predecessors.filter fun entry => (entry.2, entry.1) ∉ visited).length := by
  have there : (cursor, before) ∈ predecessors := by
    obtain ⟨_, _, rfl, _⟩ := List.lookup_eq_some_iff.mp found
    simp
  have split : (predecessors.filter fun entry => (entry.2, entry.1) ∉ (before, cursor) :: visited) =
      (predecessors.filter fun entry => (entry.2, entry.1) ∉ visited).filter
        fun entry => (entry.2, entry.1) ≠ (before, cursor) := by
    rw [List.filter_filter]
    refine List.filter_congr fun entry _ => ?_
    simp [not_or]
  rw [split, List.length_filter_lt_length_iff_exists]
  exact ⟨(cursor, before), List.mem_filter.mpr ⟨there, by simpa using new⟩, by simp⟩

/-- The edges that are visited, the last one first, or nothing when one is met again. -/
def walkBack (predecessors visited : List (α × α)) (cursor : α) : Option (List (α × α)) :=
  match _found : predecessors.lookup cursor with
  | none => some visited
  | some before =>
      if _new : (before, cursor) ∉ visited then
        walkBack predecessors ((before, cursor) :: visited) before
      else none
termination_by (predecessors.filter fun entry => (entry.2, entry.1) ∉ visited).length
decreasing_by exact unvisited_lt _found _new

variable {predecessors visited : List (α × α)} {cursor last : α}

theorem walkBack_none (h : predecessors.lookup cursor = none) :
    walkBack predecessors visited cursor = some visited := by
  rw [walkBack]
  split
  · rfl
  · next found => rw [h] at found; cases found

theorem walkBack_some {before : α} (h : predecessors.lookup cursor = some before) :
    walkBack predecessors visited cursor =
      if (before, cursor) ∉ visited then
        walkBack predecessors ((before, cursor) :: visited) before
      else none := by
  rw [walkBack]
  split
  · next found => rw [h] at found; cases found
  · next found =>
    obtain rfl := Option.some.inj (h.symm.trans found)
    rfl

/-- What a walk that ends has gone through: a path from where it began, of edges that it had
not met before. -/
theorem walkBack_path {result : List (α × α)}
    (known : ∀ u v, (u, v) ∈ visited → predecessors.lookup v = some u)
    (h : walkBack predecessors visited cursor = some result) :
    ∃ path, result = (edgesOf (cursor :: path)).reverse ++ visited ∧
      (∀ u v, (u, v) ∈ edgesOf (cursor :: path) → predecessors.lookup v = some u) ∧
      (cursor :: path).Nodup ∧ ∀ v ∈ cursor :: path, ∀ u, (u, v) ∉ visited := by
  induction visited, cursor using walkBack.induct predecessors with
  | case1 visited cursor found =>
      rw [walkBack_none found] at h
      obtain rfl := Option.some.inj h
      refine ⟨[], rfl, fun u v member => absurd member List.not_mem_nil, List.nodup_singleton _, ?_⟩
      intro v member u again
      obtain rfl := List.mem_singleton.mp member
      rw [known u v again] at found
      cases found
  | case2 visited cursor before found new ih =>
      rw [walkBack_some found, if_pos new] at h
      have known' :
          ∀ u v, (u, v) ∈ (before, cursor) :: visited → predecessors.lookup v = some u := by
        intro u v member
        obtain here | member := List.mem_cons.mp member
        · obtain ⟨rfl, rfl⟩ := Prod.mk.inj here
          exact found
        · exact known u v member
      obtain ⟨path, rfl, edges, nodup, fresh⟩ := ih known' h
      refine ⟨before :: path, ?_, ?_, ?_, ?_⟩
      · rw [edgesOf, List.reverse_cons, List.append_assoc, List.singleton_append]
      · intro u v member
        rw [edgesOf, List.mem_cons] at member
        obtain here | member := member
        · obtain ⟨rfl, rfl⟩ := Prod.mk.inj here
          exact found
        · exact edges u v member
      · exact List.nodup_cons.mpr
          ⟨fun again => fresh cursor again before List.mem_cons_self, nodup⟩
      · intro v member u again
        obtain rfl | member := List.mem_cons.mp member
        · obtain rfl := Option.some.inj ((known u v again).symm.trans found)
          exact new again
        · exact fresh v member u (List.mem_cons_of_mem _ again)
  | case3 visited cursor before found again =>
      rw [walkBack_some found, if_neg again] at h
      cases h

/-- Along a path the walk goes through all of it. -/
theorem walkBack_along {path : List α} (nodup : (cursor :: path).Nodup)
    (edges : ∀ u v, (u, v) ∈ edgesOf (cursor :: path) → predecessors.lookup v = some u)
    (start : ∀ first, (cursor :: path).getLast? = some first → predecessors.lookup first = none)
    (fresh : ∀ v ∈ cursor :: path, ∀ u, (u, v) ∉ visited) :
    walkBack predecessors visited cursor =
      some ((edgesOf (cursor :: path)).reverse ++ visited) := by
  induction path generalizing cursor visited with
  | nil => exact walkBack_none (start cursor rfl)
  | cons before path ih =>
      have found := edges before cursor List.mem_cons_self
      rw [List.nodup_cons] at nodup
      rw [walkBack_some found, if_pos (fresh cursor List.mem_cons_self before)]
      rw [ih nodup.2 (fun u v member => edges u v (List.mem_cons_of_mem _ member)) ?_ ?_]
      · rw [edgesOf, List.reverse_cons, List.append_assoc, List.singleton_append]
      · intro first final
        exact start first (by rwa [List.getLast?_cons_cons])
      · intro v member u again
        obtain here | again := List.mem_cons.mp again
        · obtain ⟨rfl, rfl⟩ := Prod.mk.inj here
          exact nodup.1 member
        · exact fresh v (List.mem_cons_of_mem _ member) u again

/-- The walk back from a vertex ends and goes through every edge exactly when the edges form a
path to the vertex. -/
theorem walkBack_exact {edges : List (α × α)} (distinct : edges.Nodup)
    (exact : ∀ u v, predecessors.lookup v = some u ↔ (u, v) ∈ edges) :
    (∃ result, walkBack predecessors [] last = some result ∧ result.length = edges.length) ↔
      FormPathTo last edges := by
  constructor
  · rintro ⟨result, walk, all⟩
    obtain ⟨path, rfl, found, nodup, _⟩ := walkBack_path (by simp) walk
    rw [List.append_nil, List.length_reverse] at all
    have within : edgesOf (last :: path) ⊆ edges := fun edge member =>
      (exact edge.1 edge.2).mp (found edge.1 edge.2 member)
    have subperm := (edgesOf_nodup nodup).subperm within
    exact ⟨path, nodup, fun edge => ((subperm.perm_of_length_le all.ge).mem_iff).symm⟩
  · rintro ⟨path, nodup, same⟩
    refine ⟨_, walkBack_along nodup (fun u v member => (exact u v).mpr ((same _).mpr member)) ?_
      (by simp), ?_⟩
    · intro first final
      cases found : predecessors.lookup first with
      | none => rfl
      | some u =>
          exact absurd ((same _).mp ((exact u first).mp found)) (first_of_path nodup final)
    · have perm := (List.perm_ext_iff_of_nodup distinct (edgesOf_nodup nodup)).mpr same
      rw [List.append_nil, List.length_reverse, perm.length_eq]

end BackWalk
