import Mathlib

/-!
# Order-preserving alignments of two lists

An alignment pairs elements of two lists with one another, in the order of both lists. The
longest alignments of two lists follow from those of shorter lists, and where no pair
crosses a cut through both lists they are put together from the two sides of it.
-/

variable {α β : Type}

/-- Related pairs whose sides are in order in `xs` and in `ys`. -/
structure IsAlignment (R : α → β → Prop) (xs : List α) (ys : List β) (pairs : List (α × β)) :
    Prop where
  left : (pairs.map Prod.fst).Sublist xs
  right : (pairs.map Prod.snd).Sublist ys
  related : ∀ pair ∈ pairs, R pair.1 pair.2

namespace IsAlignment

variable {R : α → β → Prop} {xs xs' : List α} {ys ys' : List β} {pairs pairs' : List (α × β)}

theorem nil : IsAlignment R xs ys [] := ⟨List.nil_sublist _, List.nil_sublist _, by simp⟩

theorem length_le (h : IsAlignment R xs ys pairs) : pairs.length ≤ xs.length := by
  simpa using h.left.length_le

theorem mono (h : IsAlignment R xs ys pairs) (left : xs.Sublist xs') (right : ys.Sublist ys') :
    IsAlignment R xs' ys' pairs :=
  ⟨h.left.trans left, h.right.trans right, h.related⟩

theorem append (h : IsAlignment R xs ys pairs) (h' : IsAlignment R xs' ys' pairs') :
    IsAlignment R (xs ++ xs') (ys ++ ys') (pairs ++ pairs') where
  left := by
    rw [List.map_append]
    exact h.left.append h'.left
  right := by
    rw [List.map_append]
    exact h.right.append h'.right
  related := by
    intro pair member
    rcases List.mem_append.mp member with first | second
    · exact h.related pair first
    · exact h'.related pair second

theorem cons {x : α} {y : β} (related : R x y) (h : IsAlignment R xs ys pairs) :
    IsAlignment R (x :: xs) (y :: ys) ((x, y) :: pairs) := by
  have single : IsAlignment R [x] [y] [(x, y)] :=
    ⟨List.Sublist.refl _, List.Sublist.refl _, by simpa using related⟩
  exact single.append h

theorem reverse (h : IsAlignment R xs ys pairs) :
    IsAlignment R xs.reverse ys.reverse pairs.reverse where
  left := by
    rw [List.map_reverse]
    exact h.left.reverse
  right := by
    rw [List.map_reverse]
    exact h.right.reverse
  related := by simpa using h.related

/-- Every element of a list is paired with itself. -/
theorem same (xs : List α) : IsAlignment (· = ·) xs xs (xs.map fun x => (x, x)) where
  left := by simp [Function.comp_def]
  right := by simp [Function.comp_def]
  related := by simp

/-- The first elements are not both used, or they are paired with each other. -/
theorem cons_cases {x : α} {y : β} (h : IsAlignment R (x :: xs) (y :: ys) pairs) :
    IsAlignment R xs (y :: ys) pairs ∨ IsAlignment R (x :: xs) ys pairs ∨
      R x y ∧ ∃ rest, pairs = (x, y) :: rest ∧ IsAlignment R xs ys rest := by
  obtain ⟨left, right, related⟩ := h
  rcases List.sublist_cons_iff.mp left with left | ⟨firsts, here, left⟩
  · exact .inl ⟨left, right, related⟩
  rcases List.sublist_cons_iff.mp right with right | ⟨seconds, there, right⟩
  · exact .inr (.inl ⟨by rw [here]; exact left.cons_cons x, right, related⟩)
  obtain ⟨pair, rest, rfl, rfl, rfl⟩ := List.map_eq_cons_iff.mp here
  obtain ⟨rfl, rfl⟩ := List.cons.inj there
  refine .inr (.inr ⟨related pair (by simp), rest, rfl, left, right, ?_⟩)
  intro other member
  exact related other (List.mem_cons_of_mem _ member)

/-- A list without repetitions is cut at one element in one way. -/
theorem sublist_around {x : α} {before after : List α} (nodup : (xs ++ x :: xs').Nodup)
    (h : (before ++ x :: after).Sublist (xs ++ x :: xs')) :
    before.Sublist xs ∧ after.Sublist xs' := by
  induction xs generalizing before with
  | nil =>
      have absent : x ∉ xs' := (List.nodup_cons.mp nodup).1
      cases before with
      | nil => exact ⟨List.Sublist.refl _, List.cons_sublist_cons.mp h⟩
      | cons first before =>
          rcases List.sublist_cons_iff.mp h with inside | ⟨rest, same, inside⟩
          · exact absurd (inside.subset (by simp)) absent
          · obtain ⟨_, rfl⟩ := List.cons.inj same
            exact absurd (inside.subset (by simp)) absent
  | cons c xs ih =>
      have nodup' := (List.nodup_cons.mp nodup).2
      rcases List.sublist_cons_iff.mp h with inside | ⟨rest, same, inside⟩
      · obtain ⟨left, right⟩ := ih nodup' inside
        exact ⟨left.cons c, right⟩
      · cases before with
        | nil =>
            obtain ⟨rfl, _⟩ := List.cons.inj same
            exact absurd (by simp) (List.nodup_cons.mp nodup).1
        | cons first before =>
            obtain ⟨rfl, rfl⟩ := List.cons.inj same
            obtain ⟨left, right⟩ := ih nodup' inside
            exact ⟨left.cons_cons _, right⟩

/-- An alignment with a given pair is one before the pair and one after it. -/
theorem around {x : α} {y : β} (h : IsAlignment R (xs ++ x :: xs') (ys ++ y :: ys') pairs)
    (left : (xs ++ x :: xs').Nodup) (right : (ys ++ y :: ys').Nodup) (member : (x, y) ∈ pairs) :
    ∃ before after, pairs = before ++ (x, y) :: after ∧ IsAlignment R xs ys before ∧
      IsAlignment R xs' ys' after := by
  obtain ⟨before, after, rfl⟩ := List.append_of_mem member
  have firsts := h.left
  have seconds := h.right
  simp only [List.map_append, List.map_cons] at firsts seconds
  obtain ⟨firstLeft, firstRight⟩ := sublist_around left firsts
  obtain ⟨secondLeft, secondRight⟩ := sublist_around right seconds
  refine ⟨before, after, rfl, ⟨firstLeft, secondLeft, ?_⟩, firstRight, secondRight, ?_⟩
  · intro pair inside
    exact h.related pair (List.mem_append_left _ inside)
  · intro pair inside
    exact h.related pair (List.mem_append_right _ (List.mem_cons_of_mem _ inside))

/-- No related pair has its sides on the two sides of a cut. -/
def Uncrossed (R : α → β → Prop) (xs xs' : List α) (ys ys' : List β) : Prop :=
  (∀ x ∈ xs, ∀ y ∈ ys', ¬ R x y) ∧ ∀ x ∈ xs', ∀ y ∈ ys, ¬ R x y

/-- An alignment across a cut that no pair crosses is one on either side of it. -/
theorem cut (uncrossed : Uncrossed R xs xs' ys ys')
    (h : IsAlignment R (xs ++ xs') (ys ++ ys') pairs) :
    ∃ before after, pairs = before ++ after ∧ IsAlignment R xs ys before ∧
      IsAlignment R xs' ys' after := by
  obtain ⟨_, _, split, left₁, left₂⟩ := List.sublist_append_iff.mp h.left
  obtain ⟨before, after, rfl, rfl, rfl⟩ := List.map_eq_append_iff.mp split
  obtain ⟨_, _, split', right₁, right₂⟩ := List.sublist_append_iff.mp h.right
  obtain ⟨before', after', same, rfl, rfl⟩ := List.map_eq_append_iff.mp split'
  -- A pair between the two places where the sides are cut would cross.
  have equal : before = before' ∧ after = after' := by
    rcases List.append_eq_append_iff.mp same with ⟨middle, rfl, rfl⟩ | ⟨middle, rfl, rfl⟩
    · cases middle with
      | nil => simp
      | cons pair middle =>
          refine absurd (h.related pair (by simp)) (uncrossed.2 _ ?_ _ ?_)
          · exact left₂.subset (by simp)
          · exact right₁.subset (by simp)
    · cases middle with
      | nil => simp
      | cons pair middle =>
          refine absurd (h.related pair (by simp)) (uncrossed.1 _ ?_ _ ?_)
          · exact left₁.subset (by simp)
          · exact right₂.subset (by simp)
  obtain ⟨rfl, rfl⟩ := equal
  refine ⟨before, after, rfl, ⟨left₁, right₁, ?_⟩, left₂, right₂, ?_⟩
  · intro pair member
    exact h.related pair (List.mem_append_left _ member)
  · intro pair member
    exact h.related pair (List.mem_append_right _ member)

end IsAlignment

/-! ## Longest alignments -/

/-- The lengths of the alignments of two lists. -/
def alignmentSizes (R : α → β → Prop) (xs : List α) (ys : List β) : Set Nat :=
  { size | ∃ pairs, IsAlignment R xs ys pairs ∧ pairs.length = size }

/-- The length of the longest alignments. -/
noncomputable def maximumAlignment (R : α → β → Prop) (xs : List α) (ys : List β) : Nat :=
  sSup (alignmentSizes R xs ys)

/-- A longest alignment. -/
structure IsMaximum (R : α → β → Prop) (xs : List α) (ys : List β) (pairs : List (α × β)) :
    Prop extends IsAlignment R xs ys pairs where
  longest : pairs.length = maximumAlignment R xs ys

section

variable {R S : α → β → Prop} {xs xs' : List α} {ys ys' : List β} {pairs : List (α × β)}

theorem alignmentSizes_bounded : BddAbove (alignmentSizes R xs ys) := by
  refine ⟨xs.length, ?_⟩
  rintro size ⟨pairs, aligned, rfl⟩
  exact aligned.length_le

theorem IsAlignment.le_maximum (h : IsAlignment R xs ys pairs) :
    pairs.length ≤ maximumAlignment R xs ys :=
  le_csSup alignmentSizes_bounded ⟨pairs, h, rfl⟩

theorem exists_maximum (R : α → β → Prop) (xs : List α) (ys : List β) :
    ∃ pairs, IsMaximum R xs ys pairs := by
  obtain ⟨pairs, aligned, longest⟩ :=
    Nat.sSup_mem (⟨0, [], .nil, rfl⟩ : (alignmentSizes R xs ys).Nonempty) alignmentSizes_bounded
  exact ⟨pairs, aligned, longest⟩

/-- A bound of all alignments bounds the longest. -/
theorem maximum_le {bound : Nat} (h : ∀ pairs, IsAlignment R xs ys pairs → pairs.length ≤ bound) :
    maximumAlignment R xs ys ≤ bound := by
  obtain ⟨pairs, maximum⟩ := exists_maximum R xs ys
  rw [← maximum.longest]
  exact h pairs maximum.toIsAlignment

theorem maximum_mono (left : xs.Sublist xs') (right : ys.Sublist ys') :
    maximumAlignment R xs ys ≤ maximumAlignment R xs' ys' :=
  maximum_le fun _ aligned => (aligned.mono left right).le_maximum

theorem maximum_nil_left : maximumAlignment R [] ys = 0 :=
  Nat.le_zero.mp (maximum_le fun _ aligned => aligned.length_le)

theorem maximum_nil_right : maximumAlignment R xs [] = 0 := by
  refine Nat.le_zero.mp (maximum_le fun pairs aligned => ?_)
  simpa using aligned.right.length_le

/-- What two lists start and end with can be aligned at once. -/
theorem common_le_maximum (front middle middle' back : List α) :
    front.length + back.length ≤
      maximumAlignment (· = ·) (front ++ middle ++ back) (front ++ middle' ++ back) := by
  have between : IsAlignment (· = ·) middle middle' [] := .nil
  have aligned := ((IsAlignment.same front).append between).append (IsAlignment.same back)
  simpa using aligned.le_maximum

theorem maximum_cons {x : α} {y : β} [Decidable (R x y)] :
    maximumAlignment R (x :: xs) (y :: ys) =
      if R x y then max (max (maximumAlignment R xs (y :: ys)) (maximumAlignment R (x :: xs) ys))
        (maximumAlignment R xs ys + 1)
      else max (maximumAlignment R xs (y :: ys)) (maximumAlignment R (x :: xs) ys) := by
  have left : maximumAlignment R xs (y :: ys) ≤ maximumAlignment R (x :: xs) (y :: ys) :=
    maximum_mono (List.sublist_cons_self _ _) (List.Sublist.refl _)
  have right : maximumAlignment R (x :: xs) ys ≤ maximumAlignment R (x :: xs) (y :: ys) :=
    maximum_mono (List.Sublist.refl _) (List.sublist_cons_self _ _)
  apply le_antisymm
  · refine maximum_le fun pairs aligned => ?_
    rcases aligned.cons_cases with here | here | ⟨related, rest, rfl, here⟩
    · have := here.le_maximum
      split <;> omega
    · have := here.le_maximum
      split <;> omega
    · have := here.le_maximum
      rw [if_pos related, List.length_cons]
      omega
  · split
    · next related =>
        obtain ⟨pairs, maximum⟩ := exists_maximum R xs ys
        have paired := (maximum.toIsAlignment.cons related).le_maximum
        rw [List.length_cons, maximum.longest] at paired
        omega
    · omega

theorem maximum_reverse : maximumAlignment R xs.reverse ys.reverse = maximumAlignment R xs ys := by
  apply le_antisymm
  · refine maximum_le fun pairs aligned => ?_
    have straight := aligned.reverse
    rw [List.reverse_reverse, List.reverse_reverse] at straight
    simpa using straight.le_maximum
  · refine maximum_le fun pairs aligned => ?_
    simpa using aligned.reverse.le_maximum

theorem maximum_snoc {x : α} {y : β} [Decidable (R x y)] :
    maximumAlignment R (xs ++ [x]) (ys ++ [y]) =
      if R x y then max
        (max (maximumAlignment R xs (ys ++ [y])) (maximumAlignment R (xs ++ [x]) ys))
        (maximumAlignment R xs ys + 1)
      else max (maximumAlignment R xs (ys ++ [y])) (maximumAlignment R (xs ++ [x]) ys) := by
  have step : maximumAlignment R (x :: xs.reverse) (y :: ys.reverse) = _ := maximum_cons
  simpa only [← List.reverse_concat, maximum_reverse, List.concat_eq_append] using step

/-! ## The pairs of longest alignments -/

/-- Some longest alignment has the pair. -/
def Occurs (R : α → β → Prop) (xs : List α) (ys : List β) (pair : α × β) : Prop :=
  ∃ pairs, IsMaximum R xs ys pairs ∧ pair ∈ pairs

/-- Every longest alignment has the pair. -/
def Forced (R : α → β → Prop) (xs : List α) (ys : List β) (pair : α × β) : Prop :=
  ∀ pairs, IsMaximum R xs ys pairs → pair ∈ pairs

theorem occurs_iff {x : α} {y : β} (left : (xs ++ x :: xs').Nodup)
    (right : (ys ++ y :: ys').Nodup) :
    Occurs R (xs ++ x :: xs') (ys ++ y :: ys') (x, y) ↔
      R x y ∧ maximumAlignment R xs ys + 1 + maximumAlignment R xs' ys' =
        maximumAlignment R (xs ++ x :: xs') (ys ++ y :: ys') := by
  have attained : R x y → ∃ pairs, IsAlignment R (xs ++ x :: xs') (ys ++ y :: ys') pairs ∧
      (x, y) ∈ pairs ∧
      pairs.length = maximumAlignment R xs ys + 1 + maximumAlignment R xs' ys' := by
    intro related
    obtain ⟨before, maximum⟩ := exists_maximum R xs ys
    obtain ⟨after, maximum'⟩ := exists_maximum R xs' ys'
    refine ⟨before ++ (x, y) :: after,
      maximum.toIsAlignment.append (maximum'.toIsAlignment.cons related), by simp, ?_⟩
    rw [List.length_append, List.length_cons, maximum.longest, maximum'.longest]
    omega
  constructor
  · rintro ⟨pairs, maximum, member⟩
    have related := maximum.related _ member
    refine ⟨related, le_antisymm ?_ ?_⟩
    · obtain ⟨_, aligned, _, length⟩ := attained related
      rw [← length]
      exact aligned.le_maximum
    · obtain ⟨before, after, rfl, first, second⟩ :=
        maximum.toIsAlignment.around left right member
      have firstLe := first.le_maximum
      have secondLe := second.le_maximum
      rw [← maximum.longest, List.length_append, List.length_cons]
      omega
  · rintro ⟨related, equal⟩
    obtain ⟨pairs, aligned, member, length⟩ := attained related
    exact ⟨pairs, ⟨aligned, length.trans equal⟩, member⟩

/-- A relation without one of its pairs. -/
def Without (R : α → β → Prop) (pair : α × β) (x : α) (y : β) : Prop := R x y ∧ (x, y) ≠ pair

theorem alignment_without {pair : α × β} :
    IsAlignment (Without R pair) xs ys pairs ↔ IsAlignment R xs ys pairs ∧ pair ∉ pairs := by
  constructor
  · rintro ⟨left, right, related⟩
    exact ⟨⟨left, right, fun other member => (related other member).1⟩,
      fun member => (related pair member).2 rfl⟩
  · rintro ⟨⟨left, right, related⟩, absent⟩
    refine ⟨left, right, fun other member => ⟨related other member, ?_⟩⟩
    rintro rfl
    exact absent member

/-- A pair is in every longest alignment when without it they get shorter. -/
theorem forced_iff {pair : α × β} :
    Forced R xs ys pair ↔ maximumAlignment (Without R pair) xs ys < maximumAlignment R xs ys := by
  constructor
  · intro forced
    obtain ⟨pairs, maximum⟩ := exists_maximum (Without R pair) xs ys
    obtain ⟨aligned, absent⟩ := alignment_without.mp maximum.toIsAlignment
    refine lt_of_le_of_ne ?_ ?_
    · rw [← maximum.longest]
      exact aligned.le_maximum
    · intro same
      exact absent (forced pairs ⟨aligned, maximum.longest.trans same⟩)
  · intro shorter pairs maximum
    by_contra absent
    have bound := (alignment_without.mpr ⟨maximum.toIsAlignment, absent⟩).le_maximum
    rw [maximum.longest] at bound
    omega

/-! ## Cuts -/

open IsAlignment (Uncrossed)

theorem maximum_append (uncrossed : Uncrossed R xs xs' ys ys') :
    maximumAlignment R (xs ++ xs') (ys ++ ys') =
      maximumAlignment R xs ys + maximumAlignment R xs' ys' := by
  apply le_antisymm
  · refine maximum_le fun pairs aligned => ?_
    obtain ⟨before, after, rfl, first, second⟩ := aligned.cut uncrossed
    rw [List.length_append]
    exact Nat.add_le_add first.le_maximum second.le_maximum
  · obtain ⟨before, first⟩ := exists_maximum R xs ys
    obtain ⟨after, second⟩ := exists_maximum R xs' ys'
    have both := (first.toIsAlignment.append second.toIsAlignment).le_maximum
    rwa [List.length_append, first.longest, second.longest] at both

/-- The longest alignments across a cut are a longest one on each side. -/
theorem isMaximum_append (uncrossed : Uncrossed R xs xs' ys ys') :
    IsMaximum R (xs ++ xs') (ys ++ ys') pairs ↔
      ∃ before after, pairs = before ++ after ∧ IsMaximum R xs ys before ∧
        IsMaximum R xs' ys' after := by
  have total := maximum_append uncrossed
  constructor
  · rintro ⟨aligned, longest⟩
    obtain ⟨before, after, rfl, first, second⟩ := aligned.cut uncrossed
    have firstLe := first.le_maximum
    have secondLe := second.le_maximum
    rw [total, List.length_append] at longest
    exact ⟨before, after, rfl, ⟨first, by omega⟩, ⟨second, by omega⟩⟩
  · rintro ⟨before, after, rfl, first, second⟩
    refine ⟨first.toIsAlignment.append second.toIsAlignment, ?_⟩
    rw [total, List.length_append, first.longest, second.longest]

section

variable {pair : α × β} (uncrossed : Uncrossed R xs xs' ys ys')

include uncrossed

/-- The pairs of the first side. -/
theorem occurs_append_left (absent : pair.1 ∉ xs') :
    Occurs R (xs ++ xs') (ys ++ ys') pair ↔ Occurs R xs ys pair := by
  constructor
  · rintro ⟨pairs, maximum, member⟩
    obtain ⟨before, after, rfl, first, second⟩ := (isMaximum_append uncrossed).mp maximum
    rcases List.mem_append.mp member with here | there
    · exact ⟨before, first, here⟩
    · exact absurd (second.left.subset (List.mem_map_of_mem there)) absent
  · rintro ⟨before, first, member⟩
    obtain ⟨after, second⟩ := exists_maximum R xs' ys'
    exact ⟨before ++ after, (isMaximum_append uncrossed).mpr ⟨before, after, rfl, first, second⟩,
      List.mem_append_left _ member⟩

theorem occurs_append_right (absent : pair.1 ∉ xs) :
    Occurs R (xs ++ xs') (ys ++ ys') pair ↔ Occurs R xs' ys' pair := by
  constructor
  · rintro ⟨pairs, maximum, member⟩
    obtain ⟨before, after, rfl, first, second⟩ := (isMaximum_append uncrossed).mp maximum
    rcases List.mem_append.mp member with here | there
    · exact absurd (first.left.subset (List.mem_map_of_mem here)) absent
    · exact ⟨after, second, there⟩
  · rintro ⟨after, second, member⟩
    obtain ⟨before, first⟩ := exists_maximum R xs ys
    exact ⟨before ++ after, (isMaximum_append uncrossed).mpr ⟨before, after, rfl, first, second⟩,
      List.mem_append_right _ member⟩

theorem forced_append_left (absent : pair.1 ∉ xs') :
    Forced R (xs ++ xs') (ys ++ ys') pair ↔ Forced R xs ys pair := by
  constructor
  · intro forced before first
    obtain ⟨after, second⟩ := exists_maximum R xs' ys'
    have member := forced (before ++ after)
      ((isMaximum_append uncrossed).mpr ⟨before, after, rfl, first, second⟩)
    rcases List.mem_append.mp member with here | there
    · exact here
    · exact absurd (second.left.subset (List.mem_map_of_mem there)) absent
  · intro forced pairs maximum
    obtain ⟨before, after, rfl, first, second⟩ := (isMaximum_append uncrossed).mp maximum
    exact List.mem_append_left _ (forced before first)

theorem forced_append_right (absent : pair.1 ∉ xs) :
    Forced R (xs ++ xs') (ys ++ ys') pair ↔ Forced R xs' ys' pair := by
  constructor
  · intro forced after second
    obtain ⟨before, first⟩ := exists_maximum R xs ys
    have member := forced (before ++ after)
      ((isMaximum_append uncrossed).mpr ⟨before, after, rfl, first, second⟩)
    rcases List.mem_append.mp member with here | there
    · exact absurd (first.left.subset (List.mem_map_of_mem here)) absent
    · exact there
  · intro forced pairs maximum
    obtain ⟨before, after, rfl, first, second⟩ := (isMaximum_append uncrossed).mp maximum
    exact List.mem_append_right _ (forced after second)

end

/-! ## Blocks -/

/-- Two lists in blocks, of which no pair is of two blocks. -/
def Separate (R : α → β → Prop) (blocks : List (List α × List β)) : Prop :=
  blocks.Pairwise fun first second => Uncrossed R first.1 second.1 first.2 second.2

variable {block : List α × List β} {blocks : List (List α × List β)} {pair : α × β}

theorem Separate.cons (separate : Separate R (block :: blocks)) :
    Uncrossed R block.1 (blocks.flatMap Prod.fst) block.2 (blocks.flatMap Prod.snd) ∧
      Separate R blocks := by
  obtain ⟨apart, rest⟩ := List.pairwise_cons.mp separate
  refine ⟨⟨?_, ?_⟩, rest⟩
  · intro x inside y outside
    obtain ⟨other, member, there⟩ := List.mem_flatMap.mp outside
    exact (apart other member).1 x inside y there
  · intro x outside y inside
    obtain ⟨other, member, there⟩ := List.mem_flatMap.mp outside
    exact (apart other member).2 x there y inside

theorem maximum_blocks (separate : Separate R blocks) :
    maximumAlignment R (blocks.flatMap Prod.fst) (blocks.flatMap Prod.snd) =
      (blocks.map fun block => maximumAlignment R block.1 block.2).sum := by
  induction blocks with
  | nil => exact maximum_nil_left
  | cons block blocks ih =>
      obtain ⟨uncrossed, rest⟩ := separate.cons
      rw [List.flatMap_cons, List.flatMap_cons, maximum_append uncrossed, ih rest, List.map_cons,
        List.sum_cons]

/-- A pair of one block is in longest alignments of the whole as it is in those of its block. -/
theorem occurs_forced_blocks (separate : Separate R blocks)
    (nodup : (blocks.flatMap Prod.fst).Nodup) (member : block ∈ blocks)
    (inside : pair.1 ∈ block.1) :
    (Occurs R (blocks.flatMap Prod.fst) (blocks.flatMap Prod.snd) pair ↔
      Occurs R block.1 block.2 pair) ∧
    (Forced R (blocks.flatMap Prod.fst) (blocks.flatMap Prod.snd) pair ↔
      Forced R block.1 block.2 pair) := by
  induction blocks with
  | nil => cases member
  | cons first blocks ih =>
      obtain ⟨uncrossed, rest⟩ := separate.cons
      rw [List.flatMap_cons, List.flatMap_cons] at *
      obtain ⟨_, nodup', apart⟩ := List.nodup_append.mp nodup
      rcases List.mem_cons.mp member with rfl | later
      · have absent : pair.1 ∉ blocks.flatMap Prod.fst := fun there => apart _ inside _ there rfl
        exact ⟨occurs_append_left uncrossed absent, forced_append_left uncrossed absent⟩
      · have absent : pair.1 ∉ first.1 := fun here =>
          apart _ here _ (List.mem_flatMap.mpr ⟨block, later, inside⟩) rfl
        obtain ⟨occurs, forced⟩ := ih rest nodup' later
        exact ⟨(occurs_append_right uncrossed absent).trans occurs,
          (forced_append_right uncrossed absent).trans forced⟩

/-! ## Elements without a partner -/

section

variable {p : α → Bool} {q : β → Bool}
variable (partners : ∀ x ∈ xs, ∀ y ∈ ys, R x y → p x = true ∧ q y = true)

include partners

theorem alignment_filter :
    IsAlignment R (xs.filter p) (ys.filter q) pairs ↔ IsAlignment R xs ys pairs := by
  constructor
  · intro aligned
    exact aligned.mono List.filter_sublist List.filter_sublist
  · intro aligned
    have chosen : ∀ pair ∈ pairs, p pair.1 = true ∧ q pair.2 = true := by
      intro pair member
      exact partners _ (aligned.left.subset (List.mem_map_of_mem member)) _
        (aligned.right.subset (List.mem_map_of_mem member)) (aligned.related pair member)
    refine ⟨?_, ?_, aligned.related⟩
    · have kept := aligned.left.filter p
      rwa [List.filter_eq_self.mpr (by simpa using fun a b member => (chosen (a, b) member).1)]
        at kept
    · have kept := aligned.right.filter q
      rwa [List.filter_eq_self.mpr (by simpa using fun b a member => (chosen (a, b) member).2)]
        at kept

theorem maximum_filter :
    maximumAlignment R (xs.filter p) (ys.filter q) = maximumAlignment R xs ys := by
  simp only [maximumAlignment, alignmentSizes, alignment_filter partners]

theorem isMaximum_filter :
    IsMaximum R (xs.filter p) (ys.filter q) pairs ↔ IsMaximum R xs ys pairs := by
  constructor
  · rintro ⟨aligned, longest⟩
    exact ⟨(alignment_filter partners).mp aligned, longest.trans (maximum_filter partners)⟩
  · rintro ⟨aligned, longest⟩
    exact ⟨(alignment_filter partners).mpr aligned, longest.trans (maximum_filter partners).symm⟩

end

/-! ## Alignments of mapped lists -/

section

variable {γ δ : Type} {S : α → β → Prop} {is : List γ} {js : List δ}
variable {f : γ → α} {g : δ → β}

theorem isAlignment_congr (same : ∀ x ∈ xs, ∀ y ∈ ys, R x y ↔ S x y) :
    IsAlignment R xs ys pairs ↔ IsAlignment S xs ys pairs := by
  constructor
  · rintro ⟨left, right, related⟩
    exact ⟨left, right, fun pair member => (same _ (left.subset (List.mem_map_of_mem member)) _
      (right.subset (List.mem_map_of_mem member))).mp (related pair member)⟩
  · rintro ⟨left, right, related⟩
    exact ⟨left, right, fun pair member => (same _ (left.subset (List.mem_map_of_mem member)) _
      (right.subset (List.mem_map_of_mem member))).mpr (related pair member)⟩

theorem isMaximum_congr (same : ∀ x ∈ xs, ∀ y ∈ ys, R x y ↔ S x y) :
    IsMaximum R xs ys pairs ↔ IsMaximum S xs ys pairs := by
  have size : maximumAlignment R xs ys = maximumAlignment S xs ys := by
    simp only [maximumAlignment, alignmentSizes, isAlignment_congr same]
  constructor
  · rintro ⟨aligned, longest⟩
    exact ⟨(isAlignment_congr same).mp aligned, longest.trans size⟩
  · rintro ⟨aligned, longest⟩
    exact ⟨(isAlignment_congr same).mpr aligned, longest.trans size.symm⟩

theorem isAlignment_map : IsAlignment R (is.map f) (js.map g) pairs ↔
    ∃ places, IsAlignment (fun i j => R (f i) (g j)) is js places ∧
      pairs = places.map (Prod.map f g) := by
  constructor
  · rintro ⟨left, right, related⟩
    obtain ⟨firsts, left', same⟩ := List.sublist_map_iff.mp left
    obtain ⟨seconds, right', same'⟩ := List.sublist_map_iff.mp right
    have length : firsts.length = seconds.length := by
      have first := congrArg List.length same
      have second := congrArg List.length same'
      rw [List.length_map, List.length_map] at first second
      omega
    have zipped : pairs = (firsts.zip seconds).map (Prod.map f g) := by
      rw [← List.zip_map, ← same, ← same', List.zip_map']
      exact (List.map_id' pairs).symm
    refine ⟨firsts.zip seconds, ⟨?_, ?_, ?_⟩, zipped⟩
    · rwa [List.map_fst_zip (le_of_eq length)]
    · rwa [List.map_snd_zip (le_of_eq length.symm)]
    · rintro ⟨i, j⟩ member
      exact related (f i, g j) (zipped ▸ List.mem_map.mpr ⟨(i, j), member, rfl⟩)
  · rintro ⟨places, ⟨left, right, related⟩, rfl⟩
    refine ⟨?_, ?_, ?_⟩
    · rw [List.map_map]
      simpa [Function.comp_def] using left.map f
    · rw [List.map_map]
      simpa [Function.comp_def] using right.map g
    · intro pair member
      obtain ⟨place, there, rfl⟩ := List.mem_map.mp member
      exact related place there

theorem maximum_map : maximumAlignment R (is.map f) (js.map g) =
    maximumAlignment (fun i j => R (f i) (g j)) is js := by
  simp only [maximumAlignment, alignmentSizes, isAlignment_map]
  congr 1
  ext size
  constructor
  · rintro ⟨_, ⟨places, aligned, rfl⟩, rfl⟩
    exact ⟨places, aligned, (List.length_map _).symm⟩
  · rintro ⟨places, aligned, rfl⟩
    exact ⟨_, ⟨places, aligned, rfl⟩, List.length_map _⟩

theorem isMaximum_map : IsMaximum R (is.map f) (js.map g) pairs ↔
    ∃ places, IsMaximum (fun i j => R (f i) (g j)) is js places ∧
      pairs = places.map (Prod.map f g) := by
  constructor
  · rintro ⟨aligned, longest⟩
    obtain ⟨places, aligned', rfl⟩ := isAlignment_map.mp aligned
    rw [List.length_map, maximum_map] at longest
    exact ⟨places, ⟨aligned', longest⟩, rfl⟩
  · rintro ⟨places, ⟨aligned, longest⟩, rfl⟩
    refine ⟨isAlignment_map.mpr ⟨places, aligned, rfl⟩, ?_⟩
    rw [List.length_map, maximum_map]
    exact longest

variable {i : γ} {j : δ}

theorem mem_places {places : List (γ × δ)} (inside : i ∈ is) (inside' : j ∈ js)
    (distinct : ∀ a ∈ is, ∀ b ∈ is, f a = f b → a = b)
    (distinct' : ∀ a ∈ js, ∀ b ∈ js, g a = g b → a = b)
    {T : γ → δ → Prop} (h : IsAlignment T is js places) :
    (f i, g j) ∈ places.map (Prod.map f g) ↔ (i, j) ∈ places := by
  constructor
  · intro member
    obtain ⟨⟨a, b⟩, there, same⟩ := List.mem_map.mp member
    obtain ⟨first, second⟩ := Prod.mk.inj same
    cases distinct a (h.left.subset (List.mem_map_of_mem there)) i inside first
    cases distinct' b (h.right.subset (List.mem_map_of_mem there)) j inside' second
    exact there
  · intro member
    exact List.mem_map.mpr ⟨(i, j), member, rfl⟩

/-- Renaming the elements of both lists does not change which pairs occur or are forced. -/
theorem occurs_forced_map (inside : i ∈ is) (inside' : j ∈ js)
    (distinct : ∀ a ∈ is, ∀ b ∈ is, f a = f b → a = b)
    (distinct' : ∀ a ∈ js, ∀ b ∈ js, g a = g b → a = b) :
    (Occurs R (is.map f) (js.map g) (f i, g j) ↔
      Occurs (fun i j => R (f i) (g j)) is js (i, j)) ∧
    (Forced R (is.map f) (js.map g) (f i, g j) ↔
      Forced (fun i j => R (f i) (g j)) is js (i, j)) := by
  constructor
  · constructor
    · rintro ⟨_, maximum, member⟩
      obtain ⟨places, maximum', rfl⟩ := isMaximum_map.mp maximum
      exact ⟨places, maximum',
        (mem_places inside inside' distinct distinct' maximum'.toIsAlignment).mp member⟩
    · rintro ⟨places, maximum, member⟩
      exact ⟨_, isMaximum_map.mpr ⟨places, maximum, rfl⟩, List.mem_map.mpr ⟨(i, j), member, rfl⟩⟩
  · constructor
    · intro forced places maximum
      exact (mem_places inside inside' distinct distinct' maximum.toIsAlignment).mp
        (forced _ (isMaximum_map.mpr ⟨places, maximum, rfl⟩))
    · intro forced _ maximum
      obtain ⟨places, maximum', rfl⟩ := isMaximum_map.mp maximum
      exact List.mem_map.mpr ⟨(i, j), forced places maximum', rfl⟩

end

end
