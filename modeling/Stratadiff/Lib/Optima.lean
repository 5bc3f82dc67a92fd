import Stratadiff.Lib.Alignment

/-!
# Alignments as sets of pairs

An alignment of two lists without repetitions is determined by its set of pairs. A set of
pairs is one exactly when it uses every element at most once and keeps the order of both
lists, and the largest such sets are the longest alignments. The pairs that every longest
alignment has can be taken away: what is left of the longest alignments is every set of
occurring pairs that keeps the order and has the right size.
-/

variable {α β : Type} [DecidableEq α] [DecidableEq β]

/-- One element comes before another in a list. -/
def Precedes (xs : List α) (x y : α) : Prop := xs.idxOf x < xs.idxOf y

instance (xs : List α) (x y : α) : Decidable (Precedes xs x y) :=
  inferInstanceAs (Decidable (_ < _))

namespace Precedes

variable {xs ys zs : List α} {x y : α}

theorem asymm (h : Precedes xs x y) : ¬ Precedes xs y x := fun h' => lt_asymm h h'

theorem pairwise (nodup : xs.Nodup) : xs.Pairwise (Precedes xs) := by
  rw [List.pairwise_iff_getElem]
  intro i j below below' less
  rwa [Precedes, nodup.idxOf_getElem, nodup.idxOf_getElem]

theorem total (first : x ∈ xs) (different : x ≠ y) : Precedes xs x y ∨ Precedes xs y x :=
  Nat.lt_or_gt_of_ne fun same => different ((List.idxOf_inj first).mp same)

/-- A list of elements in the order of `xs` is a sublist of it. -/
theorem sublist (ordered : ys.Pairwise (Precedes xs)) (within : ∀ y ∈ ys, y ∈ xs) :
    ys.Sublist xs := by
  have places : (ys.map fun y => xs.idxOf y).Sublist (List.range xs.length) := by
    have increasing : (ys.map fun y => xs.idxOf y).Pairwise (· < ·) :=
      List.pairwise_map.mpr ordered
    refine List.sublist_of_subperm_of_pairwise (r := (· < ·)) ?_ increasing
      List.pairwise_lt_range
    refine List.subperm_of_subset increasing.nodup fun place member => ?_
    obtain ⟨y, there, rfl⟩ := List.mem_map.mp member
    exact List.mem_range.mpr (List.idxOf_lt_length_of_mem (within y there))
  have values := places.map fun place => xs[place]?
  have chosen : (ys.map fun y => xs.idxOf y).map (fun place => xs[place]?) = ys.map some := by
    rw [List.map_map]
    refine List.map_congr_left fun y member => ?_
    have below := List.idxOf_lt_length_of_mem (within y member)
    rw [Function.comp_apply, List.getElem?_eq_getElem below, List.getElem_idxOf below]
  have all : (List.range xs.length).map (fun place => xs[place]?) = xs.map some := by
    refine List.ext_getElem? fun i => ?_
    by_cases below : i < xs.length
    · simp [below]
    · simp [below]
  rw [chosen, all] at values
  have unwrapped := values.filterMap id
  rwa [List.filterMap_map, List.filterMap_map, Function.id_comp, List.filterMap_some,
    List.filterMap_some] at unwrapped

/-- A sublist keeps the order of its elements. -/
theorem of_sublist (nodup : xs.Nodup) (shorter : ys.Sublist xs) (first : x ∈ ys) (second : y ∈ ys) :
    Precedes ys x y ↔ Precedes xs x y := by
  have ordered : ys.Pairwise fun a b => Precedes ys a b ∧ Precedes xs a b :=
    (pairwise (nodup.sublist shorter)).and ((pairwise nodup).sublist shorter)
  have forward : ∀ a ∈ ys, ∀ b ∈ ys, Precedes ys a b → Precedes xs a b := by
    intro a inside b inside' less
    have below := List.idxOf_lt_length_of_mem inside
    have below' := List.idxOf_lt_length_of_mem inside'
    have both := (List.pairwise_iff_getElem.mp ordered _ _ below below' less).2
    rwa [List.getElem_idxOf below, List.getElem_idxOf below'] at both
  constructor
  · exact forward x first y second
  · intro less
    have different : x ≠ y := by
      rintro rfl
      exact lt_irrefl _ less
    rcases total first different with here | there
    · exact here
    · exact absurd less (forward y second x first there).asymm

end Precedes

/-- A set of pairs of elements of two lists that uses each element at most once and keeps
the order. -/
structure OrderPreserving (xs : List α) (ys : List β) (pairs : Finset (α × β)) : Prop where
  within : ∀ pair ∈ pairs, pair.1 ∈ xs ∧ pair.2 ∈ ys
  ordered : ∀ first ∈ pairs, ∀ second ∈ pairs, first ≠ second →
    Precedes xs first.1 second.1 ∧ Precedes ys first.2 second.2 ∨
      Precedes xs second.1 first.1 ∧ Precedes ys second.2 first.2

/-- A largest order-preserving set of related pairs. -/
structure Optimal (R : α → β → Prop) (xs : List α) (ys : List β) (pairs : Finset (α × β)) : Prop
    extends OrderPreserving xs ys pairs where
  related : ∀ pair ∈ pairs, R pair.1 pair.2
  largest : ∀ other, OrderPreserving xs ys other → (∀ pair ∈ other, R pair.1 pair.2) →
    other.card ≤ pairs.card

namespace OrderPreserving

variable {R : α → β → Prop} {xs xs' : List α} {ys ys' : List β} {pairs other : Finset (α × β)}
variable {aligned : List (α × β)}

theorem subset (h : OrderPreserving xs ys pairs) (sub : other ⊆ pairs) :
    OrderPreserving xs ys other where
  within pair member := h.within pair (sub member)
  ordered first member second member' := h.ordered first (sub member) second (sub member')

/-- Between shorter and longer lists only the elements of the pairs matter. -/
theorem of_sublist (nodup : xs.Nodup) (nodup' : ys.Nodup) (left : xs'.Sublist xs)
    (right : ys'.Sublist ys) (within : ∀ pair ∈ pairs, pair.1 ∈ xs' ∧ pair.2 ∈ ys') :
    OrderPreserving xs' ys' pairs ↔ OrderPreserving xs ys pairs := by
  constructor
  · intro h
    refine ⟨fun pair member => ⟨left.subset (within pair member).1,
      right.subset (within pair member).2⟩, fun first member second member' different => ?_⟩
    obtain ⟨inLeft, inRight⟩ := within first member
    obtain ⟨inLeft', inRight'⟩ := within second member'
    have order := h.ordered first member second member' different
    rwa [Precedes.of_sublist nodup left inLeft inLeft',
      Precedes.of_sublist nodup' right inRight inRight',
      Precedes.of_sublist nodup left inLeft' inLeft,
      Precedes.of_sublist nodup' right inRight' inRight] at order
  · intro h
    refine ⟨within, fun first member second member' different => ?_⟩
    obtain ⟨inLeft, inRight⟩ := within first member
    obtain ⟨inLeft', inRight'⟩ := within second member'
    rw [Precedes.of_sublist nodup left inLeft inLeft',
      Precedes.of_sublist nodup' right inRight inRight',
      Precedes.of_sublist nodup left inLeft' inLeft,
      Precedes.of_sublist nodup' right inRight' inRight]
    exact h.ordered first member second member' different

/-- The pairs of an alignment. -/
theorem of_alignment (nodup : xs.Nodup) (nodup' : ys.Nodup) (h : IsAlignment R xs ys aligned) :
    OrderPreserving xs ys aligned.toFinset := by
  have firsts := List.pairwise_map.mp ((Precedes.pairwise nodup).sublist h.left)
  have seconds := List.pairwise_map.mp ((Precedes.pairwise nodup').sublist h.right)
  constructor
  · intro pair member
    have there := List.mem_toFinset.mp member
    exact ⟨h.left.subset (List.mem_map_of_mem there), h.right.subset (List.mem_map_of_mem there)⟩
  · intro first member second member' different
    have either : aligned.Pairwise fun p q => Precedes xs p.1 q.1 ∧ Precedes ys p.2 q.2 ∨
        Precedes xs q.1 p.1 ∧ Precedes ys q.2 p.2 := (firsts.and seconds).imp Or.inl
    have : Std.Symm fun p q : α × β => Precedes xs p.1 q.1 ∧ Precedes ys p.2 q.2 ∨
        Precedes xs q.1 p.1 ∧ Precedes ys q.2 p.2 := ⟨fun _ _ => Or.symm⟩
    exact either.forall (List.mem_toFinset.mp member) (List.mem_toFinset.mp member') different

omit [DecidableEq α] [DecidableEq β] in
theorem nodup_of_alignment (nodup : xs.Nodup) (h : IsAlignment R xs ys aligned) :
    aligned.Nodup := (nodup.sublist h.left).of_map

theorem card_of_alignment (nodup : xs.Nodup) (h : IsAlignment R xs ys aligned) :
    aligned.toFinset.card = aligned.length :=
  List.toFinset_card_of_nodup (nodup_of_alignment nodup h)

/-- The pairs in the order of their first elements are an alignment. -/
theorem exists_alignment (h : OrderPreserving xs ys pairs)
    (related : ∀ pair ∈ pairs, R pair.1 pair.2) :
    ∃ aligned, IsAlignment R xs ys aligned ∧ aligned.toFinset = pairs := by
  let earlier (p q : α × β) : Prop := xs.idxOf p.1 ≤ xs.idxOf q.1
  have : Std.Total earlier := ⟨fun p q => le_total _ _⟩
  have : IsTrans (α × β) earlier := ⟨fun p q r => le_trans⟩
  let sorted := pairs.toList.insertionSort earlier
  have perm : sorted.Perm pairs.toList := List.perm_insertionSort _ _
  have member {pair : α × β} : pair ∈ sorted ↔ pair ∈ pairs := by
    rw [perm.mem_iff, Finset.mem_toList]
  have nodup : sorted.Nodup := perm.nodup_iff.mpr pairs.nodup_toList
  have ordered : sorted.Pairwise fun p q => Precedes xs p.1 q.1 ∧ Precedes ys p.2 q.2 := by
    refine ((List.pairwise_insertionSort earlier pairs.toList).and nodup).imp_of_mem ?_
    rintro p q first second ⟨before, different⟩
    rcases h.ordered p (member.mp first) q (member.mp second) different with right | wrong
    · exact right
    · exact absurd before (not_le.mpr wrong.1)
  refine ⟨sorted, ⟨?_, ?_, fun pair there => related pair (member.mp there)⟩, ?_⟩
  · refine Precedes.sublist (List.pairwise_map.mpr (ordered.imp And.left)) fun x there => ?_
    obtain ⟨pair, inside, rfl⟩ := List.mem_map.mp there
    exact (h.within pair (member.mp inside)).1
  · refine Precedes.sublist (List.pairwise_map.mpr (ordered.imp And.right)) fun y there => ?_
    obtain ⟨pair, inside, rfl⟩ := List.mem_map.mp there
    exact (h.within pair (member.mp inside)).2
  · ext pair
    rw [List.mem_toFinset, member]

end OrderPreserving

section

variable {R : α → β → Prop} {xs : List α} {ys : List β} {pairs : Finset (α × β)}

/-- The largest order-preserving sets are the longest alignments. -/
theorem optimal_iff (nodup : xs.Nodup) (nodup' : ys.Nodup) :
    Optimal R xs ys pairs ↔ ∃ aligned, IsMaximum R xs ys aligned ∧ aligned.toFinset = pairs := by
  constructor
  · intro h
    obtain ⟨aligned, isAlignment, rfl⟩ := h.toOrderPreserving.exists_alignment h.related
    refine ⟨aligned, ⟨isAlignment, le_antisymm isAlignment.le_maximum ?_⟩, rfl⟩
    refine maximum_le fun other otherAligned => ?_
    have most :=
      h.largest other.toFinset (.of_alignment nodup nodup' otherAligned) fun pair there =>
      otherAligned.related pair (List.mem_toFinset.mp there)
    rwa [OrderPreserving.card_of_alignment nodup otherAligned,
      OrderPreserving.card_of_alignment nodup isAlignment] at most
  · rintro ⟨aligned, maximum, rfl⟩
    refine { OrderPreserving.of_alignment nodup nodup' maximum.toIsAlignment with
      related := fun pair there => maximum.related pair (List.mem_toFinset.mp there)
      largest := ?_ }
    intro other order related
    obtain ⟨list, otherAligned, rfl⟩ := order.exists_alignment related
    rw [OrderPreserving.card_of_alignment nodup otherAligned,
      OrderPreserving.card_of_alignment nodup maximum.toIsAlignment, maximum.longest]
    exact otherAligned.le_maximum

theorem exists_optimal (R : α → β → Prop) (nodup : xs.Nodup) (nodup' : ys.Nodup) :
    ∃ pairs, Optimal R xs ys pairs := by
  obtain ⟨aligned, maximum⟩ := exists_maximum R xs ys
  exact ⟨_, (optimal_iff nodup nodup').mpr ⟨aligned, maximum, rfl⟩⟩

theorem Optimal.card_eq (h : Optimal R xs ys pairs) (nodup : xs.Nodup) (nodup' : ys.Nodup) :
    pairs.card = maximumAlignment R xs ys := by
  obtain ⟨aligned, maximum, rfl⟩ := (optimal_iff nodup nodup').mp h
  rw [OrderPreserving.card_of_alignment nodup maximum.toIsAlignment, maximum.longest]

theorem occurs_iff_optimal (nodup : xs.Nodup) (nodup' : ys.Nodup) {pair : α × β} :
    Occurs R xs ys pair ↔ ∃ pairs, Optimal R xs ys pairs ∧ pair ∈ pairs := by
  simp only [Occurs, optimal_iff nodup nodup']
  constructor
  · rintro ⟨aligned, maximum, member⟩
    exact ⟨_, ⟨aligned, maximum, rfl⟩, List.mem_toFinset.mpr member⟩
  · rintro ⟨_, ⟨aligned, maximum, rfl⟩, member⟩
    exact ⟨aligned, maximum, List.mem_toFinset.mp member⟩

theorem forced_iff_optimal (nodup : xs.Nodup) (nodup' : ys.Nodup) {pair : α × β} :
    Forced R xs ys pair ↔ ∀ pairs, Optimal R xs ys pairs → pair ∈ pairs := by
  simp only [Forced, optimal_iff nodup nodup']
  constructor
  · rintro forced _ ⟨aligned, maximum, rfl⟩
    exact List.mem_toFinset.mpr (forced aligned maximum)
  · intro forced aligned maximum
    exact List.mem_toFinset.mp (forced _ ⟨aligned, maximum, rfl⟩)

/-! ## The optima without the forced pairs -/

/-- Sets that partition the occurring pairs into those of every optimum and the others. -/
structure Residue (R : α → β → Prop) (xs : List α) (ys : List β)
    (forced possible : Finset (α × β)) : Prop where
  forced : ∀ pair, pair ∈ forced ↔ Occurs R xs ys pair ∧ Forced R xs ys pair
  possible : ∀ pair, pair ∈ possible ↔ Occurs R xs ys pair ∧ ¬ Forced R xs ys pair

variable {forced possible chosen : Finset (α × β)} (residue : Residue R xs ys forced possible)
variable (nodup : xs.Nodup) (nodup' : ys.Nodup)

include residue nodup nodup'

theorem Residue.forced_subset (h : Optimal R xs ys pairs) : forced ⊆ pairs := by
  intro pair member
  exact (forced_iff_optimal nodup nodup').mp ((residue.forced pair).mp member).2 pairs h

theorem Residue.sdiff_subset (h : Optimal R xs ys pairs) : pairs \ forced ⊆ possible := by
  intro pair member
  obtain ⟨inside, notForced⟩ := Finset.mem_sdiff.mp member
  have occurs := (occurs_iff_optimal nodup nodup').mpr ⟨pairs, h, inside⟩
  exact (residue.possible pair).mpr ⟨occurs, fun always =>
    notForced ((residue.forced pair).mpr ⟨occurs, always⟩)⟩

/-- An occurring pair and a forced one are in one optimum. -/
theorem Residue.compatible {p q : α × β} (first : p ∈ possible) (second : q ∈ forced) :
    Precedes xs p.1 q.1 ∧ Precedes ys p.2 q.2 ∨ Precedes xs q.1 p.1 ∧ Precedes ys q.2 p.2 := by
  obtain ⟨occurs, notForced⟩ := (residue.possible p).mp first
  obtain ⟨pairs, optimal, inside⟩ := (occurs_iff_optimal nodup nodup').mp occurs
  refine optimal.ordered p inside q (residue.forced_subset nodup nodup' optimal second) ?_
  rintro rfl
  exact notForced ((residue.forced p).mp second).2

/-- The optima are the forced pairs together with any order-preserving set of other occurring
pairs that is large enough. -/
theorem Residue.optimal_iff : Optimal R xs ys pairs ↔
    ∃ chosen, chosen ⊆ possible ∧ OrderPreserving xs ys chosen ∧
      chosen.card = maximumAlignment R xs ys - forced.card ∧ pairs = chosen ∪ forced := by
  have related : ∀ pair, Occurs R xs ys pair → R pair.1 pair.2 := by
    rintro pair ⟨aligned, maximum, member⟩
    exact maximum.related pair member
  constructor
  · intro h
    have sub := residue.forced_subset nodup nodup' h
    refine ⟨pairs \ forced, residue.sdiff_subset nodup nodup' h,
      h.toOrderPreserving.subset Finset.sdiff_subset, ?_, (Finset.sdiff_union_of_subset sub).symm⟩
    rw [Finset.card_sdiff_of_subset sub, h.card_eq nodup nodup']
  · rintro ⟨chosen, sub, order, size, rfl⟩
    obtain ⟨one, optimal⟩ := exists_optimal R nodup nodup'
    have inOne := residue.forced_subset nodup nodup' optimal
    have apart : Disjoint chosen forced := by
      rw [Finset.disjoint_left]
      intro pair first second
      exact ((residue.possible pair).mp (sub first)).2 ((residue.forced pair).mp second).2
    have total : (chosen ∪ forced).card = maximumAlignment R xs ys := by
      have fits := Finset.card_le_card inOne
      rw [optimal.card_eq nodup nodup'] at fits
      rw [Finset.card_union_of_disjoint apart, size]
      omega
    refine { within := ?_, ordered := ?_, related := ?_, largest := ?_ }
    · intro pair member
      rcases Finset.mem_union.mp member with here | there
      · exact order.within pair here
      · exact optimal.within pair (inOne there)
    · intro p first q second different
      rcases Finset.mem_union.mp first with here | there
      · rcases Finset.mem_union.mp second with here' | there'
        · exact order.ordered p here q here' different
        · exact residue.compatible nodup nodup' (sub here) there'
      · rcases Finset.mem_union.mp second with here' | there'
        · exact (residue.compatible nodup nodup' (sub here') there).symm
        · exact optimal.ordered p (inOne there) q (inOne there') different
    · intro pair member
      rcases Finset.mem_union.mp member with here | there
      · exact related pair ((residue.possible pair).mp (sub here)).1
      · exact related pair ((residue.forced pair).mp there).1
    · intro other otherOrder otherRelated
      rw [total, ← optimal.card_eq nodup nodup']
      exact optimal.largest other otherOrder otherRelated

/-- Where some occurring pair is not forced, something is left to choose, in more than one way. -/
theorem Residue.several (some : possible.Nonempty) :
    1 ≤ maximumAlignment R xs ys - forced.card ∧
      ∃ first second, Optimal R xs ys first ∧ Optimal R xs ys second ∧
        first \ forced ≠ second \ forced := by
  obtain ⟨pair, member⟩ := some
  obtain ⟨occurs, notForced⟩ := (residue.possible pair).mp member
  obtain ⟨first, optimal, inside⟩ := (occurs_iff_optimal nodup nodup').mp occurs
  have free : pair ∉ forced := fun isForced => notForced ((residue.forced pair).mp isForced).2
  rw [forced_iff_optimal nodup nodup'] at notForced
  push Not at notForced
  obtain ⟨second, optimal', outside⟩ := notForced
  constructor
  · have fewer : forced.card < first.card := Finset.card_lt_card
      ((Finset.ssubset_iff_of_subset (residue.forced_subset nodup nodup' optimal)).mpr
        ⟨pair, inside, free⟩)
    rw [optimal.card_eq nodup nodup'] at fewer
    omega
  · refine ⟨first, second, optimal, optimal', fun same => outside ?_⟩
    have there : pair ∈ second \ forced := same ▸ Finset.mem_sdiff.mpr ⟨inside, free⟩
    exact (Finset.mem_sdiff.mp there).1

end
