import Stratadiff.Lib.OrderedMap

/-!
# The newest item of each group

A loop that keeps one item for each group, and replaces it when it meets an item of the
group with a greater key. The table is the list of its entries, written like a hash map:
an entry takes the place of the one with its group.
-/

namespace Newest

variable {ι α κ : Type} [DecidableEq ι]

/-- Write the item of a group. -/
def insert (group : ι) (item : α) : List (ι × α) → List (ι × α)
  | [] => [(group, item)]
  | entry :: entries =>
      if entry.1 = group then (group, item) :: entries else entry :: insert group item entries

variable {group other : ι} {item x : α} {table : List (ι × α)}

theorem mem_insert (nodup : (table.map Prod.fst).Nodup) :
    (other, x) ∈ insert group item table ↔
      (other = group ∧ x = item) ∨ (other ≠ group ∧ (other, x) ∈ table) := by
  induction table with
  | nil => simp [insert]
  | cons entry table ih =>
      obtain ⟨known, old⟩ := entry
      rw [List.map_cons, List.nodup_cons] at nodup
      rw [insert]
      split
      · next same =>
        obtain rfl : known = group := same
        have absent : (known, x) ∉ table := fun member =>
          nodup.1 (List.mem_map.mpr ⟨_, member, rfl⟩)
        simp only [List.mem_cons, Prod.mk.injEq]
        by_cases here : other = known
        · simp [here, absent]
        · simp [here]
      · next different =>
        rw [List.mem_cons, ih nodup.2, List.mem_cons, Prod.mk.injEq]
        constructor
        · rintro (⟨rfl, rfl⟩ | ⟨rfl, rfl⟩ | ⟨away, member⟩)
          · exact .inr ⟨different, .inl ⟨rfl, rfl⟩⟩
          · exact .inl ⟨rfl, rfl⟩
          · exact .inr ⟨away, .inr member⟩
        · rintro (⟨rfl, rfl⟩ | ⟨away, ⟨rfl, rfl⟩ | member⟩)
          · exact .inr (.inl ⟨rfl, rfl⟩)
          · exact .inl ⟨rfl, rfl⟩
          · exact .inr (.inr ⟨away, member⟩)

theorem groups_insert :
    ∀ {known : ι}, known ∈ (insert group item table).map Prod.fst ↔
      known = group ∨ known ∈ table.map Prod.fst := by
  induction table with
  | nil => simp [insert]
  | cons entry table ih =>
      intro known
      rw [insert]
      split
      · next same => simp [← same]
      · rw [List.map_cons, List.mem_cons, ih, List.map_cons, List.mem_cons]
        exact or_left_comm

theorem nodup_insert (nodup : (table.map Prod.fst).Nodup) :
    ((insert group item table).map Prod.fst).Nodup := by
  induction table with
  | nil => simp [insert]
  | cons entry table ih =>
      rw [List.map_cons, List.nodup_cons] at nodup
      rw [insert]
      split
      · next same =>
        rw [List.map_cons, List.nodup_cons]
        exact ⟨same ▸ nodup.1, nodup.2⟩
      · next different =>
        rw [List.map_cons, List.nodup_cons, groups_insert, not_or]
        exact ⟨⟨different, nodup.1⟩, ih nodup.2⟩

theorem lookup_cons {known : ι} {old : α} :
    ((known, old) :: table).lookup other =
      if other = known then some old else table.lookup other := by
  rw [List.lookup_cons]
  by_cases here : other = known
  · simp [here]
  · simp only [beq_false_of_ne here, if_neg here]

theorem lookup_insert :
    (insert group item table).lookup other =
      if other = group then some item else table.lookup other := by
  induction table with
  | nil => rw [insert, lookup_cons]
  | cons entry table ih =>
      obtain ⟨known, old⟩ := entry
      rw [insert]
      split
      · next same =>
        obtain rfl : known = group := same
        rw [lookup_cons, lookup_cons]
        split <;> rfl
      · next different =>
        obtain different : known ≠ group := different
        rw [lookup_cons, lookup_cons, ih]
        by_cases here : other = known
        · simp [here, different]
        · simp [here]

variable [LinearOrder κ] (key : α → κ)

/-- Keep an item when its group has none yet, or one with a smaller key. -/
def advance (table : List (ι × α)) (group : ι) (item : α) : List (ι × α) :=
  if (table.lookup group).all (fun existing => key existing < key item) then
    insert group item table
  else table

/-- What a table holds after some entries: of each group one of its items, and none of its
items has a greater key. -/
structure Holds (entries table : List (ι × α)) : Prop where
  groups : (table.map Prod.fst).Nodup
  among : ∀ entry ∈ table, entry ∈ entries
  reached : ∀ entry ∈ entries, ∃ kept, (entry.1, kept) ∈ table ∧ key entry.2 ≤ key kept

variable {key} {entries : List (ι × α)}

namespace Holds

omit [DecidableEq ι] in
theorem nil : Holds key ([] : List (ι × α)) [] :=
  ⟨List.nodup_nil, by simp, by simp⟩

omit [DecidableEq ι] in
theorem unique (h : Holds key entries table) {y : α} (first : (group, x) ∈ table)
    (second : (group, y) ∈ table) : x = y := by
  have same := List.inj_on_of_nodup_map h.groups first second rfl
  exact (Prod.mk.inj same).2

omit [DecidableEq ι] in
theorem greatest (h : Holds key entries table) (kept : (group, x) ∈ table)
    (there : (group, item) ∈ entries) : key item ≤ key x := by
  obtain ⟨y, member, below⟩ := h.reached _ there
  rwa [h.unique kept member]

omit [DecidableEq ι] in
/-- An item is kept when no other item of its group has its key or a greater one. -/
theorem kept (h : Holds key entries table) (there : (group, item) ∈ entries)
    (latest : ∀ y, (group, y) ∈ entries → key item ≤ key y → y = item) :
    (group, item) ∈ table := by
  obtain ⟨y, member, below⟩ := h.reached _ there
  rwa [← latest y (h.among _ member) below]

theorem advance (h : Holds key entries table) (group : ι) (item : α) :
    Holds key (entries ++ [(group, item)]) (advance key table group item) := by
  have among : ∀ entry ∈ table, entry ∈ entries ++ [(group, item)] := fun entry member =>
    List.mem_append_left _ (h.among entry member)
  rw [Newest.advance]
  split
  · next newer =>
    refine ⟨nodup_insert h.groups, ?_, ?_⟩
    · rintro ⟨other, x⟩ member
      obtain ⟨rfl, rfl⟩ | ⟨_, member⟩ := (mem_insert h.groups).mp member
      · simp
      · exact among _ member
    · rintro ⟨other, x⟩ member
      by_cases here : other = group
      · obtain rfl := here
        refine ⟨item, (mem_insert h.groups).mpr (.inl ⟨rfl, rfl⟩), ?_⟩
        obtain member | member := List.mem_append.mp member
        · obtain ⟨y, stored, below⟩ := h.reached _ member
          have found : table.lookup other = some y :=
            (OrderedMap.lookup_eq_some h.groups).mpr stored
          rw [found, Option.all_some, decide_eq_true_iff] at newer
          exact below.trans newer.le
        · simp only [List.mem_singleton, Prod.mk.injEq, true_and] at member
          exact le_of_eq (congrArg key member)
      · obtain member | member := List.mem_append.mp member
        · obtain ⟨y, stored, below⟩ := h.reached _ member
          exact ⟨y, (mem_insert h.groups).mpr (.inr ⟨here, stored⟩), below⟩
        · simp only [List.mem_singleton, Prod.mk.injEq] at member
          exact absurd member.1 here
  · next older =>
    refine ⟨h.groups, among, ?_⟩
    rintro ⟨other, x⟩ member
    obtain member | member := List.mem_append.mp member
    · exact h.reached _ member
    · simp only [List.mem_singleton, Prod.mk.injEq] at member
      obtain ⟨rfl, rfl⟩ := member
      cases found : table.lookup other with
      | none => simp [found] at older
      | some y =>
          simp only [found, Option.all_some, decide_eq_true_iff, not_lt] at older
          exact ⟨y, (OrderedMap.lookup_eq_some h.groups).mp found, older⟩

/-- The loop over some entries. -/
theorem foldl (h : Holds key entries table) (more : List (ι × α)) :
    Holds key (entries ++ more)
      (more.foldl (fun table entry => Newest.advance key table entry.1 entry.2) table) := by
  induction more generalizing entries table with
  | nil => simpa using h
  | cons entry more ih =>
      have next := ih (h.advance entry.1 entry.2)
      rwa [List.append_assoc, List.singleton_append] at next

end Holds

/-! ## One group

Two loops that keep the newest item of a list, and agree on it when no two items have one
key: replacing a best item on the way, and sorting the list and taking the last. -/

omit [DecidableEq ι] in
/-- An item of a list that none of its items exceeds. -/
structure Greatest (key : α → κ) (items : List α) (x : α) : Prop where
  among : x ∈ items
  greatest : ∀ y ∈ items, key y ≤ key x

/-- Keep an item when there is none yet, or one with a smaller key. -/
def later (key : α → κ) (best : Option α) (x : α) : Option α :=
  if best.all (fun existing => key existing < key x) then some x else best

namespace Greatest

variable {items items' : List α} {y : α}

theorem unique (first : Greatest key items x) (second : Greatest key items y)
    (distinct : ∀ x ∈ items, ∀ y ∈ items, key x = key y → x = y) : x = y :=
  distinct x first.among y second.among
    (le_antisymm (second.greatest x first.among) (first.greatest y second.among))

theorem perm (h : Greatest key items x) (same : items.Perm items') : Greatest key items' x :=
  ⟨same.mem_iff.mp h.among, fun y member => h.greatest y (same.mem_iff.mpr member)⟩

theorem later_spec {best : Option α} (h : ∀ y, best = some y → Greatest key items y)
    (none : best = none → items = []) :
    ∃ y, later key best x = some y ∧ Greatest key (items ++ [x]) y := by
  unfold later
  cases best with
  | none =>
      obtain rfl := none rfl
      exact ⟨x, rfl, by simp, by simp⟩
  | some old =>
      obtain ⟨among, greatest⟩ := h old rfl
      by_cases newer : key old < key x
      · refine ⟨x, by simp [newer], by simp, fun y member => ?_⟩
        obtain there | here := List.mem_append.mp member
        · exact (greatest y there).trans newer.le
        · rw [List.mem_singleton.mp here]
      · refine ⟨old, by simp [newer], by simp [among], fun y member => ?_⟩
        obtain there | here := List.mem_append.mp member
        · exact greatest y there
        · rw [List.mem_singleton.mp here]
          exact not_lt.mp newer

/-- The loop that replaces keeps the greatest of its items. -/
theorem foldl_later (items : List α) :
    (items.foldl (later key) none = none → items = []) ∧
      ∀ y, items.foldl (later key) none = some y → Greatest key items y := by
  induction items using List.reverseRecOn with
  | nil => exact ⟨fun _ => rfl, nofun⟩
  | append_singleton items x ih =>
      obtain ⟨y, found, greatest⟩ := later_spec (x := x) ih.2 ih.1
      rw [List.foldl_append, List.foldl_cons, List.foldl_nil, found]
      exact ⟨nofun, fun z same => Option.some.inj same ▸ greatest⟩

/-- The order of the items does not matter when no two have one key. -/
theorem foldl_later_perm (same : items.Perm items')
    (distinct : ∀ x ∈ items, ∀ y ∈ items, key x = key y → x = y) :
    items.foldl (later key) none = items'.foldl (later key) none := by
  obtain ⟨empty, greatest⟩ := @foldl_later _ _ _ key items
  obtain ⟨empty', greatest'⟩ := @foldl_later _ _ _ key items'
  cases first : items.foldl (later key) none with
  | none =>
      obtain rfl : items' = [] := List.nil_perm.mp (empty first ▸ same)
      rfl
  | some x =>
      cases second : items'.foldl (later key) none with
      | none =>
          obtain rfl : items = [] := List.perm_nil.mp (empty' second ▸ same)
          cases first
      | some y => rw [(greatest x first).unique ((greatest' y second).perm same.symm) distinct]

/-- The last of the sorted items is the greatest. -/
theorem getLast_mergeSort {order : α → α → Bool}
    (ordered : ∀ a ∈ items, ∀ b ∈ items, order a b = decide (key a ≤ key b))
    (last : (items.mergeSort order).getLast? = some x) : Greatest key items x := by
  have member :
      x ∈ items := (List.mergeSort_perm items order).mem_iff.mp (List.mem_of_getLast? last)
  refine ⟨member, fun y there => ?_⟩
  have keys :
      (items.mergeSort order).map key = (items.map key).mergeSort (fun a b => decide (a ≤ b)) :=
    List.map_mergeSort ordered
  have sorted : ((items.map key).mergeSort fun a b => decide (a ≤ b)).Pairwise _ :=
    List.pairwise_mergeSort (fun a b c => by simpa using le_trans)
      (fun a b => by simpa using le_total a b) _
  rw [← keys, List.pairwise_map] at sorted
  obtain ⟨front, split⟩ := List.getLast?_eq_some_iff.mp last
  have there : y ∈ items.mergeSort order := (List.mergeSort_perm items order).mem_iff.mpr there
  rw [split] at sorted there
  obtain before | rfl := (List.mem_append.mp there).imp_right List.mem_singleton.mp
  · exact of_decide_eq_true ((List.pairwise_append.mp sorted).2.2 y before x (by simp))
  · exact le_rfl

end Greatest

end Newest
