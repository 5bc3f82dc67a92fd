import Mathlib

/-!
# Tables

A table is the list of its rows. Rows are added and changed but never removed, so a
row is known by its place. What a statement does to a table is said place by place:
`rows[i]?` after it in terms of `rows[i]?` before it.
-/

namespace Table

variable {ρ : Type}

/-- The rows that satisfy a condition, with their places. -/
def select (rows : List ρ) (p : ρ → Bool) : List (Nat × ρ) :=
  (rows.zipIdx.filter fun entry => p entry.1).map fun entry => (entry.2, entry.1)

/-- The first of them. -/
def first (rows : List ρ) (p : ρ → Bool) : Option (Nat × ρ) := (select rows p).head?

/-- Change the rows that satisfy a condition. -/
def update (rows : List ρ) (p : ρ → Bool) (f : ρ → ρ) : List ρ :=
  rows.map fun row => if p row then f row else row

/-- Write a row at a place of the table, or at its end. -/
def put (rows : List ρ) (i : Nat) (row : ρ) : List ρ := rows.take i ++ row :: rows.drop (i + 1)

variable {rows : List ρ} {p : ρ → Bool} {f : ρ → ρ} {i j : Nat} {row : ρ}

theorem mem_select : (i, row) ∈ select rows p ↔ rows[i]? = some row ∧ p row = true := by
  simp only [select, List.mem_map, List.mem_filter, Prod.exists, Prod.mk.injEq]
  constructor
  · rintro ⟨row', i', ⟨member, holds⟩, rfl, rfl⟩
    exact ⟨List.mem_zipIdx_iff_getElem?.mp member, holds⟩
  · rintro ⟨found, holds⟩
    exact ⟨row, i, ⟨List.mem_zipIdx_iff_getElem?.mpr found, holds⟩, rfl, rfl⟩

theorem select_places_nodup : ((select rows p).map Prod.fst).Nodup := by
  have whole : (rows.zipIdx.map Prod.snd).Nodup := by
    rw [List.zipIdx_map_snd]
    exact List.nodup_range'
  have part := (List.filter_sublist (l := rows.zipIdx) (p := fun entry => p entry.1)).map Prod.snd
  simpa [select, Function.comp_def] using part.nodup whole

theorem select_nodup : (select rows p).Nodup := select_places_nodup.of_map _

theorem first_eq_some (h : first rows p = some (i, row)) : rows[i]? = some row ∧ p row = true :=
  mem_select.mp (List.mem_of_head? h)

theorem first_eq_none (h : first rows p = none) (found : rows[i]? = some row) : p row = false := by
  have empty : select rows p = [] := List.head?_eq_none_iff.mp h
  cases holds : p row with
  | false => rfl
  | true =>
      have member : (i, row) ∈ select rows p := mem_select.mpr ⟨found, holds⟩
      rw [empty] at member
      cases member

@[simp] theorem getElem?_update :
    (update rows p f)[i]? = (rows[i]?).map fun row => if p row then f row else row := by
  rw [update, List.getElem?_map]

theorem getElem?_put (h : i ≤ rows.length) :
    (put rows i row)[j]? = if j = i then some row else rows[j]? := by
  have taken : (rows.take i).length = i := List.length_take_of_le h
  rcases lt_trichotomy j i with less | same | more
  · rw [put, List.getElem?_append_left (by omega), List.getElem?_take_of_lt less]
    simp [less.ne]
  · subst same
    rw [put, List.getElem?_append_right (by omega), taken]
    simp
  · rw [put, List.getElem?_append_right (by omega), taken]
    obtain ⟨k, rfl⟩ : ∃ k, j = i + 1 + k := ⟨j - (i + 1), by omega⟩
    rw [show i + 1 + k - i = k + 1 by omega, List.getElem?_cons_succ, List.getElem?_drop]
    simp [show i + 1 + k ≠ i by omega]

theorem length_le_put (h : i ≤ rows.length) : rows.length ≤ (put rows i row).length := by
  simp only [put, List.length_append, List.length_take, List.length_cons, List.length_drop]
  omega

theorem put_put {row' : ρ} (h : i ≤ rows.length) :
    put (put rows i row) i row' = put rows i row' := by
  apply List.ext_getElem?
  intro j
  rw [getElem?_put (h.trans (length_le_put h)), getElem?_put h, getElem?_put h]
  split <;> rfl

theorem lt_length (h : rows[i]? = some row) : i < rows.length := (List.getElem?_eq_some_iff.mp h).1

/-- The row that was written over another. -/
theorem put_here {row' : ρ} (found : rows[i]? = some row) : (put rows i row')[i]? = some row' := by
  rw [getElem?_put (lt_length found).le, if_pos rfl]

theorem put_self (found : rows[i]? = some row) : put rows i row = rows := by
  apply List.ext_getElem?
  intro j
  rw [getElem?_put (lt_length found).le]
  split
  · next same => rw [same, found]
  · rfl

/-- A change of the one row that satisfies the condition. -/
theorem update_eq_put (found : rows[i]? = some row) (holds : p row = true)
    (only : ∀ j row', rows[j]? = some row' → p row' = true → j = i) :
    update rows p f = put rows i (f row) := by
  apply List.ext_getElem?
  intro j
  rw [getElem?_update, getElem?_put (lt_length found).le]
  split
  · next same =>
      subst same
      simp [found, holds]
  · next different =>
      cases there : rows[j]? with
      | none => rfl
      | some row' =>
          have fails : p row' = false :=
            Bool.eq_false_iff.mpr fun holds' => different (only j row' there holds')
          simp [fails]

/-- The one row that satisfies the condition. -/
theorem select_eq_singleton (found : rows[i]? = some row) (holds : p row = true)
    (only : ∀ j row', rows[j]? = some row' → p row' = true → j = i) :
    select rows p = [(i, row)] := by
  have nodup : (select rows p).Nodup := select_nodup
  have all : ∀ entry ∈ select rows p, entry = (i, row) := by
    rintro ⟨j, row'⟩ member
    obtain ⟨there, holds'⟩ := mem_select.mp member
    have same := only j row' there holds'
    subst same
    rw [found] at there
    rw [Option.some.inj there]
  have here : (i, row) ∈ select rows p := mem_select.mpr ⟨found, holds⟩
  have copies : select rows p = List.replicate (select rows p).length (i, row) :=
    List.eq_replicate_of_mem all
  have short : (select rows p).length ≤ 1 := by
    rw [copies] at nodup
    exact List.nodup_replicate.mp nodup
  have long := List.length_pos_of_mem here
  rw [copies, show (select rows p).length = 1 by omega]
  rfl

theorem update_eq_self (none : ∀ (j : Nat) (row' : ρ), rows[j]? = some row' → p row' = false) :
    update rows p f = rows := by
  apply List.ext_getElem?
  intro j
  rw [getElem?_update]
  cases there : rows[j]? with
  | none => rfl
  | some row' => simp [none j row' there]

/-! ## Changing rows one after another -/

theorem foldl_put_of_notMem {entries : List (Nat × ρ)} {g : ρ → ρ}
    (places : ∀ entry ∈ entries, entry.1 < rows.length) (out : j ∉ entries.map Prod.fst) :
    (entries.foldl (fun rows entry => put rows entry.1 (g entry.2)) rows)[j]? = rows[j]? := by
  induction entries generalizing rows with
  | nil => rfl
  | cons entry entries ih =>
      have bound := places entry List.mem_cons_self
      simp only [List.map_cons, List.mem_cons, not_or] at out
      rw [List.foldl_cons, ih _ out.2, getElem?_put bound.le, if_neg out.1]
      intro other member
      exact (places other (List.mem_cons_of_mem _ member)).trans_le (length_le_put bound.le)

theorem foldl_put_of_mem {entries : List (Nat × ρ)} {g : ρ → ρ}
    (places : ∀ entry ∈ entries, entry.1 < rows.length) (nodup : (entries.map Prod.fst).Nodup)
    (member : (j, row) ∈ entries) :
    (entries.foldl (fun rows entry => put rows entry.1 (g entry.2)) rows)[j]? =
      some (g row) := by
  induction entries generalizing rows with
  | nil => cases member
  | cons entry entries ih =>
      have bound := places entry List.mem_cons_self
      have distinct := List.nodup_cons.mp nodup
      have places' : ∀ other ∈ entries, other.1 < (put rows entry.1 (g entry.2)).length :=
        fun other later =>
          (places other (List.mem_cons_of_mem _ later)).trans_le (length_le_put bound.le)
      rw [List.foldl_cons]
      rcases List.mem_cons.mp member with rfl | later
      · rw [foldl_put_of_notMem places' distinct.1, getElem?_put bound.le, if_pos rfl]
      · exact ih places' distinct.2 later

/-- Rows changed one after another are all changed. -/
theorem foldl_put_eq_update {entries : List (Nat × ρ)} {g : ρ → ρ}
    (perm : entries.Perm (select rows p)) :
    entries.foldl (fun rows entry => put rows entry.1 (g entry.2)) rows = update rows p g := by
  have places : ∀ entry ∈ entries, entry.1 < rows.length := fun entry member =>
    lt_length (mem_select.mp (perm.mem_iff.mp member)).1
  have nodup := (perm.map Prod.fst).nodup_iff.mpr select_places_nodup
  apply List.ext_getElem?
  intro j
  rw [getElem?_update]
  by_cases member : j ∈ entries.map Prod.fst
  · obtain ⟨⟨j', row'⟩, here, rfl⟩ := List.mem_map.mp member
    obtain ⟨found, holds⟩ := mem_select.mp (perm.mem_iff.mp here)
    rw [foldl_put_of_mem places nodup here, found, Option.map_some, if_pos holds]
  · rw [foldl_put_of_notMem places member]
    cases there : rows[j]? with
    | none => rfl
    | some row' =>
        rw [Option.map_some, if_neg]
        intro holds
        exact member (List.mem_map.mpr
          ⟨(j, row'), perm.mem_iff.mpr (mem_select.mpr ⟨there, holds⟩), rfl⟩)

/-- Updates that do not come back to a row they changed. -/
theorem foldl_update {σ : Type} {entries : List σ} {c : σ → ρ → Bool}
    (once : ∀ entry row, c entry (f row) = false) :
    entries.foldl (fun rows entry => update rows (c entry) f) rows =
      update rows (fun row => entries.any (c · row)) f := by
  induction entries generalizing rows with
  | nil => exact (update_eq_self fun _ _ _ => rfl).symm
  | cons entry entries ih =>
      rw [List.foldl_cons, ih]
      apply List.ext_getElem?
      intro j
      rw [getElem?_update, getElem?_update, getElem?_update, Option.map_map]
      congr 1
      funext row
      by_cases first : c entry row = true
      · simp [first, once]
      · simp [first]

/-! ## Tables row by row -/

/-- Two tables with the same places, whose rows are related. -/
def Rowwise (R : ρ → ρ → Prop) (rows rows' : List ρ) : Prop :=
  ∀ i : Nat, Option.Rel R rows[i]? rows'[i]?

namespace Rowwise

variable {R : ρ → ρ → Prop} {rows' : List ρ} {row' : ρ}

theorem refl (h : ∀ row, R row row) : Rowwise R rows rows := by
  intro i
  cases rows[i]? with
  | none => exact .none
  | some row => exact .some (h row)

theorem before (h : Rowwise R rows rows') (found : rows'[i]? = some row') :
    ∃ row, rows[i]? = some row ∧ R row row' := by
  have here := h i
  rw [found] at here
  cases there : rows[i]? with
  | none =>
      rw [there] at here
      cases here
  | some row =>
      rw [there] at here
      cases here with
      | some related => exact ⟨row, rfl, related⟩

theorem after (h : Rowwise R rows rows') (found : rows[i]? = some row) :
    ∃ row', rows'[i]? = some row' ∧ R row row' := by
  have here := h i
  rw [found] at here
  cases there : rows'[i]? with
  | none =>
      rw [there] at here
      cases here
  | some row' =>
      rw [there] at here
      cases here with
      | some related => exact ⟨row', rfl, related⟩

theorem mono {S : ρ → ρ → Prop} (h : Rowwise R rows rows')
    (imp : ∀ row row', R row row' → S row row') : Rowwise S rows rows' := by
  intro i
  have here := h i
  generalize rows[i]? = old at here ⊢
  generalize rows'[i]? = new at here ⊢
  cases here with
  | none => exact .none
  | some related => exact .some (imp _ _ related)

theorem put (h : ∀ row, R row row) (found : rows[i]? = some row) (related : R row row') :
    Rowwise R rows (put rows i row') := by
  intro j
  rw [getElem?_put (lt_length found).le]
  split
  · next same =>
      subst same
      rw [found]
      exact .some related
  · exact refl h j

theorem update (h : ∀ row, p row = true → R row (f row)) (same : ∀ row, R row row) :
    Rowwise R rows (update rows p f) := by
  intro j
  rw [getElem?_update]
  cases rows[j]? with
  | none => exact .none
  | some row =>
      rw [Option.map_some]
      split
      · next holds => exact .some (h row holds)
      · exact .some (same row)

end Rowwise

/-- A table that has grown: every row is still there, and related to what it was. -/
def Extends (R : ρ → ρ → Prop) (rows rows' : List ρ) : Prop :=
  ∀ (i : Nat) (row : ρ), rows[i]? = some row → ∃ row', rows'[i]? = some row' ∧ R row row'

namespace Extends

variable {R : ρ → ρ → Prop} {rows' rows'' : List ρ} {row' : ρ}

theorem after (h : Extends R rows rows') (found : rows[i]? = some row) :
    ∃ row', rows'[i]? = some row' ∧ R row row' := h i row found

theorem refl (h : ∀ row, R row row) : Extends R rows rows := by
  intro i row found
  exact ⟨row, found, h row⟩

theorem trans (first : Extends R rows rows') (second : Extends R rows' rows'')
    (h : ∀ {a b c}, R a b → R b c → R a c) : Extends R rows rows'' := by
  intro i row found
  obtain ⟨row', found', related⟩ := first.after found
  obtain ⟨row'', found'', related'⟩ := second.after found'
  exact ⟨row'', found'', h related related'⟩

/-- A row is written where it fits the row that is there, or at the end. -/
theorem put (h : ∀ row, R row row) (place : i ≤ rows.length)
    (related : ∀ row, rows[i]? = some row → R row row') : Extends R rows (put rows i row') := by
  intro j row found
  rw [getElem?_put place]
  split
  · next same =>
      subst same
      exact ⟨row', rfl, related row found⟩
  · exact ⟨row, found, h row⟩

theorem put_found (h : ∀ row, R row row) (found : rows[i]? = some row) (related : R row row') :
    Extends R rows (Table.put rows i row') := by
  refine put h (lt_length found).le ?_
  intro other found'
  rw [found] at found'
  cases found'
  exact related

theorem put_end (h : ∀ row, R row row) : Extends R rows (Table.put rows rows.length row') := by
  refine put h le_rfl ?_
  intro row found
  exact absurd (lt_length found) (lt_irrefl _)

theorem update (same : ∀ row, R row row) (h : ∀ row, p row = true → R row (f row)) :
    Extends R rows (update rows p f) := by
  intro j row found
  rw [getElem?_update, found, Option.map_some]
  split
  · next holds => exact ⟨f row, rfl, h row holds⟩
  · exact ⟨row, rfl, same row⟩

end Extends

end Table
