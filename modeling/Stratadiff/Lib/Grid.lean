import Mathlib

/-!
# Tables with rows and columns

A table is a list of rows. `sweep` fills some of its cells one after the other, each with a
value that may depend on the table as it is. When no cell is written after it has been
read, every cell that was filled has in the end the value it would get from the final
table: the table satisfies its recurrence.
-/

namespace Grid

variable {α : Type} [Inhabited α]

/-- The value in row `i` and column `j`. -/
def entry (grid : List (List α)) (i j : Nat) : α := ((grid[i]?.getD [])[j]?).getD default

def put (grid : List (List α)) (i j : Nat) (value : α) : List (List α) :=
  grid.modify i (·.set j value)

def fill (rows columns : Nat) (value : α) : List (List α) :=
  List.replicate rows (List.replicate columns value)

/-- A table with a number of rows, each of one length. -/
structure Shape (grid : List (List α)) (rows columns : Nat) : Prop where
  rows : grid.length = rows
  columns : ∀ row ∈ grid, row.length = columns

variable {grid grid' : List (List α)} {rows columns : Nat}

omit [Inhabited α] in
theorem shape_fill {value : α} : Shape (fill rows columns value) rows columns where
  rows := List.length_replicate
  columns := by
    intro row member
    rw [List.eq_of_mem_replicate member, List.length_replicate]

theorem entry_fill {i j : Nat} : entry (fill rows columns (default : α)) i j = default := by
  simp only [entry, fill, List.getElem?_replicate]
  split
  · simp only [Option.getD_some, List.getElem?_replicate]
    split <;> rfl
  · rfl

omit [Inhabited α] in
theorem Shape.put {i j : Nat} {value : α} (shape : Shape grid rows columns) :
    Shape (put grid i j value) rows columns where
  rows := by rw [Grid.put, List.length_modify, shape.rows]
  columns := by
    intro row member
    obtain ⟨k, here⟩ := List.getElem?_of_mem member
    rw [Grid.put, List.getElem?_modify] at here
    obtain ⟨old, found, rfl⟩ := Option.map_eq_some_iff.mp here
    have length := shape.columns old (List.mem_of_getElem? found)
    split
    · simpa using length
    · exact length

theorem entry_put {i j a b : Nat} {value : α} (shape : Shape grid rows columns) (row : i < rows)
    (column : j < columns) :
    entry (put grid i j value) a b = if (a, b) = (i, j) then value else entry grid a b := by
  have inside : i < grid.length := by rw [shape.rows]; exact row
  have width := shape.columns grid[i] (List.getElem_mem inside)
  simp only [entry, put, List.getElem?_modify, Prod.mk.injEq]
  by_cases sameRow : i = a
  · subst sameRow
    rw [List.getElem?_eq_getElem inside]
    by_cases sameColumn : j = b
    · subst sameColumn
      simp [width, column]
    · simp [List.getElem?_set_ne sameColumn, Ne.symm sameColumn]
  · have other : ¬ a = i := Ne.symm sameRow
    simp [sameRow, other]

/-- Writing a cell leaves every entry as it was, or makes it the value. -/
theorem entry_put_cases (grid : List (List α)) (i j a b : Nat) (value : α) :
    entry (put grid i j value) a b = entry grid a b ∨
      (a, b) = (i, j) ∧ entry (put grid i j value) a b = value := by
  simp only [entry, put, List.getElem?_modify]
  by_cases sameRow : i = a
  · subst sameRow
    cases row : grid[i]? with
    | none => exact .inl (by simp)
    | some cells =>
        by_cases sameColumn : j = b
        · subst sameColumn
          by_cases inside : j < cells.length
          · exact .inr (by simp [inside])
          · exact .inl (by simp [inside])
        · exact .inl (by simp [List.getElem?_set_ne sameColumn])
  · exact .inl (by simp [sameRow])

/-! ## Sweeps -/

/-- Fill the targets of some cells, in their order. -/
def sweep (target : Nat × Nat → Nat × Nat) (value : Nat × Nat → List (List α) → α)
    (grid : List (List α)) (cells : List (Nat × Nat)) : List (List α) :=
  cells.foldl (fun grid cell => put grid (target cell).1 (target cell).2 (value cell grid)) grid

section

variable {target : Nat × Nat → Nat × Nat} {value : Nat × Nat → List (List α) → α}
variable {reads : Nat × Nat → Nat × Nat → Prop} {cells : List (Nat × Nat)}

/-- No cell is written again after it was written or read. -/
structure Ordered (target : Nat × Nat → Nat × Nat) (reads : Nat × Nat → Nat × Nat → Prop)
    (cells : List (Nat × Nat)) : Prop where
  later : cells.Pairwise fun cell later => target later ≠ target cell ∧ ¬ reads cell (target later)
  own : ∀ cell ∈ cells, ¬ reads cell (target cell)

/-- The values depend on what they read. -/
def Reads (value : Nat × Nat → List (List α) → α) (reads : Nat × Nat → Nat × Nat → Prop) : Prop :=
  ∀ cell (grid grid' : List (List α)),
    (∀ place, reads cell place → entry grid place.1 place.2 = entry grid' place.1 place.2) →
      value cell grid = value cell grid'

theorem sweep_other (shape : Shape grid rows columns)
    (inside : ∀ cell ∈ cells, (target cell).1 < rows ∧ (target cell).2 < columns) {a b : Nat}
    (other : ∀ cell ∈ cells, target cell ≠ (a, b)) :
    entry (sweep target value grid cells) a b = entry grid a b := by
  induction cells generalizing grid with
  | nil => rfl
  | cons cell cells ih =>
      rw [sweep, List.foldl_cons]
      refine (ih shape.put (fun c member => inside c (List.mem_cons_of_mem _ member))
        (fun c member => other c (List.mem_cons_of_mem _ member))).trans ?_
      obtain ⟨row, column⟩ := inside cell (by simp)
      rw [entry_put shape row column, if_neg fun same => other cell (by simp) same.symm]

/-- A table that was swept in order satisfies its recurrence. -/
theorem sweep_recurrence (shape : Shape grid rows columns)
    (inside : ∀ cell ∈ cells, (target cell).1 < rows ∧ (target cell).2 < columns)
    (ordered : Ordered target reads cells) (depends : Reads value reads) :
    ∀ cell ∈ cells, entry (sweep target value grid cells) (target cell).1 (target cell).2 =
      value cell (sweep target value grid cells) := by
  induction cells generalizing grid with
  | nil => simp
  | cons first cells ih =>
      obtain ⟨later, rest⟩ := List.pairwise_cons.mp ordered.later
      have insideRest : ∀ cell ∈ cells, (target cell).1 < rows ∧ (target cell).2 < columns :=
        fun c member => inside c (List.mem_cons_of_mem _ member)
      have orderedRest : Ordered target reads cells :=
        ⟨rest, fun c member => ordered.own c (List.mem_cons_of_mem _ member)⟩
      intro cell member
      rcases List.mem_cons.mp member with rfl | there
      · obtain ⟨row, column⟩ := inside cell (by simp)
        rw [sweep, List.foldl_cons]
        refine (sweep_other shape.put insideRest fun c here => (later c here).1).trans ?_
        rw [entry_put shape row column, if_pos rfl]
        -- What the first cell read is the same in the end.
        refine depends cell _ _ fun place read => ?_
        refine ((sweep_other shape.put insideRest fun c here same => ?_).trans ?_).symm
        · exact (later c here).2 (same ▸ read)
        · rw [entry_put shape row column, if_neg]
          intro same
          have same : place = target cell := same
          exact ordered.own cell (by simp) (same ▸ read)
      · exact ih shape.put insideRest orderedRest cell there

end

/-! ## Cells row by row -/

/-- The cells of a number of rows and columns. -/
def cells (is js : List Nat) : List (Nat × Nat) := is.flatMap fun i => js.map fun j => (i, j)

theorem mem_cells {is js : List Nat} {i j : Nat} : (i, j) ∈ cells is js ↔ i ∈ is ∧ j ∈ js := by
  simp [cells]

/-- Two nested loops are one sweep. -/
theorem foldl_cells {β : Type} {step : β → Nat × Nat → β} {is js : List Nat} {init : β} :
    is.foldl (fun acc i => js.foldl (fun acc j => step acc (i, j)) acc) init =
      (cells is js).foldl step init := by
  rw [cells, List.foldl_flatMap]
  simp only [List.foldl_map]

/-- Rows in order, and in each row the columns in order. -/
theorem cells_pairwise {is js : List Nat} {rowOrder columnOrder : Nat → Nat → Prop}
    (rows : is.Pairwise rowOrder) (columns : js.Pairwise columnOrder) :
    (cells is js).Pairwise fun first second =>
      rowOrder first.1 second.1 ∨ first.1 = second.1 ∧ columnOrder first.2 second.2 := by
  rw [cells, List.pairwise_flatMap]
  constructor
  · intro i _
    rw [List.pairwise_map]
    exact columns.imp fun ordered => .inr ⟨rfl, ordered⟩
  · refine rows.imp fun ordered first here second there => ?_
    obtain ⟨_, _, rfl⟩ := List.mem_map.mp here
    obtain ⟨_, _, rfl⟩ := List.mem_map.mp there
    exact .inl ordered

end Grid
