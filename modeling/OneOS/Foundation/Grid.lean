import Mathlib.Data.List.Basic

/-!
# Rows of cells

A grid is a list of rows of cells, and a place in it is a row and a column. Cells are looked at row
by row, and a search returns the place of the first cell that passes a test (`firstPlace`). A cell
is read and changed at its place (`cellAt`, `changeAt`).
-/

set_option autoImplicit false
set_option relaxedAutoImplicit false

namespace OneOS.Foundation

variable {Cell : Type*}

/-- The cell at a place. -/
def cellAt (grid : List (List Cell)) (place : ℕ × ℕ) : Option Cell :=
  grid[place.1]?.bind fun row ↦ row[place.2]?

/-- Change the cell at a place. -/
def changeAt (grid : List (List Cell)) (place : ℕ × ℕ) (change : Cell → Cell) : List (List Cell) :=
  grid.modify place.1 fun row ↦ row.modify place.2 change

/-- The place of the first cell that passes a test. -/
def firstPlace (test : Cell → Bool) : List (List Cell) → Option (ℕ × ℕ)
  | [] => none
  | row :: rows =>
    match row.findIdx? test with
    | some column => some (0, column)
    | none => (firstPlace test rows).map fun place ↦ (place.1 + 1, place.2)

variable {grid : List (List Cell)} {place other : ℕ × ℕ} {cell : Cell} {test : Cell → Bool}

theorem cellAt_eq_some_iff :
    cellAt grid place = some cell ↔
      ∃ row, grid[place.1]? = some row ∧ row[place.2]? = some cell :=
  Option.bind_eq_some_iff

/-- A change at one place leaves all others. -/
theorem cellAt_changeAt (change : Cell → Cell) :
    cellAt (changeAt grid place change) other =
      if other = place then (cellAt grid other).map change else cellAt grid other := by
  rw [cellAt, changeAt, List.getElem?_modify]
  by_cases hrow : place.1 = other.1
  · cases hfound : grid[other.1]? with
    | none => simp [cellAt, hfound]
    | some row =>
      by_cases hcolumn : place.2 = other.2
      · have hsame : other = place := Prod.ext hrow.symm hcolumn.symm
        simp [cellAt, hfound, hrow, hcolumn, hsame]
      · have hother : other ≠ place := fun hsame ↦ hcolumn (congrArg Prod.snd hsame).symm
        simp [cellAt, hfound, hrow, hcolumn, hother]
  · have hother : other ≠ place := fun hsame ↦ hrow (congrArg Prod.fst hsame).symm
    simp [cellAt, hrow, hother]

/-- Two changes at one place are one. -/
theorem changeAt_changeAt (first second : Cell → Cell) :
    changeAt (changeAt grid place first) place second =
      changeAt grid place fun cell ↦ second (first cell) := by
  rw [changeAt, changeAt, List.modify_modify_eq]
  exact congrArg (grid.modify place.1) (funext fun row ↦ List.modify_modify_eq first second _ row)

/-- A change of all cells of one row. -/
theorem cellAt_modify_map (i : ℕ) (change : Cell → Cell) :
    cellAt (grid.modify i fun row ↦ row.map change) place =
      if place.1 = i then (cellAt grid place).map change else cellAt grid place := by
  rw [cellAt, List.getElem?_modify]
  by_cases hrow : i = place.1
  · cases hfound : grid[place.1]? with
    | none => simp [cellAt, hfound]
    | some row => simp [cellAt, hfound, hrow]
  · simp [cellAt, hrow, Ne.symm hrow]

/-- The cell that a search finds passes the test. -/
theorem cellAt_of_firstPlace (hfirst : firstPlace test grid = some place) :
    ∃ cell, cellAt grid place = some cell ∧ test cell = true := by
  induction grid generalizing place with
  | nil => simp [firstPlace] at hfirst
  | cons row rows ih =>
    unfold firstPlace at hfirst
    split at hfirst
    · next column hcolumn =>
      obtain ⟨hlt, hpasses, -⟩ := List.findIdx?_eq_some_iff_getElem.mp hcolumn
      obtain rfl := Option.some.inj hfirst
      exact ⟨row[column], by simp [cellAt, hlt], hpasses⟩
    · obtain ⟨later, hlater, rfl⟩ := Option.map_eq_some_iff.mp hfirst
      obtain ⟨cell, hcell, hpasses⟩ := ih hlater
      exact ⟨cell, by simpa [cellAt] using hcell, hpasses⟩

/-- A search finds nothing exactly when no cell passes the test. -/
theorem firstPlace_eq_none_iff :
    firstPlace test grid = none ↔
      ∀ place cell, cellAt grid place = some cell → test cell = false := by
  constructor
  · intro hnone
    induction grid with
    | nil => simp [cellAt]
    | cons row rows ih =>
      unfold firstPlace at hnone
      split at hnone
      · exact absurd hnone (Option.some_ne_none _)
      · next hrow =>
        rintro ⟨i, j⟩ cell hcell
        cases i with
        | zero =>
          have hmem : cell ∈ row := List.mem_of_getElem? (by simpa [cellAt] using hcell)
          exact List.findIdx?_eq_none_iff.mp hrow cell hmem
        | succ i =>
          refine ih (Option.map_eq_none_iff.mp hnone) (i, j) cell ?_
          simpa [cellAt] using hcell
  · intro hall
    cases hfirst : firstPlace test grid with
    | none => rfl
    | some place =>
      obtain ⟨cell, hcell, hpasses⟩ := cellAt_of_firstPlace hfirst
      rw [hall place cell hcell] at hpasses
      exact absurd hpasses Bool.false_ne_true

end OneOS.Foundation
