import Mathlib.Data.List.Rotate
import OneOS.Foundation.Arrays
import OneOS.Foundation.Ring
import OneOS.Foundation.Slots
import OneOS.Foundation.Table

/-!
# Tables stored in an array

A table is stored in an array of which the first so many rows are in use, and it is read as the list
of these rows (`firstOf`). The loops of the modelled components work on the array: they change the
first row in use that passes a test (`updateSlot`), change every row in use (`mapSlots`), move the
rows that are to stay to the front, one after the other and over what stood there (`compact`), or
move the rows behind one that is removed down by one (`closeGap`).

Each loop is related to what it does to the list: `firstOf_updateSlot`, `firstOf_mapSlots`,
`firstOf_compact` and `firstOf_closeGap`. None of them writes behind the rows in use. Going once
around the rows in use, from anywhere, meets each of them once (`ringOf_perm_firstOf`).
-/

set_option autoImplicit false
set_option relaxedAutoImplicit false

namespace OneOS.Foundation

variable {Row : Type*} {test keep : Row → Bool} {change : Row → Row} {count i : ℕ} {rows : ℕ → Row}

theorem firstOf_succ : firstOf rows (count + 1) = firstOf rows count ++ [rows count] := by
  rw [firstOf, List.range_succ, List.map_append, List.map_singleton, firstOf]

/-! ### The first row that passes a test -/

/-- The search in the array and the search in the list find the same row. -/
theorem find?_firstOf :
    (firstOf rows count).find? test = (firstSlot test count rows).map rows := by
  rw [firstOf, List.find?_map, firstSlot]
  rfl

/-- Change the first row in use that passes a test. -/
def updateSlot (test : Row → Bool) (change : Row → Row) (count : ℕ) (rows : ℕ → Row) : ℕ → Row :=
  match firstSlot test count rows with
  | none => rows
  | some i => Function.update rows i (change (rows i))

/-- The rows behind those in use are left as they are. -/
theorem updateSlot_of_le (hbehind : count ≤ i) : updateSlot test change count rows i = rows i := by
  rw [updateSlot]
  cases hfind : firstSlot test count rows with
  | none => rfl
  | some found =>
    have hused := (firstSlot_spec hfind).1
    exact Function.update_of_ne (by omega) _ _

theorem firstOf_updateSlot :
    firstOf (updateSlot test change count rows) count =
      updateFirst test change (firstOf rows count) := by
  rw [updateSlot, updateFirst]
  cases hfind : firstSlot test count rows with
  | none =>
    have hnone : ∀ row ∈ firstOf rows count, test row = false := by
      intro row hrow
      obtain ⟨i, hi, rfl⟩ := mem_firstOf.mp hrow
      exact firstSlot_eq_none_iff.mp hfind i hi
    rw [List.findIdx_eq_length_of_false hnone]
    exact (List.modify_eq_self (Nat.le_refl _)).symm
  | some found =>
    obtain ⟨hfound, htest⟩ := firstSlot_spec hfind
    have hindex : (firstOf rows count).findIdx test = found := by
      rw [List.findIdx_eq (by simpa using hfound)]
      obtain ⟨-, hbefore⟩ := List.find?_range_eq_some.mp hfind
      simp only [firstOf, List.getElem_map, List.getElem_range]
      exact ⟨htest, fun j hj ↦ by simpa using hbefore.2 j hj⟩
    rw [hindex]
    refine List.ext_getElem (by simp) fun j hj _ ↦ ?_
    rw [List.getElem_modify]
    simp only [firstOf, List.getElem_map, List.getElem_range, Function.update_apply]
    by_cases hsame : found = j
    · rw [if_pos hsame.symm, if_pos hsame, hsame]
    · rw [if_neg (Ne.symm hsame), if_neg hsame]

/-! ### Every row -/

/-- Change every row in use. -/
def mapSlots (change : Row → Row) (count : ℕ) (rows : ℕ → Row) : ℕ → Row :=
  fun i ↦ if i < count then change (rows i) else rows i

theorem mapSlots_of_le (hbehind : count ≤ i) : mapSlots change count rows i = rows i :=
  if_neg (Nat.not_lt.mpr hbehind)

theorem firstOf_mapSlots :
    firstOf (mapSlots change count rows) count = (firstOf rows count).map change := by
  rw [firstOf, firstOf, List.map_map]
  exact List.map_congr_left fun i hi ↦ if_pos (List.mem_range.mp hi)

/-- The rows are changed one after the other. -/
theorem update_mapSlots :
    Function.update (mapSlots change count rows) count (change (rows count)) =
      mapSlots change (count + 1) rows := by
  funext i
  by_cases hrow : i = count
  · rw [hrow, Function.update_self, mapSlots, if_pos (Nat.lt_succ_self count)]
  · rw [Function.update_of_ne hrow, mapSlots, mapSlots]
    exact if_congr (by omega) rfl rfl

/-! ### Moving rows to the front -/

/-- One round of the loop that moves the rows to keep to the front: the array and the number of rows
that were moved. -/
def compactRound (keep : Row → Bool) (moved : (ℕ → Row) × ℕ) (i : ℕ) : (ℕ → Row) × ℕ :=
  if keep (moved.1 i) then (Function.update moved.1 moved.2 (moved.1 i), moved.2 + 1) else moved

/-- Move the rows to keep to the front, in order. -/
def compact (keep : Row → Bool) (count : ℕ) (rows : ℕ → Row) : (ℕ → Row) × ℕ :=
  (List.range count).foldl (compactRound keep) (rows, 0)

/-- One round of a loop that also changes each row that it moves. -/
def compactWithRound (keep : Row → Bool) (change : Row → Row) (moved : (ℕ → Row) × ℕ) (i : ℕ) :
    (ℕ → Row) × ℕ :=
  if keep (moved.1 i) then (Function.update moved.1 moved.2 (change (moved.1 i)), moved.2 + 1)
  else moved

/-- Move the rows to keep to the front, in order, and change each of them. -/
def compactWith (keep : Row → Bool) (change : Row → Row) (count : ℕ) (rows : ℕ → Row) :
    (ℕ → Row) × ℕ :=
  (List.range count).foldl (compactWithRound keep change) (rows, 0)

theorem compactWith_succ :
    compactWith keep change (count + 1) rows =
      compactWithRound keep change (compactWith keep change count rows) count := by
  rw [compactWith, List.range_succ, List.foldl_append]
  rfl

/-- After so many rounds the rows at the front are those to keep of the rows that were looked at,
changed, and the rows that are still to be looked at are in their place. -/
theorem compactWith_spec (keep : Row → Bool) (change : Row → Row) (count : ℕ) (rows : ℕ → Row) :
    firstOf (compactWith keep change count rows).1 (compactWith keep change count rows).2 =
        ((firstOf rows count).filter keep).map change ∧
      (compactWith keep change count rows).2 ≤ count ∧
        ∀ i, count ≤ i → (compactWith keep change count rows).1 i = rows i := by
  induction count with
  | zero => exact ⟨rfl, Nat.le_refl 0, fun _ _ ↦ rfl⟩
  | succ count ih =>
    obtain ⟨hfront, hmoved, hbehind⟩ := ih
    have hrow := hbehind count (Nat.le_refl count)
    rw [compactWith_succ, compactWithRound, hrow, firstOf_succ, List.filter_append]
    by_cases hkeep : keep (rows count) = true
    · rw [if_pos hkeep, firstOf_update_succ, hfront, List.filter_singleton, hkeep, List.map_append]
      refine ⟨rfl, Nat.succ_le_succ hmoved, fun i hi ↦ ?_⟩
      dsimp only
      rw [Function.update_of_ne (by omega)]
      exact hbehind i (by omega)
    · rw [Bool.not_eq_true] at hkeep
      rw [if_neg (by simp [hkeep]), List.filter_singleton, hkeep, hfront]
      refine ⟨(congrArg (List.map change) (List.append_nil _)).symm, Nat.le_succ_of_le hmoved,
        fun i hi ↦ ?_⟩
      exact hbehind i (by omega)

/-- Moving the rows to keep to the front, changed, leaves exactly these rows, in their order. -/
theorem firstOf_compactWith :
    firstOf (compactWith keep change count rows).1 (compactWith keep change count rows).2 =
      ((firstOf rows count).filter keep).map change :=
  (compactWith_spec keep change count rows).1

/-- After so many rounds the rows at the front are those to keep of the rows that were looked at,
and the rows that are still to be looked at are in their place. -/
theorem compact_spec (keep : Row → Bool) (count : ℕ) (rows : ℕ → Row) :
    firstOf (compact keep count rows).1 (compact keep count rows).2 =
        (firstOf rows count).filter keep ∧
      (compact keep count rows).2 ≤ count ∧
        ∀ i, count ≤ i → (compact keep count rows).1 i = rows i := by
  have hspec := compactWith_spec keep id count rows
  rw [List.map_id] at hspec
  exact hspec

/-- Moving the rows to keep to the front leaves exactly these rows, in their order. -/
theorem firstOf_compact :
    firstOf (compact keep count rows).1 (compact keep count rows).2 =
      (firstOf rows count).filter keep :=
  (compact_spec keep count rows).1

/-! ### Removing one row -/

/-- Move the rows behind one of those in use down by one. -/
def closeGap (i count : ℕ) (rows : ℕ → Row) : ℕ → Row :=
  fun k ↦ if i ≤ k ∧ k + 1 < count then rows (k + 1) else rows k

/-- Closing a gap removes the row that stood there from the list. -/
theorem firstOf_closeGap (hrow : i < count) :
    firstOf (closeGap i count rows) (count - 1) = (firstOf rows count).eraseIdx i := by
  refine List.ext_getElem ?_ fun k hk _ ↦ ?_
  · rw [length_firstOf, List.length_eraseIdx_of_lt (by simpa using hrow), length_firstOf]
  · rw [length_firstOf] at hk
    rw [List.getElem_eraseIdx]
    simp only [firstOf, List.getElem_map, List.getElem_range, closeGap]
    by_cases hbefore : k < i
    · rw [dif_pos hbefore, if_neg (by omega)]
    · rw [dif_neg hbefore, if_pos (by omega)]

/-! ### Going around -/

/-- Going once around the rows in use meets each of them once. -/
theorem ringOf_perm_firstOf (start : ℕ) :
    (ringOf rows count start count).Perm (firstOf rows count) := by
  have hrotate : ringOf rows count start count = (firstOf rows count).rotate start := by
    refine List.ext_getElem (by simp) fun k hk _ ↦ ?_
    rw [List.getElem_rotate]
    simp only [ringOf, firstOf, List.getElem_map, List.getElem_range, List.length_map,
      List.length_range, Nat.add_comm k]
  rw [hrotate]
  exact List.rotate_perm _ _

end OneOS.Foundation
