import Mathlib.Data.List.Basic

/-!
# Blocks of an array

An array is a function of the index, of which the first elements are in use. A block is copied into
it (`copyAt`), or moved to its front over what stood there (`moveToFront`); both leave what is
stored outside the block.

What is in use is read as a list (`firstOf`): copying a block behind it appends the block, and
moving the rest of it to the front removes what stood before the rest.
-/

set_option autoImplicit false
set_option relaxedAutoImplicit false

namespace OneOS.Foundation

variable {Item : Type*}

/-- Copy the first `count` elements of `source` into the array, from index `start` on. -/
def copyAt (array : ℕ → Item) (start : ℕ) (source : ℕ → Item) (count : ℕ) : ℕ → Item :=
  fun i ↦ if start ≤ i ∧ i < start + count then source (i - start) else array i

/-- Move `count` elements of the array, from index `start` on, to its front. -/
def moveToFront (array : ℕ → Item) (start count : ℕ) : ℕ → Item :=
  fun i ↦ if i < count then array (start + i) else array i

/-- The first `count` elements of the array. -/
def firstOf (array : ℕ → Item) (count : ℕ) : List Item :=
  (List.range count).map array

variable {array source : ℕ → Item} {start count rest : ℕ}

@[simp] theorem firstOf_zero : firstOf array 0 = [] := rfl

@[simp] theorem length_firstOf : (firstOf array count).length = count := by
  rw [firstOf, List.length_map, List.length_range]

theorem mem_firstOf {item : Item} : item ∈ firstOf array count ↔ ∃ i < count, array i = item := by
  rw [firstOf, List.mem_map]
  simp only [List.mem_range]

/-- What is in use splits at any point. -/
theorem firstOf_add :
    firstOf array (start + rest) =
      firstOf array start ++ firstOf (fun i ↦ array (start + i)) rest := by
  rw [firstOf, List.range_add, List.map_append, List.map_map]
  rfl

/-- Two arrays that agree on what is in use have the same list. -/
theorem firstOf_congr {other : ℕ → Item} (hsame : ∀ i < count, array i = other i) :
    firstOf array count = firstOf other count :=
  List.map_congr_left fun i hi ↦ hsame i (List.mem_range.mp hi)

/-- Copying a block behind what is in use appends the block. -/
theorem firstOf_copyAt (array source : ℕ → Item) (start count : ℕ) :
    firstOf (copyAt array start source count) (start + count) =
      firstOf array start ++ firstOf source count := by
  rw [firstOf_add]
  congr 1
  · exact firstOf_congr fun i hi ↦ if_neg fun hblock ↦ absurd hblock.1 (Nat.not_le.mpr hi)
  · refine firstOf_congr fun i hi ↦ ?_
    rw [copyAt, if_pos ⟨Nat.le_add_right _ _, Nat.add_lt_add_left hi _⟩, Nat.add_sub_cancel_left]

/-- Moving the rest of what is in use to the front removes what stood before the rest. -/
theorem firstOf_moveToFront :
    firstOf array start ++ firstOf (moveToFront array start rest) rest =
      firstOf array (start + rest) := by
  rw [firstOf_add]
  congr 1
  exact firstOf_congr fun i hi ↦ if_pos hi

/-- A shorter list of what is in use is a first part of the longer one. -/
theorem firstOf_min : firstOf array (min start count) = (firstOf array count).take start := by
  rw [firstOf, firstOf, ← List.map_take, List.take_range]

/-- An element that is written behind what is in use is appended. -/
theorem firstOf_update_succ (item : Item) :
    firstOf (Function.update array count item) (count + 1) = firstOf array count ++ [item] := by
  rw [firstOf_add]
  congr 1
  · exact firstOf_congr fun i hi ↦ Function.update_of_ne (Nat.ne_of_lt hi) _ _
  · rw [firstOf, List.range_one, List.map_singleton, Nat.add_zero, Function.update_self]

end OneOS.Foundation
