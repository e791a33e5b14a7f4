import Mathlib.Data.List.Basic
import Mathlib.Data.List.Rotate
import Mathlib.Data.Nat.ModEq
import Mathlib.Logic.Function.Basic

/-!
# Ring buffers

A ring is an array of a given capacity of which a number of slots is in use, from the head on and
around the end of the array. What is in use is read as a list (`ringOf`), oldest first: writing the
slot behind it appends, and moving the head by one removes the first item.
-/

set_option autoImplicit false
set_option relaxedAutoImplicit false

namespace OneOS.Foundation

variable {Item : Type*}

/-- The items of a ring, from the head on. -/
def ringOf (slots : ℕ → Item) (capacity head count : ℕ) : List Item :=
  (List.range count).map fun i ↦ slots ((head + i) % capacity)

variable {slots : ℕ → Item} {capacity head count : ℕ}

@[simp] theorem length_ringOf : (ringOf slots capacity head count).length = count := by
  rw [ringOf, List.length_map, List.length_range]

/-- Two places of a ring that are less than its capacity apart are different. -/
theorem ring_place_ne {i j : ℕ} (hlt : i < j) (hroom : j < capacity) :
    (head + i) % capacity ≠ (head + j) % capacity := by
  intro hsame
  have hmod : i % capacity = j % capacity := Nat.ModEq.add_left_cancel' head hsame
  rw [Nat.mod_eq_of_lt (Nat.lt_trans hlt hroom), Nat.mod_eq_of_lt hroom] at hmod
  exact absurd hmod (Nat.ne_of_lt hlt)

/-- Writing a slot behind the items leaves them. -/
theorem ringOf_update (slots : ℕ → Item) (head : ℕ) (item : Item) {offset : ℕ}
    (hbehind : count ≤ offset) (hroom : offset < capacity) :
    ringOf (Function.update slots ((head + offset) % capacity) item) capacity head count =
      ringOf slots capacity head count := by
  refine List.map_congr_left fun i hi ↦ ?_
  have hlt : i < offset := Nat.lt_of_lt_of_le (List.mem_range.mp hi) hbehind
  exact Function.update_of_ne (ring_place_ne hlt hroom) _ _

/-- Taking the slot behind the items in use appends what is written there. -/
theorem ringOf_push (slots : ℕ → Item) (head : ℕ) (item : Item) (hroom : count < capacity) :
    ringOf (Function.update slots ((head + count) % capacity) item) capacity head (count + 1) =
      ringOf slots capacity head count ++ [item] := by
  have hitems := ringOf_update slots head item (Nat.le_refl count) hroom
  unfold ringOf at hitems ⊢
  rw [List.range_succ, List.map_append, hitems, List.map_singleton, Function.update_self]

/-- Moving the head by one removes the first item. -/
theorem ringOf_pop :
    ringOf slots capacity head (count + 1) =
      slots (head % capacity) :: ringOf slots capacity ((head + 1) % capacity) count := by
  unfold ringOf
  rw [List.range_succ_eq_map, List.map_cons, List.map_map, Nat.add_zero]
  congr 1
  refine List.map_congr_left fun i _ ↦ ?_
  rw [Function.comp_apply, Nat.mod_add_mod, Nat.succ_eq_add_one, Nat.add_assoc, Nat.add_comm 1 i]

/-- Only the place of the head in the ring matters. -/
theorem ringOf_mod :
    ringOf slots capacity (head % capacity) count = ringOf slots capacity head count := by
  refine List.map_congr_left fun i _ ↦ ?_
  rw [Nat.mod_add_mod]

/-- A full ring holds the items of all slots. -/
theorem ringOf_full_perm (slots : ℕ → Item) (capacity head : ℕ) :
    (ringOf slots capacity head capacity).Perm ((List.range capacity).map slots) := by
  have hrotate : ringOf slots capacity head capacity =
      ((List.range capacity).map slots).rotate head := by
    refine List.ext_getElem (by simp [ringOf]) fun i hi _ ↦ ?_
    rw [List.getElem_rotate]
    simp [ringOf, Nat.add_comm]
  rw [hrotate]
  exact List.rotate_perm _ _

/-- Writing the slot that was popped keeps the rest of the ring. -/
theorem ringOf_update_popped (slots : ℕ → Item) (item : Item) (hhead : head < capacity)
    (hroom : count < capacity) :
    ringOf (Function.update slots head item) capacity ((head + 1) % capacity) count =
      ringOf slots capacity ((head + 1) % capacity) count := by
  -- the slot is the last one of the ring behind the new head
  have hslot : ((head + 1) % capacity + (capacity - 1)) % capacity = head := by
    rw [Nat.mod_add_mod]
    have hsum : head + 1 + (capacity - 1) = head + capacity := by omega
    rw [hsum, Nat.add_mod_right, Nat.mod_eq_of_lt hhead]
  have hkeep := ringOf_update slots ((head + 1) % capacity) item
    (Nat.le_sub_one_of_lt hroom) (Nat.sub_one_lt_of_lt hhead)
  rwa [hslot] at hkeep

end OneOS.Foundation
