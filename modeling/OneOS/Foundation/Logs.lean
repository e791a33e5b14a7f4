import Mathlib.Data.List.Infix

/-!
# Readers of a growing log

A log grows at its end only, and a reader has an offset into it. What a reader has read, one batch
after the other, is the part of the log before its offset (`ReadTo`): that holds for a reader at the
start, it is kept when the log grows, and it is kept when the reader reads the next batch.
-/

set_option autoImplicit false
set_option relaxedAutoImplicit false

namespace OneOS.Foundation

variable {Item : Type*} {log longer batches : List Item} {offset : ℕ}

/-- What was read is what stands before the offset, and the offset is not behind the end. -/
structure ReadTo (log : List Item) (offset : ℕ) (batches : List Item) : Prop where
  read : batches = log.take offset
  inside : offset ≤ log.length

/-- A reader at the start has read nothing. -/
theorem readTo_zero : ReadTo log 0 [] :=
  ⟨rfl, Nat.zero_le _⟩

/-- A log that grows keeps what was read. -/
theorem ReadTo.grow (hread : ReadTo log offset batches) (hgrows : log <+: longer) :
    ReadTo longer offset batches := by
  obtain ⟨more, rfl⟩ := hgrows
  refine ⟨?_, ?_⟩
  · rw [List.take_append_of_le_length hread.inside]
    exact hread.read
  · rw [List.length_append]
    exact hread.inside.trans (Nat.le_add_right _ _)

/-- A reader that reads the next batch has read it behind all that it read before. -/
theorem ReadTo.next (hread : ReadTo log offset batches) {count : ℕ}
    (hcount : count ≤ log.length - offset) :
    ReadTo log (offset + count) (batches ++ (log.drop offset).take count) := by
  have hinside := hread.inside
  refine ⟨?_, by omega⟩
  rw [hread.read, List.take_add]

end OneOS.Foundation
