import Mathlib.Algebra.Group.Nat.Defs

/-!
# Counting up and down

A counter of 32 bits is counted up without wrapping when it is below another one, and counted down
without wrapping when it is not 0. An amount is moved from one number of 64 bits to another without
wrapping when the first one has it and the two together fit.
-/

set_option autoImplicit false
set_option relaxedAutoImplicit false

namespace OneOS.Foundation

variable {count bound : UInt32}

theorem toNat_pos (hsome : count ≠ 0) : 0 < count.toNat :=
  UInt32.lt_iff_toNat_lt.mp (UInt32.pos_iff_ne_zero.mpr hsome)

/-- Assumes: the counter is not at its end. -/
theorem toNat_succ (hend : count.toNat + 1 < 2 ^ 32) : (count + 1).toNat = count.toNat + 1 := by
  rw [UInt32.toNat_add, UInt32.toNat_one, Nat.mod_eq_of_lt hend]

/-- A counter that is below another one is not at its end. -/
theorem toNat_succ_of_lt (hless : count.toNat < bound.toNat) :
    (count + 1).toNat = count.toNat + 1 :=
  toNat_succ (Nat.lt_of_le_of_lt (Nat.succ_le_of_lt hless) bound.toNat_lt)

/-- A counter that is not 0 is one more than the one before it. -/
theorem toNat_pred_add_one (hsome : count ≠ 0) : (count - 1).toNat + 1 = count.toNat := by
  have hone : (1 : UInt32) ≤ count := UInt32.le_iff_toNat_le.mpr (toNat_pos hsome)
  rw [UInt32.toNat_sub_of_le _ _ hone]
  exact Nat.sub_add_cancel (toNat_pos hsome)

/-- A counter that stands one behind a number is lowered to the number. -/
theorem toNat_sub_one_eq {rest : ℕ} (hcount : count.toNat = rest + 1) :
    (count - 1).toNat = rest := by
  have hsome : count ≠ 0 := by
    intro hzero
    rw [hzero, UInt32.toNat_zero] at hcount
    omega
  have hless := toNat_pred_add_one hsome
  omega

/-- Lowering a counter changes it. -/
theorem toNat_sub_one_ne (count : UInt32) : (count - 1).toNat ≠ count.toNat := by
  intro hsame
  by_cases hzero : count = 0
  · rw [hzero] at hsame
    exact absurd hsame (by decide)
  · have hless := toNat_pred_add_one hzero
    omega

theorem toNat_amount_pos {amount : UInt64} (hsome : amount ≠ 0) : 0 < amount.toNat :=
  UInt64.lt_iff_toNat_lt.mp (UInt64.pos_iff_ne_zero.mpr hsome)

/-- Lowering a counter by an amount changes it. -/
theorem toNat_sub_amount_ne {counter amount : UInt64} (hsome : 0 < amount.toNat) :
    (counter - amount).toNat ≠ counter.toNat := by
  intro hsame
  have hcounter := counter.toNat_lt
  have hamount := amount.toNat_lt
  rw [UInt64.toNat_sub] at hsame
  omega

/-- Assumes: the source has the amount, and source and target together fit in 64 bits. -/
theorem toNat_moved {source target amount : UInt64} (hleft : amount ≤ source)
    (hfits : source.toNat + target.toNat < 2 ^ 64) :
    (source - amount).toNat + amount.toNat = source.toNat ∧
      (target + amount).toNat = target.toNat + amount.toNat := by
  have hle := UInt64.le_iff_toNat_le.mp hleft
  rw [UInt64.toNat_sub_of_le _ _ hleft, UInt64.toNat_add, Nat.mod_eq_of_lt (by omega)]
  exact ⟨Nat.sub_add_cancel hle, rfl⟩

end OneOS.Foundation
