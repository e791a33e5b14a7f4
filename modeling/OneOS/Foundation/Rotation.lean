import Mathlib.Algebra.BigOperators.Group.Finset.Piecewise
import Mathlib.Algebra.Order.BigOperators.Group.Finset
import Mathlib.Data.Int.CardIntervalMod
import Mathlib.Data.List.Count

/-!
# Going around

A counter that goes up by 1 and is used modulo a number visits the places below that number one
after the other (`rotation`). Wherever it begins, in a number of visits each place has its even
share, but for one (`count_rotation`), and so has each range of places (`countP_rotation`).
-/

set_option autoImplicit false
set_option relaxedAutoImplicit false

namespace OneOS.Foundation

variable {modulus start count place bound : ℕ}

/-- The places that a counter visits from a start on. -/
def rotation (modulus start count : ℕ) : List ℕ :=
  (List.range count).map fun i ↦ (start + i) % modulus

theorem rotation_succ :
    rotation modulus start (count + 1) = start % modulus :: rotation modulus (start + 1) count := by
  rw [rotation, List.range_succ_eq_map, List.map_cons, List.map_map, Nat.add_zero, rotation]
  congr 1
  refine List.map_congr_left fun i _ ↦ ?_
  rw [Function.comp_apply, Nat.succ_eq_add_one, Nat.add_assoc, Nat.add_comm 1 i]

/-- Assumes: there are places. Only they are visited. -/
theorem lt_of_mem_rotation (hmodulus : 0 < modulus)
    (hplace : place ∈ rotation modulus start count) : place < modulus := by
  obtain ⟨i, -, rfl⟩ := List.mem_map.mp hplace
  exact Nat.mod_lt _ hmodulus

/-- The visits of a place are those up to the end, without those up to the start. -/
theorem count_rotation_add (hplace : place < modulus) :
    Nat.count (· ≡ place [MOD modulus]) start + (rotation modulus start count).count place =
      Nat.count (· ≡ place [MOD modulus]) (start + count) := by
  rw [Nat.count_add, rotation, List.count_eq_countP, List.countP_map, Nat.count]
  congr 1
  refine List.countP_congr fun i _ ↦ ?_
  simp [Nat.ModEq, Nat.mod_eq_of_lt hplace]

/-- Assumes: the place is one of those. A place has its even share of visits, but for one. -/
theorem count_rotation (hplace : place < modulus) :
    count / modulus ≤ (rotation modulus start count).count place ∧
      (rotation modulus start count).count place ≤ count / modulus + 1 := by
  have hmodulus : 0 < modulus := Nat.zero_lt_of_lt hplace
  have hvisits := @count_rotation_add _ start count _ hplace
  rw [Nat.count_modEq_card _ hmodulus, Nat.count_modEq_card _ hmodulus, Nat.mod_eq_of_lt hplace,
    Nat.add_div hmodulus, Nat.add_mod_eq_ite] at hvisits
  have hstart : start % modulus < modulus := Nat.mod_lt _ hmodulus
  have hcount : count % modulus < modulus := Nat.mod_lt _ hmodulus
  split_ifs at hvisits <;> omega

/-- The visits of a range of places are the visits of each. -/
theorem countP_eq_sum_count {places : List ℕ} (hplaces : ∀ place ∈ places, place < modulus) :
    places.countP (bound ≤ ·) = ∑ place ∈ Finset.Ico bound modulus, places.count place := by
  induction places with
  | nil => simp
  | cons head places ih =>
    obtain ⟨hhead, hplaces⟩ := List.forall_mem_cons.mp hplaces
    simp only [List.countP_cons, List.count_cons, Finset.sum_add_distrib, ih hplaces, beq_iff_eq,
      Finset.sum_ite_eq, Finset.mem_Ico, hhead, and_true, decide_eq_true_eq]

/-- Assumes: there are places. The places from a bound on have their even shares of visits, but for
one each. -/
theorem countP_rotation (hmodulus : 0 < modulus) :
    (modulus - bound) * (count / modulus) ≤ (rotation modulus start count).countP (bound ≤ ·) ∧
      (rotation modulus start count).countP (bound ≤ ·) ≤
        (modulus - bound) * (count / modulus + 1) := by
  have hshare : ∀ share, (modulus - bound) * share = ∑ _ ∈ Finset.Ico bound modulus, share :=
    fun share ↦ by rw [Finset.sum_const, Nat.card_Ico, nsmul_eq_mul, Nat.cast_id]
  rw [countP_eq_sum_count fun place hplace ↦ lt_of_mem_rotation hmodulus hplace, hshare, hshare]
  constructor
  · exact Finset.sum_le_sum fun place hplace ↦ (count_rotation (Finset.mem_Ico.mp hplace).2).1
  · exact Finset.sum_le_sum fun place hplace ↦ (count_rotation (Finset.mem_Ico.mp hplace).2).2

end OneOS.Foundation
