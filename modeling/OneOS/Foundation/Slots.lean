import Mathlib.Data.Finset.Card
import Mathlib.Logic.Equiv.Basic

/-!
# Slots of an array

The slots of an array, of which the first so many are in use. `firstSlot` is the loop that looks for
the first slot in use that passes a test, and `bubbleSort` the two nested loops that exchange
neighbours which are out of order. Sorting rearranges the slots in use (`Rearranged`), so that
whatever is asked of the slots in use without regard to their order is kept.
-/

set_option autoImplicit false
set_option relaxedAutoImplicit false

namespace OneOS.Foundation

variable {Row : Type*} {test : Row → Bool} {count i j : ℕ} {slots before middle after : ℕ → Row}

/-! ### Looking for a slot -/

/-- The first slot in use that passes a test. -/
def firstSlot (test : Row → Bool) (count : ℕ) (slots : ℕ → Row) : Option ℕ :=
  (List.range count).find? fun i ↦ test (slots i)

/-- The slot that is found is in use and passes the test. -/
theorem firstSlot_spec (hfind : firstSlot test count slots = some i) :
    i < count ∧ test (slots i) = true := by
  have htest := List.find?_some hfind
  exact ⟨List.mem_range.mp (List.mem_of_find?_eq_some hfind), htest⟩

/-- No slot is found exactly when none in use passes the test. -/
theorem firstSlot_eq_none_iff :
    firstSlot test count slots = none ↔ ∀ i < count, test (slots i) = false := by
  simp [firstSlot]

theorem exists_firstSlot (hslot : i < count) (htest : test (slots i) = true) :
    ∃ found, firstSlot test count slots = some found := by
  rw [← Option.ne_none_iff_exists']
  intro hnone
  rw [firstSlot_eq_none_iff.mp hnone i hslot] at htest
  exact Bool.false_ne_true htest

/-! ### Sorting -/

/-- Two neighbours are exchanged when they are out of order. -/
def orderPair (outOfOrder : Row → Row → Bool) (slots : ℕ → Row) (j : ℕ) : ℕ → Row :=
  if outOfOrder (slots j) (slots (j + 1)) then
    Function.update (Function.update slots j (slots (j + 1))) (j + 1) (slots j)
  else slots

/-- One pass over the first so many neighbours. -/
def bubblePass (outOfOrder : Row → Row → Bool) (rounds : ℕ) (slots : ℕ → Row) : ℕ → Row :=
  (List.range rounds).foldl (orderPair outOfOrder) slots

/-- Passes over the slots in use, each one shorter than the one before. -/
def bubbleSort (outOfOrder : Row → Row → Bool) (count : ℕ) (slots : ℕ → Row) : ℕ → Row :=
  (List.range (count - 1)).foldl (fun slots i ↦ bubblePass outOfOrder (count - i - 1) slots) slots

/-- The slots in use hold the same rows in some other order. -/
def Rearranged (count : ℕ) (before after : ℕ → Row) : Prop :=
  ∃ order : Equiv.Perm ℕ, (∀ i, order i < count ↔ i < count) ∧ ∀ i, after i = before (order i)

theorem Rearranged.refl (count : ℕ) (slots : ℕ → Row) : Rearranged count slots slots :=
  ⟨Equiv.refl ℕ, fun _ ↦ Iff.rfl, fun _ ↦ rfl⟩

theorem Rearranged.trans (hfirst : Rearranged count before middle)
    (hsecond : Rearranged count middle after) : Rearranged count before after := by
  obtain ⟨first, hfirstCount, hfirst⟩ := hfirst
  obtain ⟨second, hsecondCount, hsecond⟩ := hsecond
  refine ⟨second.trans first, fun i ↦ ?_, fun i ↦ ?_⟩
  · exact (hfirstCount (second i)).trans (hsecondCount i)
  · rw [hsecond i, hfirst (second i), Equiv.trans_apply]

/-- A loop whose every round rearranges the slots in use rearranges them. -/
theorem rearranged_foldl {Step : Type*} {round : (ℕ → Row) → Step → ℕ → Row} {steps : List Step}
    (hround : ∀ slots, ∀ step ∈ steps, Rearranged count slots (round slots step)) :
    Rearranged count slots (steps.foldl round slots) := by
  induction steps generalizing slots with
  | nil => exact Rearranged.refl count slots
  | cons step steps ih =>
    refine (hround slots step List.mem_cons_self).trans (ih fun slots later hlater ↦ ?_)
    exact hround slots later (List.mem_cons_of_mem step hlater)

theorem rearranged_orderPair (outOfOrder : Row → Row → Bool) (hneighbour : j + 1 < count) :
    Rearranged count slots (orderPair outOfOrder slots j) := by
  rw [orderPair]
  split_ifs
  · refine ⟨Equiv.swap j (j + 1), fun i ↦ ?_, fun i ↦ ?_⟩
    · rw [Equiv.swap_apply_def]
      split_ifs <;> omega
    · rw [Equiv.swap_apply_def]
      split_ifs with hfirst hsecond
      · rw [hfirst, Function.update_of_ne (Nat.succ_ne_self j).symm, Function.update_self]
      · rw [hsecond, Function.update_self]
      · rw [Function.update_of_ne hsecond, Function.update_of_ne hfirst]
  · exact Rearranged.refl count slots

/-- Sorting rearranges the slots in use. -/
theorem rearranged_bubbleSort (outOfOrder : Row → Row → Bool) (count : ℕ) (slots : ℕ → Row) :
    Rearranged count slots (bubbleSort outOfOrder count slots) := by
  refine rearranged_foldl fun slots i hi ↦ rearranged_foldl fun slots j hj ↦ ?_
  rw [List.mem_range] at hi hj
  exact rearranged_orderPair outOfOrder (by omega)

/-- What some slot in use is, some slot in use is after they are rearranged. -/
theorem Rearranged.exists_iff (hrearranged : Rearranged count before after)
    (property : Row → Prop) :
    (∃ i < count, property (after i)) ↔ ∃ i < count, property (before i) := by
  obtain ⟨order, hcount, horder⟩ := hrearranged
  constructor
  · rintro ⟨i, hi, hproperty⟩
    exact ⟨order i, (hcount i).mpr hi, horder i ▸ hproperty⟩
  · rintro ⟨i, hi, hproperty⟩
    refine ⟨order.symm i, (hcount _).mp ?_, ?_⟩
    · rwa [Equiv.apply_symm_apply]
    · rwa [horder, Equiv.apply_symm_apply]

/-- What every slot in use is, every slot in use is after they are rearranged. -/
theorem Rearranged.forall_of (hrearranged : Rearranged count before after) (property : Row → Prop)
    (hall : ∀ i < count, property (before i)) : ∀ i < count, property (after i) := by
  obtain ⟨order, hcount, horder⟩ := hrearranged
  intro i hi
  rw [horder i]
  exact hall (order i) ((hcount i).mpr hi)

/-- Keys that are distinct in the slots in use stay distinct. -/
theorem Rearranged.distinct {Key : Type*} {key : Row → Key}
    (hrearranged : Rearranged count before after)
    (hdistinct : ∀ i < count, ∀ j < count, key (before i) = key (before j) → i = j) :
    ∀ i < count, ∀ j < count, key (after i) = key (after j) → i = j := by
  obtain ⟨order, hcount, horder⟩ := hrearranged
  intro i hi j hj hequal
  rw [horder i, horder j] at hequal
  exact order.injective (hdistinct _ ((hcount i).mpr hi) _ ((hcount j).mpr hj) hequal)

/-! ### Counting slots -/

/-- The number of slots in use that pass a test. -/
def countSlots (test : Row → Bool) (count : ℕ) (slots : ℕ → Row) : ℕ :=
  ((Finset.range count).filter fun i ↦ test (slots i) = true).card

theorem countSlots_pos (hslot : i < count) (htest : test (slots i) = true) :
    0 < countSlots test count slots :=
  Finset.card_pos.mpr ⟨i, Finset.mem_filter.mpr ⟨Finset.mem_range.mpr hslot, htest⟩⟩

/-- When a slot that passes the test gets a row that does not, there is one less. -/
theorem countSlots_update_lt {row : Row} (hslot : i < count) (htest : test (slots i) = true)
    (hrow : test row = false) :
    countSlots test count (Function.update slots i row) < countSlots test count slots := by
  refine Finset.card_lt_card ⟨fun k hk ↦ ?_, fun hsubset ↦ ?_⟩
  · rw [Finset.mem_filter] at hk ⊢
    refine ⟨hk.1, ?_⟩
    by_cases hsame : k = i
    · rw [hsame]
      exact htest
    · rw [Function.update_of_ne hsame] at hk
      exact hk.2
  · have hi := hsubset (Finset.mem_filter.mpr ⟨Finset.mem_range.mpr hslot, htest⟩)
    rw [Finset.mem_filter, Function.update_self, hrow] at hi
    exact Bool.false_ne_true hi.2

/-- A slot in use is counted apart from the others. -/
theorem countSlots_eq_erase (hslot : i < count) (slots : ℕ → Row) :
    countSlots test count slots =
      (((Finset.range count).erase i).filter fun k ↦ test (slots k) = true).card +
        (test (slots i)).toNat := by
  have hout : i ∉ ((Finset.range count).erase i).filter fun k ↦ test (slots k) = true :=
    fun hin ↦ Finset.notMem_erase i _ (Finset.mem_filter.mp hin).1
  have hsplit : countSlots test count slots = ((insert i ((Finset.range count).erase i)).filter
      fun k ↦ test (slots k) = true).card := by
    rw [Finset.insert_erase (Finset.mem_range.mpr hslot), countSlots]
  rw [hsplit, Finset.filter_insert]
  cases htest : test (slots i) with
  | true => rw [if_pos rfl, Finset.card_insert_of_notMem hout, Bool.toNat_true]
  | false => rw [if_neg Bool.false_ne_true, Bool.toNat_false, Nat.add_zero]

/-- When a slot gets another row, the count changes by what the two rows count. -/
theorem countSlots_update_add (hslot : i < count) (row : Row) :
    countSlots test count (Function.update slots i row) + (test (slots i)).toNat =
      countSlots test count slots + (test row).toNat := by
  have hothers : (((Finset.range count).erase i).filter
        fun k ↦ test (Function.update slots i row k) = true) =
      ((Finset.range count).erase i).filter fun k ↦ test (slots k) = true := by
    refine Finset.filter_congr fun k hk ↦ ?_
    rw [Function.update_of_ne (Finset.ne_of_mem_erase hk)]
  rw [countSlots_eq_erase hslot slots, countSlots_eq_erase hslot (Function.update slots i row),
    hothers, Function.update_self]
  omega

end OneOS.Foundation
