import Mathlib.Data.List.Basic
import Mathlib.Data.List.Infix
import Mathlib.Data.List.Perm.Basic
import Mathlib.Order.Lattice

/-!
# Removing the least rows of a table

A scan for a row with the least key starts at the first row and moves on to every later row whose
key is less (`leastIndex`), so it ends at the first of the rows with the least key. Removing that
row a number of times removes as many rows, none with a larger key than a row that stays, and leaves
the others in their order (`removeLeast_iterate`).
-/

set_option autoImplicit false
set_option relaxedAutoImplicit false

namespace OneOS.Foundation

variable {Row Key : Type*} [LinearOrder Key]

/-- One turn of the scan, at row `j`. -/
def leastTurn (key : Row → Key) (rows : List Row) (least j : ℕ) : ℕ :=
  match rows[j]?, rows[least]? with
  | some row, some best => if key row < key best then j else least
  | _, _ => least

/-- The index that the scan for a row with the least key ends at. -/
def leastIndex (key : Row → Key) (rows : List Row) : ℕ :=
  (List.range' 1 (rows.length - 1)).foldl (leastTurn key rows) 0

/-- The table without the row that the scan ends at. -/
def removeLeast (key : Row → Key) (rows : List Row) : List Row :=
  rows.eraseIdx (leastIndex key rows)

variable {key : Row → Key} {rows : List Row}

/-- The scan of the first `count + 1` rows ends at one of them, and none of them has a smaller
key. -/
theorem leastTurn_foldl_spec (key : Row → Key) {count : ℕ} (hcount : count < rows.length) :
    ∃ best, rows[(List.range' 1 count).foldl (leastTurn key rows) 0]? = some best ∧
      ∀ i row, i ≤ count → rows[i]? = some row → key best ≤ key row := by
  induction count with
  | zero =>
    refine ⟨rows[0], List.getElem?_eq_getElem hcount, fun i row hi hrow ↦ ?_⟩
    obtain rfl := Nat.le_zero.mp hi
    rw [List.getElem?_eq_getElem hcount, Option.some.injEq] at hrow
    rw [hrow]
  | succ count ih =>
    obtain ⟨best, hbest, hleast⟩ := ih (Nat.lt_of_succ_lt hcount)
    have hnext : rows[1 + count]? = some rows[1 + count] :=
      List.getElem?_eq_getElem (by omega)
    rw [List.range'_1_concat, List.foldl_append, List.foldl_cons, List.foldl_nil, leastTurn, hnext,
      hbest]
    -- the rows scanned before, or the row scanned now
    have hsplit : ∀ i row, i ≤ count + 1 → rows[i]? = some row →
        i ≤ count ∨ row = rows[1 + count] := by
      intro i row hi hrow
      rcases Nat.lt_or_ge count i with hlast | hearlier
      · obtain rfl : i = 1 + count := by omega
        exact Or.inr (Option.some.inj (hrow.symm.trans hnext))
      · exact Or.inl hearlier
    by_cases hless : key rows[1 + count] < key best
    · refine ⟨rows[1 + count], by simpa only [if_pos hless] using hnext, fun i row hi hrow ↦ ?_⟩
      rcases hsplit i row hi hrow with hearlier | rfl
      · exact hless.le.trans (hleast i row hearlier hrow)
      · exact le_refl _
    · refine ⟨best, by simpa only [if_neg hless] using hbest, fun i row hi hrow ↦ ?_⟩
      rcases hsplit i row hi hrow with hearlier | rfl
      · exact hleast i row hearlier hrow
      · exact not_lt.mp hless

/-- The scan of a table with rows ends at a row with the least key. -/
theorem getElem?_leastIndex (key : Row → Key) (hsome : rows ≠ []) :
    ∃ best, rows[leastIndex key rows]? = some best ∧ ∀ row ∈ rows, key best ≤ key row := by
  have hpos := List.length_pos_iff.mpr hsome
  obtain ⟨best, hbest, hleast⟩ := leastTurn_foldl_spec key (Nat.sub_lt hpos Nat.one_pos)
  refine ⟨best, hbest, fun row hrow ↦ ?_⟩
  obtain ⟨i, hi⟩ := List.mem_iff_getElem?.mp hrow
  have hindex := (List.getElem?_eq_some_iff.mp hi).1
  exact hleast i row (Nat.le_sub_one_of_lt hindex) hi

/-- What stays of a table is its rows without the removed ones, in their order, and no removed row
has a larger key than a row that stays. -/
structure LeastRemoved (key : Row → Key) (rows removed kept : List Row) : Prop where
  perm : (removed ++ kept).Perm rows
  order : kept.Sublist rows
  least : ∀ old ∈ removed, ∀ row ∈ kept, key old ≤ key row

theorem leastRemoved_nil : LeastRemoved key rows [] rows where
  perm := List.Perm.refl _
  order := List.Sublist.refl _
  least := by simp

/-- Removing one more row with the least key from what stays. -/
theorem LeastRemoved.removeLeast {removed kept : List Row}
    (hremoved : LeastRemoved key rows removed kept) (hsome : kept ≠ []) :
    ∃ best, LeastRemoved key rows (best :: removed) (removeLeast key kept) := by
  obtain ⟨best, hbest, hleast⟩ := getElem?_leastIndex key hsome
  obtain ⟨hindex, hget⟩ := List.getElem?_eq_some_iff.mp hbest
  have hsub : (Foundation.removeLeast key kept).Sublist kept := List.eraseIdx_sublist _ _
  refine ⟨best, ?_, hsub.trans hremoved.order, ?_⟩
  · have hkept : (best :: Foundation.removeLeast key kept).Perm kept := by
      rw [← hget]
      exact List.getElem_cons_eraseIdx_perm hindex
    have hmoved : (best :: removed ++ Foundation.removeLeast key kept).Perm
        (removed ++ best :: Foundation.removeLeast key kept) := List.perm_middle.symm
    exact hmoved.trans ((hkept.append_left removed).trans hremoved.perm)
  · intro old hold row hrow
    rcases List.mem_cons.mp hold with rfl | hearlier
    · exact hleast row (hsub.subset hrow)
    · exact hremoved.least old hearlier row (hsub.subset hrow)

/-- Removing the row with the least key a number of times removes as many rows, none of them with a
larger key than a row that stays, and leaves the others in their order. -/
theorem removeLeast_iterate (key : Row → Key) {count : ℕ} (hcount : count ≤ rows.length) :
    ∃ removed, removed.length = count ∧
      LeastRemoved key rows removed ((removeLeast key)^[count] rows) := by
  induction count with
  | zero => exact ⟨[], rfl, leastRemoved_nil⟩
  | succ count ih =>
    obtain ⟨removed, hlength, hremoved⟩ := ih (Nat.le_of_succ_le hcount)
    have hsome : (removeLeast key)^[count] rows ≠ [] := by
      intro hnil
      have htotal := hremoved.perm.length_eq
      rw [hnil, List.append_nil, hlength] at htotal
      omega
    obtain ⟨best, hbest⟩ := hremoved.removeLeast hsome
    rw [Function.iterate_succ_apply']
    exact ⟨best :: removed, by rw [List.length_cons, hlength], hbest⟩

end OneOS.Foundation
