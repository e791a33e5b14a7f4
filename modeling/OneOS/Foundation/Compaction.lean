import Mathlib.Data.List.Basic

/-!
# Readers of a table that is compacted

Compacting a table keeps the rows that are live, in order. A reader that only selects live rows does
not see it: the first row that it finds, how many there are and the rows that it collects up to a
limit (`collect`) are the same before and after.
-/

set_option autoImplicit false
set_option relaxedAutoImplicit false

namespace OneOS.Foundation

variable {Row : Type*} {select live : Row → Bool} {limit : ℕ} {table found : List Row} {row : Row}

/-! ### Collecting rows -/

/-- One round of the loop that copies out the selected rows until there are so many. -/
def collectRound (select : Row → Bool) (limit : ℕ) (found : List Row) (row : Row) : List Row :=
  if found.length < limit ∧ select row = true then found ++ [row] else found

/-- The selected rows of a table in order, up to a limit. -/
def collect (select : Row → Bool) (limit : ℕ) (table : List Row) : List Row :=
  table.foldl (collectRound select limit) []

theorem foldl_collectRound (hroom : found.length ≤ limit) :
    table.foldl (collectRound select limit) found =
      found ++ (table.filter select).take (limit - found.length) := by
  induction table generalizing found with
  | nil => simp
  | cons row table ih =>
    rw [List.foldl_cons, collectRound]
    by_cases hselect : select row = true
    · rw [List.filter_cons_of_pos hselect]
      by_cases hfull : found.length < limit
      · have hlength : (found ++ [row]).length = found.length + 1 := by simp
        have hleft : limit - found.length = limit - (found.length + 1) + 1 := by omega
        rw [if_pos ⟨hfull, hselect⟩, ih (by omega), hlength, hleft, List.take_succ_cons,
          List.append_assoc, List.singleton_append]
      · have hnone : limit - found.length = 0 := by omega
        rw [if_neg fun hboth ↦ hfull hboth.1, ih hroom, hnone, List.take_zero, List.take_zero]
    · rw [List.filter_cons_of_neg hselect, if_neg fun hboth ↦ hselect hboth.2, ih hroom]

/-- The loop collects the first rows that are selected. -/
theorem collect_eq : collect select limit table = (table.filter select).take limit :=
  foldl_collectRound (Nat.zero_le limit)

/-! ### What is not seen -/

/-- Assumes: only live rows are selected. Among the live rows the same ones are selected. -/
theorem and_live_eq (hlive : ∀ row, select row = true → live row = true) :
    (fun row ↦ live row && select row) = select := by
  funext row
  cases hselect : select row with
  | false => exact Bool.and_false _
  | true => rw [hlive row hselect, Bool.and_true]

/-- Assumes: only live rows are selected. Compacting leaves the first row that is selected. -/
theorem find?_filter_live (hlive : ∀ row, select row = true → live row = true) :
    (table.filter live).find? select = table.find? select := by
  rw [List.find?_filter]
  exact congrArg (List.find? · table) (by simpa using and_live_eq hlive)

/-- Assumes: only live rows are selected. Compacting leaves the rows that are selected. -/
theorem filter_filter_live (hlive : ∀ row, select row = true → live row = true) :
    (table.filter live).filter select = table.filter select := by
  rw [List.filter_filter]
  exact congrArg (List.filter · table) (by simpa only [Bool.and_comm] using and_live_eq hlive)

/-- Assumes: only live rows are selected. Compacting leaves what is collected. -/
theorem collect_filter_live (hlive : ∀ row, select row = true → live row = true) :
    collect select limit (table.filter live) = collect select limit table := by
  rw [collect_eq, collect_eq, filter_filter_live hlive]

/-- Assumes: only live rows are selected. Compacting leaves how many rows are selected. -/
theorem countP_filter_live (hlive : ∀ row, select row = true → live row = true) :
    (table.filter live).countP select = table.countP select := by
  rw [List.countP_eq_length_filter, List.countP_eq_length_filter, filter_filter_live hlive]

end OneOS.Foundation
