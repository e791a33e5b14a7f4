import OneOS.Foundation.Table

/-!
# Tables of tables

A row of a table may hold a table of its own, and what is looked for is an item in one of the rows:
the loops pass over the rows that do not have it. With `reading` for what a row has for the caller,
the item that is found is `table.findSome? reading`, and the row that is changed with it is the
first one with a reading. Behind the item that is found stand those of the later rows, which come up
when the row is erased: `table.filterMap reading` lists them all, the one that is found first.

`filterMap_split` describes updates and erasures of the first row that may have something for the
caller, and `filterMap_updateFirst_isSome` updates of the first row that has.
-/

set_option autoImplicit false
set_option relaxedAutoImplicit false

namespace OneOS.Foundation

variable {Row Item : Type*} {reading : Row → Option Item} {test : Row → Bool} {row : Row}
variable {table : List Row}

/-- A change that keeps what a row has for the caller does not change what is listed. -/
theorem filterMap_updateFirst (change : Row → Row)
    (hkeep : ∀ row, test row = true → reading (change row) = reading row) :
    (updateFirst test change table).filterMap reading = table.filterMap reading := by
  cases hfind : table.find? test with
  | none => rw [updateFirst_of_find?_eq_none hfind]
  | some row =>
    obtain ⟨before, after, rfl, hrow, -, hupdate⟩ := updateFirst_split hfind
    rw [hupdate, List.filterMap_append, List.filterMap_append, List.filterMap_cons,
      List.filterMap_cons, hkeep row hrow]

/-- A change of the item of the first row that has one is a change of the first item listed. -/
theorem filterMap_updateFirst_isSome (change : Row → Row) (onItem : Item → Item)
    (hchange : ∀ row, reading (change row) = (reading row).map onItem) :
    (updateFirst (fun row ↦ (reading row).isSome) change table).filterMap reading =
      (table.filterMap reading).modifyHead onItem := by
  induction table with
  | nil => rfl
  | cons head tail ih =>
    cases hhead : reading head with
    | none =>
      rw [updateFirst_cons_of_neg (by simp [hhead]), List.filterMap_cons_none hhead,
        List.filterMap_cons_none hhead]
      exact ih
    | some item =>
      have hchanged : reading (change head) = some (onItem item) := by rw [hchange, hhead]; rfl
      rw [updateFirst_cons_of_pos (by simp [hhead]), List.filterMap_cons_some hchanged,
        List.filterMap_cons_some hhead]
      rfl

/-- Erasing the first row that satisfies a test, in a table split at that row. -/
theorem eraseP_split {before after : List Row} (hbefore : ∀ earlier ∈ before, test earlier = false)
    (hrow : test row = true) : (before ++ row :: after).eraseP test = before ++ after := by
  have hkept : ∀ earlier ∈ before, ¬ test earlier = true :=
    fun earlier hearlier ↦ by simp [hbefore earlier hearlier]
  rw [List.eraseP_append_right _ hkept, List.eraseP_cons_of_pos hrow]

/-- Assumes: only rows that satisfy the test have something for the caller. What the first of them
has is listed first, if it has anything; this is what an update of that row changes and what erasing
the row takes away. -/
theorem filterMap_split (honly : ∀ row, test row = false → reading row = none)
    (hfirst : table.find? test = some row) :
    ∃ rest, table.filterMap reading = (reading row).toList ++ rest ∧
      (table.eraseP test).filterMap reading = rest ∧
      ∀ change : Row → Row, (updateFirst test change table).filterMap reading =
        (reading (change row)).toList ++ rest := by
  obtain ⟨before, after, rfl, hrow, hbefore, hupdate⟩ := updateFirst_split hfirst
  have hnone : before.filterMap reading = [] :=
    List.filterMap_eq_nil_iff.mpr fun earlier hearlier ↦ honly earlier (hbefore earlier hearlier)
  have hcons : ∀ first : Row, (first :: after).filterMap reading =
      (reading first).toList ++ after.filterMap reading := by
    intro first
    cases hreading : reading first with
    | none => exact List.filterMap_cons_none hreading
    | some item => exact List.filterMap_cons_some hreading
  refine ⟨after.filterMap reading, ?_, ?_, fun change ↦ ?_⟩
  · rw [List.filterMap_append, hnone, List.nil_append, hcons]
  · rw [eraseP_split hbefore hrow, List.filterMap_append, hnone, List.nil_append]
  · rw [hupdate, List.filterMap_append, hnone, List.nil_append, hcons]

/-- Erasing a row that has nothing for the caller does not change what is listed. -/
theorem filterMap_eraseP (hnone : ∀ row, test row = true → reading row = none) :
    (table.eraseP test).filterMap reading = table.filterMap reading := by
  induction table with
  | nil => rfl
  | cons head tail ih =>
    by_cases hhead : test head = true
    · rw [List.eraseP_cons_of_pos hhead, List.filterMap_cons_none (hnone head hhead)]
    · rw [List.eraseP_cons_of_neg hhead, List.filterMap_cons, List.filterMap_cons, ih]

/-- The first row that satisfies a test, after a change of the first row that satisfies a finer one:
it is changed when it satisfies that one too. -/
theorem find?_updateFirst_finer {finer : Row → Bool} (change : Row → Row)
    (hfiner : ∀ row, finer row = true → test row = true)
    (hkeep : ∀ row, test (change row) = test row) :
    (updateFirst finer change table).find? test =
      (table.find? test).map fun row ↦ if finer row then change row else row := by
  induction table with
  | nil => rfl
  | cons head tail ih =>
    by_cases hhead : finer head = true
    · have htest := hfiner head hhead
      rw [updateFirst_cons_of_pos hhead, List.find?_cons_of_pos ((hkeep head).trans htest),
        List.find?_cons_of_pos htest, Option.map_some, if_pos hhead]
    · rw [updateFirst_cons_of_neg (Bool.not_eq_true _ ▸ hhead)]
      by_cases htest : test head = true
      · rw [List.find?_cons_of_pos htest, List.find?_cons_of_pos htest, Option.map_some,
          if_neg hhead]
      · rw [List.find?_cons_of_neg htest, List.find?_cons_of_neg htest, ih]

/-- A change of the first row that satisfies a finer test is one of the first row that satisfies the
coarser, when that row satisfies both. -/
theorem updateFirst_of_finer {finer : Row → Bool} (change : Row → Row)
    (hfiner : ∀ row, finer row = true → test row = true) (hfirst : table.find? test = some row)
    (hrow : finer row = true) : updateFirst finer change table = updateFirst test change table := by
  induction table with
  | nil => rfl
  | cons head tail ih =>
    by_cases htest : test head = true
    · obtain rfl : head = row := by simpa [List.find?_cons_of_pos htest] using hfirst
      rw [updateFirst_cons_of_pos hrow, updateFirst_cons_of_pos htest]
    · have hhead : finer head = false := by
        rw [← Bool.not_eq_true]
        exact fun hfine ↦ htest (hfiner head hfine)
      rw [List.find?_cons_of_neg htest] at hfirst
      rw [updateFirst_cons_of_neg hhead, updateFirst_cons_of_neg (Bool.not_eq_true _ ▸ htest),
        ih hfirst]

/-- A change of a row that does not satisfy a test, and does not come to satisfy it, leaves the
first row that does. -/
theorem find?_updateFirst_of_other {other : Row → Bool} (change : Row → Row)
    (hother : ∀ row, other row = true → test row = false)
    (hkeep : ∀ row, test (change row) = test row) :
    (updateFirst other change table).find? test = table.find? test := by
  cases hfind : table.find? other with
  | none => rw [updateFirst_of_find?_eq_none hfind]
  | some row =>
    obtain ⟨before, after, rfl, hrow, -, hupdate⟩ := updateFirst_split hfind
    have htest : ¬ test row = true := by simp [hother row hrow]
    have hchanged : ¬ test (change row) = true := by rwa [hkeep]
    rw [hupdate, List.find?_append, List.find?_append, List.find?_cons_of_neg htest,
      List.find?_cons_of_neg hchanged]

/-- A view of the rows under which the test and the change can be made turns an update into one of
the views. -/
theorem map_updateFirst_comm {View : Type*} (view : Row → View) {testView : View → Bool}
    (change : Row → Row) (changeView : View → View) (htest : ∀ row, testView (view row) = test row)
    (hchange : ∀ row, view (change row) = changeView (view row)) :
    (updateFirst test change table).map view =
      updateFirst testView changeView (table.map view) := by
  induction table with
  | nil => rfl
  | cons head tail ih =>
    by_cases hhead : test head = true
    · rw [updateFirst_cons_of_pos hhead, List.map_cons, List.map_cons,
        updateFirst_cons_of_pos ((htest head).trans hhead), hchange]
    · rw [Bool.not_eq_true] at hhead
      rw [updateFirst_cons_of_neg hhead, List.map_cons, List.map_cons,
        updateFirst_cons_of_neg ((htest head).trans hhead), ih]

end OneOS.Foundation
