import OneOS.Foundation.ExchangeSort
import OneOS.Foundation.Slots

/-!
# Arrays seen as slots

An array of a fixed size whose accesses are checked, seen as the slots of an array without end
(`slotsOf`): every row is seen through a function, and a blank stands beyond the last one. As long
as the loops stay in the array, the search of the first rows is the search of the slots
(`searchLoop_eq_firstSlot`) and the exchange sort is the bubble sort (`exchangeSort_eq_bubbleSort`).
-/

set_option autoImplicit false
set_option relaxedAutoImplicit false

namespace OneOS.Foundation

variable {Row Shown : Type*} {size count i j : ℕ} {shown : Row → Shown} {blank : Shown}
variable {rows : Fin size → Row}

/-- The rows of an array as slots. -/
def slotsOf (shown : Row → Shown) (blank : Shown) (rows : Fin size → Row) (i : ℕ) : Shown :=
  if hlt : i < size then shown (rows ⟨i, hlt⟩) else blank

theorem slotsOf_of_lt (hlt : i < size) : slotsOf shown blank rows i = shown (rows ⟨i, hlt⟩) :=
  dif_pos hlt

theorem slotsOf_update (i : Fin size) (row : Row) :
    slotsOf shown blank (Function.update rows i row) =
      Function.update (slotsOf shown blank rows) i.val (shown row) := by
  funext k
  by_cases hsame : k = i.val
  · subst hsame
    rw [slotsOf_of_lt i.isLt, Function.update_self, Function.update_self]
  · rw [Function.update_of_ne hsame]
    by_cases hlt : k < size
    · rw [slotsOf_of_lt hlt, slotsOf_of_lt hlt,
        Function.update_of_ne (fun hval ↦ hsame (congrArg Fin.val hval))]
    · rw [slotsOf, slotsOf, dif_neg hlt, dif_neg hlt]

/-! ### Loops -/

/-- A loop whose every round succeeds, and is seen as a round of a fold, is seen as the fold. -/
theorem countedLoop_eq_foldl {State Seen : Type*} {body : State → ℕ → Option State} {rounds : ℕ}
    {start : State} (seen : State → Seen) (round : Seen → ℕ → Seen)
    (hbody : ∀ i < rounds, ∀ state,
      ∃ next, body state i = some next ∧ seen next = round (seen state) i) :
    ∃ last, countedLoop body rounds 0 start = some last ∧
      seen last = (List.range rounds).foldl round (seen start) := by
  have hloop : ∃ last, countedLoop body rounds 0 start = some last ∧
      seen last = (List.range (0 + rounds)).foldl round (seen start) := by
    refine countedLoop_spec (fun i state ↦ seen state = (List.range i).foldl round (seen start))
      (fun i state _ hi hinvariant ↦ ?_) rfl
    rw [Nat.zero_add] at hi
    obtain ⟨next, hnext, hseen⟩ := hbody i hi state
    refine ⟨next, hnext, ?_⟩
    rw [hseen, hinvariant, List.range_succ, List.foldl_append, List.foldl_cons, List.foldl_nil]
  rwa [Nat.zero_add] at hloop

/-- A loop whose states after every number of rounds are known. -/
theorem countedLoop_eq_some {State : Type*} {body : State → ℕ → Option State} {rounds : ℕ}
    (result : ℕ → State) (hbody : ∀ i < rounds, body (result i) i = some (result (i + 1))) :
    countedLoop body rounds 0 (result 0) = some (result rounds) := by
  have hloop : ∃ last, countedLoop body rounds 0 (result 0) = some last ∧
      last = result (0 + rounds) := by
    refine countedLoop_spec (fun i state ↦ state = result i) (fun i state _ hi hinvariant ↦ ?_) rfl
    rw [Nat.zero_add] at hi
    exact ⟨result (i + 1), hinvariant ▸ hbody i hi, rfl⟩
  obtain ⟨last, hlast, rfl⟩ := hloop
  rwa [Nat.zero_add] at hlast

/-! ### Searching -/

theorem firstSlot_succ (test : Row → Bool) (count : ℕ) (slots : ℕ → Row) :
    firstSlot test (count + 1) slots =
      (firstSlot test count slots).or (if test (slots count) then some count else none) := by
  rw [firstSlot, List.range_succ, List.find?_append, List.find?_singleton]
  rfl

/-- The loop over the rows in use, up to the first that passes a test, is the search of the
slots. -/
theorem searchLoop_eq_firstSlot {test : Row → Bool} {shownTest : Shown → Bool}
    (htest : ∀ row, test row = shownTest (shown row)) (hcount : count ≤ size) :
    countedLoop
        (fun found j ↦
          match found with
          | some j => some (some j)
          | none => (rowAt rows j).map fun row ↦ if test row then some j else none)
        count 0 none =
      some (firstSlot shownTest count (slotsOf shown blank rows)) := by
  refine countedLoop_eq_some (fun j ↦ firstSlot shownTest j (slotsOf shown blank rows))
    fun j hj ↦ ?_
  have hlt := hj.trans_le hcount
  rw [firstSlot_succ]
  cases firstSlot shownTest j (slotsOf shown blank rows) with
  | some earlier => rfl
  | none =>
    dsimp only
    rw [rowAt_of_lt hlt, Option.map_some, slotsOf_of_lt hlt, ← htest, Option.none_or]

/-! ### Sorting -/

section Sorting

variable {outOfOrder : Row → Row → Bool} {shownOutOfOrder : Shown → Shown → Bool}

/-- Exchanging neighbours of the array exchanges the neighbouring slots. -/
theorem exchangeAt_eq_orderPair (blank : Shown)
    (horder : ∀ first second,
      outOfOrder first second = shownOutOfOrder (shown first) (shown second))
    (hlt : j + 1 < size) (rows : Fin size → Row) :
    ∃ after, exchangeAt outOfOrder rows j = some after ∧
      slotsOf shown blank after = orderPair shownOutOfOrder (slotsOf shown blank rows) j := by
  have hleft : j < size := Nat.lt_of_succ_lt hlt
  rw [exchangeAt, rowAt_of_lt hleft, rowAt_of_lt hlt, orderPair, slotsOf_of_lt hleft,
    slotsOf_of_lt hlt, ← horder]
  dsimp only
  split_ifs
  · refine ⟨_, by rw [putRow_of_lt hleft, Option.bind_some, putRow_of_lt hlt], ?_⟩
    rw [slotsOf_update, slotsOf_update]
  · exact ⟨rows, rfl, rfl⟩

/-- Assumes: the array has the rows in use, and the bounds of the inner loop are those of a bubble
sort. The exchange sort is seen as the bubble sort. -/
theorem exchangeSort_eq_bubbleSort (blank : Shown)
    (horder : ∀ first second,
      outOfOrder first second = shownOutOfOrder (shown first) (shown second))
    (hcount : count ≤ size) {inner : ℕ → ℕ} (hinner : ∀ i < count - 1, inner i = count - i - 1)
    (rows : Fin size → Row) :
    ∃ after, exchangeSort outOfOrder (count - 1) inner rows = some after ∧
      slotsOf shown blank after =
        bubbleSort shownOutOfOrder count (slotsOf shown blank rows) := by
  refine countedLoop_eq_foldl (slotsOf shown blank)
    (fun slots i ↦ bubblePass shownOutOfOrder (count - i - 1) slots) fun i hi rows ↦ ?_
  rw [hinner i hi]
  exact countedLoop_eq_foldl (slotsOf shown blank) (orderPair shownOutOfOrder) fun j hj rows ↦
    exchangeAt_eq_orderPair blank horder (by omega) rows

end Sorting

end OneOS.Foundation
