import Mathlib.Data.Fin.Basic
import Mathlib.Logic.Equiv.Basic
import Mathlib.Order.Basic

/-!
# Counted loops and the exchange sort

Loops that count up to a bound and have a body that may fail (`countedLoop`), with a rule for their
total correctness (`countedLoop_spec`), and the sort of an array of a fixed size by two of them that
exchange neighbours (`exchangeSort`). Reading or writing outside the array fails.

The sort puts the first so many rows of the array in the order of their keys, rows with equal keys
keep their order, and all other rows are left (`exchangeSort_spec`). It fails when the inner loop
goes past the end of the array (`exchangeSort_eq_none`).
-/

set_option autoImplicit false
set_option relaxedAutoImplicit false

namespace OneOS.Foundation

/-! ### Counted loops -/

section Loops

variable {State : Type*} {body : State → ℕ → Option State} {rounds first : ℕ} {start : State}

/-- The rounds of a loop that counts up from the first number. -/
def countedLoop (body : State → ℕ → Option State) : ℕ → ℕ → State → Option State
  | 0, _, state => some state
  | rounds + 1, i, state => (body state i).bind (countedLoop body rounds (i + 1))

/-- The rule for counted loops. Assumes: from a state with the invariant for a number, every round
succeeds and reaches one with the invariant for the next number. The loop succeeds, and reaches a
state with the invariant for its bound. -/
theorem countedLoop_spec (invariant : ℕ → State → Prop)
    (hbody : ∀ i state, first ≤ i → i < first + rounds → invariant i state →
      ∃ next, body state i = some next ∧ invariant (i + 1) next)
    (hstart : invariant first start) :
    ∃ last, countedLoop body rounds first start = some last ∧ invariant (first + rounds) last := by
  induction rounds generalizing first start with
  | zero => exact ⟨start, rfl, hstart⟩
  | succ rounds ih =>
    obtain ⟨next, hnext, hinvariant⟩ := hbody first start (Nat.le_refl first) (by omega) hstart
    obtain ⟨last, hlast, hreached⟩ := ih
      (fun i state hle hlt ↦ hbody i state (by omega) (by omega)) hinvariant
    refine ⟨last, ?_, ?_⟩
    · rw [countedLoop, hnext, Option.bind_some, hlast]
    · rwa [Nat.add_right_comm, Nat.add_assoc] at hreached

/-- A loop fails that has a round which always fails. -/
theorem countedLoop_eq_none (bad : ℕ) (hfails : ∀ state, body state bad = none)
    (hfirst : first ≤ bad) (hlast : bad < first + rounds) :
    countedLoop body rounds first start = none := by
  induction rounds generalizing first start with
  | zero => omega
  | succ rounds ih =>
    rw [countedLoop]
    by_cases hbad : first = bad
    · rw [hbad, hfails, Option.bind_none]
    · cases body start first with
      | none => rfl
      | some next => exact ih (by omega) (by omega)

end Loops

/-! ### Arrays -/

section Arrays

variable {Row Key : Type*} {size count bound : ℕ} {outOfOrder : Row → Row → Bool}
variable {rows before middle after : Fin size → Row} {j : ℕ}

/-- The row at an index, if it is one of the array. -/
def rowAt (rows : Fin size → Row) (i : ℕ) : Option Row :=
  if hlt : i < size then some (rows ⟨i, hlt⟩) else none

/-- Write a row at an index, if it is one of the array. -/
def putRow (rows : Fin size → Row) (i : ℕ) (row : Row) : Option (Fin size → Row) :=
  if hlt : i < size then some (Function.update rows ⟨i, hlt⟩ row) else none

theorem rowAt_of_lt (hlt : j < size) : rowAt rows j = some (rows ⟨j, hlt⟩) :=
  dif_pos hlt

theorem rowAt_of_le (hle : size ≤ j) : rowAt rows j = none :=
  dif_neg (Nat.not_lt.mpr hle)

theorem putRow_of_lt (hlt : j < size) (row : Row) :
    putRow rows j row = some (Function.update rows ⟨j, hlt⟩ row) :=
  dif_pos hlt

/-- Two neighbours are read, and exchanged when they are out of order. -/
def exchangeAt (outOfOrder : Row → Row → Bool) (rows : Fin size → Row) (j : ℕ) :
    Option (Fin size → Row) :=
  match rowAt rows j, rowAt rows (j + 1) with
  | some first, some second =>
    if outOfOrder first second then
      (putRow rows j second).bind fun rows ↦ putRow rows (j + 1) first
    else some rows
  | _, _ => none

/-- Two nested loops that exchange neighbours, where the bound of the inner one depends on the
number of the round. -/
def exchangeSort (outOfOrder : Row → Row → Bool) (outer : ℕ) (inner : ℕ → ℕ)
    (rows : Fin size → Row) : Option (Fin size → Row) :=
  countedLoop (fun rows i ↦ countedLoop (exchangeAt outOfOrder) (inner i) 0 rows) outer 0 rows

/-- Neighbours in the array are exchanged as they are by a permutation. -/
theorem exchangeAt_of_lt (hlt : j + 1 < size) :
    exchangeAt outOfOrder rows j =
      some (if outOfOrder (rows ⟨j, Nat.lt_of_succ_lt hlt⟩) (rows ⟨j + 1, hlt⟩) then
        fun i ↦ rows (Equiv.swap ⟨j, Nat.lt_of_succ_lt hlt⟩ ⟨j + 1, hlt⟩ i)
      else rows) := by
  have hne : (⟨j, Nat.lt_of_succ_lt hlt⟩ : Fin size) ≠ ⟨j + 1, hlt⟩ :=
    fun hsame ↦ Nat.succ_ne_self j (Fin.mk.inj hsame).symm
  rw [exchangeAt, rowAt_of_lt (Nat.lt_of_succ_lt hlt), rowAt_of_lt hlt]
  dsimp only
  split_ifs
  · rw [putRow_of_lt (Nat.lt_of_succ_lt hlt), Option.bind_some, putRow_of_lt hlt]
    refine congrArg some (funext fun i ↦ ?_)
    rw [Equiv.swap_apply_def]
    split_ifs with hfirst hsecond
    · rw [hfirst, Function.update_of_ne hne, Function.update_self]
    · rw [hsecond, Function.update_self]
    · rw [Function.update_of_ne hsecond, Function.update_of_ne hfirst]
  · rfl

/-- The last row of the array has no neighbour. -/
theorem exchangeAt_of_le (hle : size ≤ j + 1) : exchangeAt outOfOrder rows j = none := by
  rw [exchangeAt, rowAt_of_le hle]
  cases rowAt rows j <;> rfl

/-- The sort fails when the inner loop of its first round goes past the end of the array. -/
theorem exchangeSort_eq_none {outer : ℕ} {inner : ℕ → ℕ} (houter : 0 < outer)
    (hsize : 0 < size) (hinner : size ≤ inner 0) :
    exchangeSort outOfOrder outer inner rows = none := by
  refine countedLoop_eq_none 0 (fun rows ↦ ?_) (Nat.le_refl 0) (by omega)
  exact countedLoop_eq_none (size - 1) (fun rows ↦ exchangeAt_of_le (by omega))
    (Nat.zero_le _) (by omega)

/-! ### Stable rearrangements -/

/-- The rows at the first so many indices are put in another order, in which rows with equal keys
keep theirs. All other rows are left. -/
def StablyRearranged (key : Row → Key) (count : ℕ) (before after : Fin size → Row) : Prop :=
  ∃ order : Equiv.Perm (Fin size), (∀ i, count ≤ i.val → order i = i) ∧
    (∀ i, after i = before (order i)) ∧
      ∀ i j, i < j → key (after i) = key (after j) → order i < order j

variable {key : Row → Key}

theorem StablyRearranged.refl (key : Row → Key) (count : ℕ) (rows : Fin size → Row) :
    StablyRearranged key count rows rows :=
  ⟨Equiv.refl _, fun _ _ ↦ rfl, fun _ ↦ rfl, fun _ _ hlt _ ↦ hlt⟩

theorem StablyRearranged.trans (hfirst : StablyRearranged key count before middle)
    (hsecond : StablyRearranged key count middle after) :
    StablyRearranged key count before after := by
  obtain ⟨first, hfirstLeft, hfirst, hfirstStable⟩ := hfirst
  obtain ⟨second, hsecondLeft, hsecond, hsecondStable⟩ := hsecond
  refine ⟨second.trans first, fun i hi ↦ ?_, fun i ↦ ?_, fun i j hlt hkeys ↦ ?_⟩
  · rw [Equiv.trans_apply, hsecondLeft i hi, hfirstLeft i hi]
  · rw [hsecond i, hfirst (second i), Equiv.trans_apply]
  · refine hfirstStable _ _ (hsecondStable i j hlt hkeys) ?_
    rwa [← hsecond i, ← hsecond j]

theorem StablyRearranged.mono {more : ℕ} (hmore : count ≤ more)
    (hrearranged : StablyRearranged key count before after) :
    StablyRearranged key more before after := by
  obtain ⟨order, hleft, horder⟩ := hrearranged
  exact ⟨order, fun i hi ↦ hleft i (hmore.trans hi), horder⟩

/-- A permutation that leaves all indices from some number on moves the ones before it among
themselves. -/
theorem apply_lt_of_left {order : Equiv.Perm (Fin size)} (hleft : ∀ i, count ≤ i.val → order i = i)
    {i : Fin size} (hlt : i.val < count) : (order i).val < count := by
  by_contra hge
  have hsame := order.injective (hleft (order i) (Nat.not_lt.mp hge))
  rw [hsame] at hge
  exact hge hlt

/-- Exchanging neighbours whose keys are not equal is a stable rearrangement: they are the only pair
whose order changes. -/
theorem stablyRearranged_swap {left right : Fin size} (hnext : right.val = left.val + 1)
    (hkeys : key (rows left) ≠ key (rows right)) :
    StablyRearranged key (right.val + 1) rows fun i ↦ rows (Equiv.swap left right i) := by
  refine ⟨Equiv.swap left right, fun i hi ↦ ?_, fun _ ↦ rfl, fun a b hab hequal ↦ ?_⟩
  · refine Equiv.swap_apply_of_ne_of_ne ?_ ?_
    · rintro rfl
      omega
    · rintro rfl
      omega
  · by_cases hpair : a = left ∧ b = right
    · obtain ⟨rfl, rfl⟩ := hpair
      dsimp only at hequal
      rw [Equiv.swap_apply_left, Equiv.swap_apply_right] at hequal
      exact absurd hequal.symm hkeys
    · rw [Fin.ext_iff, Fin.ext_iff] at hpair
      rw [Fin.lt_def] at hab
      simp only [Equiv.swap_apply_def, Fin.ext_iff, Fin.lt_def]
      split_ifs <;> omega

/-! ### Sorting -/

section Sorting

variable [LinearOrder Key]

/-- The rows at the first so many indices are in the order of their keys. -/
def SortedByKey (key : Row → Key) (count : ℕ) (rows : Fin size → Row) : Prop :=
  ∀ i k : Fin size, i < k → k.val < count → key (rows i) ≤ key (rows k)

/-- No row up to an index has a greater key than the row at it. -/
def GreatestAt (key : Row → Key) (j : ℕ) (rows : Fin size → Row) : Prop :=
  ∀ i k : Fin size, i ≤ k → k.val = j → key (rows i) ≤ key (rows k)

/-- One round: the greater of two neighbours is the second one after it. -/
theorem exchangeAt_spec
    (hkey : ∀ first second, outOfOrder first second = true ↔ key second < key first)
    (hlt : j + 1 < size) (hgreatest : GreatestAt key j rows) :
    ∃ after, exchangeAt outOfOrder rows j = some after ∧
      StablyRearranged key (j + 2) rows after ∧ GreatestAt key (j + 1) after := by
  refine ⟨_, exchangeAt_of_lt hlt, ?_⟩
  set left : Fin size := ⟨j, Nat.lt_of_succ_lt hlt⟩
  set right : Fin size := ⟨j + 1, hlt⟩
  have hnext : right.val = left.val + 1 := rfl
  split_ifs with hexchange
  · rw [hkey] at hexchange
    refine ⟨stablyRearranged_swap hnext hexchange.ne', fun i k hle hk ↦ ?_⟩
    obtain rfl : k = right := Fin.ext hk
    dsimp only
    rw [Equiv.swap_apply_right, Equiv.swap_apply_def]
    split_ifs with hleft hright
    · exact hexchange.le
    · exact le_rfl
    · refine hgreatest i left ?_ rfl
      rw [Fin.le_def] at hle ⊢
      rw [Fin.ext_iff] at hright
      omega
  · rw [hkey, not_lt] at hexchange
    refine ⟨StablyRearranged.refl _ _ _, fun i k hle hk ↦ ?_⟩
    obtain rfl : k = right := Fin.ext hk
    by_cases hright : i = right
    · rw [hright]
    · refine (hgreatest i left ?_ rfl).trans hexchange
      rw [Fin.le_def] at hle ⊢
      rw [Fin.ext_iff] at hright
      omega

/-- One pass: it rearranges the rows up to its bound, and leaves the greatest of them there. -/
theorem exchangePass_spec
    (hkey : ∀ first second, outOfOrder first second = true ↔ key second < key first)
    (hbound : bound < size) :
    ∃ after, countedLoop (exchangeAt outOfOrder) bound 0 rows = some after ∧
      StablyRearranged key (bound + 1) rows after ∧ GreatestAt key bound after := by
  have hstart : GreatestAt key 0 rows := by
    intro i k hle hk
    rw [Fin.le_def] at hle
    rw [Fin.ext (show i.val = k.val by omega)]
  have hloop : ∃ last, countedLoop (exchangeAt outOfOrder) bound 0 rows = some last ∧
      StablyRearranged key (0 + bound + 1) rows last ∧ GreatestAt key (0 + bound) last := by
    refine countedLoop_spec
      (fun j state ↦ StablyRearranged key (j + 1) rows state ∧ GreatestAt key j state)
      (fun j state _ hj hinvariant ↦ ?_) ⟨StablyRearranged.refl key 1 rows, hstart⟩
    obtain ⟨next, hnext, hrearranged, hgreatest⟩ :=
      exchangeAt_spec hkey (show j + 1 < size by omega) hinvariant.2
    exact ⟨next, hnext, (hinvariant.1.mono (by omega)).trans hrearranged, hgreatest⟩
  rwa [Nat.zero_add] at hloop

/-- The rows from some index on are in the order of their keys, and none before them has a greater
one. -/
def SettledFrom (key : Row → Key) (settled count : ℕ) (rows : Fin size → Row) : Prop :=
  ∀ i k : Fin size, i < k → k.val < count → settled ≤ k.val → key (rows i) ≤ key (rows k)

/-- A pass settles the row at its bound, when those after it are settled. -/
theorem SettledFrom.of_pass (hsettled : SettledFrom key (bound + 1) count before)
    (hrearranged : StablyRearranged key (bound + 1) before after)
    (hgreatest : GreatestAt key bound after) : SettledFrom key bound count after := by
  intro i k hlt hk hbound
  obtain hat | hlater := Nat.eq_or_lt_of_le hbound
  · exact hgreatest i k (Fin.le_of_lt hlt) hat.symm
  · obtain ⟨order, hleft, horder, -⟩ := hrearranged
    rw [horder i, horder k, hleft k hlater]
    refine hsettled _ k ?_ hk hlater
    by_cases hi : i.val < bound + 1
    · exact Fin.lt_def.mpr ((apply_lt_of_left hleft hi).trans_le hlater)
    · rwa [hleft i (Nat.not_lt.mp hi)]

/-- The sort. Assumes: rows are out of order when the key of the second one is less, the array has
that many rows, and the bounds of the loops are those of a sort of that many. The sort succeeds, and
puts the rows in the order of their keys by a stable rearrangement. -/
theorem exchangeSort_spec
    (hkey : ∀ first second, outOfOrder first second = true ↔ key second < key first)
    (hpos : 0 < count) (hcount : count ≤ size) {inner : ℕ → ℕ}
    (hinner : ∀ i < count - 1, inner i = count - i - 1) :
    ∃ after, exchangeSort outOfOrder (count - 1) inner rows = some after ∧
      StablyRearranged key count rows after ∧ SortedByKey key count after := by
  have hloop : ∃ last, exchangeSort outOfOrder (count - 1) inner rows = some last ∧
      StablyRearranged key count rows last ∧
        SettledFrom key (count - (0 + (count - 1))) count last := by
    refine countedLoop_spec
      (fun i state ↦ StablyRearranged key count rows state ∧
        SettledFrom key (count - i) count state)
      (fun i state _ hi hinvariant ↦ ?_) ⟨StablyRearranged.refl key count rows, ?_⟩
    · -- pass number i settles one more row
      obtain ⟨hbefore, hsettled⟩ := hinvariant
      have hbound : count - i = (count - i - 1) + 1 := by omega
      rw [hinner i (by omega)]
      obtain ⟨next, hnext, hrearranged, hgreatest⟩ :=
        exchangePass_spec hkey (show count - i - 1 < size by omega)
      rw [hbound] at hsettled
      refine ⟨next, hnext, hbefore.trans (hrearranged.mono (by omega)), ?_⟩
      exact hsettled.of_pass hrearranged hgreatest
    · exact fun _ k _ hk hle ↦ absurd hk (Nat.not_lt.mpr hle)
  obtain ⟨last, hlast, hrearranged, hsettled⟩ := hloop
  refine ⟨last, hlast, hrearranged, fun i k hlt hk ↦ hsettled i k hlt hk ?_⟩
  rw [Fin.lt_def] at hlt
  omega

end Sorting

end Arrays

end OneOS.Foundation
