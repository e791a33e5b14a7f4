import OneOS.Foundation.Counters
import OneOS.Foundation.Table

/-!
# Tables whose rows are numbered from 1

A table whose rows are never removed can hand out positions as ids. The ids count from 1, so that 0
names no row (`rowOf`), and a call on an id changes the row it names, or fails when there is none
(`callOn`).

The lemmas say what a call does to the rows read back by their ids, and when every row has a
property after it. `HistoryAt` relates a row to all that has gone through it, and `RowsMatch`
relates every row to a record that is kept for its id.
-/

set_option autoImplicit false
set_option relaxedAutoImplicit false

namespace OneOS.Foundation

variable {Row : Type*} {table : List Row} {id other : UInt32} {row new : Row}
variable {act : Row → Row × Int}

/-- The row of a table that an id names. -/
def rowOf (table : List Row) (id : UInt32) : Option Row :=
  if id = 0 then none else table[id.toNat - 1]?

/-- A call on the row that an id names. Without such a row the answer is -1. -/
def callOn (table : List Row) (id : UInt32) (act : Row → Row × Int) : List Row × Int :=
  match rowOf table id with
  | none => (table, -1)
  | some row => (table.set (id.toNat - 1) (act row).1, (act row).2)

theorem callOn_of_none (hrow : rowOf table id = none) : callOn table id act = (table, -1) := by
  simp only [callOn, hrow]

theorem callOn_of_some (hrow : rowOf table id = some row) :
    callOn table id act = (table.set (id.toNat - 1) (act row).1, (act row).2) := by
  simp only [callOn, hrow]

/-- A row that an id names stands at the position before the id. -/
theorem rowOf_eq_some_iff :
    rowOf table id = some row ↔ id ≠ 0 ∧ table[id.toNat - 1]? = some row := by
  unfold rowOf
  split_ifs with hzero
  · simp [hzero]
  · simp [hzero]

theorem mem_of_rowOf (hrow : rowOf table id = some row) : row ∈ table :=
  List.mem_of_getElem? (rowOf_eq_some_iff.mp hrow).2

/-- The answer of a call that fails is not one of a call that is accepted. -/
theorem not_zero_le_neg_one : ¬ (0 : Int) ≤ -1 := by decide

/-- A call on another row or on none is not one that a row accepts. -/
theorem not_accepted_callOn (hnone : id ≠ other ∨ rowOf table other = none) :
    ¬ (id = other ∧ 0 ≤ (callOn table id act).2) := by
  rintro ⟨rfl, haccepted⟩
  rw [callOn_of_none (hnone.resolve_left (not_not.mpr rfl))] at haccepted
  exact absurd haccepted not_zero_le_neg_one

/-- A call leaves the table, if it leaves the row it names. -/
theorem callOn_eq_self (hact : ∀ row, rowOf table id = some row → (act row).1 = row) :
    (callOn table id act).1 = table := by
  cases hrow : rowOf table id with
  | none => rw [callOn_of_none hrow]
  | some row =>
    rw [callOn_of_some hrow, hact row hrow]
    obtain ⟨hlt, hat⟩ := List.getElem?_eq_some_iff.mp (rowOf_eq_some_iff.mp hrow).2
    rw [← hat, List.set_getElem_self]

/-- A call that fails leaves the table, if it leaves the row it names. -/
theorem callOn_of_failed
    (hact : ∀ row, rowOf table id = some row → (act row).2 < 0 → (act row).1 = row)
    (hfailed : (callOn table id act).2 < 0) : (callOn table id act).1 = table := by
  refine callOn_eq_self fun row hrow ↦ hact row hrow ?_
  rwa [callOn_of_some hrow] at hfailed

/-- A call changes the row that it names. -/
theorem rowOf_callOn_self :
    rowOf (callOn table id act).1 id = (rowOf table id).map fun row ↦ (act row).1 := by
  cases hrow : rowOf table id with
  | none => rw [callOn_of_none hrow, hrow, Option.map_none]
  | some row =>
    obtain ⟨hzero, hrow'⟩ := rowOf_eq_some_iff.mp hrow
    have hlt := (List.getElem?_eq_some_iff.mp hrow').1
    rw [callOn_of_some hrow, Option.map_some, rowOf_eq_some_iff]
    exact ⟨hzero, List.getElem?_set_self hlt⟩

/-- A call leaves the rows that it does not name. -/
theorem rowOf_callOn_ne (hother : other ≠ id) :
    rowOf (callOn table id act).1 other = rowOf table other := by
  cases hrow : rowOf table id with
  | none => rw [callOn_of_none hrow]
  | some row =>
    have hzero := (rowOf_eq_some_iff.mp hrow).1
    rw [callOn_of_some hrow, rowOf, rowOf]
    split_ifs with hnone
    · rfl
    · refine List.getElem?_set_ne fun hsame ↦ hother (UInt32.toNat_inj.mp ?_)
      have hid := toNat_pos hzero
      have hotherId := toNat_pos hnone
      omega

/-- A row keeps its id when another one is added. -/
theorem rowOf_concat_of_some (hrow : rowOf table id = some row) :
    rowOf (table ++ [new]) id = some row := by
  obtain ⟨hzero, hat⟩ := rowOf_eq_some_iff.mp hrow
  rw [rowOf_eq_some_iff, List.getElem?_append_left (List.getElem?_eq_some_iff.mp hat).1]
  exact ⟨hzero, hat⟩

/-- A row that is found after one is added was there before, or it is the one that is added and its
id named none. -/
theorem rowOf_concat (hrow : rowOf (table ++ [new]) id = some row) :
    rowOf table id = some row ∨ rowOf table id = none ∧ row = new := by
  obtain ⟨hzero, hat⟩ := rowOf_eq_some_iff.mp hrow
  rw [rowOf_eq_some_iff, rowOf, if_neg hzero]
  rcases Nat.lt_or_ge (id.toNat - 1) table.length with hlt | hge
  · rw [List.getElem?_append_left hlt] at hat
    exact Or.inl ⟨hzero, hat⟩
  · rw [List.getElem?_append_right hge] at hat
    refine Or.inr ⟨List.getElem?_eq_none hge, ?_⟩
    exact List.mem_singleton.mp (List.mem_of_getElem? hat)

/-- A row that is added is named by the next number, and all others keep their ids. -/
theorem rowOf_concat_eq :
    rowOf (table ++ [new]) id =
      if id.toNat = table.length + 1 then some new else rowOf table id := by
  by_cases hzero : id = 0
  · rw [rowOf, if_pos hzero, rowOf, if_pos hzero, hzero, if_neg]
    exact (Nat.succ_ne_zero _).symm
  · have hpos := toNat_pos hzero
    rw [rowOf, if_neg hzero, rowOf, if_neg hzero]
    rcases Nat.lt_trichotomy (id.toNat - 1) table.length with hlt | heq | hgt
    · rw [List.getElem?_append_left hlt, if_neg (by omega)]
    · rw [heq, List.getElem?_concat_length, if_pos (by omega)]
    · rw [if_neg (by omega), List.getElem?_eq_none (Nat.le_of_lt hgt), List.getElem?_eq_none]
      rw [List.length_append]
      exact hgt

/-- Erasing the row that an id names moves the rows behind it up by one id. -/
theorem rowOf_eraseIdx (hid : id ≠ 0) :
    rowOf (table.eraseIdx (id.toNat - 1)) other =
      if other.toNat < id.toNat then rowOf table other else table[other.toNat]? := by
  have hpos := toNat_pos hid
  by_cases hzero : other = 0
  · have hlt : other.toNat < id.toNat := by
      rw [hzero]
      exact hpos
    rw [if_pos hlt, rowOf, if_pos hzero, rowOf, if_pos hzero]
  · have hother := toNat_pos hzero
    rw [rowOf, if_neg hzero, rowOf, if_neg hzero, List.getElem?_eraseIdx]
    by_cases hlt : other.toNat < id.toNat
    · rw [if_pos hlt, if_pos (by omega)]
    · rw [if_neg hlt, if_neg (by omega), Nat.sub_add_cancel hother]

/-- A call changes a total over the table by the difference of the row that it names, stated without
subtraction. -/
theorem sum_map_callOn_add (weight : Row → ℕ) (act : Row → Row × Int)
    (hrow : rowOf table id = some row) :
    ((callOn table id act).1.map weight).sum + weight row =
      (table.map weight).sum + weight (act row).1 := by
  have hat := (rowOf_eq_some_iff.mp hrow).2
  have hmodify : ((table.modify (id.toNat - 1) fun _ ↦ (act row).1).map weight).sum + weight row =
      (table.map weight).sum + weight (act row).1 := sum_map_modify_add hat _
  rw [List.modify_eq_set_getElem?, hat] at hmodify
  rw [callOn_of_some hrow]
  exact hmodify

/-- Assumes: every row of the table has a property. Every row after a call has it exactly when the
row that is called has it after the call. -/
theorem forall_mem_callOn_iff {property : Row → Prop} (hall : ∀ row ∈ table, property row) :
    (∀ row ∈ (callOn table id act).1, property row) ↔
      ∀ row, rowOf table id = some row → property (act row).1 := by
  constructor
  · intro hafter row hrow
    refine hafter _ (mem_of_rowOf (?_ : rowOf (callOn table id act).1 id = some (act row).1))
    rw [rowOf_callOn_self, hrow, Option.map_some]
  · intro hcalled row hrow
    cases hfound : rowOf table id with
    | none =>
      rw [callOn_of_none hfound] at hrow
      exact hall row hrow
    | some old =>
      rw [callOn_of_some hfound] at hrow
      rcases List.mem_or_eq_of_mem_set hrow with hold | rfl
      · exact hall row hold
      · exact hcalled old hfound

/-- Assumes: a relation of every row to itself. It holds between every row before and after a call
exactly when it holds for the row that is called. -/
theorem forall_rowOf_callOn_iff {relation : Row → Row → Prop} (hrefl : ∀ row, relation row row) :
    (∀ id' before after, rowOf table id' = some before →
      rowOf (callOn table id act).1 id' = some after → relation before after) ↔
      ∀ row, rowOf table id = some row → relation row (act row).1 := by
  constructor
  · intro hafter row hrow
    refine hafter id row _ hrow ?_
    rw [rowOf_callOn_self, hrow, Option.map_some]
  · intro hcalled id' before after hbefore hafter
    by_cases hsame : id' = id
    · rw [hsame] at hbefore hafter
      rw [rowOf_callOn_self, hbefore, Option.map_some, Option.some.injEq] at hafter
      exact hafter ▸ hcalled before hbefore
    · rw [rowOf_callOn_ne hsame, hbefore, Option.some.injEq] at hafter
      exact hafter ▸ hrefl before

/-! ### What goes through a row -/

variable {Output Input : Type*} {outputs : List Output} {inputs : List Input}

/-- The row that an id names is related to what has come out of it and gone into it; nothing has if
there is no such row. -/
structure HistoryAt (relation : Row → List Output → List Input → Prop) (id : UInt32)
    (table : List Row) (outputs : List Output) (inputs : List Input) : Prop where
  related : ∀ row, rowOf table id = some row → relation row outputs inputs
  missing : rowOf table id = none → outputs = [] ∧ inputs = []

variable {relation : Row → List Output → List Input → Prop}

/-- Nothing has gone through a row of a table without rows. -/
theorem historyAt_nil : HistoryAt relation id [] [] [] :=
  ⟨fun _ hrow ↦ absurd (mem_of_rowOf hrow) List.not_mem_nil, fun _ ↦ ⟨rfl, rfl⟩⟩

/-- Assumes: a new row is related to nothing having gone through it. Adding it keeps the history of
every row. -/
theorem HistoryAt.concat (hhistory : HistoryAt relation id table outputs inputs)
    (hnew : relation new [] []) : HistoryAt relation id (table ++ [new]) outputs inputs := by
  refine ⟨fun row hrow ↦ ?_, fun hmissing ↦ hhistory.missing ?_⟩
  · rcases rowOf_concat hrow with hold | ⟨hmissing, rfl⟩
    · exact hhistory.related row hold
    · obtain ⟨rfl, rfl⟩ := hhistory.missing hmissing
      exact hnew
  · rw [Option.eq_none_iff_forall_ne_some] at hmissing ⊢
    exact fun row hrow ↦ hmissing row (rowOf_concat_of_some hrow)

/-- Assumes: what a call lets through the row that it names keeps the relation, and it lets nothing
through others. The call keeps the history of every row. -/
theorem HistoryAt.callOn (hhistory : HistoryAt relation id table outputs inputs)
    {moreOut : List Output} {moreIn : List Input}
    (hact : ∀ row, other = id → rowOf table id = some row →
      relation (act row).1 (outputs ++ moreOut) (inputs ++ moreIn))
    (hnone : other ≠ id ∨ rowOf table id = none → moreOut = [] ∧ moreIn = []) :
    HistoryAt relation id (callOn table other act).1 (outputs ++ moreOut) (inputs ++ moreIn) := by
  by_cases hsame : other = id
  · subst hsame
    refine ⟨fun row hrow ↦ ?_, fun hmissing ↦ ?_⟩
    · rw [rowOf_callOn_self, Option.map_eq_some_iff] at hrow
      obtain ⟨old, hold, rfl⟩ := hrow
      exact hact old rfl hold
    · rw [rowOf_callOn_self, Option.map_eq_none_iff] at hmissing
      obtain ⟨rfl, rfl⟩ := hnone (Or.inr hmissing)
      simpa using hhistory.missing hmissing
  · obtain ⟨rfl, rfl⟩ := hnone (Or.inl hsame)
    rw [List.append_nil, List.append_nil]
    have hother : rowOf (Foundation.callOn table other act).1 id = rowOf table id :=
      rowOf_callOn_ne (Ne.symm hsame)
    exact ⟨fun row hrow ↦ hhistory.related row (hother ▸ hrow),
      fun hmissing ↦ hhistory.missing (hother ▸ hmissing)⟩

/-! ### A record for every row -/

section Records

variable {Record : Type*} {matching : Row → Record → Prop} {blank record : Record}
variable {records : UInt32 → Record}

/-- Every row matches the record that is kept for its id, and the record for an id that names no row
is blank. -/
structure RowsMatch (matching : Row → Record → Prop) (blank : Record) (table : List Row)
    (records : UInt32 → Record) : Prop where
  related : ∀ id row, rowOf table id = some row → matching row (records id)
  missing : ∀ id, rowOf table id = none → records id = blank

/-- Blank records match a table without rows. -/
theorem rowsMatch_nil : RowsMatch matching blank [] fun _ ↦ blank :=
  ⟨fun _ _ hrow ↦ absurd (mem_of_rowOf hrow) List.not_mem_nil, fun _ _ ↦ rfl⟩

/-- Assumes: a new row matches the blank record. Adding it keeps the match. -/
theorem RowsMatch.concat (hmatch : RowsMatch matching blank table records)
    (hnew : matching new blank) : RowsMatch matching blank (table ++ [new]) records := by
  refine ⟨fun id row hrow ↦ ?_, fun id hmissing ↦ hmatch.missing id ?_⟩
  · rcases rowOf_concat hrow with hold | ⟨hmissing, rfl⟩
    · exact hmatch.related id row hold
    · rw [hmatch.missing id hmissing]
      exact hnew
  · rw [Option.eq_none_iff_forall_ne_some] at hmissing ⊢
    exact fun row hrow ↦ hmissing row (rowOf_concat_of_some hrow)

/-- Assumes: the record of the row that is called is the only one that changes. The match is kept
exactly when that row matches its new record. -/
theorem RowsMatch.callOn_iff (hmatch : RowsMatch matching blank table records)
    (hmissing : rowOf table id = none → record = records id) :
    RowsMatch matching blank (callOn table id act).1 (Function.update records id record) ↔
      ∀ row, rowOf table id = some row → matching (act row).1 record := by
  constructor
  · intro hafter row hrow
    have hself := hafter.related id (act row).1
    rw [rowOf_callOn_self, hrow, Function.update_self] at hself
    exact hself rfl
  · intro hcalled
    refine ⟨fun other row hrow ↦ ?_, fun other hnone ↦ ?_⟩
    · by_cases hother : other = id
      · rw [hother, rowOf_callOn_self, Option.map_eq_some_iff] at hrow
        obtain ⟨old, hold, rfl⟩ := hrow
        rw [hother, Function.update_self]
        exact hcalled old hold
      · rw [rowOf_callOn_ne hother] at hrow
        rw [Function.update_of_ne hother]
        exact hmatch.related other row hrow
    · by_cases hother : other = id
      · rw [hother, rowOf_callOn_self, Option.map_eq_none_iff] at hnone
        rw [hother, Function.update_self, hmissing hnone]
        exact hmatch.missing id hnone
      · rw [rowOf_callOn_ne hother] at hnone
        rw [Function.update_of_ne hother]
        exact hmatch.missing other hnone

/-- A match may be weakened. -/
theorem RowsMatch.imp {weaker : Row → Record → Prop}
    (himp : ∀ row record, matching row record → weaker row record)
    (hmatch : RowsMatch matching blank table records) : RowsMatch weaker blank table records :=
  ⟨fun id row hrow ↦ himp row _ (hmatch.related id row hrow), hmatch.missing⟩

/-- The records after a call on the row that an id names: the one of that row is extended. -/
def recordAfter (table : List Row) (id : UInt32) (extend : Row → Record → Record)
    (records : UInt32 → Record) : UInt32 → Record :=
  match rowOf table id with
  | none => records
  | some row => Function.update records id (extend row (records id))

/-- Assumes: the record of the row that is called is extended. The match is kept exactly when that
row matches its extended record. -/
theorem RowsMatch.recordAfter_iff (hmatch : RowsMatch matching blank table records)
    (extend : Row → Record → Record) :
    RowsMatch matching blank (callOn table id act).1 (recordAfter table id extend records) ↔
      ∀ row, rowOf table id = some row → matching (act row).1 (extend row (records id)) := by
  cases hrow : rowOf table id with
  | none =>
    rw [callOn_of_none hrow, recordAfter, hrow]
    exact iff_of_true hmatch fun _ hnone ↦ absurd hnone.symm (Option.some_ne_none _)
  | some row =>
    rw [recordAfter, hrow]
    dsimp only
    rw [hmatch.callOn_iff fun hnone ↦ absurd (hnone.symm.trans hrow) (by simp), hrow]
    constructor
    · intro hmatches other hother
      obtain rfl := Option.some.inj hother
      exact hmatches row rfl
    · intro hmatches other hother
      obtain rfl := Option.some.inj hother
      exact hmatches row rfl

end Records

end OneOS.Foundation
