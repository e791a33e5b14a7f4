import Mathlib.Data.List.Forall2
import OneOS.Foundation.Table

/-!
# Rows found by a key, and records beside rows

Keys of a table need not be distinct, and what is found by a key is the first row that has it. What
is asked of those rows only is `FirstRows`: it is kept when a row is appended that is as asked, a
change of one row keeps it exactly when the row that is found is as asked after the change, and a
deletion exactly when the row that is found then is.

A list of records that stands beside a table, one record for each row, follows it when the first row
that passes a test is changed (`recordFirst`) or erased (`eraseBeside`): the table zipped with its
records is changed or erased in the same way.
-/

set_option autoImplicit false
set_option relaxedAutoImplicit false

namespace OneOS.Foundation

variable {Row Record Key : Type*} {test : Row → Bool} {change : Row → Row} {table : List Row}

/-- Every row has a property after the first match is changed exactly when all rows without the
first match have it, and the changed row. -/
theorem forall_mem_updateFirst_iff_eraseP {property : Row → Prop} :
    (∀ row ∈ updateFirst test change table, property row) ↔
      (∀ row ∈ table.eraseP test, property row) ∧
        ∀ row, table.find? test = some row → property (change row) := by
  cases hfind : table.find? test with
  | none =>
    rw [updateFirst_of_find?_eq_none hfind, List.eraseP_of_forall_not]
    · simp
    · exact List.find?_eq_none.mp hfind
  | some row =>
    obtain ⟨before, after, rfl, hrow, hbefore, hupdate⟩ := updateFirst_split hfind
    have hnone : ∀ earlier ∈ before, ¬ test earlier = true := by
      intro earlier hearlier
      rw [hbefore earlier hearlier]
      exact Bool.false_ne_true
    rw [hupdate, List.eraseP_append_right _ hnone, List.eraseP_cons_of_pos hrow,
      List.forall_mem_append, List.forall_mem_append, List.forall_mem_cons]
    constructor
    · rintro ⟨hearlier, hchanged, hlater⟩
      exact ⟨⟨hearlier, hlater⟩, fun other hother ↦ Option.some.inj hother ▸ hchanged⟩
    · rintro ⟨⟨hearlier, hlater⟩, hchanged⟩
      exact ⟨hearlier, hchanged row rfl, hlater⟩

/-! ### Rows found by a key -/

section Keys

variable [DecidableEq Key] {key : Row → Key} {wanted : Key} {property : Row → Prop}

/-- Every row that is the first one with its key has a property. -/
def FirstRows (key : Row → Key) (property : Row → Prop) (table : List Row) : Prop :=
  ∀ wanted row, table.find? (fun row ↦ key row = wanted) = some row → property row

/-- The first row with a key after the first row is changed that has some key and passes another
test. Assumes: the change keeps the key. -/
theorem find?_key_updateFirst_and {other : Key} (also : Row → Bool)
    (hkeep : ∀ row, key (change row) = key row) :
    (updateFirst (fun row ↦ key row = wanted && also row) change table).find?
        (fun row ↦ key row = other) =
      if other = wanted then
        (table.find? fun row ↦ key row = other).map fun row ↦ if also row then change row else row
      else table.find? fun row ↦ key row = other := by
  induction table with
  | nil => simp
  | cons head tail ih =>
    by_cases hhead : (decide (key head = wanted) && also head) = true
    · obtain ⟨hkey, halso⟩ : key head = wanted ∧ also head = true := by simpa using hhead
      rw [updateFirst_cons_of_pos, List.find?_cons, List.find?_cons, hkeep, hkey]
      · by_cases hother : other = wanted
        · simp [hother, halso]
        · simp [hother, Ne.symm hother]
      · exact hhead
    · rw [Bool.not_eq_true] at hhead
      rw [updateFirst_cons_of_neg, List.find?_cons, List.find?_cons, ih]
      · by_cases hsame : key head = other
        · by_cases hother : other = wanted
          · have halso : also head = false := by simpa [hsame, hother] using hhead
            simp [hsame, hother, halso]
          · simp [hsame, hother]
        · simp [hsame]
      · exact hhead

/-- The row that is found by a key has it. -/
theorem key_of_find? {row : Row} (hfind : table.find? (fun row ↦ key row = wanted) = some row) :
    key row = wanted := by
  have hrow := List.find?_some hfind
  exact of_decide_eq_true hrow

theorem firstRows_nil : FirstRows key property [] :=
  fun _ _ hnone ↦ absurd hnone.symm (Option.some_ne_none _)

/-- A row with the property may be appended. -/
theorem FirstRows.concat (hfirst : FirstRows key property table) {new : Row}
    (hnew : property new) : FirstRows key property (table ++ [new]) := by
  intro wanted row hfind
  rw [List.find?_append, Option.or_eq_some_iff] at hfind
  rcases hfind with hold | ⟨-, hlast⟩
  · exact hfirst wanted row hold
  · exact List.mem_singleton.mp (List.mem_of_find?_eq_some hlast) ▸ hnew

/-- Assumes: every first row has the property, and a change that keeps the key. After the first row
with a key that passes another test is changed, every first row has the property exactly when the
first one with the key does. -/
theorem FirstRows.updateFirst_iff (hfirst : FirstRows key property table) (also : Row → Bool)
    (hkeep : ∀ row, key (change row) = key row) :
    FirstRows key property (updateFirst (fun row ↦ key row = wanted && also row) change table) ↔
      ∀ row, table.find? (fun row ↦ key row = wanted) = some row → also row = true →
        property (change row) := by
  constructor
  · intro hafter row hfind halso
    refine hafter wanted (change row) ?_
    rw [find?_key_updateFirst_and also hkeep, if_pos rfl, hfind, Option.map_some, if_pos halso]
  · intro hchanged other row hfind
    rw [find?_key_updateFirst_and also hkeep] at hfind
    split_ifs at hfind with hother
    · obtain ⟨old, hold, rfl⟩ := Option.map_eq_some_iff.mp hfind
      split_ifs with halso
      · exact hchanged old (hother ▸ hold) halso
      · exact hfirst other old hold
    · exact hfirst other row hfind

/-- Assumes: every first row has the property. After the first row with a key is erased, every first
row has the property exactly when the next one with the key does. -/
theorem FirstRows.eraseP_iff (hfirst : FirstRows key property table) :
    FirstRows key property (table.eraseP fun row ↦ key row = wanted) ↔
      ∀ row, (table.eraseP fun row ↦ key row = wanted).find? (fun row ↦ key row = wanted) =
        some row → property row := by
  constructor
  · exact fun hafter row hfind ↦ hafter wanted row hfind
  · intro hnext other row hfind
    by_cases hother : other = wanted
    · exact hnext row (hother ▸ hfind)
    · rw [find?_key_eraseP_of_ne hother] at hfind
      exact hfirst other row hfind

/-- The first row with a key is there and has a property. -/
def Finds (key : Row → Key) (property : Row → Prop) (table : List Row) (wanted : Key) : Prop :=
  ∃ row, table.find? (fun row ↦ key row = wanted) = some row ∧ property row

/-- A row that is found is found after another one is appended. -/
theorem Finds.concat {new : Row} (hfinds : Finds key property table wanted) :
    Finds key property (table ++ [new]) wanted := by
  obtain ⟨row, hfind, hrow⟩ := hfinds
  exact ⟨row, List.find?_append.trans (by rw [hfind, Option.some_or]), hrow⟩

/-- Assumes: a row with the property is found. One is found after the first rows are removed exactly
when this is so if one of those has the key. -/
theorem finds_drop_iff (hfinds : Finds key property table wanted) (n : ℕ) :
    Finds key property (table.drop n) wanted ↔
      ∀ removed ∈ table.take n, key removed = wanted →
        Finds key property (table.drop n) wanted := by
  refine ⟨fun hdrop _ _ _ ↦ hdrop, fun hremoved ↦ ?_⟩
  by_cases hsome : ∃ removed ∈ table.take n, key removed = wanted
  · obtain ⟨removed, hmem, hkey⟩ := hsome
    exact hremoved removed hmem hkey
  · obtain ⟨row, hfind, hrow⟩ := hfinds
    have hnone : (table.take n).find? (fun row ↦ key row = wanted) = none :=
      List.find?_eq_none.mpr fun removed hmem hkey ↦
        hsome ⟨removed, hmem, of_decide_eq_true hkey⟩
    rw [← List.take_append_drop n table, List.find?_append, hnone, Option.none_or] at hfind
    exact ⟨row, hfind, hrow⟩

/-- What is found after the first row with a key is changed. Assumes: the change keeps the key. -/
theorem finds_updateFirst_iff {other : Key} (hkeep : ∀ row, key (change row) = key row) :
    Finds key property (updateFirst (fun row ↦ key row = wanted) change table) other ↔
      if other = wanted then Finds key (fun row ↦ property (change row)) table other
      else Finds key property table other := by
  rw [Finds, find?_key_updateFirst hkeep]
  by_cases hother : other = wanted
  · rw [if_pos hother, if_pos hother]
    constructor
    · rintro ⟨_, hfind, hrow⟩
      obtain ⟨old, hold, rfl⟩ := Option.map_eq_some_iff.mp hfind
      exact ⟨old, hold, hrow⟩
    · rintro ⟨old, hold, hrow⟩
      exact ⟨change old, Option.map_eq_some_iff.mpr ⟨old, hold, rfl⟩, hrow⟩
  · rw [if_neg hother, if_neg hother, Finds]

/-- The row that a change makes has the property, and is found. -/
theorem finds_updateFirst_of_find? {row : Row} (hkeep : ∀ row, key (change row) = key row)
    (hfind : table.find? (fun row ↦ key row = wanted) = some row)
    (hrow : property (change row)) :
    Finds key property (updateFirst (fun row ↦ key row = wanted) change table) wanted := by
  rw [finds_updateFirst_iff hkeep, if_pos rfl]
  exact ⟨row, hfind, hrow⟩

/-- A change that keeps the key and the property of every row keeps what is found. -/
theorem Finds.updateFirst {other : Key} (hkeep : ∀ row, key (change row) = key row)
    (hproperty : ∀ row, property row → property (change row))
    (hfinds : Finds key property table other) :
    Finds key property (updateFirst (fun row ↦ key row = wanted) change table) other := by
  rw [finds_updateFirst_iff hkeep]
  split_ifs
  · obtain ⟨row, hfind, hrow⟩ := hfinds
    exact ⟨row, hfind, hproperty row hrow⟩
  · exact hfinds

end Keys

/-! ### Rows numbered by their count -/

section Numbers

variable {number : Row → UInt32} {first : UInt32}

/-- The rows are numbered in order, from a first number on. -/
def NumberedFrom (first : UInt32) (number : Row → UInt32) (table : List Row) : Prop :=
  table.map number = (List.range table.length).map fun i ↦ UInt32.ofNat i + first

/-- The number after the next one. -/
theorem nextNumber_succ (count : ℕ) (first : UInt32) :
    UInt32.ofNat count + first + 1 = UInt32.ofNat (count + 1) + first := by
  rw [UInt32.ofNat_add, UInt32.add_assoc, UInt32.add_assoc, UInt32.add_comm first]
  rfl

/-- A row with the next number may be appended. -/
theorem NumberedFrom.concat (hnumbered : NumberedFrom first number table) {new : Row}
    (hnew : number new = UInt32.ofNat table.length + first) :
    NumberedFrom first number (table ++ [new]) := by
  rw [NumberedFrom, List.map_append, hnumbered, List.length_append, List.length_singleton,
    List.range_succ, List.map_append, List.map_singleton, List.map_singleton, hnew]

/-- The last row may be taken away. -/
theorem NumberedFrom.of_concat {last : Row}
    (hnumbered : NumberedFrom first number (table ++ [last])) :
    NumberedFrom first number table ∧ number last = UInt32.ofNat table.length + first := by
  rw [NumberedFrom, List.map_append, List.map_singleton, List.length_append, List.length_singleton,
    List.range_succ, List.map_append, List.map_singleton] at hnumbered
  obtain ⟨htable, hlast⟩ := List.append_inj' hnumbered rfl
  exact ⟨htable, List.singleton_inj.mp hlast⟩

/-- A change that keeps the number may be made. -/
theorem NumberedFrom.updateFirst (hnumbered : NumberedFrom first number table)
    (hkeep : ∀ row, number (change row) = number row) :
    NumberedFrom first number (updateFirst test change table) := by
  rw [NumberedFrom, map_updateFirst fun row _ ↦ hkeep row, Foundation.updateFirst,
    List.length_modify]
  exact hnumbered

/-- The numbers are distinct as long as they do not wrap around. -/
theorem NumberedFrom.nodup (hnumbered : NumberedFrom first number table)
    (hlength : table.length < 2 ^ 32) : (table.map number).Nodup := by
  rw [hnumbered]
  refine List.Nodup.map_on (fun i hi j hj hequal ↦ ?_) List.nodup_range
  have hsame := congrArg UInt32.toNat ((UInt32.add_left_inj first).mp hequal)
  rw [List.mem_range] at hi hj
  rwa [UInt32.toNat_ofNat_of_lt' (Nat.lt_trans hi hlength),
    UInt32.toNat_ofNat_of_lt' (Nat.lt_trans hj hlength)] at hsame

end Numbers

/-! ### Records beside rows -/

/-- The records beside a table after the first row that passes a test is changed: the one beside
that row is extended. -/
def recordFirst (test : Row → Bool) (extend : Row → Record → Record) :
    List Row → List Record → List Record
  | row :: table, record :: records =>
    if test row then extend row record :: records
    else record :: recordFirst test extend table records
  | _, records => records

/-- The records beside a table after the first row that passes a test is erased: the one beside that
row is erased too. -/
def eraseBeside (test : Row → Bool) : List Row → List Record → List Record
  | row :: table, record :: records =>
    if test row then records else record :: eraseBeside test table records
  | _, records => records

variable {extend : Row → Record → Record} {records : List Record}
variable {relation : Row → Record → Prop}

/-- Records that are extended to what they are stay. -/
theorem recordFirst_same : recordFirst test (fun _ record ↦ record) table records = records := by
  induction table generalizing records with
  | nil => rfl
  | cons row table ih =>
    cases records with
    | nil => rfl
    | cons record records => rw [recordFirst, ih, ite_self]

/-- When no row passes the test the records stay. -/
theorem recordFirst_of_find?_eq_none (hnone : table.find? test = none) :
    recordFirst test extend table records = records := by
  induction table generalizing records with
  | nil => rfl
  | cons row table ih =>
    cases records with
    | nil => rfl
    | cons record records =>
      obtain ⟨hrow, hlater⟩ := List.forall_mem_cons.mp (List.find?_eq_none.mp hnone)
      rw [recordFirst, if_neg hrow, ih (List.find?_eq_none.mpr hlater)]

theorem zip_recordFirst :
    (updateFirst test change table).zip (recordFirst test extend table records) =
      updateFirst (fun pair ↦ test pair.1) (fun pair ↦ (change pair.1, extend pair.1 pair.2))
        (table.zip records) := by
  induction table generalizing records with
  | nil => simp
  | cons row table ih =>
    cases records with
    | nil => simp [recordFirst]
    | cons record records =>
      by_cases hrow : test row = true
      · rw [recordFirst, if_pos hrow, updateFirst_cons_of_pos hrow, List.zip_cons_cons,
          List.zip_cons_cons, updateFirst_cons_of_pos]
        exact hrow
      · rw [recordFirst, if_neg hrow]
        rw [Bool.not_eq_true] at hrow
        rw [updateFirst_cons_of_neg hrow, List.zip_cons_cons, List.zip_cons_cons,
          updateFirst_cons_of_neg, ih]
        exact hrow

theorem zip_eraseBeside :
    (table.eraseP test).zip (eraseBeside test table records) =
      (table.zip records).eraseP fun pair ↦ test pair.1 := by
  induction table generalizing records with
  | nil => simp
  | cons row table ih =>
    cases records with
    | nil => simp [eraseBeside]
    | cons record records =>
      by_cases hrow : test row = true
      · rw [eraseBeside, if_pos hrow, List.eraseP_cons_of_pos hrow, List.zip_cons_cons,
          List.eraseP_cons_of_pos]
        exact hrow
      · rw [eraseBeside, if_neg hrow, List.eraseP_cons_of_neg hrow, List.zip_cons_cons,
          List.zip_cons_cons, List.eraseP_cons_of_neg, ih]
        exact hrow

/-- Assumes: a change keeps the relation between a row and the record beside it. The records stay
related to the rows. -/
theorem forall₂_recordFirst (hrelated : List.Forall₂ relation table records)
    (hkeep : ∀ row record, test row = true → relation row record →
      relation (change row) (extend row record)) :
    List.Forall₂ relation (updateFirst test change table)
      (recordFirst test extend table records) := by
  induction hrelated with
  | nil => exact .nil
  | @cons row record _ _ hfirst hlater ih =>
    by_cases hrow : test row = true
    · rw [updateFirst_cons_of_pos hrow, recordFirst, if_pos hrow]
      exact .cons (hkeep row record hrow hfirst) hlater
    · rw [updateFirst_cons_of_neg (Bool.not_eq_true _ ▸ hrow), recordFirst, if_neg hrow]
      exact .cons hfirst ih

theorem forall₂_eraseBeside (hrelated : List.Forall₂ relation table records) :
    List.Forall₂ relation (table.eraseP test) (eraseBeside test table records) := by
  induction hrelated with
  | nil => exact .nil
  | @cons row record _ _ hfirst hlater ih =>
    by_cases hrow : test row = true
    · rw [List.eraseP_cons_of_pos hrow, eraseBeside, if_pos hrow]
      exact hlater
    · rw [List.eraseP_cons_of_neg hrow, eraseBeside, if_neg hrow]
      exact .cons hfirst ih

/-- Records that are as many as the rows stay so. -/
theorem length_recordFirst (hlength : records.length = table.length) :
    (recordFirst test extend table records).length = (updateFirst test change table).length := by
  have hrelated : List.Forall₂ (fun _ _ ↦ True) table records :=
    List.forall₂_iff_get.mpr ⟨hlength.symm, fun _ _ _ ↦ trivial⟩
  exact (forall₂_recordFirst hrelated fun _ _ _ _ ↦ trivial).length_eq.symm

theorem length_eraseBeside (hlength : records.length = table.length) :
    (eraseBeside test table records).length = (table.eraseP test).length := by
  have hrelated : List.Forall₂ (fun _ _ ↦ True) table records :=
    List.forall₂_iff_get.mpr ⟨hlength.symm, fun _ _ _ ↦ trivial⟩
  exact (forall₂_eraseBeside hrelated).length_eq.symm

/-- Assumes: what a record is extended to has a property. Every record has it after one is extended
exactly when all others have it. -/
theorem forall_mem_recordFirst_iff {property : Record → Prop}
    (hnew : ∀ row record, property (extend row record)) :
    (∀ record ∈ recordFirst test extend table records, property record) ↔
      ∀ record ∈ eraseBeside test table records, property record := by
  induction table generalizing records with
  | nil => simp [recordFirst, eraseBeside]
  | cons row table ih =>
    cases records with
    | nil => simp [recordFirst, eraseBeside]
    | cons record records =>
      rw [recordFirst, eraseBeside]
      split_ifs
      · rw [List.forall_mem_cons]
        exact and_iff_right (hnew row record)
      · rw [List.forall_mem_cons, List.forall_mem_cons, ih]

/-- The row that is found in a table zipped with its records is found in the table. -/
theorem find?_of_find?_zip {row : Row} {record : Record}
    (hfind : (table.zip records).find? (fun pair ↦ test pair.1) = some (row, record)) :
    table.find? test = some row := by
  induction table generalizing records with
  | nil => simp at hfind
  | cons head table ih =>
    cases records with
    | nil => simp at hfind
    | cons first records =>
      rw [List.zip_cons_cons, List.find?_cons] at hfind
      rw [List.find?_cons]
      cases hhead : test head with
      | true =>
        rw [hhead] at hfind
        exact congrArg some (congrArg Prod.fst (Option.some.inj hfind))
      | false =>
        rw [hhead] at hfind
        exact ih hfind

/-- The row that is found in a table is found with its record in the table zipped with as many
records. -/
theorem exists_find?_zip {row : Row} (hlength : table.length = records.length)
    (hfind : table.find? test = some row) :
    ∃ record, (table.zip records).find? (fun pair ↦ test pair.1) = some (row, record) := by
  induction table generalizing records with
  | nil => simp at hfind
  | cons head table ih =>
    cases records with
    | nil => simp at hlength
    | cons first records =>
      rw [List.find?_cons] at hfind
      rw [List.zip_cons_cons, List.find?_cons]
      cases hhead : test head with
      | true =>
        rw [hhead] at hfind
        exact ⟨first, congrArg (fun found ↦ some (found, first)) (Option.some.inj hfind)⟩
      | false =>
        rw [hhead] at hfind
        exact ih (Nat.succ.inj hlength) hfind

end OneOS.Foundation
