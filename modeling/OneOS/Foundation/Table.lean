import Mathlib.Algebra.BigOperators.Group.List.Basic
import Mathlib.Algebra.GroupWithZero.Nat
import Mathlib.Data.List.Nodup

/-!
# Tables updated at the first matching row

The tables of the modelled components are arrays with a count of used rows, scanned from the first
row by a loop that acts on the first row it matches and returns. A table is modelled by the list of
its used rows, and the loop by `updateFirst`, which changes the first row satisfying a test and
leaves the table alone when there is none.

`updateFirst_split` is the general description of the update: it splits the table at the matched
row, so that what the update does to counts, sums and pairwise conditions is read off a list of the
form `before ++ row :: after`. The remaining lemmas are the special cases used most.
-/

set_option autoImplicit false
set_option relaxedAutoImplicit false

namespace OneOS.Foundation

variable {Row Key : Type*} {test : Row → Bool} {change : Row → Row} {row : Row} {table : List Row}

/-- Change the first row of the table that satisfies the test. -/
def updateFirst (test : Row → Bool) (change : Row → Row) (table : List Row) : List Row :=
  table.modify (table.findIdx test) change

@[simp] theorem updateFirst_nil : updateFirst test change [] = [] := by
  simp [updateFirst]

theorem updateFirst_cons_of_pos (hrow : test row = true) :
    updateFirst test change (row :: table) = change row :: table := by
  simp [updateFirst, List.findIdx_cons, hrow]

theorem updateFirst_cons_of_neg (hrow : test row = false) :
    updateFirst test change (row :: table) = row :: updateFirst test change table := by
  simp [updateFirst, List.findIdx_cons, hrow]

/-- An update of a table whose first matching row is `row` splits the table at that row. -/
theorem updateFirst_split (hfind : table.find? test = some row) :
    ∃ before after, table = before ++ row :: after ∧ test row = true ∧
      (∀ earlier ∈ before, test earlier = false) ∧
        ∀ change : Row → Row, updateFirst test change table = before ++ change row :: after := by
  induction table with
  | nil => simp at hfind
  | cons head tail ih =>
    by_cases hhead : test head = true
    · rw [List.find?_cons_of_pos hhead, Option.some.injEq] at hfind
      subst hfind
      exact ⟨[], tail, rfl, hhead, by simp, fun _ ↦ updateFirst_cons_of_pos hhead⟩
    · rw [List.find?_cons_of_neg hhead] at hfind
      rw [Bool.not_eq_true] at hhead
      obtain ⟨before, after, rfl, hrow, hbefore, hupdate⟩ := ih hfind
      refine ⟨head :: before, after, rfl, hrow, ?_, fun change ↦ ?_⟩
      · simpa [hhead] using hbefore
      · rw [updateFirst_cons_of_neg hhead, hupdate, List.cons_append]

/-- An update that finds no matching row changes nothing. -/
theorem updateFirst_of_find?_eq_none (hfind : table.find? test = none) :
    updateFirst test change table = table := by
  have hnone : ∀ row ∈ table, test row = false := by simpa using hfind
  rw [updateFirst, List.findIdx_eq_length_of_false hnone]
  exact List.modify_eq_self (Nat.le_refl _)

/-- An update depends on what is done to the first matching row only. -/
theorem updateFirst_congr {other : Row → Row} (hfind : table.find? test = some row)
    (hsame : change row = other row) :
    updateFirst test change table = updateFirst test other table := by
  obtain ⟨before, after, -, -, -, hupdate⟩ := updateFirst_split hfind
  rw [hupdate, hupdate, hsame]

/-- An update that leaves the first matching row as it is changes nothing. -/
theorem updateFirst_eq_self (hfind : table.find? test = some row) (hsame : change row = row) :
    updateFirst test change table = table := by
  obtain ⟨before, after, hsplit, -, -, hupdate⟩ := updateFirst_split hfind
  rw [hupdate, hsame, ← hsplit]

/-- Every row after an update is an old row or the changed first matching row. -/
theorem mem_updateFirst (hrow : row ∈ updateFirst test change table) :
    row ∈ table ∨ ∃ old, table.find? test = some old ∧ row = change old := by
  cases hfind : table.find? test with
  | none =>
    rw [updateFirst_of_find?_eq_none hfind] at hrow
    exact Or.inl hrow
  | some old =>
    obtain ⟨before, after, rfl, -, -, hupdate⟩ := updateFirst_split hfind
    rw [hupdate, List.mem_append, List.mem_cons] at hrow
    rcases hrow with hbefore | hchanged | hafter
    · exact Or.inl (List.mem_append_left _ hbefore)
    · exact Or.inr ⟨old, rfl, hchanged⟩
    · exact Or.inl (List.mem_append_right _ (List.mem_cons_of_mem _ hafter))

/-- Assumes: every row of the table has a property. Every row after the update has it exactly when
the changed row, if a row was matched, has it. -/
theorem forall_mem_updateFirst_iff {property : Row → Prop} (hall : ∀ row ∈ table, property row) :
    (∀ row ∈ updateFirst test change table, property row) ↔
      ∀ row, table.find? test = some row → property (change row) := by
  constructor
  · intro hupdated row hfind
    obtain ⟨before, after, -, -, -, hupdate⟩ := updateFirst_split hfind
    rw [hupdate change] at hupdated
    exact hupdated (change row) (List.mem_append_right _ List.mem_cons_self)
  · intro hchanged row hrow
    rcases mem_updateFirst hrow with hold | ⟨old, hold, rfl⟩
    · exact hall row hold
    · exact hchanged old hold

/-- Assumes: a change that does not affect the test. Two updates one after the other are one. -/
theorem updateFirst_updateFirst {other : Row → Row} (hkeep : ∀ row, test (change row) = test row) :
    updateFirst test other (updateFirst test change table) =
      updateFirst test (fun row ↦ other (change row)) table := by
  induction table with
  | nil => simp
  | cons head tail ih =>
    cases hhead : test head with
    | true =>
      have hchanged : test (change head) = true := (hkeep head).trans hhead
      rw [updateFirst_cons_of_pos hhead, updateFirst_cons_of_pos hchanged,
        updateFirst_cons_of_pos hhead]
    | false =>
      rw [updateFirst_cons_of_neg hhead, updateFirst_cons_of_neg hhead,
        updateFirst_cons_of_neg hhead, ih]

/-- A reading of the rows that the change keeps is not affected by the update. -/
theorem map_updateFirst {reading : Row → Key}
    (hkeep : ∀ row, test row = true → reading (change row) = reading row) :
    (updateFirst test change table).map reading = table.map reading := by
  cases hfind : table.find? test with
  | none => rw [updateFirst_of_find?_eq_none hfind]
  | some row =>
    obtain ⟨before, after, rfl, hrow, -, hupdate⟩ := updateFirst_split hfind
    rw [hupdate]
    simp [hkeep row hrow]

/-- Updates by tests that no row satisfies both may be made in any order. -/
theorem updateFirst_comm {other : Row → Bool} {effect : Row → Row}
    (hkeep : ∀ row, other (change row) = other row) (hkept : ∀ row, test (effect row) = test row)
    (hapart : ∀ row, test row = true → other row = false) :
    updateFirst other effect (updateFirst test change table) =
      updateFirst test change (updateFirst other effect table) := by
  induction table with
  | nil => rw [updateFirst_nil, updateFirst_nil, updateFirst_nil]
  | cons head tail ih =>
    cases htest : test head with
    | true =>
      have hother := hapart head htest
      rw [updateFirst_cons_of_pos htest, updateFirst_cons_of_neg ((hkeep head).trans hother),
        updateFirst_cons_of_neg hother, updateFirst_cons_of_pos htest]
    | false =>
      rw [updateFirst_cons_of_neg htest]
      cases hother : other head with
      | true =>
        rw [updateFirst_cons_of_pos hother, updateFirst_cons_of_pos hother,
          updateFirst_cons_of_neg ((hkept head).trans htest)]
      | false =>
        rw [updateFirst_cons_of_neg hother, updateFirst_cons_of_neg hother,
          updateFirst_cons_of_neg htest, ih]

/-- An update, seen through a reading of the rows that the test goes by, is an update of what is
read. -/
theorem map_updateFirst_eq {Image : Type*} {reading : Row → Image} {seen : Image → Bool}
    {effect : Image → Image} (htest : ∀ row, seen (reading row) = test row)
    (hfind : table.find? test = some row) (heffect : reading (change row) = effect (reading row)) :
    (updateFirst test change table).map reading = updateFirst seen effect (table.map reading) := by
  induction table with
  | nil => rfl
  | cons head tail ih =>
    cases hhead : test head with
    | true =>
      obtain rfl : head = row := by simpa [List.find?_cons_of_pos hhead] using hfind
      rw [updateFirst_cons_of_pos hhead, List.map_cons, List.map_cons,
        updateFirst_cons_of_pos ((htest head).trans hhead), heffect]
    | false =>
      rw [List.find?_cons_of_neg (Bool.not_eq_true _ ▸ hhead)] at hfind
      rw [updateFirst_cons_of_neg hhead, List.map_cons, List.map_cons,
        updateFirst_cons_of_neg ((htest head).trans hhead), ih hfind]

/-- A lookup whose test the change keeps finds the row it found before, possibly changed. -/
theorem find?_updateFirst {lookup : Row → Bool} (hkeep : ∀ row, lookup (change row) = lookup row)
    (hfind : table.find? lookup = some row) :
    (updateFirst test change table).find? lookup = some row ∨
      (updateFirst test change table).find? lookup = some (change row) := by
  induction table with
  | nil => simp at hfind
  | cons head tail ih =>
    by_cases hlookup : lookup head = true
    · obtain rfl : head = row := by simpa [List.find?_cons_of_pos hlookup] using hfind
      by_cases htest : test head = true
      · rw [updateFirst_cons_of_pos htest, List.find?_cons_of_pos ((hkeep head).trans hlookup)]
        exact Or.inr rfl
      · rw [updateFirst_cons_of_neg (Bool.not_eq_true _ ▸ htest), List.find?_cons_of_pos hlookup]
        exact Or.inl rfl
    · rw [List.find?_cons_of_neg hlookup] at hfind
      by_cases htest : test head = true
      · rw [updateFirst_cons_of_pos htest, List.find?_cons_of_neg (by rwa [hkeep])]
        exact Or.inl hfind
      · rw [updateFirst_cons_of_neg (Bool.not_eq_true _ ▸ htest), List.find?_cons_of_neg hlookup]
        exact ih hfind

/-- A reading of the rows that a change keeps is not affected by a loop of updates. -/
theorem map_foldl_updateFirst {Wanted : Type*} {reading : Row → Key} (change : Row → Row)
    (hkeep : ∀ row, reading (change row) = reading row) (test : Wanted → Row → Bool)
    (wanteds : List Wanted) :
    (wanteds.foldl (fun rows wanted ↦ updateFirst (test wanted) change rows) table).map reading =
      table.map reading := by
  induction wanteds generalizing table with
  | nil => rfl
  | cons wanted wanteds ih => rw [List.foldl_cons, ih, map_updateFirst fun row _ ↦ hkeep row]

/-- An update leaves every row at its index, changed only if it is the first match. -/
theorem getElem?_updateFirst {i : ℕ} (hrow : table[i]? = some row) :
    (updateFirst test change table)[i]? = some row ∨
      (table.find? test = some row ∧
        (updateFirst test change table)[i]? = some (change row)) := by
  rw [updateFirst]
  by_cases hfirst : table.findIdx test = i
  · refine Or.inr ⟨?_, ?_⟩
    · rw [List.find?_eq_getElem?_findIdx, hfirst, hrow]
    · rw [hfirst, List.getElem?_modify_eq, hrow]
      rfl
  · rw [List.getElem?_modify_ne _ _ hfirst]
    exact Or.inl hrow

/-- The first match of an update is changed at its index. -/
theorem getElem?_updateFirst_of_find? (hfind : table.find? test = some row) :
    ∃ i : ℕ, table[i]? = some row ∧ (updateFirst test change table)[i]? = some (change row) := by
  rw [List.find?_eq_getElem?_findIdx] at hfind
  refine ⟨table.findIdx test, hfind, ?_⟩
  rw [updateFirst, List.getElem?_modify_eq, hfind]
  rfl

/-- A filter moves a row it keeps to the number of rows it keeps before it. -/
theorem getElem?_filter_countP {i : ℕ} (hrow : table[i]? = some row) (hkept : test row = true) :
    (table.filter test)[(table.take i).countP test]? = some row := by
  obtain ⟨hlt, hget⟩ := List.getElem?_eq_some_iff.mp hrow
  have hsplit : table = table.take i ++ row :: table.drop (i + 1) := by
    rw [← hget, List.getElem_cons_drop, List.take_append_drop]
  have hfilter : table.filter test =
      (table.take i).filter test ++ row :: (table.drop (i + 1)).filter test := by
    conv_lhs => rw [hsplit, List.filter_append, List.filter_cons_of_pos hkept]
  rw [hfilter, List.countP_eq_length_filter]
  simp

/-- A reading of the rows that a change by index keeps is not affected by the change. -/
theorem map_mapIdx_of_keep {reading : Row → Key} {change : ℕ → Row → Row}
    (hkeep : ∀ i row, reading (change i row) = reading row) :
    (table.mapIdx change).map reading = table.map reading := by
  refine List.ext_getElem? fun i ↦ ?_
  rw [List.getElem?_map, List.getElem?_mapIdx, List.getElem?_map, Option.map_map]
  exact congrFun (congrArg Option.map (funext (hkeep i))) _

/-- The rows of a table, read by their indices one after the other, are read in order. -/
theorem filterMap_range_getElem? {Image : Type*} (read : Row → Option Image) (table : List Row) :
    (List.range table.length).filterMap (fun i ↦ (table[i]?).bind read) = table.filterMap read := by
  induction table with
  | nil => rfl
  | cons head tail ih =>
    rw [List.length_cons, List.range_succ_eq_map, List.filterMap_cons, List.filterMap_cons,
      List.filterMap_map, ← ih]
    rfl

/-! ### Tables with distinct keys -/

section Keys

variable {key : Row → Key} {wanted : Key}

/-- The first row with a key after the first row with some key is changed. Assumes: the change keeps
the key. -/
theorem find?_key_updateFirst [DecidableEq Key] {other : Key}
    (hkeep : ∀ row, key (change row) = key row) :
    (updateFirst (fun row ↦ key row = wanted) change table).find? (fun row ↦ key row = other) =
      if other = wanted then (table.find? fun row ↦ key row = other).map change
      else table.find? fun row ↦ key row = other := by
  induction table with
  | nil => simp
  | cons head tail ih =>
    by_cases hhead : key head = wanted
    · rw [updateFirst_cons_of_pos, List.find?_cons, List.find?_cons, hkeep, hhead]
      · by_cases hother : other = wanted
        · simp [hother]
        · simp [hother, Ne.symm hother]
      · exact decide_eq_true hhead
    · rw [updateFirst_cons_of_neg, List.find?_cons, List.find?_cons, ih]
      · by_cases hsame : key head = other
        · have hother : other ≠ wanted := fun hwanted ↦ hhead (hsame.trans hwanted)
          simp [hsame, hother]
        · simp [hsame]
      · exact decide_eq_false hhead

/-- Assumes: distinct keys, and a test that only rows with the wanted key satisfy. Updating the
first match updates every match. -/
theorem updateFirst_eq_map (hkeys : (table.map key).Nodup)
    (htest : ∀ row, test row = true → key row = wanted) :
    updateFirst test change table =
      table.map fun row ↦ if test row = true then change row else row := by
  induction table with
  | nil => simp
  | cons head tail ih =>
    obtain ⟨hhead, htail⟩ := List.nodup_cons.mp hkeys
    by_cases hmatch : test head = true
    · have hrest : ∀ row ∈ tail, ¬ test row = true := fun row hrow hrowMatch ↦
        hhead ((htest head hmatch).trans (htest row hrowMatch).symm ▸ List.mem_map_of_mem hrow)
      rw [updateFirst_cons_of_pos hmatch, List.map_cons, if_pos hmatch]
      congr 1
      exact ((List.map_congr_left fun row hrow ↦ if_neg (hrest row hrow)).trans
        (List.map_id' tail)).symm
    · rw [updateFirst_cons_of_neg (Bool.not_eq_true _ ▸ hmatch), ih htail, List.map_cons,
        if_neg hmatch]

/-- Assumes: distinct keys, and a test that only rows with the wanted key satisfy. Erasing the
first match erases every match. -/
theorem eraseP_eq_filter (hkeys : (table.map key).Nodup)
    (htest : ∀ row, test row = true → key row = wanted) :
    table.eraseP test = table.filter fun row ↦ !test row := by
  induction table with
  | nil => rfl
  | cons head tail ih =>
    obtain ⟨hhead, htail⟩ := List.nodup_cons.mp hkeys
    by_cases hmatch : test head = true
    · have hrest : ∀ row ∈ tail, (!test row) = true := by
        intro row hrow
        rw [Bool.not_eq_true', ← Bool.not_eq_true]
        exact fun hrowMatch ↦ hhead
          ((htest head hmatch).trans (htest row hrowMatch).symm ▸ List.mem_map_of_mem hrow)
      rw [List.eraseP_cons_of_pos hmatch, List.filter_cons_of_neg (by simp [hmatch]),
        List.filter_eq_self.mpr hrest]
    · rw [List.eraseP_cons_of_neg hmatch, List.filter_cons_of_pos (by simpa using hmatch), ih htail]

/-- Assumes: distinct keys. Updating the first row with a key updates the rows with it. -/
theorem updateFirst_key_eq_map [DecidableEq Key] (hkeys : (table.map key).Nodup) :
    updateFirst (fun row ↦ key row = wanted) change table =
      table.map fun row ↦ if key row = wanted then change row else row := by
  rw [updateFirst_eq_map hkeys fun _ ↦ of_decide_eq_true]
  simp only [decide_eq_true_eq]

/-- Assumes: distinct keys. The first row that satisfies a test is changed: what held of every row
holds afterwards, if it is shown for the changed row and for rows with other keys. -/
theorem forall_mem_updateFirst_of_keys {before after : Row → Prop}
    (hkeys : (table.map key).Nodup) (hfind : table.find? test = some row)
    (hbefore : ∀ row ∈ table, before row) (hself : before row → after (change row))
    (hothers : ∀ other, key other ≠ key row → before other → after other) :
    ∀ row ∈ updateFirst test change table, after row := by
  obtain ⟨front, back, hsplit, -, -, hupdate⟩ := updateFirst_split hfind
  rw [hsplit] at hbefore hkeys
  rw [List.map_append, List.map_cons, List.nodup_append] at hkeys
  obtain ⟨-, hback, hfront⟩ := hkeys
  obtain ⟨hbeforeFront, hbeforeBack⟩ := List.forall_mem_append.mp hbefore
  obtain ⟨hbeforeSelf, hbeforeBack⟩ := List.forall_mem_cons.mp hbeforeBack
  rw [hupdate]
  refine List.forall_mem_append.mpr ⟨fun other hother ↦ ?_, List.forall_mem_cons.mpr
    ⟨hself hbeforeSelf, fun other hother ↦ ?_⟩⟩
  · refine hothers other ?_ (hbeforeFront other hother)
    exact hfront _ (List.mem_map_of_mem hother) _ List.mem_cons_self
  · refine hothers other (fun hsame ↦ ?_) (hbeforeBack other hother)
    exact (List.nodup_cons.mp hback).1 (hsame ▸ List.mem_map_of_mem hother)

/-- Assumes: distinct keys. Erasing the first row with a key erases the rows with it. -/
theorem eraseP_key_eq_filter [DecidableEq Key] (hkeys : (table.map key).Nodup) :
    table.eraseP (fun row ↦ key row = wanted) = table.filter fun row ↦ key row ≠ wanted := by
  rw [eraseP_eq_filter hkeys fun _ ↦ of_decide_eq_true]
  simp only [decide_not]

/-- Assumes: distinct keys. They are distinct after a row is appended exactly when no row has its
key. -/
theorem nodup_map_concat_iff {new : Row} (hkeys : (table.map key).Nodup) :
    ((table ++ [new]).map key).Nodup ↔ ∀ row ∈ table, key row ≠ key new := by
  rw [List.map_append, List.map_singleton, List.nodup_append]
  constructor
  · rintro ⟨-, -, hfresh⟩ row hrow
    exact hfresh _ (List.mem_map_of_mem hrow) _ List.mem_cons_self
  · intro hfresh
    refine ⟨hkeys, List.nodup_singleton _, fun old hold other hother ↦ ?_⟩
    obtain ⟨row, hrow, rfl⟩ := List.mem_map.mp hold
    rw [List.mem_singleton.mp hother]
    exact hfresh row hrow

/-- A row of a table that one is appended to is at the index where it was before, or it is the one
that is appended, behind the others. -/
theorem getElem?_concat_cases {new : Row} {i : ℕ} (hrow : (table ++ [new])[i]? = some row) :
    i < table.length ∧ table[i]? = some row ∨ i = table.length ∧ row = new := by
  rcases Nat.lt_or_ge i table.length with hold | hnew
  · rw [List.getElem?_append_left hold] at hrow
    exact Or.inl ⟨hold, hrow⟩
  · rw [List.getElem?_append_right hnew, List.getElem?_singleton] at hrow
    split_ifs at hrow with hlast
    exact Or.inr ⟨Nat.le_antisymm (Nat.sub_eq_zero_iff_le.mp hlast) hnew,
      (Option.some.inj hrow).symm⟩

/-- Distinct keys stay distinct when a row is erased. -/
theorem nodup_map_eraseP (hkeys : (table.map key).Nodup) : ((table.eraseP test).map key).Nodup :=
  hkeys.sublist (List.eraseP_sublist.map key)

/-- Assumes: distinct keys, and a change that keeps the key and makes no difference the second
time. A loop that changes the row of each wanted key in turn changes exactly the rows whose key is
wanted. -/
theorem foldl_updateFirst_eq_map [DecidableEq Key] (change : Row → Row)
    (hkeys : (table.map key).Nodup) (hkeep : ∀ row, key (change row) = key row)
    (htwice : ∀ row, change (change row) = change row) (wanteds : List Key) :
    wanteds.foldl (fun rows wanted ↦ updateFirst (fun row ↦ key row == wanted) change rows) table =
      table.map fun row ↦ if key row ∈ wanteds then change row else row := by
  induction wanteds generalizing table with
  | nil => simp
  | cons wanted wanteds ih =>
    have hnext : ((updateFirst (fun row ↦ key row == wanted) change table).map key).Nodup := by
      rwa [map_updateFirst fun row _ ↦ hkeep row]
    rw [List.foldl_cons, ih hnext, updateFirst_eq_map hkeys (fun row ↦ beq_iff_eq.mp),
      List.map_map]
    refine List.map_congr_left fun row _ ↦ ?_
    by_cases hrow : key row = wanted
    · by_cases hlater : wanted ∈ wanteds <;> simp [hrow, hkeep, htwice, hlater]
    · simp [hrow]

/-- Assumes: distinct keys. The row at an index is the first one with its key. -/
theorem findIdx_key_of_getElem? [DecidableEq Key] (hkeys : (table.map key).Nodup) {i : ℕ}
    (hrow : table[i]? = some row) : table.findIdx (fun other ↦ key other == key row) = i := by
  obtain ⟨hi, hget⟩ := List.getElem?_eq_some_iff.mp hrow
  rw [List.findIdx_eq hi]
  refine ⟨by rw [hget, beq_self_eq_true], fun j hj ↦ ?_⟩
  rw [beq_eq_false_iff_ne]
  intro hsame
  have hdifferent := List.pairwise_iff_getElem.mp hkeys j i
    (by rw [List.length_map]; omega) (by rwa [List.length_map]) hj
  rw [List.getElem_map, List.getElem_map, hget] at hdifferent
  exact hdifferent hsame

end Keys

/-- Erasing the first row that satisfies a test does not affect a lookup of other rows. -/
theorem find?_eraseP {lookup : Row → Bool} (hother : ∀ row, lookup row = true → test row = false) :
    (table.eraseP test).find? lookup = table.find? lookup := by
  induction table with
  | nil => rfl
  | cons head tail ih =>
    by_cases hmatch : test head = true
    · have hlookup : ¬ lookup head = true := fun hfound ↦ by simp [hother head hfound] at hmatch
      rw [List.eraseP_cons_of_pos hmatch, List.find?_cons_of_neg hlookup]
    · rw [List.eraseP_cons_of_neg hmatch, List.find?_cons, List.find?_cons, ih]

/-- Erasing the row with a key does not affect a lookup of another key. -/
theorem find?_key_eraseP_of_ne [DecidableEq Key] {key : Row → Key} {wanted other : Key}
    (hother : other ≠ wanted) :
    (table.eraseP fun row ↦ key row = wanted).find? (fun row ↦ key row = other) =
      table.find? fun row ↦ key row = other := by
  refine find?_eraseP fun row hrow ↦ decide_eq_false fun hwanted ↦ hother ?_
  exact (of_decide_eq_true hrow).symm.trans hwanted

/-- Assumes: distinct keys. A row is found by its key. -/
theorem find?_key_of_mem [DecidableEq Key] {key : Row → Key} (hkeys : (table.map key).Nodup)
    (hrow : row ∈ table) : table.find? (fun other ↦ key other = key row) = some row := by
  obtain ⟨found, hfind⟩ : ∃ found, table.find? (fun other ↦ key other = key row) = some found :=
    Option.isSome_iff_exists.mp (List.find?_isSome.mpr ⟨row, hrow, decide_eq_true rfl⟩)
  have htest := List.find?_some hfind
  have hsame : key found = key row := of_decide_eq_true htest
  rw [hfind, List.inj_on_of_nodup_map hkeys (List.mem_of_find?_eq_some hfind) hrow hsame]

/-- Assumes: distinct keys. Filtering a table filters what is found by a key. -/
theorem find?_key_filter [DecidableEq Key] {key : Row → Key} {wanted : Key}
    (hkeys : (table.map key).Nodup) (test : Row → Bool) :
    (table.filter test).find? (fun row ↦ key row = wanted) =
      (table.find? fun row ↦ key row = wanted).filter test := by
  induction table with
  | nil => rfl
  | cons head tail ih =>
    obtain ⟨hhead, htail⟩ := List.nodup_cons.mp hkeys
    by_cases hwanted : key head = wanted
    · have hrest : (tail.filter test).find? (fun row ↦ key row = wanted) = none := by
        refine List.find?_eq_none.mpr fun row hrow hkey ↦ hhead ?_
        rw [hwanted, ← of_decide_eq_true hkey]
        exact List.mem_map_of_mem (List.mem_of_mem_filter hrow)
      have hfound : ∀ rest : List Row,
          (head :: rest).find? (fun row ↦ key row = wanted) = some head :=
        fun _ ↦ List.find?_cons_of_pos (decide_eq_true hwanted)
      rw [hfound]
      by_cases htest : test head = true
      · rw [List.filter_cons_of_pos htest, hfound]
        simp [Option.filter, htest]
      · rw [List.filter_cons_of_neg htest, hrest]
        simp [Option.filter, htest]
    · by_cases htest : test head = true
      · simp [htest, hwanted, ih htail]
      · simp [htest, hwanted, ih htail]

/-- Rows that are replaced by one without a key are not found by it. -/
theorem find?_key_map_replace [DecidableEq Key] {key : Row → Key} {wanted : Key} {new : Row}
    (hnew : key new ≠ wanted) (test : Row → Prop) [DecidablePred test] :
    (table.map fun row ↦ if test row then new else row).find? (fun row ↦ key row = wanted) =
      (table.filter fun row ↦ ¬ test row).find? fun row ↦ key row = wanted := by
  induction table with
  | nil => rfl
  | cons head tail ih =>
    by_cases htest : test head
    · simp [htest, hnew, ih]
    · by_cases hwanted : key head = wanted
      · simp [htest, hwanted]
      · simp [htest, hwanted, ih]

/-! ### Totals over a table when one row changes -/

/-- Changing the row at an index changes a total over the table by the difference of the two rows,
stated without subtraction. -/
theorem sum_map_modify_add {weight : Row → ℕ} {i : ℕ} (hrow : table[i]? = some row)
    (change : Row → Row) :
    ((table.modify i change).map weight).sum + weight row =
      (table.map weight).sum + weight (change row) := by
  induction table generalizing i with
  | nil => simp at hrow
  | cons head tail ih =>
    cases i with
    | zero =>
      obtain rfl : head = row := by simpa using hrow
      simp only [List.modify_zero_cons, List.map_cons, List.sum_cons]
      omega
    | succ i =>
      have htail := ih (i := i) (by simpa using hrow)
      simp only [List.modify_succ_cons, List.map_cons, List.sum_cons]
      omega

/-- Writing the row at an index changes a count over the table by the difference of the two rows,
stated without subtraction. -/
theorem countP_set_add {i : ℕ} (hrow : table[i]? = some row) (new : Row) :
    (table.set i new).countP test + (if test row then 1 else 0) =
      table.countP test + (if test new then 1 else 0) := by
  induction table generalizing i with
  | nil => simp at hrow
  | cons head tail ih =>
    cases i with
    | zero =>
      obtain rfl : head = row := by simpa using hrow
      simp only [List.set_cons_zero, List.countP_cons]
      omega
    | succ i =>
      have htail := ih (i := i) (by simpa using hrow)
      simp only [List.set_cons_succ, List.countP_cons]
      omega

/-- The same for a change of the row at an index. -/
theorem countP_modify_add (test : Row → Bool) {i : ℕ} (hrow : table[i]? = some row)
    (change : Row → Row) :
    (table.modify i change).countP test + (if test row then 1 else 0) =
      table.countP test + (if test (change row) then 1 else 0) := by
  rw [List.modify_eq_set_getElem?, hrow]
  exact countP_set_add hrow (change row)

/-- Changing the first match of a test changes a total over the table by the difference of the two
rows, stated without subtraction. -/
theorem sum_map_updateFirst_add {weight : Row → ℕ} (hfind : table.find? test = some row)
    (change : Row → Row) :
    ((updateFirst test change table).map weight).sum + weight row =
      (table.map weight).sum + weight (change row) := by
  rw [List.find?_eq_getElem?_findIdx] at hfind
  exact sum_map_modify_add hfind change

/-- Changing the first match of a test changes a count over the table by the difference of the two
rows, stated without subtraction. -/
theorem countP_updateFirst_add (counted : Row → Bool) (hfind : table.find? test = some row)
    (change : Row → Row) :
    (updateFirst test change table).countP counted + (if counted row then 1 else 0) =
      table.countP counted + (if counted (change row) then 1 else 0) := by
  rw [List.find?_eq_getElem?_findIdx] at hfind
  exact countP_modify_add counted hfind change

/-- Assumes: every row of the table has a property. Every row after the row at an index is changed
has it exactly when the changed row has it. -/
theorem forall_mem_modify_iff {property : Row → Prop} {i : ℕ} (hall : ∀ row ∈ table, property row)
    (hrow : table[i]? = some row) (change : Row → Row) :
    (∀ other ∈ table.modify i change, property other) ↔ property (change row) := by
  constructor
  · intro hmodified
    refine hmodified _ (List.mem_of_getElem? (i := i) ?_)
    rw [List.getElem?_modify_eq, hrow]
    rfl
  · intro hchanged other hother
    obtain ⟨k, hk⟩ := List.mem_iff_getElem?.mp hother
    rw [List.getElem?_modify, Option.map_eq_map, Option.map_eq_some_iff] at hk
    obtain ⟨old, hold, rfl⟩ := hk
    split_ifs with hik
    · rw [hik, hold] at hrow
      rw [Option.some.inj hrow]
      exact hchanged
    · exact hall old (List.mem_of_getElem? hold)

/-- Assumes: a change keeps a property. Every row has it after a row is changed when every row had
it before. -/
theorem forall_mem_modify {property : Row → Prop} (hall : ∀ row ∈ table, property row)
    (hkeep : ∀ row, property row → property (change row)) (i : ℕ) :
    ∀ row ∈ table.modify i change, property row := by
  intro other hother
  obtain ⟨k, hk⟩ := List.mem_iff_getElem?.mp hother
  rw [List.getElem?_modify, Option.map_eq_map, Option.map_eq_some_iff] at hk
  obtain ⟨old, hold, rfl⟩ := hk
  have hproperty := hall old (List.mem_of_getElem? hold)
  split_ifs
  · exact hkeep old hproperty
  · exact hproperty

/-- A reading of the rows that the change keeps is not affected when one row is changed. -/
theorem map_modify_of_keep {reading : Row → Key} (hkeep : ∀ row, reading (change row) = reading row)
    (i : ℕ) : (table.modify i change).map reading = table.map reading := by
  induction table generalizing i with
  | nil => rw [List.modify_nil]
  | cons head tail ih =>
    cases i with
    | zero => rw [List.modify_zero_cons, List.map_cons, List.map_cons, hkeep]
    | succ i => rw [List.modify_succ_cons, List.map_cons, List.map_cons, ih]

/-- Changing the row at an index changes what a table holds altogether, up to order, by the
difference of the two rows, stated without subtraction. -/
theorem flatMap_modify_perm_append {Item : Type*} (items : Row → List Item) {i : ℕ}
    (hrow : table[i]? = some row) (change : Row → Row) :
    ((table.modify i change).flatMap items ++ items row).Perm
      (table.flatMap items ++ items (change row)) := by
  induction table generalizing i with
  | nil => simp at hrow
  | cons head tail ih =>
    cases i with
    | zero =>
      obtain rfl : head = row := by simpa using hrow
      rw [List.modify_zero_cons, List.flatMap_cons, List.flatMap_cons, List.append_assoc,
        List.append_assoc]
      have hfront : (tail.flatMap items ++ items head ++ items (change head)).Perm
          (items head ++ tail.flatMap items ++ items (change head)) :=
        List.perm_append_comm.append_right _
      rw [List.append_assoc (items head)] at hfront
      exact List.perm_append_comm.trans hfront
    | succ i =>
      rw [List.modify_succ_cons, List.flatMap_cons, List.flatMap_cons, List.append_assoc,
        List.append_assoc]
      exact (ih (by simpa using hrow)).append_left (items head)

/-- Assumes: a change adds an item to what a row holds. What a table holds altogether is, up to
order, that item more when one of its rows is changed. -/
theorem flatMap_modify_perm {Item : Type*} {items : Row → List Item} {item : Item}
    (hadds : ∀ row, items (change row) = items row ++ [item]) {i : ℕ} (hrow : i < table.length) :
    ((table.modify i change).flatMap items).Perm (item :: table.flatMap items) := by
  have hperm := flatMap_modify_perm_append items (List.getElem?_eq_getElem hrow) change
  rw [hadds, ← List.append_assoc] at hperm
  have hmove : (table.flatMap items ++ items table[i] ++ [item]).Perm
      (item :: table.flatMap items ++ items table[i]) := List.perm_append_singleton _ _
  exact (List.perm_append_right_iff _).mp (hperm.trans hmove)

/-- The first row that satisfies a test and the rows that are left when it is erased are, up to
order, all rows. -/
theorem perm_cons_eraseP_of_find? (hfind : table.find? test = some row) :
    table.Perm (row :: table.eraseP test) := by
  induction table with
  | nil => simp at hfind
  | cons head tail ih =>
    by_cases hhead : test head = true
    · rw [List.find?_cons_of_pos hhead, Option.some.injEq] at hfind
      rw [List.eraseP_cons_of_pos hhead, hfind]
    · rw [List.find?_cons_of_neg hhead] at hfind
      rw [List.eraseP_cons_of_neg hhead]
      exact ((ih hfind).cons head).trans (List.Perm.swap row head _)

/-- A total over a table is that of its first match and of the rows that are left when it is
erased. -/
theorem sum_map_eraseP_add {weight : Row → ℕ} (hfind : table.find? test = some row) :
    ((table.eraseP test).map weight).sum + weight row = (table.map weight).sum := by
  rw [((perm_cons_eraseP_of_find? hfind).map weight).sum_eq, List.map_cons, List.sum_cons,
    Nat.add_comm]

/-- A count over a table is that of its first match and of the rows that are left when it is
erased. -/
theorem countP_eraseP_add (counted : Row → Bool) (hfind : table.find? test = some row) :
    (table.eraseP test).countP counted + (if counted row then 1 else 0) =
      table.countP counted := by
  rw [(perm_cons_eraseP_of_find? hfind).countP_eq, List.countP_cons]

/-- Assumes: no item is held twice in a table. Two rows that hold the same item are the same. -/
theorem getElem?_inj_of_nodup_flatMap {Item : Type*} {items : Row → List Item} {item : Item}
    (hdistinct : (table.flatMap items).Nodup) {i j : ℕ} {other : Row}
    (hrow : table[i]? = some row) (hother : table[j]? = some other) (hitem : item ∈ items row)
    (hotherItem : item ∈ items other) : i = j := by
  have hpairwise := List.pairwise_iff_getElem.mp (List.nodup_flatMap.mp hdistinct).2
  obtain ⟨hi, rfl⟩ := List.getElem?_eq_some_iff.mp hrow
  obtain ⟨hj, rfl⟩ := List.getElem?_eq_some_iff.mp hother
  rcases Nat.lt_trichotomy i j with hlt | heq | hgt
  · exact (hpairwise i j hi hj hlt hitem hotherItem).elim
  · exact heq
  · exact (hpairwise j i hj hi hgt hotherItem hitem).elim

end OneOS.Foundation
