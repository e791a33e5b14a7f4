import OneOS.Memory.MarkSweepCollector
import Mathlib.Algebra.Order.Group.Multiset
import Mathlib.Data.Multiset.AddSub

/-!
# The references an object holds

What `gc_add_reference` and `gc_remove_reference` leave of the references of an object, over runs
of all operations of the collector, the two phases of a collection among them. Beside the run a
record is kept of what every slot should hold: a reference more for every addition that returned 0,
one less for every removal that returned 0, and none for a slot that was cleared.

A removal writes zero over the entry and lowers the count, so the live references lose their last
entry and keep a zero in the place of the removed one. It is exact when the entry is the last one,
or when what is lost is a zero: `coe_take_set_eq_erase_iff` says so for any array of which a first
part is in use. `referencesExact_iff` states it for every run, and
`not_referencesExact_removed_first` is a run of two additions and a removal after which the object
lists an object that does not exist.
-/

set_option autoImplicit false
set_option relaxedAutoImplicit false

namespace OneOS.Memory.MarkSweepCollector

open Foundation

/-! ### Blanking an entry and dropping the last one -/

section Blanking

variable {Item : Type*} [DecidableEq Item]

/-- Assumes: the item is among the entries. Writing a blank over its first occurrence and dropping
the last entry removes exactly one occurrence of the item exactly when the item occurs only as the
last entry, or the last entry is a blank. -/
theorem coe_take_set_eq_erase_iff {entries : List Item} {item blank : Item}
    (hitem : item ∈ entries) :
    (((entries.set (entries.idxOf item) blank).take (entries.length - 1) : List Item) :
        Multiset Item) = (entries : Multiset Item).erase item ↔
      item ∉ entries.dropLast ∨ entries.getLast? = some blank := by
  obtain ⟨before, after, rfl, hbefore⟩ := List.eq_append_cons_of_mem hitem
  have hindex : (before ++ item :: after).idxOf item = before.length := by
    rw [List.idxOf_append_of_notMem hbefore, List.idxOf_cons_self, Nat.add_zero]
  have herased : ((before ++ item :: after : List Item) : Multiset Item).erase item =
      ((before ++ after : List Item) : Multiset Item) := by
    rw [Multiset.coe_erase, List.erase_append_right _ hbefore, List.erase_cons_head]
  rw [hindex, herased, List.set_append_right _ _ (Nat.le_refl _), Nat.sub_self, List.set_cons_zero]
  obtain rfl | ⟨rest, last, rfl⟩ := after.eq_nil_or_concat
  · -- the item is the last entry, and nothing else is dropped
    simp [hbefore]
  · -- the blank stays, and the last entry is dropped in the place of the item
    rw [List.concat_eq_append]
    have htake : (before ++ blank :: (rest ++ [last])).take
        ((before ++ item :: (rest ++ [last])).length - 1) = before ++ blank :: rest := by
      rw [show before ++ blank :: (rest ++ [last]) = (before ++ blank :: rest) ++ [last] by simp]
      exact List.take_left' (by simp)
    have hlast : (before ++ item :: (rest ++ [last])).getLast? = some last := by
      rw [show before ++ item :: (rest ++ [last]) = (before ++ item :: rest) ++ [last] by simp]
      exact List.getLast?_concat
    have hmem : item ∈ (before ++ item :: (rest ++ [last])).dropLast := by
      rw [show before ++ item :: (rest ++ [last]) = (before ++ item :: rest) ++ [last] by simp,
        List.dropLast_concat]
      exact List.mem_append_right _ List.mem_cons_self
    rw [htake, hlast, or_iff_right (not_not_intro hmem), Option.some.injEq, Multiset.coe_eq_coe,
      ← List.append_assoc]
    have hblank : (before ++ blank :: rest).Perm (blank :: (before ++ rest)) :=
      List.perm_middle
    have hdropped : (before ++ rest ++ [last]).Perm (last :: (before ++ rest)) :=
      List.perm_append_singleton last (before ++ rest)
    constructor
    · intro hperm
      have hcons : (blank :: (before ++ rest)).Perm (last :: (before ++ rest)) :=
        hblank.symm.trans (hperm.trans hdropped)
      have hcount := hcons.count_eq last
      rw [List.count_cons, List.count_cons_self] at hcount
      by_contra hne
      rw [if_neg (by simpa using fun h ↦ hne h.symm)] at hcount
      omega
    · rintro rfl
      exact hblank.trans hdropped.symm

end Blanking

/-! ### Runs with the phases of a collection -/

deriving instance DecidableEq for GCObject

/-- A call on the collector, or one of the two phases of a collection on its own. -/
inductive CollectorCall
  | call (gcCall : GcCall)
  | markPhase
  | sweepPhase

/-- The collector after a call. -/
def collectorStep (gc : GarbageCollector) : CollectorCall → GarbageCollector
  | .call gcCall => gcStep gc gcCall
  | .markPhase => gcMarkPhase gc
  | .sweepPhase => (gcSweepPhase gc).1

/-- The object in a slot, a zeroed one where the slot is not in use. -/
def slotObject (gc : GarbageCollector) (i : ℕ) : GCObject :=
  gc.objects[i]?.getD .zeroed

/-- The live references of the object in a slot. -/
def slotReferences (gc : GarbageCollector) (i : ℕ) : List UInt32 :=
  (slotObject gc i).liveReferences

/-- The test of `gc_remove_reference`: the object has the identifier and lists the target. -/
def listsTarget (fromObject toObject : UInt32) (object : GCObject) : Bool :=
  hasId fromObject object && object.liveReferences.contains toObject

/-! ### The record of what is held -/

/-- What every slot should hold after a call, from what it should hold before it. -/
def recordReferences (gc : GarbageCollector) :
    CollectorCall → (ℕ → Multiset UInt32) → ℕ → Multiset UInt32
  | .call (.addReference fromObject toObject), record =>
    if (gcAddReference gc fromObject toObject).2 = 0 then
      let i := gc.objects.findIdx (hasId fromObject)
      Function.update record i (toObject ::ₘ record i)
    else record
  | .call (.removeReference fromObject toObject), record =>
    if (gcRemoveReference gc fromObject toObject).2 = 0 then
      let i := gc.objects.findIdx (listsTarget fromObject toObject)
      Function.update record i ((record i).erase toObject)
    else record
  | other, record => fun i ↦
    if (collectorStep gc other).objects[i]? = some .zeroed then 0 else record i

/-- Every slot holds what the record says: no reference that was added and not removed is lost, and
none is held that was not added. -/
def HoldsRecorded (traced : GarbageCollector × (ℕ → Multiset UInt32)) : Prop :=
  ∀ i, (slotReferences traced.1 i : Multiset UInt32) = traced.2 i

/-- A removal that returns 0 takes exactly one occurrence of the target from one object with the
identifier, and leaves the references of all others. -/
def RemovalExact (gc : GarbageCollector) : CollectorCall → Prop
  | .call (.removeReference fromObject toObject) =>
    (gcRemoveReference gc fromObject toObject).2 = 0 →
      ∃ i, ∃ object, gc.objects[i]? = some object ∧ object.objectId = fromObject ∧
        toObject ∈ object.liveReferences ∧
        (slotReferences (gcRemoveReference gc fromObject toObject).1 i : Multiset UInt32) =
          (slotReferences gc i : Multiset UInt32).erase toObject ∧
        ∀ other, other ≠ i →
          slotReferences (gcRemoveReference gc fromObject toObject).1 other =
            slotReferences gc other
  | _ => True

/-- The object that a removal changes lists the target only as its last live reference, or has a
zero as the last one. -/
def RemovesLastEntry (gc : GarbageCollector) : CollectorCall → Prop
  | .call (.removeReference fromObject toObject) =>
    ∀ object, gc.objects.find? (listsTarget fromObject toObject) = some object →
      toObject ∉ object.liveReferences.dropLast ∨ object.liveReferences.getLast? = some 0
  | _ => True

/-! ### What a call does to the references -/

/-- No object counts more references than its array holds. -/
def CountsFit (gc : GarbageCollector) : Prop :=
  ∀ i, (slotObject gc i).referenceCount.toNat ≤ maxObjectReferences

@[simp] theorem liveReferences_zeroed : GCObject.zeroed.liveReferences = [] := rfl

theorem length_liveReferences {object : GCObject}
    (hfits : object.referenceCount.toNat ≤ maxObjectReferences) :
    object.liveReferences.length = object.referenceCount.toNat := by
  rw [GCObject.liveReferences, List.length_take, Vector.length_toList, Nat.min_eq_left hfits]

theorem referenceCount_addReference {object : GCObject} (toObject : UInt32)
    (hroom : object.referenceCount.toNat < maxObjectReferences) :
    (object.addReference toObject).referenceCount.toNat = object.referenceCount.toNat + 1 := by
  rw [GCObject.addReference, dif_pos hroom]
  rw [maxObjectReferences] at hroom
  rw [UInt32.toNat_add, UInt32.toNat_one, Nat.mod_eq_of_lt (by omega)]

theorem referenceCount_removeReference {object : GCObject} {toObject : UInt32}
    (hlists : toObject ∈ object.liveReferences) :
    (object.removeReference toObject).referenceCount.toNat = object.referenceCount.toNat - 1 := by
  have hcount := referenceCount_pos_of_mem hlists
  rw [UInt32.lt_iff_toNat_lt, UInt32.toNat_zero] at hcount
  rw [GCObject.removeReference,
    UInt32.toNat_sub_of_le _ _ (by rwa [UInt32.le_iff_toNat_le, UInt32.toNat_one]),
    UInt32.toNat_one]

/-- An addition appends to the live references. -/
theorem liveReferences_addReference {object : GCObject} (toObject : UInt32)
    (hroom : object.referenceCount.toNat < maxObjectReferences) :
    (object.addReference toObject).liveReferences = object.liveReferences ++ [toObject] := by
  rw [GCObject.liveReferences, referenceCount_addReference toObject hroom, GCObject.addReference,
    dif_pos hroom, GCObject.liveReferences, Vector.toList_set, List.take_add_one,
    List.take_set_of_le (Nat.le_refl _),
    List.getElem?_set_self (by rwa [Vector.length_toList]), Option.toList_some]

/-- A removal blanks the first entry with the target and drops the last entry. -/
theorem liveReferences_removeReference {object : GCObject} {toObject : UInt32}
    (hfits : object.referenceCount.toNat ≤ maxObjectReferences)
    (hlists : toObject ∈ object.liveReferences) :
    (object.removeReference toObject).liveReferences =
      (object.liveReferences.set (object.liveReferences.idxOf toObject) 0).take
        (object.liveReferences.length - 1) := by
  rw [length_liveReferences hfits, GCObject.liveReferences, referenceCount_removeReference hlists]
  simp only [GCObject.removeReference, GCObject.liveReferences]
  rw [Vector.toList_setIfInBounds, ← List.take_set, List.take_take,
    Nat.min_eq_left (Nat.sub_le _ 1), List.idxOf]

theorem slotObject_of_getElem? {gc : GarbageCollector} {i : ℕ} {object : GCObject}
    (hobject : gc.objects[i]? = some object) : slotObject gc i = object := by
  rw [slotObject, hobject, Option.getD_some]

theorem slotObject_of_find? {gc : GarbageCollector} {test : GCObject → Bool} {object : GCObject}
    (hfind : gc.objects.find? test = some object) :
    slotObject gc (gc.objects.findIdx test) = object := by
  rw [List.find?_eq_getElem?_findIdx] at hfind
  exact slotObject_of_getElem? hfind

/-- A call that changes the first object with a test leaves every other slot. -/
theorem slotObject_updateFirst_of_ne {gc : GarbageCollector} {test : GCObject → Bool}
    {change : GCObject → GCObject} {i : ℕ} (hi : i ≠ gc.objects.findIdx test) :
    slotObject { gc with objects := updateFirst test change gc.objects } i = slotObject gc i := by
  simp only [slotObject, updateFirst]
  rw [List.getElem?_modify_ne _ _ (Ne.symm hi)]

/-- A call that changes the first object with a test leaves the changed one in its slot. -/
theorem slotObject_updateFirst_self {gc : GarbageCollector} {test : GCObject → Bool}
    {change : GCObject → GCObject} {object : GCObject}
    (hfind : gc.objects.find? test = some object) :
    slotObject { gc with objects := updateFirst test change gc.objects }
      (gc.objects.findIdx test) = change object := by
  apply slotObject_of_getElem?
  rw [List.find?_eq_getElem?_findIdx] at hfind
  simp only [updateFirst]
  rw [List.getElem?_modify_eq, hfind]
  rfl

/-- `gc_add_reference` finds no object with room, or appends to the references of the first
object with the identifier. -/
theorem gcAddReference_cases (gc : GarbageCollector) (fromObject toObject : UInt32) :
    gcAddReference gc fromObject toObject = (gc, -1) ∨
      ∃ object, gc.objects.find? (hasId fromObject) = some object ∧
        object.referenceCount.toNat < maxObjectReferences ∧
        gcAddReference gc fromObject toObject = ({ gc with
          objects := updateFirst (hasId fromObject) (GCObject.addReference toObject)
            gc.objects }, 0) := by
  rw [gcAddReference]
  cases hfind : gc.objects.find? (hasId fromObject) with
  | none => exact Or.inl rfl
  | some object =>
    by_cases hroom : maxObjectReferences ≤ object.referenceCount.toNat
    · exact Or.inl (if_pos hroom)
    · exact Or.inr ⟨object, rfl, Nat.lt_of_not_le hroom, if_neg hroom⟩

/-- `gc_remove_reference` finds no object that lists the target, or changes the first one. -/
theorem gcRemoveReference_cases (gc : GarbageCollector) (fromObject toObject : UInt32) :
    (gc.objects.find? (listsTarget fromObject toObject) = none ∧
        gcRemoveReference gc fromObject toObject = (gc, -1)) ∨
      ∃ object, gc.objects.find? (listsTarget fromObject toObject) = some object ∧
        object.objectId = fromObject ∧ toObject ∈ object.liveReferences ∧
        gcRemoveReference gc fromObject toObject = ({ gc with
          objects := updateFirst (listsTarget fromObject toObject)
            (GCObject.removeReference toObject) gc.objects }, 0) := by
  change _ ∨ ∃ object, _ ∧ _ ∧ _ ∧
    (if gc.objects.any (listsTarget fromObject toObject) then _ else _) = _
  cases hfind : gc.objects.find? (listsTarget fromObject toObject) with
  | none =>
    have hany : gc.objects.any (listsTarget fromObject toObject) = false := by
      simpa using hfind
    exact Or.inl ⟨rfl, if_neg (Bool.eq_false_iff.mp hany)⟩
  | some object =>
    have htest := List.find?_some hfind
    rw [listsTarget, Bool.and_eq_true, hasId, beq_iff_eq, List.contains_iff_mem] at htest
    refine Or.inr ⟨object, rfl, htest.1, htest.2, if_pos ?_⟩
    exact List.any_eq_true.mpr ⟨object, List.mem_of_find?_eq_some hfind, List.find?_some hfind⟩

/-- A call other than an addition or a removal of a reference. -/
def OtherCall : CollectorCall → Prop
  | .call (.addReference _ _) => False
  | .call (.removeReference _ _) => False
  | _ => True

/-- Clearing the first object with a test clears one slot and leaves the others. -/
theorem getElem?_clearFirst (test : GCObject → Bool) (objects : List GCObject) (i : ℕ) :
    (updateFirst test (fun _ ↦ .zeroed) objects)[i]? = some .zeroed ∨
      (updateFirst test (fun _ ↦ .zeroed) objects)[i]? = objects[i]? := by
  cases hi : objects[i]? with
  | none =>
    refine Or.inr ?_
    rw [List.getElem?_eq_none_iff] at hi ⊢
    rwa [updateFirst, List.length_modify]
  | some object =>
    have hslot : (updateFirst test (fun _ ↦ .zeroed) objects)[i]? = some object ∨
        objects.find? test = some object ∧
          (updateFirst test (fun _ ↦ .zeroed) objects)[i]? = some .zeroed :=
      getElem?_updateFirst hi
    rcases hslot with hkept | ⟨-, hcleared⟩
    · exact Or.inr hkept
    · exact Or.inl hcleared

theorem getElem?_gcCollectObject (gc : GarbageCollector) (objectId : UInt32) (i : ℕ) :
    (gcCollectObject gc objectId).1.objects[i]? = some .zeroed ∨
      (gcCollectObject gc objectId).1.objects[i]? = gc.objects[i]? := by
  rw [gcCollectObject]
  split
  · exact Or.inr rfl
  · exact getElem?_clearFirst _ _ _

theorem getElem?_gcRunIncrementalCollection (gc : GarbageCollector) (i : ℕ) :
    (gcRunIncrementalCollection gc).1.objects[i]? = some .zeroed ∨
      (gcRunIncrementalCollection gc).1.objects[i]? = gc.objects[i]? := by
  -- every turn of the loop clears a slot or leaves it, and a cleared slot stays cleared
  have hturns : ∀ turns : List ℕ, ∀ current : GarbageCollector,
      (turns.foldl gcIncrementalTurn current).objects[i]? = some .zeroed ∨
        (turns.foldl gcIncrementalTurn current).objects[i]? = current.objects[i]? := by
    intro turns
    induction turns with
    | nil => exact fun current ↦ Or.inr rfl
    | cons turn turns ih =>
      intro current
      have hturn : (gcIncrementalTurn current turn).objects[i]? = some .zeroed ∨
          (gcIncrementalTurn current turn).objects[i]? = current.objects[i]? := by
        rw [gcIncrementalTurn]
        split
        · exact Or.inr rfl
        · split
          · exact getElem?_gcCollectObject _ _ _
          · exact Or.inr rfl
      rw [List.foldl_cons]
      rcases ih (gcIncrementalTurn current turn) with hcleared | hkept
      · exact Or.inl hcleared
      · rw [hkept]
        exact hturn
  exact hturns _ gc

/-- Two objects hold the same references in the same places. -/
def HoldSame (first second : GCObject) : Prop :=
  first.referenceCount = second.referenceCount ∧
    first.referencedObjects = second.referencedObjects

theorem HoldSame.liveReferences {first second : GCObject} (hsame : HoldSame first second) :
    first.liveReferences = second.liveReferences := by
  rw [GCObject.liveReferences, hsame.1, hsame.2, GCObject.liveReferences]

theorem holdSame_mark (object : GCObject) : HoldSame object.mark object := by
  rw [GCObject.mark]
  split <;> exact ⟨rfl, rfl⟩

theorem sweep_cases (object : GCObject) :
    object.sweep = .zeroed ∨ HoldSame object.sweep object := by
  rw [GCObject.sweep]
  split
  · exact Or.inl rfl
  · exact Or.inr ⟨rfl, rfl⟩

/-- A call that treats every object on its own, clearing it or leaving its references, does so in
every slot. -/
theorem slotObject_of_map {gc after : GarbageCollector} {change : GCObject → GCObject}
    (hmap : after.objects = gc.objects.map change)
    (hchange : ∀ object, change object = .zeroed ∨ HoldSame (change object) object) (i : ℕ) :
    after.objects[i]? = some .zeroed ∨ HoldSame (slotObject after i) (slotObject gc i) := by
  rw [slotObject, hmap, List.getElem?_map, slotObject]
  cases gc.objects[i]? with
  | none => exact Or.inr ⟨rfl, rfl⟩
  | some object =>
    rcases hchange object with hcleared | hkept
    · exact Or.inl (congrArg some hcleared)
    · exact Or.inr hkept

/-- A call that clears a slot or leaves it clears it or leaves its references. -/
theorem slotObject_of_getElem?_cases {gc after : GarbageCollector} {i : ℕ}
    (hcases : after.objects[i]? = some .zeroed ∨ after.objects[i]? = gc.objects[i]?) :
    after.objects[i]? = some .zeroed ∨ HoldSame (slotObject after i) (slotObject gc i) := by
  refine hcases.imp id fun hkept ↦ ?_
  rw [slotObject, hkept, slotObject]
  exact ⟨rfl, rfl⟩

theorem slotObject_gcAllocateObject (gc : GarbageCollector) (objectSize : UInt64)
    (allocated i : ℕ) :
    HoldSame (slotObject (gcAllocateObject gc objectSize allocated).1 i) (slotObject gc i) := by
  rw [gcAllocateObject]
  split
  · exact ⟨rfl, rfl⟩
  · split
    · exact ⟨rfl, rfl⟩
    · simp only [slotObject]
      rw [List.getElem?_append]
      split
      · exact ⟨rfl, rfl⟩
      · -- the new object holds no reference, as the slot behind the table did
        rename_i hlength
        rw [List.getElem?_eq_none (Nat.le_of_not_lt hlength)]
        rcases i - gc.objects.length with - | k
        · exact ⟨rfl, rfl⟩
        · exact ⟨rfl, rfl⟩

theorem slotObject_gcSetStatus (gc : GarbageCollector) (objectId : UInt32) (status : GCStatus)
    (i : ℕ) : HoldSame (slotObject (gcSetStatus gc objectId status).1 i) (slotObject gc i) := by
  rw [gcSetStatus]
  split
  · by_cases hi : i = gc.objects.findIdx (hasId objectId)
    · cases hfind : gc.objects.find? (hasId objectId) with
      | none =>
        rw [updateFirst_of_find?_eq_none hfind]
        exact ⟨rfl, rfl⟩
      | some object =>
        rw [hi, slotObject_updateFirst_self hfind, slotObject_of_find? hfind]
        exact ⟨rfl, rfl⟩
    · rw [slotObject_updateFirst_of_ne hi]
      exact ⟨rfl, rfl⟩
  · exact ⟨rfl, rfl⟩

/-- What the other calls do: they clear a slot, or leave its references. -/
theorem slotObject_otherCall {gc : GarbageCollector} {call : CollectorCall}
    (hother : OtherCall call) (i : ℕ) :
    (collectorStep gc call).objects[i]? = some .zeroed ∨
      HoldSame (slotObject (collectorStep gc call) i) (slotObject gc i) := by
  cases call with
  | markPhase => exact slotObject_of_map rfl (fun object ↦ Or.inr (holdSame_mark object)) i
  | sweepPhase => exact slotObject_of_map rfl sweep_cases i
  | call gcCall =>
    cases gcCall with
    | allocateObject objectSize allocated =>
      exact Or.inr (slotObject_gcAllocateObject gc objectSize allocated i)
    | deallocateObject objectId =>
      apply slotObject_of_getElem?_cases
      change (gcDeallocateObject gc objectId).1.objects[i]? = _ ∨
        (gcDeallocateObject gc objectId).1.objects[i]? = _
      rw [gcDeallocateObject]
      split
      · exact getElem?_clearFirst _ _ _
      · exact Or.inr rfl
    | addReference fromObject toObject => exact hother.elim
    | removeReference fromObject toObject => exact hother.elim
    | runFullCollection =>
      refine slotObject_of_map (objects_gcRunFullCollection gc) (fun object ↦ ?_) i
      obtain ⟨hcount, hentries⟩ := holdSame_mark object
      refine (sweep_cases object.mark).imp id fun hkept ↦ ?_
      exact ⟨hkept.1.trans hcount, hkept.2.trans hentries⟩
    | runIncrementalCollection =>
      exact slotObject_of_getElem?_cases (getElem?_gcRunIncrementalCollection gc i)
    | markObject objectId => exact Or.inr (slotObject_gcSetStatus gc objectId _ i)
    | unmarkObject objectId => exact Or.inr (slotObject_gcSetStatus gc objectId _ i)
    | collectObject objectId =>
      exact slotObject_of_getElem?_cases (getElem?_gcCollectObject gc objectId i)

/-! ### The references along a run -/

theorem countsFit_updateFirst {gc : GarbageCollector} {test : GCObject → Bool}
    {change : GCObject → GCObject} {object : GCObject} (hfits : CountsFit gc)
    (hfind : gc.objects.find? test = some object)
    (hchange : (change object).referenceCount.toNat ≤ maxObjectReferences) :
    CountsFit { gc with objects := updateFirst test change gc.objects } := by
  intro i
  by_cases hi : i = gc.objects.findIdx test
  · rw [hi, slotObject_updateFirst_self hfind]
    exact hchange
  · rw [slotObject_updateFirst_of_ne hi]
    exact hfits i

/-- Every call keeps the bound on the counts. -/
theorem countsFit_collectorStep {gc : GarbageCollector} (hfits : CountsFit gc)
    (call : CollectorCall) : CountsFit (collectorStep gc call) := by
  have hrest : OtherCall call → CountsFit (collectorStep gc call) := by
    intro hother i
    rcases slotObject_otherCall hother i with hcleared | hkept
    · rw [slotObject_of_getElem? hcleared]
      exact Nat.zero_le _
    · rw [hkept.1]
      exact hfits i
  match call with
  | .call (.addReference fromObject toObject) =>
    change CountsFit (gcAddReference gc fromObject toObject).1
    rcases gcAddReference_cases gc fromObject toObject with
      hfailed | ⟨object, hfind, hroom, hadded⟩
    · rw [hfailed]
      exact hfits
    · rw [hadded]
      refine countsFit_updateFirst hfits hfind ?_
      rw [referenceCount_addReference toObject hroom]
      exact hroom
  | .call (.removeReference fromObject toObject) =>
    change CountsFit (gcRemoveReference gc fromObject toObject).1
    rcases gcRemoveReference_cases gc fromObject toObject with
      ⟨-, hfailed⟩ | ⟨object, hfind, -, hlists, hremoved⟩
    · rw [hfailed]
      exact hfits
    · rw [hremoved]
      refine countsFit_updateFirst hfits hfind ?_
      rw [referenceCount_removeReference hlists, ← slotObject_of_find? hfind]
      exact (Nat.sub_le _ _).trans (hfits _)
  | .call (.allocateObject _ _) | .call (.deallocateObject _) | .call .runFullCollection
  | .call .runIncrementalCollection | .call (.markObject _) | .call (.unmarkObject _)
  | .call (.collectObject _) | .markPhase | .sweepPhase => exact hrest trivial

/-- Assumes: the counts fit. A removal from the object found is exact exactly when the target is
only its last live reference, or its last one is zero. -/
theorem slotReferences_removed_iff {gc : GarbageCollector} {fromObject toObject : UInt32}
    {object : GCObject} (hfits : CountsFit gc)
    (hfind : gc.objects.find? (listsTarget fromObject toObject) = some object)
    (hlists : toObject ∈ object.liveReferences) :
    (slotReferences { gc with
        objects := updateFirst (listsTarget fromObject toObject)
          (GCObject.removeReference toObject) gc.objects }
        (gc.objects.findIdx (listsTarget fromObject toObject)) : Multiset UInt32) =
      (slotReferences gc (gc.objects.findIdx (listsTarget fromObject toObject)) :
        Multiset UInt32).erase toObject ↔
      toObject ∉ object.liveReferences.dropLast ∨ object.liveReferences.getLast? = some 0 := by
  have hcount : object.referenceCount.toNat ≤ maxObjectReferences := by
    rw [← slotObject_of_find? hfind]
    exact hfits _
  rw [slotReferences, slotObject_updateFirst_self hfind, slotReferences,
    slotObject_of_find? hfind, liveReferences_removeReference hcount hlists]
  exact coe_take_set_eq_erase_iff hlists

/-- Assumes: the counts fit. A call removes exactly what it is asked to exactly when a removal is
one of the last entry. -/
theorem removalExact_iff {gc : GarbageCollector} (hfits : CountsFit gc) (call : CollectorCall) :
    RemovalExact gc call ↔ RemovesLastEntry gc call := by
  match call with
  | .call (.removeReference fromObject toObject) =>
    simp only [RemovalExact, RemovesLastEntry]
    rcases gcRemoveReference_cases gc fromObject toObject with
      ⟨hnone, hfailed⟩ | ⟨object, hfind, hid, hlists, hremoved⟩
    · rw [hfailed, hnone]
      exact iff_of_true (fun hserved ↦ absurd hserved (show ¬ (-1 : Int) = 0 by decide))
        (fun _ hfind ↦ nomatch hfind)
    · rw [hremoved, hfind]
      have hiff := slotReferences_removed_iff hfits hfind hlists
      constructor
      · intro hexact other hother
        rw [← Option.some.inj hother]
        obtain ⟨i, changed, hi, -, hmem, herased, -⟩ := hexact rfl
        -- the slot that lost the target can only be the one that the scan found
        by_cases hslot : i = gc.objects.findIdx (listsTarget fromObject toObject)
        · rw [hslot] at herased
          exact hiff.mp herased
        · rw [slotReferences, slotObject_updateFirst_of_ne hslot, slotReferences,
            slotObject_of_getElem? hi] at herased
          have hcard := congrArg Multiset.card herased
          have hsome := Multiset.card_pos_iff_exists_mem.mpr ⟨toObject, Multiset.mem_coe.mpr hmem⟩
          rw [Multiset.card_erase_of_mem (Multiset.mem_coe.mpr hmem)] at hcard
          exact absurd hcard (Nat.sub_lt hsome Nat.one_pos).ne'
      · intro hcondition _
        rw [List.find?_eq_getElem?_findIdx] at hfind
        refine ⟨_, object, hfind, hid, hlists, hiff.mpr (hcondition object rfl), ?_⟩
        intro other hother
        rw [slotReferences, slotObject_updateFirst_of_ne hother, slotReferences]
  | .call (.addReference _ _) | .call (.allocateObject _ _) | .call (.deallocateObject _)
  | .call .runFullCollection | .call .runIncrementalCollection | .call (.markObject _)
  | .call (.unmarkObject _) | .call (.collectObject _) | .markPhase | .sweepPhase =>
    exact Iff.rfl

/-- Assumes: the slots hold what is recorded. A call other than an addition or a removal leaves
them so. -/
theorem holdsRecorded_otherCall {gc : GarbageCollector} {record : ℕ → Multiset UInt32}
    {call : CollectorCall} (hholds : HoldsRecorded (gc, record)) (hother : OtherCall call)
    (hrecord : recordReferences gc call record = fun i ↦
      if (collectorStep gc call).objects[i]? = some .zeroed then 0 else record i) :
    HoldsRecorded (withTrace collectorStep recordReferences (gc, record) call) := by
  intro i
  simp only [withTrace, hrecord]
  split
  · rename_i hcleared
    rw [slotReferences, slotObject_of_getElem? hcleared]
    rfl
  · rename_i hcleared
    have hkept := (slotObject_otherCall hother i).resolve_left hcleared
    rw [slotReferences, hkept.liveReferences]
    exact hholds i

/-- Assumes: the slots hold what is recorded. An addition leaves them so. -/
theorem holdsRecorded_addReference {gc : GarbageCollector} {record : ℕ → Multiset UInt32}
    (hholds : HoldsRecorded (gc, record)) (fromObject toObject : UInt32) :
    HoldsRecorded (withTrace collectorStep recordReferences (gc, record)
      (.call (.addReference fromObject toObject))) := by
  intro i
  change (slotReferences (gcAddReference gc fromObject toObject).1 i : Multiset UInt32) =
    recordReferences gc (.call (.addReference fromObject toObject)) record i
  have hheld : ∀ slot, (slotReferences gc slot : Multiset UInt32) = record slot := hholds
  rw [recordReferences]
  rcases gcAddReference_cases gc fromObject toObject with
    hfailed | ⟨object, hfind, hroom, hadded⟩
  · rw [hfailed, if_neg (show ¬ (-1 : Int) = 0 by decide)]
    exact hholds i
  · rw [hadded, if_pos rfl]
    by_cases hi : i = gc.objects.findIdx (hasId fromObject)
    · rw [hi, Function.update_self, slotReferences, slotObject_updateFirst_self hfind,
        liveReferences_addReference toObject hroom, ← hheld _, slotReferences,
        slotObject_of_find? hfind, Multiset.cons_coe, Multiset.coe_eq_coe]
      exact List.perm_append_singleton _ _
    · rw [Function.update_of_ne hi, slotReferences, slotObject_updateFirst_of_ne hi]
      exact hholds i

/-- Assumes: the counts fit and the slots hold what is recorded. A removal of a last entry leaves
them so. -/
theorem holdsRecorded_removeReference {gc : GarbageCollector} {record : ℕ → Multiset UInt32}
    {fromObject toObject : UInt32} (hfits : CountsFit gc) (hholds : HoldsRecorded (gc, record))
    (hcondition : RemovesLastEntry gc (.call (.removeReference fromObject toObject))) :
    HoldsRecorded (withTrace collectorStep recordReferences (gc, record)
      (.call (.removeReference fromObject toObject))) := by
  intro i
  change (slotReferences (gcRemoveReference gc fromObject toObject).1 i : Multiset UInt32) =
    recordReferences gc (.call (.removeReference fromObject toObject)) record i
  have hheld : ∀ slot, (slotReferences gc slot : Multiset UInt32) = record slot := hholds
  rw [recordReferences]
  rcases gcRemoveReference_cases gc fromObject toObject with
    ⟨-, hfailed⟩ | ⟨object, hfind, -, hlists, hremoved⟩
  · rw [hfailed, if_neg (show ¬ (-1 : Int) = 0 by decide)]
    exact hholds i
  · rw [hremoved, if_pos rfl]
    by_cases hi : i = gc.objects.findIdx (listsTarget fromObject toObject)
    · rw [hi, Function.update_self, ← hheld _]
      exact (slotReferences_removed_iff hfits hfind hlists).mpr (hcondition object hfind)
    · rw [Function.update_of_ne hi, slotReferences, slotObject_updateFirst_of_ne hi]
      exact hholds i

/-- Assumes: the counts fit and the slots hold what is recorded. After a call they hold what is
recorded, and the call has removed exactly what it was asked to, exactly when a removal was one of
the last entry. -/
theorem holdsRecorded_step_iff {gc : GarbageCollector} {record : ℕ → Multiset UInt32}
    (hfits : CountsFit gc) (hholds : HoldsRecorded (gc, record)) (call : CollectorCall) :
    HoldsRecorded (withTrace collectorStep recordReferences (gc, record) call) ∧
      RemovalExact gc call ↔ RemovesLastEntry gc call := by
  rw [removalExact_iff hfits]
  refine and_iff_right_of_imp fun hcondition ↦ ?_
  match call with
  | .call (.addReference fromObject toObject) =>
    exact holdsRecorded_addReference hholds fromObject toObject
  | .call (.removeReference fromObject toObject) =>
    exact holdsRecorded_removeReference hfits hholds hcondition
  | .call (.allocateObject _ _) | .call (.deallocateObject _) | .call .runFullCollection
  | .call .runIncrementalCollection | .call (.markObject _) | .call (.unmarkObject _)
  | .call (.collectObject _) | .markPhase | .sweepPhase =>
    exact holdsRecorded_otherCall hholds trivial rfl

theorem slotObject_gcInit (algorithm : GCAlgorithm) (nextObjectId : UInt32) (i : ℕ) :
    slotObject (gcInit algorithm nextObjectId) i = .zeroed := rfl

theorem countsFit_gcInit (algorithm : GCAlgorithm) (nextObjectId : UInt32) :
    CountsFit (gcInit algorithm nextObjectId) := by
  intro i
  rw [slotObject_gcInit]
  exact Nat.zero_le _

theorem holdsRecorded_gcInit (algorithm : GCAlgorithm) (nextObjectId : UInt32) :
    HoldsRecorded (gcInit algorithm nextObjectId, fun _ ↦ 0) := by
  intro i
  rw [slotReferences, slotObject_gcInit, liveReferences_zeroed, Multiset.coe_nil]

/-- Reference removal over every run. In the runs of a new collector, every removal that returns 0
takes exactly one occurrence of the target from the object and leaves the references of all others,
and in every state every object holds exactly the references that were added to it and not removed,
exactly when every removal finds its target only as the last live reference of the object, or finds
a zero as the last one. -/
theorem referencesExact_iff (algorithm : GCAlgorithm) (nextObjectId : UInt32)
    (calls : List CollectorCall) :
    AlongRun (withTrace collectorStep recordReferences) HoldsRecorded
        (gcInit algorithm nextObjectId, fun _ ↦ 0) calls ∧
      EveryStep collectorStep RemovalExact (gcInit algorithm nextObjectId) calls ↔
    EveryStep collectorStep RemovesLastEntry (gcInit algorithm nextObjectId) calls := by
  have hexact : EveryStep (withTrace collectorStep recordReferences)
      (fun traced call ↦ RemovalExact traced.1 call) (gcInit algorithm nextObjectId, fun _ ↦ 0)
      calls ↔ EveryStep collectorStep RemovalExact (gcInit algorithm nextObjectId) calls :=
    everyStep_withTrace
  have hlast : EveryStep (withTrace collectorStep recordReferences)
      (fun traced call ↦ RemovesLastEntry traced.1 call)
      (gcInit algorithm nextObjectId, fun _ ↦ 0) calls ↔
        EveryStep collectorStep RemovesLastEntry (gcInit algorithm nextObjectId) calls :=
    everyStep_withTrace
  rw [← hexact, ← hlast]
  refine alongRun_and_everyStep_iff (fun traced ↦ CountsFit traced.1) (fun _ _ ↦ True) ?_ ?_
    (countsFit_gcInit algorithm nextObjectId) (holdsRecorded_gcInit algorithm nextObjectId)
    (fun _ _ _ ↦ trivial)
  · intro traced call hfits _
    exact countsFit_collectorStep hfits call
  · rintro ⟨gc, record⟩ call hfits _ hholds
    exact holdsRecorded_step_iff hfits hholds call

/-- One object to which two references are added and from which the first is removed: the second is
lost, and a reference to object 0 is left. -/
theorem not_referencesExact_removed_first :
    ¬ (AlongRun (withTrace collectorStep recordReferences) HoldsRecorded
          (gcInit .markSweep 1, fun _ ↦ 0)
          [.call (.allocateObject 16 4096), .call (.addReference 1 2), .call (.addReference 1 3),
            .call (.removeReference 1 2)] ∧
        EveryStep collectorStep RemovalExact (gcInit .markSweep 1)
          [.call (.allocateObject 16 4096), .call (.addReference 1 2), .call (.addReference 1 3),
            .call (.removeReference 1 2)]) := by
  rintro ⟨halong, -⟩
  have hheld := halong _ (List.prefix_refl _) 0
  exact absurd hheld (by decide)

end OneOS.Memory.MarkSweepCollector
