import OneOS.Foundation.Runs
import OneOS.Foundation.Table

/-!
# The mark and sweep collector

`memory-management/garbage_collector.c`. A collector holds a table of objects, each with an
identifier, a heap pointer and an array of the identifiers it references, of which the first
`reference_count` entries are in use. The table never shrinks: a freed object leaves a zeroed slot.
The file-static counter `next_object_id` is a field of the collector here, and the result of
`malloc` is an input of the call that asks for memory, `0` standing for `NULL`. The checks of the
collector pointer against `NULL` are not modelled, and neither are the two statistics kept as
floating point numbers, which no operation reads.

The mark phase marks an object by its own `reference_count`, the number of references the object
holds, and the sweep frees every unmarked object. A collection is therefore safe, in the sense that
no freed object is still listed by a survivor, exactly when every object that another one lists
holds a reference of its own (`collectionSafe_iff`). `collectionSafe_runFrom_iff` states this for
every state that the operations reach, and `leaf_freed_while_listed` is the shortest run to a state
in which it fails: one object listing another that lists nothing.
-/

set_option autoImplicit false
set_option relaxedAutoImplicit false

namespace OneOS.Memory.MarkSweepCollector

open Foundation

/-! ### The collector -/

/-- `MAX_GC_OBJECTS`. -/
def maxGcObjects : ℕ := 65536

/-- `MAX_OBJECT_REFERENCES`. -/
def maxObjectReferences : ℕ := 32

/-- `GCStatus`, in the order of the source: the zero value is `allocated`. -/
inductive GCStatus
  | allocated
  | marked
  | unmarked
  | collected
  deriving DecidableEq, Repr

/-- `GCAlgorithm`. -/
inductive GCAlgorithm
  | markSweep
  | copy
  | generational
  | concurrent
  | incremental
  deriving DecidableEq, Repr

/-- `GCObject`. -/
structure GCObject where
  objectId : UInt32
  objectPtr : ℕ
  objectSize : UInt64
  status : GCStatus
  referenceCount : UInt32
  referencedObjects : Vector UInt32 maxObjectReferences
  allocationTime : UInt64
  lastAccessTime : UInt64
  accessCount : UInt32

/-- A slot after `memset` to zero. -/
def GCObject.zeroed : GCObject where
  objectId := 0
  objectPtr := 0
  objectSize := 0
  status := .allocated
  referenceCount := 0
  referencedObjects := Vector.replicate maxObjectReferences 0
  allocationTime := 0
  lastAccessTime := 0
  accessCount := 0

/-- The live references of an object: the first `reference_count` entries of its array. -/
def GCObject.liveReferences (object : GCObject) : List UInt32 :=
  object.referencedObjects.toList.take object.referenceCount.toNat

/-- `GarbageCollector`, with the used slots `objects[0 .. object_count)` as a list and the
file-static `next_object_id` as a field. -/
structure GarbageCollector where
  gcId : UInt32
  algorithm : GCAlgorithm
  objects : List GCObject
  totalCollected : UInt64
  totalObjectsCollected : UInt64
  gcStartTime : UInt64
  gcEndTime : UInt64
  lastGcDurationMs : UInt64
  gcCycleCount : UInt32
  majorGcCount : UInt32
  minorGcCount : UInt32
  isConcurrent : Bool
  isGenerational : Bool
  nextObjectId : UInt32

/-- `gc_init`. The static counter keeps the value it has when the collector is created. -/
def gcInit (algorithm : GCAlgorithm) (nextObjectId : UInt32) : GarbageCollector where
  gcId := 1
  algorithm := algorithm
  objects := []
  totalCollected := 0
  totalObjectsCollected := 0
  gcStartTime := 0
  gcEndTime := 0
  lastGcDurationMs := 0
  gcCycleCount := 0
  majorGcCount := 0
  minorGcCount := 0
  isConcurrent := algorithm = .concurrent
  isGenerational := algorithm = .generational
  nextObjectId := nextObjectId

/-! ### Objects and references -/

/-- `gc_allocate_object`, with the result of `malloc`. An identifier is used up also when `malloc`
fails. -/
def gcAllocateObject (gc : GarbageCollector) (objectSize : UInt64) (allocated : ℕ) :
    GarbageCollector × UInt32 :=
  if maxGcObjects ≤ gc.objects.length ∨ objectSize = 0 then (gc, 0)
  else if allocated = 0 then ({ gc with nextObjectId := gc.nextObjectId + 1 }, 0)
  else
    let object := { GCObject.zeroed with
      objectId := gc.nextObjectId
      objectPtr := allocated
      objectSize := objectSize }
    ({ gc with objects := gc.objects ++ [object], nextObjectId := gc.nextObjectId + 1 },
      gc.nextObjectId)

/-- The test of the loops that look an object up by its identifier. -/
def hasId (objectId : UInt32) (object : GCObject) : Bool :=
  object.objectId == objectId

/-- `gc_deallocate_object`. -/
def gcDeallocateObject (gc : GarbageCollector) (objectId : UInt32) : GarbageCollector × Int :=
  if gc.objects.any (hasId objectId) then
    ({ gc with objects := updateFirst (hasId objectId) (fun _ ↦ .zeroed) gc.objects }, 0)
  else (gc, -1)

/-- The body of `gc_add_reference` on the object found: append to the live references when the
array has room. -/
def GCObject.addReference (toObject : UInt32) (object : GCObject) : GCObject :=
  if hroom : object.referenceCount.toNat < maxObjectReferences then
    { object with
      referencedObjects := object.referencedObjects.set object.referenceCount.toNat toObject hroom
      referenceCount := object.referenceCount + 1 }
  else object

/-- `gc_add_reference`. -/
def gcAddReference (gc : GarbageCollector) (fromObject toObject : UInt32) :
    GarbageCollector × Int :=
  match gc.objects.find? (hasId fromObject) with
  | none => (gc, -1)
  | some object =>
    if maxObjectReferences ≤ object.referenceCount.toNat then (gc, -1)
    else ({ gc with
      objects := updateFirst (hasId fromObject) (GCObject.addReference toObject) gc.objects }, 0)

/-- The body of `gc_remove_reference` on the object found: the first live entry naming the target
is zeroed in place and the count drops, so the last live entry leaves the list as well. -/
def GCObject.removeReference (toObject : UInt32) (object : GCObject) : GCObject :=
  { object with
    referencedObjects := object.referencedObjects.setIfInBounds
      (object.liveReferences.findIdx (· == toObject)) 0
    referenceCount := object.referenceCount - 1 }

/-- `gc_remove_reference`. The scan goes past an object with the identifier that does not list the
target. -/
def gcRemoveReference (gc : GarbageCollector) (fromObject toObject : UInt32) :
    GarbageCollector × Int :=
  let test := fun object : GCObject ↦
    hasId fromObject object && object.liveReferences.contains toObject
  if gc.objects.any test then
    ({ gc with objects := updateFirst test (GCObject.removeReference toObject) gc.objects }, 0)
  else (gc, -1)

/-! ### Collections -/

/-- One turn of the loop of `gc_mark_phase`. -/
def GCObject.mark (object : GCObject) : GCObject :=
  if object.objectPtr ≠ 0 ∧ 0 < object.referenceCount then { object with status := .marked }
  else { object with status := .unmarked }

/-- `gc_mark_phase`. -/
def gcMarkPhase (gc : GarbageCollector) : GarbageCollector :=
  { gc with objects := gc.objects.map GCObject.mark }

/-- The test of `gc_sweep_phase`. -/
def GCObject.isSwept (object : GCObject) : Bool :=
  object.status = .unmarked ∧ object.objectPtr ≠ 0

/-- One turn of the loop of `gc_sweep_phase`, on the object table. -/
def GCObject.sweep (object : GCObject) : GCObject :=
  if object.isSwept then .zeroed else object

/-- `gc_sweep_phase`. -/
def gcSweepPhase (gc : GarbageCollector) : GarbageCollector × Int :=
  let swept := gc.objects.filter GCObject.isSwept
  ({ gc with
    objects := gc.objects.map GCObject.sweep
    totalCollected := swept.foldl (fun total object ↦ total + object.objectSize) gc.totalCollected
    totalObjectsCollected := gc.totalObjectsCollected + UInt64.ofNat swept.length }, swept.length)

/-- `gc_run_full_collection`. -/
def gcRunFullCollection (gc : GarbageCollector) : GarbageCollector × Int :=
  let (swept, count) := gcSweepPhase (gcMarkPhase { gc with gcStartTime := 0 })
  ({ swept with
    gcEndTime := 0
    lastGcDurationMs := 0
    gcCycleCount := swept.gcCycleCount + 1
    majorGcCount := swept.majorGcCount + 1 }, count)

/-- `gc_collect_object`. -/
def gcCollectObject (gc : GarbageCollector) (objectId : UInt32) : GarbageCollector × Int :=
  match gc.objects.find? (hasId objectId) with
  | none => (gc, -1)
  | some object =>
    ({ gc with
      totalCollected := gc.totalCollected + object.objectSize
      objects := updateFirst (hasId objectId) (fun _ ↦ .zeroed) gc.objects
      totalObjectsCollected := gc.totalObjectsCollected + 1 }, 0)

/-- One turn of the loop of `gc_run_incremental_collection`, at slot `i`. -/
def gcIncrementalTurn (gc : GarbageCollector) (i : ℕ) : GarbageCollector :=
  match gc.objects[i]? with
  | none => gc
  | some object =>
    if object.referenceCount = 0 ∧ object.objectPtr ≠ 0 then
      (gcCollectObject gc object.objectId).1
    else gc

/-- `gc_run_incremental_collection`: the first tenth of the table, and at least one slot. -/
def gcRunIncrementalCollection (gc : GarbageCollector) : GarbageCollector × Int :=
  let batchSize := if gc.objects.length / 10 = 0 then 1 else gc.objects.length / 10
  let collected := (List.range batchSize).foldl gcIncrementalTurn gc
  ({ collected with minorGcCount := collected.minorGcCount + 1 }, 0)

/-- The body shared by `gc_mark_object` and `gc_unmark_object`. -/
def gcSetStatus (gc : GarbageCollector) (objectId : UInt32) (status : GCStatus) :
    GarbageCollector × Int :=
  if gc.objects.any (hasId objectId) then
    ({ gc with objects := updateFirst (hasId objectId) ({ · with status := status }) gc.objects },
      0)
  else (gc, -1)

/-- `gc_mark_object`. -/
def gcMarkObject (gc : GarbageCollector) (objectId : UInt32) : GarbageCollector × Int :=
  gcSetStatus gc objectId .marked

/-- `gc_unmark_object`. -/
def gcUnmarkObject (gc : GarbageCollector) (objectId : UInt32) : GarbageCollector × Int :=
  gcSetStatus gc objectId .unmarked

/-! ### Runs -/

/-- A call on the collector, with the result of `malloc` where the call allocates. -/
inductive GcCall
  | allocateObject (objectSize : UInt64) (allocated : ℕ)
  | deallocateObject (objectId : UInt32)
  | addReference (fromObject toObject : UInt32)
  | removeReference (fromObject toObject : UInt32)
  | runFullCollection
  | runIncrementalCollection
  | markObject (objectId : UInt32)
  | unmarkObject (objectId : UInt32)
  | collectObject (objectId : UInt32)

/-- The collector after a call. -/
def gcStep (gc : GarbageCollector) : GcCall → GarbageCollector
  | .allocateObject objectSize allocated => (gcAllocateObject gc objectSize allocated).1
  | .deallocateObject objectId => (gcDeallocateObject gc objectId).1
  | .addReference fromObject toObject => (gcAddReference gc fromObject toObject).1
  | .removeReference fromObject toObject => (gcRemoveReference gc fromObject toObject).1
  | .runFullCollection => (gcRunFullCollection gc).1
  | .runIncrementalCollection => (gcRunIncrementalCollection gc).1
  | .markObject objectId => (gcMarkObject gc objectId).1
  | .unmarkObject objectId => (gcUnmarkObject gc objectId).1
  | .collectObject objectId => (gcCollectObject gc objectId).1

/-! ### Safety of a full collection -/

/-- A full collection is safe: an object it frees, whose slot held memory before and holds none
after, is not listed among the live references of an object that survives it. -/
def CollectionSafe (gc : GarbageCollector) : Prop :=
  ∀ (i k : ℕ) (freed slot survivor : GCObject),
    gc.objects[i]? = some freed → freed.objectPtr ≠ 0 →
    (gcRunFullCollection gc).1.objects[i]? = some slot → slot.objectPtr = 0 →
    (gcRunFullCollection gc).1.objects[k]? = some survivor → survivor.objectPtr ≠ 0 →
      freed.objectId ∉ survivor.liveReferences

/-- Every allocated object that an allocated object lists among its live references holds a
reference itself: no listed object is a leaf. -/
def ListedObjectsHoldReferences (gc : GarbageCollector) : Prop :=
  ∀ holder ∈ gc.objects, ∀ target ∈ gc.objects, holder.objectPtr ≠ 0 → target.objectPtr ≠ 0 →
    target.objectId ∈ holder.liveReferences → 0 < target.referenceCount

/-- A full collection treats every slot on its own: it marks it, then sweeps it. -/
theorem objects_gcRunFullCollection (gc : GarbageCollector) :
    (gcRunFullCollection gc).1.objects =
      gc.objects.map fun object ↦ object.mark.sweep := by
  simp [gcRunFullCollection, gcSweepPhase, gcMarkPhase, Function.comp_def]

/-- An allocated object that holds a reference survives the collection, marked. -/
theorem sweep_mark_of_holds {object : GCObject} (hptr : object.objectPtr ≠ 0)
    (hholds : 0 < object.referenceCount) :
    object.mark.sweep = { object with status := .marked } := by
  simp [GCObject.mark, GCObject.sweep, GCObject.isSwept, hptr, hholds]

/-- An allocated object that holds no reference is freed. -/
theorem sweep_mark_of_leaf {object : GCObject} (hptr : object.objectPtr ≠ 0)
    (hleaf : ¬ 0 < object.referenceCount) : object.mark.sweep = .zeroed := by
  simp [GCObject.mark, GCObject.sweep, GCObject.isSwept, hptr, hleaf]

/-- A slot without memory stays one. -/
theorem objectPtr_sweep_mark_of_null {object : GCObject} (hptr : object.objectPtr = 0) :
    object.mark.sweep.objectPtr = 0 := by
  simp [GCObject.mark, GCObject.sweep, GCObject.isSwept, hptr]

/-- An object with a live reference holds one. -/
theorem referenceCount_pos_of_mem {object : GCObject} {target : UInt32}
    (htarget : target ∈ object.liveReferences) : 0 < object.referenceCount := by
  rw [UInt32.lt_iff_toNat_lt, UInt32.toNat_zero]
  by_contra hcount
  simp [GCObject.liveReferences, Nat.eq_zero_of_not_pos hcount] at htarget

/-- The survivors of a collection are the allocated objects that hold a reference. -/
theorem survivor_holds {gc : GarbageCollector} {k : ℕ} {survivor : GCObject}
    (hsurvivor : (gcRunFullCollection gc).1.objects[k]? = some survivor)
    (hptr : survivor.objectPtr ≠ 0) :
    ∃ object ∈ gc.objects, object.objectPtr ≠ 0 ∧
      survivor.liveReferences = object.liveReferences := by
  rw [objects_gcRunFullCollection, List.getElem?_map, Option.map_eq_some_iff] at hsurvivor
  obtain ⟨object, hobject, rfl⟩ := hsurvivor
  have hallocated : object.objectPtr ≠ 0 := fun hnull ↦ hptr (objectPtr_sweep_mark_of_null hnull)
  refine ⟨object, List.mem_of_getElem? hobject, hallocated, ?_⟩
  by_cases hholds : 0 < object.referenceCount
  · rw [sweep_mark_of_holds hallocated hholds]
    rfl
  · rw [sweep_mark_of_leaf hallocated hholds] at hptr
    exact absurd rfl hptr

/-- A full collection is safe exactly when every listed object holds a reference itself. -/
theorem collectionSafe_iff (gc : GarbageCollector) :
    CollectionSafe gc ↔ ListedObjectsHoldReferences gc := by
  constructor
  · intro hsafe holder hholder target htarget hholderPtr htargetPtr hlisted
    by_contra hleaf
    obtain ⟨k, hk⟩ := List.mem_iff_getElem?.mp hholder
    obtain ⟨i, hi⟩ := List.mem_iff_getElem?.mp htarget
    have hsurvivor : (gcRunFullCollection gc).1.objects[k]? =
        some { holder with status := .marked } := by
      rw [objects_gcRunFullCollection, List.getElem?_map, hk, Option.map_some,
        sweep_mark_of_holds hholderPtr (referenceCount_pos_of_mem hlisted)]
    have hfreed : (gcRunFullCollection gc).1.objects[i]? = some .zeroed := by
      rw [objects_gcRunFullCollection, List.getElem?_map, hi, Option.map_some,
        sweep_mark_of_leaf htargetPtr hleaf]
    exact hsafe i k target _ _ hi htargetPtr hfreed rfl hsurvivor hholderPtr hlisted
  · intro hlisted i k freed slot survivor hi hfreedPtr hslot hslotPtr hk hsurvivorPtr hmem
    obtain ⟨holder, hholder, hholderPtr, hreferences⟩ := survivor_holds hk hsurvivorPtr
    have hholds := hlisted holder hholder freed (List.mem_of_getElem? hi) hholderPtr hfreedPtr
      (hreferences ▸ hmem)
    rw [objects_gcRunFullCollection, List.getElem?_map, hi, Option.map_some, Option.some.injEq,
      sweep_mark_of_holds hfreedPtr hholds] at hslot
    rw [← hslot] at hslotPtr
    exact hfreedPtr hslotPtr

/-- Garbage-collection safety over every run. In the state that any calls reach from a new
collector, a full collection frees no object still listed by a survivor exactly when every
allocated object listed by an allocated object holds a reference itself. -/
theorem collectionSafe_runFrom_iff (algorithm : GCAlgorithm) (nextObjectId : UInt32)
    (calls : List GcCall) :
    CollectionSafe (runFrom gcStep (gcInit algorithm nextObjectId) calls) ↔
      ListedObjectsHoldReferences (runFrom gcStep (gcInit algorithm nextObjectId) calls) :=
  collectionSafe_iff _

/-- Two objects, the first listing the second, which lists nothing: the full collection keeps the
first and frees the second. -/
theorem leaf_freed_while_listed :
    ¬ CollectionSafe (runFrom gcStep (gcInit .markSweep 1)
      [.allocateObject 16 4096, .allocateObject 16 8192, .addReference 1 2]) := by
  rw [collectionSafe_iff]
  intro hlisted
  have hholds := hlisted _ List.mem_cons_self _ (List.mem_cons_of_mem _ List.mem_cons_self)
    (by decide) (by decide) (by decide)
  exact absurd hholds (by decide)

end OneOS.Memory.MarkSweepCollector
