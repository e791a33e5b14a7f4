import OneOS.Memory.References
import Mathlib.Tactic.Abel

/-!
# Memory that is handed out and freed

Every block of memory that `malloc` gave to the collector is either held by an object or has been
freed once: by `gc_deallocate_object`, or by a collection, which counts its bytes
(`memory_balanced`). So no block is freed twice and none is lost, on all four ways of collecting:
the full collection and its sweep phase, the incremental collection, which frees objects by their
identifiers, and `gc_collect_object` itself. This holds for every run, also when identifiers wrap
around and two objects have the same one.

`gc_get_heap_usage` adds up the bytes that are held in 64 bits and returns an `int`: what has been
handed out and not freed, modulo 2³² and with a sign.
-/

set_option autoImplicit false
set_option relaxedAutoImplicit false

namespace OneOS.Memory.MarkSweepCollector

open Foundation

/-! ### Blocks -/

/-- A block of memory: its address and its size. -/
abbrev Block := ℕ × UInt64

/-- The memory of an object. -/
def GCObject.memory (object : GCObject) : List Block :=
  if object.objectPtr = 0 then [] else [(object.objectPtr, object.objectSize)]

/-- The memory that is held by the objects. -/
def heldMemory (gc : GarbageCollector) : List Block :=
  gc.objects.flatMap GCObject.memory

/-- The bytes of blocks. -/
def bytes (blocks : List Block) : ℕ :=
  (blocks.map fun block ↦ block.2.toNat).sum

/-- The bytes that are added to a count of 64 bits. -/
def addBytes (total : UInt64) (blocks : List Block) : UInt64 :=
  blocks.foldl (fun total block ↦ total + block.2) total

/-- `gc_get_heap_usage`: the count of 64 bits is returned as an `int`. -/
def gcGetHeapUsage (gc : GarbageCollector) : Int32 :=
  ((gc.objects.filter fun object ↦ object.objectPtr ≠ 0).foldl
    (fun total object ↦ total + object.objectSize) (0 : UInt64)).toUInt32.toInt32

/-! ### What a call hands out and frees -/

/-- The memory of the first object with an identifier. -/
def memoryOf (gc : GarbageCollector) (objectId : UInt32) : List Block :=
  (gc.objects.find? (hasId objectId)).toList.flatMap GCObject.memory

/-- The memory that one turn of the incremental collection frees. -/
def turnMemory (gc : GarbageCollector) (i : ℕ) : List Block :=
  match gc.objects[i]? with
  | none => []
  | some object =>
    if object.referenceCount = 0 ∧ object.objectPtr ≠ 0 then memoryOf gc object.objectId else []

/-- The number of slots that the incremental collection looks at. -/
def batchSize (gc : GarbageCollector) : ℕ :=
  if gc.objects.length / 10 = 0 then 1 else gc.objects.length / 10

/-- The memory that the sweep phase frees. -/
def sweptMemory (gc : GarbageCollector) : List Block :=
  (gc.objects.filter GCObject.isSwept).flatMap GCObject.memory

/-- The memory that a call hands out. -/
def handedOut (gc : GarbageCollector) : CollectorCall → List Block
  | .call (.allocateObject objectSize allocated) =>
    if maxGcObjects ≤ gc.objects.length ∨ objectSize = 0 ∨ allocated = 0 then []
    else [(allocated, objectSize)]
  | _ => []

/-- The memory that a call collects. -/
def collectedMemory (gc : GarbageCollector) : CollectorCall → List Block
  | .sweepPhase => sweptMemory gc
  | .call .runFullCollection => sweptMemory (gcMarkPhase gc)
  | .call .runIncrementalCollection =>
    gather gcIncrementalTurn turnMemory gc (List.range (batchSize gc))
  | .call (.collectObject objectId) => memoryOf gc objectId
  | _ => []

/-- The memory that a call deallocates. -/
def deallocatedMemory (gc : GarbageCollector) : CollectorCall → List Block
  | .call (.deallocateObject objectId) => memoryOf gc objectId
  | _ => []

variable {gc after : GarbageCollector} {blocks : List Block}

/-! ### Sums -/

theorem bytes_append (blocks later : List Block) :
    bytes (blocks ++ later) = bytes blocks + bytes later := by
  rw [bytes, List.map_append, List.sum_append, bytes, bytes]

theorem toNat_addBytes (total : UInt64) (blocks : List Block) :
    (addBytes total blocks).toNat = (total.toNat + bytes blocks) % 2 ^ 64 := by
  induction blocks generalizing total with
  | nil =>
    rw [addBytes, bytes]
    exact (Nat.mod_eq_of_lt total.toNat_lt).symm
  | cons block blocks ih =>
    rw [addBytes, List.foldl_cons]
    change (addBytes (total + block.2) blocks).toNat = _
    rw [ih, UInt64.toNat_add, bytes, bytes, List.map_cons, List.sum_cons, Nat.mod_add_mod,
      Nat.add_assoc]

/-! ### Calls that collect -/

/-- The memory that is held after a call and the blocks are what was held before. -/
def Frees (gc after : GarbageCollector) (blocks : List Block) : Prop :=
  (heldMemory gc).Perm (blocks ++ heldMemory after)

/-- The blocks are freed, and their bytes counted. -/
def Collects (gc after : GarbageCollector) (blocks : List Block) : Prop :=
  Frees gc after blocks ∧ after.totalCollected = addBytes gc.totalCollected blocks

/-- Clearing the first object with an identifier frees its memory. -/
theorem frees_clearFirst {objectId : UInt32}
    (hafter : after.objects = updateFirst (hasId objectId) (fun _ ↦ .zeroed) gc.objects) :
    Frees gc after (memoryOf gc objectId) := by
  rw [Frees, heldMemory, heldMemory, hafter, memoryOf]
  cases hfind : gc.objects.find? (hasId objectId) with
  | none =>
    rw [updateFirst_of_find?_eq_none hfind]
    exact List.Perm.refl _
  | some object =>
    obtain ⟨before, later, hobjects, -, -, hupdate⟩ := updateFirst_split hfind
    rw [hupdate, hobjects, List.flatMap_append, List.flatMap_cons, List.flatMap_append,
      List.flatMap_cons, Option.toList_some, List.flatMap_singleton]
    exact List.perm_append_comm_assoc _ _ _

/-- A slot without memory has no size. -/
def SizesRight (gc : GarbageCollector) : Prop :=
  ∀ object ∈ gc.objects, object.objectPtr = 0 → object.objectSize = 0

theorem SizesRight.updateFirst (hsizes : SizesRight gc) {test : GCObject → Bool}
    {change : GCObject → GCObject}
    (hchange : ∀ object, (object.objectPtr = 0 → object.objectSize = 0) →
      (change object).objectPtr = 0 → (change object).objectSize = 0)
    (hafter : after.objects = updateFirst test change gc.objects) : SizesRight after := by
  intro object hobject
  rw [hafter] at hobject
  rcases mem_updateFirst hobject with hobject | ⟨before, hfind, hsame⟩
  · exact hsizes object hobject
  · rw [hsame]
    exact hchange before (hsizes before (List.mem_of_find?_eq_some hfind))

theorem objects_gcCollectObject (gc : GarbageCollector) (objectId : UInt32) :
    (gcCollectObject gc objectId).1.objects =
      updateFirst (hasId objectId) (fun _ ↦ .zeroed) gc.objects := by
  rw [gcCollectObject]
  cases hfind : gc.objects.find? (hasId objectId) with
  | none => exact (updateFirst_of_find?_eq_none hfind).symm
  | some object => rfl

/-- The bytes of an object are counted, none for a slot without memory. -/
theorem collects_gcCollectObject (hsizes : SizesRight gc) (objectId : UInt32) :
    SizesRight (gcCollectObject gc objectId).1 ∧
      Collects gc (gcCollectObject gc objectId).1 (memoryOf gc objectId) := by
  refine ⟨hsizes.updateFirst (fun _ _ _ ↦ rfl) (objects_gcCollectObject gc objectId),
    frees_clearFirst (objects_gcCollectObject gc objectId), ?_⟩
  rw [gcCollectObject, memoryOf]
  cases hfind : gc.objects.find? (hasId objectId) with
  | none => rfl
  | some object =>
    have hsize := hsizes object (List.mem_of_find?_eq_some hfind)
    rw [Option.toList_some, List.flatMap_singleton, GCObject.memory]
    split_ifs with hptr
    · change gc.totalCollected + object.objectSize = gc.totalCollected
      rw [hsize hptr, UInt64.add_zero]
    · rfl

/-- Memory is collected by one call after the other. -/
theorem Collects.trans {last : GarbageCollector} {later : List Block}
    (hfirst : Collects gc after blocks) (hlast : Collects after last later) :
    Collects gc last (blocks ++ later) := by
  constructor
  · rw [Frees, List.append_assoc]
    exact hfirst.1.trans (hlast.1.append_left blocks)
  · rw [hlast.2, hfirst.2, addBytes, addBytes, addBytes, List.foldl_append]

theorem Collects.refl (gc : GarbageCollector) : Collects gc gc [] :=
  ⟨List.Perm.refl _, rfl⟩

theorem collects_gcIncrementalTurn (hsizes : SizesRight gc) (i : ℕ) :
    SizesRight (gcIncrementalTurn gc i) ∧
      Collects gc (gcIncrementalTurn gc i) (turnMemory gc i) := by
  rw [gcIncrementalTurn, turnMemory]
  cases gc.objects[i]? with
  | none => exact ⟨hsizes, Collects.refl gc⟩
  | some object =>
    dsimp only
    split_ifs
    · exact collects_gcCollectObject hsizes object.objectId
    · exact ⟨hsizes, Collects.refl gc⟩

theorem collects_turns (hsizes : SizesRight gc) (turns : List ℕ) :
    SizesRight (turns.foldl gcIncrementalTurn gc) ∧
      Collects gc (turns.foldl gcIncrementalTurn gc)
        (gather gcIncrementalTurn turnMemory gc turns) := by
  induction turns generalizing gc with
  | nil => exact ⟨hsizes, Collects.refl gc⟩
  | cons turn turns ih =>
    obtain ⟨hkept, hfirst⟩ := collects_gcIncrementalTurn hsizes turn
    obtain ⟨hlast, hrest⟩ := ih hkept
    exact ⟨hlast, hfirst.trans hrest⟩

/-- The sweep phase frees what it empties. -/
theorem perm_sweep (objects : List GCObject) :
    (objects.flatMap GCObject.memory).Perm
      ((objects.filter GCObject.isSwept).flatMap GCObject.memory ++
        (objects.map GCObject.sweep).flatMap GCObject.memory) := by
  induction objects with
  | nil => exact List.Perm.refl _
  | cons object objects ih =>
    rw [List.flatMap_cons, List.map_cons, List.flatMap_cons, GCObject.sweep]
    by_cases hswept : object.isSwept
    · rw [List.filter_cons_of_pos hswept, List.flatMap_cons, if_pos hswept, List.append_assoc]
      exact ih.append_left _
    · rw [List.filter_cons_of_neg hswept, if_neg hswept]
      exact (ih.append_left _).trans (List.perm_append_comm_assoc _ _ _)

theorem addBytes_swept (total : UInt64) {objects : List GCObject}
    (hswept : ∀ object ∈ objects, object.objectPtr ≠ 0) :
    objects.foldl (fun total object ↦ total + object.objectSize) total =
      addBytes total (objects.flatMap GCObject.memory) := by
  induction objects generalizing total with
  | nil => rfl
  | cons object objects ih =>
    obtain ⟨hobject, hrest⟩ := List.forall_mem_cons.mp hswept
    rw [List.foldl_cons, ih _ hrest, List.flatMap_cons, GCObject.memory, if_neg hobject]
    rfl

theorem collects_gcSweepPhase (hsizes : SizesRight gc) :
    SizesRight (gcSweepPhase gc).1 ∧ Collects gc (gcSweepPhase gc).1 (sweptMemory gc) := by
  refine ⟨?_, perm_sweep gc.objects, addBytes_swept _ fun object hobject ↦ ?_⟩
  · intro object hobject
    obtain ⟨before, hbefore, rfl⟩ := List.mem_map.mp hobject
    rw [GCObject.sweep]
    split_ifs
    · exact fun _ ↦ rfl
    · exact hsizes before hbefore
  · have hswept := (List.mem_filter.mp hobject).2
    rw [GCObject.isSwept, decide_eq_true_eq] at hswept
    exact hswept.2

/-! ### Every call -/

/-- What a call does to the memory: what is handed out comes to what was held, and what is collected
or deallocated leaves it; and the bytes that are collected are counted. -/
def Balances (gc : GarbageCollector) (call : CollectorCall) : Prop :=
  (handedOut gc call ++ heldMemory gc).Perm
      (collectedMemory gc call ++ deallocatedMemory gc call ++
        heldMemory (collectorStep gc call)) ∧
    (collectorStep gc call).totalCollected =
      addBytes gc.totalCollected (collectedMemory gc call)

/-- A call that collects and hands out nothing. -/
theorem Collects.balances {call : CollectorCall}
    (hcollects : Collects gc (collectorStep gc call) (collectedMemory gc call))
    (hhanded : handedOut gc call = []) (hdeallocated : deallocatedMemory gc call = []) :
    Balances gc call := by
  refine ⟨?_, hcollects.2⟩
  rw [hhanded, hdeallocated, List.append_nil]
  exact hcollects.1

/-- A change of an object that keeps its memory. -/
theorem collects_updateFirst (hsizes : SizesRight gc) (test : GCObject → Bool)
    (change : GCObject → GCObject)
    (hptr : ∀ object, (change object).objectPtr = object.objectPtr)
    (hsize : ∀ object, (change object).objectSize = object.objectSize)
    (hafter : after.objects = updateFirst test change gc.objects)
    (htotal : after.totalCollected = gc.totalCollected) :
    SizesRight after ∧ Collects gc after [] := by
  refine ⟨hsizes.updateFirst (fun object hobject ↦ ?_) hafter, ?_, htotal⟩
  · rw [hptr, hsize]
    exact hobject
  · have hmemory : after.objects.map GCObject.memory = gc.objects.map GCObject.memory := by
      rw [hafter]
      refine map_updateFirst fun object _ ↦ ?_
      rw [GCObject.memory, GCObject.memory, hptr, hsize]
    rw [Frees, heldMemory, heldMemory, List.flatMap_def, List.flatMap_def, hmemory]
    exact List.Perm.refl _

theorem mark_memory (object : GCObject) :
    object.mark.objectPtr = object.objectPtr ∧ object.mark.objectSize = object.objectSize := by
  rw [GCObject.mark]
  split_ifs <;> exact ⟨rfl, rfl⟩

theorem collects_gcMarkPhase (hsizes : SizesRight gc) :
    SizesRight (gcMarkPhase gc) ∧ Collects gc (gcMarkPhase gc) [] := by
  refine ⟨?_, ?_, rfl⟩
  · intro object hobject
    obtain ⟨before, hbefore, rfl⟩ := List.mem_map.mp hobject
    rw [(mark_memory before).1, (mark_memory before).2]
    exact hsizes before hbefore
  · have hmemory : ∀ object : GCObject, object.mark.memory = object.memory := by
      intro object
      rw [GCObject.memory, GCObject.memory, (mark_memory object).1, (mark_memory object).2]
    rw [Frees, heldMemory, heldMemory, gcMarkPhase, List.flatMap_map, List.flatMap_def,
      List.flatMap_def, funext hmemory]
    exact List.Perm.refl _

/-- `gc_deallocate_object` frees a block and counts nothing. -/
theorem balances_gcDeallocateObject (hsizes : SizesRight gc) (objectId : UInt32) :
    SizesRight (gcDeallocateObject gc objectId).1 ∧
      Balances gc (.call (.deallocateObject objectId)) := by
  have hobjects : (gcDeallocateObject gc objectId).1.objects =
      updateFirst (hasId objectId) (fun _ ↦ .zeroed) gc.objects := by
    rw [gcDeallocateObject]
    split_ifs with hany
    · rfl
    · refine (updateFirst_of_find?_eq_none (List.find?_eq_none.mpr ?_)).symm
      simpa using hany
  refine ⟨hsizes.updateFirst (fun _ _ _ ↦ rfl) hobjects, frees_clearFirst hobjects, ?_⟩
  change (gcDeallocateObject gc objectId).1.totalCollected = gc.totalCollected
  rw [gcDeallocateObject]
  split_ifs <;> rfl

/-- `gc_allocate_object` hands a block out, or nothing. -/
theorem balances_gcAllocateObject (hsizes : SizesRight gc) (objectSize : UInt64) (allocated : ℕ) :
    SizesRight (gcAllocateObject gc objectSize allocated).1 ∧
      Balances gc (.call (.allocateObject objectSize allocated)) := by
  rw [Balances, collectorStep, gcStep, handedOut, gcAllocateObject]
  by_cases hrefused : maxGcObjects ≤ gc.objects.length ∨ objectSize = 0
  · rw [if_pos hrefused, if_pos (or_assoc.mp (Or.inl hrefused))]
    exact ⟨hsizes, List.Perm.refl _, rfl⟩
  · rw [if_neg hrefused]
    by_cases hnull : allocated = 0
    · rw [if_pos hnull, if_pos (Or.inr (Or.inr hnull))]
      exact ⟨hsizes, List.Perm.refl _, rfl⟩
    · rw [if_neg hnull, if_neg (by tauto)]
      refine ⟨fun object hobject ↦ ?_, ?_, rfl⟩
      · rcases List.mem_append.mp hobject with hold | hnew
        · exact hsizes object hold
        · rw [List.mem_singleton.mp hnew]
          exact fun hzero ↦ absurd hzero hnull
      · have hmemory : ∀ object : GCObject, object.objectPtr = allocated →
            object.objectSize = objectSize → object.memory = [(allocated, objectSize)] := by
          rintro object rfl rfl
          exact if_neg hnull
        simp only [heldMemory, List.flatMap_append, List.flatMap_singleton]
        rw [hmemory _ rfl rfl]
        exact List.perm_append_comm

theorem addReference_memory (toObject : UInt32) (object : GCObject) :
    (object.addReference toObject).objectPtr = object.objectPtr ∧
      (object.addReference toObject).objectSize = object.objectSize := by
  rw [GCObject.addReference]
  split_ifs <;> exact ⟨rfl, rfl⟩

theorem collects_gcAddReference (hsizes : SizesRight gc) (fromObject toObject : UInt32) :
    SizesRight (gcAddReference gc fromObject toObject).1 ∧
      Collects gc (gcAddReference gc fromObject toObject).1 [] := by
  rcases gcAddReference_cases gc fromObject toObject with hnone | ⟨object, -, -, hsome⟩
  · rw [hnone]
    exact ⟨hsizes, Collects.refl gc⟩
  · rw [hsome]
    exact collects_updateFirst hsizes _ (GCObject.addReference toObject)
      (fun object ↦ (addReference_memory toObject object).1)
      (fun object ↦ (addReference_memory toObject object).2) rfl rfl

theorem collects_gcRemoveReference (hsizes : SizesRight gc) (fromObject toObject : UInt32) :
    SizesRight (gcRemoveReference gc fromObject toObject).1 ∧
      Collects gc (gcRemoveReference gc fromObject toObject).1 [] := by
  rcases gcRemoveReference_cases gc fromObject toObject with ⟨-, hnone⟩ | ⟨object, -, -, -, hsome⟩
  · rw [hnone]
    exact ⟨hsizes, Collects.refl gc⟩
  · rw [hsome]
    exact collects_updateFirst hsizes _ (GCObject.removeReference toObject) (fun _ ↦ rfl)
      (fun _ ↦ rfl) rfl rfl

theorem collects_gcSetStatus (hsizes : SizesRight gc) (objectId : UInt32) (status : GCStatus) :
    SizesRight (gcSetStatus gc objectId status).1 ∧
      Collects gc (gcSetStatus gc objectId status).1 [] := by
  rw [gcSetStatus]
  split_ifs
  · exact collects_updateFirst hsizes _ ({ · with status := status }) (fun _ ↦ rfl)
      (fun _ ↦ rfl) rfl rfl
  · exact ⟨hsizes, Collects.refl gc⟩

theorem step_balances (hsizes : SizesRight gc) (call : CollectorCall) :
    SizesRight (collectorStep gc call) ∧ Balances gc call := by
  have hcollects : ∀ call, SizesRight (collectorStep gc call) ∧
      Collects gc (collectorStep gc call) (collectedMemory gc call) →
      handedOut gc call = [] → deallocatedMemory gc call = [] →
      SizesRight (collectorStep gc call) ∧ Balances gc call :=
    fun call hboth hhanded hdeallocated ↦ ⟨hboth.1, hboth.2.balances hhanded hdeallocated⟩
  match call with
  | .markPhase => exact hcollects _ (collects_gcMarkPhase hsizes) rfl rfl
  | .sweepPhase => exact hcollects _ (collects_gcSweepPhase hsizes) rfl rfl
  | .call .runFullCollection =>
    obtain ⟨hmarked, hmark⟩ := collects_gcMarkPhase hsizes
    obtain ⟨hkept, hsweep⟩ := collects_gcSweepPhase hmarked
    exact hcollects _ ⟨hkept, hmark.trans hsweep⟩ rfl rfl
  | .call .runIncrementalCollection =>
    exact hcollects _ (collects_turns hsizes (List.range (batchSize gc))) rfl rfl
  | .call (.collectObject objectId) =>
    exact hcollects _ (collects_gcCollectObject hsizes objectId) rfl rfl
  | .call (.deallocateObject objectId) => exact balances_gcDeallocateObject hsizes objectId
  | .call (.allocateObject objectSize allocated) =>
    exact balances_gcAllocateObject hsizes objectSize allocated
  | .call (.addReference fromObject toObject) =>
    exact hcollects _ (collects_gcAddReference hsizes fromObject toObject) rfl rfl
  | .call (.removeReference fromObject toObject) =>
    exact hcollects _ (collects_gcRemoveReference hsizes fromObject toObject) rfl rfl
  | .call (.markObject objectId) =>
    exact hcollects _ (collects_gcSetStatus hsizes objectId .marked) rfl rfl
  | .call (.unmarkObject objectId) =>
    exact hcollects _ (collects_gcSetStatus hsizes objectId .unmarked) rfl rfl

/-! ### Runs -/

/-- What has been handed out, collected and deallocated in a run, and what is held and counted after
it. -/
structure Balanced (start : GarbageCollector) (calls : List CollectorCall) : Prop where
  memory : (gather collectorStep handedOut start calls).Perm
    (gather collectorStep collectedMemory start calls ++
      gather collectorStep deallocatedMemory start calls ++
        heldMemory (runFrom collectorStep start calls))
  counted : (runFrom collectorStep start calls).totalCollected.toNat =
    bytes (gather collectorStep collectedMemory start calls) % 2 ^ 64

theorem run_balanced (algorithm : GCAlgorithm) (nextObjectId : UInt32)
    (calls : List CollectorCall) :
    SizesRight (runFrom collectorStep (gcInit algorithm nextObjectId) calls) ∧
      Balanced (gcInit algorithm nextObjectId) calls := by
  induction calls using List.reverseRecOn with
  | nil => exact ⟨fun object hobject ↦ absurd hobject List.not_mem_nil, List.Perm.refl _, rfl⟩
  | append_singleton calls call ih =>
    obtain ⟨hsizes, hmemory, hcounted⟩ := ih
    obtain ⟨hkept, hperm, htotal⟩ := step_balances hsizes call
    have hlast : runFrom collectorStep (gcInit algorithm nextObjectId) (calls ++ [call]) =
        collectorStep (runFrom collectorStep (gcInit algorithm nextObjectId) calls) call :=
      runFrom_append
    rw [hlast]
    refine ⟨hkept, ?_, ?_⟩
    · rw [gather_concat, gather_concat, gather_concat, hlast, ← Multiset.coe_eq_coe]
      rw [← Multiset.coe_eq_coe] at hmemory hperm
      simp only [← Multiset.coe_add] at hmemory hperm ⊢
      rw [hmemory, add_assoc, add_comm (heldMemory _ : Multiset Block), hperm]
      abel
    · rw [gather_concat, hlast, htotal, toNat_addBytes, hcounted, bytes_append, Nat.mod_add_mod]

/-- The heap usage is the bytes that are held, as they fit in an `int`. -/
theorem toInt_gcGetHeapUsage (gc : GarbageCollector) :
    (gcGetHeapUsage gc).toInt = Int.bmod (bytes (heldMemory gc)) (2 ^ 32) := by
  have hheld : ∀ objects : List GCObject,
      (objects.filter fun object ↦ object.objectPtr ≠ 0).flatMap GCObject.memory =
        objects.flatMap GCObject.memory := by
    intro objects
    induction objects with
    | nil => rfl
    | cons object objects ih =>
      by_cases hptr : object.objectPtr = 0
      · rw [List.filter_cons_of_neg (by simpa using hptr), ih, List.flatMap_cons, GCObject.memory,
          if_pos hptr, List.nil_append]
      · rw [List.filter_cons_of_pos (by simpa using hptr), List.flatMap_cons, List.flatMap_cons, ih]
  have htotal : ∀ total : UInt64, total.toUInt32.toInt32.toInt = Int.bmod total.toNat (2 ^ 32) := by
    intro total
    change total.toUInt32.toBitVec.toInt = _
    rw [BitVec.toInt_eq_toNat_bmod, UInt32.toNat_toBitVec, UInt64.toNat_toUInt32, Int.natCast_mod]
    exact Int.emod_bmod _ _
  rw [gcGetHeapUsage, htotal, addBytes_swept _ fun object hobject ↦
    of_decide_eq_true (List.mem_filter.mp hobject).2, hheld, toNat_addBytes, UInt64.toNat_zero,
    Nat.zero_add, Int.natCast_mod, ← Int.emod_bmod, Int.emod_emod_of_dvd _ (by decide)]
  exact Int.emod_bmod _ _

/-- Every block that has been handed out is held, or has been collected or deallocated once; the
bytes that have been collected are counted; and the heap usage is what has been handed out and not
freed. -/
theorem memory_balanced (algorithm : GCAlgorithm) (nextObjectId : UInt32)
    (calls : List CollectorCall) :
    let start := gcInit algorithm nextObjectId
    Balanced start calls ∧ (gcGetHeapUsage (runFrom collectorStep start calls)).toInt =
      Int.bmod (bytes (gather collectorStep handedOut start calls) -
        bytes (gather collectorStep collectedMemory start calls) -
        bytes (gather collectorStep deallocatedMemory start calls)) (2 ^ 32) := by
  intro start
  have hbalanced : Balanced start calls := (run_balanced algorithm nextObjectId calls).2
  have hbytes := (hbalanced.memory.map fun block ↦ block.2.toNat).sum_eq
  change bytes _ = bytes _ at hbytes
  rw [bytes_append, bytes_append] at hbytes
  refine ⟨hbalanced, ?_⟩
  rw [toInt_gcGetHeapUsage, hbytes]
  congr 1
  push_cast
  abel

end OneOS.Memory.MarkSweepCollector
