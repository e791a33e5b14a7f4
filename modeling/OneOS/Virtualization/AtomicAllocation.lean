import OneOS.Virtualization.MemoryAccounting

/-!
# Requests that fail

A request for processors and memory is to be served as a whole or to change nothing
(`AllocatesAtomically`). The processors are put into the table one after the other, and the loop
leaves the function when the table is full, without taking back those it has put there.
`allocatesAtomically_iff` says that this is the only way in which a request fails with a trace: the
tests before the loop are passed, the table has room for one processor, and it has no room for all
of them.
-/

set_option autoImplicit false
set_option relaxedAutoImplicit false

namespace OneOS.Virtualization

open Foundation

variable {manager : VmResourceManager} {vmId vcpus : UInt32} {memoryMb : UInt64}

/-- A machine has got so many processors, behind those that were there, and its memory; no other
memory has changed. -/
structure Attributed (manager after : VmResourceManager) (vmId vcpus : UInt32)
    (memoryMb : UInt64) : Prop where
  vcpus : ∃ new : List VCpuInfo, after.vcpus = manager.vcpus ++ new ∧
    new.length = vcpus.toNat ∧ ∀ vcpu ∈ new, vcpu.vmId = vmId ∧ vcpu.isActive = true
  memory : after.memoryOf vmId = memoryMb
  total : after.totalMemoryAllocatedMb = manager.totalMemoryAllocatedMb + memoryMb
  others : ∀ vm, vm ≠ vmId.toNat → after.vmMemory vm = manager.vmMemory vm

/-- A request that returns -1 has changed nothing, and one that returns 0 has given all that was
asked for. -/
structure AllocatesAtomically (manager : VmResourceManager) (vmId vcpus : UInt32)
    (memoryMb : UInt64) : Prop where
  refused : (vmAllocateResources manager vmId vcpus memoryMb).2 = -1 →
    (vmAllocateResources manager vmId vcpus memoryMb).1 = manager
  served : (vmAllocateResources manager vmId vcpus memoryMb).2 = 0 →
    Attributed manager (vmAllocateResources manager vmId vcpus memoryMb).1 vmId vcpus memoryMb

/-- The loop over the processors is reached, and stops when it has put at least one of them, but not
all, into the table. -/
structure VmResourceManager.StopsInside (manager : VmResourceManager) (vmId vcpus : UInt32)
    (memoryMb : UInt64) : Prop where
  vm_lt : vmId.toNat < maxVms
  memory_ne : memoryMb ≠ 0
  fits : manager.totalMemoryAllocatedMb + memoryMb ≤ manager.totalMemoryCapacityMb
  room : manager.vcpus.length < maxVcpus
  overfull : maxVcpus < manager.vcpus.length + vcpus.toNat

/-! ### The loop over the processors -/

/-- The processors that the loop puts behind those in the table: as many as are asked for and as
there is room for. -/
def addedVcpus (vmId : UInt32) (rounds : ℕ) (table : List VCpuInfo) : List VCpuInfo :=
  (List.range' table.length (min rounds (maxVcpus - table.length))).map (newVcpu vmId)

theorem addVcpus_fst (vmId : UInt32) (rounds : ℕ) (table : List VCpuInfo) :
    (addVcpus vmId rounds table).1 = table ++ addedVcpus vmId rounds table := by
  induction rounds generalizing table with
  | zero => simp [addVcpus, addedVcpus]
  | succ rounds ih =>
    rw [addVcpus]
    split_ifs with hfull
    · rw [addedVcpus, Nat.sub_eq_zero_of_le hfull, Nat.min_zero]
      exact (List.append_nil table).symm
    · have hleft : min (rounds + 1) (maxVcpus - table.length) =
          min rounds (maxVcpus - (table.length + 1)) + 1 := by
        omega
      rw [ih, addedVcpus, addedVcpus, hleft, List.range'_succ, List.map_cons, List.length_append,
        List.length_singleton, List.append_assoc]
      rfl

theorem length_addedVcpus (vmId : UInt32) (rounds : ℕ) (table : List VCpuInfo) :
    (addedVcpus vmId rounds table).length = min rounds (maxVcpus - table.length) := by
  rw [addedVcpus, List.length_map, List.length_range']

theorem of_mem_addedVcpus {rounds : ℕ} {table : List VCpuInfo} {vcpu : VCpuInfo}
    (hvcpu : vcpu ∈ addedVcpus vmId rounds table) : vcpu.vmId = vmId ∧ vcpu.isActive = true := by
  obtain ⟨row, -, rfl⟩ := List.mem_map.mp hvcpu
  exact ⟨rfl, rfl⟩

/-! ### What a request does -/

/-- A request that reaches the loop passes the tests before it. -/
theorem VmResourceManager.StopsInside.admits (hstops : manager.StopsInside vmId vcpus memoryMb) :
    manager.Admits vmId vcpus memoryMb := by
  refine ⟨hstops.vm_lt, fun hzero ↦ ?_, hstops.memory_ne, hstops.fits⟩
  have hoverfull := hstops.overfull
  rw [hzero] at hoverfull
  exact absurd hstops.room (Nat.not_lt.mpr hoverfull.le)

/-- What a request for processors and memory leaves, in each of the ways in which it ends. -/
theorem vmAllocateResources_spec (manager : VmResourceManager) (vmId vcpus : UInt32)
    (memoryMb : UInt64) :
    (vmAllocateResources manager vmId vcpus memoryMb = (manager, -1) ∧
      ¬ manager.StopsInside vmId vcpus memoryMb) ∨
    (vmAllocateResources manager vmId vcpus memoryMb =
        ({ manager with
          vcpus := manager.vcpus ++ addedVcpus vmId vcpus.toNat manager.vcpus }, -1) ∧
      manager.StopsInside vmId vcpus memoryMb) ∨
    (manager.Allocates vmId vcpus memoryMb ∧
      (vmAllocateResources manager vmId vcpus memoryMb).2 = 0 ∧
      Attributed manager (vmAllocateResources manager vmId vcpus memoryMb).1 vmId vcpus
        memoryMb) := by
  have hadded := length_addedVcpus vmId vcpus.toNat manager.vcpus
  rcases vmAllocateResources_ends manager vmId vcpus memoryMb with
    ⟨hrefused, hafter⟩ | ⟨hadmits, hoverfull, hafter⟩ | ⟨hserved, hafter⟩
  · exact Or.inl ⟨hafter, fun hstops ↦ hrefused hstops.admits⟩
  · rw [addVcpus_fst] at hafter
    by_cases hroom : manager.vcpus.length < maxVcpus
    · exact Or.inr (Or.inl ⟨hafter, hadmits.vm_lt, hadmits.memory_ne, hadmits.fits, hroom,
        hoverfull⟩)
    · -- the table was full before, and nothing was put into it
      have hnone : addedVcpus vmId vcpus.toNat manager.vcpus = [] := by
        rw [← List.length_eq_zero_iff]
        omega
      refine Or.inl ⟨?_, fun hstops ↦ hroom hstops.room⟩
      rw [hafter, hnone, List.append_nil]
  · have hroom := hserved.room
    rw [addVcpus_fst] at hafter
    refine Or.inr (Or.inr ⟨hserved, congrArg Prod.snd hafter, ?_⟩)
    rw [hafter]
    refine ⟨⟨_, rfl, ?_, fun vcpu hvcpu ↦ of_mem_addedVcpus hvcpu⟩, ?_, rfl, fun vm hother ↦ ?_⟩
    · omega
    · exact congrArg VmMemoryState.allocatedMemoryMb (Function.update_self _ _ manager.vmMemory)
    · exact Function.update_of_ne hother _ _

/-- A request that stops inside of the loop returns -1 and has changed the table of processors. -/
theorem not_allocatesAtomically_of_stopsInside (hstops : manager.StopsInside vmId vcpus memoryMb) :
    ¬ AllocatesAtomically manager vmId vcpus memoryMb := by
  intro hatomic
  rcases vmAllocateResources_spec manager vmId vcpus memoryMb with
    ⟨-, hnot⟩ | ⟨hafter, -⟩ | ⟨hserved, -⟩
  · exact hnot hstops
  · have hsame := hatomic.refused (by rw [hafter])
    rw [hafter] at hsame
    have hlength := congrArg (fun after ↦ after.vcpus.length) hsame
    have hadded := length_addedVcpus vmId vcpus.toNat manager.vcpus
    have hroom := hstops.room
    have hoverfull := hstops.overfull
    rw [List.length_append] at hlength
    omega
  · exact Nat.not_lt.mpr hserved.room hstops.overfull

/-- In every state of a manager, a request changes nothing when it returns -1 and gives exactly what
was asked for when it returns 0, if and only if it is not the case that it passes the tests before
the loop and the table has room for one processor but not for all. -/
theorem allocatesAtomically_iff (manager : VmResourceManager) (vmId vcpus : UInt32)
    (memoryMb : UInt64) :
    AllocatesAtomically manager vmId vcpus memoryMb ↔
      ¬ manager.StopsInside vmId vcpus memoryMb := by
  refine ⟨fun hatomic hstops ↦ not_allocatesAtomically_of_stopsInside hstops hatomic, fun hnot ↦ ?_⟩
  have hminus : ¬ (-1 : Int) = 0 := by decide
  rcases vmAllocateResources_spec manager vmId vcpus memoryMb with
    ⟨hafter, -⟩ | ⟨-, hstops⟩ | ⟨-, hzero, hattributed⟩
  · refine ⟨fun _ ↦ ?_, fun hzero ↦ ?_⟩
    · rw [hafter]
    · rw [hafter] at hzero
      exact absurd hzero hminus
  · exact absurd hstops hnot
  · exact ⟨fun hrefused ↦ absurd (hrefused.symm.trans hzero) hminus, fun _ ↦ hattributed⟩

/-- A request for one processor more than there are, to a new manager, returns -1 and leaves all
processors with the machine. -/
theorem not_allocatesAtomically_too_many :
    ¬ AllocatesAtomically (vmResourceManagerInit 1) 1 1025 1 := by
  refine not_allocatesAtomically_of_stopsInside ⟨?_, ?_, ?_, ?_, ?_⟩ <;> decide

end OneOS.Virtualization
