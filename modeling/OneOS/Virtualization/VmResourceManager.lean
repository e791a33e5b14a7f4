import OneOS.Foundation.Runs
import OneOS.Foundation.Table

/-!
# The resource manager of virtual machines

`advanced-virtualization/vm_resource_manager.c`: a table of virtual processors that only grows, the
memory of every virtual machine, and pools from which memory is taken. Memory is taken from the pool
with the lowest ratio of use among those with enough left, and given back to the first pool that has
given out as much. A request for more processors than fit in the table fails when the table is full,
with the processors that did fit in it.

`vm_hot_resize` keeps the change of memory in a signed number of 32 bits, which is a residue here
(`memoryDelta`), and adds it to a total of 64 bits. A release lowers the number of reservations of a
pool and leaves the reserved amount out of the pool.

Ratios are numbers of 32 bits with a point. Left out are the checks of pointers, the mode of a pool,
the totals that no modelled function reads, and the functions for the balloon, for processors that
are oversubscribed and for metrics, which change none of the data here but marks and loads.
-/

set_option autoImplicit false
set_option relaxedAutoImplicit false

namespace OneOS.Virtualization

open Foundation

/-! ### Processors, memory and pools -/

/-- `MAX_VMS`. -/
def maxVms : ℕ := 256

/-- `MAX_VCPUS`. -/
def maxVcpus : ℕ := 1024

/-- `MAX_VM_MEMORY_MB`. -/
def maxVmMemoryMb : ℕ := 1048576

/-- `MAX_RESOURCE_POOLS`. -/
def maxResourcePools : ℕ := 16

/-- `ResourceType`. -/
inductive ResourceType
  | cpu
  | memory
  | disk
  | network
  | io
  deriving DecidableEq, Repr

/-- The type with a number. -/
def ResourceType.ofNumber : ℕ → ResourceType
  | 0 => .cpu
  | 1 => .memory
  | 2 => .disk
  | 3 => .network
  | _ => .io

/-- `vCPUInfo`. -/
structure VCpuInfo where
  vcpuId : UInt32
  vmId : UInt32
  cyclesExecuted : UInt64
  cpuUsagePercent : Float32
  coreAffinity : UInt32
  isActive : Bool
  isOversubscribed : Bool

/-- A processor whose bytes are 0. -/
def VCpuInfo.zero : VCpuInfo where
  vcpuId := 0
  vmId := 0
  cyclesExecuted := 0
  cpuUsagePercent := 0
  coreAffinity := 0
  isActive := false
  isOversubscribed := false

/-- `VMMemoryState`. -/
structure VmMemoryState where
  vmId : UInt32
  allocatedMemoryMb : UInt64
  usedMemoryMb : UInt64
  peakMemoryMb : UInt64
  pageCount : UInt32
  dirtyPages : UInt32
  sharedPages : UInt32
  memoryUtilization : Float32
  isBallooning : Bool

/-- The memory of a machine whose bytes are 0. -/
def VmMemoryState.zero : VmMemoryState where
  vmId := 0
  allocatedMemoryMb := 0
  usedMemoryMb := 0
  peakMemoryMb := 0
  pageCount := 0
  dirtyPages := 0
  sharedPages := 0
  memoryUtilization := 0
  isBallooning := false

/-- `ResourcePool`. -/
structure ResourcePool where
  poolId : UInt32
  resourceType : ResourceType
  totalCapacity : UInt64
  allocatedCapacity : UInt64
  availableCapacity : UInt64
  vmCount : UInt32
  reservationCount : UInt32
  utilizationRatio : Float32
  reservationRatio : Float32

/-- `VMResourceManager`, with the used rows of its pools and processors as lists. -/
structure VmResourceManager where
  pools : List ResourcePool
  totalVms : UInt32
  vcpus : List VCpuInfo
  vmMemory : ℕ → VmMemoryState
  totalMemoryCapacityMb : UInt64
  totalMemoryAllocatedMb : UInt64

/-- `pool_count` of a manager that is asked for so many pools. -/
def poolCountOf (poolCount : UInt32) : ℕ :=
  if maxResourcePools < poolCount.toNat then maxResourcePools else poolCount.toNat

/-- `vm_resource_manager_init`. -/
def vmResourceManagerInit (poolCount : UInt32) : VmResourceManager where
  pools := (List.range (poolCountOf poolCount)).map fun i ↦
    { poolId := UInt32.ofNat i
      resourceType := ResourceType.ofNumber (i % 5)
      totalCapacity := UInt64.ofNat (maxVmMemoryMb / poolCountOf poolCount)
      allocatedCapacity := 0
      availableCapacity := UInt64.ofNat (maxVmMemoryMb / poolCountOf poolCount)
      vmCount := 0
      reservationCount := 0
      utilizationRatio := 0
      reservationRatio := 0 }
  totalVms := 0
  vcpus := []
  vmMemory := fun _ ↦ VmMemoryState.zero
  totalMemoryCapacityMb := UInt64.ofNat maxVmMemoryMb
  totalMemoryAllocatedMb := 0

/-! ### Taking and giving back -/

/-- The processor that is put in a row for a machine. -/
def newVcpu (vmId : UInt32) (row : ℕ) : VCpuInfo where
  vcpuId := UInt32.ofNat row
  vmId := vmId
  cyclesExecuted := 0
  cpuUsagePercent := 0
  coreAffinity := UInt32.ofNat (row % 128)
  isActive := true
  isOversubscribed := false

/-- The loop of `vm_allocate_resources` over the processors, with whether it ran to its end. -/
def addVcpus (vmId : UInt32) : ℕ → List VCpuInfo → List VCpuInfo × Bool
  | 0, vcpus => (vcpus, true)
  | rounds + 1, vcpus =>
    if maxVcpus ≤ vcpus.length then (vcpus, false)
    else addVcpus vmId rounds (vcpus ++ [newVcpu vmId vcpus.length])

/-- The memory of a machine that was given so much of it. -/
def newMemory (vmId : UInt32) (memoryMb : UInt64) : VmMemoryState where
  vmId := vmId
  allocatedMemoryMb := memoryMb
  usedMemoryMb := 0
  peakMemoryMb := 0
  pageCount := (memoryMb * 256).toUInt32
  dirtyPages := 0
  sharedPages := 0
  memoryUtilization := 0
  isBallooning := false

/-- One round of the search for a pool: a pool with enough left is better than none and than one
with a higher ratio. -/
def considerPool (memoryMb : UInt64) (best : Option (ℕ × ResourcePool)) (row : ResourcePool × ℕ) :
    Option (ℕ × ResourcePool) :=
  if memoryMb ≤ row.1.availableCapacity then
    match best with
    | none => some (row.2, row.1)
    | some (_, chosen) =>
      if row.1.utilizationRatio < chosen.utilizationRatio then some (row.2, row.1) else best
  else best

/-- The pool from which `vm_allocate_resources` takes memory, with its row. -/
def bestPool (memoryMb : UInt64) (pools : List ResourcePool) : Option (ℕ × ResourcePool) :=
  runFrom (considerPool memoryMb) none pools.zipIdx

/-- `utilization_ratio` of an amount that is allocated. -/
def ResourcePool.ratioOf (pool : ResourcePool) (allocatedCapacity : UInt64) : Float32 :=
  allocatedCapacity.toFloat32 / pool.totalCapacity.toFloat32

/-- The pool after memory is taken from it. -/
def ResourcePool.take (memoryMb : UInt64) (pool : ResourcePool) : ResourcePool :=
  { pool with
    allocatedCapacity := pool.allocatedCapacity + memoryMb
    availableCapacity := pool.availableCapacity - memoryMb
    vmCount := pool.vmCount + 1
    utilizationRatio := pool.ratioOf (pool.allocatedCapacity + memoryMb) }

/-- The pool after memory is given back to it. -/
def ResourcePool.giveBack (memoryMb : UInt64) (pool : ResourcePool) : ResourcePool :=
  { pool with
    allocatedCapacity := pool.allocatedCapacity - memoryMb
    availableCapacity := pool.availableCapacity + memoryMb
    vmCount := pool.vmCount - 1
    utilizationRatio := pool.ratioOf (pool.allocatedCapacity - memoryMb) }

/-- The pools after memory is taken from the best of them. -/
def takeFromBest (memoryMb : UInt64) (pools : List ResourcePool) : List ResourcePool :=
  match bestPool memoryMb pools with
  | none => pools
  | some (row, _) => pools.modify row (ResourcePool.take memoryMb)

/-- `vm_allocate_resources`. -/
def vmAllocateResources (manager : VmResourceManager) (vmId vcpus : UInt32) (memoryMb : UInt64) :
    VmResourceManager × Int :=
  if maxVms ≤ vmId.toNat ∨ vcpus = 0 ∨ memoryMb = 0 then (manager, -1)
  else if manager.totalMemoryCapacityMb < manager.totalMemoryAllocatedMb + memoryMb then
    (manager, -1)
  else
    match addVcpus vmId vcpus.toNat manager.vcpus with
    | (table, false) => ({ manager with vcpus := table }, -1)
    | (table, true) =>
      ({ manager with
        vcpus := table
        vmMemory := Function.update manager.vmMemory vmId.toNat (newMemory vmId memoryMb)
        totalMemoryAllocatedMb := manager.totalMemoryAllocatedMb + memoryMb
        totalVms := manager.totalVms + 1
        pools := takeFromBest memoryMb manager.pools }, 0)

/-- What a machine has allocated. -/
def VmResourceManager.memoryOf (manager : VmResourceManager) (vmId : UInt32) : UInt64 :=
  (manager.vmMemory vmId.toNat).allocatedMemoryMb

/-- `vm_deallocate_resources`. -/
def vmDeallocateResources (manager : VmResourceManager) (vmId : UInt32) :
    VmResourceManager × Int :=
  if maxVms ≤ vmId.toNat then (manager, -1)
  else if manager.memoryOf vmId = 0 then (manager, -1)
  else
    ({ manager with
      totalMemoryAllocatedMb := manager.totalMemoryAllocatedMb - manager.memoryOf vmId
      pools := updateFirst (fun pool ↦ manager.memoryOf vmId ≤ pool.allocatedCapacity)
        (ResourcePool.giveBack (manager.memoryOf vmId)) manager.pools
      vcpus := manager.vcpus.map fun vcpu ↦ if vcpu.vmId = vmId then VCpuInfo.zero else vcpu
      vmMemory := Function.update manager.vmMemory vmId.toNat VmMemoryState.zero
      totalVms := manager.totalVms - 1 }, 0)

/-! ### Reservations -/

/-- The row of the pool in which `vm_reserve_resources` reserves. -/
def VmResourceManager.reservingRow (manager : VmResourceManager) (vmId : UInt32)
    (type : ResourceType) (amount : UInt64) : Option ℕ :=
  if maxVms ≤ vmId.toNat ∨ amount = 0 then none
  else manager.pools.findIdx? fun pool ↦
    pool.resourceType = type ∧ amount ≤ pool.availableCapacity

/-- The pool after an amount is reserved in it. -/
def ResourcePool.reserve (amount : UInt64) (pool : ResourcePool) : ResourcePool :=
  { pool with
    availableCapacity := pool.availableCapacity - amount
    reservationCount := pool.reservationCount + 1
    reservationRatio := (pool.reservationCount + 1).toFloat32 / pool.vmCount.toFloat32 }

/-- `vm_reserve_resources`. -/
def vmReserveResources (manager : VmResourceManager) (vmId : UInt32) (type : ResourceType)
    (amount : UInt64) : VmResourceManager × Int :=
  match manager.reservingRow vmId type amount with
  | none => (manager, -1)
  | some row =>
    ({ manager with pools := manager.pools.modify row (ResourcePool.reserve amount) }, 0)

/-- The row of the pool in which `vm_release_reservation` releases. -/
def VmResourceManager.releasingRow (manager : VmResourceManager) (vmId : UInt32)
    (type : ResourceType) : Option ℕ :=
  if maxVms ≤ vmId.toNat then none
  else manager.pools.findIdx? fun pool ↦ pool.resourceType = type ∧ 0 < pool.reservationCount

/-- The pool after a reservation in it is released. -/
def ResourcePool.release (pool : ResourcePool) : ResourcePool :=
  { pool with
    reservationCount := pool.reservationCount - 1
    reservationRatio :=
      if 0 < pool.vmCount then (pool.reservationCount - 1).toFloat32 / pool.vmCount.toFloat32
      else 0 }

/-- `vm_release_reservation`. -/
def vmReleaseReservation (manager : VmResourceManager) (vmId : UInt32) (type : ResourceType) :
    VmResourceManager × Int :=
  match manager.releasingRow vmId type with
  | none => (manager, -1)
  | some row => ({ manager with pools := manager.pools.modify row ResourcePool.release }, 0)

/-! ### Resizing -/

/-- `memory_delta` of `vm_hot_resize`: the change of memory, kept in a signed number of 32 bits. -/
def memoryDelta (allocatedMemoryMb newMemoryMb : UInt64) : ℤ :=
  Int.bmod (newMemoryMb - allocatedMemoryMb).toNat (2 ^ 32)

/-- The test of `vm_hot_resize` on the capacity. -/
def VmResourceManager.exceedsCapacity (manager : VmResourceManager) (delta : ℤ) : Bool :=
  0 < delta ∧
    manager.totalMemoryCapacityMb < manager.totalMemoryAllocatedMb + UInt64.ofInt delta

/-- `vm_hot_resize`. -/
def vmHotResize (manager : VmResourceManager) (vmId newVcpus : UInt32) (newMemoryMb : UInt64) :
    VmResourceManager × Int :=
  if maxVms ≤ vmId.toNat ∨ newVcpus = 0 ∨ newMemoryMb = 0 then (manager, -1)
  else if manager.memoryOf vmId = 0 then (manager, -1)
  else if manager.exceedsCapacity (memoryDelta (manager.memoryOf vmId) newMemoryMb) then
    (manager, -1)
  else
    ({ manager with
      vmMemory := Function.update manager.vmMemory vmId.toNat
        { manager.vmMemory vmId.toNat with
          allocatedMemoryMb := newMemoryMb
          pageCount := (newMemoryMb * 256).toUInt32 }
      totalMemoryAllocatedMb := manager.totalMemoryAllocatedMb +
        UInt64.ofInt (memoryDelta (manager.memoryOf vmId) newMemoryMb) }, 0)

/-! ### Calls -/

/-- A call to the manager. -/
inductive ManagerCall
  | allocate (vmId vcpus : UInt32) (memoryMb : UInt64)
  | deallocate (vmId : UInt32)
  | reserve (vmId : UInt32) (type : ResourceType) (amount : UInt64)
  | release (vmId : UInt32) (type : ResourceType)
  | hotResize (vmId newVcpus : UInt32) (newMemoryMb : UInt64)
  deriving DecidableEq, Repr

/-- What a call does to the manager. -/
def managerStep (manager : VmResourceManager) : ManagerCall → VmResourceManager
  | .allocate vmId vcpus memoryMb => (vmAllocateResources manager vmId vcpus memoryMb).1
  | .deallocate vmId => (vmDeallocateResources manager vmId).1
  | .reserve vmId type amount => (vmReserveResources manager vmId type amount).1
  | .release vmId type => (vmReleaseReservation manager vmId type).1
  | .hotResize vmId newVcpus newMemoryMb => (vmHotResize manager vmId newVcpus newMemoryMb).1

end OneOS.Virtualization
