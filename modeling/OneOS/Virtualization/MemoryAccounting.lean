import Mathlib.Algebra.BigOperators.Group.Finset.Piecewise
import Mathlib.Algebra.Order.BigOperators.Group.Finset
import OneOS.Foundation.Counters
import OneOS.Virtualization.VmResourceManager

/-!
# The accounts of memory

The total of a manager is to be what its machines have allocated and to stay inside the capacity,
and in every pool what is available, allocated and reserved is to make up the capacity of the pool
(`Accounted`). What a pool has reserved is not kept by the manager and is recorded beside the run
(`trackReserved`).

The total misses the memory of a machine that is allocated anew, sums of 64 bits that wrap, and
changes of memory that do not fit in 32 bits; a release makes a pool lose the reserved amount.
`accounted_iff` says that these are all the ways.
-/

set_option autoImplicit false
set_option relaxedAutoImplicit false

namespace OneOS.Virtualization

open Foundation

/-! ### Accounts -/

/-- What is allocated to all machines. -/
def allocatedMemory (vmMemory : ℕ → VmMemoryState) : ℕ :=
  ∑ vm ∈ Finset.range maxVms, (vmMemory vm).allocatedMemoryMb.toNat

/-- The total is what the machines have allocated, inside the capacity. -/
structure MemoryAccounted (manager : VmResourceManager) : Prop where
  total : manager.totalMemoryAllocatedMb.toNat = allocatedMemory manager.vmMemory
  inside : manager.totalMemoryAllocatedMb ≤ manager.totalMemoryCapacityMb

/-- The total of amounts that are reserved. -/
def reservedTotal (amounts : List UInt64) : ℕ := (amounts.map UInt64.toNat).sum

/-- What is available, allocated and reserved makes up the capacity of a pool. -/
def ResourcePool.Balanced (pool : ResourcePool) (amounts : List UInt64) : Prop :=
  pool.availableCapacity.toNat + pool.allocatedCapacity.toNat + reservedTotal amounts =
    pool.totalCapacity.toNat

/-- What holds of every pool and the amounts that are reserved in it. -/
def EveryRow (property : ResourcePool → List UInt64 → Prop) (pools : List ResourcePool)
    (reserved : ℕ → List UInt64) : Prop :=
  ∀ row, ∀ pool ∈ pools[row]?, property pool (reserved row)

/-- The accounts of a manager and of all its pools, with the amounts that are reserved in each. -/
structure Accounted (manager : VmResourceManager) (reserved : ℕ → List UInt64) : Prop where
  memory : MemoryAccounted manager
  pools : EveryRow ResourcePool.Balanced manager.pools reserved

/-- The record of what is reserved in each pool: an amount that is reserved is added, and a release
takes one away. -/
def trackReserved (manager : VmResourceManager) (call : ManagerCall)
    (reserved : ℕ → List UInt64) : ℕ → List UInt64 :=
  match call with
  | .reserve vmId type amount =>
    match manager.reservingRow vmId type amount with
    | none => reserved
    | some row => Function.update reserved row (amount :: reserved row)
  | .release vmId type =>
    match manager.releasingRow vmId type with
    | none => reserved
    | some row => Function.update reserved row (reserved row).tail
  | _ => reserved

/-! ### The condition -/

/-- A request that is served: it passes the tests, and its processors fit in the table. -/
structure VmResourceManager.Allocates (manager : VmResourceManager) (vmId vcpus : UInt32)
    (memoryMb : UInt64) : Prop where
  vm_lt : vmId.toNat < maxVms
  vcpus_ne : vcpus ≠ 0
  memory_ne : memoryMb ≠ 0
  fits : manager.totalMemoryAllocatedMb + memoryMb ≤ manager.totalMemoryCapacityMb
  room : manager.vcpus.length + vcpus.toNat ≤ maxVcpus

/-- A change of size that passes the tests. -/
structure VmResourceManager.Resizes (manager : VmResourceManager) (vmId newVcpus : UInt32)
    (newMemoryMb : UInt64) : Prop where
  vm_lt : vmId.toNat < maxVms
  vcpus_ne : newVcpus ≠ 0
  memory_ne : newMemoryMb ≠ 0
  allocated_ne : manager.memoryOf vmId ≠ 0
  fits : manager.exceedsCapacity (memoryDelta (manager.memoryOf vmId) newMemoryMb) = false

/-- The condition on a call for the total, in the state before it. A request that is served is for a
machine without memory, and its sum with the total does not wrap. A change of size that passes the
tests adds less than fits in a signed number of 32 bits. -/
def ManagerCall.KeepsTotal (manager : VmResourceManager) : ManagerCall → Prop
  | .allocate vmId vcpus memoryMb => manager.Allocates vmId vcpus memoryMb →
      manager.memoryOf vmId = 0 ∧
        manager.totalMemoryAllocatedMb.toNat + memoryMb.toNat < 2 ^ 64
  | .hotResize vmId newVcpus newMemoryMb => manager.Resizes vmId newVcpus newMemoryMb →
      newMemoryMb.toNat < (manager.memoryOf vmId).toNat + 2 ^ 31
  | _ => True

/-- The condition on a call for the pools, in the state before it: no release finds a
reservation. -/
def ManagerCall.KeepsReserved (manager : VmResourceManager) : ManagerCall → Prop
  | .release vmId type => manager.releasingRow vmId type = none
  | _ => True

/-- The conditions on a call. -/
structure ManagerCall.KeepsAccounts (manager : VmResourceManager) (call : ManagerCall) : Prop where
  total : call.KeepsTotal manager
  reserved : call.KeepsReserved manager

variable {manager : VmResourceManager} {reserved : ℕ → List UInt64} {pools : List ResourcePool}
  {pool : ResourcePool} {amounts : List UInt64} {memoryMb : UInt64} {vmId vcpus : UInt32}

/-! ### One pool -/

/-- What holds of a pool along a run: it is balanced, and it counts its reservations, of which none
is empty. -/
structure PoolHolds (pool : ResourcePool) (amounts : List UInt64) : Prop where
  balanced : pool.Balanced amounts
  bounded : pool.totalCapacity.toNat ≤ maxVmMemoryMb
  counted : pool.reservationCount.toNat = amounts.length
  positive : ∀ amount ∈ amounts, amount ≠ 0

/-- There are no more reservations than what they reserve. -/
theorem length_le_reservedTotal (hpositive : ∀ amount ∈ amounts, amount ≠ 0) :
    amounts.length ≤ reservedTotal amounts := by
  induction amounts with
  | nil => exact Nat.le_refl 0
  | cons amount amounts ih =>
    obtain ⟨hne, hrest⟩ := List.forall_mem_cons.mp hpositive
    have hpos := toNat_amount_pos hne
    have hlength := ih hrest
    rw [reservedTotal] at hlength
    rw [reservedTotal, List.map_cons, List.sum_cons, List.length_cons]
    omega

theorem PoolHolds.take (hholds : PoolHolds pool amounts)
    (hleft : memoryMb ≤ pool.availableCapacity) : PoolHolds (pool.take memoryMb) amounts := by
  obtain ⟨hbalanced, hbounded, hcounted, hpositive⟩ := hholds
  refine ⟨?_, hbounded, hcounted, hpositive⟩
  have hcapacity := pool.totalCapacity.toNat_lt
  rw [ResourcePool.Balanced] at hbalanced ⊢
  obtain ⟨havailable, hallocated⟩ := toNat_moved hleft
    (show pool.availableCapacity.toNat + pool.allocatedCapacity.toNat < 2 ^ 64 by omega)
  rw [ResourcePool.take]
  dsimp only
  omega

theorem PoolHolds.giveBack (hholds : PoolHolds pool amounts)
    (hgiven : memoryMb ≤ pool.allocatedCapacity) :
    PoolHolds (pool.giveBack memoryMb) amounts := by
  obtain ⟨hbalanced, hbounded, hcounted, hpositive⟩ := hholds
  refine ⟨?_, hbounded, hcounted, hpositive⟩
  have hcapacity := pool.totalCapacity.toNat_lt
  rw [ResourcePool.Balanced] at hbalanced ⊢
  obtain ⟨hallocated, havailable⟩ := toNat_moved hgiven
    (show pool.allocatedCapacity.toNat + pool.availableCapacity.toNat < 2 ^ 64 by omega)
  rw [ResourcePool.giveBack]
  dsimp only
  omega

theorem PoolHolds.reserve {amount : UInt64} (hholds : PoolHolds pool amounts) (hne : amount ≠ 0)
    (hleft : amount ≤ pool.availableCapacity) :
    PoolHolds (pool.reserve amount) (amount :: amounts) := by
  obtain ⟨hbalanced, hbounded, hcounted, hpositive⟩ := hholds
  have hle := UInt64.le_iff_toNat_le.mp hleft
  have hlength := length_le_reservedTotal hpositive
  have hmax : maxVmMemoryMb < 2 ^ 31 := by decide
  rw [ResourcePool.Balanced] at hbalanced
  refine ⟨?_, hbounded, ?_, List.forall_mem_cons.mpr ⟨hne, hpositive⟩⟩
  · rw [ResourcePool.Balanced, ResourcePool.reserve, UInt64.toNat_sub_of_le _ _ hleft,
      reservedTotal, List.map_cons, List.sum_cons]
    rw [reservedTotal] at hbalanced
    dsimp only
    omega
  · rw [ResourcePool.reserve, toNat_succ (by omega), hcounted, List.length_cons]

/-- A pool that counts a reservation is not balanced after its release. -/
theorem PoolHolds.not_balanced_release (hholds : PoolHolds pool amounts)
    (hcount : 0 < pool.reservationCount) : ¬ pool.release.Balanced amounts.tail := by
  obtain ⟨hbalanced, -, hcounted, hpositive⟩ := hholds
  have hpos := UInt32.lt_iff_toNat_lt.mp hcount
  rw [ResourcePool.Balanced] at hbalanced
  cases amounts with
  | nil => exact absurd hcounted (Nat.ne_of_gt hpos)
  | cons amount amounts =>
    have hamount := toNat_amount_pos (hpositive amount List.mem_cons_self)
    rw [reservedTotal, List.map_cons, List.sum_cons] at hbalanced
    rw [ResourcePool.Balanced, ResourcePool.release, List.tail_cons, reservedTotal]
    dsimp only
    omega

/-! ### All pools -/

/-- A change of one pool, and of what is reserved in it. -/
theorem EveryRow.modify {property : ResourcePool → List UInt64 → Prop} {row : ℕ}
    {change : ResourcePool → ResourcePool} (hall : EveryRow property pools reserved)
    (hchange : ∀ pool ∈ pools[row]?, property (change pool) amounts) :
    EveryRow property (pools.modify row change) (Function.update reserved row amounts) := by
  intro other after hafter
  rw [List.getElem?_modify] at hafter
  obtain ⟨pool, hpool, rfl⟩ := Option.map_eq_some_iff.mp hafter
  by_cases hsame : row = other
  · rw [← hsame, Function.update_self, if_pos rfl]
    rw [← hsame] at hpool
    exact hchange pool hpool
  · rw [Function.update_of_ne (Ne.symm hsame), if_neg hsame]
    exact hall other pool hpool

/-- A change of one pool. -/
theorem EveryRow.modify_pool {property : ResourcePool → List UInt64 → Prop} {row : ℕ}
    {change : ResourcePool → ResourcePool} (hall : EveryRow property pools reserved)
    (hchange : ∀ pool ∈ pools[row]?, property (change pool) (reserved row)) :
    EveryRow property (pools.modify row change) reserved := by
  have hafter := hall.modify hchange
  rwa [Function.update_eq_self] at hafter

/-- A round of the search keeps what was found or finds a pool with enough left. -/
theorem considerPool_cases {best : Option (ℕ × ResourcePool)} {row : ResourcePool × ℕ}
    {found : ℕ × ResourcePool} (hfound : considerPool memoryMb best row = some found) :
    best = some found ∨ found = (row.2, row.1) ∧ memoryMb ≤ row.1.availableCapacity := by
  unfold considerPool at hfound
  split_ifs at hfound with hleft
  · cases best with
    | none => exact Or.inr ⟨(Option.some.inj hfound).symm, hleft⟩
    | some chosen =>
      dsimp only at hfound
      split_ifs at hfound
      · exact Or.inr ⟨(Option.some.inj hfound).symm, hleft⟩
      · exact Or.inl hfound
  · exact Or.inl hfound

/-- The pool that is chosen is one of the pools and has enough left. -/
theorem bestPool_spec {row : ℕ} (hbest : bestPool memoryMb pools = some (row, pool)) :
    pools[row]? = some pool ∧ memoryMb ≤ pool.availableCapacity := by
  refine runFrom_invariant
    (fun best : Option (ℕ × ResourcePool) ↦ ∀ found, best = some found →
      pools[found.1]? = some found.2 ∧ memoryMb ≤ found.2.availableCapacity)
    (fun _ (step : ResourcePool × ℕ) ↦ pools[step.2]? = some step.1) ?_ ?_
    (everyStep_of_forall_mem fun step hstep ↦ List.mem_zipIdx_iff_getElem?.mp hstep)
    (row, pool) hbest
  · intro best step hbest hstep found hfound
    rcases considerPool_cases hfound with hkept | ⟨rfl, hleft⟩
    · exact hbest found hkept
    · exact ⟨hstep, hleft⟩
  · intro found hnone
    exact absurd hnone (Option.some_ne_none found).symm

theorem everyRow_takeFromBest (hall : EveryRow PoolHolds pools reserved) :
    EveryRow PoolHolds (takeFromBest memoryMb pools) reserved := by
  rw [takeFromBest]
  cases hbest : bestPool memoryMb pools with
  | none => exact hall
  | some chosen =>
    obtain ⟨row, best⟩ := chosen
    obtain ⟨hrow, hleft⟩ := bestPool_spec hbest
    refine hall.modify_pool fun pool hpool ↦ ?_
    obtain rfl : best = pool := Option.some.inj (hrow.symm.trans hpool)
    exact (hall row best hrow).take hleft

theorem everyRow_giveBack (hall : EveryRow PoolHolds pools reserved) :
    EveryRow PoolHolds (updateFirst (fun pool ↦ memoryMb ≤ pool.allocatedCapacity)
      (ResourcePool.giveBack memoryMb) pools) reserved := by
  refine hall.modify_pool fun pool hpool ↦ (hall _ pool hpool).giveBack ?_
  obtain ⟨hlt, rfl⟩ := List.getElem?_eq_some_iff.mp hpool
  have htest := List.findIdx_getElem (w := hlt)
  exact of_decide_eq_true htest

theorem everyRow_reserve (hall : EveryRow PoolHolds manager.pools reserved) (vmId : UInt32)
    (type : ResourceType) (amount : UInt64) :
    EveryRow PoolHolds (vmReserveResources manager vmId type amount).1.pools
      (trackReserved manager (.reserve vmId type amount) reserved) := by
  rw [vmReserveResources, trackReserved]
  cases hserving : manager.reservingRow vmId type amount with
  | none => exact hall
  | some row =>
    rw [VmResourceManager.reservingRow] at hserving
    split_ifs at hserving with hrefused
    refine hall.modify fun pool hpool ↦ ?_
    obtain ⟨hlt, htest, -⟩ := List.findIdx?_eq_some_iff_getElem.mp hserving
    obtain rfl : manager.pools[row] = pool := (List.getElem?_eq_some_iff.mp hpool).2
    exact (hall row _ hpool).reserve (fun hzero ↦ hrefused (Or.inr hzero))
      (of_decide_eq_true htest).2

/-- A release keeps pools balanced exactly when it finds no reservation. -/
theorem everyRow_release_iff (hall : EveryRow PoolHolds manager.pools reserved) (vmId : UInt32)
    (type : ResourceType) :
    EveryRow ResourcePool.Balanced (vmReleaseReservation manager vmId type).1.pools
        (trackReserved manager (.release vmId type) reserved) ↔
      manager.releasingRow vmId type = none := by
  rw [vmReleaseReservation, trackReserved]
  cases hserving : manager.releasingRow vmId type with
  | none => exact iff_of_true (fun row pool hpool ↦ (hall row pool hpool).balanced) rfl
  | some row =>
    refine iff_of_false (fun hafter ↦ ?_) (Option.some_ne_none row)
    rw [VmResourceManager.releasingRow] at hserving
    split_ifs at hserving with hrefused
    obtain ⟨hlt, htest, -⟩ := List.findIdx?_eq_some_iff_getElem.mp hserving
    have hpool := List.getElem?_eq_getElem hlt
    have hreleased := hafter row _ (by
      rw [Option.mem_def, List.getElem?_modify, hpool, Option.map_eq_map, Option.map_some,
        if_pos rfl])
    dsimp only at hreleased
    rw [Function.update_self] at hreleased
    exact (hall row _ hpool).not_balanced_release (of_decide_eq_true htest).2 hreleased

/-! ### The memory of machines -/

/-- A change of the memory of one machine. -/
theorem allocatedMemory_update (vmMemory : ℕ → VmMemoryState) {vm : ℕ} (hvm : vm < maxVms)
    (state : VmMemoryState) :
    allocatedMemory (Function.update vmMemory vm state) + (vmMemory vm).allocatedMemoryMb.toNat =
      allocatedMemory vmMemory + state.allocatedMemoryMb.toNat := by
  have hmem := Finset.mem_range.mpr hvm
  have hother : ∀ other ∈ (Finset.range maxVms).erase vm,
      (Function.update vmMemory vm state other).allocatedMemoryMb.toNat =
        (vmMemory other).allocatedMemoryMb.toNat := by
    intro other hother
    rw [Function.update_of_ne (Finset.ne_of_mem_erase hother)]
  rw [allocatedMemory, allocatedMemory, ← Finset.sum_erase_add _ _ hmem,
    ← Finset.sum_erase_add _ _ hmem, Finset.sum_congr rfl hother, Function.update_self,
    Nat.add_right_comm]

/-- A machine has no more than all machines. -/
theorem memoryOf_le (manager : VmResourceManager) (hvm : vmId.toNat < maxVms) :
    (manager.memoryOf vmId).toNat ≤ allocatedMemory manager.vmMemory := by
  rw [allocatedMemory, VmResourceManager.memoryOf]
  exact Finset.single_le_sum (f := fun vm ↦ (manager.vmMemory vm).allocatedMemoryMb.toNat)
    (fun _ _ ↦ Nat.zero_le _) (Finset.mem_range.mpr hvm)

/-- The loop over processors runs to its end exactly when they fit in the table. -/
theorem addVcpus_complete_iff (vmId : UInt32) (rounds : ℕ) (table : List VCpuInfo) :
    (addVcpus vmId rounds table).2 = true ↔ rounds = 0 ∨ table.length + rounds ≤ maxVcpus := by
  induction rounds generalizing table with
  | zero => exact iff_of_true rfl (Or.inl rfl)
  | succ rounds ih =>
    rw [addVcpus]
    by_cases hfull : maxVcpus ≤ table.length
    · rw [if_pos hfull]
      exact iff_of_false Bool.false_ne_true (by omega)
    · rw [if_neg hfull, ih, List.length_append, List.length_singleton]
      omega

/-- A request that passes the tests before the loop over the processors. -/
structure VmResourceManager.Admits (manager : VmResourceManager) (vmId vcpus : UInt32)
    (memoryMb : UInt64) : Prop where
  vm_lt : vmId.toNat < maxVms
  vcpus_ne : vcpus ≠ 0
  memory_ne : memoryMb ≠ 0
  fits : manager.totalMemoryAllocatedMb + memoryMb ≤ manager.totalMemoryCapacityMb

theorem VmResourceManager.allocates_iff :
    manager.Allocates vmId vcpus memoryMb ↔
      manager.Admits vmId vcpus memoryMb ∧ manager.vcpus.length + vcpus.toNat ≤ maxVcpus :=
  ⟨fun ⟨hvm, hvcpus, hmemory, hfits, hroom⟩ ↦ ⟨⟨hvm, hvcpus, hmemory, hfits⟩, hroom⟩,
    fun ⟨⟨hvm, hvcpus, hmemory, hfits⟩, hroom⟩ ↦ ⟨hvm, hvcpus, hmemory, hfits, hroom⟩⟩

/-- The ways in which a request for processors and memory ends: a test refuses it, the processors do
not fit in the table, or it is served. -/
theorem vmAllocateResources_ends (manager : VmResourceManager) (vmId vcpus : UInt32)
    (memoryMb : UInt64) :
    (¬ manager.Admits vmId vcpus memoryMb ∧
      vmAllocateResources manager vmId vcpus memoryMb = (manager, -1)) ∨
    (manager.Admits vmId vcpus memoryMb ∧ maxVcpus < manager.vcpus.length + vcpus.toNat ∧
      vmAllocateResources manager vmId vcpus memoryMb =
        ({ manager with vcpus := (addVcpus vmId vcpus.toNat manager.vcpus).1 }, -1)) ∨
    (manager.Allocates vmId vcpus memoryMb ∧
      vmAllocateResources manager vmId vcpus memoryMb =
        ({ manager with
          vcpus := (addVcpus vmId vcpus.toNat manager.vcpus).1
          vmMemory := Function.update manager.vmMemory vmId.toNat (newMemory vmId memoryMb)
          totalMemoryAllocatedMb := manager.totalMemoryAllocatedMb + memoryMb
          totalVms := manager.totalVms + 1
          pools := takeFromBest memoryMb manager.pools }, 0)) := by
  rw [vmAllocateResources]
  split_ifs with hrefused hover
  · refine Or.inl ⟨fun hadmits ↦ ?_, rfl⟩
    rcases hrefused with hvm | hvcpus | hmemory
    · exact absurd hadmits.vm_lt (Nat.not_lt.mpr hvm)
    · exact hadmits.vcpus_ne hvcpus
    · exact hadmits.memory_ne hmemory
  · exact Or.inl ⟨fun hadmits ↦ absurd hover (UInt64.not_lt.mpr hadmits.fits), rfl⟩
  push Not at hrefused
  obtain ⟨hvm, hvcpus, hmemory⟩ := hrefused
  have hadmits : manager.Admits vmId vcpus memoryMb :=
    ⟨hvm, hvcpus, hmemory, UInt64.not_lt.mp hover⟩
  have hrounds : vcpus.toNat ≠ 0 := (toNat_pos hvcpus).ne'
  have hcomplete := addVcpus_complete_iff vmId vcpus.toNat manager.vcpus
  generalize addVcpus vmId vcpus.toNat manager.vcpus = loop at hcomplete ⊢
  obtain ⟨table, ended⟩ := loop
  cases ended with
  | false =>
    refine Or.inr (Or.inl ⟨hadmits, Nat.lt_of_not_le fun hroom ↦ ?_, rfl⟩)
    exact Bool.false_ne_true (hcomplete.mpr (Or.inr hroom))
  | true =>
    have hroom := (hcomplete.mp rfl).resolve_left hrounds
    exact Or.inr (Or.inr ⟨VmResourceManager.allocates_iff.mpr ⟨hadmits, hroom⟩, rfl⟩)

/-- What a request for memory does. -/
theorem vmAllocateResources_cases (manager : VmResourceManager) (vmId vcpus : UInt32)
    (memoryMb : UInt64) :
    (∃ table, ¬ manager.Allocates vmId vcpus memoryMb ∧
      (vmAllocateResources manager vmId vcpus memoryMb).1 = { manager with vcpus := table }) ∨
    ∃ table, manager.Allocates vmId vcpus memoryMb ∧
      (vmAllocateResources manager vmId vcpus memoryMb).1 =
        { manager with
          vcpus := table
          vmMemory := Function.update manager.vmMemory vmId.toNat (newMemory vmId memoryMb)
          totalMemoryAllocatedMb := manager.totalMemoryAllocatedMb + memoryMb
          totalVms := manager.totalVms + 1
          pools := takeFromBest memoryMb manager.pools } := by
  rcases vmAllocateResources_ends manager vmId vcpus memoryMb with
    ⟨hrefused, hafter⟩ | ⟨-, hfull, hafter⟩ | ⟨hserved, hafter⟩
  · refine Or.inl ⟨manager.vcpus, fun hserved ↦ ?_, congrArg Prod.fst hafter⟩
    exact hrefused (VmResourceManager.allocates_iff.mp hserved).1
  · refine Or.inl ⟨_, fun hserved ↦ ?_, congrArg Prod.fst hafter⟩
    exact Nat.not_lt.mpr hserved.room hfull
  · exact Or.inr ⟨_, hserved, congrArg Prod.fst hafter⟩

/-- What a change of size does. -/
theorem vmHotResize_cases (manager : VmResourceManager) (vmId newVcpus : UInt32)
    (newMemoryMb : UInt64) :
    ¬ manager.Resizes vmId newVcpus newMemoryMb ∧
        (vmHotResize manager vmId newVcpus newMemoryMb).1 = manager ∨
      manager.Resizes vmId newVcpus newMemoryMb ∧
        (vmHotResize manager vmId newVcpus newMemoryMb).1 =
          { manager with
            vmMemory := Function.update manager.vmMemory vmId.toNat
              { manager.vmMemory vmId.toNat with
                allocatedMemoryMb := newMemoryMb
                pageCount := (newMemoryMb * 256).toUInt32 }
            totalMemoryAllocatedMb := manager.totalMemoryAllocatedMb +
              UInt64.ofInt (memoryDelta (manager.memoryOf vmId) newMemoryMb) } := by
  rw [vmHotResize]
  split_ifs with hrefused hnone hfull
  · refine Or.inl ⟨fun hserved ↦ ?_, rfl⟩
    rcases hrefused with hvm | hvcpus | hmemory
    · exact absurd hserved.vm_lt (Nat.not_lt.mpr hvm)
    · exact hserved.vcpus_ne hvcpus
    · exact hserved.memory_ne hmemory
  · exact Or.inl ⟨fun hserved ↦ hserved.allocated_ne hnone, rfl⟩
  · exact Or.inl ⟨fun hserved ↦ Bool.false_ne_true (hserved.fits.symm.trans hfull), rfl⟩
  · push Not at hrefused
    obtain ⟨hvm, hvcpus, hmemory⟩ := hrefused
    exact Or.inr ⟨⟨hvm, hvcpus, hmemory, hnone, Bool.eq_false_of_not_eq_true hfull⟩, rfl⟩

/-- A request that is served keeps the accounts of memory exactly when it is for a machine without
memory and its sum with the total does not wrap. -/
theorem memoryAccounted_allocate_iff {after : VmResourceManager}
    (haccounted : MemoryAccounted manager) (hserved : manager.Allocates vmId vcpus memoryMb)
    (htotal : after.totalMemoryAllocatedMb = manager.totalMemoryAllocatedMb + memoryMb)
    (hcapacity : after.totalMemoryCapacityMb = manager.totalMemoryCapacityMb)
    (hmemory : after.vmMemory =
      Function.update manager.vmMemory vmId.toNat (newMemory vmId memoryMb)) :
    MemoryAccounted after ↔ manager.memoryOf vmId = 0 ∧
      manager.totalMemoryAllocatedMb.toNat + memoryMb.toNat < 2 ^ 64 := by
  have hupdate : allocatedMemory after.vmMemory + (manager.memoryOf vmId).toNat =
      manager.totalMemoryAllocatedMb.toNat + memoryMb.toNat := by
    rw [hmemory, haccounted.total]
    exact allocatedMemory_update _ hserved.vm_lt _
  have hold := (manager.memoryOf vmId).toNat_lt
  have hsum := UInt64.toNat_add manager.totalMemoryAllocatedMb memoryMb
  rw [← htotal] at hsum
  have hzero : manager.memoryOf vmId = 0 ↔ (manager.memoryOf vmId).toNat = 0 :=
    UInt64.toNat_inj.symm
  constructor
  · intro hafter
    have hequal := hafter.total
    rw [hzero]
    omega
  · rintro ⟨hnone, hfits⟩
    rw [hzero] at hnone
    refine ⟨by omega, ?_⟩
    rw [htotal, hcapacity]
    exact hserved.fits

theorem memoryAccounted_deallocate (haccounted : MemoryAccounted manager) (vmId : UInt32) :
    MemoryAccounted (vmDeallocateResources manager vmId).1 := by
  rw [vmDeallocateResources]
  split_ifs with hvm hnone
  · exact haccounted
  · exact haccounted
  have hlt := Nat.lt_of_not_le hvm
  have hle : manager.memoryOf vmId ≤ manager.totalMemoryAllocatedMb := by
    rw [UInt64.le_iff_toNat_le, haccounted.total]
    exact memoryOf_le manager hlt
  have hsub := UInt64.toNat_sub_of_le _ _ hle
  have hupdate : allocatedMemory
      (Function.update manager.vmMemory vmId.toNat VmMemoryState.zero) +
        (manager.memoryOf vmId).toNat = allocatedMemory manager.vmMemory + 0 :=
    allocatedMemory_update _ hlt VmMemoryState.zero
  have hinside := UInt64.le_iff_toNat_le.mp haccounted.inside
  refine ⟨?_, UInt64.le_iff_toNat_le.mpr ?_⟩
  · have htotal := haccounted.total
    dsimp only
    omega
  · dsimp only
    omega

/-- The change of memory is right up to a multiple of 2^32, which a signed number of 32 bits
determines. -/
theorem memoryDelta_spec (allocatedMemoryMb newMemoryMb : UInt64) :
    -2147483648 ≤ memoryDelta allocatedMemoryMb newMemoryMb ∧
      memoryDelta allocatedMemoryMb newMemoryMb < 2147483648 ∧
      (memoryDelta allocatedMemoryMb newMemoryMb -
        (newMemoryMb.toNat - allocatedMemoryMb.toNat : ℤ)) % 4294967296 = 0 := by
  have hword : ((newMemoryMb - allocatedMemoryMb).toNat -
      (newMemoryMb.toNat - allocatedMemoryMb.toNat : ℤ)) % 4294967296 = 0 := by
    have hold := allocatedMemoryMb.toNat_lt
    rw [UInt64.toNat_sub]
    omega
  have hdelta : memoryDelta allocatedMemoryMb newMemoryMb =
      Int.bmod (newMemoryMb - allocatedMemoryMb).toNat (2 ^ 32) := rfl
  generalize memoryDelta allocatedMemoryMb newMemoryMb = delta at hdelta ⊢
  rw [Int.bmod_def] at hdelta
  omega

theorem toNat_add_ofInt (total : UInt64) (delta : ℤ) :
    ((total + UInt64.ofInt delta).toNat : ℤ) = (total.toNat + delta) % 18446744073709551616 := by
  have hofInt : ((UInt64.ofInt delta).toNat : ℤ) = delta % 18446744073709551616 := by
    rw [UInt64.ofInt, UInt64.toNat_ofNat']
    omega
  rw [UInt64.toNat_add]
  omega

/-- A change of size that passes the tests keeps the accounts of memory exactly when it adds less
than fits in a signed number of 32 bits. -/
theorem memoryAccounted_hotResize_iff {after : VmResourceManager} {newVcpus : UInt32}
    {newMemoryMb : UInt64} (haccounted : MemoryAccounted manager)
    (hbound : manager.totalMemoryCapacityMb.toNat = maxVmMemoryMb)
    (hserved : manager.Resizes vmId newVcpus newMemoryMb)
    (htotal : after.totalMemoryAllocatedMb = manager.totalMemoryAllocatedMb +
      UInt64.ofInt (memoryDelta (manager.memoryOf vmId) newMemoryMb))
    (hcapacity : after.totalMemoryCapacityMb = manager.totalMemoryCapacityMb)
    (hmemory : allocatedMemory after.vmMemory + (manager.memoryOf vmId).toNat =
      manager.totalMemoryAllocatedMb.toNat + newMemoryMb.toNat) :
    MemoryAccounted after ↔ newMemoryMb.toNat < (manager.memoryOf vmId).toNat + 2 ^ 31 := by
  have hmax : maxVmMemoryMb = 2 ^ 20 := by decide
  have hinside := UInt64.le_iff_toNat_le.mp haccounted.inside
  have hold := memoryOf_le manager hserved.vm_lt
  rw [← haccounted.total] at hold
  obtain ⟨hleast, hmost, hresidue⟩ := memoryDelta_spec (manager.memoryOf vmId) newMemoryMb
  have hsum := toNat_add_ofInt manager.totalMemoryAllocatedMb
    (memoryDelta (manager.memoryOf vmId) newMemoryMb)
  have hfits := of_decide_eq_false hserved.fits
  rw [UInt64.lt_iff_toNat_lt] at hfits
  rw [← htotal] at hsum hfits
  constructor
  · intro hafter
    have hequal := hafter.total
    have hless := UInt64.le_iff_toNat_le.mp hafter.inside
    rw [hcapacity] at hless
    omega
  · intro hsmall
    refine ⟨by omega, UInt64.le_iff_toNat_le.mpr ?_⟩
    rw [hcapacity]
    omega

/-! ### Every run -/

/-- The invariant of a run. -/
structure ManagerHolds (manager : VmResourceManager) (reserved : ℕ → List UInt64) : Prop where
  memory : MemoryAccounted manager
  capacity : manager.totalMemoryCapacityMb.toNat = maxVmMemoryMb
  pools : EveryRow PoolHolds manager.pools reserved

theorem ManagerHolds.accounted (hholds : ManagerHolds manager reserved) :
    Accounted manager reserved :=
  ⟨hholds.memory, fun row pool hpool ↦ (hholds.pools row pool hpool).balanced⟩

/-- No call changes the capacity. -/
theorem capacity_managerStep (manager : VmResourceManager) (call : ManagerCall) :
    (managerStep manager call).totalMemoryCapacityMb = manager.totalMemoryCapacityMb := by
  cases call with
  | allocate vmId vcpus memoryMb =>
    rw [managerStep]
    rcases vmAllocateResources_cases manager vmId vcpus memoryMb with
      ⟨table, -, hafter⟩ | ⟨table, -, hafter⟩
    · rw [hafter]
    · rw [hafter]
  | deallocate vmId =>
    rw [managerStep, vmDeallocateResources]
    split_ifs <;> rfl
  | reserve vmId type amount =>
    rw [managerStep, vmReserveResources]
    cases manager.reservingRow vmId type amount <;> rfl
  | release vmId type =>
    rw [managerStep, vmReleaseReservation]
    cases manager.releasingRow vmId type <;> rfl
  | hotResize vmId newVcpus newMemoryMb =>
    rw [managerStep]
    rcases vmHotResize_cases manager vmId newVcpus newMemoryMb with ⟨-, hafter⟩ | ⟨-, hafter⟩
    · rw [hafter]
    · rw [hafter]

/-- A call keeps the total exactly under the condition. -/
theorem memoryAccounted_managerStep_iff (hholds : ManagerHolds manager reserved)
    (call : ManagerCall) :
    MemoryAccounted (managerStep manager call) ↔ call.KeepsTotal manager := by
  cases call with
  | allocate vmId vcpus memoryMb =>
    rw [managerStep, ManagerCall.KeepsTotal]
    rcases vmAllocateResources_cases manager vmId vcpus memoryMb with
      ⟨table, hrefused, hafter⟩ | ⟨table, hserved, hafter⟩
    · rw [hafter]
      exact iff_of_true ⟨hholds.memory.total, hholds.memory.inside⟩ fun hserved ↦
        absurd hserved hrefused
    · rw [hafter, forall_prop_of_true hserved]
      exact memoryAccounted_allocate_iff hholds.memory hserved rfl rfl rfl
  | deallocate vmId => exact iff_of_true (memoryAccounted_deallocate hholds.memory vmId) trivial
  | reserve vmId type amount =>
    refine iff_of_true ?_ trivial
    rw [managerStep, vmReserveResources]
    cases manager.reservingRow vmId type amount with
    | none => exact hholds.memory
    | some row => exact ⟨hholds.memory.total, hholds.memory.inside⟩
  | release vmId type =>
    refine iff_of_true ?_ trivial
    rw [managerStep, vmReleaseReservation]
    cases manager.releasingRow vmId type with
    | none => exact hholds.memory
    | some row => exact ⟨hholds.memory.total, hholds.memory.inside⟩
  | hotResize vmId newVcpus newMemoryMb =>
    rw [managerStep, ManagerCall.KeepsTotal]
    rcases vmHotResize_cases manager vmId newVcpus newMemoryMb with
      ⟨hrefused, hafter⟩ | ⟨hserved, hafter⟩
    · rw [hafter]
      exact iff_of_true hholds.memory fun hserved ↦ absurd hserved hrefused
    · rw [hafter, forall_prop_of_true hserved]
      refine memoryAccounted_hotResize_iff hholds.memory hholds.capacity hserved rfl rfl ?_
      rw [hholds.memory.total]
      exact allocatedMemory_update _ hserved.vm_lt _

/-- A call that releases no reservation keeps what holds of pools. -/
theorem everyRow_managerStep (hall : EveryRow PoolHolds manager.pools reserved)
    {call : ManagerCall} (hkeeps : call.KeepsReserved manager) :
    EveryRow PoolHolds (managerStep manager call).pools
      (trackReserved manager call reserved) := by
  cases call with
  | allocate vmId vcpus memoryMb =>
    change EveryRow PoolHolds (vmAllocateResources manager vmId vcpus memoryMb).1.pools reserved
    rcases vmAllocateResources_cases manager vmId vcpus memoryMb with
      ⟨table, -, hafter⟩ | ⟨table, -, hafter⟩
    · rw [hafter]
      exact hall
    · rw [hafter]
      exact everyRow_takeFromBest hall
  | deallocate vmId =>
    change EveryRow PoolHolds (vmDeallocateResources manager vmId).1.pools reserved
    rw [vmDeallocateResources]
    split_ifs
    · exact hall
    · exact hall
    · exact everyRow_giveBack hall
  | reserve vmId type amount => exact everyRow_reserve hall vmId type amount
  | release vmId type =>
    have hnone : manager.releasingRow vmId type = none := hkeeps
    rw [managerStep, trackReserved, vmReleaseReservation, hnone]
    exact hall
  | hotResize vmId newVcpus newMemoryMb =>
    change EveryRow PoolHolds (vmHotResize manager vmId newVcpus newMemoryMb).1.pools reserved
    rcases vmHotResize_cases manager vmId newVcpus newMemoryMb with ⟨-, hafter⟩ | ⟨-, hafter⟩
    · rw [hafter]
      exact hall
    · rw [hafter]
      exact hall

/-- A call keeps pools balanced exactly when it releases no reservation. -/
theorem balanced_managerStep_iff (hall : EveryRow PoolHolds manager.pools reserved)
    (call : ManagerCall) :
    EveryRow ResourcePool.Balanced (managerStep manager call).pools
        (trackReserved manager call reserved) ↔ call.KeepsReserved manager := by
  refine ⟨fun hafter ↦ ?_, fun hkeeps row pool hpool ↦
    (everyRow_managerStep hall hkeeps row pool hpool).balanced⟩
  cases call with
  | release vmId type => exact (everyRow_release_iff hall vmId type).mp hafter
  | _ => trivial

/-- A call keeps the accounts exactly under the conditions. -/
theorem accounted_managerStep_iff (hholds : ManagerHolds manager reserved) (call : ManagerCall) :
    Accounted (managerStep manager call) (trackReserved manager call reserved) ↔
      call.KeepsAccounts manager := by
  have hmemory := memoryAccounted_managerStep_iff hholds call
  have hpools := balanced_managerStep_iff hholds.pools call
  constructor
  · rintro ⟨haccounted, hbalanced⟩
    exact ⟨hmemory.mp haccounted, hpools.mp hbalanced⟩
  · rintro ⟨htotal, hreserved⟩
    exact ⟨hmemory.mpr htotal, hpools.mpr hreserved⟩

/-- A call that keeps the accounts keeps the invariant. -/
theorem ManagerHolds.step (hholds : ManagerHolds manager reserved) {call : ManagerCall}
    (hafter : Accounted (managerStep manager call) (trackReserved manager call reserved)) :
    ManagerHolds (managerStep manager call) (trackReserved manager call reserved) where
  memory := hafter.memory
  capacity := (congrArg UInt64.toNat (capacity_managerStep manager call)).trans hholds.capacity
  pools := everyRow_managerStep hholds.pools
    ((accounted_managerStep_iff hholds call).mp hafter).reserved

theorem managerHolds_init (poolCount : UInt32) :
    ManagerHolds (vmResourceManagerInit poolCount) fun _ ↦ [] := by
  have hmax : maxVmMemoryMb < 2 ^ 64 := by decide
  have hzero : (0 : UInt64) ≤ UInt64.ofNat maxVmMemoryMb := by decide
  have hcapacity : (UInt64.ofNat maxVmMemoryMb).toNat = maxVmMemoryMb := by decide
  refine ⟨⟨?_, hzero⟩, hcapacity, ?_⟩
  · exact (Finset.sum_eq_zero fun _ _ ↦ rfl).symm
  · intro row pool hpool
    obtain ⟨i, -, rfl⟩ := List.mem_map.mp (List.mem_of_getElem? hpool)
    have hdiv := Nat.div_le_self maxVmMemoryMb (poolCountOf poolCount)
    refine ⟨rfl, ?_, rfl, List.forall_mem_nil _⟩
    dsimp only
    rwa [UInt64.toNat_ofNat', Nat.mod_eq_of_lt (Nat.lt_of_le_of_lt hdiv hmax)]

/-- Over every run, the total is what the machines have allocated and inside the capacity, and what
is available, allocated and reserved makes up the capacity of every pool, exactly when every request
that is served is for a machine without memory and does not wrap the total, every change of size
that passes the tests adds less than 2^31, and no release finds a reservation. -/
theorem accounted_iff (poolCount : UInt32) (calls : List ManagerCall) :
    AlongRun (withTrace managerStep trackReserved) (fun traced ↦ Accounted traced.1 traced.2)
        (vmResourceManagerInit poolCount, fun _ ↦ []) calls ↔
      EveryStep managerStep ManagerCall.KeepsAccounts (vmResourceManagerInit poolCount) calls := by
  have hsteps : EveryStep (withTrace managerStep trackReserved)
      (fun traced call ↦ ManagerCall.KeepsAccounts traced.1 call)
      (vmResourceManagerInit poolCount, fun _ ↦ []) calls ↔
        EveryStep managerStep ManagerCall.KeepsAccounts (vmResourceManagerInit poolCount) calls :=
    everyStep_withTrace
  -- the invariant is lost only together with the accounts
  have hinvariant : AlongRun (withTrace managerStep trackReserved)
      (fun traced ↦ Accounted traced.1 traced.2) (vmResourceManagerInit poolCount, fun _ ↦ [])
      calls ↔ AlongRun (withTrace managerStep trackReserved)
        (fun traced ↦ ManagerHolds traced.1 traced.2)
        (vmResourceManagerInit poolCount, fun _ ↦ []) calls :=
    alongRun_iff_of_stronger _ (fun _ hholds ↦ hholds.accounted)
      (fun _ _ hholds hafter ↦ hholds.step hafter) (managerHolds_init poolCount)
  rw [hinvariant, ← hsteps]
  refine alongRun_iff_everyStep (fun _ ↦ True) (fun _ _ ↦ True) (fun _ _ _ _ ↦ trivial)
    (fun traced call _ _ hholds ↦ ?_) trivial (managerHolds_init poolCount) fun _ _ _ ↦ trivial
  rw [← accounted_managerStep_iff hholds call]
  exact ⟨ManagerHolds.accounted, hholds.step⟩

/-- A machine that is allocated 100 twice has 100 of a total of 200. -/
theorem accounted_allocated_anew :
    ¬ AlongRun (withTrace managerStep trackReserved)
      (fun traced ↦ Accounted traced.1 traced.2) (vmResourceManagerInit 1, fun _ ↦ [])
      [.allocate 0 1 100, .allocate 0 1 100] := by
  intro halong
  simp only [alongRun_cons, alongRun_nil, withTrace] at halong
  obtain ⟨-, honce, htwice⟩ := halong
  have hfirst : 100 = allocatedMemory
      (Function.update (vmResourceManagerInit 1).vmMemory 0 (newMemory 0 100)) :=
    honce.memory.total
  have hsecond : 200 = allocatedMemory (Function.update
      (Function.update (vmResourceManagerInit 1).vmMemory 0 (newMemory 0 100)) 0
        (newMemory 0 100)) := htwice.memory.total
  have hupdate := allocatedMemory_update
    (Function.update (vmResourceManagerInit 1).vmMemory 0 (newMemory 0 100))
    (show 0 < maxVms by decide) (newMemory 0 100)
  rw [Function.update_self] at hupdate
  omega

end OneOS.Virtualization
