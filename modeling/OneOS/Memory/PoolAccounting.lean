import Mathlib.Algebra.Order.BigOperators.Group.List
import Mathlib.Algebra.Order.Ring.Nat
import OneOS.Memory.PoolAllocator

/-!
# The accounts of the pool allocator

What the byte counters of `memory-management/memory_pool_allocator.c` say over runs of the four
operations. Every pool keeps its own two counters right in every run (`AllocatorInvariant`). The
counters of the allocator are right exactly as long as no pool is created that is larger than what
is left, which makes `total_free` wrap, and no pool is destroyed while it has live blocks, whose
bytes `total_allocated` then keeps (`poolsAccounted_alongRun_iff`).
`not_accounted_destroyed_with_live_block` is the shortest run of the second kind.
-/

set_option autoImplicit false
set_option relaxedAutoImplicit false

namespace OneOS.Memory.PoolAllocator

open Foundation

/-! ### The accounts -/

/-- The bytes that the pools count as allocated. -/
def MemoryAllocator.allocatedInPools (allocator : MemoryAllocator) : ℕ :=
  (allocator.pools.map fun pool ↦ pool.totalAllocated.toNat).sum

/-- The sizes of the pools. -/
def MemoryAllocator.poolBytes (allocator : MemoryAllocator) : ℕ :=
  (allocator.pools.map fun pool ↦ pool.poolSize.toNat).sum

/-- Every pool and the allocator account for their bytes. A destroyed pool leaves a zeroed slot,
which counts nothing. -/
structure Accounted (allocator : MemoryAllocator) : Prop where
  live : ∀ pool ∈ allocator.pools, pool.totalAllocated.toNat = pool.liveBytes
  pools : ∀ pool ∈ allocator.pools,
    pool.totalAllocated.toNat + pool.totalFree.toNat = pool.poolSize.toNat
  allocated : allocator.totalAllocated.toNat = allocator.allocatedInPools
  free : allocator.totalFree.toNat + allocator.poolBytes = allocator.totalMemoryManaged.toNat

/-- `allocator_create_pool` gets as far as taking the bytes of the pool. -/
def CreatesPool (allocator : MemoryAllocator) (poolSize : UInt64) (allocated : ℕ) : Prop :=
  ¬ (maxMemoryPools ≤ allocator.pools.length ∨ maxPoolSize < poolSize) ∧ allocated ≠ 0

/-- No subtraction that the call makes takes more than what the counter holds. -/
def NoUnderflow (allocator : MemoryAllocator) : AllocatorCall → Prop
  | .createPool _ poolSize allocated =>
    CreatesPool allocator poolSize allocated → poolSize ≤ allocator.totalFree
  | .destroyPool _ => True
  | .allocate poolId size => ∀ pool, allocator.pools.find? (hasPoolId poolId) = some pool →
      size ≠ 0 → pool.hasRoom size = true → size ≤ pool.totalFree
  | .deallocate poolId ptr => ∀ pool block,
      allocator.pools.find? (holdsLiveAt poolId ptr) = some pool →
      pool.blocks.find? (MemoryBlock.isLiveAt ptr) = some block →
        block.blockSize ≤ pool.totalAllocated ∧ block.blockSize ≤ allocator.totalAllocated

/-- A pool that is created fits in what is left, and a pool that is destroyed has no live block. -/
def PoolsFitAndEmpty (allocator : MemoryAllocator) : AllocatorCall → Prop
  | .createPool _ poolSize allocated =>
    CreatesPool allocator poolSize allocated → poolSize ≤ allocator.totalFree
  | .destroyPool poolId => ∀ pool, allocator.pools.find? (hasPoolId poolId) = some pool →
      ∀ block ∈ pool.blocks, block.isAllocated = false
  | _ => True

/-! ### What one call does to the accounts -/

/-- Assumes: the pool keeps its invariant. It counts no bytes exactly when it has no live block. -/
theorem totalAllocated_eq_zero_iff {pool : MemoryPool} (hpool : PoolInvariant pool) :
    pool.totalAllocated.toNat = 0 ↔ ∀ block ∈ pool.blocks, block.isAllocated = false := by
  rw [hpool.live, MemoryPool.liveBytes, List.sum_eq_zero_iff_forall_eq_nat]
  constructor
  · intro hzero block hblock
    by_contra hlive
    rw [Bool.not_eq_false] at hlive
    have hsize := hzero _ (List.mem_map_of_mem (List.mem_filter.mpr ⟨hblock, hlive⟩))
    exact absurd hsize (hpool.nonempty block hblock hlive).ne'
  · intro hnone size hsize
    obtain ⟨block, hblock, -⟩ := List.mem_map.mp hsize
    obtain ⟨hmem, hlive⟩ := List.mem_filter.mp hblock
    rw [hnone block hmem] at hlive
    exact absurd hlive Bool.false_ne_true

/-- Assumes: an allocator with the invariant. The pools do not count more bytes than they have. -/
theorem allocatedInPools_le {allocator : MemoryAllocator} (hinv : AllocatorInvariant allocator) :
    allocator.allocatedInPools ≤ allocator.poolBytes := by
  refine List.sum_le_sum fun pool hpool ↦ ?_
  have haccounted := (hinv pool hpool).accounted
  omega

/-- A subtraction from a counter that gives back what was there in all is one that the counter
covers. -/
theorem toNat_sub_add_iff {counter amount : UInt64} :
    (counter - amount).toNat + amount.toNat = counter.toNat ↔ amount ≤ counter := by
  rw [UInt64.le_iff_toNat_le]
  constructor
  · intro hsum
    omega
  · intro hle
    rw [UInt64.toNat_sub_of_le _ _ (UInt64.le_iff_toNat_le.mpr hle)]
    omega

/-- Changing the first pool with a test changes what the pools count by the difference. -/
theorem allocatedInPools_updateFirst {pools : List MemoryPool} {test : MemoryPool → Bool}
    {pool : MemoryPool} (hfind : pools.find? test = some pool) (change : MemoryPool → MemoryPool) :
    ((updateFirst test change pools).map fun pool ↦ pool.totalAllocated.toNat).sum +
        pool.totalAllocated.toNat =
      (pools.map fun pool ↦ pool.totalAllocated.toNat).sum + (change pool).totalAllocated.toNat :=
  sum_map_updateFirst_add hfind change

/-- Changing the first pool with a test changes the size of the pools by the difference. -/
theorem poolBytes_updateFirst {pools : List MemoryPool} {test : MemoryPool → Bool}
    {pool : MemoryPool} (hfind : pools.find? test = some pool) (change : MemoryPool → MemoryPool) :
    ((updateFirst test change pools).map fun pool ↦ pool.poolSize.toNat).sum +
        pool.poolSize.toNat =
      (pools.map fun pool ↦ pool.poolSize.toNat).sum + (change pool).poolSize.toNat :=
  sum_map_updateFirst_add hfind change

/-- Assumes: every pool of the allocator keeps its invariant. Its accounts are right when its two
totals are. -/
theorem accounted_of_totals {allocator : MemoryAllocator} (hinv : AllocatorInvariant allocator)
    (hallocated : allocator.totalAllocated.toNat = allocator.allocatedInPools)
    (hfree : allocator.totalFree.toNat + allocator.poolBytes =
      allocator.totalMemoryManaged.toNat) : Accounted allocator where
  live pool hpool := (hinv pool hpool).live
  pools pool hpool := (hinv pool hpool).accounted
  allocated := hallocated
  free := hfree

/-- Assumes: the pool keeps its invariant and has room for the block. -/
theorem totalAllocated_place {pool : MemoryPool} {size : UInt64} (hpool : PoolInvariant pool)
    (hroom : pool.hasRoom size = true) (blockId : UInt32) :
    (pool.place blockId size).totalAllocated.toNat = pool.totalAllocated.toNat + size.toNat := by
  have hfits : size ≤ pool.totalFree := by
    simp only [MemoryPool.hasRoom, decide_eq_true_eq, UInt64.not_lt] at hroom
    exact hroom.1
  have haccounted := hpool.accounted
  have hbound := pool.poolSize.toNat_lt
  exact (toNat_moved hfits
    (show pool.totalFree.toNat + pool.totalAllocated.toNat < 2 ^ 64 by omega)).2

/-- Assumes: the pool keeps its invariant. A live block is among the bytes that it counts. -/
theorem blockSize_le_of_find? {pool : MemoryPool} {ptr : ℕ} {block : MemoryBlock}
    (hpool : PoolInvariant pool)
    (hfind : pool.blocks.find? (MemoryBlock.isLiveAt ptr) = some block) :
    block.blockSize ≤ pool.totalAllocated := by
  have hlive : block.isAllocated = true := by
    have hblock := List.find?_some hfind
    rw [MemoryBlock.isLiveAt, Bool.and_eq_true] at hblock
    exact hblock.2
  rw [UInt64.le_iff_toNat_le, hpool.live, MemoryPool.liveBytes]
  refine List.le_sum_of_mem (List.mem_map_of_mem (List.mem_filter.mpr ⟨?_, hlive⟩))
  exact List.mem_of_find?_eq_some hfind

/-- Assumes: an allocator whose accounts are right. It counts at least the bytes of every pool. -/
theorem totalAllocated_le_of_mem {allocator : MemoryAllocator}
    (haccounted : Accounted allocator) {pool : MemoryPool} (hpool : pool ∈ allocator.pools) :
    pool.totalAllocated ≤ allocator.totalAllocated := by
  rw [UInt64.le_iff_toNat_le, haccounted.allocated]
  exact List.le_sum_of_mem
    (List.mem_map_of_mem (f := fun pool : MemoryPool ↦ pool.totalAllocated.toNat) hpool)

theorem accounted_createPool_iff {allocator : MemoryAllocator}
    (hinv : AllocatorInvariant allocator) (haccounted : Accounted allocator) (poolType : PoolType)
    (poolSize : UInt64) (allocated : ℕ) :
    Accounted (allocatorCreatePool allocator poolType poolSize allocated).1 ↔
      (CreatesPool allocator poolSize allocated → poolSize ≤ allocator.totalFree) := by
  have hnext := allocatorInvariant_step hinv (.createPool poolType poolSize allocated)
  simp only [allocatorStep, allocatorCreatePool, CreatesPool] at hnext ⊢
  split_ifs at hnext ⊢ with hfull hnull
  · exact iff_of_true haccounted fun hcreates ↦ absurd hfull hcreates.1
  · exact iff_of_true ⟨haccounted.live, haccounted.pools, haccounted.allocated, haccounted.free⟩
      fun hcreates ↦ absurd hnull hcreates.2
  · rw [imp_iff_right ⟨hfull, hnull⟩, ← toNat_sub_add_iff]
    have hallocated := haccounted.allocated
    have hfree := haccounted.free
    simp only [MemoryAllocator.allocatedInPools, MemoryAllocator.poolBytes] at hallocated hfree
    constructor
    · intro hafter
      have hbytes := hafter.free
      simp only [MemoryAllocator.poolBytes, List.map_append, List.sum_append, List.map_singleton,
        List.sum_singleton] at hbytes
      omega
    · intro hcovered
      apply accounted_of_totals hnext
      · simp only [MemoryAllocator.allocatedInPools, List.map_append, List.sum_append,
          List.map_singleton, List.sum_singleton, MemoryPool.zeroed, UInt64.toNat_zero]
        exact hallocated
      · simp only [MemoryAllocator.poolBytes, List.map_append, List.sum_append,
          List.map_singleton, List.sum_singleton]
        omega

theorem accounted_destroyPool_iff {allocator : MemoryAllocator}
    (hinv : AllocatorInvariant allocator) (haccounted : Accounted allocator) (poolId : UInt32) :
    Accounted (allocatorDestroyPool allocator poolId).1 ↔
      ∀ pool, allocator.pools.find? (hasPoolId poolId) = some pool →
        ∀ block ∈ pool.blocks, block.isAllocated = false := by
  have hnext := allocatorInvariant_step hinv (.destroyPool poolId)
  simp only [allocatorStep, allocatorDestroyPool] at hnext ⊢
  cases hfind : allocator.pools.find? (hasPoolId poolId) with
  | none =>
    exact iff_of_true haccounted fun pool hsome ↦ absurd hsome.symm (Option.some_ne_none pool)
  | some pool =>
    rw [hfind] at hnext
    simp only [Option.some.injEq, forall_eq']
    rw [← totalAllocated_eq_zero_iff (hinv pool (List.mem_of_find?_eq_some hfind))]
    have hallocated := haccounted.allocated
    have hfree := haccounted.free
    simp only [MemoryAllocator.allocatedInPools, MemoryAllocator.poolBytes] at hallocated hfree
    have hcounts := allocatedInPools_updateFirst hfind fun _ ↦ .zeroed
    have hbytes := poolBytes_updateFirst hfind fun _ ↦ .zeroed
    simp only [MemoryPool.zeroed, UInt64.toNat_zero, Nat.add_zero] at hcounts hbytes
    constructor
    · intro hafter
      have hkept := hafter.allocated
      simp only [MemoryAllocator.allocatedInPools, MemoryPool.zeroed] at hkept
      omega
    · intro hnone
      have hmanaged := allocator.totalMemoryManaged.toNat_lt
      apply accounted_of_totals hnext
      · simp only [MemoryAllocator.allocatedInPools, MemoryPool.zeroed]
        omega
      · simp only [MemoryAllocator.poolBytes, MemoryPool.zeroed]
        rw [UInt64.toNat_add, Nat.mod_eq_of_lt (by omega)]
        omega

theorem accounted_allocate {allocator : MemoryAllocator} (hinv : AllocatorInvariant allocator)
    (haccounted : Accounted allocator) (poolId : UInt32) (size : UInt64) :
    Accounted (allocatorAllocate allocator poolId size).1 := by
  have hnext := allocatorInvariant_step hinv (.allocate poolId size)
  simp only [allocatorStep, allocatorAllocate] at hnext ⊢
  split_ifs at hnext ⊢ with hsize
  · exact haccounted
  · cases hfind : allocator.pools.find? (hasPoolId poolId) with
    | none => exact haccounted
    | some pool =>
      rw [hfind] at hnext
      dsimp only at hnext ⊢
      split_ifs at hnext ⊢ with hroom
      · have hallocated := haccounted.allocated
        have hfree := haccounted.free
        have hcovered := allocatedInPools_le hnext
        have hmanaged := allocator.totalMemoryManaged.toNat_lt
        simp only [MemoryAllocator.allocatedInPools, MemoryAllocator.poolBytes]
          at hallocated hfree hcovered
        have hcounts := allocatedInPools_updateFirst hfind
          (MemoryPool.place allocator.nextBlockId size)
        have hbytes := poolBytes_updateFirst hfind (MemoryPool.place allocator.nextBlockId size)
        rw [totalAllocated_place (hinv pool (List.mem_of_find?_eq_some hfind)) hroom] at hcounts
        simp only [MemoryPool.place] at hbytes hcovered
        apply accounted_of_totals hnext
        · simp only [MemoryAllocator.allocatedInPools]
          rw [UInt64.toNat_add, Nat.mod_eq_of_lt (by omega)]
          omega
        · simp only [MemoryAllocator.poolBytes]
          omega
      · exact haccounted

theorem accounted_deallocate {allocator : MemoryAllocator} (hinv : AllocatorInvariant allocator)
    (haccounted : Accounted allocator) (poolId : UInt32) (ptr : ℕ) :
    Accounted (allocatorDeallocate allocator poolId ptr).1 := by
  have hnext := allocatorInvariant_step hinv (.deallocate poolId ptr)
  simp only [allocatorStep, allocatorDeallocate] at hnext ⊢
  split_ifs at hnext ⊢ with hptr
  · exact haccounted
  · cases hfind : allocator.pools.find? (holdsLiveAt poolId ptr) with
    | none => exact haccounted
    | some pool =>
      cases hblock : pool.blocks.find? (MemoryBlock.isLiveAt ptr) with
      | none =>
        rw [Option.bind_some, hblock]
        exact haccounted
      | some block =>
        rw [hfind, Option.bind_some, hblock] at hnext
        rw [Option.bind_some, hblock]
        dsimp only at hnext ⊢
        have hmem := List.mem_of_find?_eq_some hfind
        have hgiven := blockSize_le_of_find? (hinv pool hmem) hblock
        have htotal := UInt64.le_trans hgiven (totalAllocated_le_of_mem haccounted hmem)
        have hallocated := haccounted.allocated
        have hfree := haccounted.free
        have hcounts := allocatedInPools_updateFirst hfind (MemoryPool.release ptr block)
        have hbytes := poolBytes_updateFirst hfind (MemoryPool.release ptr block)
        simp only [MemoryAllocator.allocatedInPools, MemoryAllocator.poolBytes]
          at hallocated hfree
        simp only [MemoryPool.release] at hcounts hbytes
        rw [← toNat_sub_add_iff] at hgiven htotal
        apply accounted_of_totals hnext
        · simp only [MemoryAllocator.allocatedInPools]
          omega
        · simp only [MemoryAllocator.poolBytes]
          omega

/-- Assumes: an allocator with the invariant whose accounts are right. They are right after a call,
and the call takes no counter below zero, exactly when a pool that it creates fits in what is left
and a pool that it destroys has no live block. -/
theorem accounted_step_iff {allocator : MemoryAllocator} (hinv : AllocatorInvariant allocator)
    (haccounted : Accounted allocator) (call : AllocatorCall) :
    Accounted (allocatorStep allocator call) ∧ NoUnderflow allocator call ↔
      PoolsFitAndEmpty allocator call := by
  cases call with
  | createPool poolType poolSize allocated =>
    have hiff := accounted_createPool_iff hinv haccounted poolType poolSize allocated
    exact ⟨fun hafter ↦ hafter.2, fun hfits ↦ ⟨hiff.mpr hfits, hfits⟩⟩
  | destroyPool poolId =>
    exact (and_iff_left trivial).trans (accounted_destroyPool_iff hinv haccounted poolId)
  | allocate poolId size =>
    refine iff_of_true ⟨accounted_allocate hinv haccounted poolId size, ?_⟩ trivial
    intro pool hfind hsize hroom
    simp only [MemoryPool.hasRoom, decide_eq_true_eq, UInt64.not_lt] at hroom
    exact hroom.1
  | deallocate poolId ptr =>
    refine iff_of_true ⟨accounted_deallocate hinv haccounted poolId ptr, ?_⟩ trivial
    intro pool block hfind hblock
    have hmem := List.mem_of_find?_eq_some hfind
    have hgiven := blockSize_le_of_find? (hinv pool hmem) hblock
    exact ⟨hgiven, UInt64.le_trans hgiven (totalAllocated_le_of_mem haccounted hmem)⟩

/-- The accounts over every run. In every state that the calls on a new allocator pass through,
every pool counts the sizes of its live blocks and the rest of its bytes, and the allocator counts
what its pools count and what is left beside them, and no counter is taken below zero, exactly when
every pool that is created fits in what is left and every pool that is destroyed has no live
block. -/
theorem poolsAccounted_alongRun_iff (totalMemory : UInt64) (nextPoolId nextBlockId : UInt32)
    (calls : List AllocatorCall) :
    AlongRun allocatorStep Accounted (allocatorInit totalMemory nextPoolId nextBlockId) calls ∧
        EveryStep allocatorStep NoUnderflow (allocatorInit totalMemory nextPoolId nextBlockId)
          calls ↔
      EveryStep allocatorStep PoolsFitAndEmpty (allocatorInit totalMemory nextPoolId nextBlockId)
        calls := by
  have hinit : AllocatorInvariant (allocatorInit totalMemory nextPoolId nextBlockId) :=
    fun _ hpool ↦ nomatch hpool
  exact alongRun_and_everyStep_iff AllocatorInvariant (fun _ _ ↦ True)
    (fun _ call hinv _ ↦ allocatorInvariant_step hinv call)
    (fun _ call hinv _ haccounted ↦ accounted_step_iff hinv haccounted call) hinit
    (accounted_of_totals hinit rfl rfl) (fun _ _ _ ↦ trivial)

/-- A pool is destroyed while a block of ten bytes is live in it: the allocator still counts the
ten bytes. -/
theorem not_accounted_destroyed_with_live_block :
    ¬ (AlongRun allocatorStep Accounted (allocatorInit 4096 1 1)
          [.createPool .variableSize 64 1000, .allocate 1 10, .destroyPool 1] ∧
        EveryStep allocatorStep NoUnderflow (allocatorInit 4096 1 1)
          [.createPool .variableSize 64 1000, .allocate 1 10, .destroyPool 1]) := by
  rintro ⟨halong, -⟩
  have hallocated := (halong _ (List.prefix_refl _)).allocated
  exact absurd hallocated (by decide)

end OneOS.Memory.PoolAllocator
