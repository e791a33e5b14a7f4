import Mathlib.Order.CompletePartialOrder
import Mathlib.Order.Interval.Set.Disjoint
import OneOS.Foundation.Counters
import OneOS.Foundation.Runs
import OneOS.Foundation.Table

/-!
# The memory pool allocator

`memory-management/memory_pool_allocator.c`. An allocator holds up to 64 pools; a pool is a region
of `pool_size` bytes obtained from `malloc` and a table of blocks, each an address inside the region
and a size. Addresses are natural numbers with `0` for `NULL`, the result of `malloc` is an input of
the call that creates a pool, and the two file-static counters are fields of the allocator. The
fragmentation ratios, which are floating point numbers that no operation modelled here reads, are
left out, and so are the checks of the allocator pointer against `NULL`.

A new block starts `total_allocated` bytes into the region, and `total_allocated` is the sum of the
sizes of the live blocks (`PoolInvariant`), which goes down when a block is returned. The blocks of
every pool always lie inside the region of the pool. They are disjoint along a run exactly when at
every allocation the bytes from `total_allocated` on that the new block takes belong to no live
block (`blocksSeparate_alongRun_iff`). `block_placed_on_live_block` is a run in which a block is
returned below a live one and the next allocation is placed on the live one.
-/

set_option autoImplicit false
set_option relaxedAutoImplicit false

namespace OneOS.Memory.PoolAllocator

open Foundation

/-! ### The allocator -/

/-- `MAX_MEMORY_POOLS`. -/
def maxMemoryPools : ℕ := 64

/-- `MAX_POOL_SIZE`. -/
def maxPoolSize : UInt64 := 1024 * 1024 * 1024

/-- The number of blocks in the block table of a pool. -/
def maxBlocks : ℕ := 4096

/-- `PoolType`, in the order of the source. -/
inductive PoolType
  | fixedSize
  | variableSize
  | slab
  deriving DecidableEq, Repr

/-- `MemoryBlock`. -/
structure MemoryBlock where
  blockId : UInt32
  blockPtr : ℕ
  blockSize : UInt64
  isAllocated : Bool
  allocations : UInt32
  allocationTime : UInt64
  deriving DecidableEq, Repr

/-- A block after `memset` to zero. -/
def MemoryBlock.zeroed : MemoryBlock := ⟨0, 0, 0, false, 0, 0⟩

/-- `MemoryPool`, with the used rows `blocks[0 .. block_count)` as a list. -/
structure MemoryPool where
  poolId : UInt32
  poolType : PoolType
  poolSize : UInt64
  poolBase : ℕ
  blocks : List MemoryBlock
  totalAllocated : UInt64
  totalFree : UInt64
  peakUsage : UInt64
  allocationCount : UInt32
  deallocationCount : UInt32
  deriving DecidableEq, Repr

/-- A pool after `memset` to zero. -/
def MemoryPool.zeroed : MemoryPool := ⟨0, .fixedSize, 0, 0, [], 0, 0, 0, 0, 0⟩

/-- `MemoryAllocator`, with the used rows `pools[0 .. pool_count)` as a list and the file-static
`next_pool_id` and `next_block_id` as fields. -/
structure MemoryAllocator where
  allocatorId : UInt32
  pools : List MemoryPool
  totalMemoryManaged : UInt64
  totalAllocated : UInt64
  totalFree : UInt64
  totalAllocations : UInt32
  totalDeallocations : UInt32
  nextPoolId : UInt32
  nextBlockId : UInt32
  deriving DecidableEq, Repr

/-- `allocator_init`. The static counters keep the values they have. -/
def allocatorInit (totalMemory : UInt64) (nextPoolId nextBlockId : UInt32) : MemoryAllocator where
  allocatorId := 1
  pools := []
  totalMemoryManaged := totalMemory
  totalAllocated := 0
  totalFree := totalMemory
  totalAllocations := 0
  totalDeallocations := 0
  nextPoolId := nextPoolId
  nextBlockId := nextBlockId

/-- The test of the loops that look a pool up by its identifier. -/
def hasPoolId (poolId : UInt32) (pool : MemoryPool) : Bool :=
  pool.poolId == poolId

/-- `allocator_create_pool`, with the result of `malloc`; the returned pointer is the index of the
pool. An identifier is used up also when `malloc` fails. -/
def allocatorCreatePool (allocator : MemoryAllocator) (poolType : PoolType) (poolSize : UInt64)
    (allocated : ℕ) : MemoryAllocator × Option ℕ :=
  if maxMemoryPools ≤ allocator.pools.length ∨ maxPoolSize < poolSize then (allocator, none)
  else if allocated = 0 then ({ allocator with nextPoolId := allocator.nextPoolId + 1 }, none)
  else
    let pool := { MemoryPool.zeroed with
      poolId := allocator.nextPoolId
      poolType := poolType
      poolSize := poolSize
      poolBase := allocated
      totalFree := poolSize }
    ({ allocator with
      pools := allocator.pools ++ [pool]
      totalFree := allocator.totalFree - poolSize
      nextPoolId := allocator.nextPoolId + 1 }, some allocator.pools.length)

/-- `allocator_destroy_pool`. -/
def allocatorDestroyPool (allocator : MemoryAllocator) (poolId : UInt32) : MemoryAllocator × Int :=
  match allocator.pools.find? (hasPoolId poolId) with
  | none => (allocator, -1)
  | some pool =>
    ({ allocator with
      totalFree := allocator.totalFree + pool.poolSize
      pools := updateFirst (hasPoolId poolId) (fun _ ↦ .zeroed) allocator.pools }, 0)

/-- The two checks of `allocator_allocate` on the pool found: enough free bytes, and a free row in
the block table. -/
def MemoryPool.hasRoom (pool : MemoryPool) (size : UInt64) : Bool :=
  ¬ pool.totalFree < size ∧ ¬ maxBlocks ≤ pool.blocks.length

/-- The block that `allocator_allocate` writes: it starts `total_allocated` bytes into the pool. -/
def MemoryPool.nextBlock (pool : MemoryPool) (blockId : UInt32) (size : UInt64) : MemoryBlock where
  blockId := blockId
  blockPtr := pool.poolBase + pool.totalAllocated.toNat
  blockSize := size
  isAllocated := true
  allocations := 1
  allocationTime := 0

/-- The effect of `allocator_allocate` on the pool found, when it has room. -/
def MemoryPool.place (blockId : UInt32) (size : UInt64) (pool : MemoryPool) : MemoryPool :=
  { pool with
    blocks := pool.blocks ++ [pool.nextBlock blockId size]
    totalAllocated := pool.totalAllocated + size
    totalFree := pool.totalFree - size
    allocationCount := pool.allocationCount + 1
    peakUsage := if pool.peakUsage < pool.totalAllocated + size then pool.totalAllocated + size
      else pool.peakUsage }

/-- `allocator_allocate`, returning the address of the block. -/
def allocatorAllocate (allocator : MemoryAllocator) (poolId : UInt32) (size : UInt64) :
    MemoryAllocator × ℕ :=
  if size = 0 then (allocator, 0)
  else
    match allocator.pools.find? (hasPoolId poolId) with
    | none => (allocator, 0)
    | some pool =>
      if pool.hasRoom size then
        ({ allocator with
          pools := updateFirst (hasPoolId poolId) (MemoryPool.place allocator.nextBlockId size)
            allocator.pools
          totalAllocated := allocator.totalAllocated + size
          totalAllocations := allocator.totalAllocations + 1
          nextBlockId := allocator.nextBlockId + 1 },
          (pool.nextBlock allocator.nextBlockId size).blockPtr)
      else (allocator, 0)

/-- The test of the inner loop of `allocator_deallocate`: a live block at the address. -/
def MemoryBlock.isLiveAt (ptr : ℕ) (block : MemoryBlock) : Bool :=
  block.blockPtr == ptr && block.isAllocated

/-- The effect of `allocator_deallocate` on the pool, for the block found in it. -/
def MemoryPool.release (ptr : ℕ) (block : MemoryBlock) (pool : MemoryPool) : MemoryPool :=
  { pool with
    totalAllocated := pool.totalAllocated - block.blockSize
    totalFree := pool.totalFree + block.blockSize
    deallocationCount := pool.deallocationCount + 1
    blocks := updateFirst (MemoryBlock.isLiveAt ptr) (fun _ ↦ .zeroed) pool.blocks }

/-- The pool that `allocator_deallocate` acts on: the scan goes past a pool with the identifier
that has no live block at the address. -/
def holdsLiveAt (poolId : UInt32) (ptr : ℕ) (pool : MemoryPool) : Bool :=
  hasPoolId poolId pool && pool.blocks.any (MemoryBlock.isLiveAt ptr)

/-- `allocator_deallocate`. -/
def allocatorDeallocate (allocator : MemoryAllocator) (poolId : UInt32) (ptr : ℕ) :
    MemoryAllocator × Int :=
  if ptr = 0 then (allocator, -1)
  else
    match (allocator.pools.find? (holdsLiveAt poolId ptr)).bind fun pool ↦
        pool.blocks.find? (MemoryBlock.isLiveAt ptr) with
    | none => (allocator, -1)
    | some block =>
      ({ allocator with
        pools := updateFirst (holdsLiveAt poolId ptr) (MemoryPool.release ptr block)
          allocator.pools
        totalAllocated := allocator.totalAllocated - block.blockSize
        totalDeallocations := allocator.totalDeallocations + 1 }, 0)

/-! ### Runs -/

/-- A call on the allocator, with the result of `malloc` where the call allocates a region. -/
inductive AllocatorCall
  | createPool (poolType : PoolType) (poolSize : UInt64) (allocated : ℕ)
  | destroyPool (poolId : UInt32)
  | allocate (poolId : UInt32) (size : UInt64)
  | deallocate (poolId : UInt32) (ptr : ℕ)

/-- The allocator after a call. -/
def allocatorStep (allocator : MemoryAllocator) : AllocatorCall → MemoryAllocator
  | .createPool poolType poolSize allocated =>
    (allocatorCreatePool allocator poolType poolSize allocated).1
  | .destroyPool poolId => (allocatorDestroyPool allocator poolId).1
  | .allocate poolId size => (allocatorAllocate allocator poolId size).1
  | .deallocate poolId ptr => (allocatorDeallocate allocator poolId ptr).1

/-! ### What every run keeps -/

/-- The total size of the live blocks of a pool. -/
def MemoryPool.liveBytes (pool : MemoryPool) : ℕ :=
  ((pool.blocks.filter MemoryBlock.isAllocated).map fun block ↦ block.blockSize.toNat).sum

/-- What every run keeps of a pool: `total_allocated` is the total size of the live blocks,
`total_allocated` and `total_free` make up the pool, and every live block is a nonempty range
inside the region of the pool. -/
structure PoolInvariant (pool : MemoryPool) : Prop where
  live : pool.totalAllocated.toNat = pool.liveBytes
  accounted : pool.totalAllocated.toNat + pool.totalFree.toNat = pool.poolSize.toNat
  nonempty : ∀ block ∈ pool.blocks, block.isAllocated → 0 < block.blockSize.toNat
  inside : ∀ block ∈ pool.blocks, block.isAllocated → pool.poolBase ≤ block.blockPtr ∧
    block.blockPtr + block.blockSize.toNat ≤ pool.poolBase + pool.poolSize.toNat

theorem poolInvariant_zeroed : PoolInvariant .zeroed where
  live := rfl
  accounted := rfl
  nonempty := by simp [MemoryPool.zeroed]
  inside := by simp [MemoryPool.zeroed]

/-- Assumes: the pool keeps the invariant and has room for a nonempty block. Placing the block
keeps the invariant. -/
theorem poolInvariant_place {pool : MemoryPool} {size : UInt64} (hpool : PoolInvariant pool)
    (hsize : size ≠ 0) (hroom : pool.hasRoom size = true) (blockId : UInt32) :
    PoolInvariant (pool.place blockId size) := by
  have hfits : size ≤ pool.totalFree := by
    simp only [MemoryPool.hasRoom, decide_eq_true_eq, UInt64.not_lt] at hroom
    exact hroom.1
  have hpositive := toNat_amount_pos hsize
  have haccounted := hpool.accounted
  have hbound := pool.poolSize.toNat_lt
  obtain ⟨hfree, hallocated⟩ := toNat_moved hfits
    (show pool.totalFree.toNat + pool.totalAllocated.toNat < 2 ^ 64 by omega)
  constructor
  · have hlive := hpool.live
    simp only [MemoryPool.liveBytes] at hlive
    simp only [MemoryPool.place, MemoryPool.liveBytes, MemoryPool.nextBlock, List.filter_append,
      List.map_append, List.sum_append, hallocated, hlive]
    simp
  · simp only [MemoryPool.place, hallocated]
    omega
  · intro block hblock hlive
    rcases List.mem_append.mp hblock with hold | hnew
    · exact hpool.nonempty block hold hlive
    · rw [List.mem_singleton.mp hnew]
      exact hpositive
  · intro block hblock hlive
    rcases List.mem_append.mp hblock with hold | hnew
    · exact hpool.inside block hold hlive
    · rw [List.mem_singleton.mp hnew]
      simp only [MemoryPool.nextBlock, MemoryPool.place]
      omega

/-- Assumes: the pool keeps the invariant and `block` is its first live block at the address.
Releasing the block keeps the invariant. -/
theorem poolInvariant_release {pool : MemoryPool} {ptr : ℕ} {block : MemoryBlock}
    (hpool : PoolInvariant pool)
    (hfind : pool.blocks.find? (MemoryBlock.isLiveAt ptr) = some block) :
    PoolInvariant (pool.release ptr block) := by
  obtain ⟨before, after, hblocks, hblock, -, hupdate⟩ := updateFirst_split hfind
  have halloc : block.isAllocated = true := by
    simp only [MemoryBlock.isLiveAt, Bool.and_eq_true] at hblock
    exact hblock.2
  have hlive := hpool.live
  have haccounted := hpool.accounted
  have hbound := pool.poolSize.toNat_lt
  simp only [MemoryPool.liveBytes, hblocks, List.filter_append, List.filter_cons, halloc, if_true,
    List.map_append, List.map_cons, List.sum_append, List.sum_cons] at hlive
  have hgiven : block.blockSize ≤ pool.totalAllocated := UInt64.le_iff_toNat_le.mpr (by omega)
  obtain ⟨hallocated, hfree⟩ := toNat_moved hgiven
    (show pool.totalAllocated.toNat + pool.totalFree.toNat < 2 ^ 64 by omega)
  have hmem : ∀ other ∈ (pool.release ptr block).blocks, other.isAllocated = true →
      other ∈ pool.blocks := by
    intro other hother hotherLive
    rcases mem_updateFirst hother with hold | ⟨old, -, rfl⟩
    · exact hold
    · simp [MemoryBlock.zeroed] at hotherLive
  constructor
  · simp only [MemoryPool.release, MemoryPool.liveBytes, hupdate, List.filter_append,
      List.filter_cons, MemoryBlock.zeroed, List.map_append, List.sum_append,
      Bool.false_eq_true, if_false]
    omega
  · simp only [MemoryPool.release, hfree]
    omega
  · exact fun other hother hlive ↦ hpool.nonempty other (hmem other hother hlive) hlive
  · exact fun other hother hlive ↦ hpool.inside other (hmem other hother hlive) hlive

/-- What every run keeps of an allocator. -/
def AllocatorInvariant (allocator : MemoryAllocator) : Prop :=
  ∀ pool ∈ allocator.pools, PoolInvariant pool

/-- The pool and the block that a deallocation acts on. -/
theorem find?_bind_eq_some {allocator : MemoryAllocator} {poolId : UInt32} {ptr : ℕ}
    {block : MemoryBlock}
    (hblock : ((allocator.pools.find? (holdsLiveAt poolId ptr)).bind fun pool ↦
      pool.blocks.find? (MemoryBlock.isLiveAt ptr)) = some block) :
    ∀ pool, allocator.pools.find? (holdsLiveAt poolId ptr) = some pool →
      pool ∈ allocator.pools ∧ pool.blocks.find? (MemoryBlock.isLiveAt ptr) = some block := by
  intro pool hpool
  rw [hpool, Option.bind_some] at hblock
  exact ⟨List.mem_of_find?_eq_some hpool, hblock⟩

/-- Every call keeps the invariant of every pool. -/
theorem allocatorInvariant_step {allocator : MemoryAllocator} (hinv : AllocatorInvariant allocator)
    (call : AllocatorCall) : AllocatorInvariant (allocatorStep allocator call) := by
  cases call with
  | createPool poolType poolSize allocated =>
    simp only [allocatorStep, allocatorCreatePool]
    split_ifs
    · exact hinv
    · exact hinv
    · intro pool hpool
      rcases List.mem_append.mp hpool with hold | hnew
      · exact hinv pool hold
      · rw [List.mem_singleton.mp hnew]
        exact ⟨rfl, by simp [MemoryPool.zeroed], by simp [MemoryPool.zeroed],
          by simp [MemoryPool.zeroed]⟩
  | destroyPool poolId =>
    simp only [allocatorStep, allocatorDestroyPool]
    cases hfind : allocator.pools.find? (hasPoolId poolId) with
    | none => exact hinv
    | some found => exact (forall_mem_updateFirst_iff hinv).mpr fun _ _ ↦ poolInvariant_zeroed
  | allocate poolId size =>
    simp only [allocatorStep, allocatorAllocate]
    split_ifs with hsize
    · exact hinv
    · cases hfind : allocator.pools.find? (hasPoolId poolId) with
      | none => exact hinv
      | some found =>
        dsimp only
        split_ifs with hroom
        · apply (forall_mem_updateFirst_iff hinv).mpr
          intro pool hpool
          obtain rfl : found = pool := Option.some.inj (hfind.symm.trans hpool)
          exact poolInvariant_place (hinv found (List.mem_of_find?_eq_some hfind)) hsize hroom _
        · exact hinv
  | deallocate poolId ptr =>
    simp only [allocatorStep, allocatorDeallocate]
    split_ifs
    · exact hinv
    · split
      · exact hinv
      · next block hblock =>
        apply (forall_mem_updateFirst_iff hinv).mpr
        intro pool hpool
        obtain ⟨hmem, hfind⟩ := find?_bind_eq_some hblock pool hpool
        exact poolInvariant_release (hinv pool hmem) hfind

/-! ### Separation of the live blocks -/

/-- The bytes that a block occupies. -/
def MemoryBlock.range (block : MemoryBlock) : Set ℕ :=
  Set.Ico block.blockPtr (block.blockPtr + block.blockSize.toNat)

/-- The live blocks of a pool occupy disjoint bytes inside the region of the pool. -/
def PoolSeparate (pool : MemoryPool) : Prop :=
  (pool.blocks.Pairwise fun first second ↦
    first.isAllocated = true → second.isAllocated = true → Disjoint first.range second.range) ∧
  ∀ block ∈ pool.blocks, block.isAllocated = true →
    block.range ⊆ Set.Ico pool.poolBase (pool.poolBase + pool.poolSize.toNat)

/-- In every pool, the live blocks occupy disjoint bytes inside the region of the pool. -/
def BlocksSeparate (allocator : MemoryAllocator) : Prop :=
  ∀ pool ∈ allocator.pools, PoolSeparate pool

/-- The `size` bytes from `total_allocated` on are clear: every live block of the pool ends at or
before them or starts at or after their end. -/
def MemoryPool.ClearFor (pool : MemoryPool) (size : UInt64) : Prop :=
  ∀ block ∈ pool.blocks, block.isAllocated = true →
    block.blockPtr + block.blockSize.toNat ≤ pool.poolBase + pool.totalAllocated.toNat ∨
      pool.poolBase + pool.totalAllocated.toNat + size.toNat ≤ block.blockPtr

/-- The condition on a call: an allocation that will be served finds its bytes clear. -/
def AllocationClear (allocator : MemoryAllocator) : AllocatorCall → Prop
  | .allocate poolId size => ∀ pool, allocator.pools.find? (hasPoolId poolId) = some pool →
      size ≠ 0 → pool.hasRoom size = true → pool.ClearFor size
  | _ => True

/-- Two nonempty blocks are disjoint exactly when one ends before the other starts. -/
theorem disjoint_range_iff {first second : MemoryBlock} (hfirst : 0 < first.blockSize.toNat)
    (hsecond : 0 < second.blockSize.toNat) :
    Disjoint first.range second.range ↔
      first.blockPtr + first.blockSize.toNat ≤ second.blockPtr ∨
        second.blockPtr + second.blockSize.toNat ≤ first.blockPtr := by
  rw [MemoryBlock.range, MemoryBlock.range, Set.Ico_disjoint_Ico]
  omega

/-- Assumes: the pool keeps the invariant, its live blocks are separate, and it has room for a
nonempty block. The live blocks are separate after the block is placed exactly when its bytes were
clear. -/
theorem poolSeparate_place_iff {pool : MemoryPool} {size : UInt64} (hpool : PoolInvariant pool)
    (hseparate : PoolSeparate pool) (hsize : size ≠ 0) (hroom : pool.hasRoom size = true)
    (blockId : UInt32) : PoolSeparate (pool.place blockId size) ↔ pool.ClearFor size := by
  have hplaced := poolInvariant_place hpool hsize hroom blockId
  have hpositive := toNat_amount_pos hsize
  have hinside : ∀ block ∈ (pool.place blockId size).blocks, block.isAllocated = true →
      block.range ⊆ Set.Ico pool.poolBase (pool.poolBase + pool.poolSize.toNat) := by
    intro block hblock hlive
    obtain ⟨hlow, hhigh⟩ := hplaced.inside block hblock hlive
    exact Set.Ico_subset_Ico hlow hhigh
  have hnew : ∀ block ∈ pool.blocks, block.isAllocated = true →
      (Disjoint block.range (pool.nextBlock blockId size).range ↔
        block.blockPtr + block.blockSize.toNat ≤ pool.poolBase + pool.totalAllocated.toNat ∨
          pool.poolBase + pool.totalAllocated.toNat + size.toNat ≤ block.blockPtr) :=
    fun block hblock hlive ↦ disjoint_range_iff (hpool.nonempty block hblock hlive) hpositive
  constructor
  · rintro ⟨hpairwise, -⟩ block hblock hlive
    have hdisjoint := (List.pairwise_append.mp hpairwise).2.2 block hblock
      (pool.nextBlock blockId size) List.mem_cons_self hlive rfl
    exact (hnew block hblock hlive).mp hdisjoint
  · intro hclear
    refine ⟨List.pairwise_append.mpr ⟨hseparate.1, List.pairwise_singleton _ _, ?_⟩, hinside⟩
    intro block hblock placed hplacedMem hlive _
    rw [List.mem_singleton.mp hplacedMem]
    exact (hnew block hblock hlive).mpr (hclear block hblock hlive)

/-- Returning a block keeps the live blocks separate. -/
theorem poolSeparate_release {pool : MemoryPool} (hseparate : PoolSeparate pool) (ptr : ℕ)
    (block : MemoryBlock) : PoolSeparate (pool.release ptr block) := by
  cases hfind : pool.blocks.find? (MemoryBlock.isLiveAt ptr) with
  | none =>
    rw [PoolSeparate, MemoryPool.release, updateFirst_of_find?_eq_none hfind]
    exact hseparate
  | some found =>
    obtain ⟨before, after, hblocks, -, -, hupdate⟩ := updateFirst_split hfind
    obtain ⟨hpairwise, hinside⟩ := hseparate
    rw [PoolSeparate, MemoryPool.release, hupdate]
    rw [hblocks] at hpairwise hinside
    rw [List.pairwise_append, List.pairwise_cons] at hpairwise ⊢
    obtain ⟨hbefore, ⟨hfound, hafter⟩, hacross⟩ := hpairwise
    refine ⟨⟨hbefore, ⟨?_, hafter⟩, ?_⟩, ?_⟩
    · simp [MemoryBlock.zeroed]
    · intro first hfirst second hsecond hfirstLive hsecondLive
      rcases List.mem_cons.mp hsecond with rfl | hlater
      · simp [MemoryBlock.zeroed] at hsecondLive
      · exact hacross first hfirst second (List.mem_cons_of_mem _ hlater) hfirstLive hsecondLive
    · intro other hother hlive
      rcases List.mem_append.mp hother with hearlier | hlater
      · exact hinside other (List.mem_append_left _ hearlier) hlive
      · rcases List.mem_cons.mp hlater with rfl | hlater
        · simp [MemoryBlock.zeroed] at hlive
        · exact hinside other (List.mem_append_right _ (List.mem_cons_of_mem _ hlater)) hlive

/-- Assumes: an allocator with the invariant whose live blocks are separate. They are separate
after a call exactly when the call meets `AllocationClear`. -/
theorem blocksSeparate_step_iff {allocator : MemoryAllocator}
    (hinv : AllocatorInvariant allocator) (hseparate : BlocksSeparate allocator)
    (call : AllocatorCall) :
    BlocksSeparate (allocatorStep allocator call) ↔ AllocationClear allocator call := by
  cases call with
  | createPool poolType poolSize allocated =>
    simp only [allocatorStep, allocatorCreatePool, AllocationClear, iff_true]
    split_ifs
    · exact hseparate
    · exact hseparate
    · intro pool hpool
      rcases List.mem_append.mp hpool with hold | hnew
      · exact hseparate pool hold
      · rw [List.mem_singleton.mp hnew]
        simp [PoolSeparate, MemoryPool.zeroed]
  | destroyPool poolId =>
    simp only [allocatorStep, allocatorDestroyPool, AllocationClear, iff_true]
    cases hfind : allocator.pools.find? (hasPoolId poolId) with
    | none => exact hseparate
    | some found =>
      apply (forall_mem_updateFirst_iff hseparate).mpr
      intro _ _
      simp [PoolSeparate, MemoryPool.zeroed]
  | allocate poolId size =>
    simp only [allocatorStep, allocatorAllocate, AllocationClear]
    split_ifs with hsize
    · simp [hsize, hseparate]
    · cases hfind : allocator.pools.find? (hasPoolId poolId) with
      | none => simp [hseparate]
      | some found =>
        dsimp only
        have hmem := List.mem_of_find?_eq_some hfind
        split_ifs with hroom
        · rw [BlocksSeparate, forall_mem_updateFirst_iff hseparate, hfind]
          simp only [Option.some.injEq, forall_eq', ne_eq, hsize, not_false_eq_true, hroom,
            forall_true_left]
          exact poolSeparate_place_iff (hinv found hmem) (hseparate found hmem) hsize hroom _
        · simp [hroom, hseparate]
  | deallocate poolId ptr =>
    simp only [allocatorStep, allocatorDeallocate, AllocationClear, iff_true]
    split_ifs
    · exact hseparate
    · split
      · exact hseparate
      · next block hblock =>
        apply (forall_mem_updateFirst_iff hseparate).mpr
        intro pool hpool
        exact poolSeparate_release (hseparate pool (List.mem_of_find?_eq_some hpool)) ptr block

/-- Non-overlap of the live blocks over every run. Along the calls made on a new allocator, the
live blocks of every pool occupy disjoint bytes inside the region of the pool, in every state,
exactly when every allocation that is served finds the bytes it takes clear. -/
theorem blocksSeparate_alongRun_iff (totalMemory : UInt64) (nextPoolId nextBlockId : UInt32)
    (calls : List AllocatorCall) :
    AlongRun allocatorStep BlocksSeparate (allocatorInit totalMemory nextPoolId nextBlockId) calls ↔
      EveryStep allocatorStep AllocationClear (allocatorInit totalMemory nextPoolId nextBlockId)
        calls := by
  refine alongRun_iff_everyStep AllocatorInvariant (fun _ _ ↦ True)
    (fun _ call hinv _ ↦ allocatorInvariant_step hinv call)
    (fun _ call hinv _ hseparate ↦ blocksSeparate_step_iff hinv hseparate call) ?_ ?_ ?_
  · simp [AllocatorInvariant, allocatorInit]
  · simp [BlocksSeparate, allocatorInit]
  · exact fun _ _ _ ↦ trivial

/-- Two blocks of ten bytes are placed, the lower one is returned, and the next block of ten bytes
is placed on the upper one, which is still live. -/
theorem block_placed_on_live_block :
    ¬ AlongRun allocatorStep BlocksSeparate (allocatorInit 4096 1 1)
      [.createPool .variableSize 64 1000, .allocate 1 10, .allocate 1 10, .deallocate 1 1000,
        .allocate 1 10] := by
  intro halong
  obtain ⟨hpairwise, -⟩ := halong _ (List.prefix_refl _) _ List.mem_cons_self
  have hdisjoint := (List.pairwise_cons.mp (List.pairwise_cons.mp hpairwise).2).1 _
    List.mem_cons_self rfl rfl
  exact Set.disjoint_left.mp hdisjoint (Set.left_mem_Ico.mpr (by decide))
    (Set.left_mem_Ico.mpr (by decide))

end OneOS.Memory.PoolAllocator
