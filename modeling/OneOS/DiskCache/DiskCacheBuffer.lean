import OneOS.Foundation.Runs
import OneOS.Foundation.Grid

/-!
# The disk cache buffer

`io-filesystem/disk_cache_buffer.c`: pools of blocks, each of which caches what belongs at one disk
location. A block is free or in use, and a free one keeps no location that counts. Blocks are looked
for pool by pool; a pointer to a block is its pool and its position there.

A write overwrites the block of its location, and takes a free block of the first pool when there is
none. Whether there is memory for the data of a block, and what is in that memory at first, is an
input of every write.

Left out are the check of the pointer to the cache, the two ratios, which are never computed, and
the metrics. The memory for the pools is taken to have been found. `disk_cache_prefetch_blocks` is a
loop of writes; `BufferCall` adds it, and taking a block without writing it, to the other calls.
-/

set_option autoImplicit false
set_option relaxedAutoImplicit false

namespace OneOS.DiskCache

open Foundation

/-! ### Blocks and pools -/

/-- `MAX_BUFFER_POOLS`. -/
def maxBufferPools : UInt32 := 16

/-- `BUFFER_BLOCK_SIZE`. -/
def bufferBlockSize : ℕ := 8192

/-- What the memory of a block holds. -/
abbrev BlockData := Fin bufferBlockSize → UInt8

/-- `BufferBlockState`. -/
inductive BufferBlockState
  | free
  | allocated
  | dirty
  | locked
  deriving DecidableEq, Repr

/-- `BufferBlock`. The data is missing where the pointer to it is NULL. -/
structure BufferBlock where
  blockId : UInt32
  blockPtr : Option BlockData
  diskLocation : UInt64
  state : BufferBlockState
  referenceCount : UInt32
  isDirty : Bool
  isPinned : Bool
  allocationTime : UInt64
  lastAccessTime : UInt64
  accessCount : UInt32

/-- A block that is all 0. -/
def zeroBlock : BufferBlock where
  blockId := 0
  blockPtr := none
  diskLocation := 0
  state := .free
  referenceCount := 0
  isDirty := false
  isPinned := false
  allocationTime := 0
  lastAccessTime := 0
  accessCount := 0

/-- `BufferPool`. -/
structure BufferPool where
  poolId : UInt32
  blocks : List BufferBlock
  totalPoolSize : UInt64
  allocatedSize : UInt64
  dirtyCount : UInt32
  hitCount : UInt32
  missCount : UInt32

/-- `DiskCacheBuffer`, with the counter that numbers blocks. -/
structure DiskCacheBuffer where
  pools : List BufferPool
  totalBufferSize : UInt64
  allocatedBufferSize : UInt64
  totalReads : UInt64
  totalWrites : UInt64
  totalFlushes : UInt64
  totalHits : UInt32
  totalMisses : UInt32
  nextBlockId : UInt32

/-- A pointer to a block: the index of its pool and its index there. -/
abbrev BlockPtr := ℕ × ℕ

/-- The blocks of all pools. -/
def DiskCacheBuffer.grid (cache : DiskCacheBuffer) : List (List BufferBlock) :=
  cache.pools.map BufferPool.blocks

/-- `pool_count`. -/
def poolCountOf (poolCount : UInt32) : UInt32 :=
  if maxBufferPools < poolCount then maxBufferPools else poolCount

/-- `disk_cache_init`. The counter that numbers blocks is shared by all caches of a process and
keeps its value. Without a pool the size of a pool is a division by 0. -/
def diskCacheInit (bufferSize : UInt64) (poolCount : UInt32) (nextBlockId : UInt32) :
    Option DiskCacheBuffer :=
  if poolCount = 0 then none
  else
    let poolSize := bufferSize / (poolCountOf poolCount).toUInt64
    let blockCount := (poolSize / 8192).toUInt32
    some
      { pools := (List.range (poolCountOf poolCount).toNat).map fun i ↦
          { poolId := UInt32.ofNat i
            blocks := List.replicate blockCount.toNat zeroBlock
            totalPoolSize := poolSize
            allocatedSize := 0
            dirtyCount := 0
            hitCount := 0
            missCount := 0 }
        totalBufferSize := bufferSize
        allocatedBufferSize := 0
        totalReads := 0
        totalWrites := 0
        totalFlushes := 0
        totalHits := 0
        totalMisses := 0
        nextBlockId := nextBlockId }

/-- Change the block that a pointer points to. -/
def DiskCacheBuffer.onBlock (cache : DiskCacheBuffer) (pointer : BlockPtr)
    (change : BufferBlock → BufferBlock) : DiskCacheBuffer :=
  { cache with
    pools := cache.pools.modify pointer.1 fun pool ↦
      { pool with blocks := pool.blocks.modify pointer.2 change } }

/-- Change the counters of a pool. -/
def DiskCacheBuffer.onPool (cache : DiskCacheBuffer) (pool : ℕ)
    (change : BufferPool → BufferPool) : DiskCacheBuffer :=
  { cache with pools := cache.pools.modify pool change }

/-! ### Reading and writing -/

/-- The block caches what belongs at the location. -/
def BufferBlock.caches (block : BufferBlock) (diskLocation : UInt64) : Bool :=
  block.diskLocation = diskLocation && block.state != .free

/-- `disk_cache_read_block`. -/
def diskCacheReadBlock (cache : DiskCacheBuffer) (diskLocation : UInt64) :
    DiskCacheBuffer × Option BlockPtr :=
  match firstPlace (fun block ↦ block.caches diskLocation) cache.grid with
  | some pointer =>
    let accessed := cache.onBlock pointer fun block ↦
      { block with accessCount := block.accessCount + 1, lastAccessTime := 0 }
    let counted := accessed.onPool pointer.1 fun pool ↦ { pool with hitCount := pool.hitCount + 1 }
    ({ counted with totalHits := counted.totalHits + 1 }, some pointer)
  | none =>
    ({ cache with totalMisses := cache.totalMisses + 1, totalReads := cache.totalReads + 1 }, none)

/-- `disk_cache_allocate_block`. When there is no memory for the data, the block that was to be
taken has its new id already and stays free. -/
def diskCacheAllocateBlock (cache : DiskCacheBuffer) (poolId : UInt32)
    (malloc : Option BlockData) : DiskCacheBuffer × Option BlockPtr :=
  match cache.pools[poolId.toNat]? with
  | none => (cache, none)
  | some pool =>
    match pool.blocks.findIdx? fun block ↦ block.state = .free with
    | none => (cache, none)
    | some i =>
      let pointer : BlockPtr := (poolId.toNat, i)
      let numbered := cache.onBlock pointer fun block ↦
        { block with blockId := cache.nextBlockId, blockPtr := malloc }
      let counted := { numbered with nextBlockId := cache.nextBlockId + 1 }
      match malloc with
      | none => (counted, none)
      | some _ =>
        let taken := counted.onBlock pointer fun block ↦
          { block with
            state := .allocated
            referenceCount := 1
            isDirty := false
            isPinned := false
            allocationTime := 0
            lastAccessTime := 0
            accessCount := 0 }
        let sized := taken.onPool pointer.1 fun pool ↦
          { pool with allocatedSize := pool.allocatedSize + 8192 }
        ({ sized with allocatedBufferSize := sized.allocatedBufferSize + 8192 }, some pointer)

/-- `disk_cache_write_block`. -/
def diskCacheWriteBlock (cache : DiskCacheBuffer) (diskLocation : UInt64)
    (data malloc : Option BlockData) : DiskCacheBuffer × Int :=
  match data with
  | none => (cache, -1)
  | some data =>
    let read := diskCacheReadBlock cache diskLocation
    match read.2 with
    | some pointer =>
      let written := read.1.onBlock pointer fun block ↦
        { block with blockPtr := some data, state := .dirty, isDirty := true }
      ({ written with totalWrites := written.totalWrites + 1 }, 0)
    | none =>
      let allocated := diskCacheAllocateBlock read.1 0 malloc
      match allocated.2 with
      | none => (allocated.1, -1)
      | some pointer =>
        let written := allocated.1.onBlock pointer fun block ↦
          { block with
            blockPtr := some data
            diskLocation := diskLocation
            state := .dirty
            isDirty := true }
        ({ written with totalWrites := written.totalWrites + 1 }, 0)

/-- The first rounds of the loop of `disk_cache_prefetch_blocks`, which writes blocks of zeros. The
product of the number of a round and the size of a block is one of 32-bit numbers. -/
def prefetchRounds (cache : DiskCacheBuffer) (startLocation : UInt64)
    (malloc : ℕ → Option BlockData) (rounds : ℕ) : DiskCacheBuffer :=
  (List.range rounds).foldl
    (fun cache i ↦ (diskCacheWriteBlock cache (startLocation + (i.toUInt32 * 8192).toUInt64)
      (some fun _ ↦ 0) (malloc i)).1) cache

/-- One more round of a prefetch is one more write. -/
theorem prefetchRounds_succ (cache : DiskCacheBuffer) (startLocation : UInt64)
    (malloc : ℕ → Option BlockData) (rounds : ℕ) :
    prefetchRounds cache startLocation malloc (rounds + 1) =
      (diskCacheWriteBlock (prefetchRounds cache startLocation malloc rounds)
        (startLocation + (rounds.toUInt32 * 8192).toUInt64) (some fun _ ↦ 0)
        (malloc rounds)).1 := by
  rw [prefetchRounds, List.range_succ, List.foldl_append]
  rfl

/-- `disk_cache_prefetch_blocks`. -/
def diskCachePrefetchBlocks (cache : DiskCacheBuffer) (startLocation : UInt64) (count : UInt32)
    (malloc : ℕ → Option BlockData) : DiskCacheBuffer × Int :=
  if count = 0 then (cache, -1)
  else (prefetchRounds cache startLocation malloc count.toNat, count.toInt32.toInt)

/-! ### Releasing, flushing and locking -/

/-- The position in its pool of the block that `disk_cache_deallocate_block` finds. -/
def releasedPtr (cache : DiskCacheBuffer) (poolId blockId : UInt32) : Option BlockPtr :=
  cache.pools[poolId.toNat]?.bind fun pool ↦
    (pool.blocks.findIdx? fun block ↦ block.blockId = blockId && block.state != .free).map fun i ↦
      (poolId.toNat, i)

/-- `disk_cache_deallocate_block`. -/
def diskCacheDeallocateBlock (cache : DiskCacheBuffer) (poolId blockId : UInt32) :
    DiskCacheBuffer × Int :=
  match releasedPtr cache poolId blockId with
  | none => (cache, -1)
  | some pointer =>
    match cellAt cache.grid pointer with
    | none => (cache, -1)
    | some block =>
      if block.isPinned then (cache, -1)
      else
        let sized := cache.onPool pointer.1 fun pool ↦
          { pool with
            allocatedSize := pool.allocatedSize - 8192
            dirtyCount := if block.isDirty then pool.dirtyCount - 1 else pool.dirtyCount }
        let zeroed := sized.onBlock pointer fun _ ↦ zeroBlock
        ({ zeroed with allocatedBufferSize := zeroed.allocatedBufferSize - 8192 }, 0)

/-- The block is written back when its pool is flushed. -/
def BufferBlock.flushed (block : BufferBlock) : Bool :=
  block.isDirty && !block.isPinned

/-- `disk_cache_flush_blocks`. -/
def diskCacheFlushBlocks (cache : DiskCacheBuffer) (poolId : UInt32) : DiskCacheBuffer × Int :=
  match cache.pools[poolId.toNat]? with
  | none => (cache, -1)
  | some pool =>
    let flushed := UInt32.ofNat (pool.blocks.countP BufferBlock.flushed)
    let written := cache.onPool poolId.toNat fun pool ↦
      { pool with
        blocks := pool.blocks.map fun block ↦
          if block.flushed then { block with state := .allocated, isDirty := false } else block
        dirtyCount := pool.dirtyCount - flushed }
    ({ written with totalFlushes := written.totalFlushes + flushed.toUInt64 },
      flushed.toInt32.toInt)

/-- `disk_cache_flush_all`. -/
def diskCacheFlushAll (cache : DiskCacheBuffer) : DiskCacheBuffer × Int :=
  let flushed := (List.range cache.pools.length).foldl
    (fun (total : DiskCacheBuffer × UInt32) i ↦
      let pool := diskCacheFlushBlocks total.1 (UInt32.ofNat i)
      (pool.1, total.2 + UInt32.ofInt pool.2)) (cache, 0)
  (flushed.1, flushed.2.toInt32.toInt)

/-- The loop of `disk_cache_lock_block` and of `disk_cache_unlock_block`: the first block with the
id is pinned or not, also when it is free. -/
def setPinned (cache : DiskCacheBuffer) (blockId : UInt32) (pinned : Bool) :
    DiskCacheBuffer × Int :=
  match firstPlace (fun block ↦ block.blockId = blockId) cache.grid with
  | none => (cache, -1)
  | some pointer => (cache.onBlock pointer fun block ↦ { block with isPinned := pinned }, 0)

/-- `disk_cache_lock_block`. -/
def diskCacheLockBlock (cache : DiskCacheBuffer) (blockId : UInt32) : DiskCacheBuffer × Int :=
  setPinned cache blockId true

/-- `disk_cache_unlock_block`. -/
def diskCacheUnlockBlock (cache : DiskCacheBuffer) (blockId : UInt32) : DiskCacheBuffer × Int :=
  setPinned cache blockId false

/-! ### Calls -/

/-- A call to the cache. -/
inductive DiskCacheCall
  | writeBlock (diskLocation : UInt64) (data malloc : Option BlockData)
  | readBlock (diskLocation : UInt64)
  | flushBlocks (poolId : UInt32)
  | flushAll
  | lockBlock (blockId : UInt32)
  | unlockBlock (blockId : UInt32)
  | deallocateBlock (poolId blockId : UInt32)

/-- What a call does to the cache. -/
def diskCacheStep (cache : DiskCacheBuffer) : DiskCacheCall → DiskCacheBuffer
  | .writeBlock diskLocation data malloc => (diskCacheWriteBlock cache diskLocation data malloc).1
  | .readBlock diskLocation => (diskCacheReadBlock cache diskLocation).1
  | .flushBlocks poolId => (diskCacheFlushBlocks cache poolId).1
  | .flushAll => (diskCacheFlushAll cache).1
  | .lockBlock blockId => (diskCacheLockBlock cache blockId).1
  | .unlockBlock blockId => (diskCacheUnlockBlock cache blockId).1
  | .deallocateBlock poolId blockId => (diskCacheDeallocateBlock cache poolId blockId).1

/-- Any call to the cache: one of the above, a block taken in some pool, or a prefetch. -/
inductive BufferCall
  | call (call : DiskCacheCall)
  | allocateBlock (poolId : UInt32) (malloc : Option BlockData)
  | prefetchBlocks (startLocation : UInt64) (count : UInt32) (malloc : ℕ → Option BlockData)

/-- What any call does to the cache. -/
def bufferStep (cache : DiskCacheBuffer) : BufferCall → DiskCacheBuffer
  | .call call => diskCacheStep cache call
  | .allocateBlock poolId malloc => (diskCacheAllocateBlock cache poolId malloc).1
  | .prefetchBlocks startLocation count malloc =>
    (diskCachePrefetchBlocks cache startLocation count malloc).1

end OneOS.DiskCache
