import Mathlib.Algebra.Group.Action.Defs
import Mathlib.Algebra.Order.BigOperators.Group.List
import Mathlib.Algebra.Order.Ring.Nat
import OneOS.DiskCache.Coherence
import OneOS.Foundation.Table

/-!
# The accounts of the disk cache

Which blocks of `io-filesystem/disk_cache_buffer.c` are free, and how many bytes the others take. A
block is free exactly when it has no data, and a free block is not dirty, so that a flush, which
looks at the dirty flag only, takes no free block into use. Every pool counts 8192 bytes for each of
its blocks in use, and the cache what its pools count (`BlocksAccounted`).

The counters do not wrap, as a cache has at most 16 pools of fewer than `2 ^ 32` blocks (`Fits`). A
call changes one block of one pool and moves both counters by what that block takes, more or less
(`Fits.changeBlock`), or it flushes a pool, which leaves in use what is.
-/

set_option autoImplicit false
set_option relaxedAutoImplicit false

namespace OneOS.DiskCache

open Foundation

/-! ### The accounts -/

/-- The block is in use. -/
def BufferBlock.used (block : BufferBlock) : Bool :=
  block.state != .free

/-- The block is free exactly when it has no data, and not dirty when it is free. -/
structure BufferBlock.Sound (block : BufferBlock) : Prop where
  free : block.state = .free ↔ block.blockPtr = none
  dirty : block.isDirty = true → block.state ≠ .free

/-- The blocks of the pool are sound, and it counts the bytes of those in use. -/
structure BufferPool.Accounted (pool : BufferPool) : Prop where
  sound : ∀ block ∈ pool.blocks, block.Sound
  allocated : pool.allocatedSize.toNat = 8192 * pool.blocks.countP BufferBlock.used

/-- All pools are accounted for, and the cache counts what they count. -/
structure BlocksAccounted (cache : DiskCacheBuffer) : Prop where
  pools : ∀ pool ∈ cache.pools, pool.Accounted
  total : cache.allocatedBufferSize.toNat =
    (cache.pools.map fun pool ↦ pool.allocatedSize.toNat).sum

/-- All is accounted for, and there are so few pools and blocks that no counter wraps. -/
structure Fits (cache : DiskCacheBuffer) : Prop where
  accounted : BlocksAccounted cache
  pools : cache.pools.length ≤ 16
  blocks : ∀ pool ∈ cache.pools, pool.blocks.length < 2 ^ 32

variable {cache after : DiskCacheBuffer} {pool : BufferPool} {pointer : BlockPtr}
variable {block : BufferBlock} {change : BufferBlock → BufferBlock}

/-- The bytes that a block takes. -/
def BufferBlock.bytes (block : BufferBlock) : ℕ :=
  if block.used then 8192 else 0

theorem BufferBlock.used_iff : block.used = true ↔ block.state ≠ .free := by
  simp [BufferBlock.used]

theorem BufferBlock.bytes_of_used (hused : block.state ≠ .free) : block.bytes = 8192 :=
  if_pos (used_iff.mpr hused)

theorem BufferBlock.bytes_of_free (hfree : block.state = .free) : block.bytes = 0 :=
  if_neg fun hused ↦ used_iff.mp hused hfree

/-- A block in use that has data is sound. -/
theorem BufferBlock.sound_of_used (hused : block.state ≠ .free) (hdata : block.blockPtr ≠ none) :
    block.Sound :=
  ⟨iff_of_false hused hdata, fun _ ↦ hused⟩

theorem Fits.sound (hfits : Fits cache) (hblock : cellAt cache.grid pointer = some block) :
    block.Sound := by
  obtain ⟨pool, hpool, hmem⟩ := cellAt_grid_iff.mp hblock
  exact (hfits.accounted.pools pool (List.mem_of_getElem? hpool)).sound block
    (List.mem_of_getElem? hmem)

/-! ### The counters do not wrap -/

theorem Fits.allocatedSize_le (hfits : Fits cache) (hpool : pool ∈ cache.pools) :
    pool.allocatedSize.toNat ≤ 8192 * 2 ^ 32 := by
  rw [(hfits.accounted.pools pool hpool).allocated]
  have hused := List.countP_le_length (p := BufferBlock.used) (l := pool.blocks)
  have hblocks := hfits.blocks pool hpool
  omega

theorem Fits.allocatedBufferSize_le (hfits : Fits cache) :
    cache.allocatedBufferSize.toNat ≤ 16 * (8192 * 2 ^ 32) := by
  rw [hfits.accounted.total]
  have hsum : (cache.pools.map fun pool ↦ pool.allocatedSize.toNat).sum ≤
      (cache.pools.map fun pool ↦ pool.allocatedSize.toNat).length • (8192 * 2 ^ 32) := by
    refine List.sum_le_card_nsmul _ _ fun size hsize ↦ ?_
    obtain ⟨pool, hpool, rfl⟩ := List.mem_map.mp hsize
    exact hfits.allocatedSize_le hpool
  rw [List.length_map, smul_eq_mul] at hsum
  exact hsum.trans (Nat.mul_le_mul_right _ hfits.pools)

/-- A counter that does not wrap when a free block is taken. -/
theorem toNat_add_bytes {size : UInt64} {taken : BufferBlock} (hfree : block.state = .free)
    (htaken : taken.state ≠ .free) (hsize : size.toNat ≤ 16 * (8192 * 2 ^ 32)) :
    (size + 8192).toNat + block.bytes = size.toNat + taken.bytes := by
  rw [BufferBlock.bytes_of_free hfree, BufferBlock.bytes_of_used htaken, UInt64.toNat_add,
    show (8192 : UInt64).toNat = 8192 from rfl, Nat.mod_eq_of_lt (by omega), Nat.add_zero]

/-- A counter that does not wrap when a block in use is released. -/
theorem toNat_sub_bytes {size : UInt64} {released : BufferBlock} (hused : block.state ≠ .free)
    (hreleased : released.state = .free) (hsize : 8192 ≤ size.toNat) :
    (size - 8192).toNat + block.bytes = size.toNat + released.bytes := by
  have hle : (8192 : UInt64) ≤ size := UInt64.le_iff_toNat_le.mpr hsize
  rw [BufferBlock.bytes_of_used hused, BufferBlock.bytes_of_free hreleased,
    UInt64.toNat_sub_of_le _ _ hle]
  exact Nat.sub_add_cancel hsize

/-- A pool with a block in use counts at least that block, and so does the cache. -/
theorem Fits.le_allocated (hfits : Fits cache) (hpool : cache.pools[pointer.1]? = some pool)
    (hblock : pool.blocks[pointer.2]? = some block) (hused : block.state ≠ .free) :
    8192 ≤ pool.allocatedSize.toNat ∧ 8192 ≤ cache.allocatedBufferSize.toNat := by
  have hmem := List.mem_of_getElem? hpool
  have hsome : 0 < pool.blocks.countP BufferBlock.used :=
    List.countP_pos_iff.mpr ⟨block, List.mem_of_getElem? hblock, BufferBlock.used_iff.mpr hused⟩
  have hallocated := (hfits.accounted.pools pool hmem).allocated
  have htotal : pool.allocatedSize.toNat ≤ cache.allocatedBufferSize.toNat := by
    rw [hfits.accounted.total]
    exact List.le_sum_of_mem
      (List.mem_map_of_mem (f := fun pool : BufferPool ↦ pool.allocatedSize.toNat) hmem)
  omega

/-! ### Changes of one pool -/

/-- A pool stays accounted for when one of its blocks is changed and its counter is moved by what
the block takes. -/
theorem BufferPool.Accounted.modify {j : ℕ} {result : BufferPool} (hpool : pool.Accounted)
    (hblock : pool.blocks[j]? = some block) (hblocks : result.blocks = pool.blocks.modify j change)
    (hsound : (change block).Sound)
    (hsize : result.allocatedSize.toNat + block.bytes =
      pool.allocatedSize.toNat + (change block).bytes) : result.Accounted := by
  refine ⟨?_, ?_⟩
  · rw [hblocks]
    exact (forall_mem_modify_iff hpool.sound hblock change).mpr hsound
  · have hcount := countP_modify_add BufferBlock.used hblock change
    have hallocated := hpool.allocated
    rw [hblocks]
    unfold BufferBlock.bytes at hsize
    split_ifs at hsize hcount <;> omega

/-- All stays accounted for when one pool is changed to one that is and has as many blocks, and the
counter of the cache moves with that of the pool. -/
theorem Fits.changePool (hfits : Fits cache) {i : ℕ} {changePool : BufferPool → BufferPool}
    (hpool : cache.pools[i]? = some pool) (hpools : after.pools = cache.pools.modify i changePool)
    (haccounted : (changePool pool).Accounted)
    (hlength : (changePool pool).blocks.length = pool.blocks.length)
    (htotal : after.allocatedBufferSize.toNat + pool.allocatedSize.toNat =
      cache.allocatedBufferSize.toNat + (changePool pool).allocatedSize.toNat) : Fits after := by
  have hsum : ((cache.pools.modify i changePool).map fun pool ↦ pool.allocatedSize.toNat).sum +
      pool.allocatedSize.toNat = (cache.pools.map fun pool ↦ pool.allocatedSize.toNat).sum +
        (changePool pool).allocatedSize.toNat := sum_map_modify_add hpool changePool
  have hbefore := hfits.accounted.total
  refine ⟨⟨?_, ?_⟩, ?_, ?_⟩
  · rw [hpools]
    exact (forall_mem_modify_iff hfits.accounted.pools hpool changePool).mpr haccounted
  · rw [hpools]
    omega
  · rw [hpools, List.length_modify]
    exact hfits.pools
  · rw [hpools]
    refine (forall_mem_modify_iff hfits.blocks hpool changePool).mpr ?_
    rw [hlength]
    exact hfits.blocks pool (List.mem_of_getElem? hpool)

/-- All stays accounted for when one block is changed and both counters are moved by what the block
takes. -/
theorem Fits.changeBlock (hfits : Fits cache) {changePool : BufferPool → BufferPool}
    (hpool : cache.pools[pointer.1]? = some pool) (hblock : pool.blocks[pointer.2]? = some block)
    (hpools : after.pools = cache.pools.modify pointer.1 changePool)
    (hblocks : (changePool pool).blocks = pool.blocks.modify pointer.2 change)
    (hsound : (change block).Sound)
    (hsize : (changePool pool).allocatedSize.toNat + block.bytes =
      pool.allocatedSize.toNat + (change block).bytes)
    (htotal : after.allocatedBufferSize.toNat + block.bytes =
      cache.allocatedBufferSize.toNat + (change block).bytes) : Fits after := by
  have haccounted := hfits.accounted.pools pool (List.mem_of_getElem? hpool)
  refine hfits.changePool hpool hpools (haccounted.modify hblock hblocks hsound hsize) ?_ ?_
  · rw [hblocks, List.length_modify]
  · omega

/-- Only the pools and the number of bytes are accounted for. -/
theorem Fits.of_same (hfits : Fits cache) (hpools : after.pools = cache.pools)
    (htotal : after.allocatedBufferSize = cache.allocatedBufferSize) : Fits after := by
  refine ⟨⟨?_, ?_⟩, ?_, ?_⟩
  · rw [hpools]
    exact hfits.accounted.pools
  · rw [hpools, htotal]
    exact hfits.accounted.total
  · rw [hpools]
    exact hfits.pools
  · rw [hpools]
    exact hfits.blocks

/-- All stays accounted for when one block is changed that stays in use or free. -/
theorem Fits.onBlock (hfits : Fits cache) (hblock : cellAt cache.grid pointer = some block)
    (hsound : (change block).Sound) (hused : (change block).used = block.used) :
    Fits (cache.onBlock pointer change) := by
  obtain ⟨pool, hpool, hfound⟩ := cellAt_grid_iff.mp hblock
  have hbytes : (change block).bytes = block.bytes := by
    rw [BufferBlock.bytes, BufferBlock.bytes, hused]
  refine hfits.changeBlock hpool hfound rfl rfl hsound ?_ ?_
  · rw [hbytes]
  · rw [hbytes]
    rfl

/-! ### Single calls -/

theorem fits_readBlock (hfits : Fits cache) (diskLocation : UInt64) :
    Fits (diskCacheReadBlock cache diskLocation).1 := by
  unfold diskCacheReadBlock
  split
  · next pointer hfirst =>
    obtain ⟨block, hblock, -⟩ := cellAt_of_firstPlace hfirst
    obtain ⟨pool, hpool, hfound⟩ := cellAt_grid_iff.mp hblock
    have hsound := hfits.sound hblock
    exact hfits.changeBlock hpool hfound (List.modify_modify_eq _ _ _ _) rfl
      ⟨hsound.free, hsound.dirty⟩ rfl rfl
  · exact hfits.of_same rfl rfl

theorem fits_setPinned (hfits : Fits cache) (blockId : UInt32) (pinned : Bool) :
    Fits (setPinned cache blockId pinned).1 := by
  unfold setPinned
  split
  · exact hfits
  · next pointer hfirst =>
    obtain ⟨block, hblock, -⟩ := cellAt_of_firstPlace hfirst
    have hsound := hfits.sound hblock
    exact hfits.onBlock hblock ⟨hsound.free, hsound.dirty⟩ rfl

/-- All stays accounted for when a block is taken: there is none to take, or none is counted and the
block stays free, or a free block is in use after it. -/
theorem fits_allocateBlock (hfits : Fits cache) (poolId : UInt32) (malloc : Option BlockData) :
    Fits (diskCacheAllocateBlock cache poolId malloc).1 := by
  unfold diskCacheAllocateBlock
  cases hpool : cache.pools[poolId.toNat]? with
  | none => exact hfits
  | some pool =>
    dsimp only
    split
    · exact hfits
    · next i hfirst =>
      obtain ⟨block, hfound, hblock, hstate⟩ := exists_free_block hpool hfirst
      cases malloc with
      | none =>
        have hnumbered : Fits (cache.onBlock (poolId.toNat, i) fun block ↦
            { block with blockId := cache.nextBlockId, blockPtr := none }) :=
          hfits.onBlock hblock ⟨iff_of_true hstate rfl, (hfits.sound hblock).dirty⟩ rfl
        exact hnumbered.of_same rfl rfl
      | some data =>
        have hsize : pool.allocatedSize.toNat ≤ 16 * (8192 * 2 ^ 32) :=
          (hfits.allocatedSize_le (List.mem_of_getElem? hpool)).trans (by omega)
        have htaken : BufferBlockState.allocated ≠ .free := by decide
        have hplace : cache.pools[((poolId.toNat, i) : BlockPtr).1]? = some pool := hpool
        refine hfits.changeBlock hplace hfound
          ((List.modify_modify_eq _ _ _ _).trans (List.modify_modify_eq _ _ _ _))
          (List.modify_modify_eq _ _ _ _) ?_ ?_ ?_
        · exact BufferBlock.sound_of_used htaken (Option.some_ne_none data)
        · exact toNat_add_bytes hstate htaken hsize
        · exact toNat_add_bytes hstate htaken hfits.allocatedBufferSize_le

/-- All stays accounted for when the data of a block in use is written. -/
theorem Fits.written (hfits : Fits cache) (hblock : cellAt cache.grid pointer = some block)
    (hused : block.state ≠ .free) (data : BlockData) (diskLocation : BufferBlock → UInt64) :
    Fits (cache.onBlock pointer fun block ↦
      { block with
        blockPtr := some data
        diskLocation := diskLocation block
        state := .dirty
        isDirty := true }) := by
  have hdirty : BufferBlockState.dirty ≠ .free := by decide
  refine hfits.onBlock hblock ?_ ?_
  · exact BufferBlock.sound_of_used hdirty (Option.some_ne_none data)
  · rw [BufferBlock.used_iff.mpr hused]
    rfl

theorem fits_writeBlock (hfits : Fits cache) (diskLocation : UInt64)
    (data malloc : Option BlockData) :
    Fits (diskCacheWriteBlock cache diskLocation data malloc).1 := by
  have hread := fits_readBlock hfits diskLocation
  unfold diskCacheWriteBlock
  cases data with
  | none => exact hfits
  | some data =>
    dsimp only
    split
    · next pointer hfound =>
      obtain ⟨block, hblock, hused⟩ := used_of_readBlock hfound
      exact (hread.written hblock hused data BufferBlock.diskLocation).of_same rfl rfl
    · have hallocated := fits_allocateBlock hread 0 malloc
      split
      · exact hallocated
      · next pointer htaken =>
        obtain ⟨block, hblock, hused⟩ := used_of_allocateBlock htaken
        exact (hallocated.written hblock hused data fun _ ↦ diskLocation).of_same rfl rfl

theorem fits_prefetchBlocks (hfits : Fits cache) (startLocation : UInt64) (count : UInt32)
    (malloc : ℕ → Option BlockData) :
    Fits (diskCachePrefetchBlocks cache startLocation count malloc).1 := by
  unfold diskCachePrefetchBlocks
  split_ifs
  · exact hfits
  · show Fits (prefetchRounds cache startLocation malloc count.toNat)
    induction count.toNat with
    | zero => exact hfits
    | succ rounds ih =>
      rw [prefetchRounds_succ]
      exact fits_writeBlock ih _ _ _

theorem fits_deallocateBlock (hfits : Fits cache) (poolId blockId : UInt32) :
    Fits (diskCacheDeallocateBlock cache poolId blockId).1 := by
  unfold diskCacheDeallocateBlock
  split
  · exact hfits
  · next pointer hreleased =>
    split
    · exact hfits
    · next block hblock =>
      split
      · exact hfits
      · have hused := used_of_releasedPtr hreleased hblock
        obtain ⟨pool, hpool, hfound⟩ := cellAt_grid_iff.mp hblock
        obtain ⟨hpoolSize, htotalSize⟩ := hfits.le_allocated hpool hfound hused
        refine hfits.changeBlock hpool hfound (List.modify_modify_eq _ _ _ _) rfl ?_ ?_ ?_
        · exact ⟨iff_of_true rfl rfl, fun hdirty ↦ absurd hdirty Bool.false_ne_true⟩
        · exact toNat_sub_bytes hused rfl hpoolSize
        · exact toNat_sub_bytes hused rfl htotalSize

/-- What a flush leaves of a block. -/
def BufferBlock.afterFlush (block : BufferBlock) : BufferBlock :=
  if block.flushed then { block with state := .allocated, isDirty := false } else block

/-- A flush leaves free what is free, as a free block is not dirty. -/
theorem BufferBlock.Sound.afterFlush (hsound : block.Sound) :
    block.afterFlush.Sound ∧ block.afterFlush.used = block.used := by
  unfold BufferBlock.afterFlush
  split_ifs with hflushed
  · have hused := hsound.dirty (Bool.and_eq_true_iff.mp hflushed).1
    have hallocated : BufferBlockState.allocated ≠ .free := by decide
    refine ⟨BufferBlock.sound_of_used hallocated fun hnone ↦ hused (hsound.free.mpr hnone), ?_⟩
    rw [BufferBlock.used_iff.mpr hused]
    rfl
  · exact ⟨hsound, rfl⟩

theorem fits_flushBlocks (hfits : Fits cache) (poolId : UInt32) :
    Fits (diskCacheFlushBlocks cache poolId).1 := by
  unfold diskCacheFlushBlocks
  split
  · exact hfits
  · next pool hpool =>
    have haccounted := hfits.accounted.pools pool (List.mem_of_getElem? hpool)
    refine hfits.changePool hpool rfl ⟨?_, ?_⟩ (List.length_map _) rfl
    · intro block hblock
      obtain ⟨before, hbefore, rfl⟩ := List.mem_map.mp hblock
      exact (haccounted.sound before hbefore).afterFlush.1
    · have hcount : (pool.blocks.map BufferBlock.afterFlush).countP BufferBlock.used =
          pool.blocks.countP BufferBlock.used := by
        rw [List.countP_map]
        refine List.countP_congr fun block hblock ↦ ?_
        rw [Function.comp_apply, (haccounted.sound block hblock).afterFlush.2]
      exact haccounted.allocated.trans (congrArg (8192 * ·) hcount.symm)

theorem fits_flushAll (hfits : Fits cache) : Fits (diskCacheFlushAll cache).1 := by
  refine runFrom_invariant (fun total : DiskCacheBuffer × UInt32 ↦ Fits total.1)
    (fun _ _ ↦ True) (fun total i hbefore _ ↦ ?_) hfits (fun _ _ _ ↦ trivial)
  exact fits_flushBlocks hbefore _

/-! ### Runs -/

theorem fits_step (hfits : Fits cache) (call : BufferCall) : Fits (bufferStep cache call) := by
  cases call with
  | allocateBlock poolId malloc => exact fits_allocateBlock hfits poolId malloc
  | prefetchBlocks startLocation count malloc =>
    exact fits_prefetchBlocks hfits startLocation count malloc
  | call call =>
    cases call with
    | writeBlock diskLocation data malloc => exact fits_writeBlock hfits diskLocation data malloc
    | readBlock diskLocation => exact fits_readBlock hfits diskLocation
    | flushBlocks poolId => exact fits_flushBlocks hfits poolId
    | flushAll => exact fits_flushAll hfits
    | lockBlock blockId => exact fits_setPinned hfits blockId true
    | unlockBlock blockId => exact fits_setPinned hfits blockId false
    | deallocateBlock poolId blockId => exact fits_deallocateBlock hfits poolId blockId

/-- A new cache has at most 16 pools, and nothing in use. -/
theorem fits_init {bufferSize : UInt64} {poolCount nextBlockId : UInt32}
    (hinit : diskCacheInit bufferSize poolCount nextBlockId = some cache) : Fits cache := by
  unfold diskCacheInit at hinit
  split_ifs at hinit
  obtain rfl := Option.some.inj hinit
  have hcount : (poolCountOf poolCount).toNat ≤ 16 := by
    rw [poolCountOf, maxBufferPools]
    split_ifs with hlarge
    · decide
    · exact UInt32.le_iff_toNat_le.mp (UInt32.not_lt.mp hlarge)
  refine ⟨⟨fun pool hpool ↦ ⟨fun block hblock ↦ ?_, ?_⟩, ?_⟩, ?_, fun pool hpool ↦ ?_⟩
  · obtain ⟨i, -, rfl⟩ := List.mem_map.mp hpool
    rw [List.eq_of_mem_replicate hblock]
    exact ⟨iff_of_true rfl rfl, fun hdirty ↦ absurd hdirty Bool.false_ne_true⟩
  · obtain ⟨i, -, rfl⟩ := List.mem_map.mp hpool
    have hnone (blocks : ℕ) : (List.replicate blocks zeroBlock).countP BufferBlock.used = 0 :=
      List.countP_replicate.trans (if_neg Bool.false_ne_true)
    rw [hnone]
    rfl
  · rw [List.map_map]
    refine (List.sum_eq_zero_iff_forall_eq_nat.mpr fun size hsize ↦ ?_).symm
    obtain ⟨i, -, rfl⟩ := List.mem_map.mp hsize
    rfl
  · rw [List.length_map, List.length_range]
    exact hcount
  · obtain ⟨i, -, rfl⟩ := List.mem_map.mp hpool
    rw [List.length_replicate]
    exact UInt32.toNat_lt _

/-- The blocks of a disk cache over every run. In every state that the calls on a new cache with at
least one pool pass through, a block is free exactly when it has no data, no free block is dirty,
every pool counts 8192 bytes for each of its blocks in use, and the cache counts what its pools
count. It is so whether or not there is memory for the blocks, and whichever ids they have. -/
theorem blocksAccounted_alongRun (bufferSize : UInt64) (poolCount nextBlockId : UInt32)
    (cache : DiskCacheBuffer) (hinit : diskCacheInit bufferSize poolCount nextBlockId = some cache)
    (calls : List BufferCall) : AlongRun bufferStep BlocksAccounted cache calls := by
  have hfits : AlongRun bufferStep Fits cache calls :=
    alongRun_invariant Fits (fun _ _ ↦ True) (fun _ call hbefore _ ↦ fits_step hbefore call)
      (fits_init hinit) fun _ _ _ ↦ trivial
  exact hfits.imp fun _ hreached ↦ hreached.accounted

/-- A cache with one pool of two blocks: one is prefetched and flushed, the other one is taken. -/
theorem blocksAccounted_alongRun_two_blocks :
    ∃ cache, diskCacheInit 16384 1 1 = some cache ∧ AlongRun bufferStep BlocksAccounted cache
      [.prefetchBlocks 7 1 fun _ ↦ some fun _ ↦ 0, .call (.flushBlocks 0),
        .allocateBlock 0 (some fun _ ↦ 0)] :=
  ⟨_, rfl, blocksAccounted_alongRun 16384 1 1 _ rfl _⟩

end OneOS.DiskCache
