import OneOS.DiskCache.DiskCacheBuffer

/-!
# The blocks of the disk cache

What the calls to `io-filesystem/disk_cache_buffer.c` do to the blocks, seen as a grid of cells
without the counters. A read changes the block of its location, and taking a block changes the first
free one of the pool, if there is any (`allocateBlock_cases`).
-/

set_option autoImplicit false
set_option relaxedAutoImplicit false

namespace OneOS.DiskCache

open Foundation

variable {cache : DiskCacheBuffer} {pool : BufferPool} {pointer : BlockPtr} {block : BufferBlock}
variable {diskLocation : UInt64}

/-! ### Grids of blocks -/

/-- The counters of the cache are not in the grid. -/
theorem grid_counters (bufferSize allocated reads writes flushes : UInt64)
    (hits misses nextId : UInt32) :
    (DiskCacheBuffer.mk cache.pools bufferSize allocated reads writes flushes hits misses
      nextId).grid = cache.grid := rfl

theorem grid_onBlock (change : BufferBlock → BufferBlock) :
    (cache.onBlock pointer change).grid = changeAt cache.grid pointer change := by
  refine List.ext_getElem? fun i ↦ ?_
  simp only [DiskCacheBuffer.onBlock, DiskCacheBuffer.grid, changeAt, List.getElem?_map,
    List.getElem?_modify]
  cases cache.pools[i]? with
  | none => rfl
  | some pool =>
    by_cases hpool : pointer.1 = i
    · simp [hpool]
    · simp [hpool]

theorem grid_onPool {change : BufferPool → BufferPool} (i : ℕ)
    (blocks : List BufferBlock → List BufferBlock)
    (hblocks : ∀ pool, (change pool).blocks = blocks pool.blocks) :
    (cache.onPool i change).grid = cache.grid.modify i blocks := by
  refine List.ext_getElem? fun j ↦ ?_
  simp only [DiskCacheBuffer.onPool, DiskCacheBuffer.grid, List.getElem?_map,
    List.getElem?_modify]
  cases cache.pools[j]? with
  | none => rfl
  | some pool =>
    by_cases hpool : i = j
    · simp [hpool, hblocks]
    · simp [hpool]

/-- The counters of a pool are not in the grid. -/
theorem grid_onPool_of_keep {change : BufferPool → BufferPool} (i : ℕ)
    (hblocks : ∀ pool, (change pool).blocks = pool.blocks) :
    (cache.onPool i change).grid = cache.grid :=
  (grid_onPool i id hblocks).trans (List.modify_id i cache.grid)

/-- The blocks of a cache are those of its pools. -/
theorem cellAt_grid_iff :
    cellAt cache.grid pointer = some block ↔
      ∃ pool, cache.pools[pointer.1]? = some pool ∧ pool.blocks[pointer.2]? = some block := by
  rw [cellAt_eq_some_iff, DiskCacheBuffer.grid, List.getElem?_map]
  constructor
  · rintro ⟨row, hrow, hblock⟩
    obtain ⟨pool, hpool, rfl⟩ := Option.map_eq_some_iff.mp hrow
    exact ⟨pool, hpool, hblock⟩
  · rintro ⟨pool, hpool, hblock⟩
    exact ⟨pool.blocks, by rw [hpool, Option.map_some], hblock⟩

/-! ### Reads -/

/-- A read that finds a block. -/
theorem readBlock_of_found
    (hfirst : firstPlace (fun block ↦ block.caches diskLocation) cache.grid = some pointer) :
    (diskCacheReadBlock cache diskLocation).2 = some pointer ∧
      (diskCacheReadBlock cache diskLocation).1.grid = changeAt cache.grid pointer fun block ↦
        { block with accessCount := block.accessCount + 1, lastAccessTime := 0 } := by
  unfold diskCacheReadBlock
  rw [hfirst]
  refine ⟨rfl, ?_⟩
  rw [← grid_onBlock]
  exact grid_onPool_of_keep pointer.1 fun _ ↦ rfl

/-- A read that finds none. -/
theorem readBlock_of_missing
    (hfirst : firstPlace (fun block ↦ block.caches diskLocation) cache.grid = none) :
    (diskCacheReadBlock cache diskLocation).2 = none ∧
      (diskCacheReadBlock cache diskLocation).1.grid = cache.grid := by
  unfold diskCacheReadBlock
  rw [hfirst]
  exact ⟨rfl, rfl⟩

theorem caches_eq_true_iff :
    block.caches diskLocation = true ↔
      block.diskLocation = diskLocation ∧ block.state ≠ .free := by
  simp [BufferBlock.caches]

/-- The block that a read returns is in use. -/
theorem used_of_readBlock {diskLocation : UInt64}
    (hfound : (diskCacheReadBlock cache diskLocation).2 = some pointer) :
    ∃ block, cellAt (diskCacheReadBlock cache diskLocation).1.grid pointer = some block ∧
      block.state ≠ .free := by
  cases hfirst : firstPlace (fun block ↦ block.caches diskLocation) cache.grid with
  | none =>
    have hmissing := (readBlock_of_missing hfirst).1.symm.trans hfound
    exact absurd hmissing (Option.some_ne_none pointer).symm
  | some first =>
    obtain ⟨hreturned, hgrid⟩ := readBlock_of_found hfirst
    obtain rfl : first = pointer := Option.some.inj (hreturned.symm.trans hfound)
    obtain ⟨block, hblock, hcaches⟩ := cellAt_of_firstPlace hfirst
    have hused := (caches_eq_true_iff.mp hcaches).2
    refine ⟨{ block with accessCount := block.accessCount + 1, lastAccessTime := 0 }, ?_, hused⟩
    rw [hgrid, cellAt_changeAt, if_pos rfl, hblock, Option.map_some]

/-! ### Taking blocks -/

/-- What becomes of a block that is taken. -/
def BufferBlock.taken (block : BufferBlock) (blockId : UInt32) (data : BlockData) : BufferBlock :=
  { block with
    blockId := blockId
    blockPtr := some data
    state := .allocated
    referenceCount := 1
    isDirty := false
    isPinned := false
    allocationTime := 0
    lastAccessTime := 0
    accessCount := 0 }

/-- The block that the search for a free block of a pool ends at. -/
theorem exists_free_block {i j : ℕ} (hpool : cache.pools[i]? = some pool)
    (hfirst : (pool.blocks.findIdx? fun block ↦ block.state = .free) = some j) :
    ∃ block, pool.blocks[j]? = some block ∧ cellAt cache.grid (i, j) = some block ∧
      block.state = .free := by
  obtain ⟨hlt, hfree, -⟩ := List.findIdx?_eq_some_iff_getElem.mp hfirst
  have hblock : pool.blocks[j]? = some pool.blocks[j] := List.getElem?_eq_getElem hlt
  exact ⟨pool.blocks[j], hblock, cellAt_grid_iff.mpr ⟨pool, hpool, hblock⟩,
    of_decide_eq_true hfree⟩

/-- What taking a block does: no block of the pool is free, or the first one that is free gets an id
only, for lack of memory, or is taken. -/
theorem allocateBlock_cases (cache : DiskCacheBuffer) (poolId : UInt32)
    (malloc : Option BlockData) :
    ((diskCacheAllocateBlock cache poolId malloc).2 = none ∧
        (diskCacheAllocateBlock cache poolId malloc).1 = cache ∧
          ∀ slot block, cellAt cache.grid (poolId.toNat, slot) = some block →
            block.state ≠ .free) ∨
      ∃ slot block, cellAt cache.grid (poolId.toNat, slot) = some block ∧ block.state = .free ∧
        (malloc = none ∧ (diskCacheAllocateBlock cache poolId malloc).2 = none ∧
            (diskCacheAllocateBlock cache poolId malloc).1.grid =
              changeAt cache.grid (poolId.toNat, slot) (fun block ↦
                { block with blockId := cache.nextBlockId, blockPtr := none }) ∨
          ∃ data, malloc = some data ∧
            (diskCacheAllocateBlock cache poolId malloc).2 = some (poolId.toNat, slot) ∧
              (diskCacheAllocateBlock cache poolId malloc).1.grid =
                changeAt cache.grid (poolId.toNat, slot) (·.taken cache.nextBlockId data)) := by
  cases hpool : cache.pools[poolId.toNat]? with
  | none =>
    simp only [diskCacheAllocateBlock, hpool]
    refine Or.inl ⟨trivial, trivial, fun slot block hblock ↦ ?_⟩
    obtain ⟨pool, hsome, -⟩ := cellAt_grid_iff.mp hblock
    exact absurd (hpool.symm.trans hsome) (Option.some_ne_none pool).symm
  | some pool =>
    cases hfirst : pool.blocks.findIdx? fun block ↦ block.state = .free with
    | none =>
      simp only [diskCacheAllocateBlock, hpool, hfirst]
      refine Or.inl ⟨trivial, trivial, fun slot block hblock ↦ ?_⟩
      obtain ⟨other, hsome, hfound⟩ := cellAt_grid_iff.mp hblock
      obtain rfl : pool = other := Option.some.inj (hpool.symm.trans hsome)
      exact of_decide_eq_false
        (List.findIdx?_eq_none_iff.mp hfirst block (List.mem_of_getElem? hfound))
    | some slot =>
      obtain ⟨block, -, hblock, hfree⟩ := exists_free_block hpool hfirst
      refine Or.inr ⟨slot, block, hblock, hfree, ?_⟩
      cases malloc with
      | none =>
        simp only [diskCacheAllocateBlock, hpool, hfirst]
        exact Or.inl ⟨trivial, trivial, grid_onBlock _⟩
      | some data =>
        refine Or.inr ⟨data, rfl, ?_⟩
        simp only [diskCacheAllocateBlock, hpool, hfirst, true_and]
        rw [grid_counters, grid_onPool_of_keep, grid_onBlock, grid_counters, grid_onBlock,
          changeAt_changeAt]
        · rfl
        · exact fun _ ↦ rfl

/-- The block that is taken is in use. -/
theorem used_of_allocateBlock {poolId : UInt32} {malloc : Option BlockData}
    (htaken : (diskCacheAllocateBlock cache poolId malloc).2 = some pointer) :
    ∃ block, cellAt (diskCacheAllocateBlock cache poolId malloc).1.grid pointer = some block ∧
      block.state ≠ .free := by
  rcases allocateBlock_cases cache poolId malloc with
    ⟨hnone, -⟩ | ⟨slot, block, hblock, -, ⟨-, hnone, -⟩ | ⟨data, -, hreturned, hgrid⟩⟩
  · exact absurd (hnone.symm.trans htaken) (Option.some_ne_none pointer).symm
  · exact absurd (hnone.symm.trans htaken) (Option.some_ne_none pointer).symm
  · obtain rfl : (poolId.toNat, slot) = pointer := Option.some.inj (hreturned.symm.trans htaken)
    have hused : BufferBlockState.allocated ≠ .free := by decide
    rw [hgrid, cellAt_changeAt, if_pos rfl, hblock]
    exact ⟨_, rfl, hused⟩

/-! ### Releases -/

/-- The block that a release finds is in use. -/
theorem used_of_releasedPtr {poolId blockId : UInt32}
    (hreleased : releasedPtr cache poolId blockId = some pointer)
    (hblock : cellAt cache.grid pointer = some block) : block.state ≠ .free := by
  obtain ⟨pool, hpool, hfound⟩ := Option.bind_eq_some_iff.mp hreleased
  obtain ⟨i, hi, rfl⟩ := Option.map_eq_some_iff.mp hfound
  obtain ⟨hlt, hpasses, -⟩ := List.findIdx?_eq_some_iff_getElem.mp hi
  obtain ⟨row, hrow, hcell⟩ := cellAt_eq_some_iff.mp hblock
  rw [DiskCacheBuffer.grid, List.getElem?_map, hpool, Option.map_some, Option.some.injEq] at hrow
  rw [← hrow, List.getElem?_eq_getElem hlt, Option.some.injEq] at hcell
  simpa [hcell] using (Bool.and_eq_true_iff.mp hpasses).2

end OneOS.DiskCache
