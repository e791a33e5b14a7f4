import OneOS.DiskCache.BlockAccounts

/-!
# The dirty counters of the disk cache

A pool should count its dirty blocks in `dirty_count`. A flush and a release of a dirty block lower
the counter, but a write that makes a block dirty does not raise it. So the counters are right, and
not taken below 0, exactly as long as no write is served (`dirtyBlocksCounted_alongRun_iff`): until
then no block is dirty and all counters are 0 (`Clean`), and the first write that is served leaves a
dirty block that its pool does not count.

A write is served when its location is cached, or when there is a free block in the first pool and
memory for it (`Served`). That depends on what the blocks are (`statusAt`), which a write that is
not served leaves as it is, so that a prefetch is a loop of writes each of which can be judged
before the first one (`statusAt_prefetchRounds`).
-/

set_option autoImplicit false
set_option relaxedAutoImplicit false

namespace OneOS.DiskCache

open Foundation

/-! ### Dirty counters -/

/-- Every pool counts its dirty blocks. -/
def DirtyBlocksCounted (cache : DiskCacheBuffer) : Prop :=
  ∀ pool ∈ cache.pools, pool.dirtyCount.toNat = pool.blocks.countP BufferBlock.isDirty

/-- A flush of the pool does not take its counter below 0. -/
def BufferPool.CoversFlush (pool : BufferPool) : Prop :=
  pool.blocks.countP BufferBlock.flushed ≤ pool.dirtyCount.toNat

instance (pool : BufferPool) : Decidable pool.CoversFlush :=
  inferInstanceAs (Decidable (_ ≤ _))

/-- The call takes no counter below 0. -/
def NoDirtyUnderflow (cache : DiskCacheBuffer) : BufferCall → Prop
  | .call (.flushBlocks poolId) => ∀ pool, cache.pools[poolId.toNat]? = some pool → pool.CoversFlush
  | .call .flushAll => ∀ pool ∈ cache.pools, pool.CoversFlush
  | .call (.deallocateBlock poolId blockId) => ∀ pointer pool block,
      releasedPtr cache poolId blockId = some pointer → cache.pools[pointer.1]? = some pool →
        pool.blocks[pointer.2]? = some block → block.isPinned = false → block.isDirty = true →
          0 < pool.dirtyCount
  | _ => True

/-- Some block in use has the location. -/
def Cached (cache : DiskCacheBuffer) (diskLocation : UInt64) : Prop :=
  ∃ place block, cellAt cache.grid place = some block ∧ block.caches diskLocation = true

/-- The first pool has a free block, and there is memory for its data. -/
def CanTake (cache : DiskCacheBuffer) (malloc : Option BlockData) : Prop :=
  malloc ≠ none ∧ ∃ slot block, cellAt cache.grid (0, slot) = some block ∧ block.state = .free

/-- A write to the location is served. -/
def Served (cache : DiskCacheBuffer) (diskLocation : UInt64) (malloc : Option BlockData) : Prop :=
  Cached cache diskLocation ∨ CanTake cache malloc

/-- The call makes no write that is served. -/
def ServesNoWrite (cache : DiskCacheBuffer) : BufferCall → Prop
  | .call (.writeBlock diskLocation data malloc) =>
    data ≠ none → ¬ Served cache diskLocation malloc
  | .prefetchBlocks startLocation count malloc => ∀ i < count.toNat,
      ¬ Served cache (startLocation + (i.toUInt32 * 8192).toUInt64) (malloc i)
  | _ => True

/-- No block of the pool is dirty, and it counts none. -/
structure BufferPool.Clean (pool : BufferPool) : Prop where
  dirtyCount : pool.dirtyCount = 0
  blocks : ∀ block ∈ pool.blocks, block.isDirty = false

/-- No block is dirty, and all counters are 0. -/
def Clean (cache : DiskCacheBuffer) : Prop :=
  ∀ pool ∈ cache.pools, pool.Clean

variable {cache after : DiskCacheBuffer} {pointer : BlockPtr} {diskLocation : UInt64}
variable {malloc : Option BlockData} {startLocation : UInt64} {mallocs : ℕ → Option BlockData}

/-! ### What the blocks are -/

/-- What matters of a block to a write. -/
structure BlockStatus where
  state : BufferBlockState
  diskLocation : UInt64
  isDirty : Bool

def BufferBlock.status (block : BufferBlock) : BlockStatus :=
  ⟨block.state, block.diskLocation, block.isDirty⟩

/-- The status of the block at a place. -/
def statusAt (cache : DiskCacheBuffer) (place : BlockPtr) : Option BlockStatus :=
  (cellAt cache.grid place).map BufferBlock.status

theorem statusAt_eq_some_iff {status : BlockStatus} :
    statusAt cache pointer = some status ↔
      ∃ block, cellAt cache.grid pointer = some block ∧ block.status = status :=
  Option.map_eq_some_iff

/-- A change of one block that leaves its status. -/
theorem statusAt_of_changeAt {change : BufferBlock → BufferBlock}
    (hgrid : after.grid = changeAt cache.grid pointer change)
    (hkeep : ∀ block, cellAt cache.grid pointer = some block →
      (change block).status = block.status) : statusAt after = statusAt cache := by
  funext place
  rw [statusAt, statusAt, hgrid, cellAt_changeAt]
  split_ifs with hsame
  · subst hsame
    cases hblock : cellAt cache.grid place with
    | none => rfl
    | some block => exact congrArg some (hkeep block hblock)
  · rfl

/-- A change of one block to one with a status. -/
theorem statusAt_of_changeAt_to {change : BufferBlock → BufferBlock} {block : BufferBlock}
    {status : BlockStatus} (hgrid : after.grid = changeAt cache.grid pointer change)
    (hblock : cellAt cache.grid pointer = some block) (hstatus : (change block).status = status) :
    statusAt after = Function.update (statusAt cache) pointer (some status) := by
  funext place
  rw [statusAt, hgrid, cellAt_changeAt]
  by_cases hsame : place = pointer
  · rw [if_pos hsame, hsame, hblock, Function.update_self, Option.map_some, Option.map_some,
      hstatus]
  · rw [if_neg hsame, Function.update_of_ne hsame, statusAt]

/-- What the status of a block says of it. -/
theorem exists_status_iff (cache : DiskCacheBuffer) (place : BlockPtr)
    (property : BlockStatus → Prop) :
    (∃ block, cellAt cache.grid place = some block ∧ property block.status) ↔
      ∃ status, statusAt cache place = some status ∧ property status := by
  constructor
  · rintro ⟨block, hblock, hproperty⟩
    exact ⟨block.status, statusAt_eq_some_iff.mpr ⟨block, hblock, rfl⟩, hproperty⟩
  · rintro ⟨status, hstatus, hproperty⟩
    obtain ⟨block, hblock, rfl⟩ := statusAt_eq_some_iff.mp hstatus
    exact ⟨block, hblock, hproperty⟩

/-- Whether a location is cached depends on the statuses. -/
theorem cached_congr (hstatus : statusAt after = statusAt cache) :
    Cached after diskLocation ↔ Cached cache diskLocation := by
  refine exists_congr fun place ↦ ?_
  have hcached (cache : DiskCacheBuffer) := exists_status_iff cache place fun status ↦
    status.diskLocation = diskLocation ∧ status.state ≠ .free
  simp only [caches_eq_true_iff]
  exact (hcached after).trans (hstatus ▸ (hcached cache).symm)

/-- Whether a block can be taken depends on the statuses. -/
theorem canTake_congr (hstatus : statusAt after = statusAt cache) :
    CanTake after malloc ↔ CanTake cache malloc := by
  refine and_congr Iff.rfl (exists_congr fun slot ↦ ?_)
  have hfree (cache : DiskCacheBuffer) := exists_status_iff cache (0, slot) fun status ↦
    status.state = .free
  exact (hfree after).trans (hstatus ▸ (hfree cache).symm)

theorem served_congr (hstatus : statusAt after = statusAt cache) :
    Served after diskLocation malloc ↔ Served cache diskLocation malloc :=
  or_congr (cached_congr hstatus) (canTake_congr hstatus)

/-! ### Writes -/

/-- A read returns a block exactly when the location is cached, and leaves the statuses. -/
theorem readBlock_status (cache : DiskCacheBuffer) (diskLocation : UInt64) :
    statusAt (diskCacheReadBlock cache diskLocation).1 = statusAt cache ∧
      ((diskCacheReadBlock cache diskLocation).2 ≠ none ↔ Cached cache diskLocation) := by
  cases hfirst : firstPlace (fun block ↦ block.caches diskLocation) cache.grid with
  | none =>
    obtain ⟨hmissing, hgrid⟩ := readBlock_of_missing hfirst
    refine ⟨funext fun place ↦ by rw [statusAt, hgrid, statusAt], iff_of_false ?_ ?_⟩
    · exact not_not_intro hmissing
    · rintro ⟨place, block, hblock, hcaches⟩
      rw [firstPlace_eq_none_iff.mp hfirst place block hblock] at hcaches
      exact Bool.false_ne_true hcaches
  | some pointer =>
    obtain ⟨hfound, hgrid⟩ := readBlock_of_found hfirst
    refine ⟨statusAt_of_changeAt hgrid fun _ _ ↦ rfl, iff_of_true ?_ ?_⟩
    · rw [hfound]
      exact Option.some_ne_none pointer
    · exact ⟨pointer, cellAt_of_firstPlace hfirst⟩

/-- A block is taken exactly when there is one to take, which gets a status. Otherwise the statuses
are left. -/
theorem allocateBlock_status (cache : DiskCacheBuffer) (malloc : Option BlockData) :
    (diskCacheAllocateBlock cache 0 malloc).2 = none ∧ ¬ CanTake cache malloc ∧
        statusAt (diskCacheAllocateBlock cache 0 malloc).1 = statusAt cache ∨
      ∃ pointer status, (diskCacheAllocateBlock cache 0 malloc).2 = some pointer ∧
        CanTake cache malloc ∧ statusAt (diskCacheAllocateBlock cache 0 malloc).1 =
          Function.update (statusAt cache) pointer (some status) := by
  rcases allocateBlock_cases cache 0 malloc with ⟨hnone, hkeep, hused⟩ |
    ⟨slot, block, hblock, hfree, ⟨hmalloc, hnone, hgrid⟩ | ⟨data, hmalloc, hreturned, hgrid⟩⟩
  · refine Or.inl ⟨hnone, ?_, by rw [hkeep]⟩
    rintro ⟨-, slot, block, hblock, hfree⟩
    exact hused slot block hblock hfree
  · exact Or.inl ⟨hnone, fun htake ↦ htake.1 hmalloc,
      statusAt_of_changeAt hgrid fun _ _ ↦ rfl⟩
  · have htake : CanTake cache malloc :=
      ⟨hmalloc.symm ▸ Option.some_ne_none data, slot, block, hblock, hfree⟩
    exact Or.inr ⟨_, _, hreturned, htake, statusAt_of_changeAt_to hgrid hblock rfl⟩

/-- A write that is not served leaves the statuses, and one that is served leaves a dirty block at
some place and all others as they are. -/
theorem writeBlock_status (cache : DiskCacheBuffer) (diskLocation : UInt64) (data : BlockData)
    (malloc : Option BlockData) :
    ¬ Served cache diskLocation malloc ∧
        statusAt (diskCacheWriteBlock cache diskLocation (some data) malloc).1 = statusAt cache ∨
      Served cache diskLocation malloc ∧ ∃ pointer status, status.isDirty = true ∧
        statusAt (diskCacheWriteBlock cache diskLocation (some data) malloc).1 =
          Function.update (statusAt cache) pointer (some status) := by
  obtain ⟨hread, hcached⟩ := readBlock_status cache diskLocation
  unfold diskCacheWriteBlock
  dsimp only
  split
  · next pointer hfound =>
    have hserved : Cached cache diskLocation :=
      hcached.mp (hfound.symm ▸ Option.some_ne_none pointer)
    obtain ⟨block, hblock, -⟩ := used_of_readBlock hfound
    refine Or.inr ⟨Or.inl hserved, pointer, ⟨.dirty, block.diskLocation, true⟩, rfl, ?_⟩
    rw [← hread]
    exact statusAt_of_changeAt_to (grid_onBlock _) hblock rfl
  · next hmissing =>
    have hnot : ¬ Cached cache diskLocation := fun hcached' ↦ hcached.mpr hcached' hmissing
    have htakes : CanTake (diskCacheReadBlock cache diskLocation).1 malloc ↔
        CanTake cache malloc := canTake_congr hread
    rcases allocateBlock_status (diskCacheReadBlock cache diskLocation).1 malloc with
      ⟨hnone, hcannot, hkeep⟩ | ⟨pointer, status, hsome, hcan, htaken⟩
    · rw [hnone]
      exact Or.inl ⟨fun hserved ↦ hserved.elim hnot fun hcan ↦ hcannot (htakes.mpr hcan),
        hkeep.trans hread⟩
    · obtain ⟨block, hblock, -⟩ := used_of_allocateBlock hsome
      rw [hsome]
      refine Or.inr ⟨Or.inr (htakes.mp hcan), pointer, ⟨.dirty, diskLocation, true⟩, rfl, ?_⟩
      rw [← hread, ← Function.update_idem, ← htaken]
      exact statusAt_of_changeAt_to (grid_onBlock _) hblock rfl

/-- What a prefetch does to the statuses: none when no write of it is served, and otherwise it
leaves a dirty block. Whether a write is served can be told before the first one. -/
theorem statusAt_prefetchRounds (cache : DiskCacheBuffer) (startLocation : UInt64)
    (mallocs : ℕ → Option BlockData) (rounds : ℕ) :
    (∀ i < rounds, ¬ Served cache (startLocation + (i.toUInt32 * 8192).toUInt64) (mallocs i)) ∧
        statusAt (prefetchRounds cache startLocation mallocs rounds) = statusAt cache ∨
      (∃ i < rounds, Served cache (startLocation + (i.toUInt32 * 8192).toUInt64) (mallocs i)) ∧
        ∃ place status, status.isDirty = true ∧
          statusAt (prefetchRounds cache startLocation mallocs rounds) place = some status := by
  induction rounds with
  | zero => exact Or.inl ⟨fun _ hlt ↦ absurd hlt (Nat.not_lt_zero _), rfl⟩
  | succ rounds ih =>
    rw [prefetchRounds_succ]
    have hwrite := writeBlock_status (prefetchRounds cache startLocation mallocs rounds)
      (startLocation + (rounds.toUInt32 * 8192).toUInt64) (fun _ ↦ 0) (mallocs rounds)
    rcases ih with ⟨hnone, hsame⟩ | ⟨⟨i, hlt, hserved⟩, place, old, hdirty, hplace⟩
    · rw [served_congr hsame, hsame] at hwrite
      rcases hwrite with ⟨hlast, hkeep⟩ | ⟨hlast, pointer, status, hdirty, hupdate⟩
      · refine Or.inl ⟨fun i hlt ↦ ?_, hkeep⟩
        rcases Nat.lt_succ_iff_lt_or_eq.mp hlt with hearlier | rfl
        · exact hnone i hearlier
        · exact hlast
      · refine Or.inr ⟨⟨rounds, Nat.lt_succ_self rounds, hlast⟩, pointer, status, hdirty, ?_⟩
        rw [hupdate, Function.update_self]
    · refine Or.inr ⟨⟨i, Nat.lt_succ_of_lt hlt, hserved⟩, ?_⟩
      rcases hwrite with ⟨-, hkeep⟩ | ⟨-, pointer, status, hwritten, hupdate⟩
      · exact ⟨place, old, hdirty, hkeep ▸ hplace⟩
      · refine ⟨pointer, status, hwritten, ?_⟩
        rw [hupdate, Function.update_self]

/-! ### Clean caches -/

/-- The counters of the pools. -/
def DiskCacheBuffer.dirtyCounts (cache : DiskCacheBuffer) : List UInt32 :=
  cache.pools.map BufferPool.dirtyCount

theorem dirtyCounts_counters (bufferSize allocated reads writes flushes : UInt64)
    (hits misses nextId : UInt32) :
    (DiskCacheBuffer.mk cache.pools bufferSize allocated reads writes flushes hits misses
      nextId).dirtyCounts = cache.dirtyCounts := rfl

theorem dirtyCounts_onBlock (change : BufferBlock → BufferBlock) :
    (cache.onBlock pointer change).dirtyCounts = cache.dirtyCounts :=
  map_modify_of_keep (by intro; rfl) _

theorem dirtyCounts_onPool {change : BufferPool → BufferPool} (i : ℕ)
    (hkeep : ∀ pool, (change pool).dirtyCount = pool.dirtyCount) :
    (cache.onPool i change).dirtyCounts = cache.dirtyCounts :=
  map_modify_of_keep hkeep _

theorem dirtyCounts_readBlock (cache : DiskCacheBuffer) (diskLocation : UInt64) :
    (diskCacheReadBlock cache diskLocation).1.dirtyCounts = cache.dirtyCounts := by
  unfold diskCacheReadBlock
  split
  · dsimp only
    rw [dirtyCounts_counters, dirtyCounts_onPool, dirtyCounts_onBlock]
    exact fun _ ↦ rfl
  · rfl

theorem dirtyCounts_allocateBlock (cache : DiskCacheBuffer) (poolId : UInt32)
    (malloc : Option BlockData) :
    (diskCacheAllocateBlock cache poolId malloc).1.dirtyCounts = cache.dirtyCounts := by
  unfold diskCacheAllocateBlock
  split
  · rfl
  · split
    · rfl
    · cases malloc with
      | none =>
        dsimp only
        rw [dirtyCounts_counters, dirtyCounts_onBlock]
      | some data =>
        dsimp only
        rw [dirtyCounts_counters, dirtyCounts_onPool, dirtyCounts_onBlock, dirtyCounts_counters,
          dirtyCounts_onBlock]
        exact fun _ ↦ rfl

/-- A write counts nothing, whether or not it is served. -/
theorem dirtyCounts_writeBlock (cache : DiskCacheBuffer) (diskLocation : UInt64)
    (data malloc : Option BlockData) :
    (diskCacheWriteBlock cache diskLocation data malloc).1.dirtyCounts = cache.dirtyCounts := by
  have hread := dirtyCounts_readBlock cache diskLocation
  unfold diskCacheWriteBlock
  split
  · rfl
  · dsimp only
    split
    · exact (dirtyCounts_onBlock _).trans hread
    · have hallocated :=
        dirtyCounts_allocateBlock (diskCacheReadBlock cache diskLocation).1 0 malloc
      split
      · exact hallocated.trans hread
      · exact (dirtyCounts_onBlock _).trans (hallocated.trans hread)

theorem dirtyCounts_prefetchRounds (cache : DiskCacheBuffer) (startLocation : UInt64)
    (mallocs : ℕ → Option BlockData) (rounds : ℕ) :
    (prefetchRounds cache startLocation mallocs rounds).dirtyCounts = cache.dirtyCounts := by
  induction rounds with
  | zero => rfl
  | succ rounds ih => rw [prefetchRounds_succ, dirtyCounts_writeBlock, ih]

/-- A cache is clean when all counters are 0 and no status is that of a dirty block. -/
theorem clean_iff :
    Clean cache ↔ (∀ count ∈ cache.dirtyCounts, count = 0) ∧
      ∀ place status, statusAt cache place = some status → status.isDirty = false := by
  constructor
  · intro hclean
    refine ⟨fun count hcount ↦ ?_, fun place status hstatus ↦ ?_⟩
    · obtain ⟨pool, hpool, rfl⟩ := List.mem_map.mp hcount
      exact (hclean pool hpool).dirtyCount
    · obtain ⟨block, hblock, rfl⟩ := statusAt_eq_some_iff.mp hstatus
      obtain ⟨pool, hpool, hfound⟩ := cellAt_grid_iff.mp hblock
      exact (hclean pool (List.mem_of_getElem? hpool)).blocks block (List.mem_of_getElem? hfound)
  · rintro ⟨hcounts, hstatuses⟩ pool hpool
    refine ⟨hcounts _ (List.mem_map_of_mem hpool), fun block hblock ↦ ?_⟩
    obtain ⟨i, hi⟩ := List.mem_iff_getElem?.mp hpool
    obtain ⟨j, hj⟩ := List.mem_iff_getElem?.mp hblock
    exact hstatuses (i, j) block.status
      (statusAt_eq_some_iff.mpr ⟨block, cellAt_grid_iff.mpr ⟨pool, hi, hj⟩, rfl⟩)

/-- With all counters 0, the counters are right exactly when no block is dirty. -/
theorem dirtyBlocksCounted_iff_clean (hcounts : ∀ count ∈ cache.dirtyCounts, count = 0) :
    DirtyBlocksCounted cache ↔ Clean cache := by
  refine forall₂_congr fun pool hpool ↦ ?_
  have hzero : pool.dirtyCount = 0 := hcounts _ (List.mem_map_of_mem hpool)
  rw [hzero, UInt32.toNat_zero, eq_comm, List.countP_eq_zero]
  constructor
  · exact fun hnone ↦ ⟨hzero, fun block hblock ↦ Bool.not_eq_true _ ▸ hnone block hblock⟩
  · intro hclean block hblock
    rw [hclean.blocks block hblock]
    exact Bool.false_ne_true

/-- The counters of a clean cache are right. -/
theorem Clean.dirtyBlocksCounted (hclean : Clean cache) : DirtyBlocksCounted cache :=
  (dirtyBlocksCounted_iff_clean (clean_iff.mp hclean).1).mpr hclean

theorem clean_counters (bufferSize allocated reads writes flushes : UInt64)
    (hits misses nextId : UInt32) :
    Clean (DiskCacheBuffer.mk cache.pools bufferSize allocated reads writes flushes hits misses
      nextId) ↔ Clean cache := Iff.rfl

theorem Clean.onPool (hclean : Clean cache) {change : BufferPool → BufferPool} (i : ℕ)
    (hkeep : ∀ pool, pool.Clean → (change pool).Clean) : Clean (cache.onPool i change) :=
  forall_mem_modify hclean hkeep i

/-- A cache stays clean when a block is changed that does not get dirty. -/
theorem Clean.onBlock (hclean : Clean cache) {change : BufferBlock → BufferBlock}
    (pointer : BlockPtr)
    (hkeep : ∀ block, block.isDirty = false → (change block).isDirty = false) :
    Clean (cache.onBlock pointer change) := by
  refine Clean.onPool hclean pointer.1 fun pool hpool ↦ ⟨hpool.dirtyCount, ?_⟩
  exact forall_mem_modify hpool.blocks hkeep _

theorem Clean.readBlock (hclean : Clean cache) (diskLocation : UInt64) :
    Clean (diskCacheReadBlock cache diskLocation).1 := by
  unfold diskCacheReadBlock
  split
  · dsimp only
    rw [clean_counters]
    refine Clean.onPool (hclean.onBlock _ ?_) _ fun pool hpool ↦ ?_
    · exact fun _ hblock ↦ hblock
    · exact ⟨hpool.dirtyCount, hpool.blocks⟩
  · exact hclean

theorem Clean.allocateBlock (hclean : Clean cache) (poolId : UInt32) (malloc : Option BlockData) :
    Clean (diskCacheAllocateBlock cache poolId malloc).1 := by
  unfold diskCacheAllocateBlock
  split
  · exact hclean
  · split
    · exact hclean
    · cases malloc with
      | none =>
        dsimp only
        rw [clean_counters]
        exact hclean.onBlock _ fun _ hblock ↦ hblock
      | some data =>
        dsimp only
        rw [clean_counters]
        refine Clean.onPool (Clean.onBlock ?_ _ ?_) _ fun pool hpool ↦ ?_
        · rw [clean_counters]
          exact hclean.onBlock _ fun _ hblock ↦ hblock
        · exact fun _ _ ↦ rfl
        · exact ⟨hpool.dirtyCount, hpool.blocks⟩

theorem Clean.setPinned (hclean : Clean cache) (blockId : UInt32) (pinned : Bool) :
    Clean (setPinned cache blockId pinned).1 := by
  unfold DiskCache.setPinned
  split
  · exact hclean
  · exact hclean.onBlock _ fun _ hblock ↦ hblock

theorem Clean.deallocateBlock (hclean : Clean cache) (poolId blockId : UInt32) :
    Clean (diskCacheDeallocateBlock cache poolId blockId).1 := by
  unfold diskCacheDeallocateBlock
  split
  · exact hclean
  · split
    · exact hclean
    · next pointer _ _ block hblock =>
      split
      · exact hclean
      · have hdirty : block.isDirty = false := (clean_iff.mp hclean).2 pointer _
          (statusAt_eq_some_iff.mpr ⟨block, hblock, rfl⟩)
        simp only [hdirty, Bool.false_eq_true, if_false]
        rw [clean_counters]
        refine Clean.onBlock (hclean.onPool _ fun pool hpool ↦ ?_) _ ?_
        · exact ⟨hpool.dirtyCount, hpool.blocks⟩
        · exact fun _ _ ↦ rfl

/-- A flush of a clean pool writes nothing back. -/
theorem BufferPool.Clean.countP_flushed {pool : BufferPool} (hpool : pool.Clean) :
    pool.blocks.countP BufferBlock.flushed = 0 := by
  refine List.countP_eq_zero.mpr fun block hblock hflushed ↦ ?_
  rw [BufferBlock.flushed, hpool.blocks block hblock, Bool.false_and] at hflushed
  exact Bool.false_ne_true hflushed

theorem Clean.flushBlocks (hclean : Clean cache) (poolId : UInt32) :
    Clean (diskCacheFlushBlocks cache poolId).1 := by
  unfold diskCacheFlushBlocks
  split
  · exact hclean
  · next pool hpool =>
    dsimp only
    rw [clean_counters, (hclean pool (List.mem_of_getElem? hpool)).countP_flushed]
    refine hclean.onPool _ fun pool hpool ↦ ⟨?_, fun block hblock ↦ ?_⟩
    · rw [hpool.dirtyCount]
      rfl
    · obtain ⟨before, hbefore, rfl⟩ := List.mem_map.mp hblock
      split_ifs
      · rfl
      · exact hpool.blocks before hbefore

theorem Clean.flushAll (hclean : Clean cache) : Clean (diskCacheFlushAll cache).1 := by
  refine runFrom_invariant (fun total : DiskCacheBuffer × UInt32 ↦ Clean total.1)
    (fun _ _ ↦ True) (fun total i hbefore _ ↦ ?_) hclean (fun _ _ _ ↦ trivial)
  exact Clean.flushBlocks hbefore _

/-! ### Single calls -/

/-- When the counters are those of a clean cache, the cache is clean exactly when no status is that
of a dirty block. -/
theorem clean_iff_of_dirtyCounts (hclean : Clean cache)
    (hcounts : after.dirtyCounts = cache.dirtyCounts) :
    Clean after ↔ ∀ place status, statusAt after place = some status → status.isDirty = false := by
  rw [clean_iff, hcounts, and_iff_right (clean_iff.mp hclean).1]

/-- Assumes: a clean cache. It stays clean exactly when the write is not served. -/
theorem clean_writeBlock_iff (hclean : Clean cache) (diskLocation : UInt64) (data : BlockData)
    (malloc : Option BlockData) :
    Clean (diskCacheWriteBlock cache diskLocation (some data) malloc).1 ↔
      ¬ Served cache diskLocation malloc := by
  rw [clean_iff_of_dirtyCounts hclean (dirtyCounts_writeBlock _ _ _ _)]
  rcases writeBlock_status cache diskLocation data malloc with
    ⟨hnot, hkeep⟩ | ⟨hserved, pointer, status, hdirty, hupdate⟩
  · rw [hkeep]
    exact iff_of_true (clean_iff.mp hclean).2 hnot
  · refine iff_of_false (fun hnone ↦ ?_) (not_not_intro hserved)
    have hwritten := hnone pointer status (by rw [hupdate, Function.update_self])
    exact Bool.false_ne_true (hwritten.symm.trans hdirty)

/-- Assumes: a clean cache. It stays clean exactly when no write of the prefetch is served. -/
theorem clean_prefetchRounds_iff (hclean : Clean cache) (startLocation : UInt64)
    (mallocs : ℕ → Option BlockData) (rounds : ℕ) :
    Clean (prefetchRounds cache startLocation mallocs rounds) ↔ ∀ i < rounds,
      ¬ Served cache (startLocation + (i.toUInt32 * 8192).toUInt64) (mallocs i) := by
  rw [clean_iff_of_dirtyCounts hclean (dirtyCounts_prefetchRounds _ _ _ _)]
  rcases statusAt_prefetchRounds cache startLocation mallocs rounds with
    ⟨hnone, hkeep⟩ | ⟨⟨i, hlt, hserved⟩, place, status, hdirty, hplace⟩
  · rw [hkeep]
    exact iff_of_true (clean_iff.mp hclean).2 hnone
  · refine iff_of_false (fun hall ↦ ?_) fun hnot ↦ hnot i hlt hserved
    exact Bool.false_ne_true ((hall place status hplace).symm.trans hdirty)

/-- Assumes: a clean cache. After a call its counters are right, and it is clean, exactly when the
call makes no write that is served. -/
theorem clean_step_iff (hclean : Clean cache) (call : BufferCall) :
    (DirtyBlocksCounted (bufferStep cache call) ↔ ServesNoWrite cache call) ∧
      (Clean (bufferStep cache call) ↔ ServesNoWrite cache call) := by
  have hcounts := (clean_iff.mp hclean).1
  -- the counters of a cache that is clean are right
  have hkept (hnext : Clean (bufferStep cache call)) (hcall : ServesNoWrite cache call) :
      (DirtyBlocksCounted (bufferStep cache call) ↔ ServesNoWrite cache call) ∧
        (Clean (bufferStep cache call) ↔ ServesNoWrite cache call) :=
    ⟨iff_of_true hnext.dirtyBlocksCounted hcall, iff_of_true hnext hcall⟩
  cases call with
  | allocateBlock poolId malloc => exact hkept (hclean.allocateBlock poolId malloc) trivial
  | prefetchBlocks startLocation count malloc =>
    simp only [bufferStep, diskCachePrefetchBlocks, ServesNoWrite]
    split_ifs with hzero
    · subst hzero
      have hnone : ∀ i < (0 : UInt32).toNat,
          ¬ Served cache (startLocation + (i.toUInt32 * 8192).toUInt64) (malloc i) :=
        fun i hlt ↦ absurd hlt (Nat.not_lt_zero i)
      exact ⟨iff_of_true hclean.dirtyBlocksCounted hnone, iff_of_true hclean hnone⟩
    · have hrounds := clean_prefetchRounds_iff hclean startLocation malloc count.toNat
      refine ⟨?_, hrounds⟩
      rw [← hrounds, dirtyBlocksCounted_iff_clean]
      rw [dirtyCounts_prefetchRounds]
      exact hcounts
  | call call =>
    cases call with
    | writeBlock diskLocation data malloc =>
      cases data with
      | none => exact hkept hclean fun hdata ↦ absurd rfl hdata
      | some data =>
        have hwrite := clean_writeBlock_iff hclean diskLocation data malloc
        simp only [bufferStep, diskCacheStep, ServesNoWrite]
        rw [imp_iff_right (Option.some_ne_none data), ← hwrite, dirtyBlocksCounted_iff_clean]
        · exact ⟨Iff.rfl, Iff.rfl⟩
        · rw [dirtyCounts_writeBlock]
          exact hcounts
    | readBlock diskLocation => exact hkept (hclean.readBlock diskLocation) trivial
    | flushBlocks poolId => exact hkept (hclean.flushBlocks poolId) trivial
    | flushAll => exact hkept hclean.flushAll trivial
    | lockBlock blockId => exact hkept (hclean.setPinned blockId true) trivial
    | unlockBlock blockId => exact hkept (hclean.setPinned blockId false) trivial
    | deallocateBlock poolId blockId => exact hkept (hclean.deallocateBlock poolId blockId) trivial

/-- No call takes a counter of a clean cache below 0. -/
theorem Clean.noDirtyUnderflow (hclean : Clean cache) (call : BufferCall) :
    NoDirtyUnderflow cache call := by
  have hcovers : ∀ pool ∈ cache.pools, pool.CoversFlush := by
    intro pool hpool
    rw [BufferPool.CoversFlush, (hclean pool hpool).countP_flushed]
    exact Nat.zero_le _
  unfold NoDirtyUnderflow
  split
  · exact fun pool hpool ↦ hcovers pool (List.mem_of_getElem? hpool)
  · exact hcovers
  · intro pointer pool block _ hpool hblock _ hdirty
    rw [(hclean pool (List.mem_of_getElem? hpool)).blocks block (List.mem_of_getElem? hblock)]
      at hdirty
    exact absurd hdirty Bool.false_ne_true
  · trivial

/-! ### Runs -/

/-- A new cache is clean. -/
theorem clean_init {bufferSize : UInt64} {poolCount nextBlockId : UInt32}
    (hinit : diskCacheInit bufferSize poolCount nextBlockId = some cache) : Clean cache := by
  unfold diskCacheInit at hinit
  split_ifs at hinit
  obtain rfl := Option.some.inj hinit
  intro pool hpool
  obtain ⟨i, -, rfl⟩ := List.mem_map.mp hpool
  refine ⟨rfl, fun block hblock ↦ ?_⟩
  rw [List.eq_of_mem_replicate hblock]
  rfl

/-- The dirty counters of a disk cache over every run. Along the run every pool counts its dirty
blocks, and no call takes a counter below 0, exactly when no write is served. -/
theorem dirtyBlocksCounted_alongRun_iff {bufferSize : UInt64} {poolCount nextBlockId : UInt32}
    (hinit : diskCacheInit bufferSize poolCount nextBlockId = some cache)
    (calls : List BufferCall) :
    AlongRun bufferStep DirtyBlocksCounted cache calls ∧
        EveryStep bufferStep NoDirtyUnderflow cache calls ↔
      EveryStep bufferStep ServesNoWrite cache calls :=
  alongRun_and_everyStep_iff_of_kept Clean (fun _ _ ↦ True)
    (fun _ call hclean _ hcall ↦ (clean_step_iff hclean call).2.mpr hcall)
    (fun _ hclean ↦ hclean.dirtyBlocksCounted)
    (fun _ call hclean _ ↦ (and_iff_left (hclean.noDirtyUnderflow call)).trans
      (clean_step_iff hclean call).1)
    (clean_init hinit) (fun _ _ _ ↦ trivial)

end OneOS.DiskCache
