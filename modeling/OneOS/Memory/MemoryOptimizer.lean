import Mathlib.Data.Int.Order.Basic
import OneOS.Foundation.LeastRows
import OneOS.Foundation.Table

/-!
# The memory optimizer

`mm/memory_optimization.c`: the registered memory regions, which can be compressed and swapped out,
and the table of cache entries. The result of `time` is an input of the calls that read the clock.
The checks of the optimizer pointer against `NULL` are not modelled; neither are the floating point
ratios, which no operation here reads, and the table of duplicates, which shares no data with the
regions and the cache entries.

`mem_opt_cache_evict` removes the entry used longest ago, as often as it is asked to, whatever the
cache policy: `memOptCacheEvict_least` says what it leaves.
-/

set_option autoImplicit false
set_option relaxedAutoImplicit false

namespace OneOS.Memory.Optimizer

open Foundation

/-! ### The optimizer -/

/-- `MAX_MEMORY_REGIONS`. -/
def maxMemoryRegions : ℕ := 2048

/-- `MAX_CACHE_ENTRIES`. -/
def maxCacheEntries : ℕ := 2048

/-- `CompressionType`. -/
inductive CompressionType
  | none
  | lz4
  | zstd
  | gzip
  deriving DecidableEq, Repr

/-- `CachePolicy`. -/
inductive CachePolicy
  | lru
  | lfu
  | fifo
  | arc
  deriving DecidableEq, Repr

/-- `MemoryRegion`. -/
structure MemoryRegion where
  regionId : UInt32
  address : UInt64
  size : UInt32
  compression : CompressionType
  compressedSize : UInt32
  accessCount : UInt32
  lastAccessed : ℤ
  isCompressed : Bool
  isSwapped : Bool
  deriving DecidableEq, Repr

/-- `CacheEntry`. -/
structure CacheEntry where
  cacheId : UInt32
  address : UInt64
  size : UInt32
  policy : CachePolicy
  accessCount : UInt32
  lastAccessed : ℤ
  createdTime : ℤ
  isDirty : Bool
  deriving DecidableEq, Repr

/-- `MemoryOptimizer`, with the used rows `regions[0 .. region_count)` and
`cache[0 .. cache_count)` as lists. -/
structure MemoryOptimizer where
  regions : List MemoryRegion
  cache : List CacheEntry
  totalMemory : UInt64
  usedMemory : UInt64
  compressedMemory : UInt64
  defaultCachePolicy : CachePolicy
  deriving DecidableEq, Repr

/-- `mem_opt_init`. -/
def memOptInit (totalMem : UInt64) : MemoryOptimizer where
  regions := []
  cache := []
  totalMemory := totalMem
  usedMemory := 0
  compressedMemory := 0
  defaultCachePolicy := .lru

/-! ### Regions -/

/-- `mem_opt_register_region`. The identifier is the number of regions after the call. -/
def memOptRegisterRegion (optimizer : MemoryOptimizer) (address : UInt64) (size : UInt32)
    (compression : CompressionType) (now : ℤ) : MemoryOptimizer × UInt32 :=
  if maxMemoryRegions ≤ optimizer.regions.length then (optimizer, 0)
  else if size = 0 then (optimizer, 0)
  else
    let regionId := UInt32.ofNat optimizer.regions.length + 1
    ({ optimizer with
      regions := optimizer.regions ++ [⟨regionId, address, size, compression, size, 0, now, false,
        false⟩]
      usedMemory := optimizer.usedMemory + size.toUInt64 }, regionId)

/-- The test of the loops that look a region up by its identifier. -/
def hasRegionId (regionId : UInt32) (region : MemoryRegion) : Bool :=
  region.regionId == regionId

/-- `mem_opt_unregister_region`. -/
def memOptUnregisterRegion (optimizer : MemoryOptimizer) (regionId : UInt32) :
    MemoryOptimizer × Int :=
  match optimizer.regions.find? (hasRegionId regionId) with
  | none => (optimizer, -1)
  | some region =>
    ({ optimizer with
      usedMemory := optimizer.usedMemory - region.size.toUInt64
      regions := optimizer.regions.eraseP (hasRegionId regionId) }, 0)

/-- The effect of `mem_opt_get_region` on the region it finds. -/
def MemoryRegion.touch (now : ℤ) (region : MemoryRegion) : MemoryRegion :=
  { region with accessCount := region.accessCount + 1, lastAccessed := now }

/-- `mem_opt_get_region`, with the region that the returned pointer leads to. -/
def memOptGetRegion (optimizer : MemoryOptimizer) (regionId : UInt32) (now : ℤ) :
    MemoryOptimizer × Option MemoryRegion :=
  ({ optimizer with
    regions := updateFirst (hasRegionId regionId) (MemoryRegion.touch now) optimizer.regions },
    (optimizer.regions.find? (hasRegionId regionId)).map (MemoryRegion.touch now))

/-- A change through the pointer that `mem_opt_get_region` returned. -/
def MemoryOptimizer.changeRegion (optimizer : MemoryOptimizer) (regionId : UInt32)
    (change : MemoryRegion → MemoryRegion) : MemoryOptimizer :=
  { optimizer with regions := updateFirst (hasRegionId regionId) change optimizer.regions }

/-- The size that `mem_opt_compress_region` computes, with a product of 32 bits. -/
def MemoryRegion.sizeCompressed (region : MemoryRegion) : UInt32 :=
  region.size * 70 / 100

/-- `mem_opt_compress_region`. -/
def memOptCompressRegion (optimizer : MemoryOptimizer) (regionId : UInt32) (now : ℤ) :
    MemoryOptimizer × Int :=
  match memOptGetRegion optimizer regionId now with
  | (touched, none) => (touched, -1)
  | (touched, some region) =>
    if region.compression = .none then (touched, -1)
    else
      ({ touched.changeRegion regionId
          ({ · with compressedSize := region.sizeCompressed, isCompressed := true }) with
        compressedMemory :=
          touched.compressedMemory + (region.size - region.sizeCompressed).toUInt64 }, 0)

/-- `mem_opt_decompress_region`. -/
def memOptDecompressRegion (optimizer : MemoryOptimizer) (regionId : UInt32) (now : ℤ) :
    MemoryOptimizer × Int :=
  match memOptGetRegion optimizer regionId now with
  | (touched, none) => (touched, -1)
  | (touched, some region) =>
    if region.isCompressed then
      ({ touched.changeRegion regionId
          ({ · with isCompressed := false, compressedSize := region.size }) with
        compressedMemory :=
          touched.compressedMemory - (region.size - region.compressedSize).toUInt64 }, 0)
    else (touched, -1)

/-- One turn of the loop of `mem_opt_compress_all`, at row `i`, with what the clock says then. -/
def compressTurn (now : ℕ → ℤ) (optimizer : MemoryOptimizer) (i : ℕ) : MemoryOptimizer :=
  match optimizer.regions[i]? with
  | none => optimizer
  | some region => (memOptCompressRegion optimizer region.regionId (now i)).1

/-- `mem_opt_compress_all`. -/
def memOptCompressAll (optimizer : MemoryOptimizer) (now : ℕ → ℤ) : MemoryOptimizer × Int :=
  ((List.range optimizer.regions.length).foldl (compressTurn now) optimizer, 0)

/-- `mem_opt_swap_out`. -/
def memOptSwapOut (optimizer : MemoryOptimizer) (regionId : UInt32) (now : ℤ) :
    MemoryOptimizer × Int :=
  match memOptGetRegion optimizer regionId now with
  | (touched, none) => (touched, -1)
  | (touched, some region) =>
    ({ touched.changeRegion regionId ({ · with isSwapped := true }) with
      usedMemory := touched.usedMemory - region.size.toUInt64 }, 0)

/-- `mem_opt_swap_in`. -/
def memOptSwapIn (optimizer : MemoryOptimizer) (regionId : UInt32) (now : ℤ) :
    MemoryOptimizer × Int :=
  match memOptGetRegion optimizer regionId now with
  | (touched, none) => (touched, -1)
  | (touched, some region) =>
    ({ touched.changeRegion regionId ({ · with isSwapped := false }) with
      usedMemory := touched.usedMemory + region.size.toUInt64 }, 0)

/-! ### Cache entries -/

/-- `mem_opt_cache_allocate`. The clock is read twice. -/
def memOptCacheAllocate (optimizer : MemoryOptimizer) (address : UInt64) (size : UInt32)
    (created accessed : ℤ) : MemoryOptimizer × UInt32 :=
  if maxCacheEntries ≤ optimizer.cache.length then (optimizer, 0)
  else
    let cacheId := UInt32.ofNat optimizer.cache.length + 1
    ({ optimizer with
      cache := optimizer.cache ++ [⟨cacheId, address, size, optimizer.defaultCachePolicy, 0,
        accessed, created, false⟩] }, cacheId)

/-- `mem_opt_cache_deallocate`. -/
def memOptCacheDeallocate (optimizer : MemoryOptimizer) (cacheId : UInt32) :
    MemoryOptimizer × Int :=
  if optimizer.cache.any (fun entry ↦ entry.cacheId == cacheId) then
    ({ optimizer with cache := optimizer.cache.eraseP fun entry ↦ entry.cacheId == cacheId }, 0)
  else (optimizer, -1)

/-- One turn of the loop of `mem_opt_cache_evict`: the entry at `lru_idx` is removed, when there is
an entry at all. -/
def evictTurn (cache : List CacheEntry) : List CacheEntry :=
  if 0 < cache.length then removeLeast CacheEntry.lastAccessed cache else cache

/-- `mem_opt_cache_evict`. -/
def memOptCacheEvict (optimizer : MemoryOptimizer) (count : UInt32) : MemoryOptimizer × Int :=
  if optimizer.cache.length < count.toNat then (optimizer, -1)
  else ({ optimizer with cache := evictTurn^[count.toNat] optimizer.cache }, 0)

/-- `mem_opt_cache_set_policy`. -/
def memOptCacheSetPolicy (optimizer : MemoryOptimizer) (policy : CachePolicy) :
    MemoryOptimizer × Int :=
  ({ optimizer with defaultCachePolicy := policy }, 0)

/-! ### What eviction leaves -/

/-- An empty cache has no entry to remove, and stays as it is without the test. -/
theorem evictTurn_eq_removeLeast : evictTurn = removeLeast CacheEntry.lastAccessed := by
  funext cache
  rw [evictTurn, ite_eq_left_iff, Nat.not_lt, Nat.le_zero, List.length_eq_zero_iff]
  rintro rfl
  rfl

/-- Bulk eviction, for every content of the cache and every count. A count beyond the number of
entries is refused and changes nothing. Otherwise as many entries are removed as asked for, none of
them used later than an entry that stays; the entries that stay keep their values and their order,
and everything else is as it was. -/
theorem memOptCacheEvict_least (optimizer : MemoryOptimizer) (count : UInt32) :
    (optimizer.cache.length < count.toNat ∧ memOptCacheEvict optimizer count = (optimizer, -1)) ∨
      (count.toNat ≤ optimizer.cache.length ∧ ∃ removed kept,
        memOptCacheEvict optimizer count = ({ optimizer with cache := kept }, 0) ∧
          removed.length = count.toNat ∧
          LeastRemoved CacheEntry.lastAccessed optimizer.cache removed kept) := by
  rw [memOptCacheEvict]
  by_cases hcount : optimizer.cache.length < count.toNat
  · exact Or.inl ⟨hcount, if_pos hcount⟩
  · have hle := Nat.le_of_not_lt hcount
    obtain ⟨removed, hlength, hremoved⟩ :=
      removeLeast_iterate CacheEntry.lastAccessed hle
    refine Or.inr ⟨hle, removed, _, ?_, hlength, hremoved⟩
    rw [if_neg hcount, evictTurn_eq_removeLeast]

end OneOS.Memory.Optimizer
