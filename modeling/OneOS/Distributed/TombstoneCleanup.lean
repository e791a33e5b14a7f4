import OneOS.Distributed.DistributedStorage
import OneOS.Foundation.Compaction
import OneOS.Foundation.StoredTables
import OneOS.Foundation.StringSearch

/-!
# Cleaning up tombstones

`storage_cleanup_tombstones` moves the blocks that are no tombstones to the front of the array of
blocks, in place. Four calls read blocks: `storage_get`, `storage_exists`, `storage_range_query` and
`storage_scan_keys`. Each of them passes over tombstones, so none can tell a storage from what the
cleanup makes of it (`cleanupTombstones_invisible`).

The range query and the scan copy blocks into memory that they allocate first; whether there is
memory is an input.
-/

set_option autoImplicit false
set_option relaxedAutoImplicit false

namespace OneOS.Distributed.Storage

open Foundation

/-! ### Reading many blocks -/

/-- `RangeQuery`, as far as the caller fills it in. -/
structure RangeQuery where
  startKey : CString
  endKey : CString
  limit : UInt32
  deriving DecidableEq, Repr

/-- The block is in the range of the query and is no tombstone. -/
def RangeQuery.selects (query : RangeQuery) (block : DataBlock) : Bool :=
  strcmp block.key query.startKey ≠ .lt && strcmp block.key query.endKey ≠ .gt &&
    !block.isTombstone

/-- `storage_range_query`: the blocks that are copied out, or none without memory for them. -/
def storageRangeQuery (storage : DistributedStorage) (query : RangeQuery) (malloc : Bool) :
    Option (List DataBlock) :=
  if malloc then some (collect query.selects query.limit.toNat storage.dataBlocks) else none

/-- The key of the block contains the pattern and the block is no tombstone. -/
def scanSelects (pattern : CString) (block : DataBlock) : Bool :=
  strstr block.key pattern && !block.isTombstone

/-- `storage_scan_keys`: the blocks that are copied out, or none without memory for them. -/
def storageScanKeys (storage : DistributedStorage) (pattern : CString) (malloc : Bool) :
    Option (List DataBlock) :=
  if malloc then some (storage.dataBlocks.filter (scanSelects pattern)) else none

/-! ### The cleanup -/

/-- The block is no tombstone. -/
def DataBlock.isLive (block : DataBlock) : Bool :=
  !block.isTombstone

/-- The loop of `storage_cleanup_tombstones`: the array of blocks and the number of those that are
in use afterwards. -/
def cleanupLoop (blocks : ℕ → DataBlock) (totalDataBlocks : ℕ) : (ℕ → DataBlock) × ℕ :=
  compact DataBlock.isLive totalDataBlocks blocks

/-- No call that reads blocks can tell the two storages apart. -/
structure ReadAlike (first second : DistributedStorage) : Prop where
  get : ∀ key, (storageGet first key).2 = (storageGet second key).2
  tells : ∀ key, storageExists first key = storageExists second key
  ranges : ∀ query malloc,
    storageRangeQuery first query malloc = storageRangeQuery second query malloc
  scans : ∀ pattern malloc,
    storageScanKeys first pattern malloc = storageScanKeys second pattern malloc

/-- The blocks that the loop leaves in use are those that are kept, wherever the blocks stand in the
array and whatever is behind them. -/
def CleanedInPlace (storage cleaned : DistributedStorage) : Prop :=
  ∀ (blocks : ℕ → DataBlock) (totalDataBlocks : ℕ),
    firstOf blocks totalDataBlocks = storage.dataBlocks →
      firstOf (cleanupLoop blocks totalDataBlocks).1 (cleanupLoop blocks totalDataBlocks).2 =
        cleaned.dataBlocks

variable {storage : DistributedStorage} {key pattern : CString} {query : RangeQuery}
variable {block : DataBlock}

theorem dataBlocks_cleanupTombstones :
    (storageCleanupTombstones storage).1.dataBlocks =
      storage.dataBlocks.filter DataBlock.isLive := rfl

/-! ### Only live blocks are read -/

/-- A range query selects live blocks. -/
theorem RangeQuery.isLive_of_selects (hselects : query.selects block = true) :
    block.isLive = true := by
  rw [RangeQuery.selects, Bool.and_eq_true] at hselects
  exact hselects.2

/-- A scan selects live blocks. -/
theorem isLive_of_scanSelects (hselects : scanSelects pattern block = true) :
    block.isLive = true := by
  rw [scanSelects, Bool.and_eq_true] at hselects
  exact hselects.2

/-- The range of a single key holds the live blocks with the key. -/
theorem selects_single (hquery : query.startKey = key ∧ query.endKey = key) :
    query.selects block = liveAt key block := by
  obtain ⟨hstart, hend⟩ := hquery
  have hcompare : (strcmp block.key key ≠ .lt ∧ strcmp block.key key ≠ .gt) ↔ block.key = key := by
    rw [← strcmp_eq_iff]
    cases strcmp block.key key <;> simp
  rw [RangeQuery.selects, hstart, hend, liveAt, ← Bool.decide_and, decide_eq_decide.mpr hcompare]

/-- A get returns the value of the first block that a query of its key alone copies out. -/
theorem storageGet_eq_rangeQuery (hquery : query.startKey = key ∧ query.endKey = key)
    (hlimit : 0 < query.limit.toNat) :
    (storageGet storage key).2 =
      (storageRangeQuery storage query true).bind fun blocks ↦
        blocks.head?.map DataBlock.value := by
  have hselects : query.selects = liveAt key := funext fun _ ↦ selects_single hquery
  rw [storageGet_snd, valueAt, storageRangeQuery, if_pos rfl, Option.bind_some, collect_eq,
    hselects, List.head?_take, if_neg (Nat.ne_of_gt hlimit), List.head?_filter]

/-! ### What the cleanup leaves -/

/-- No call that reads blocks can tell whether tombstones have been removed. -/
theorem readAlike_cleanupTombstones :
    ReadAlike (storageCleanupTombstones storage).1 storage where
  get key := by
    rw [storageGet_snd, storageGet_snd]
    exact valueAt_filter_live
  tells key := by
    rw [storageExists_eq, storageExists_eq]
    exact congrArg (fun value : Option (List UInt8) ↦ if value.isSome then (1 : Int) else 0)
      valueAt_filter_live
  ranges query malloc := by
    rw [storageRangeQuery, storageRangeQuery, dataBlocks_cleanupTombstones,
      collect_filter_live fun _ ↦ RangeQuery.isLive_of_selects]
  scans pattern malloc := by
    rw [storageScanKeys, storageScanKeys, dataBlocks_cleanupTombstones,
      filter_filter_live fun _ ↦ isLive_of_scanSelects]

/-- For every storage, the cleanup leaves what `storage_get` and `storage_exists` return for every
key, and the blocks, in order, that `storage_range_query` copies out for every range and limit and
`storage_scan_keys` for every pattern; no tombstone is left; and the loop that moves the blocks in
place does just that. -/
theorem cleanupTombstones_invisible (storage : DistributedStorage) :
    ReadAlike (storageCleanupTombstones storage).1 storage ∧
      (∀ block ∈ (storageCleanupTombstones storage).1.dataBlocks, block.isTombstone = false) ∧
        CleanedInPlace storage (storageCleanupTombstones storage).1 := by
  refine ⟨readAlike_cleanupTombstones, fun block hblock ↦ ?_, fun blocks total hblocks ↦ ?_⟩
  · have hlive := (List.mem_filter.mp hblock).2
    rwa [Bool.not_eq_true'] at hlive
  · rw [cleanupLoop, firstOf_compact, hblocks, dataBlocks_cleanupTombstones]

end OneOS.Distributed.Storage
