import OneOS.Foundation.Runs
import OneOS.Foundation.Table

/-!
# The page cache manager

`io-filesystem/page_cache_manager.c`: four zones of slots for pages. A slot holds a page when it has
data; all other slots are free, whatever id or offset is left in them. Pages are looked for zone by
zone and slot by slot.

Left out are the check of the pointer to the manager, the policy and the ids of the manager and of
the zones, which are never read, the hit ratios, the fields of a page that are only ever written
(`creation_time`, `dirty_count`), the totals of the manager and the metrics. The memory for the
slots is taken to have been found; whether there is memory for the data of a page is an input of
every write.
-/

set_option autoImplicit false
set_option relaxedAutoImplicit false

namespace OneOS.PageCache

open Foundation

/-! ### Pages and zones -/

/-- `PAGE_CACHE_SIZE`. -/
def pageCacheSize : ℕ := 4096

/-- The data of a page. -/
abbrev Block := Fin pageCacheSize → UInt8

/-- `CachePageState`. -/
inductive CachePageState
  | clean
  | dirty
  | writeback
  | locked
  deriving DecidableEq, Repr

/-- `CachePage`. The data is missing where the pointer to it is NULL. -/
structure CachePage where
  cachePageId : UInt32
  diskOffset : UInt64
  pageData : Option Block
  state : CachePageState
  accessCount : UInt32
  lastAccessTime : UInt64
  isPinned : Bool
  isDirty : Bool

/-- A slot that is all 0. -/
def emptyPage : CachePage where
  cachePageId := 0
  diskOffset := 0
  pageData := none
  state := .clean
  accessCount := 0
  lastAccessTime := 0
  isPinned := false
  isDirty := false

/-- The slot holds a page. -/
def CachePage.occupied (page : CachePage) : Bool :=
  page.pageData.isSome

/-- `CacheZone`. -/
structure CacheZone where
  pages : List CachePage
  totalSize : UInt64
  usedSize : UInt64

/-- `PageCacheManager`, with the counter that numbers pages. -/
structure PageCacheManager where
  zones : List CacheZone
  cacheHits : UInt64
  cacheMisses : UInt64
  pagesEvicted : UInt64
  pagesWriteback : UInt64
  dirtyPageCount : UInt32
  nextCachePageId : UInt32

/-- `page_count` of every zone. -/
def pageCount (cacheSize : UInt64) : UInt32 :=
  (cacheSize / 4096).toUInt32 / 4

/-- `cache_manager_init`. The product of two 32-bit numbers is one, and the counter that numbers
pages is shared by all managers of a process and keeps its value. -/
def cacheManagerInit (cacheSize : UInt64) (nextCachePageId : UInt32) : PageCacheManager where
  zones := List.replicate 4
    { pages := List.replicate (pageCount cacheSize).toNat emptyPage
      totalSize := (pageCount cacheSize * 4096).toUInt64
      usedSize := 0 }
  cacheHits := 0
  cacheMisses := 0
  pagesEvicted := 0
  pagesWriteback := 0
  dirtyPageCount := 0
  nextCachePageId := nextCachePageId

/-! ### Looking for pages -/

/-- The first page of all zones that passes the test. -/
def findPage (test : CachePage → Bool) (zones : List CacheZone) : Option CachePage :=
  zones.findSome? fun zone ↦ zone.pages.find? test

/-- Change the first page of a zone that passes the test. -/
def CacheZone.onFirst (test : CachePage → Bool) (change : CachePage → CachePage)
    (zone : CacheZone) : CacheZone :=
  { zone with pages := updateFirst test change zone.pages }

/-- Change the first zone that has a page that passes the test. -/
def onFirstZone (test : CachePage → Bool) (change : CacheZone → CacheZone)
    (zones : List CacheZone) : List CacheZone :=
  updateFirst (fun zone ↦ zone.pages.any test) change zones

/-- `cache_read_page`. -/
def cacheReadPage (manager : PageCacheManager) (diskOffset : UInt64) :
    PageCacheManager × Option CachePage :=
  let test (page : CachePage) : Bool := page.diskOffset = diskOffset && page.occupied
  let access (page : CachePage) : CachePage :=
    { page with accessCount := page.accessCount + 1, lastAccessTime := 0 }
  match findPage test manager.zones with
  | none => ({ manager with cacheMisses := manager.cacheMisses + 1 }, none)
  | some page =>
    ({ manager with
      zones := onFirstZone test (CacheZone.onFirst test access) manager.zones
      cacheHits := manager.cacheHits + 1 }, some (access page))

/-! ### Writing -/

/-- The loop over the zones of `cache_write_page`: the first one of those with the least used size
that have room, with its index. -/
def bestZone (zones : List CacheZone) : Option (CacheZone × ℕ) :=
  zones.zipIdx.foldl
    (fun best entry ↦
      if entry.1.usedSize < entry.1.totalSize &&
          best.all fun other ↦ entry.1.usedSize < other.1.usedSize then
        some entry
      else best) none

/-- `free_idx`: the first slot without data, or 0. -/
def CacheZone.freeIdx (zone : CacheZone) : ℕ :=
  (zone.pages.findIdx? fun page ↦ page.pageData.isNone).getD 0

/-- What `cache_write_page` writes to the slot that it takes. `allocated` says whether there is
memory for the data. -/
def CachePage.write (page : CachePage) (cachePageId : UInt32) (diskOffset : UInt64) (data : Block)
    (allocated : Bool) : CachePage :=
  if allocated then
    { cachePageId := cachePageId
      diskOffset := diskOffset
      pageData := some data
      state := .dirty
      accessCount := 0
      lastAccessTime := 0
      isPinned := false
      isDirty := true }
  else { page with cachePageId := cachePageId, diskOffset := diskOffset, pageData := none }

/-- What `cache_write_page` does to the zone that it chooses. -/
def CacheZone.write (zone : CacheZone) (cachePageId : UInt32) (diskOffset : UInt64) (data : Block)
    (allocated : Bool) : CacheZone :=
  { zone with
    pages := zone.pages.modify zone.freeIdx (·.write cachePageId diskOffset data allocated)
    usedSize := if allocated then zone.usedSize + 4096 else zone.usedSize }

/-- `cache_write_page`. The data is missing where the pointer to it is NULL. -/
def cacheWritePage (manager : PageCacheManager) (diskOffset : UInt64) (data : Option Block)
    (allocated : Bool) : PageCacheManager × Int :=
  match data, bestZone manager.zones with
  | some data, some (_, best) =>
    ({ manager with
      zones := manager.zones.modify best
        (·.write manager.nextCachePageId diskOffset data allocated)
      dirtyPageCount :=
        if allocated then manager.dirtyPageCount + 1 else manager.dirtyPageCount
      nextCachePageId := manager.nextCachePageId + 1 }, if allocated then 0 else -1)
  | _, _ => (manager, -1)

/-- The first rounds of the loop of `cache_prefetch_pages`, which writes pages of zeros. The product
of the number of a round and the size of a page is one of 32-bit numbers. -/
def prefetchRounds (manager : PageCacheManager) (startOffset : UInt64) (allocated : ℕ → Bool)
    (rounds : ℕ) : PageCacheManager :=
  (List.range rounds).foldl
    (fun manager i ↦ (cacheWritePage manager (startOffset + (i.toUInt32 * 4096).toUInt64)
      (some fun _ ↦ 0) (allocated i)).1) manager

/-- One more round of a prefetch is one more write. -/
theorem prefetchRounds_succ (manager : PageCacheManager) (startOffset : UInt64)
    (allocated : ℕ → Bool) (rounds : ℕ) :
    prefetchRounds manager startOffset allocated (rounds + 1) =
      (cacheWritePage (prefetchRounds manager startOffset allocated rounds)
        (startOffset + (rounds.toUInt32 * 4096).toUInt64) (some fun _ ↦ 0)
        (allocated rounds)).1 := by
  rw [prefetchRounds, List.range_succ, List.foldl_append]
  rfl

/-- `cache_prefetch_pages`. -/
def cachePrefetchPages (manager : PageCacheManager) (startOffset : UInt64) (count : UInt32)
    (allocated : ℕ → Bool) : PageCacheManager × Int :=
  if count = 0 then (manager, -1)
  else (prefetchRounds manager startOffset allocated count.toNat, count.toInt32.toInt)

/-! ### Evicting -/

/-- The page that `cache_evict_page` looks for. -/
def evictTest (pageId : UInt32) (page : CachePage) : Bool :=
  page.cachePageId = pageId && page.occupied

/-- `cache_evict_page`. -/
def cacheEvictPage (manager : PageCacheManager) (pageId : UInt32) : PageCacheManager × Int :=
  match findPage (evictTest pageId) manager.zones with
  | none => (manager, -1)
  | some page =>
    if page.isPinned then (manager, -1)
    else
      ({ manager with
        zones := onFirstZone (evictTest pageId)
          (fun zone ↦
            { zone.onFirst (evictTest pageId) (fun _ ↦ emptyPage) with
              usedSize := zone.usedSize - 4096 }) manager.zones
        pagesEvicted := manager.pagesEvicted + 1
        dirtyPageCount :=
          if page.isDirty then manager.dirtyPageCount - 1 else manager.dirtyPageCount }, 0)

/-- The loop of `cache_evict_lru_page` and `cache_evict_lfu_page`: the id of the first of the pages
that are not pinned whose key is least, if it is below the limit, and 0 otherwise. -/
def leastPageId {Key : Type} [LT Key] [DecidableLT Key] (key : CachePage → Key) (limit : Key)
    (zones : List CacheZone) : UInt32 :=
  ((zones.flatMap CacheZone.pages).foldl
    (fun least page ↦
      if page.occupied && !page.isPinned && key page < least.1 then (key page, page.cachePageId)
      else least) (limit, 0)).2

/-- `oldest_page_id` of `cache_evict_lru_page`. -/
def oldestPageId (manager : PageCacheManager) : UInt32 :=
  leastPageId CachePage.lastAccessTime 0xFFFFFFFFFFFFFFFF manager.zones

/-- `lfu_page_id` of `cache_evict_lfu_page`. -/
def lfuPageId (manager : PageCacheManager) : UInt32 :=
  leastPageId CachePage.accessCount 0xFFFFFFFF manager.zones

/-- `cache_evict_lru_page`. -/
def cacheEvictLruPage (manager : PageCacheManager) : PageCacheManager × Int :=
  if 0 < oldestPageId manager then cacheEvictPage manager (oldestPageId manager)
  else (manager, -1)

/-- `cache_evict_lfu_page`. -/
def cacheEvictLfuPage (manager : PageCacheManager) : PageCacheManager × Int :=
  if 0 < lfuPageId manager then cacheEvictPage manager (lfuPageId manager) else (manager, -1)

/-- What `cache_flush_zone` leaves in a slot. -/
def CachePage.flush (page : CachePage) : CachePage :=
  if page.occupied then emptyPage else page

/-- `cache_flush_zone`. The used size is lowered by the size of a page for every page flushed. -/
def cacheFlushZone (manager : PageCacheManager) (zoneId : UInt32) : PageCacheManager × Int :=
  if manager.zones.length ≤ zoneId.toNat then (manager, -1)
  else
    ({ manager with
      zones := manager.zones.modify zoneId.toNat fun zone ↦
        { zone with
          pages := zone.pages.map CachePage.flush
          usedSize := zone.usedSize - (zone.pages.countP CachePage.occupied).toUInt64 * 4096 } }, 0)

/-! ### Writing back and pinning -/

/-- What `cache_writeback_dirty_pages` leaves in a slot. -/
def CachePage.writeBack (page : CachePage) : CachePage :=
  if page.isDirty && page.occupied then { page with state := .writeback } else page

/-- `cache_writeback_dirty_pages`. -/
def cacheWritebackDirtyPages (manager : PageCacheManager) : PageCacheManager × Int :=
  let writebackCount := (manager.zones.flatMap CacheZone.pages).countP fun page ↦
    page.isDirty && page.occupied
  ({ manager with
    zones := manager.zones.map fun zone ↦
      { zone with pages := zone.pages.map CachePage.writeBack }
    pagesWriteback := manager.pagesWriteback + writebackCount.toUInt64 },
    writebackCount.toUInt32.toInt32.toInt)

/-- `cache_lock_page` and `cache_unlock_page`, which look for the id and not for the data. -/
def setPinned (manager : PageCacheManager) (pageId : UInt32) (pinned : Bool) :
    PageCacheManager × Int :=
  if (findPage (·.cachePageId = pageId) manager.zones).isSome then
    ({ manager with
      zones := onFirstZone (·.cachePageId = pageId)
        (CacheZone.onFirst (·.cachePageId = pageId) fun page ↦ { page with isPinned := pinned })
        manager.zones }, 0)
  else (manager, -1)

/-- `cache_lock_page`. -/
def cacheLockPage (manager : PageCacheManager) (pageId : UInt32) : PageCacheManager × Int :=
  setPinned manager pageId true

/-- `cache_unlock_page`. -/
def cacheUnlockPage (manager : PageCacheManager) (pageId : UInt32) : PageCacheManager × Int :=
  setPinned manager pageId false

/-! ### Calls -/

/-- A call on the manager. -/
inductive CacheCall
  | readPage (diskOffset : UInt64)
  | writePage (diskOffset : UInt64) (data : Option Block) (allocated : Bool)
  | evictPage (pageId : UInt32)
  | evictLruPage
  | evictLfuPage
  | writebackDirtyPages
  | flushZone (zoneId : UInt32)
  | lockPage (pageId : UInt32)
  | unlockPage (pageId : UInt32)
  | prefetchPages (startOffset : UInt64) (count : UInt32) (allocated : ℕ → Bool)

/-- The manager after a call. -/
def cacheStep (manager : PageCacheManager) : CacheCall → PageCacheManager
  | .readPage diskOffset => (cacheReadPage manager diskOffset).1
  | .writePage diskOffset data allocated => (cacheWritePage manager diskOffset data allocated).1
  | .evictPage pageId => (cacheEvictPage manager pageId).1
  | .evictLruPage => (cacheEvictLruPage manager).1
  | .evictLfuPage => (cacheEvictLfuPage manager).1
  | .writebackDirtyPages => (cacheWritebackDirtyPages manager).1
  | .flushZone zoneId => (cacheFlushZone manager zoneId).1
  | .lockPage pageId => (cacheLockPage manager pageId).1
  | .unlockPage pageId => (cacheUnlockPage manager pageId).1
  | .prefetchPages startOffset count allocated =>
    (cachePrefetchPages manager startOffset count allocated).1

end OneOS.PageCache
