import OneOS.PageCache.SlotCases

/-!
# Dirty pages that leave the cache

A page that is dirty should only leave the cache after it has been written back
(`DropsWrittenBack`), that is in the state that `cache_writeback_dirty_pages` puts it into and a
write starts it without. None of the four calls that take pages out of the cache looks at that
state: the evictions lower the number of dirty pages and free the data, and a flush frees all data
of a zone.

`droppedWrittenBack_iff` is the exact condition: every dirty page that an eviction or a flush takes
out has been written back before.
-/

set_option autoImplicit false
set_option relaxedAutoImplicit false

namespace OneOS.PageCache

open Foundation

/-! ### Dirty pages -/

/-- Every dirty page that a call takes out of its slot has been written back. -/
def DropsWrittenBack (manager : PageCacheManager) (call : CacheCall) : Prop :=
  ∀ zone slot page after, slotAt manager.zones zone slot = some page → page.occupied = true →
    page.isDirty = true → slotAt (cacheStep manager call).zones zone slot = some after →
      after.occupied = false → page.state = .writeback

/-- The page that an eviction finds, if it is not pinned and dirty, has been written back. -/
def EvictsWrittenBack (manager : PageCacheManager) (pageId : UInt32) : Prop :=
  ∀ page, findPage (evictTest pageId) manager.zones = some page → page.isPinned = false →
    page.isDirty = true → page.state = .writeback

/-- The condition on a call: a dirty page that is evicted, and every dirty page of a zone that is
flushed, has been written back. -/
def TakesWrittenBack (manager : PageCacheManager) (call : CacheCall) : Prop :=
  (∀ pageId, evictedId manager call = some pageId → EvictsWrittenBack manager pageId) ∧
    ∀ zoneId, call = .flushZone zoneId → ∀ slot page,
      slotAt manager.zones zoneId.toNat slot = some page → page.occupied = true →
        page.isDirty = true → page.state = .writeback

variable {manager : PageCacheManager} {call : CacheCall}

/-! ### One call -/

/-- A call that evicts a page does what `cache_evict_page` does. -/
theorem cacheStep_of_evictedId {pageId : UInt32} (hid : evictedId manager call = some pageId) :
    cacheStep manager call = (cacheEvictPage manager pageId).1 := by
  cases call with
  | evictPage id =>
    obtain rfl := Option.some.inj hid
    rfl
  | evictLruPage =>
    rw [evictedId] at hid
    split_ifs at hid with hsome
    obtain rfl := Option.some.inj hid
    rw [cacheStep, cacheEvictLruPage, if_pos hsome]
  | evictLfuPage =>
    rw [evictedId] at hid
    split_ifs at hid with hsome
    obtain rfl := Option.some.inj hid
    rw [cacheStep, cacheEvictLfuPage, if_pos hsome]
  | _ => exact absurd hid (by simp [evictedId])

/-- Assumes: all zones are accounted for. A call takes out only dirty pages that have been written
back exactly when it meets the condition. -/
theorem dropsWrittenBack_iff (haccounted : Accounted manager.zones) :
    DropsWrittenBack manager call ↔ TakesWrittenBack manager call := by
  constructor
  · intro hdrops
    refine ⟨fun pageId hid page hfind hunpinned hdirty ↦ ?_, ?_⟩
    · obtain ⟨zone, slot, hfinds, hslots⟩ := evict_slots hfind hunpinned
      have hpasses := hfinds.passes
      rw [evictTest, Bool.and_eq_true] at hpasses
      refine hdrops zone slot page emptyPage hfinds.here hpasses.2 hdirty ?_ rfl
      rw [cacheStep_of_evictedId hid, hslots, if_pos ⟨rfl, rfl⟩]
    · rintro zoneId rfl slot page hpage hoccupied hdirty
      refine hdrops _ slot page emptyPage hpage hoccupied hdirty ?_ rfl
      rw [cacheStep, slotAt_cacheFlushZone hpage, if_pos rfl, CachePage.flush, if_pos hoccupied]
  · rintro ⟨hevicts, hflushes⟩ zone slot page after hpage hoccupied hdirty hafter hempty
    obtain ⟨after', hafter', hcase⟩ := slot_cases haccounted call hpage
    obtain rfl : after' = after := Option.some.inj (hafter'.symm.trans hafter)
    rcases hcase with ⟨hsame, -⟩ | ⟨-, -, hempties⟩ | ⟨hfree, -⟩
    · rw [hsame.occupied, hoccupied] at hempty
      exact absurd hempty (by decide)
    · rcases hempties with ⟨pageId, hid, hfind, hunpinned⟩ | ⟨zoneId, hcall, hzone⟩
      · exact hevicts pageId hid page hfind hunpinned hdirty
      · exact hflushes zoneId hcall slot page (hzone ▸ hpage) hoccupied hdirty
    · rw [hoccupied] at hfree
      exact absurd hfree (by decide)

/-! ### Runs -/

/-- In a run of a cache every dirty page that leaves the cache has been written back exactly when
this is so for every dirty page that is evicted or is in a zone that is flushed. -/
theorem droppedWrittenBack_iff (cacheSize : UInt64) (nextCachePageId : UInt32)
    (calls : List CacheCall) :
    EveryStep cacheStep DropsWrittenBack (cacheManagerInit cacheSize nextCachePageId) calls ↔
      EveryStep cacheStep TakesWrittenBack (cacheManagerInit cacheSize nextCachePageId) calls :=
  (alongRun_accounted cacheSize nextCachePageId calls).everyStep_congr
    fun _ _ haccounted ↦ dropsWrittenBack_iff haccounted

/-- A page that is evicted right after it has been written leaves the cache dirty. -/
theorem droppedWrittenBack_evicted :
    ¬ EveryStep cacheStep DropsWrittenBack (cacheManagerInit 16384 1)
      [.writePage 0 (some fun _ ↦ 1) true, .evictPage 1] := by
  intro hevery
  have hstate := hevery [.writePage 0 (some fun _ ↦ 1) true] (.evictPage 1) (List.prefix_refl _)
    0 0 _ _ rfl rfl rfl rfl rfl
  exact absurd hstate (by decide)

end OneOS.PageCache
