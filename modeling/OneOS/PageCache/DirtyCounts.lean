import Mathlib.Algebra.Group.Action.Defs
import Mathlib.Algebra.Order.BigOperators.Group.List
import Mathlib.Algebra.Order.Ring.Nat
import OneOS.DiskCache.DirtyBlocks
import OneOS.PageCache.SlotCases

/-!
# The counter of dirty pages

The page cache should count the dirty pages that it holds in `dirty_page_count`
(`DirtyPagesCounted`). A write raises the counter and an eviction lowers it, but a flush of a zone
frees the pages and leaves the counter. So it is right exactly as long as no zone is flushed that
holds a dirty page. It does not wrap, as there are fewer than `2 ^ 32` slots.

`dirtyCounts_exact_iff` says when the dirty counters of both caches are right over their runs: those
of the disk cache, whose writes do not raise them, and this one. `not_dirtyCounts_exact` is the
shortest run of each.
-/

set_option autoImplicit false
set_option relaxedAutoImplicit false

namespace OneOS.PageCache

open Foundation

/-! ### The counter -/

/-- The slot holds a page that is dirty. -/
def CachePage.cachedDirty (page : CachePage) : Bool :=
  page.isDirty && page.occupied

/-- The number of dirty pages of a zone. -/
def CacheZone.dirtyPages (zone : CacheZone) : ℕ :=
  zone.pages.countP CachePage.cachedDirty

/-- The number of dirty pages of all zones. -/
def dirtyPages (zones : List CacheZone) : ℕ :=
  (zones.map CacheZone.dirtyPages).sum

/-- The manager counts the dirty pages of all zones. -/
def DirtyPagesCounted (manager : PageCacheManager) : Prop :=
  manager.dirtyPageCount.toNat = dirtyPages manager.zones

instance (manager : PageCacheManager) : Decidable (DirtyPagesCounted manager) :=
  inferInstanceAs (Decidable (_ = _))

/-- A zone that is flushed holds no dirty page. -/
def FlushesNoDirtyPage (manager : PageCacheManager) : CacheCall → Prop
  | .flushZone zoneId => ∀ zone, manager.zones[zoneId.toNat]? = some zone →
      ∀ page ∈ zone.pages, page.occupied = true → page.isDirty = false
  | _ => True

/-- All zones are accounted for, and there are fewer than `2 ^ 32` slots. -/
structure FewSlots (manager : PageCacheManager) : Prop where
  accounted : Accounted manager.zones
  slots : (shape manager.zones).sum < 2 ^ 32

variable {manager : PageCacheManager} {zones : List CacheZone} {zone : CacheZone}

theorem FewSlots.step (hfew : FewSlots manager) (call : CacheCall) :
    FewSlots (cacheStep manager call) := by
  refine ⟨hfew.accounted.step call, ?_⟩
  rw [shape_cacheStep]
  exact hfew.slots

/-- There are at most as many dirty pages as slots. -/
theorem dirtyPages_le (zones : List CacheZone) : dirtyPages zones ≤ (shape zones).sum :=
  List.sum_le_sum fun _ _ ↦ List.countP_le_length

/-! ### Writes -/

/-- A write makes the page in a free slot dirty, if there is memory for its data. -/
theorem ZoneAccounted.dirtyPages_write (haccounted : ZoneAccounted zone)
    (hroom : zone.usedSize < zone.totalSize) (cachePageId : UInt32) (diskOffset : UInt64)
    (data : Block) (allocated : Bool) :
    (zone.write cachePageId diskOffset data allocated).dirtyPages =
      zone.dirtyPages + if allocated then 1 else 0 := by
  obtain ⟨page, hpage, hfree⟩ := haccounted.free hroom
  have hbefore : page.cachedDirty = false := by
    rw [CachePage.cachedDirty, CachePage.occupied, hfree]
    exact Bool.and_false _
  have hafter : (page.write cachePageId diskOffset data allocated).cachedDirty = allocated := by
    cases allocated with
    | true => rfl
    | false => exact Bool.and_false _
  have hcount : (zone.write cachePageId diskOffset data allocated).dirtyPages +
        (if page.cachedDirty = true then 1 else 0) = zone.dirtyPages +
        if (page.write cachePageId diskOffset data allocated).cachedDirty = true then 1 else 0 :=
    countP_modify_add CachePage.cachedDirty hpage _
  rwa [hbefore, hafter] at hcount

/-- A write counts the page that it writes. -/
theorem dirtyPagesCounted_writePage (hfew : FewSlots manager) (hcounted : DirtyPagesCounted manager)
    (diskOffset : UInt64) (given : Option Block) (allocated : Bool) :
    DirtyPagesCounted (cacheWritePage manager diskOffset given allocated).1 := by
  cases hbest : bestZone manager.zones with
  | none =>
    rw [cacheWritePage_of_takenSlot_eq_none (by rw [takenSlot, hbest, Option.map_none])]
    exact hcounted
  | some best =>
    cases given with
    | none => exact hcounted
    | some data =>
      obtain ⟨hzone, hroom⟩ := bestZone_spec hbest
      have haccounted := hfew.accounted best.1 (List.mem_of_getElem? hzone)
      have hwritten := haccounted.dirtyPages_write hroom manager.nextCachePageId diskOffset data
        allocated
      have hslots := dirtyPages_le (cacheWritePage manager diskOffset (some data) allocated).1.zones
      rw [shape_cacheWritePage] at hslots
      have hfits := hslots.trans_lt hfew.slots
      simp only [cacheWritePage, hbest, DirtyPagesCounted] at hcounted hfits ⊢
      have htotal : dirtyPages (manager.zones.modify best.2
            (·.write manager.nextCachePageId diskOffset data allocated)) + best.1.dirtyPages =
          dirtyPages manager.zones +
            (best.1.write manager.nextCachePageId diskOffset data allocated).dirtyPages :=
        sum_map_modify_add hzone _
      cases allocated with
      | true =>
        simp only [if_true] at hwritten ⊢
        rw [UInt32.toNat_add, show (1 : UInt32).toNat = 1 from rfl, Nat.mod_eq_of_lt] <;> omega
      | false =>
        simp only [Bool.false_eq_true, if_false] at hwritten ⊢
        omega

theorem dirtyPagesCounted_prefetchPages (hfew : FewSlots manager)
    (hcounted : DirtyPagesCounted manager) (startOffset : UInt64) (count : UInt32)
    (allocated : ℕ → Bool) :
    DirtyPagesCounted (cachePrefetchPages manager startOffset count allocated).1 := by
  -- every round is a write to a manager with few slots
  have hrounds (rounds : ℕ) : FewSlots (prefetchRounds manager startOffset allocated rounds) ∧
      DirtyPagesCounted (prefetchRounds manager startOffset allocated rounds) := by
    induction rounds with
    | zero => exact ⟨hfew, hcounted⟩
    | succ rounds ih =>
      rw [prefetchRounds_succ]
      exact ⟨ih.1.step (.writePage _ _ _), dirtyPagesCounted_writePage ih.1 ih.2 _ _ _⟩
  unfold cachePrefetchPages
  split_ifs
  · exact hcounted
  · exact (hrounds count.toNat).2

/-! ### Other calls -/

/-- A change of the first page found that leaves it held and dirty, or not, as it was. -/
theorem dirtyPages_onFirst {test : CachePage → Bool} {change : CachePage → CachePage}
    (hkeep : ∀ page, (change page).cachedDirty = page.cachedDirty) :
    dirtyPages (onFirstZone test (CacheZone.onFirst test change) zones) = dirtyPages zones := by
  have hmap (pages : List CachePage) : pages.countP CachePage.cachedDirty =
      (pages.map CachePage.cachedDirty).countP id := by
    rw [List.countP_map]
    rfl
  refine congrArg List.sum (map_updateFirst fun zone _ ↦ ?_)
  rw [CacheZone.dirtyPages, CacheZone.dirtyPages, hmap, hmap]
  exact congrArg (List.countP id) (map_updateFirst fun page _ ↦ hkeep page)

/-- An eviction takes out one page, which was cached. -/
theorem dirtyPages_evictPage {pageId : UInt32} {page : CachePage}
    (hfind : findPage (evictTest pageId) manager.zones = some page)
    (hunpinned : page.isPinned = false) :
    dirtyPages (cacheEvictPage manager pageId).1.zones + (if page.isDirty = true then 1 else 0) =
      dirtyPages manager.zones := by
  simp only [cacheEvictPage, hfind, hunpinned, Bool.false_eq_true, if_false]
  rw [findPage_eq_bind] at hfind
  obtain ⟨found, hfound, hpage⟩ := Option.bind_eq_some_iff.mp hfind
  have hpasses := List.find?_some hpage
  rw [evictTest, Bool.and_eq_true] at hpasses
  have hdirty : page.cachedDirty = page.isDirty := by
    rw [CachePage.cachedDirty, hpasses.2, Bool.and_true]
  have hzone : (updateFirst (evictTest pageId) (fun _ ↦ emptyPage) found.pages).countP
        CachePage.cachedDirty + (if page.cachedDirty = true then 1 else 0) = found.dirtyPages :=
    countP_updateFirst_add CachePage.cachedDirty hpage fun _ ↦ emptyPage
  rw [hdirty] at hzone
  have htotal (changeZone : CacheZone → CacheZone) (hpages : (changeZone found).pages =
      updateFirst (evictTest pageId) (fun _ ↦ emptyPage) found.pages) :
      dirtyPages (onFirstZone (evictTest pageId) changeZone manager.zones) +
        (if page.isDirty = true then 1 else 0) = dirtyPages manager.zones := by
    have hsum : dirtyPages (onFirstZone (evictTest pageId) changeZone manager.zones) +
        found.dirtyPages = dirtyPages manager.zones + (changeZone found).dirtyPages :=
      sum_map_updateFirst_add hfound changeZone
    rw [CacheZone.dirtyPages.eq_def (changeZone found), hpages] at hsum
    omega
  exact htotal _ rfl

/-- An eviction counts the page that it takes out, if that is dirty. -/
theorem dirtyPagesCounted_evictPage (hcounted : DirtyPagesCounted manager) (pageId : UInt32) :
    DirtyPagesCounted (cacheEvictPage manager pageId).1 := by
  cases hfind : findPage (evictTest pageId) manager.zones with
  | none =>
    rw [cacheEvictPage, hfind]
    exact hcounted
  | some page =>
    cases hpinned : page.isPinned with
    | true =>
      simp only [cacheEvictPage, hfind, hpinned, if_true]
      exact hcounted
    | false =>
      have htotal := dirtyPages_evictPage hfind hpinned
      have hcount : (cacheEvictPage manager pageId).1.dirtyPageCount =
          if page.isDirty then manager.dirtyPageCount - 1 else manager.dirtyPageCount := by
        simp only [cacheEvictPage, hfind, hpinned, Bool.false_eq_true, if_false]
      unfold DirtyPagesCounted at hcounted ⊢
      rw [hcount]
      split_ifs at htotal ⊢ with hdirty
      · have hsome : (1 : UInt32) ≤ manager.dirtyPageCount :=
          UInt32.le_iff_toNat_le.mpr (show 1 ≤ manager.dirtyPageCount.toNat by omega)
        rw [UInt32.toNat_sub_of_le _ _ hsome, show (1 : UInt32).toNat = 1 from rfl]
        omega
      · omega

theorem cachedDirty_writeBack (page : CachePage) :
    page.writeBack.cachedDirty = page.cachedDirty := by
  unfold CachePage.writeBack
  split_ifs
  · rfl
  · rfl

theorem dirtyPages_writeback (manager : PageCacheManager) :
    dirtyPages (cacheWritebackDirtyPages manager).1.zones = dirtyPages manager.zones := by
  simp only [cacheWritebackDirtyPages, dirtyPages, List.map_map]
  refine congrArg List.sum (List.map_congr_left fun zone _ ↦ ?_)
  rw [Function.comp_apply, CacheZone.dirtyPages, CacheZone.dirtyPages, List.countP_map]
  refine List.countP_congr fun page _ ↦ ?_
  rw [Function.comp_apply, cachedDirty_writeBack]

/-- Nothing that a flush leaves in a slot is a dirty page. -/
theorem cachedDirty_flush (page : CachePage) : page.flush.cachedDirty = false := by
  unfold CachePage.flush
  split_ifs with hoccupied
  · rfl
  · rw [CachePage.cachedDirty, Bool.eq_false_of_not_eq_true hoccupied, Bool.and_false]

/-- Assumes: the manager counts the dirty pages. It does so after a flush exactly when the zone
holds no dirty page. -/
theorem dirtyPagesCounted_flushZone_iff (hcounted : DirtyPagesCounted manager) (zoneId : UInt32) :
    DirtyPagesCounted (cacheFlushZone manager zoneId).1 ↔
      FlushesNoDirtyPage manager (.flushZone zoneId) := by
  simp only [cacheFlushZone, FlushesNoDirtyPage]
  split_ifs with hrange
  · refine iff_of_true hcounted fun zone hzone ↦ ?_
    rw [List.getElem?_eq_none hrange] at hzone
    exact absurd hzone.symm (Option.some_ne_none zone)
  · obtain ⟨zone, hzone⟩ : ∃ zone, manager.zones[zoneId.toNat]? = some zone :=
      ⟨_, List.getElem?_eq_getElem (Nat.not_le.mp hrange)⟩
    have hnone : (zone.pages.map CachePage.flush).countP CachePage.cachedDirty = 0 := by
      rw [List.countP_eq_zero]
      intro page hpage
      obtain ⟨before, -, rfl⟩ := List.mem_map.mp hpage
      rw [cachedDirty_flush]
      exact Bool.false_ne_true
    have htotal : dirtyPages (manager.zones.modify zoneId.toNat fun zone ↦
          { zone with
            pages := zone.pages.map CachePage.flush
            usedSize := zone.usedSize - (zone.pages.countP CachePage.occupied).toUInt64 * 4096 }) +
          zone.dirtyPages = dirtyPages manager.zones +
            (zone.pages.map CachePage.flush).countP CachePage.cachedDirty :=
      sum_map_modify_add hzone _
    have hiff : zone.dirtyPages = 0 ↔
        ∀ page ∈ zone.pages, page.occupied = true → page.isDirty = false := by
      rw [CacheZone.dirtyPages, List.countP_eq_zero]
      refine forall₂_congr fun page _ ↦ ?_
      rw [CachePage.cachedDirty]
      cases page.isDirty <;> cases page.occupied <;> decide
    rw [hzone]
    simp only [Option.some.injEq, forall_eq']
    rw [← hiff]
    unfold DirtyPagesCounted at hcounted ⊢
    dsimp only
    omega

/-- Nothing that pinning or reading changes is counted. -/
theorem dirtyPagesCounted_of_kept {after : PageCacheManager} (hcounted : DirtyPagesCounted manager)
    (hcount : after.dirtyPageCount = manager.dirtyPageCount)
    (hpages : dirtyPages after.zones = dirtyPages manager.zones) : DirtyPagesCounted after := by
  rw [DirtyPagesCounted, hcount, hpages]
  exact hcounted

theorem dirtyPagesCounted_setPinned (hcounted : DirtyPagesCounted manager) (pageId : UInt32)
    (pinned : Bool) : DirtyPagesCounted (setPinned manager pageId pinned).1 := by
  unfold setPinned
  split_ifs
  · exact dirtyPagesCounted_of_kept hcounted rfl (dirtyPages_onFirst (by intro; rfl))
  · exact hcounted

/-- Assumes: the dirty pages are counted, and there are few slots. They are counted after a call
exactly when the call flushes no zone with a dirty page. -/
theorem dirtyPagesCounted_step_iff (hfew : FewSlots manager) (hcounted : DirtyPagesCounted manager)
    (call : CacheCall) :
    DirtyPagesCounted (cacheStep manager call) ↔ FlushesNoDirtyPage manager call := by
  cases call with
  | flushZone zoneId => exact dirtyPagesCounted_flushZone_iff hcounted zoneId
  | readPage diskOffset =>
    refine iff_of_true ?_ trivial
    simp only [cacheStep, cacheReadPage]
    split
    · exact hcounted
    · exact dirtyPagesCounted_of_kept hcounted rfl (dirtyPages_onFirst (by intro; rfl))
  | writePage diskOffset given allocated =>
    exact iff_of_true (dirtyPagesCounted_writePage hfew hcounted _ _ _) trivial
  | evictPage pageId => exact iff_of_true (dirtyPagesCounted_evictPage hcounted pageId) trivial
  | evictLruPage =>
    refine iff_of_true ?_ trivial
    rw [cacheStep, cacheEvictLruPage]
    split_ifs
    · exact dirtyPagesCounted_evictPage hcounted _
    · exact hcounted
  | evictLfuPage =>
    refine iff_of_true ?_ trivial
    rw [cacheStep, cacheEvictLfuPage]
    split_ifs
    · exact dirtyPagesCounted_evictPage hcounted _
    · exact hcounted
  | writebackDirtyPages =>
    exact iff_of_true (dirtyPagesCounted_of_kept hcounted rfl (dirtyPages_writeback manager))
      trivial
  | lockPage pageId => exact iff_of_true (dirtyPagesCounted_setPinned hcounted pageId true) trivial
  | unlockPage pageId =>
    exact iff_of_true (dirtyPagesCounted_setPinned hcounted pageId false) trivial
  | prefetchPages startOffset count allocated =>
    exact iff_of_true (dirtyPagesCounted_prefetchPages hfew hcounted _ _ _) trivial

/-! ### Runs -/

/-- A new cache has four zones of fewer than `2 ^ 30` slots, and holds no page. -/
theorem fewSlots_init (cacheSize : UInt64) (nextCachePageId : UInt32) :
    FewSlots (cacheManagerInit cacheSize nextCachePageId) ∧
      DirtyPagesCounted (cacheManagerInit cacheSize nextCachePageId) := by
  have hcount : (pageCount cacheSize).toNat < 2 ^ 30 := by
    have hall := (cacheSize / 4096).toUInt32.toNat_lt
    rw [pageCount, UInt32.toNat_div, show (4 : UInt32).toNat = 4 from rfl]
    omega
  refine ⟨⟨accounted_cacheManagerInit cacheSize nextCachePageId, ?_⟩, ?_⟩
  · rw [shape, cacheManagerInit, List.map_replicate, List.length_replicate, List.sum_replicate,
      smul_eq_mul]
    omega
  · have hnone : (List.replicate (pageCount cacheSize).toNat emptyPage).countP
        CachePage.cachedDirty = 0 :=
      List.countP_replicate.trans (if_neg Bool.false_ne_true)
    rw [DirtyPagesCounted, dirtyPages, cacheManagerInit, List.map_replicate, List.sum_replicate,
      CacheZone.dirtyPages, hnone]
    rfl

/-- The counter of dirty pages over every run: it is right along the run exactly when no zone is
flushed that holds a dirty page. -/
theorem dirtyPagesCounted_alongRun_iff (cacheSize : UInt64) (nextCachePageId : UInt32)
    (calls : List CacheCall) :
    AlongRun cacheStep DirtyPagesCounted (cacheManagerInit cacheSize nextCachePageId) calls ↔
      EveryStep cacheStep FlushesNoDirtyPage (cacheManagerInit cacheSize nextCachePageId) calls :=
  alongRun_iff_everyStep FewSlots (fun _ _ ↦ True) (fun _ call hfew _ ↦ hfew.step call)
    (fun _ call hfew _ hcounted ↦ dirtyPagesCounted_step_iff hfew hcounted call)
    (fewSlots_init cacheSize nextCachePageId).1 (fewSlots_init cacheSize nextCachePageId).2
    (fun _ _ _ ↦ trivial)

open DiskCache in
/-- The dirty counters of both caches over every run. Along a run of a disk cache every pool counts
its dirty blocks, and no counter is taken below 0, and along a run of a page cache the dirty pages
are counted, exactly when no write to the disk cache is served and no zone of the page cache is
flushed that holds a dirty page. -/
theorem dirtyCounts_exact_iff (bufferSize : UInt64) (poolCount nextBlockId : UInt32)
    (cache : DiskCacheBuffer) (hinit : diskCacheInit bufferSize poolCount nextBlockId = some cache)
    (bufferCalls : List BufferCall) (cacheSize : UInt64) (nextCachePageId : UInt32)
    (cacheCalls : List CacheCall) :
    (AlongRun bufferStep DirtyBlocksCounted cache bufferCalls ∧
        EveryStep bufferStep NoDirtyUnderflow cache bufferCalls) ∧
      AlongRun cacheStep DirtyPagesCounted (cacheManagerInit cacheSize nextCachePageId)
        cacheCalls ↔
    EveryStep bufferStep ServesNoWrite cache bufferCalls ∧
      EveryStep cacheStep FlushesNoDirtyPage (cacheManagerInit cacheSize nextCachePageId)
        cacheCalls :=
  and_congr (dirtyBlocksCounted_alongRun_iff hinit bufferCalls)
    (dirtyPagesCounted_alongRun_iff cacheSize nextCachePageId cacheCalls)

open DiskCache in
/-- Two runs in which the counters are right: a block is taken and flushed, and a page is written
and evicted. -/
theorem dirtyCounts_exact_iff_taken_and_evicted :
    ∃ cache, diskCacheInit 8192 1 1 = some cache ∧
      ((AlongRun bufferStep DirtyBlocksCounted cache
            [.allocateBlock 0 (some fun _ ↦ 0), .call (.flushBlocks 0)] ∧
          EveryStep bufferStep NoDirtyUnderflow cache
            [.allocateBlock 0 (some fun _ ↦ 0), .call (.flushBlocks 0)]) ∧
        AlongRun cacheStep DirtyPagesCounted (cacheManagerInit 16384 1)
          [.writePage 0 (some fun _ ↦ 1) true, .evictPage 1]) := by
  refine ⟨_, rfl, (dirtyCounts_exact_iff 8192 1 1 _ rfl _ 16384 1 _).mpr ⟨?_, ?_⟩⟩
  · simp only [everyStep_cons, everyStep_nil, ServesNoWrite, and_self]
  · simp only [everyStep_cons, everyStep_nil, FlushesNoDirtyPage, and_self]

open DiskCache in
/-- A block that is written is dirty and not counted, and a flush then takes the counter below 0. A
page that is written and then flushed is still counted. -/
theorem not_dirtyCounts_exact :
    (∃ cache, diskCacheInit 8192 1 1 = some cache ∧
      ¬ AlongRun bufferStep DirtyBlocksCounted cache
          [.call (.writeBlock 7 (some fun _ ↦ 1) (some fun _ ↦ 0)), .call (.flushBlocks 0)] ∧
        ¬ EveryStep bufferStep NoDirtyUnderflow cache
          [.call (.writeBlock 7 (some fun _ ↦ 1) (some fun _ ↦ 0)), .call (.flushBlocks 0)]) ∧
      ¬ AlongRun cacheStep DirtyPagesCounted (cacheManagerInit 16384 1)
        [.writePage 0 (some fun _ ↦ 1) true, .flushZone 0] := by
  refine ⟨⟨_, rfl, fun halong ↦ ?_, fun hevery ↦ ?_⟩, fun halong ↦ ?_⟩
  · have hcounted := halong [.call (.writeBlock 7 (some fun _ ↦ 1) (some fun _ ↦ 0))] ⟨_, rfl⟩ _
      List.mem_cons_self
    exact absurd hcounted (by decide)
  · have hcovers := (everyStep_cons.mp (everyStep_cons.mp hevery).2).1 _ rfl
    exact absurd hcovers (by decide)
  · have hcounted := halong _ (List.prefix_refl _)
    exact absurd hcounted (by decide)

end OneOS.PageCache
