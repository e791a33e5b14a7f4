import OneOS.PageCache.PinnedPages

/-!
# Evicting the least frequently used page

`cache_evict_lfu_page` looks for the page to evict twice: one scan remembers the id of an unpinned
page with the least access count (`leastPage_cases`), and `cache_evict_page` then looks for that id.
The two agree because ids of cached pages are distinct and not 0 (`IdsDistinct`), whatever ids are
left in free slots. Access counts are compared with the largest number of 32 bits from the start, so
a page with that count would not be seen.

`lfuExact_alongRun` says what the eviction does in every state that a run reaches.
-/

set_option autoImplicit false
set_option relaxedAutoImplicit false

namespace OneOS.PageCache

open Foundation

variable {manager : PageCacheManager} {zone slot : ℕ} {page : CachePage}

/-! ### The scan -/

/-- The page can be evicted: it is cached and not pinned. -/
def CachePage.Evictable (page : CachePage) : Prop :=
  page.occupied = true ∧ page.isPinned = false

/-- A page that can be evicted is cached somewhere. -/
def SomeEvictable (manager : PageCacheManager) : Prop :=
  ∃ zone slot page, slotAt manager.zones zone slot = some page ∧ page.Evictable

/-- No page that can be evicted has the largest access count there is. -/
def CountsBelowLimit (manager : PageCacheManager) : Prop :=
  ∀ zone slot page, slotAt manager.zones zone slot = some page → page.Evictable →
    page.accessCount < 0xFFFFFFFF

/-- The turn of the scan for the least access count. -/
def lfuTurn (least : UInt32 × UInt32) (page : CachePage) : UInt32 × UInt32 :=
  if page.occupied && !page.isPinned && page.accessCount < least.1 then
    (page.accessCount, page.cachePageId)
  else least

/-- A page that can be evicted is remembered when it has a lesser access count. -/
theorem lfuTurn_of_evictable {page : CachePage} (hevictable : page.Evictable)
    (least : UInt32 × UInt32) :
    lfuTurn least page =
      if page.accessCount < least.1 then (page.accessCount, page.cachePageId) else least := by
  simp [lfuTurn, hevictable.1, hevictable.2]

/-- A page that cannot be evicted is passed over. -/
theorem lfuTurn_of_not_evictable {page : CachePage} (hevictable : ¬ page.Evictable)
    (least : UInt32 × UInt32) : lfuTurn least page = least := by
  refine if_neg fun hseen ↦ hevictable ?_
  simp only [Bool.and_eq_true, Bool.not_eq_true'] at hseen
  exact hseen.1

/-- The scan ends at a page that can be evicted with the least access count, or has seen no page
that can be evicted. -/
theorem lfuTurn_foldl_cases {pages : List CachePage}
    (hlimit : ∀ page ∈ pages, page.Evictable → page.accessCount < 0xFFFFFFFF) :
    (pages.foldl lfuTurn (0xFFFFFFFF, 0) = (0xFFFFFFFF, 0) ∧ ∀ page ∈ pages, ¬ page.Evictable) ∨
      ∃ best ∈ pages, best.Evictable ∧
        pages.foldl lfuTurn (0xFFFFFFFF, 0) = (best.accessCount, best.cachePageId) ∧
        ∀ page ∈ pages, page.Evictable → best.accessCount ≤ page.accessCount := by
  induction pages using List.reverseRecOn with
  | nil => exact Or.inl ⟨rfl, by simp⟩
  | append_singleton pages last ih =>
    simp only [List.forall_mem_append, List.forall_mem_singleton] at hlimit ⊢
    obtain ⟨hearlier, hlast⟩ := hlimit
    rw [List.foldl_append, List.foldl_cons, List.foldl_nil]
    by_cases hevictable : last.Evictable
    · rw [lfuTurn_of_evictable hevictable]
      have hmem : last ∈ pages ++ [last] := List.mem_append_right _ List.mem_cons_self
      refine Or.inr ?_
      rcases ih hearlier with ⟨hscan, hnone⟩ | ⟨best, hbest, hbestEvictable, hscan, hleast⟩
      · refine ⟨last, hmem, hevictable, by rw [hscan, if_pos (hlast hevictable)], ?_⟩
        exact ⟨fun page hpage hsome ↦ absurd hsome (hnone page hpage), fun _ ↦ UInt32.le_refl _⟩
      · by_cases hless : last.accessCount < best.accessCount
        · refine ⟨last, hmem, hevictable, by rw [hscan, if_pos hless], ?_⟩
          exact ⟨fun page hpage hsome ↦
            UInt32.le_trans (UInt32.le_of_lt hless) (hleast page hpage hsome),
              fun _ ↦ UInt32.le_refl _⟩
        · refine ⟨best, List.mem_append_left _ hbest, hbestEvictable, ?_, hleast, fun _ ↦ ?_⟩
          · rw [hscan, if_neg hless]
          · exact UInt32.not_lt.mp hless
    · rw [lfuTurn_of_not_evictable hevictable]
      rcases ih hearlier with ⟨hscan, hnone⟩ | ⟨best, hbest, hbestEvictable, hscan, hleast⟩
      · exact Or.inl ⟨hscan, hnone, hevictable⟩
      · exact Or.inr ⟨best, List.mem_append_left _ hbest, hbestEvictable, hscan, hleast,
          fun hsome ↦ absurd hsome hevictable⟩

/-- A page is in a slot exactly when it is among the pages that are scanned. -/
theorem mem_flatMap_pages_iff {zones : List CacheZone} :
    page ∈ zones.flatMap CacheZone.pages ↔
      ∃ zone slot, slotAt zones zone slot = some page := by
  rw [List.mem_flatMap]
  constructor
  · rintro ⟨found, hfound, hpage⟩
    obtain ⟨zone, hzone⟩ := List.mem_iff_getElem?.mp hfound
    obtain ⟨slot, hslot⟩ := List.mem_iff_getElem?.mp hpage
    exact ⟨zone, slot, slotAt_eq_some_iff.mpr ⟨found, hzone, hslot⟩⟩
  · rintro ⟨zone, slot, hpage⟩
    obtain ⟨found, hzone, hslot⟩ := slotAt_eq_some_iff.mp hpage
    exact ⟨found, List.mem_of_getElem? hzone, List.mem_of_getElem? hslot⟩

/-- The id that the scan ends with: 0 when no page can be evicted, and else that of a page with the
least access count. -/
theorem lfuPageId_cases (hlimit : CountsBelowLimit manager) :
    (lfuPageId manager = 0 ∧ ¬ SomeEvictable manager) ∨
      ∃ zone slot best, slotAt manager.zones zone slot = some best ∧ best.Evictable ∧
        lfuPageId manager = best.cachePageId ∧
        ∀ otherZone otherSlot other, slotAt manager.zones otherZone otherSlot = some other →
          other.Evictable → best.accessCount ≤ other.accessCount := by
  have hscan : lfuPageId manager =
      ((manager.zones.flatMap CacheZone.pages).foldl lfuTurn (0xFFFFFFFF, 0)).2 := rfl
  have hpages : ∀ page ∈ manager.zones.flatMap CacheZone.pages, page.Evictable →
      page.accessCount < 0xFFFFFFFF := by
    intro page hpage
    obtain ⟨zone, slot, hslot⟩ := mem_flatMap_pages_iff.mp hpage
    exact hlimit zone slot page hslot
  rw [hscan]
  rcases lfuTurn_foldl_cases hpages with ⟨hend, hnone⟩ | ⟨best, hbest, hevictable, hend, hleast⟩
  · refine Or.inl ⟨by rw [hend], ?_⟩
    rintro ⟨zone, slot, page, hpage, hevictable⟩
    exact hnone page (mem_flatMap_pages_iff.mpr ⟨zone, slot, hpage⟩) hevictable
  · obtain ⟨zone, slot, hslot⟩ := mem_flatMap_pages_iff.mp hbest
    refine Or.inr ⟨zone, slot, best, hslot, hevictable, by rw [hend], ?_⟩
    intro otherZone otherSlot other hother hotherEvictable
    exact hleast other (mem_flatMap_pages_iff.mpr ⟨otherZone, otherSlot, hother⟩) hotherEvictable

/-! ### The eviction -/

/-- What `cache_evict_lfu_page` does: if some page can be evicted, it returns 0 and empties the slot
of one of them with the least access count and no other slot; and it returns -1 and changes nothing
exactly when no page can be evicted. -/
structure LfuExact (manager : PageCacheManager) : Prop where
  evicts : SomeEvictable manager → (cacheEvictLfuPage manager).2 = 0 ∧
    ∃ zone slot best, slotAt manager.zones zone slot = some best ∧ best.Evictable ∧
      (∀ otherZone otherSlot other, slotAt manager.zones otherZone otherSlot = some other →
        other.Evictable → best.accessCount ≤ other.accessCount) ∧
      ∀ otherZone otherSlot,
        slotAt (cacheEvictLfuPage manager).1.zones otherZone otherSlot =
          if otherZone = zone ∧ otherSlot = slot then some emptyPage
          else slotAt manager.zones otherZone otherSlot
  refuses : cacheEvictLfuPage manager = (manager, -1) ↔ ¬ SomeEvictable manager

/-- Assumes: ids are distinct. An eviction by the id of an unpinned page empties its slot. -/
theorem evictPage_of_evictable (hids : IdsDistinct manager)
    (hpage : slotAt manager.zones zone slot = some page) (hevictable : page.Evictable) :
    (cacheEvictPage manager page.cachePageId).2 = 0 ∧
      ∀ otherZone otherSlot,
        slotAt (cacheEvictPage manager page.cachePageId).1.zones otherZone otherSlot =
          if otherZone = zone ∧ otherSlot = slot then some emptyPage
          else slotAt manager.zones otherZone otherSlot := by
  have hsome : findPage (evictTest page.cachePageId) manager.zones ≠ none := by
    intro hnone
    have hmisses := findPage_eq_none_iff.mp hnone zone slot page hpage
    simp [evictTest, hevictable.1] at hmisses
  obtain ⟨found, hfind⟩ := Option.ne_none_iff_exists'.mp hsome
  -- the page found by its id is the page itself
  obtain ⟨foundZone, foundSlot, hfinds, -⟩ := findsAt_of_findPage hfind
  have hpasses := hfinds.passes
  rw [evictTest, Bool.and_eq_true, decide_eq_true_eq] at hpasses
  obtain ⟨rfl, rfl⟩ := hids.unique zone slot page foundZone foundSlot found hpage hfinds.here
    hpasses.1.symm (hids.numbered zone slot page hpage hevictable.1)
  obtain rfl : page = found := Option.some.inj (hpage.symm.trans hfinds.here)
  obtain ⟨emptyZone, emptySlot, hempties, hslots⟩ := evict_slots hfind hevictable.2
  obtain ⟨rfl, rfl⟩ := hids.unique zone slot page emptyZone emptySlot page hpage hempties.here
    rfl (hids.numbered zone slot page hpage hevictable.1)
  refine ⟨?_, hslots⟩
  simp only [cacheEvictPage, hfind, hevictable.2, Bool.false_eq_true, if_false]

/-- Assumes: ids are distinct, and access counts are below the limit. The eviction is as it should
be. -/
theorem lfuExact_of_idsDistinct (hids : IdsDistinct manager) (hlimit : CountsBelowLimit manager) :
    LfuExact manager := by
  rcases lfuPageId_cases hlimit with
    ⟨hzero, hnone⟩ | ⟨zone, slot, best, hslot, hevictable, hid, hleast⟩
  · have hrefused : cacheEvictLfuPage manager = (manager, -1) := by
      rw [cacheEvictLfuPage, hzero, if_neg (by decide)]
    exact ⟨fun hsome ↦ absurd hsome hnone, iff_of_true hrefused hnone⟩
  · have hpositive : 0 < best.cachePageId :=
      UInt32.pos_iff_ne_zero.mpr (hids.numbered zone slot best hslot hevictable.1)
    have hevicted : cacheEvictLfuPage manager = cacheEvictPage manager best.cachePageId := by
      rw [cacheEvictLfuPage, hid, if_pos hpositive]
    obtain ⟨hreturns, hslots⟩ := evictPage_of_evictable hids hslot hevictable
    rw [← hevicted] at hreturns hslots
    refine ⟨fun _ ↦ ⟨hreturns, zone, slot, best, hslot, hevictable, hleast, hslots⟩, ?_⟩
    refine iff_of_false (fun hrefused ↦ ?_) (not_not_intro ⟨zone, slot, best, hslot, hevictable⟩)
    rw [hrefused] at hreturns
    exact absurd hreturns (show ¬ (-1 : Int) = 0 by decide)

/-! ### Runs -/

/-- Eviction of the least frequently used page over every run. Assumes: the counter that numbers
pages does not start at 0 and does not wrap. In every state that the run passes through and in which
no page that can be evicted has been accessed `2 ^ 32 - 1` times, `cache_evict_lfu_page` evicts
exactly one page, an unpinned one with the least access count of the unpinned pages of all zones,
and refuses, changing nothing, exactly when no unpinned page is cached. -/
theorem lfuExact_alongRun (cacheSize : UInt64) (nextCachePageId : UInt32)
    (calls : List CacheCall) (hcounter : 0 < nextCachePageId)
    (hgrow : EveryStep cacheStep IdsGrow (cacheManagerInit cacheSize nextCachePageId) calls) :
    AlongRun cacheStep (fun manager ↦ CountsBelowLimit manager → LfuExact manager)
      (cacheManagerInit cacheSize nextCachePageId) calls :=
  fun _ htaken hlimit ↦ lfuExact_of_idsDistinct
    (idsDistinct_runFrom cacheSize hcounter (hgrow.of_prefix htaken)) hlimit

/-- Two pages are written and the first one is read: the second one is evicted. -/
theorem lfuExact_second_page :
    LfuExact (runFrom cacheStep (cacheManagerInit 16384 1)
      [.writePage 0 (some fun _ ↦ 7) true, .writePage 4096 (some fun _ ↦ 8) true,
        .readPage 0]) := by
  refine lfuExact_alongRun 16384 1 _ (by decide) ?_ _ (List.prefix_refl _) ?_
  · simp only [everyStep_cons, everyStep_nil, IdsGrow]
    decide
  · have hcounts : ∀ page ∈ (runFrom cacheStep (cacheManagerInit 16384 1)
        [.writePage 0 (some fun _ ↦ 7) true, .writePage 4096 (some fun _ ↦ 8) true,
          .readPage 0]).zones.flatMap CacheZone.pages, page.accessCount < 0xFFFFFFFF := by
      decide
    exact fun zone slot page hpage _ ↦
      hcounts page (mem_flatMap_pages_iff.mpr ⟨zone, slot, hpage⟩)

end OneOS.PageCache
