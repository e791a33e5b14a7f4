import OneOS.PageCache.Slots

/-!
# Accounting for slots

`cache_write_page` takes the first free slot of the zone that it chooses, and slot 0 if there is
none. It never comes to that: the used size of a zone is the size of the pages that it holds, and a
zone is only chosen while that is less than its total size, which is at most the size of its slots
(`Accounted`). So a write fills a free slot and leaves all others (`write_slots`).

The total size is a product of 32-bit numbers, which wraps for caches of 16 GiB and more; the zones
are then filled in part only, and accounted for all the same.
-/

set_option autoImplicit false
set_option relaxedAutoImplicit false

namespace OneOS.PageCache

open Foundation

variable {zones : List CacheZone} {test : CachePage → Bool} {zone slot : ℕ}

/-! ### Accounting -/

/-- The used size of a zone is the size of the pages that it holds, and at most the size of all
slots that it may use, of which it has at least as many. -/
structure ZoneAccounted (zone : CacheZone) : Prop where
  used : zone.usedSize.toNat = 4096 * zone.pages.countP CachePage.occupied
  within : zone.usedSize ≤ zone.totalSize
  whole : 4096 ∣ zone.totalSize.toNat
  slots : zone.totalSize.toNat ≤ 4096 * zone.pages.length

/-- All zones are accounted for. -/
def Accounted (zones : List CacheZone) : Prop :=
  ∀ zone ∈ zones, ZoneAccounted zone

/-- A zone with room has one for a whole page. -/
theorem ZoneAccounted.room {zone : CacheZone} (haccounted : ZoneAccounted zone)
    (hroom : zone.usedSize < zone.totalSize) :
    zone.usedSize.toNat + 4096 ≤ zone.totalSize.toNat := by
  obtain ⟨pages, hpages⟩ := haccounted.whole
  have hused := haccounted.used
  have hless := UInt64.lt_iff_toNat_lt.mp hroom
  omega

/-- A zone with room has a free slot, and that is the one that is taken. -/
theorem ZoneAccounted.free {zone : CacheZone} (haccounted : ZoneAccounted zone)
    (hroom : zone.usedSize < zone.totalSize) :
    ∃ page, zone.pages[zone.freeIdx]? = some page ∧ page.pageData = none := by
  have hless : zone.pages.countP CachePage.occupied < zone.pages.length := by
    have hsize := haccounted.room hroom
    have hused := haccounted.used
    have hslots := haccounted.slots
    omega
  have hfree : ∃ page ∈ zone.pages, page.pageData.isNone := by
    by_contra hnone
    rw [List.countP_eq_length.mpr] at hless
    · exact Nat.lt_irrefl _ hless
    · intro page hpage
      by_contra hempty
      exact hnone ⟨page, hpage, by simpa [CachePage.occupied] using hempty⟩
  have hlt := List.findIdx_lt_length.mpr hfree
  have hidx : zone.freeIdx = zone.pages.findIdx fun page ↦ page.pageData.isNone := by
    rw [CacheZone.freeIdx, List.findIdx?_eq_some_of_exists hfree, Option.getD_some]
  rw [hidx]
  refine ⟨_, List.getElem?_eq_getElem hlt, ?_⟩
  simpa using List.findIdx_getElem (w := hlt)

/-- The zone that is chosen has room. -/
theorem bestZone_spec {best : CacheZone} {i : ℕ} (hbest : bestZone zones = some (best, i)) :
    zones[i]? = some best ∧ best.usedSize < best.totalSize := by
  unfold bestZone at hbest
  -- invariant of the loop: the best zone so far is one of the table and has room
  have hloop (entries : List (CacheZone × ℕ)) (start : Option (CacheZone × ℕ))
      (hentries : ∀ entry ∈ entries, zones[entry.2]? = some entry.1)
      (hstart : ∀ entry, start = some entry →
        zones[entry.2]? = some entry.1 ∧ entry.1.usedSize < entry.1.totalSize) :
      ∀ entry, entries.foldl (fun best entry ↦
          if entry.1.usedSize < entry.1.totalSize &&
              best.all fun other ↦ entry.1.usedSize < other.1.usedSize then
            some entry
          else best) start = some entry →
        zones[entry.2]? = some entry.1 ∧ entry.1.usedSize < entry.1.totalSize := by
    induction entries generalizing start with
    | nil => exact hstart
    | cons head tail ih =>
      rw [List.foldl_cons]
      refine ih _ (fun entry hentry ↦ hentries entry (List.mem_cons_of_mem _ hentry)) ?_
      intro entry hentry
      split_ifs at hentry with hbetter
      · obtain rfl := Option.some.inj hentry
        simp only [Bool.and_eq_true, decide_eq_true_eq] at hbetter
        exact ⟨hentries head List.mem_cons_self, hbetter.1⟩
      · exact hstart entry hentry
  exact hloop zones.zipIdx none
    (fun entry hentry ↦ List.mem_zipIdx_iff_getElem?.mp hentry) (by simp) _ hbest

/-! ### Writing -/

/-- The slot that a write takes. -/
def takenSlot (zones : List CacheZone) : Option (ℕ × ℕ) :=
  (bestZone zones).map fun best ↦ (best.2, best.1.freeIdx)

variable {manager : PageCacheManager} {diskOffset : UInt64} {data : Block} {allocated : Bool}

/-- A write for which there is no slot changes nothing. -/
theorem cacheWritePage_of_takenSlot_eq_none (htaken : takenSlot manager.zones = none)
    (given : Option Block) :
    cacheWritePage manager diskOffset given allocated = (manager, -1) := by
  rw [takenSlot, Option.map_eq_none_iff] at htaken
  cases given with
  | none => rfl
  | some data => simp only [cacheWritePage, htaken]

/-- There was memory for the data of a write that is successful. -/
theorem allocated_of_cacheWritePage_eq_zero {taken : ℕ × ℕ}
    (htaken : takenSlot manager.zones = some taken)
    (hsuccess : (cacheWritePage manager diskOffset (some data) allocated).2 = 0) :
    allocated = true := by
  obtain ⟨best, hbest, -⟩ := Option.map_eq_some_iff.mp htaken
  by_contra hnot
  simp [cacheWritePage, hbest, hnot] at hsuccess

/-- A write takes a free slot and leaves all others. -/
theorem write_slots (haccounted : Accounted manager.zones)
    (htaken : takenSlot manager.zones = some (zone, slot)) (diskOffset : UInt64) (data : Block)
    (allocated : Bool) :
    ∃ page, slotAt manager.zones zone slot = some page ∧ page.pageData = none ∧
      ∀ otherZone otherSlot,
        slotAt (cacheWritePage manager diskOffset (some data) allocated).1.zones otherZone
            otherSlot =
          if otherZone = zone ∧ otherSlot = slot then
            some (page.write manager.nextCachePageId diskOffset data allocated)
          else slotAt manager.zones otherZone otherSlot := by
  obtain ⟨⟨best, i⟩, hbest, hslot⟩ := Option.map_eq_some_iff.mp htaken
  obtain ⟨rfl, rfl⟩ := Prod.mk.inj hslot
  obtain ⟨hzone, hroom⟩ := bestZone_spec hbest
  obtain ⟨page, hpage, hfree⟩ := (haccounted best (List.mem_of_getElem? hzone)).free hroom
  refine ⟨page, slotAt_eq_some_iff.mpr ⟨best, hzone, hpage⟩, hfree, fun otherZone otherSlot ↦ ?_⟩
  simp only [cacheWritePage, hbest]
  rw [slotAt_modify]
  by_cases hsame : i = otherZone
  · subst hsame
    rw [if_pos rfl, hzone, Option.map_some, Option.bind_some, CacheZone.write,
      List.getElem?_modify]
    by_cases hslot : best.freeIdx = otherSlot
    · rw [← hslot, hpage]
      simp
    · simp [hslot, Ne.symm hslot, slotAt, hzone]
  · rw [if_neg hsame, if_neg fun hboth ↦ hsame hboth.1.symm]

/-- A zone with room is accounted for after a write. -/
theorem ZoneAccounted.write {zone : CacheZone} (haccounted : ZoneAccounted zone)
    (hroom : zone.usedSize < zone.totalSize) (cachePageId : UInt32) (diskOffset : UInt64)
    (data : Block) (allocated : Bool) :
    ZoneAccounted (zone.write cachePageId diskOffset data allocated) := by
  obtain ⟨page, hpage, hfree⟩ := haccounted.free hroom
  have hfits := haccounted.room hroom
  have hcount := countP_modify_add CachePage.occupied hpage
    (·.write cachePageId diskOffset data allocated)
  have hbefore : page.occupied = false := by
    rw [CachePage.occupied, hfree]
    rfl
  rw [hbefore, if_neg Bool.false_ne_true] at hcount
  have hused := haccounted.used
  have hsum : (zone.usedSize + 4096).toNat = zone.usedSize.toNat + 4096 := by
    rw [UInt64.toNat_add]
    exact Nat.mod_eq_of_lt (hfits.trans_lt zone.totalSize.toNat_lt)
  refine ⟨?_, ?_, haccounted.whole, ?_⟩
  · cases allocated with
    | true =>
      have hafter : (page.write cachePageId diskOffset data true).occupied = true := rfl
      rw [hafter, if_pos rfl] at hcount
      simp only [CacheZone.write, if_true, hsum]
      omega
    | false =>
      have hafter : (page.write cachePageId diskOffset data false).occupied = false := rfl
      rw [hafter, if_neg Bool.false_ne_true] at hcount
      simp only [CacheZone.write, Bool.false_eq_true, if_false]
      omega
  · cases allocated with
    | true =>
      simp only [CacheZone.write, if_true]
      rw [UInt64.le_iff_toNat_le, hsum]
      exact hfits
    | false => exact haccounted.within
  · rw [CacheZone.write, List.length_modify]
    exact haccounted.slots

/-- All zones are accounted for after a write. -/
theorem Accounted.writePage (haccounted : Accounted manager.zones) (diskOffset : UInt64)
    (given : Option Block) (allocated : Bool) :
    Accounted (cacheWritePage manager diskOffset given allocated).1.zones := by
  cases hbest : bestZone manager.zones with
  | none =>
    rw [cacheWritePage_of_takenSlot_eq_none (by rw [takenSlot, hbest, Option.map_none])]
    exact haccounted
  | some best =>
    cases given with
    | none => exact haccounted
    | some data =>
      obtain ⟨hzone, hroom⟩ := bestZone_spec hbest
      simp only [cacheWritePage, hbest]
      refine (forall_mem_modify_iff haccounted hzone _).mpr ?_
      exact (haccounted best.1 (List.mem_of_getElem? hzone)).write hroom _ _ _ _

/-- All zones are accounted for after any number of rounds of a prefetch. -/
theorem Accounted.prefetchRounds (haccounted : Accounted manager.zones) (startOffset : UInt64)
    (allocated : ℕ → Bool) (rounds : ℕ) :
    Accounted (prefetchRounds manager startOffset allocated rounds).zones := by
  induction rounds with
  | zero => exact haccounted
  | succ rounds ih =>
    rw [prefetchRounds_succ]
    exact ih.writePage _ _ _

/-! ### Other calls -/

/-- A zone is accounted for when the pages it holds are held in the same slots as before. -/
theorem ZoneAccounted.of_occupied {zone : CacheZone} (haccounted : ZoneAccounted zone)
    {pages : List CachePage}
    (hsame : pages.map CachePage.occupied = zone.pages.map CachePage.occupied) :
    ZoneAccounted { zone with pages := pages } := by
  have hcount (pages : List CachePage) :
      pages.countP CachePage.occupied = (pages.map CachePage.occupied).countP id := by
    rw [List.countP_map]
    rfl
  have hlength : pages.length = zone.pages.length := by
    simpa using congrArg List.length hsame
  refine ⟨?_, haccounted.within, haccounted.whole, hlength ▸ haccounted.slots⟩
  show zone.usedSize.toNat = 4096 * pages.countP CachePage.occupied
  rw [hcount pages, hsame, ← hcount]
  exact haccounted.used

/-- All zones are accounted for after a page has been changed that is still held. -/
theorem Accounted.onFirst (haccounted : Accounted zones) {change : CachePage → CachePage}
    (hkeep : ∀ page, (change page).occupied = page.occupied) :
    Accounted (onFirstZone test (CacheZone.onFirst test change) zones) := by
  refine (forall_mem_updateFirst_iff haccounted).mpr fun found hfound ↦ ?_
  exact (haccounted found (List.mem_of_find?_eq_some hfound)).of_occupied
    (map_updateFirst fun page _ ↦ hkeep page)

/-- A zone is accounted for after a page that it holds has been taken out. -/
theorem ZoneAccounted.evict {zone : CacheZone} (haccounted : ZoneAccounted zone) {pageId : UInt32}
    (hany : zone.pages.any (evictTest pageId)) :
    ZoneAccounted { zone.onFirst (evictTest pageId) (fun _ ↦ emptyPage) with
      usedSize := zone.usedSize - 4096 } := by
  obtain ⟨page, hfind⟩ : ∃ page, zone.pages.find? (evictTest pageId) = some page := by
    rw [← Option.isSome_iff_exists, List.find?_isSome]
    exact List.any_eq_true.mp hany
  have hpasses := List.find?_some hfind
  simp only [evictTest, Bool.and_eq_true] at hpasses
  rw [List.find?_eq_getElem?_findIdx] at hfind
  have hcount := countP_modify_add CachePage.occupied hfind fun _ ↦ emptyPage
  have hempty : emptyPage.occupied = false := rfl
  rw [hpasses.2, if_pos rfl, hempty, if_neg Bool.false_ne_true] at hcount
  have hused := haccounted.used
  have hle : (4096 : UInt64) ≤ zone.usedSize := by
    rw [UInt64.le_iff_toNat_le, show (4096 : UInt64).toNat = 4096 from rfl]
    omega
  have hless : (zone.usedSize - 4096).toNat = zone.usedSize.toNat - 4096 :=
    UInt64.toNat_sub_of_le _ _ hle
  refine ⟨?_, ?_, haccounted.whole, ?_⟩
  · show (zone.usedSize - 4096).toNat =
      4096 * (updateFirst (evictTest pageId) (fun _ ↦ emptyPage) zone.pages).countP
        CachePage.occupied
    rw [hless, updateFirst]
    omega
  · have hwithin := UInt64.le_iff_toNat_le.mp haccounted.within
    rw [UInt64.le_iff_toNat_le]
    show (zone.usedSize - 4096).toNat ≤ zone.totalSize.toNat
    omega
  · rw [CacheZone.onFirst, updateFirst, List.length_modify]
    exact haccounted.slots

/-- All zones are accounted for after an eviction. -/
theorem Accounted.evictPage (haccounted : Accounted manager.zones) (pageId : UInt32) :
    Accounted (cacheEvictPage manager pageId).1.zones := by
  unfold cacheEvictPage
  split
  · exact haccounted
  · split
    · exact haccounted
    · refine (forall_mem_updateFirst_iff haccounted).mpr fun found hfound ↦ ?_
      have hany := List.find?_some hfound
      exact (haccounted found (List.mem_of_find?_eq_some hfound)).evict hany

/-- A zone is accounted for after it has been flushed. -/
theorem ZoneAccounted.flush {zone : CacheZone} (haccounted : ZoneAccounted zone) :
    ZoneAccounted { zone with
      pages := zone.pages.map CachePage.flush
      usedSize := zone.usedSize - (zone.pages.countP CachePage.occupied).toUInt64 * 4096 } := by
  have hnone : (zone.pages.map CachePage.flush).countP CachePage.occupied = 0 := by
    rw [List.countP_eq_zero]
    intro page hpage
    obtain ⟨old, -, rfl⟩ := List.mem_map.mp hpage
    unfold CachePage.flush
    split_ifs with hold
    · decide
    · exact hold
  have hzero : zone.usedSize - (zone.pages.countP CachePage.occupied).toUInt64 * 4096 = 0 := by
    have hused := haccounted.used
    have hbound := zone.usedSize.toNat_lt
    have hsame : (zone.pages.countP CachePage.occupied).toUInt64 * 4096 = zone.usedSize := by
      rw [← UInt64.toNat_inj, UInt64.toNat_mul, show (4096 : UInt64).toNat = 4096 from rfl,
        show (zone.pages.countP CachePage.occupied).toUInt64.toNat =
          zone.pages.countP CachePage.occupied % 2 ^ 64 from UInt64.toNat_ofNat]
      omega
    rw [hsame, UInt64.sub_self]
  refine ⟨?_, ?_, haccounted.whole, ?_⟩
  · show (zone.usedSize - (zone.pages.countP CachePage.occupied).toUInt64 * 4096).toNat =
      4096 * (zone.pages.map CachePage.flush).countP CachePage.occupied
    rw [hzero, hnone]
    rfl
  · show zone.usedSize - (zone.pages.countP CachePage.occupied).toUInt64 * 4096 ≤ zone.totalSize
    rw [hzero]
    exact UInt64.zero_le
  · rw [List.length_map]
    exact haccounted.slots

/-- All zones are accounted for after a page has been pinned or unpinned. -/
theorem Accounted.setPinned (haccounted : Accounted manager.zones) (pageId : UInt32)
    (pinned : Bool) : Accounted (setPinned manager pageId pinned).1.zones := by
  unfold PageCache.setPinned
  split_ifs
  · exact haccounted.onFirst (by intro; rfl)
  · exact haccounted

/-- All zones are accounted for after dirty pages have been written back. -/
theorem Accounted.writebackDirtyPages (haccounted : Accounted manager.zones) :
    Accounted (cacheWritebackDirtyPages manager).1.zones := by
  intro found hfound
  obtain ⟨old, hold, rfl⟩ := List.mem_map.mp hfound
  refine (haccounted old hold).of_occupied ?_
  rw [List.map_map]
  refine List.map_congr_left fun page _ ↦ ?_
  rw [Function.comp_apply, CachePage.writeBack]
  split_ifs
  · rfl
  · rfl

/-- All zones are accounted for after every call. -/
theorem Accounted.step (haccounted : Accounted manager.zones) (call : CacheCall) :
    Accounted (cacheStep manager call).zones := by
  cases call with
  | readPage diskOffset =>
    simp only [cacheStep, cacheReadPage]
    split
    · exact haccounted
    · exact haccounted.onFirst (by intro; rfl)
  | writePage diskOffset given allocated =>
    exact haccounted.writePage diskOffset given allocated
  | evictPage pageId => exact haccounted.evictPage pageId
  | evictLruPage =>
    rw [cacheStep, cacheEvictLruPage]
    split_ifs
    · exact haccounted.evictPage _
    · exact haccounted
  | evictLfuPage =>
    rw [cacheStep, cacheEvictLfuPage]
    split_ifs
    · exact haccounted.evictPage _
    · exact haccounted
  | writebackDirtyPages => exact haccounted.writebackDirtyPages
  | flushZone zoneId =>
    rw [cacheStep, cacheFlushZone]
    split_ifs
    · exact haccounted
    · exact forall_mem_modify haccounted (fun _ hzone ↦ hzone.flush) _
  | lockPage pageId => exact haccounted.setPinned pageId true
  | unlockPage pageId => exact haccounted.setPinned pageId false
  | prefetchPages startOffset count allocated =>
    rw [cacheStep, cachePrefetchPages]
    split_ifs
    · exact haccounted
    · exact haccounted.prefetchRounds startOffset allocated count.toNat

/-! ### Runs -/

/-- The used size of every zone is the size of the pages that it holds and at most its total size,
and the zone that a write chooses has a free slot, which is the one that the write takes. -/
structure CacheAccounted (manager : PageCacheManager) : Prop where
  used : ∀ zone ∈ manager.zones,
    zone.usedSize.toNat = 4096 * zone.pages.countP CachePage.occupied
  within : ∀ zone ∈ manager.zones, zone.usedSize ≤ zone.totalSize
  free : ∀ zone i, bestZone manager.zones = some (zone, i) →
    ∃ page, zone.pages[zone.freeIdx]? = some page ∧ page.occupied = false

/-- A write that is successful fills one slot, which was free, and leaves all others. -/
def FillsOneSlot (manager : PageCacheManager) (diskOffset : UInt64) (given : Option Block)
    (allocated : Bool) : Prop :=
  (cacheWritePage manager diskOffset given allocated).2 = 0 →
    ∃ zone slot page new,
      slotAt manager.zones zone slot = some page ∧ page.occupied = false ∧
      slotAt (cacheWritePage manager diskOffset given allocated).1.zones zone slot = some new ∧
      new.occupied = true ∧ new.diskOffset = diskOffset ∧ new.pageData = given ∧
      ∀ otherZone otherSlot, ¬ (otherZone = zone ∧ otherSlot = slot) →
        slotAt (cacheWritePage manager diskOffset given allocated).1.zones otherZone otherSlot =
          slotAt manager.zones otherZone otherSlot

/-- Every write that a call makes fills one free slot, if it is successful. -/
def WritesFillSlots (manager : PageCacheManager) : CacheCall → Prop
  | .writePage diskOffset given allocated => FillsOneSlot manager diskOffset given allocated
  | .prefetchPages startOffset count allocated => ∀ i < count.toNat,
      FillsOneSlot (prefetchRounds manager startOffset allocated i)
        (startOffset + (i.toUInt32 * 4096).toUInt64) (some fun _ ↦ 0) (allocated i)
  | _ => True

/-- A cache whose zones are accounted for has a free slot in the zone that a write chooses. -/
theorem Accounted.cacheAccounted (haccounted : Accounted manager.zones) :
    CacheAccounted manager := by
  refine ⟨fun zone hzone ↦ (haccounted zone hzone).used,
    fun zone hzone ↦ (haccounted zone hzone).within, fun zone i hbest ↦ ?_⟩
  obtain ⟨hzone, hroom⟩ := bestZone_spec hbest
  obtain ⟨page, hpage, hfree⟩ := (haccounted zone (List.mem_of_getElem? hzone)).free hroom
  exact ⟨page, hpage, by rw [CachePage.occupied, hfree, Option.isSome_none]⟩

/-- A write to a cache whose zones are accounted for fills one free slot, if it is successful. -/
theorem Accounted.fillsOneSlot (haccounted : Accounted manager.zones) (diskOffset : UInt64)
    (given : Option Block) (allocated : Bool) :
    FillsOneSlot manager diskOffset given allocated := by
  intro hsuccess
  cases htaken : takenSlot manager.zones with
  | none =>
    rw [cacheWritePage_of_takenSlot_eq_none htaken] at hsuccess
    exact absurd hsuccess (show (-1 : Int) ≠ 0 by decide)
  | some taken =>
    cases given with
    | none => exact absurd hsuccess (show (-1 : Int) ≠ 0 by decide)
    | some data =>
      obtain ⟨page, hpage, hfree, hslots⟩ := write_slots haccounted htaken diskOffset data
        allocated
      obtain rfl : allocated = true := allocated_of_cacheWritePage_eq_zero htaken hsuccess
      refine ⟨taken.1, taken.2, page, _, hpage, ?_, (hslots _ _).trans (if_pos ⟨rfl, rfl⟩), rfl,
        rfl, rfl, fun otherZone otherSlot hother ↦ ?_⟩
      · rw [CachePage.occupied, hfree, Option.isSome_none]
      · rw [hslots, if_neg hother]

/-- The zones of a fresh cache are accounted for. -/
theorem accounted_cacheManagerInit (cacheSize : UInt64) (nextCachePageId : UInt32) :
    Accounted (cacheManagerInit cacheSize nextCachePageId).zones := by
  have htotal : (pageCount cacheSize * 4096).toUInt64.toNat =
      (pageCount cacheSize).toNat * 4096 % 2 ^ 32 := by
    rw [UInt32.toNat_toUInt64, UInt32.toNat_mul]
    rfl
  intro zone hzone
  obtain rfl := List.eq_of_mem_replicate hzone
  refine ⟨?_, UInt64.zero_le, ?_, ?_⟩
  · simp [List.countP_replicate, emptyPage, CachePage.occupied]
  · rw [htotal]
    omega
  · rw [htotal, List.length_replicate]
    omega

/-- All zones are accounted for along every run of a cache. -/
theorem alongRun_accounted (cacheSize : UInt64) (nextCachePageId : UInt32)
    (calls : List CacheCall) :
    AlongRun cacheStep (fun manager ↦ Accounted manager.zones)
      (cacheManagerInit cacheSize nextCachePageId) calls :=
  alongRun_invariant (fun manager : PageCacheManager ↦ Accounted manager.zones) (fun _ _ ↦ True)
    (fun _ call haccounted _ ↦ haccounted.step call)
    (accounted_cacheManagerInit cacheSize nextCachePageId) (fun _ _ _ ↦ trivial)

/-- In every run of a cache the used size of every zone is the size of the pages that it holds and
at most its total size, the zone that a write chooses has a free slot, and every successful write
fills one free slot and leaves all others. -/
theorem cacheSlots_accounted (cacheSize : UInt64) (nextCachePageId : UInt32)
    (calls : List CacheCall) :
    AlongRun cacheStep CacheAccounted (cacheManagerInit cacheSize nextCachePageId) calls ∧
      EveryStep cacheStep WritesFillSlots (cacheManagerInit cacheSize nextCachePageId) calls := by
  have halong := alongRun_accounted cacheSize nextCachePageId calls
  refine ⟨halong.imp fun _ haccounted ↦ haccounted.cacheAccounted,
    halong.everyStep fun manager call haccounted ↦ ?_⟩
  cases call with
  | writePage diskOffset given allocated =>
    exact haccounted.fillsOneSlot diskOffset given allocated
  | prefetchPages startOffset count allocated =>
    intro i _
    exact (haccounted.prefetchRounds startOffset allocated i).fillsOneSlot _ _ _
  | _ => trivial

end OneOS.PageCache
