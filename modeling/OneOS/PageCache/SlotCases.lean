import OneOS.PageCache.Accounting

/-!
# What a call does to a slot

`slot_cases` says once for all calls what can become of a slot: its page is kept, with its id,
offset and data; or its page is evicted or flushed; or it was free, and if it holds a page after the
call, a write to the offset of that page was successful. What holds of pages over whole runs follows
from these three cases.
-/

set_option autoImplicit false
set_option relaxedAutoImplicit false

namespace OneOS.PageCache

open Foundation

/-! ### The three cases -/

/-- The page is the same one, though it may have been accessed, written back or pinned. -/
structure SamePage (page after : CachePage) : Prop where
  cachePageId : after.cachePageId = page.cachePageId
  diskOffset : after.diskOffset = page.diskOffset
  pageData : after.pageData = page.pageData

/-- How a call may change whether a page is pinned. -/
def PinChange (call : CacheCall) (page after : CachePage) : Prop :=
  after.isPinned = page.isPinned ∨
    call = .lockPage page.cachePageId ∧ after.isPinned = true ∨
    call = .unlockPage page.cachePageId

/-- The id of the page that a call evicts. -/
def evictedId (manager : PageCacheManager) : CacheCall → Option UInt32
  | .evictPage pageId => some pageId
  | .evictLruPage => if 0 < oldestPageId manager then some (oldestPageId manager) else none
  | .evictLfuPage => if 0 < lfuPageId manager then some (lfuPageId manager) else none
  | _ => none

/-- The call evicts the page or flushes its zone. -/
def Empties (manager : PageCacheManager) (call : CacheCall) (zone : ℕ) (page : CachePage) : Prop :=
  (∃ pageId, evictedId manager call = some pageId ∧
    findPage (evictTest pageId) manager.zones = some page ∧ page.isPinned = false) ∨
  ∃ zoneId, call = .flushZone zoneId ∧ zoneId.toNat = zone

/-- The call makes a successful write to the offset. -/
def WritesTo (manager : PageCacheManager) (diskOffset : UInt64) : CacheCall → Prop
  | .writePage offset given allocated =>
    offset = diskOffset ∧ (cacheWritePage manager offset given allocated).2 = 0
  | .prefetchPages startOffset count allocated => ∃ i < count.toNat,
    startOffset + (i.toUInt32 * 4096).toUInt64 = diskOffset ∧
      (cacheWritePage (prefetchRounds manager startOffset allocated i) diskOffset
        (some fun _ ↦ 0) (allocated i)).2 = 0
  | _ => False

/-- The call is one that writes pages. -/
def Writes : CacheCall → Prop
  | .writePage _ _ _ => True
  | .prefetchPages _ _ _ => True
  | _ => False

/-- What becomes of the page in a slot. -/
def SlotCase (manager : PageCacheManager) (call : CacheCall) (zone : ℕ) (page after : CachePage) :
    Prop :=
  SamePage page after ∧ PinChange call page after ∨
    page.occupied = true ∧ after = emptyPage ∧ Empties manager call zone page ∨
    page.occupied = false ∧ Writes call ∧
      (after.occupied = true → WritesTo manager after.diskOffset call)

variable {manager : PageCacheManager} {call : CacheCall} {zone slot : ℕ} {page after : CachePage}

theorem SamePage.refl (page : CachePage) : SamePage page page :=
  ⟨rfl, rfl, rfl⟩

theorem SamePage.trans {last : CachePage} (hfirst : SamePage page after)
    (hsecond : SamePage after last) : SamePage page last :=
  ⟨hsecond.cachePageId.trans hfirst.cachePageId, hsecond.diskOffset.trans hfirst.diskOffset,
    hsecond.pageData.trans hfirst.pageData⟩

theorem SamePage.occupied (hsame : SamePage page after) : after.occupied = page.occupied := by
  rw [CachePage.occupied, CachePage.occupied, hsame.pageData]

/-- A slot that is left as it is. -/
theorem slotCase_refl (page : CachePage) : SlotCase manager call zone page page :=
  Or.inl ⟨SamePage.refl page, Or.inl rfl⟩

/-! ### Single calls -/

/-- A change of the first page found leaves the pages of all slots the same, changed or not. -/
theorem slotAt_onFirst {test : CachePage → Bool} {zones : List CacheZone} {found : CachePage}
    (hfind : findPage test zones = some found) (hpage : slotAt zones zone slot = some page)
    (change : CachePage → CachePage) :
    slotAt (onFirstZone test (CacheZone.onFirst test change) zones) zone slot = some page ∨
      test page = true ∧
        slotAt (onFirstZone test (CacheZone.onFirst test change) zones) zone slot =
          some (change page) := by
  obtain ⟨foundZone, foundSlot, hfinds, hslots⟩ := findsAt_of_findPage hfind
  rw [hslots _ change fun _ ↦ rfl]
  split_ifs with hhere
  · obtain ⟨rfl, rfl⟩ := hhere
    obtain rfl : found = page := Option.some.inj (hfinds.here.symm.trans hpage)
    exact Or.inr ⟨hfinds.passes, rfl⟩
  · exact Or.inl hpage

/-- An eviction empties the slot of the page that it finds, if that is not pinned. -/
theorem evict_slots {pageId : UInt32} {found : CachePage}
    (hfind : findPage (evictTest pageId) manager.zones = some found)
    (hunpinned : found.isPinned = false) :
    ∃ zone slot, FindsAt (evictTest pageId) manager.zones zone slot found ∧
      ∀ otherZone otherSlot,
        slotAt (cacheEvictPage manager pageId).1.zones otherZone otherSlot =
          if otherZone = zone ∧ otherSlot = slot then some emptyPage
          else slotAt manager.zones otherZone otherSlot := by
  obtain ⟨zone, slot, hfinds, hslots⟩ := findsAt_of_findPage hfind
  refine ⟨zone, slot, hfinds, fun otherZone otherSlot ↦ ?_⟩
  simp only [cacheEvictPage, hfind, hunpinned, Bool.false_eq_true, if_false]
  exact hslots _ (fun _ ↦ emptyPage) (fun _ ↦ rfl) otherZone otherSlot

/-- What an eviction does to a slot. -/
theorem slot_evictPage {pageId : UInt32} (hid : evictedId manager call = some pageId)
    (hpage : slotAt manager.zones zone slot = some page) :
    ∃ after, slotAt (cacheEvictPage manager pageId).1.zones zone slot = some after ∧
      SlotCase manager call zone page after := by
  cases hfind : findPage (evictTest pageId) manager.zones with
  | none =>
    rw [cacheEvictPage, hfind]
    exact ⟨page, hpage, slotCase_refl page⟩
  | some found =>
    cases hpinned : found.isPinned with
    | true =>
      simp only [cacheEvictPage, hfind, hpinned, if_true]
      exact ⟨page, hpage, slotCase_refl page⟩
    | false =>
      obtain ⟨foundZone, foundSlot, hfinds, hslots⟩ := evict_slots hfind hpinned
      rw [hslots]
      split_ifs with hhere
      · obtain ⟨rfl, rfl⟩ := hhere
        obtain rfl : found = page := Option.some.inj (hfinds.here.symm.trans hpage)
        have hoccupied := hfinds.passes
        rw [evictTest, Bool.and_eq_true] at hoccupied
        exact ⟨emptyPage, rfl, Or.inr (Or.inl ⟨hoccupied.2, rfl,
          Or.inl ⟨pageId, hid, hfind, hpinned⟩⟩)⟩
      · exact ⟨page, hpage, slotCase_refl page⟩

/-- What a write does to a slot. -/
theorem slot_writePage (haccounted : Accounted manager.zones) (diskOffset : UInt64)
    (given : Option Block) (allocated : Bool)
    (hpage : slotAt manager.zones zone slot = some page) :
    ∃ after, slotAt (cacheWritePage manager diskOffset given allocated).1.zones zone slot =
      some after ∧ (after = page ∨ page.occupied = false ∧ (after.occupied = true →
        after.diskOffset = diskOffset ∧
          (cacheWritePage manager diskOffset given allocated).2 = 0)) := by
  cases htaken : takenSlot manager.zones with
  | none =>
    rw [cacheWritePage_of_takenSlot_eq_none htaken]
    exact ⟨page, hpage, Or.inl rfl⟩
  | some taken =>
    cases given with
    | none => exact ⟨page, hpage, Or.inl rfl⟩
    | some data =>
      obtain ⟨free, hfree, hempty, hslots⟩ := write_slots haccounted htaken diskOffset data
        allocated
      rw [hslots]
      split_ifs with hhere
      · obtain ⟨hzone, hslot⟩ := hhere
        rw [hzone, hslot, hfree, Option.some.injEq] at hpage
        subst hpage
        refine ⟨_, rfl, Or.inr ⟨by rw [CachePage.occupied, hempty, Option.isSome_none], ?_⟩⟩
        cases allocated with
        | true =>
          obtain ⟨best, hbest, -⟩ := Option.map_eq_some_iff.mp htaken
          exact fun _ ↦ ⟨rfl, by simp [cacheWritePage, hbest]⟩
        | false => exact fun hoccupied ↦ absurd hoccupied Bool.false_ne_true
      · exact ⟨page, hpage, Or.inl rfl⟩

/-- What the first rounds of a prefetch do to a slot. -/
theorem slot_prefetchRounds (haccounted : Accounted manager.zones) (startOffset : UInt64)
    (allocated : ℕ → Bool) (rounds : ℕ) (hpage : slotAt manager.zones zone slot = some page) :
    ∃ after, slotAt (prefetchRounds manager startOffset allocated rounds).zones zone slot =
      some after ∧ (after = page ∨ page.occupied = false ∧ (after.occupied = true →
        ∃ i < rounds, startOffset + (i.toUInt32 * 4096).toUInt64 = after.diskOffset ∧
          (cacheWritePage (prefetchRounds manager startOffset allocated i) after.diskOffset
            (some fun _ ↦ 0) (allocated i)).2 = 0)) := by
  induction rounds with
  | zero => exact ⟨page, hpage, Or.inl rfl⟩
  | succ rounds ih =>
    obtain ⟨middle, hmiddle, hcase⟩ := ih
    rw [prefetchRounds_succ]
    obtain ⟨after, hafter, hwrite⟩ := slot_writePage
      (haccounted.prefetchRounds startOffset allocated rounds)
      (startOffset + (rounds.toUInt32 * 4096).toUInt64) (some fun _ ↦ 0) (allocated rounds) hmiddle
    refine ⟨after, hafter, ?_⟩
    rcases hwrite with rfl | ⟨hfree, hwritten⟩
    · -- the round leaves the slot
      rcases hcase with rfl | ⟨hfree, hearlier⟩
      · exact Or.inl rfl
      · refine Or.inr ⟨hfree, fun hoccupied ↦ ?_⟩
        obtain ⟨i, hi, hwritten⟩ := hearlier hoccupied
        exact ⟨i, hi.trans (Nat.lt_succ_self _), hwritten⟩
    · -- the round takes the slot, which no earlier round has filled
      have hempty : page.occupied = false := by
        rcases hcase with rfl | ⟨hempty, -⟩
        · exact hfree
        · exact hempty
      refine Or.inr ⟨hempty, fun hoccupied ↦ ?_⟩
      obtain ⟨hoffset, hsuccess⟩ := hwritten hoccupied
      exact ⟨rounds, Nat.lt_succ_self _, hoffset.symm, by rwa [hoffset]⟩

/-- What a flush does to a slot. -/
theorem slotAt_cacheFlushZone {zoneId : UInt32}
    (hpage : slotAt manager.zones zone slot = some page) :
    slotAt (cacheFlushZone manager zoneId).1.zones zone slot =
      some (if zoneId.toNat = zone then page.flush else page) := by
  obtain ⟨found, hfound, -⟩ := slotAt_eq_some_iff.mp hpage
  have hzone : zone < manager.zones.length := (List.getElem?_eq_some_iff.mp hfound).1
  unfold cacheFlushZone
  split_ifs with hmissing hhere hhere
  · omega
  · exact hpage
  · rw [slotAt_modify_map _ CachePage.flush (by intro; rfl), if_pos hhere, hpage,
      Option.map_some]
  · rw [slotAt_modify_map _ CachePage.flush (by intro; rfl), if_neg hhere, hpage]

/-- What writing back does to a slot. -/
theorem slotAt_cacheWritebackDirtyPages (hpage : slotAt manager.zones zone slot = some page) :
    slotAt (cacheWritebackDirtyPages manager).1.zones zone slot = some page.writeBack := by
  obtain ⟨found, hfound, hslot⟩ := slotAt_eq_some_iff.mp hpage
  refine slotAt_eq_some_iff.mpr
    ⟨{ found with pages := found.pages.map CachePage.writeBack }, ?_, ?_⟩
  · simp [cacheWritebackDirtyPages, hfound]
  · simp [hslot]

/-- Writing back leaves the page the same and pinned as it was. -/
theorem samePage_writeBack (page : CachePage) :
    SamePage page page.writeBack ∧ page.writeBack.isPinned = page.isPinned := by
  unfold CachePage.writeBack
  split_ifs
  · exact ⟨⟨rfl, rfl, rfl⟩, rfl⟩
  · exact ⟨SamePage.refl page, rfl⟩

/-- What pinning or unpinning a page does to a slot. -/
theorem slot_setPinned (pageId : UInt32) (pinned : Bool)
    (hpage : slotAt manager.zones zone slot = some page) :
    ∃ after, slotAt (setPinned manager pageId pinned).1.zones zone slot = some after ∧
      (after = page ∨ page.cachePageId = pageId ∧ after = { page with isPinned := pinned }) := by
  unfold setPinned
  split_ifs with hsome
  · obtain ⟨found, hfind⟩ := Option.isSome_iff_exists.mp hsome
    rcases slotAt_onFirst hfind hpage fun page ↦ { page with isPinned := pinned } with
      hsame | ⟨hid, hchanged⟩
    · exact ⟨page, hsame, Or.inl rfl⟩
    · exact ⟨_, hchanged, Or.inr ⟨by simpa using hid, rfl⟩⟩
  · exact ⟨page, hpage, Or.inl rfl⟩

/-! ### All calls -/

/-- Every slot is still there after a call, and its page is kept, evicted or flushed, or it was
free. -/
theorem slot_cases (haccounted : Accounted manager.zones) (call : CacheCall)
    (hpage : slotAt manager.zones zone slot = some page) :
    ∃ after, slotAt (cacheStep manager call).zones zone slot = some after ∧
      SlotCase manager call zone page after := by
  cases call with
  | readPage diskOffset =>
    simp only [cacheStep, cacheReadPage]
    split
    · exact ⟨page, hpage, slotCase_refl page⟩
    · rename_i found hfind
      rcases slotAt_onFirst hfind hpage fun page ↦
          { page with accessCount := page.accessCount + 1, lastAccessTime := 0 } with
        hsame | ⟨-, hchanged⟩
      · exact ⟨page, hsame, slotCase_refl page⟩
      · exact ⟨_, hchanged, Or.inl ⟨⟨rfl, rfl, rfl⟩, Or.inl rfl⟩⟩
  | writePage diskOffset given allocated =>
    obtain ⟨after, hafter, hcase⟩ := slot_writePage haccounted diskOffset given allocated hpage
    refine ⟨after, hafter, ?_⟩
    rcases hcase with rfl | ⟨hfree, hwritten⟩
    · exact slotCase_refl after
    · refine Or.inr (Or.inr ⟨hfree, trivial, fun hoccupied ↦ ?_⟩)
      obtain ⟨hoffset, hsuccess⟩ := hwritten hoccupied
      exact ⟨hoffset.symm, hsuccess⟩
  | evictPage pageId => exact slot_evictPage rfl hpage
  | evictLruPage =>
    rw [cacheStep, cacheEvictLruPage]
    split_ifs with hsome
    · exact slot_evictPage (if_pos hsome) hpage
    · exact ⟨page, hpage, slotCase_refl page⟩
  | evictLfuPage =>
    rw [cacheStep, cacheEvictLfuPage]
    split_ifs with hsome
    · exact slot_evictPage (if_pos hsome) hpage
    · exact ⟨page, hpage, slotCase_refl page⟩
  | writebackDirtyPages =>
    obtain ⟨hsame, hpinned⟩ := samePage_writeBack page
    exact ⟨_, slotAt_cacheWritebackDirtyPages hpage, Or.inl ⟨hsame, Or.inl hpinned⟩⟩
  | flushZone zoneId =>
    refine ⟨_, slotAt_cacheFlushZone hpage, ?_⟩
    split_ifs with hhere
    · unfold CachePage.flush
      split_ifs with hoccupied
      · exact Or.inr (Or.inl ⟨hoccupied, rfl, Or.inr ⟨zoneId, rfl, hhere⟩⟩)
      · exact slotCase_refl page
    · exact slotCase_refl page
  | lockPage pageId =>
    obtain ⟨after, hafter, hcase⟩ := slot_setPinned pageId true hpage
    refine ⟨after, hafter, ?_⟩
    rcases hcase with rfl | ⟨rfl, rfl⟩
    · exact slotCase_refl after
    · exact Or.inl ⟨⟨rfl, rfl, rfl⟩, Or.inr (Or.inl ⟨rfl, rfl⟩)⟩
  | unlockPage pageId =>
    obtain ⟨after, hafter, hcase⟩ := slot_setPinned pageId false hpage
    refine ⟨after, hafter, ?_⟩
    rcases hcase with rfl | ⟨rfl, rfl⟩
    · exact slotCase_refl after
    · exact Or.inl ⟨⟨rfl, rfl, rfl⟩, Or.inr (Or.inr rfl)⟩
  | prefetchPages startOffset count allocated =>
    rw [cacheStep, cachePrefetchPages]
    split_ifs
    · exact ⟨page, hpage, slotCase_refl page⟩
    · obtain ⟨after, hafter, hcase⟩ :=
        slot_prefetchRounds haccounted startOffset allocated count.toNat hpage
      refine ⟨after, hafter, ?_⟩
      rcases hcase with rfl | ⟨hfree, hwritten⟩
      · exact slotCase_refl after
      · exact Or.inr (Or.inr ⟨hfree, trivial, hwritten⟩)

/-! ### Slots do not appear -/

/-- The number of slots of every zone. -/
def shape (zones : List CacheZone) : List ℕ :=
  zones.map fun zone ↦ zone.pages.length

/-- There is something in a slot exactly when the shape has it. -/
theorem slotAt_isSome_iff {zones : List CacheZone} :
    (slotAt zones zone slot).isSome ↔
      ∃ count, (shape zones)[zone]? = some count ∧ slot < count := by
  rw [slotAt, shape, List.getElem?_map]
  cases zones[zone]? with
  | none => simp
  | some found => simp

/-- A write keeps the shape. -/
theorem shape_cacheWritePage (manager : PageCacheManager) (diskOffset : UInt64)
    (given : Option Block) (allocated : Bool) :
    shape (cacheWritePage manager diskOffset given allocated).1.zones = shape manager.zones := by
  unfold cacheWritePage
  split
  · exact map_modify_of_keep (by intro; exact List.length_modify _ _ _) _
  · rfl

/-- The caches have the same slots and the same next id. -/
structure SameFrame (before after : PageCacheManager) : Prop where
  shape : shape after.zones = shape before.zones
  nextCachePageId : after.nextCachePageId = before.nextCachePageId

theorem SameFrame.refl (manager : PageCacheManager) : SameFrame manager manager :=
  ⟨rfl, rfl⟩

/-- An eviction takes no slot and no id. -/
theorem sameFrame_cacheEvictPage (manager : PageCacheManager) (pageId : UInt32) :
    SameFrame manager (cacheEvictPage manager pageId).1 := by
  unfold cacheEvictPage
  split
  · exact SameFrame.refl manager
  · split
    · exact SameFrame.refl manager
    · exact ⟨map_updateFirst (by intros; exact List.length_modify _ _ _), rfl⟩

/-- Pinning takes no slot and no id. -/
theorem sameFrame_setPinned (manager : PageCacheManager) (pageId : UInt32) (pinned : Bool) :
    SameFrame manager (setPinned manager pageId pinned).1 := by
  unfold setPinned
  split_ifs
  · exact ⟨map_updateFirst (by intros; exact List.length_modify _ _ _), rfl⟩
  · exact SameFrame.refl manager

/-- A call that writes no page takes no slot and no id. -/
theorem sameFrame_cacheStep (manager : PageCacheManager) (hreads : ¬ Writes call) :
    SameFrame manager (cacheStep manager call) := by
  cases call with
  | readPage diskOffset =>
    simp only [cacheStep, cacheReadPage]
    split
    · exact ⟨rfl, rfl⟩
    · exact ⟨map_updateFirst (by intros; exact List.length_modify _ _ _), rfl⟩
  | writePage diskOffset given allocated => exact absurd trivial hreads
  | evictPage pageId => exact sameFrame_cacheEvictPage manager pageId
  | evictLruPage =>
    rw [cacheStep, cacheEvictLruPage]
    split_ifs
    · exact sameFrame_cacheEvictPage manager _
    · exact SameFrame.refl manager
  | evictLfuPage =>
    rw [cacheStep, cacheEvictLfuPage]
    split_ifs
    · exact sameFrame_cacheEvictPage manager _
    · exact SameFrame.refl manager
  | writebackDirtyPages => exact ⟨by simp [cacheStep, cacheWritebackDirtyPages, shape], rfl⟩
  | flushZone zoneId =>
    rw [cacheStep, cacheFlushZone]
    split_ifs
    · exact SameFrame.refl manager
    · exact ⟨map_modify_of_keep (by intro; exact List.length_map _) _, rfl⟩
  | lockPage pageId => exact sameFrame_setPinned manager pageId true
  | unlockPage pageId => exact sameFrame_setPinned manager pageId false
  | prefetchPages startOffset count allocated => exact absurd trivial hreads

/-- Every call keeps the shape. -/
theorem shape_cacheStep (manager : PageCacheManager) (call : CacheCall) :
    shape (cacheStep manager call).zones = shape manager.zones := by
  by_cases hwrites : Writes call
  · cases call with
    | writePage diskOffset given allocated =>
      exact shape_cacheWritePage manager diskOffset given allocated
    | prefetchPages startOffset count allocated =>
      rw [cacheStep, cachePrefetchPages]
      split_ifs
      · rfl
      · show shape (prefetchRounds manager startOffset allocated count.toNat).zones = _
        induction count.toNat with
        | zero => rfl
        | succ rounds ih => rw [prefetchRounds_succ, shape_cacheWritePage, ih]
    | _ => exact absurd hwrites id
  · exact (sameFrame_cacheStep manager hwrites).shape

/-- A slot that is there after a call was there before, and one of the three cases applies. -/
theorem slot_cases_back (haccounted : Accounted manager.zones) {call : CacheCall}
    (hafter : slotAt (cacheStep manager call).zones zone slot = some after) :
    ∃ page, slotAt manager.zones zone slot = some page ∧ SlotCase manager call zone page after := by
  have hsome : (slotAt (cacheStep manager call).zones zone slot).isSome := by
    rw [hafter]
    rfl
  rw [slotAt_isSome_iff, shape_cacheStep, ← slotAt_isSome_iff] at hsome
  obtain ⟨page, hpage⟩ := Option.isSome_iff_exists.mp hsome
  obtain ⟨other, hother, hcase⟩ := slot_cases haccounted call hpage
  obtain rfl : other = after := Option.some.inj (hother.symm.trans hafter)
  exact ⟨page, hpage, hcase⟩

end OneOS.PageCache
