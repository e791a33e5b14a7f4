import OneOS.PageCache.SlotCases

/-!
# Pinned pages

A page that has been locked should stay in its slot until it is unlocked. The evictions keep to
that: they refuse a page that is pinned. A flush does not look at the pin and takes all pages out of
a zone.

`cache_lock_page` pins the first slot with the id, so it pins the page that is meant only while ids
are distinct (`IdsDistinct`), and they are as long as the counter that numbers pages does not wrap
(`IdsGrow`). `pinnedStays_iff` is the exact condition: the zone of the page is not flushed.
-/

set_option autoImplicit false
set_option relaxedAutoImplicit false

namespace OneOS.PageCache

open Foundation

variable {manager : PageCacheManager} {call : CacheCall} {zone slot : ℕ} {page after : CachePage}

/-! ### Ids of pages -/

/-- The call does not make the counter that numbers pages wrap. -/
def IdsGrow (manager : PageCacheManager) (call : CacheCall) : Prop :=
  manager.nextCachePageId ≤ (cacheStep manager call).nextCachePageId

/-- All ids are below the next one, and no two slots have the same id, unless it is the 0 of a slot
that holds no page. -/
structure IdsDistinct (manager : PageCacheManager) : Prop where
  below : ∀ zone slot page, slotAt manager.zones zone slot = some page →
    page.cachePageId < manager.nextCachePageId
  numbered : ∀ zone slot page, slotAt manager.zones zone slot = some page →
    page.occupied = true → page.cachePageId ≠ 0
  unique : ∀ zone slot page otherZone otherSlot other,
    slotAt manager.zones zone slot = some page →
    slotAt manager.zones otherZone otherSlot = some other →
    page.cachePageId = other.cachePageId → page.cachePageId ≠ 0 →
      zone = otherZone ∧ slot = otherSlot

/-- The ids of a fresh cache are distinct, as it has no page. -/
theorem idsDistinct_cacheManagerInit (cacheSize : UInt64) {nextCachePageId : UInt32}
    (hcounter : 0 < nextCachePageId) :
    IdsDistinct (cacheManagerInit cacheSize nextCachePageId) := by
  have hempty (zone slot : ℕ) (page : CachePage)
      (hpage : slotAt (cacheManagerInit cacheSize nextCachePageId).zones zone slot = some page) :
      page = emptyPage := by
    obtain ⟨found, hfound, hslot⟩ := slotAt_eq_some_iff.mp hpage
    obtain rfl := List.eq_of_mem_replicate (List.mem_of_getElem? hfound)
    exact List.eq_of_mem_replicate (List.mem_of_getElem? hslot)
  refine ⟨fun zone slot page hpage ↦ ?_, fun zone slot page hpage hoccupied ↦ ?_,
    fun zone slot page _ _ _ hpage _ _ hid ↦ ?_⟩
  · rw [hempty zone slot page hpage]
    exact hcounter
  · rw [hempty zone slot page hpage] at hoccupied
    exact absurd hoccupied (by decide)
  · rw [hempty zone slot page hpage] at hid
    exact absurd rfl hid

/-- Ids stay distinct when every slot keeps its id or is emptied. -/
theorem IdsDistinct.of_slots {next : PageCacheManager} (hids : IdsDistinct manager)
    (hcounter : next.nextCachePageId = manager.nextCachePageId)
    (hslots : ∀ zone slot after, slotAt next.zones zone slot = some after →
      ∃ page, slotAt manager.zones zone slot = some page ∧
        (SamePage page after ∨ after = emptyPage)) : IdsDistinct next := by
  refine ⟨fun zone slot after hafter ↦ ?_, fun zone slot after hafter hoccupied ↦ ?_,
    fun zone slot after otherZone otherSlot otherAfter hafter hotherAfter hsameId hid ↦ ?_⟩
  · obtain ⟨page, hpage, hcase⟩ := hslots zone slot after hafter
    have hbelow := hids.below zone slot page hpage
    rw [hcounter]
    rcases hcase with hsame | rfl
    · rwa [hsame.cachePageId]
    · exact UInt32.lt_of_le_of_lt UInt32.zero_le hbelow
  · obtain ⟨page, hpage, hcase⟩ := hslots zone slot after hafter
    rcases hcase with hsame | rfl
    · rw [hsame.cachePageId]
      exact hids.numbered zone slot page hpage (hsame.occupied ▸ hoccupied)
    · exact absurd hoccupied (by decide)
  · obtain ⟨page, hpage, hcase⟩ := hslots zone slot after hafter
    obtain ⟨other, hother, hotherCase⟩ := hslots otherZone otherSlot otherAfter hotherAfter
    have hsame : SamePage page after := hcase.resolve_right fun hempty ↦ hid (by rw [hempty]; rfl)
    have hotherSame : SamePage other otherAfter :=
      hotherCase.resolve_right fun hempty ↦ hid (by rw [hsameId, hempty]; rfl)
    rw [hsame.cachePageId] at hid hsameId
    rw [hotherSame.cachePageId] at hsameId
    exact hids.unique zone slot page otherZone otherSlot other hpage hother hsameId hid

/-- A write takes the next id, or changes nothing. -/
theorem cacheWritePage_cases (manager : PageCacheManager) (diskOffset : UInt64)
    (given : Option Block) (allocated : Bool) :
    (cacheWritePage manager diskOffset given allocated).1 = manager ∨
      (cacheWritePage manager diskOffset given allocated).1.nextCachePageId =
          manager.nextCachePageId + 1 ∧
        ∃ data taken, given = some data ∧ takenSlot manager.zones = some taken := by
  cases htaken : takenSlot manager.zones with
  | none =>
    rw [cacheWritePage_of_takenSlot_eq_none htaken]
    exact Or.inl rfl
  | some taken =>
    cases given with
    | none => exact Or.inl rfl
    | some data =>
      obtain ⟨best, hbest, -⟩ := Option.map_eq_some_iff.mp htaken
      exact Or.inr ⟨by simp [cacheWritePage, hbest], data, taken, rfl, rfl⟩

/-- A slot after a write is the one taken, with the next id, or one that is left. -/
theorem slot_of_cacheWritePage {taken : ℕ × ℕ} {diskOffset : UInt64} {data : Block}
    {allocated : Bool} (haccounted : Accounted manager.zones)
    (htaken : takenSlot manager.zones = some taken)
    (hafter : slotAt (cacheWritePage manager diskOffset (some data) allocated).1.zones zone slot =
      some after) :
    zone = taken.1 ∧ slot = taken.2 ∧ after.cachePageId = manager.nextCachePageId ∨
      slotAt manager.zones zone slot = some after := by
  obtain ⟨free, -, -, hslots⟩ := write_slots haccounted htaken diskOffset data allocated
  rw [hslots] at hafter
  split_ifs at hafter with hhere
  · refine Or.inl ⟨hhere.1, hhere.2, ?_⟩
    rw [← Option.some.inj hafter, CachePage.write]
    split_ifs
    · rfl
    · rfl
  · exact Or.inr hafter

/-- Ids stay distinct over a write, if there is an id after the next one. -/
theorem IdsDistinct.writePage (hids : IdsDistinct manager) (haccounted : Accounted manager.zones)
    (hroom : manager.nextCachePageId.toNat + 1 < 2 ^ 32) (diskOffset : UInt64)
    (given : Option Block) (allocated : Bool) :
    IdsDistinct (cacheWritePage manager diskOffset given allocated).1 := by
  rcases cacheWritePage_cases manager diskOffset given allocated with
    hsame | ⟨hcounter, data, taken, rfl, htaken⟩
  · rwa [hsame]
  have hnext : manager.nextCachePageId < manager.nextCachePageId + 1 := by
    rw [UInt32.lt_iff_toNat_lt, UInt32.toNat_add]
    exact (Nat.lt_succ_self _).trans_eq (Nat.mod_eq_of_lt hroom).symm
  refine ⟨fun zone slot after hafter ↦ ?_, fun zone slot after hafter hoccupied ↦ ?_,
    fun zone slot after otherZone otherSlot otherAfter hafter hotherAfter hsameId hid ↦ ?_⟩
  · rw [hcounter]
    rcases slot_of_cacheWritePage haccounted htaken hafter with ⟨-, -, hid⟩ | hold
    · rwa [hid]
    · exact UInt32.lt_trans (hids.below zone slot after hold) hnext
  · rcases slot_of_cacheWritePage haccounted htaken hafter with ⟨-, -, hid⟩ | hold
    · obtain ⟨free, hfree, -⟩ := write_slots haccounted htaken diskOffset data allocated
      have hbelow := hids.below _ _ _ hfree
      rw [hid]
      exact UInt32.pos_iff_ne_zero.mp (UInt32.lt_of_le_of_lt UInt32.zero_le hbelow)
    · exact hids.numbered zone slot after hold hoccupied
  · rcases slot_of_cacheWritePage haccounted htaken hafter with ⟨hzone, hslot, hnewId⟩ | hold
    · rcases slot_of_cacheWritePage haccounted htaken hotherAfter with
        ⟨hotherZone, hotherSlot, -⟩ | hotherOld
      · exact ⟨hzone.trans hotherZone.symm, hslot.trans hotherSlot.symm⟩
      · have hbelow := hids.below otherZone otherSlot otherAfter hotherOld
        rw [← hsameId, hnewId] at hbelow
        exact absurd hbelow (UInt32.lt_irrefl _)
    · rcases slot_of_cacheWritePage haccounted htaken hotherAfter with ⟨-, -, hnewId⟩ | hotherOld
      · have hbelow := hids.below zone slot after hold
        rw [hsameId, hnewId] at hbelow
        exact absurd hbelow (UInt32.lt_irrefl _)
      · exact hids.unique zone slot after otherZone otherSlot otherAfter hold hotherOld hsameId hid

/-- The rounds of a prefetch take at most one id each, and ids stay distinct as long as there is an
id after the next one. -/
theorem IdsDistinct.prefetchRounds (hids : IdsDistinct manager)
    (haccounted : Accounted manager.zones) (startOffset : UInt64) (allocated : ℕ → Bool)
    (rounds : ℕ) :
    ∃ taken ≤ rounds,
      (prefetchRounds manager startOffset allocated rounds).nextCachePageId.toNat =
        (manager.nextCachePageId.toNat + taken) % 2 ^ 32 ∧
      (manager.nextCachePageId.toNat + taken < 2 ^ 32 →
        IdsDistinct (prefetchRounds manager startOffset allocated rounds)) := by
  induction rounds with
  | zero =>
    refine ⟨0, le_refl 0, ?_, fun _ ↦ hids⟩
    exact (Nat.mod_eq_of_lt manager.nextCachePageId.toNat_lt).symm
  | succ rounds ih =>
    obtain ⟨taken, htaken, hcounter, hdistinct⟩ := ih
    have hmiddle := haccounted.prefetchRounds startOffset allocated rounds
    rw [prefetchRounds_succ]
    rcases cacheWritePage_cases (PageCache.prefetchRounds manager startOffset allocated rounds)
        (startOffset + (rounds.toUInt32 * 4096).toUInt64) (some fun _ ↦ 0) (allocated rounds) with
      hsame | ⟨hnext, -⟩
    · rw [hsame]
      exact ⟨taken, htaken.trans (Nat.le_succ rounds), hcounter, hdistinct⟩
    · refine ⟨taken + 1, Nat.succ_le_succ htaken, ?_, fun hroom ↦ ?_⟩
      · rw [hnext, UInt32.toNat_add, hcounter, show (1 : UInt32).toNat = 1 from rfl]
        omega
      · refine (hdistinct (by omega)).writePage hmiddle ?_ _ _ _
        rw [hcounter]
        omega

/-- Ids stay distinct over every call that does not make the counter wrap. -/
theorem IdsDistinct.step (hids : IdsDistinct manager) (haccounted : Accounted manager.zones)
    (hgrow : IdsGrow manager call) : IdsDistinct (cacheStep manager call) := by
  by_cases hwrites : Writes call
  · cases call with
    | writePage diskOffset given allocated =>
      rcases cacheWritePage_cases manager diskOffset given allocated with hsame | ⟨hcounter, -⟩
      · rwa [cacheStep, hsame]
      · refine hids.writePage haccounted ?_ diskOffset given allocated
        rw [IdsGrow, cacheStep, hcounter, UInt32.le_iff_toNat_le, UInt32.toNat_add,
          show (1 : UInt32).toNat = 1 from rfl] at hgrow
        have hbound := manager.nextCachePageId.toNat_lt
        omega
    | prefetchPages startOffset count allocated =>
      rw [IdsGrow] at hgrow
      rw [cacheStep, cachePrefetchPages] at hgrow ⊢
      split_ifs at hgrow ⊢ with hzero
      · exact hids
      · obtain ⟨taken, htaken, hcounter, hdistinct⟩ :=
          hids.prefetchRounds haccounted startOffset allocated count.toNat
        refine hdistinct ?_
        rw [UInt32.le_iff_toNat_le, hcounter] at hgrow
        have hbound := manager.nextCachePageId.toNat_lt
        have hcount := count.toNat_lt
        omega
    | _ => exact absurd hwrites id
  · refine hids.of_slots (sameFrame_cacheStep manager hwrites).nextCachePageId
      fun zone slot after hafter ↦ ?_
    obtain ⟨page, hpage, hcase⟩ := slot_cases_back haccounted hafter
    refine ⟨page, hpage, ?_⟩
    rcases hcase with ⟨hsame, -⟩ | ⟨-, hempty, -⟩ | ⟨-, hwrite, -⟩
    · exact Or.inl hsame
    · exact Or.inr hempty
    · exact absurd hwrite hwrites

/-! ### Pages that stay -/

/-- The slot holds the page, with its id, offset and data. -/
def HoldsPage (zone slot : ℕ) (page : CachePage) (manager : PageCacheManager) : Prop :=
  ∃ held, slotAt manager.zones zone slot = some held ∧ SamePage page held

/-- The slot holds the page, and it is pinned. -/
def HoldsPinned (zone slot : ℕ) (page : CachePage) (manager : PageCacheManager) : Prop :=
  ∃ held, slotAt manager.zones zone slot = some held ∧ SamePage page held ∧ held.isPinned = true

/-- A write leaves every slot that holds a page as it is. -/
def LandsOnFree (manager : PageCacheManager) (diskOffset : UInt64) (given : Option Block)
    (allocated : Bool) : Prop :=
  ∀ zone slot page, slotAt manager.zones zone slot = some page → page.occupied = true →
    slotAt (cacheWritePage manager diskOffset given allocated).1.zones zone slot = some page

/-- Every write that a call makes leaves the slots that hold pages. -/
def WritesLandOnFree (manager : PageCacheManager) : CacheCall → Prop
  | .writePage diskOffset given allocated => LandsOnFree manager diskOffset given allocated
  | .prefetchPages startOffset count allocated => ∀ i < count.toNat,
      LandsOnFree (prefetchRounds manager startOffset allocated i)
        (startOffset + (i.toUInt32 * 4096).toUInt64) (some fun _ ↦ 0) (allocated i)
  | _ => True

/-- A write to a cache whose zones are accounted for leaves the slots that hold pages. -/
theorem Accounted.landsOnFree (haccounted : Accounted manager.zones) (diskOffset : UInt64)
    (given : Option Block) (allocated : Bool) :
    LandsOnFree manager diskOffset given allocated := by
  intro zone slot page hpage hoccupied
  obtain ⟨after, hafter, hcase⟩ := slot_writePage haccounted diskOffset given allocated hpage
  rcases hcase with rfl | ⟨hfree, -⟩
  · exact hafter
  · exact absurd (hoccupied.symm.trans hfree) (by decide)

/-- The writes of every call to a cache whose zones are accounted for leave the slots that hold
pages. -/
theorem Accounted.writesLandOnFree (haccounted : Accounted manager.zones) (call : CacheCall) :
    WritesLandOnFree manager call := by
  cases call with
  | writePage diskOffset given allocated => exact haccounted.landsOnFree diskOffset given allocated
  | prefetchPages startOffset count allocated =>
    intro i _
    exact (haccounted.prefetchRounds startOffset allocated i).landsOnFree _ _ _
  | _ => trivial

/-- A call keeps a pinned page in its slot, unless it unlocks the page or flushes its zone. -/
theorem HoldsPinned.step (hheld : HoldsPinned zone slot page manager)
    (haccounted : Accounted manager.zones) (hoccupied : page.occupied = true)
    (hlocked : call ≠ .unlockPage page.cachePageId)
    (hkept : ∀ zoneId : UInt32, zoneId.toNat = zone → call ≠ .flushZone zoneId) :
    HoldsPinned zone slot page (cacheStep manager call) := by
  obtain ⟨held, hslot, hsame, hpinned⟩ := hheld
  obtain ⟨after, hafter, hcase⟩ := slot_cases haccounted call hslot
  rcases hcase with ⟨hstill, hpin⟩ | ⟨-, -, hempties⟩ | ⟨hfree, -⟩
  · refine ⟨after, hafter, hsame.trans hstill, ?_⟩
    rcases hpin with hpin | ⟨-, hpin⟩ | hunlock
    · exact hpin.trans hpinned
    · exact hpin
    · rw [hsame.cachePageId] at hunlock
      exact absurd hunlock hlocked
  · rcases hempties with ⟨-, -, -, hunpinned⟩ | ⟨zoneId, hflush, hzone⟩
    · exact absurd (hpinned.symm.trans hunpinned) (by decide)
    · exact absurd hflush (hkept zoneId hzone)
  · rw [hsame.occupied, hoccupied] at hfree
    exact absurd hfree (by decide)

/-- A flush takes a page out of its slot. -/
theorem not_holdsPage_flushZone {zoneId : UInt32} (hheld : HoldsPage zone slot page manager)
    (hoccupied : page.occupied = true) (hzone : zoneId.toNat = zone) :
    ¬ HoldsPage zone slot page (cacheStep manager (.flushZone zoneId)) := by
  obtain ⟨held, hslot, hsame⟩ := hheld
  rintro ⟨after, hafter, hafterSame⟩
  have hheldOccupied : held.occupied = true := hsame.occupied.trans hoccupied
  rw [cacheStep, slotAt_cacheFlushZone hslot, if_pos hzone, CachePage.flush,
    if_pos hheldOccupied] at hafter
  rw [← Option.some.inj hafter] at hafterSame
  exact absurd (hafterSame.occupied.trans hoccupied) (by decide)

/-- Assumes: ids are distinct. Locking a page pins it in its slot. -/
theorem holdsPinned_lockPage (hids : IdsDistinct manager)
    (hpage : slotAt manager.zones zone slot = some page) (hoccupied : page.occupied = true) :
    HoldsPinned zone slot page (cacheStep manager (.lockPage page.cachePageId)) := by
  have hsome : (findPage (·.cachePageId = page.cachePageId) manager.zones).isSome := by
    by_contra hnone
    rw [Option.not_isSome_iff_eq_none] at hnone
    have hmisses := findPage_eq_none_iff.mp hnone zone slot page hpage
    simp at hmisses
  obtain ⟨found, hfind⟩ := Option.isSome_iff_exists.mp hsome
  obtain ⟨foundZone, foundSlot, hfinds, hslots⟩ := findsAt_of_findPage hfind
  have hsameId : found.cachePageId = page.cachePageId := of_decide_eq_true hfinds.passes
  obtain ⟨rfl, rfl⟩ := hids.unique zone slot page foundZone foundSlot found hpage hfinds.here
    hsameId.symm (hids.numbered zone slot page hpage hoccupied)
  obtain rfl : page = found := Option.some.inj (hpage.symm.trans hfinds.here)
  refine ⟨{ page with isPinned := true }, ?_, ⟨rfl, rfl, rfl⟩, rfl⟩
  rw [cacheStep, cacheLockPage, setPinned, if_pos hsome]
  exact (hslots _ (fun page ↦ { page with isPinned := true }) (fun _ ↦ rfl) zone slot).trans
    (if_pos ⟨rfl, rfl⟩)

/-! ### Runs -/

/-- Ids are distinct after every run that does not make the counter wrap. -/
theorem idsDistinct_runFrom (cacheSize : UInt64) {nextCachePageId : UInt32}
    (hcounter : 0 < nextCachePageId) {calls : List CacheCall}
    (hgrow : EveryStep cacheStep IdsGrow (cacheManagerInit cacheSize nextCachePageId) calls) :
    IdsDistinct (runFrom cacheStep (cacheManagerInit cacheSize nextCachePageId) calls) := by
  have hreached := runFrom_invariant
    (fun manager ↦ Accounted manager.zones ∧ IdsDistinct manager) IdsGrow
    (fun _ call hinvariant hgrows ↦
      ⟨hinvariant.1.step call, hinvariant.2.step hinvariant.1 hgrows⟩)
    ⟨accounted_cacheManagerInit cacheSize nextCachePageId,
      idsDistinct_cacheManagerInit cacheSize hcounter⟩ hgrow
  exact hreached.2

/-- Assumes: up to then the counter that numbers pages has not wrapped, a page is locked that is
cached, and it is not unlocked after. The page stays in its slot, and no write in the whole run
lands on a slot that holds a page, exactly when the zone of the page is not flushed. -/
theorem pinnedStays_iff (cacheSize : UInt64) (nextCachePageId : UInt32)
    (before later : List CacheCall) (zone slot : ℕ) (page : CachePage)
    (hcounter : 0 < nextCachePageId)
    (hgrow : EveryStep cacheStep IdsGrow (cacheManagerInit cacheSize nextCachePageId) before)
    (hpage : slotAt (runFrom cacheStep (cacheManagerInit cacheSize nextCachePageId) before).zones
      zone slot = some page)
    (hoccupied : page.occupied = true)
    (hlocked : CacheCall.unlockPage page.cachePageId ∉ later) :
    AlongRun cacheStep (HoldsPage zone slot page)
          (runFrom cacheStep (cacheManagerInit cacheSize nextCachePageId)
            (before ++ [.lockPage page.cachePageId])) later ∧
        EveryStep cacheStep WritesLandOnFree (cacheManagerInit cacheSize nextCachePageId)
          (before ++ .lockPage page.cachePageId :: later) ↔
      ∀ zoneId : UInt32, zoneId.toNat = zone → CacheCall.flushZone zoneId ∉ later := by
  rw [runFrom_append]
  set manager := runFrom cacheStep (cacheManagerInit cacheSize nextCachePageId) before
  have haccounted : Accounted manager.zones :=
    alongRun_accounted cacheSize nextCachePageId before before (List.prefix_refl before)
  constructor
  · rintro ⟨hholds, -⟩ zoneId hzone hflush
    obtain ⟨earlier, rest, rfl⟩ := List.append_of_mem hflush
    have hbefore := hholds earlier (List.prefix_append _ _)
    have hafter := hholds (earlier ++ [.flushZone zoneId]) ⟨rest, by simp⟩
    rw [runFrom_append] at hafter
    exact not_holdsPage_flushZone hbefore hoccupied hzone hafter
  · intro hkept
    refine ⟨?_, (alongRun_accounted cacheSize nextCachePageId _).everyStep
      fun _ call hzones ↦ hzones.writesLandOnFree call⟩
    have hpinned := holdsPinned_lockPage
      (idsDistinct_runFrom cacheSize hcounter hgrow) hpage hoccupied
    have halong := alongRun_invariant
      (fun manager ↦ Accounted manager.zones ∧ HoldsPinned zone slot page manager)
      (fun _ call ↦ call ≠ .unlockPage page.cachePageId ∧
        ∀ zoneId : UInt32, zoneId.toNat = zone → call ≠ .flushZone zoneId)
      (fun _ call hinvariant hallowed ↦ ⟨hinvariant.1.step call,
        hinvariant.2.step hinvariant.1 hoccupied hallowed.1 hallowed.2⟩)
      ⟨haccounted.step _, hpinned⟩
      (everyStep_of_forall_mem fun call hcall ↦ ⟨fun hunlock ↦ hlocked (hunlock ▸ hcall),
        fun zoneId hzone hflush ↦ hkept zoneId hzone (hflush ▸ hcall)⟩)
    refine halong.imp fun manager hinvariant ↦ ?_
    obtain ⟨held, hslot, hsame, -⟩ := hinvariant.2
    exact ⟨held, hslot, hsame⟩

/-- A page that has been locked is still there when it is to be evicted by its id and as the least
recently used one. -/
theorem pinnedStays_evicted :
    AlongRun cacheStep
        (HoldsPage 0 0 (emptyPage.write 1 0 (fun _ ↦ 7) true))
        (runFrom cacheStep (cacheManagerInit 16384 1)
          ([.writePage 0 (some fun _ ↦ 7) true] ++ [.lockPage 1]))
        [.evictPage 1, .evictLruPage] ∧
      EveryStep cacheStep WritesLandOnFree (cacheManagerInit 16384 1)
        ([.writePage 0 (some fun _ ↦ 7) true] ++
          .lockPage 1 :: [.evictPage 1, .evictLruPage]) :=
  (pinnedStays_iff 16384 1 [.writePage 0 (some fun _ ↦ 7) true] [.evictPage 1, .evictLruPage] 0 0
    (emptyPage.write 1 0 (fun _ ↦ 7) true) (by decide)
    (everyStep_cons.mpr ⟨show (1 : UInt32) ≤ 2 by decide, everyStep_nil⟩) rfl rfl
    (by simp)).mpr (by simp)

/-- A page that has been locked is gone after a flush of its zone. -/
theorem pinnedStays_flushed :
    slotAt (runFrom cacheStep (cacheManagerInit 16384 1)
        [.writePage 0 (some fun _ ↦ 7) true]).zones 0 0 =
          some (emptyPage.write 1 0 (fun _ ↦ 7) true) ∧
      (emptyPage.write 1 0 (fun _ ↦ 7) true).occupied = true ∧
      (cacheLockPage (runFrom cacheStep (cacheManagerInit 16384 1)
        [.writePage 0 (some fun _ ↦ 7) true]) 1).2 = 0 ∧
      ¬ AlongRun cacheStep (HoldsPage 0 0 (emptyPage.write 1 0 (fun _ ↦ 7) true))
        (runFrom cacheStep (cacheManagerInit 16384 1)
          ([.writePage 0 (some fun _ ↦ 7) true] ++ [.lockPage 1])) [.flushZone 0] := by
  refine ⟨rfl, rfl, rfl, fun hholds ↦ ?_⟩
  obtain ⟨held, hslot, hsame⟩ := hholds [.flushZone 0] (List.prefix_refl _)
  have hempty : held = emptyPage := (Option.some.inj hslot).symm
  rw [hempty] at hsame
  exact absurd hsame.occupied (by decide)

end OneOS.PageCache
