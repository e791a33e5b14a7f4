import OneOS.PageCache.SlotCases

/-!
# Reading what was written

A write always takes a free slot. It does not look whether the offset is cached already, so there
may be several versions of one page, and a read returns the one in the first slot, which need not be
the last one written.

`readsLastWritten_of_everyStep` says when reads are right: when no write that succeeds finds a
version of its page with other data in a slot before the one that it takes (`LeavesNoVersion`). What
carries the proof is that from then on all versions up to that slot hold the data written
(`ReadsBack`).
-/

set_option autoImplicit false
set_option relaxedAutoImplicit false

namespace OneOS.PageCache

open Foundation

/-! ### Versions of a page -/

/-- The slot holds a page. -/
def Holds (zone slot : ℕ) (manager : PageCacheManager) : Prop :=
  ∃ page, slotAt manager.zones zone slot = some page ∧ page.occupied = true

/-- In a run, a read returns the data of the last successful write to the offset, as long as the
page that it wrote is in its slot: not evicted and not flushed. -/
def ReadsLastWritten (start : PageCacheManager) (calls : List CacheCall) : Prop :=
  ∀ before later diskOffset data allocated zone slot,
    before ++ [.writePage diskOffset (some data) allocated] ++ later <+: calls →
    (cacheWritePage (runFrom cacheStep start before) diskOffset (some data) allocated).2 = 0 →
    takenSlot (runFrom cacheStep start before).zones = some (zone, slot) →
    let written := runFrom cacheStep start
      (before ++ [.writePage diskOffset (some data) allocated])
    EveryStep cacheStep (fun manager call ↦ ¬ WritesTo manager diskOffset call) written later →
    AlongRun cacheStep (Holds zone slot) written later →
      ∃ page, (cacheReadPage (runFrom cacheStep written later) diskOffset).2 = some page ∧
        page.pageData = some data

/-- The condition on a call: if it is a write that there is memory for, every version of the page
that is cached in a slot before the one that it takes holds the same data. -/
def LeavesNoVersion (manager : PageCacheManager) : CacheCall → Prop
  | .writePage diskOffset (some data) true =>
    ∀ zone slot otherZone otherSlot other, takenSlot manager.zones = some (zone, slot) →
      slotAt manager.zones otherZone otherSlot = some other → other.occupied = true →
        other.diskOffset = diskOffset → Before otherZone otherSlot zone slot →
          other.pageData = some data
  | _ => True

/-- The slot holds the page with the data, and so does every slot before it that holds a version of
the page. -/
structure ReadsBack (zone slot : ℕ) (diskOffset : UInt64) (data : Block)
    (manager : PageCacheManager) : Prop where
  here : ∃ page, slotAt manager.zones zone slot = some page ∧ page.diskOffset = diskOffset ∧
    page.pageData = some data
  earlier : ∀ otherZone otherSlot other, slotAt manager.zones otherZone otherSlot = some other →
    other.occupied = true → other.diskOffset = diskOffset →
      Before otherZone otherSlot zone slot → other.pageData = some data

variable {manager : PageCacheManager} {call : CacheCall} {zone slot : ℕ} {diskOffset : UInt64}
  {data : Block}

/-- Two slots are the same or one is before the other. -/
theorem before_trichotomy (zone slot otherZone otherSlot : ℕ) :
    Before zone slot otherZone otherSlot ∨ (zone = otherZone ∧ slot = otherSlot) ∨
      Before otherZone otherSlot zone slot := by
  unfold Before
  omega

/-- No slot is before itself. -/
theorem not_before_self (zone slot : ℕ) : ¬ Before zone slot zone slot := by
  unfold Before
  omega

/-! ### One call -/

/-- A successful write that meets the condition is read back. -/
theorem readsBack_cacheWritePage {allocated : Bool} (haccounted : Accounted manager.zones)
    (hversion : LeavesNoVersion manager (.writePage diskOffset (some data) allocated))
    (hsuccess : (cacheWritePage manager diskOffset (some data) allocated).2 = 0)
    (htaken : takenSlot manager.zones = some (zone, slot)) :
    ReadsBack zone slot diskOffset data
      (cacheWritePage manager diskOffset (some data) allocated).1 := by
  obtain ⟨free, -, -, hslots⟩ := write_slots haccounted htaken diskOffset data allocated
  have hallocated : allocated = true := allocated_of_cacheWritePage_eq_zero htaken hsuccess
  subst hallocated
  refine ⟨⟨_, (hslots zone slot).trans (if_pos ⟨rfl, rfl⟩), rfl, rfl⟩, ?_⟩
  intro otherZone otherSlot other hother hoccupied hoffset hbefore
  have hdifferent : ¬ (otherZone = zone ∧ otherSlot = slot) := by
    rintro ⟨rfl, rfl⟩
    exact not_before_self _ _ hbefore
  rw [hslots, if_neg hdifferent] at hother
  exact hversion zone slot otherZone otherSlot other htaken hother hoccupied hoffset hbefore

/-- A call that writes nothing to the offset and leaves a page in the slot keeps what is read
back. -/
theorem ReadsBack.step (hreads : ReadsBack zone slot diskOffset data manager)
    (haccounted : Accounted manager.zones) (hother : ¬ WritesTo manager diskOffset call)
    (hholds : Holds zone slot (cacheStep manager call)) :
    ReadsBack zone slot diskOffset data (cacheStep manager call) := by
  constructor
  · obtain ⟨page, hpage, hoffset, hdata⟩ := hreads.here
    obtain ⟨held, hheld, hoccupied⟩ := hholds
    obtain ⟨after, hafter, hcase⟩ := slot_cases haccounted call hpage
    obtain rfl : after = held := Option.some.inj (hafter.symm.trans hheld)
    rcases hcase with ⟨hsame, -⟩ | ⟨-, rfl, -⟩ | ⟨hfree, -⟩
    · exact ⟨after, hafter, hsame.diskOffset.trans hoffset, hsame.pageData.trans hdata⟩
    · exact absurd hoccupied (by decide)
    · rw [CachePage.occupied, hdata, Option.isSome_some] at hfree
      exact absurd hfree (by decide)
  · intro otherZone otherSlot after hafter hoccupied hoffset hbefore
    obtain ⟨page, hpage, hcase⟩ := slot_cases_back haccounted hafter
    rcases hcase with ⟨hsame, -⟩ | ⟨-, rfl, -⟩ | ⟨-, -, hwrites⟩
    · rw [hsame.pageData]
      exact hreads.earlier otherZone otherSlot page hpage (hsame.occupied ▸ hoccupied)
        (hsame.diskOffset ▸ hoffset) hbefore
    · exact absurd hoccupied (by decide)
    · exact absurd (hoffset ▸ hwrites hoccupied) hother

/-- What is read back is what a read returns. -/
theorem ReadsBack.cacheReadPage (hreads : ReadsBack zone slot diskOffset data manager) :
    ∃ page, (cacheReadPage manager diskOffset).2 = some page ∧ page.pageData = some data := by
  obtain ⟨page, hpage, hoffset, hdata⟩ := hreads.here
  have hpasses : (page.diskOffset = diskOffset && page.occupied : Bool) = true := by
    simp [hoffset, CachePage.occupied, hdata]
  cases hfind : findPage (fun page ↦ page.diskOffset = diskOffset && page.occupied)
      manager.zones with
  | none =>
    have hmisses := findPage_eq_none_iff.mp hfind zone slot page hpage
    exact absurd (hpasses.symm.trans hmisses) (by decide)
  | some found =>
    obtain ⟨foundZone, foundSlot, hfinds, -⟩ := findsAt_of_findPage hfind
    have hfoundPasses := hfinds.passes
    simp only [Bool.and_eq_true, decide_eq_true_eq] at hfoundPasses
    refine ⟨{ found with accessCount := found.accessCount + 1, lastAccessTime := 0 },
      by simp only [PageCache.cacheReadPage, hfind], ?_⟩
    show found.pageData = some data
    rcases before_trichotomy foundZone foundSlot zone slot with hbefore | ⟨rfl, rfl⟩ | hbefore
    · exact hreads.earlier foundZone foundSlot found hfinds.here hfoundPasses.2 hfoundPasses.1
        hbefore
    · rw [← hdata, Option.some.inj (hfinds.here.symm.trans hpage)]
    · -- the slot written is one that the read would have found before
      have hmisses := hfinds.first zone slot page hpage hbefore
      exact absurd (hpasses.symm.trans hmisses) (by decide)

/-! ### Runs -/

/-- Assumes: every write of a run meets the condition. A read returns the data of the last write, as
long as the page written is in its slot. -/
theorem readsLastWritten_of_everyStep (cacheSize : UInt64) (nextCachePageId : UInt32)
    (calls : List CacheCall)
    (hversion : EveryStep cacheStep LeavesNoVersion
      (cacheManagerInit cacheSize nextCachePageId) calls) :
    ReadsLastWritten (cacheManagerInit cacheSize nextCachePageId) calls := by
  intro before later diskOffset data allocated zone slot hprefix hsuccess htaken written hother
    hholds
  have hwritten : written = (cacheWritePage (runFrom cacheStep
      (cacheManagerInit cacheSize nextCachePageId) before) diskOffset (some data) allocated).1 :=
    runFrom_append
  have haccounted := alongRun_accounted cacheSize nextCachePageId before before
    (List.prefix_refl before)
  have hstart := readsBack_cacheWritePage haccounted
    (hversion before _ ((List.prefix_append _ later).trans hprefix)) hsuccess htaken
  rw [← hwritten] at hstart
  have hreached := runFrom_invariant
    (fun manager ↦ Accounted manager.zones ∧ ReadsBack zone slot diskOffset data manager)
    (fun manager call ↦ ¬ WritesTo manager diskOffset call ∧
      Holds zone slot (cacheStep manager call))
    (fun _ call hinvariant hallowed ↦ ⟨hinvariant.1.step call,
      hinvariant.2.step hinvariant.1 hallowed.1 hallowed.2⟩)
    ⟨hwritten ▸ haccounted.writePage diskOffset (some data) allocated, hstart⟩
    (everyStep_and_iff.mpr ⟨hother, hholds.everyStep_next⟩)
  exact hreached.2.cacheReadPage

/-- A page that has been evicted and is written again is read as it was written last. -/
theorem readsLastWritten_rewritten :
    ∃ page, (cacheReadPage (runFrom cacheStep (cacheManagerInit 16384 1)
        [.writePage 0 (some fun _ ↦ 1) true, .evictPage 1,
          .writePage 0 (some fun _ ↦ 2) true]) 0).2 = some page ∧
      page.pageData = some fun _ ↦ 2 := by
  -- both writes take the first slot, so there is none before
  have hfirst (manager : PageCacheManager) (diskOffset : UInt64) (given : Option Block)
      (htaken : takenSlot manager.zones = some (0, 0)) :
      LeavesNoVersion manager (.writePage diskOffset given true) := by
    cases given with
    | none => trivial
    | some data =>
      intro zone slot otherZone otherSlot other hslot _ _ _ hbefore
      obtain ⟨rfl, rfl⟩ := Prod.mk.inj (Option.some.inj (htaken.symm.trans hslot))
      unfold Before at hbefore
      omega
  exact readsLastWritten_of_everyStep 16384 1
    [.writePage 0 (some fun _ ↦ 1) true, .evictPage 1, .writePage 0 (some fun _ ↦ 2) true]
    (everyStep_cons.mpr ⟨hfirst _ _ _ rfl, everyStep_cons.mpr ⟨trivial,
      everyStep_cons.mpr ⟨hfirst _ _ _ rfl, everyStep_nil⟩⟩⟩)
    [.writePage 0 (some fun _ ↦ 1) true, .evictPage 1] [] 0 (fun _ ↦ 2) true 0 0
    (List.prefix_refl _) rfl rfl everyStep_nil (alongRun_nil.mpr ⟨_, rfl, rfl⟩)

/-- Of two versions of a page that are written one after the other, the first one is read. -/
theorem readsLastWritten_two_versions :
    ¬ ReadsLastWritten (cacheManagerInit 16384 1)
      [.writePage 0 (some fun _ ↦ 1) true, .writePage 0 (some fun _ ↦ 2) true] := by
  intro hreads
  obtain ⟨page, hread, hdata⟩ := hreads [.writePage 0 (some fun _ ↦ 1) true] [] 0 (fun _ ↦ 2) true
    1 0 (List.prefix_refl _) rfl rfl everyStep_nil (alongRun_nil.mpr ⟨_, rfl, rfl⟩)
  have hfirst : page.pageData = some fun _ ↦ 1 :=
    congrArg CachePage.pageData (Option.some.inj hread).symm
  have hbyte := congrFun (Option.some.inj (hfirst.symm.trans hdata)) ⟨0, by decide⟩
  exact absurd hbyte (by decide)

end OneOS.PageCache
