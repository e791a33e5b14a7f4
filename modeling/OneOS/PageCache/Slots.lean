import OneOS.PageCache.PageCacheManager

/-!
# Slots of the page cache

The page cache slot by slot. Slots are looked at zone by zone (`Before`), and a call that looks for
a page changes only the first slot that it finds (`FindsAt`, `findsAt_of_findPage`).
-/

set_option autoImplicit false
set_option relaxedAutoImplicit false

namespace OneOS.PageCache

open Foundation

/-! ### Slots -/

/-- What is in a slot of a zone. -/
def slotAt (zones : List CacheZone) (zone slot : ℕ) : Option CachePage :=
  zones[zone]?.bind fun found ↦ found.pages[slot]?

/-- The slot is one before the other in the order in which slots are looked at. -/
def Before (zone slot otherZone otherSlot : ℕ) : Prop :=
  zone < otherZone ∨ zone = otherZone ∧ slot < otherSlot

variable {zones : List CacheZone} {test : CachePage → Bool} {page : CachePage} {zone slot : ℕ}

theorem slotAt_eq_some_iff :
    slotAt zones zone slot = some page ↔
      ∃ found, zones[zone]? = some found ∧ found.pages[slot]? = some page :=
  Option.bind_eq_some_iff

/-- Changing one zone changes its slots. -/
theorem slotAt_modify (i : ℕ) (change : CacheZone → CacheZone) :
    slotAt (zones.modify i change) zone slot =
      if i = zone then (zones[zone]?.map change).bind fun found ↦ found.pages[slot]?
      else slotAt zones zone slot := by
  rw [slotAt, List.getElem?_modify]
  split_ifs
  · rfl
  · simp [slotAt]

/-- Changing all pages of a zone changes all its slots. -/
theorem slotAt_modify_map (i : ℕ) {changeZone : CacheZone → CacheZone}
    (change : CachePage → CachePage)
    (hpages : ∀ found, (changeZone found).pages = found.pages.map change) :
    slotAt (zones.modify i changeZone) zone slot =
      if i = zone then (slotAt zones zone slot).map change else slotAt zones zone slot := by
  rw [slotAt_modify]
  split_ifs
  · cases hfound : zones[zone]? with
    | none => simp [slotAt, hfound]
    | some found => simp [slotAt, hfound, hpages]
  · rfl

/-! ### The first slot that passes a test -/

/-- The page in the slot passes the test, and no page in a slot before it does. -/
structure FindsAt (test : CachePage → Bool) (zones : List CacheZone) (zone slot : ℕ)
    (page : CachePage) : Prop where
  here : slotAt zones zone slot = some page
  passes : test page = true
  first : ∀ otherZone otherSlot other, slotAt zones otherZone otherSlot = some other →
    Before otherZone otherSlot zone slot → test other = false

/-- The first page that passes a test is in the first zone that has one. -/
theorem findPage_eq_bind :
    findPage test zones =
      (zones.find? fun found ↦ found.pages.any test).bind fun found ↦ found.pages.find? test := by
  unfold findPage
  induction zones with
  | nil => rfl
  | cons head tail ih =>
    rw [List.findSome?_cons, List.find?_cons]
    cases hpage : head.pages.find? test with
    | none =>
      have hany : head.pages.any test = false := by
        simpa [List.any_eq_false] using hpage
      rw [hany, ih]
    | some page =>
      have hany : head.pages.any test = true :=
        List.any_eq_true.mpr ⟨page, List.mem_of_find?_eq_some hpage, List.find?_some hpage⟩
      rw [hany, Option.bind_some, hpage]

/-- No page is found exactly when no slot passes the test. -/
theorem findPage_eq_none_iff :
    findPage test zones = none ↔
      ∀ zone slot page, slotAt zones zone slot = some page → test page = false := by
  unfold findPage
  rw [List.findSome?_eq_none_iff]
  constructor
  · intro hnone zone slot page hpage
    obtain ⟨found, hfound, hslot⟩ := slotAt_eq_some_iff.mp hpage
    have hall := List.find?_eq_none.mp (hnone found (List.mem_of_getElem? hfound))
    exact Bool.not_eq_true _ ▸ hall page (List.mem_of_getElem? hslot)
  · intro hnone found hfound
    rw [List.find?_eq_none]
    intro page hpage
    obtain ⟨zone, hzone⟩ := List.mem_iff_getElem?.mp hfound
    obtain ⟨slot, hslot⟩ := List.mem_iff_getElem?.mp hpage
    simp [hnone zone slot page (slotAt_eq_some_iff.mpr ⟨found, hzone, hslot⟩)]

/-- A change of the first page found in the first zone that has one is a change of the first slot
that passes the test. -/
theorem findsAt_of_findPage (hfind : findPage test zones = some page) :
    ∃ zone slot, FindsAt test zones zone slot page ∧
      ∀ (changeZone : CacheZone → CacheZone) (change : CachePage → CachePage),
        (∀ found, (changeZone found).pages = updateFirst test change found.pages) →
          ∀ otherZone otherSlot, slotAt (onFirstZone test changeZone zones) otherZone otherSlot =
            if otherZone = zone ∧ otherSlot = slot then some (change page)
            else slotAt zones otherZone otherSlot := by
  rw [findPage_eq_bind] at hfind
  obtain ⟨found, hfound, hpage⟩ := Option.bind_eq_some_iff.mp hfind
  have hpasses := List.find?_some hpage
  rw [List.find?_eq_getElem?_findIdx] at hfound hpage
  refine ⟨zones.findIdx fun found ↦ found.pages.any test, found.pages.findIdx test,
    ⟨slotAt_eq_some_iff.mpr ⟨found, hfound, hpage⟩, hpasses, ?_⟩, ?_⟩
  · intro otherZone otherSlot other hother hbefore
    obtain ⟨otherFound, hotherFound, hotherSlot⟩ := slotAt_eq_some_iff.mp hother
    rcases hbefore with hzone | ⟨rfl, hslot⟩
    · have hnone := List.not_of_lt_findIdx hzone
      obtain ⟨hlt, rfl⟩ := List.getElem?_eq_some_iff.mp hotherFound
      simp only [Bool.not_eq_true, List.any_eq_false] at hnone
      simpa using hnone other (List.mem_of_getElem? hotherSlot)
    · rw [hfound, Option.some.injEq] at hotherFound
      subst hotherFound
      have hnone := List.not_of_lt_findIdx hslot
      obtain ⟨hlt, rfl⟩ := List.getElem?_eq_some_iff.mp hotherSlot
      simpa using hnone
  · intro changeZone change hpages otherZone otherSlot
    rw [onFirstZone, updateFirst, slotAt_modify]
    by_cases hzone : zones.findIdx (fun found ↦ found.pages.any test) = otherZone
    · rw [if_pos hzone, ← hzone, hfound, Option.map_some, Option.bind_some, hpages, updateFirst,
        List.getElem?_modify]
      by_cases hslot : found.pages.findIdx test = otherSlot
      · rw [← hslot]
        simp [hpage]
      · simp [hslot, Ne.symm hslot, slotAt, hfound]
    · rw [if_neg hzone, if_neg fun hsame ↦ hzone hsame.1.symm]

end OneOS.PageCache
