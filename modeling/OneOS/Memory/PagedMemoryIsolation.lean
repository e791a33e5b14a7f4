import OneOS.Memory.PagedMemory

/-!
# Swap slots and physical addresses

`memory-management/virtual_memory_manager.c`. Two questions about which memory two pages share, both
answered from the one entry a call writes (`entryAt_vmStep`).

A page that goes out takes the swap slot at offset `memory_swapped`, the number of bytes swapped out
at that moment, and a page that comes back in lowers that number. Distinct swapped entries keep
distinct offsets along a run exactly when every page goes out at an offset that no other swapped
entry holds (`swapSlotsExclusive_alongRun_iff`). `slot_reused_after_swap_in` is a run of three pages
in which the first one comes back in and the third takes the slot of the second.

The physical address of a page is its page number times the page size, taken in 32 bits, and there
is no allocator of frames. In every state two resident entries, in one table or in two, have the
same physical address exactly when their page numbers agree modulo `2 ^ 20`
(`physicalAddress_eq_iff_alongRun`), so that isolation between processes rests on the page numbers
that they ask for (`two_processes_share_frame`).
-/

set_option autoImplicit false
set_option relaxedAutoImplicit false

namespace OneOS.Memory.PagedMemory

open Foundation

/-! ### Swap slots -/

/-- Distinct entries that are both swapped out have different swap offsets. -/
def SwapSlotsExclusive (manager : VirtualMemoryManager) : Prop :=
  ∀ (i j k l : ℕ) (first second : PageTableEntry),
    manager.entryAt i j = some first → manager.entryAt k l = some second → (i, j) ≠ (k, l) →
    first.state = .swapped → second.state = .swapped → first.swapOffset ≠ second.swapOffset

/-- No entry other than the one at a position is swapped out at the offset. -/
def SlotFreeFor (manager : VirtualMemoryManager) (i j : ℕ) (offset : UInt64) : Prop :=
  ∀ (k l : ℕ) (other : PageTableEntry), manager.entryAt k l = some other → (i, j) ≠ (k, l) →
    other.state = .swapped → other.swapOffset ≠ offset

/-- The condition on a call: a page that goes out finds the offset `memory_swapped` free. -/
def SwapSlotFree (manager : VirtualMemoryManager) : VmCall → Prop
  | .swapPageOut i j => ∀ entry, manager.entryAt i j = some entry →
      ¬ (entry.state = .locked ∨ entry.state = .pinned) →
        SlotFreeFor manager i j manager.memorySwapped
  | _ => True

/-- Assumes: swap slots are exclusive, and `next` has the same entries with the one at a position
written. Swap slots are exclusive in `next` exactly when the written entry, if it is swapped out,
has an offset that no other entry holds. -/
theorem swapSlotsExclusive_write_iff {manager next : VirtualMemoryManager} {i j : ℕ}
    {entry : PageTableEntry} (hexclusive : SwapSlotsExclusive manager)
    (hnext : ∀ k l, next.entryAt k l =
      if i = k ∧ j = l then some entry else manager.entryAt k l) :
    SwapSlotsExclusive next ↔
      (entry.state = .swapped → SlotFreeFor manager i j entry.swapOffset) := by
  have hhere : next.entryAt i j = some entry := by rw [hnext, if_pos ⟨rfl, rfl⟩]
  have hthere : ∀ k l, (i, j) ≠ (k, l) → next.entryAt k l = manager.entryAt k l := by
    intro k l hne
    rw [hnext, if_neg fun heq ↦ hne (by rw [heq.1, heq.2])]
  constructor
  · intro hafter hswapped k l other hother hne hotherSwapped
    exact (hafter i j k l entry other hhere ((hthere k l hne).trans hother) hne hswapped
      hotherSwapped).symm
  · intro hfree a b k l first second hfirst hsecond hne hfirstSwapped hsecondSwapped
    by_cases hab : (i, j) = (a, b)
    · obtain ⟨rfl, rfl⟩ := Prod.mk.inj hab
      obtain rfl := Option.some.inj (hhere.symm.trans hfirst)
      rw [hthere k l hne] at hsecond
      exact (hfree hfirstSwapped k l second hsecond hne hsecondSwapped).symm
    · rw [hthere a b hab] at hfirst
      by_cases hkl : (i, j) = (k, l)
      · obtain ⟨rfl, rfl⟩ := Prod.mk.inj hkl
        obtain rfl := Option.some.inj (hhere.symm.trans hsecond)
        exact hfree hsecondSwapped a b first hfirst hab hfirstSwapped
      · rw [hthere k l hkl] at hsecond
        exact hexclusive a b k l first second hfirst hsecond hne hfirstSwapped hsecondSwapped

/-- Assumes: swap slots are exclusive. They are exclusive after a call exactly when the entry it
writes, if it is swapped out, has an offset that no other entry holds. -/
theorem swapSlotsExclusive_step_iff_writes {manager : VirtualMemoryManager}
    (hexclusive : SwapSlotsExclusive manager) (call : VmCall) :
    SwapSlotsExclusive (vmStep manager call) ↔
      ∀ i j entry, vmWrites manager call = some (i, j, entry) → entry.state = .swapped →
        SlotFreeFor manager i j entry.swapOffset := by
  cases hwrites : vmWrites manager call with
  | none =>
    have hsame : ∀ k l, (vmStep manager call).entryAt k l = manager.entryAt k l := by
      intro k l
      rw [entryAt_vmStep, hwrites]
    simp only [SwapSlotsExclusive, hsame, reduceCtorEq, false_implies, implies_true, iff_true]
    exact hexclusive
  | some written =>
    obtain ⟨i, j, entry⟩ := written
    have hnext : ∀ k l, (vmStep manager call).entryAt k l =
        if i = k ∧ j = l then some entry else manager.entryAt k l := by
      intro k l
      rw [entryAt_vmStep, hwrites]
    rw [swapSlotsExclusive_write_iff hexclusive hnext]
    simp only [Option.some.injEq, Prod.mk.injEq]
    constructor
    · rintro hfree _ _ _ ⟨rfl, rfl, rfl⟩
      exact hfree
    · intro hfree
      exact hfree i j entry ⟨rfl, rfl, rfl⟩

/-- Assumes: swap slots are exclusive. They are exclusive after a call exactly when the call meets
`SwapSlotFree`. -/
theorem swapSlotsExclusive_step_iff {manager : VirtualMemoryManager}
    (hexclusive : SwapSlotsExclusive manager) (call : VmCall) :
    SwapSlotsExclusive (vmStep manager call) ↔ SwapSlotFree manager call := by
  rw [swapSlotsExclusive_step_iff_writes hexclusive]
  constructor
  · intro hfree
    cases call with
    | swapPageOut i j =>
      intro entry hentry hout
      refine hfree i j { entry with state := .swapped, swapOffset := manager.memorySwapped } ?_ rfl
      rw [vmWrites, hentry, Option.bind_some, if_neg hout]
    | _ => trivial
  · intro hfree i j entry hwrites hswapped
    cases written_of_vmWrites hwrites with
    | allocated pageTableId pageNum => simp [allocatedEntry] at hswapped
    | freed pageTableId pageNum => simp [PageTableEntry.zeroed] at hswapped
    | restated hold hstate => exact absurd hswapped hstate
    | swappedOut hold hout => exact hfree _ hold hout
    | permitted hold =>
      -- the entry keeps its state and its offset, so its slot was exclusive before
      intro k l other hother hne hotherSwapped
      exact (hexclusive i j k l _ other hold hother hne hswapped hotherSwapped).symm

/-- Swap-slot exclusivity over every run. Along the calls made on a manager with allocated, zeroed
page tables, distinct swapped entries have different swap offsets in every state exactly when every
page that goes out finds the offset `memory_swapped` free. -/
theorem swapSlotsExclusive_alongRun_iff (physicalMem swapSpace : UInt64)
    (nextPageTableId : UInt32) (calls : List VmCall) :
    AlongRun vmStep SwapSlotsExclusive (vmManagerStart physicalMem swapSpace nextPageTableId)
        calls ↔
      EveryStep vmStep SwapSlotFree (vmManagerStart physicalMem swapSpace nextPageTableId)
        calls := by
  refine alongRun_iff_everyStep (fun _ ↦ True) (fun _ _ ↦ True) (fun _ _ _ _ ↦ trivial)
    (fun _ call _ _ hexclusive ↦ swapSlotsExclusive_step_iff hexclusive call) trivial ?_ ?_
  · intro i j k l first second hfirst
    simp [vmManagerStart, VirtualMemoryManager.entryAt] at hfirst
  · exact fun _ _ _ ↦ trivial

/-- Two pages go out to the slots at `0` and `4096`, the first one comes back in, and a third page
goes out to the slot at `4096`, which the second still holds. -/
theorem slot_reused_after_swap_in :
    ¬ AlongRun vmStep SwapSlotsExclusive (vmManagerStart 65536 65536 1)
      [.createPageTable 7 true, .allocateVirtualPage 1 10, .allocateVirtualPage 1 11,
        .allocateVirtualPage 1 12, .swapPageOut 0 0, .swapPageOut 0 1, .swapPageIn 0 0,
        .swapPageOut 0 2] := by
  intro halong
  exact halong _ (List.prefix_refl _) 0 1 0 2 _ _ rfl rfl (by decide) rfl rfl rfl

/-! ### Physical addresses -/

/-- No two distinct entries that are resident at the same time have the same physical address. -/
def PhysicallyIsolated (manager : VirtualMemoryManager) : Prop :=
  ∀ (i j k l : ℕ) (first second : PageTableEntry),
    manager.entryAt i j = some first → manager.entryAt k l = some second → (i, j) ≠ (k, l) →
    first.state = .resident → second.state = .resident →
      first.physicalAddress ≠ second.physicalAddress

/-- The physical address of every entry is its page number times the page size, in 32 bits. -/
def DirectlyMapped (manager : VirtualMemoryManager) : Prop :=
  ∀ (i j : ℕ) (entry : PageTableEntry), manager.entryAt i j = some entry →
    entry.physicalAddress = (entry.pageNumber * 4096).toUInt64

/-- Two distinct resident entries have the same physical address exactly when their page numbers
agree modulo `2 ^ 20`. -/
def SharedExactlyByPageNumber (manager : VirtualMemoryManager) : Prop :=
  ∀ (i j k l : ℕ) (first second : PageTableEntry),
    manager.entryAt i j = some first → manager.entryAt k l = some second → (i, j) ≠ (k, l) →
    first.state = .resident → second.state = .resident →
      (first.physicalAddress = second.physicalAddress ↔
        first.pageNumber.toNat % 2 ^ 20 = second.pageNumber.toNat % 2 ^ 20)

/-- Every call keeps the direct mapping. -/
theorem directlyMapped_step {manager : VirtualMemoryManager} (hdirect : DirectlyMapped manager)
    (call : VmCall) : DirectlyMapped (vmStep manager call) := by
  intro k l entry hentry
  rw [entryAt_vmStep] at hentry
  cases hwrites : vmWrites manager call with
  | none =>
    rw [hwrites] at hentry
    exact hdirect k l entry hentry
  | some written =>
    obtain ⟨i, j, new⟩ := written
    rw [hwrites] at hentry
    dsimp only at hentry
    split_ifs at hentry with hhere
    · obtain rfl := Option.some.inj hentry
      cases written_of_vmWrites hwrites with
      | allocated pageTableId pageNum => rfl
      | freed pageTableId pageNum => rfl
      | restated hold hstate =>
        have hmapped := hdirect i j _ hold
        exact hmapped
      | swappedOut hold hout =>
        have hmapped := hdirect i j _ hold
        exact hmapped
      | permitted hold =>
        have hmapped := hdirect i j _ hold
        exact hmapped
    · exact hdirect k l entry hentry

/-- Direct physical addresses agree exactly when the page numbers agree modulo `2 ^ 20`. -/
theorem direct_eq_iff (first second : UInt32) :
    (first * 4096).toUInt64 = (second * 4096).toUInt64 ↔
      first.toNat % 2 ^ 20 = second.toNat % 2 ^ 20 := by
  rw [← UInt64.toNat_inj, UInt32.toNat_toUInt64, UInt32.toNat_toUInt64, UInt32.toNat_mul,
    UInt32.toNat_mul]
  change first.toNat * 4096 % 2 ^ 32 = second.toNat * 4096 % 2 ^ 32 ↔ _
  omega

/-- Sharing of physical addresses over every run. In every state that the calls reach from a
manager with allocated, zeroed page tables, two distinct resident entries, in the same table or in
two, have the same physical address exactly when their page numbers agree modulo `2 ^ 20`. -/
theorem physicalAddress_eq_iff_alongRun (physicalMem swapSpace : UInt64)
    (nextPageTableId : UInt32) (calls : List VmCall) :
    AlongRun vmStep SharedExactlyByPageNumber
      (vmManagerStart physicalMem swapSpace nextPageTableId) calls := by
  have hdirect : AlongRun vmStep DirectlyMapped
      (vmManagerStart physicalMem swapSpace nextPageTableId) calls := by
    refine alongRun_invariant DirectlyMapped (fun _ _ ↦ True)
      (fun _ call hdirect _ ↦ directlyMapped_step hdirect call) ?_ fun _ _ _ ↦ trivial
    intro i j entry hentry
    simp [vmManagerStart, VirtualMemoryManager.entryAt] at hentry
  refine hdirect.imp fun manager hmapped i j k l first second hfirst hsecond _ _ _ ↦ ?_
  rw [hmapped i j first hfirst, hmapped k l second hsecond]
  exact direct_eq_iff _ _

/-- Two processes allocate page `5`, and both entries are resident at physical address `20480`. -/
theorem two_processes_share_frame :
    ¬ AlongRun vmStep PhysicallyIsolated (vmManagerStart 65536 65536 1)
      [.createPageTable 7 true, .createPageTable 8 true, .allocateVirtualPage 1 5,
        .allocateVirtualPage 2 5] := by
  intro halong
  exact halong _ (List.prefix_refl _) 0 0 1 0 _ _ rfl rfl (by decide) rfl rfl rfl

end OneOS.Memory.PagedMemory
