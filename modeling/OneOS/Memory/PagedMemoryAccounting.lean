import Mathlib.Algebra.Order.BigOperators.Group.List
import Mathlib.Algebra.Order.Ring.Nat
import OneOS.Memory.PagedMemory

/-!
# Accounting of resident and swapped pages

`memory-management/virtual_memory_manager.c`. The manager counts the bytes mapped and the bytes
swapped out, and every table counts its resident and its swapped pages. `Accounted` says that the
four counters are the sizes of what they count, a locked page being one in memory.

`accounted_set_iff` is the balance of one entry write: the counters stay right exactly when each of
them moves with the entry. Applied to the calls, it shows which of them keep the books:
`vm_swap_page_out` never does when it acts, because it leaves `memory_mapped` and both counters of
the table as they are; `vm_swap_page_in` and a fault served from swap leave the same three;
`vm_free_virtual_page` leaves out a locked page; and `vm_lock_page` and `vm_unlock_page` make a page
resident or locked without counting it when it was unmapped or swapped. These are all the cases
(`CountersFollow`): `accounted_alongRun_iff` states that the counters are right, and no decrement
goes below zero, in every state of a run exactly when no call is one of them.
-/

set_option autoImplicit false
set_option relaxedAutoImplicit false

namespace OneOS.Memory.PagedMemory

open Foundation

/-! ### What the counters count -/

/-- The page is in memory: resident or locked. -/
def PageTableEntry.inRam (entry : PageTableEntry) : Bool :=
  entry.state = .resident ∨ entry.state = .locked

/-- The page is swapped out. -/
def PageTableEntry.isSwapped (entry : PageTableEntry) : Bool :=
  entry.state = .swapped

/-- The number of pages of a table that are in memory. -/
def PageTable.ramCount (table : PageTable) : ℕ :=
  table.entries.countP PageTableEntry.inRam

/-- The number of pages of a table that are swapped out. -/
def PageTable.swapCount (table : PageTable) : ℕ :=
  table.entries.countP PageTableEntry.isSwapped

/-- The number of pages of all tables that are in memory. -/
def VirtualMemoryManager.ramCount (manager : VirtualMemoryManager) : ℕ :=
  (manager.pageTables.map PageTable.ramCount).sum

/-- The number of pages of all tables that are swapped out. -/
def VirtualMemoryManager.swapCount (manager : VirtualMemoryManager) : ℕ :=
  (manager.pageTables.map PageTable.swapCount).sum

/-- The two counters of a table are the numbers of its pages in memory and swapped out. -/
def TableAccounted (table : PageTable) : Prop :=
  table.residentPages.toNat = table.ramCount ∧ table.swappedPages.toNat = table.swapCount

/-- The counters of the manager and of every table are right. -/
structure Accounted (manager : VirtualMemoryManager) : Prop where
  mapped : manager.memoryMapped.toNat = pageSize.toNat * manager.ramCount
  swapped : manager.memorySwapped.toNat = pageSize.toNat * manager.swapCount
  tables : ∀ table ∈ manager.pageTables, TableAccounted table

/-- No decrement of the call goes below zero. -/
def NoUnderflow (manager : VirtualMemoryManager) : VmCall → Prop
  | .freeVirtualPage pageTableId pageNum => ∀ i j entry table,
      manager.locate pageTableId (hasPage pageNum) = some (i, j, entry) →
      manager.pageTables[i]? = some table →
        (entry.state = .resident → 1 ≤ table.residentPages ∧ pageSize ≤ manager.memoryMapped) ∧
        (entry.state = .swapped → 1 ≤ table.swappedPages ∧ pageSize ≤ manager.memorySwapped)
  | .pageFaultHandler pageTableId pageNum => ∀ i j entry,
      manager.locate pageTableId (isFaulting pageNum) = some (i, j, entry) →
        entry.state = .swapped → pageSize ≤ manager.memorySwapped
  | .swapPageIn i j => ∀ entry, manager.entryAt i j = some entry →
      entry.state = .swapped → pageSize ≤ manager.memorySwapped
  | _ => True

/-- The condition on a call: a page goes out only where the call is refused, no page comes in, a
freed page is not locked, and a page that is locked or unlocked is in memory. -/
def CountersFollow (manager : VirtualMemoryManager) : VmCall → Prop
  | .swapPageOut i j => ∀ entry, manager.entryAt i j = some entry →
      entry.state = .locked ∨ entry.state = .pinned
  | .swapPageIn i j => ∀ entry, manager.entryAt i j = some entry → entry.state ≠ .swapped
  | .pageFaultHandler pageTableId pageNum => ∀ i j entry,
      manager.locate pageTableId (isFaulting pageNum) = some (i, j, entry) →
        entry.state ≠ .swapped
  | .freeVirtualPage pageTableId pageNum => ∀ i j entry,
      manager.locate pageTableId (hasPage pageNum) = some (i, j, entry) → entry.state ≠ .locked
  | .lockPage pageTableId pageNum => ∀ i j entry,
      manager.locate pageTableId (hasPage pageNum) = some (i, j, entry) → entry.inRam = true
  | .unlockPage pageTableId pageNum => ∀ i j entry,
      manager.locate pageTableId (hasPage pageNum) = some (i, j, entry) → entry.inRam = true
  | _ => True

/-! ### The balance of one entry write -/

/-- The table that holds the entry at a position. -/
theorem getElem?_of_entryAt {manager : VirtualMemoryManager} {i j : ℕ} {entry : PageTableEntry}
    (hentry : manager.entryAt i j = some entry) :
    ∃ table, manager.pageTables[i]? = some table ∧ table.entries[j]? = some entry := by
  rwa [VirtualMemoryManager.entryAt, Option.bind_eq_some_iff] at hentry

/-- Assumes: the counters are right, and `next` has the tables of `manager` with table `i` changed.
The counters are right in `next` exactly when the two totals move with the counts of the table and
the changed table has its own counters right. -/
theorem accounted_modify_iff {manager next : VirtualMemoryManager} {i : ℕ} {table : PageTable}
    {change : PageTable → PageTable} (haccounted : Accounted manager)
    (htable : manager.pageTables[i]? = some table)
    (hnext : next.pageTables = manager.pageTables.modify i change) :
    Accounted next ↔
      next.memoryMapped.toNat + 4096 * table.ramCount =
          manager.memoryMapped.toNat + 4096 * (change table).ramCount ∧
        next.memorySwapped.toNat + 4096 * table.swapCount =
          manager.memorySwapped.toNat + 4096 * (change table).swapCount ∧
        TableAccounted (change table) := by
  have hram : next.ramCount + table.ramCount = manager.ramCount + (change table).ramCount := by
    rw [VirtualMemoryManager.ramCount, hnext]
    exact sum_map_modify_add htable change
  have hswap : next.swapCount + table.swapCount = manager.swapCount + (change table).swapCount := by
    rw [VirtualMemoryManager.swapCount, hnext]
    exact sum_map_modify_add htable change
  have htables := forall_mem_modify_iff haccounted.tables htable change
  have hpage : pageSize.toNat = 4096 := rfl
  have hmapped := haccounted.mapped
  have hswapped := haccounted.swapped
  rw [hpage] at hmapped hswapped
  constructor
  · rintro ⟨hmappedNext, hswappedNext, htablesNext⟩
    rw [hpage] at hmappedNext hswappedNext
    rw [hnext] at htablesNext
    exact ⟨by omega, by omega, htables.mp htablesNext⟩
  · rintro ⟨hmappedNext, hswappedNext, hchanged⟩
    refine ⟨by rw [hpage]; omega, by rw [hpage]; omega, ?_⟩
    rw [hnext]
    exact htables.mpr hchanged

/-- The weight of an entry in a count. -/
def weight (test : PageTableEntry → Bool) (entry : PageTableEntry) : ℕ :=
  if test entry then 1 else 0

/-- Assumes: the counters are right, and `next` has the tables of `manager` with entry `j` of table
`i` written. The counters are right in `next` exactly when each of the four moves with the entry. -/
theorem accounted_set_iff {manager next : VirtualMemoryManager} {i j : ℕ} {table : PageTable}
    {old new : PageTableEntry} {change : PageTable → PageTable} (haccounted : Accounted manager)
    (htable : manager.pageTables[i]? = some table) (hold : table.entries[j]? = some old)
    (hnext : next.pageTables = manager.pageTables.modify i change)
    (hchange : (change table).entries = table.entries.set j new) :
    Accounted next ↔
      next.memoryMapped.toNat + 4096 * weight PageTableEntry.inRam old =
          manager.memoryMapped.toNat + 4096 * weight PageTableEntry.inRam new ∧
        next.memorySwapped.toNat + 4096 * weight PageTableEntry.isSwapped old =
          manager.memorySwapped.toNat + 4096 * weight PageTableEntry.isSwapped new ∧
        (change table).residentPages.toNat + weight PageTableEntry.inRam old =
          table.residentPages.toNat + weight PageTableEntry.inRam new ∧
        (change table).swappedPages.toNat + weight PageTableEntry.isSwapped old =
          table.swappedPages.toNat + weight PageTableEntry.isSwapped new := by
  have hram : (change table).ramCount + weight PageTableEntry.inRam old =
      table.ramCount + weight PageTableEntry.inRam new := by
    rw [PageTable.ramCount, hchange]
    exact countP_set_add hold new
  have hswap : (change table).swapCount + weight PageTableEntry.isSwapped old =
      table.swapCount + weight PageTableEntry.isSwapped new := by
    rw [PageTable.swapCount, hchange]
    exact countP_set_add hold new
  obtain ⟨hresident, hswapped⟩ := haccounted.tables table (List.mem_of_getElem? htable)
  rw [accounted_modify_iff haccounted htable hnext, TableAccounted]
  constructor
  · rintro ⟨hmappedNext, hswappedNext, hresidentNext, hswappedPagesNext⟩
    exact ⟨by omega, by omega, by omega, by omega⟩
  · rintro ⟨hmappedNext, hswappedNext, hresidentNext, hswappedPagesNext⟩
    exact ⟨by omega, by omega, by omega, by omega⟩

/-! ### Bounds on the counters -/

/-- The tables and the entries of every table fit their arrays. -/
structure Bounded (manager : VirtualMemoryManager) : Prop where
  tables : manager.pageTables.length ≤ maxPageTables
  entries : ∀ table ∈ manager.pageTables, table.entries.length ≤ maxPages

/-- The number of pages in memory is bounded by the sizes of the arrays. -/
theorem ramCount_le {manager : VirtualMemoryManager} (hbounded : Bounded manager) :
    manager.ramCount ≤ maxPageTables * maxPages := by
  have hsum : manager.ramCount ≤ manager.pageTables.length * maxPages := by
    rw [VirtualMemoryManager.ramCount, ← List.length_map PageTable.ramCount, ← Nat.nsmul_eq_mul]
    refine List.sum_le_card_nsmul _ _ fun count hcount ↦ ?_
    obtain ⟨table, htable, rfl⟩ := List.mem_map.mp hcount
    exact List.countP_le_length.trans (hbounded.entries table htable)
  exact hsum.trans (Nat.mul_le_mul_right _ hbounded.tables)

/-- Assumes: the counters are right, and there is a page in memory at a position. Its table counts
it, and so does the manager. -/
theorem mapped_pos {manager : VirtualMemoryManager} {i j : ℕ} {table : PageTable}
    {entry : PageTableEntry} (haccounted : Accounted manager)
    (htable : manager.pageTables[i]? = some table) (hentry : table.entries[j]? = some entry)
    (hram : entry.inRam = true) :
    1 ≤ table.residentPages.toNat ∧ 4096 ≤ manager.memoryMapped.toNat := by
  have hmem := List.mem_of_getElem? htable
  have hcount : 1 ≤ table.ramCount :=
    List.countP_pos_iff.mpr ⟨entry, List.mem_of_getElem? hentry, hram⟩
  have htotal : table.ramCount ≤ manager.ramCount :=
    List.single_le_sum (fun _ _ ↦ Nat.zero_le _) _ (List.mem_map_of_mem hmem)
  have hmapped := haccounted.mapped
  have hpage : pageSize.toNat = 4096 := rfl
  rw [hpage] at hmapped
  exact ⟨(haccounted.tables table hmem).1 ▸ hcount, by omega⟩

/-- Assumes: the counters are right, and there is a swapped page at a position. Its table counts it,
and so does the manager. -/
theorem swapped_pos {manager : VirtualMemoryManager} {i j : ℕ} {table : PageTable}
    {entry : PageTableEntry} (haccounted : Accounted manager)
    (htable : manager.pageTables[i]? = some table) (hentry : table.entries[j]? = some entry)
    (hswapped : entry.isSwapped = true) :
    1 ≤ table.swappedPages.toNat ∧ 4096 ≤ manager.memorySwapped.toNat := by
  have hmem := List.mem_of_getElem? htable
  have hcount : 1 ≤ table.swapCount :=
    List.countP_pos_iff.mpr ⟨entry, List.mem_of_getElem? hentry, hswapped⟩
  have htotal : table.swapCount ≤ manager.swapCount :=
    List.single_le_sum (fun _ _ ↦ Nat.zero_le _) _ (List.mem_map_of_mem hmem)
  have hmemory := haccounted.swapped
  have hpage : pageSize.toNat = 4096 := rfl
  rw [hpage] at hmemory
  exact ⟨(haccounted.tables table hmem).2 ▸ hcount, by omega⟩

/-- Assumes: the counters are right and the arrays bounded. Counting one more page in memory does
not overflow. -/
theorem mapped_succ {manager : VirtualMemoryManager} (haccounted : Accounted manager)
    (hbounded : Bounded manager) {table : PageTable} (htable : table ∈ manager.pageTables) :
    (table.residentPages + 1).toNat = table.residentPages.toNat + 1 ∧
      (manager.memoryMapped + pageSize).toNat = manager.memoryMapped.toNat + 4096 := by
  have hcount : table.ramCount ≤ maxPages :=
    List.countP_le_length.trans (hbounded.entries table htable)
  have htotal := ramCount_le hbounded
  have hresident := (haccounted.tables table htable).1
  have hmapped := haccounted.mapped
  have hpage : pageSize.toNat = 4096 := rfl
  rw [hpage] at hmapped
  simp only [maxPages, maxPageTables] at hcount htotal
  rw [UInt64.toNat_add, UInt64.toNat_add, hpage]
  change (table.residentPages.toNat + 1) % 2 ^ 64 = _ ∧ _
  omega

/-! ### The calls one by one -/

/-- Assumes: the counters are right, and a swapped page comes in. They are wrong after it: the table
still counts the page as swapped. -/
theorem not_accounted_vmSwapPageIn {manager : VirtualMemoryManager} {i j : ℕ}
    {entry : PageTableEntry} (haccounted : Accounted manager)
    (hentry : manager.entryAt i j = some entry) (hswapped : entry.state = .swapped) :
    ¬ Accounted (vmSwapPageIn manager i j).1 := by
  obtain ⟨table, htable, hold⟩ := getElem?_of_entryAt hentry
  rw [vmSwapPageIn, hentry]
  dsimp only
  rw [if_neg (not_not.mpr hswapped), accounted_set_iff haccounted htable hold rfl rfl]
  rintro ⟨-, -, -, hpages⟩
  simp [weight, PageTableEntry.isSwapped, hswapped, PageTable.writeEntry] at hpages

/-- Assumes: the counters are right. They are right after a page goes out exactly when the call is
refused. -/
theorem accounted_vmSwapPageOut_iff {manager : VirtualMemoryManager} {i j : ℕ}
    {entry : PageTableEntry} (haccounted : Accounted manager)
    (hentry : manager.entryAt i j = some entry) :
    Accounted (vmSwapPageOut manager i j).1 ↔ entry.state = .locked ∨ entry.state = .pinned := by
  obtain ⟨table, htable, hold⟩ := getElem?_of_entryAt hentry
  rw [vmSwapPageOut, hentry]
  dsimp only
  by_cases hkept : entry.state = .locked ∨ entry.state = .pinned
  · rw [if_pos hkept]
    exact iff_of_true haccounted hkept
  · rw [if_neg hkept, accounted_set_iff haccounted htable hold rfl rfl]
    refine iff_of_false ?_ hkept
    rintro ⟨-, hmemory, -, hpages⟩
    -- the table's counter stands still, so the page was swapped before, and `memory_swapped` moved
    have hbound := manager.memorySwapped.toNat_lt
    have hpage : pageSize.toNat = 4096 := rfl
    simp only [PageTable.writeEntry, weight, PageTableEntry.isSwapped] at hpages
    simp only [weight, PageTableEntry.isSwapped, UInt64.toNat_add, hpage] at hmemory
    omega

/-- Assumes: the counters are right, and a change of an entry leaves it counting as it did exactly
under a condition. After the entry found for a page is changed, the counters being left alone, they
are right exactly when that entry meets the condition. -/
theorem accounted_vmChangePage_iff {manager : VirtualMemoryManager} {pageTableId pageNum : UInt32}
    {change : PageTableEntry → PageTableEntry} {condition : PageTableEntry → Prop}
    (haccounted : Accounted manager)
    (hcounts : ∀ entry, (change entry).inRam = entry.inRam ∧
      (change entry).isSwapped = entry.isSwapped ↔ condition entry) :
    Accounted (vmChangePage manager pageTableId pageNum change).1 ↔
      ∀ i j entry, manager.locate pageTableId (hasPage pageNum) = some (i, j, entry) →
        condition entry := by
  rw [vmChangePage]
  cases hlocate : manager.locate pageTableId (hasPage pageNum) with
  | none => simp [haccounted]
  | some found =>
    obtain ⟨i, j, entry⟩ := found
    obtain ⟨table, htable, hold⟩ := getElem?_of_entryAt (entryAt_of_locate hlocate).1
    have hweights : Accounted (manager.writeEntry i j (change entry)) ↔ condition entry := by
      rw [accounted_set_iff haccounted htable hold rfl rfl, ← hcounts entry]
      simp only [VirtualMemoryManager.writeEntry, PageTable.writeEntry, weight]
      cases (change entry).inRam <;> cases entry.inRam <;> cases (change entry).isSwapped <;>
        cases entry.isSwapped <;> simp
    dsimp only
    rw [hweights]
    constructor
    · rintro hcondition _ _ _ heq
      obtain ⟨-, -, rfl⟩ : i = _ ∧ j = _ ∧ entry = _ := by simpa using heq
      exact hcondition
    · intro hall
      exact hall i j entry rfl

/-- A page that is locked or unlocked counts as it did exactly when it was in memory. -/
theorem counts_restated_iff {state : PageState} (hstate : state = .locked ∨ state = .resident)
    (entry : PageTableEntry) :
    ({ entry with state := state } : PageTableEntry).inRam = entry.inRam ∧
      ({ entry with state := state } : PageTableEntry).isSwapped = entry.isSwapped ↔
        entry.inRam = true := by
  obtain ⟨_, _, old, _, _, _, _, _, _⟩ := entry
  rcases hstate with rfl | rfl <;> cases old <;>
    simp [PageTableEntry.inRam, PageTableEntry.isSwapped]

/-- Assumes: the counters are right. They are right after a page is freed exactly when the page was
not locked. -/
theorem accounted_vmFreeVirtualPage_iff {manager : VirtualMemoryManager}
    {pageTableId pageNum : UInt32} {i j : ℕ} {entry : PageTableEntry}
    (haccounted : Accounted manager)
    (hlocate : manager.locate pageTableId (hasPage pageNum) = some (i, j, entry)) :
    Accounted (vmFreeVirtualPage manager pageTableId pageNum).1 ↔ entry.state ≠ .locked := by
  obtain ⟨table, htable, hold⟩ := getElem?_of_entryAt (entryAt_of_locate hlocate).1
  have hpage : pageSize.toNat = 4096 := rfl
  rw [vmFreeVirtualPage, hlocate]
  dsimp only
  rw [accounted_set_iff haccounted htable hold rfl rfl]
  have hmapped := mapped_pos haccounted htable hold
  have hswapped := swapped_pos haccounted htable hold
  obtain ⟨_, _, state, _, _, _, _, _, _⟩ := entry
  cases state with
  | resident =>
    obtain ⟨hpages, hbytes⟩ := hmapped rfl
    have hpagesSub : (table.residentPages - 1).toNat = table.residentPages.toNat - 1 :=
      UInt64.toNat_sub_of_le _ _ (UInt64.le_iff_toNat_le.mpr hpages)
    have hbytesSub : (manager.memoryMapped - pageSize).toNat =
        manager.memoryMapped.toNat - pageSize.toNat :=
      UInt64.toNat_sub_of_le _ _ (UInt64.le_iff_toNat_le.mpr hbytes)
    simp [PageTable.free, weight, PageTableEntry.inRam, PageTableEntry.isSwapped,
      PageTableEntry.zeroed, hpagesSub, hbytesSub, hpage]
    omega
  | swapped =>
    obtain ⟨hpages, hbytes⟩ := hswapped rfl
    have hpagesSub : (table.swappedPages - 1).toNat = table.swappedPages.toNat - 1 :=
      UInt64.toNat_sub_of_le _ _ (UInt64.le_iff_toNat_le.mpr hpages)
    have hbytesSub : (manager.memorySwapped - pageSize).toNat =
        manager.memorySwapped.toNat - pageSize.toNat :=
      UInt64.toNat_sub_of_le _ _ (UInt64.le_iff_toNat_le.mpr hbytes)
    simp [PageTable.free, weight, PageTableEntry.inRam, PageTableEntry.isSwapped,
      PageTableEntry.zeroed, hpagesSub, hbytesSub, hpage]
    omega
  | locked =>
    simp [PageTable.free, weight, PageTableEntry.inRam, PageTableEntry.isSwapped,
      PageTableEntry.zeroed]
  | _ =>
    simp [PageTable.free, weight, PageTableEntry.inRam, PageTableEntry.isSwapped,
      PageTableEntry.zeroed]

/-- Assumes: the counters are right and the arrays bounded. They are right after a page is
allocated. -/
theorem accounted_vmAllocateVirtualPage {manager : VirtualMemoryManager}
    (haccounted : Accounted manager) (hbounded : Bounded manager) (pageTableId pageNum : UInt32) :
    Accounted (vmAllocateVirtualPage manager pageTableId pageNum).1 := by
  rw [vmAllocateVirtualPage]
  generalize manager.pageTables.findIdx (hasTableId pageTableId) = i
  cases htable : manager.pageTables[i]? with
  | none => exact haccounted
  | some table =>
    dsimp only
    split_ifs with hfull
    · exact haccounted
    · have hmem := List.mem_of_getElem? htable
      obtain ⟨hpages, hbytes⟩ := mapped_succ haccounted hbounded hmem
      obtain ⟨hresident, hswapped⟩ := haccounted.tables table hmem
      have hram : (table.allocate pageNum).ramCount = table.ramCount + 1 := by
        simp [PageTable.ramCount, PageTable.allocate, allocatedEntry, PageTableEntry.inRam]
      have hswap : (table.allocate pageNum).swapCount = table.swapCount := by
        simp [PageTable.swapCount, PageTable.allocate, allocatedEntry, PageTableEntry.isSwapped]
      rw [accounted_modify_iff haccounted htable rfl, TableAccounted, hram, hswap]
      refine ⟨?_, rfl, ?_, hswapped⟩
      · rw [hbytes]
        omega
      · rw [PageTable.allocate, hpages, hresident]

/-- Counting faults changes neither the entries nor the counters of pages of a table. -/
theorem map_countFaults {Key : Type*} (reading : PageTable → Key) (manager : VirtualMemoryManager)
    (pageTableId : UInt32) (last : ℕ)
    (hkeep : ∀ table faults, reading { table with pageFaults := faults } = reading table) :
    (countFaults manager pageTableId last).pageTables.map reading =
      manager.pageTables.map reading := by
  refine map_mapIdx_of_keep fun i table ↦ ?_
  split_ifs
  · exact hkeep table _
  · rfl

/-- A property of every table that does not read the fault counter survives counting faults. -/
theorem forall_mem_countFaults {property : PageTable → Prop} {manager : VirtualMemoryManager}
    (hall : ∀ table ∈ manager.pageTables, property table) (pageTableId : UInt32) (last : ℕ)
    (hkeep : ∀ table faults, property { table with pageFaults := faults } = property table) :
    ∀ table ∈ (countFaults manager pageTableId last).pageTables, property table := by
  have hsame := map_countFaults property manager pageTableId last hkeep
  intro table htable
  have hmem : property table ∈ manager.pageTables.map property :=
    hsame ▸ List.mem_map_of_mem htable
  obtain ⟨old, hold, heq⟩ := List.mem_map.mp hmem
  exact heq ▸ hall old hold

theorem bounded_countFaults {manager : VirtualMemoryManager} (hbounded : Bounded manager)
    (pageTableId : UInt32) (last : ℕ) : Bounded (countFaults manager pageTableId last) where
  tables := by simpa [countFaults] using hbounded.tables
  entries := forall_mem_countFaults hbounded.entries pageTableId last fun _ _ ↦ rfl

theorem accounted_countFaults {manager : VirtualMemoryManager} (haccounted : Accounted manager)
    (pageTableId : UInt32) (last : ℕ) : Accounted (countFaults manager pageTableId last) where
  mapped := by
    rw [VirtualMemoryManager.ramCount, map_countFaults _ manager pageTableId last fun _ _ ↦ rfl]
    exact haccounted.mapped
  swapped := by
    rw [VirtualMemoryManager.swapCount, map_countFaults _ manager pageTableId last fun _ _ ↦ rfl]
    exact haccounted.swapped
  tables := forall_mem_countFaults haccounted.tables pageTableId last fun _ _ ↦ rfl

/-- Assumes: the counters are right and the arrays bounded. They are right after a fault exactly
when the fault is not served from swap. -/
theorem accounted_vmPageFaultHandler_iff {manager : VirtualMemoryManager}
    {pageTableId pageNum : UInt32} {i j : ℕ} {entry : PageTableEntry}
    (haccounted : Accounted manager) (hbounded : Bounded manager)
    (hlocate : manager.locate pageTableId (isFaulting pageNum) = some (i, j, entry)) :
    Accounted (vmPageFaultHandler manager pageTableId pageNum).1 ↔ entry.state ≠ .swapped := by
  obtain ⟨hentry, hfaulting⟩ := entryAt_of_locate hlocate
  have hcounted := accounted_countFaults haccounted pageTableId i
  rw [← entryAt_countFaults manager pageTableId i] at hentry
  rw [vmPageFaultHandler, hlocate]
  dsimp only
  by_cases hswapped : entry.state = .swapped
  · rw [if_pos hswapped]
    exact iff_of_false (not_accounted_vmSwapPageIn hcounted hentry hswapped) (not_not.mpr hswapped)
  · rw [if_neg hswapped]
    refine iff_of_true ?_ hswapped
    have hunmapped : entry.state = .unmapped := by
      simp only [isFaulting, hswapped, Bool.and_eq_true, Bool.or_eq_true, beq_iff_eq,
        false_or] at hfaulting
      exact hfaulting.2
    obtain ⟨table, htable, hold⟩ := getElem?_of_entryAt hentry
    obtain ⟨hpages, hbytes⟩ := mapped_succ hcounted (bounded_countFaults hbounded pageTableId i)
      (List.mem_of_getElem? htable)
    rw [accounted_set_iff hcounted htable hold rfl rfl]
    simp only [PageTable.revive, weight, PageTableEntry.inRam, PageTableEntry.isSwapped, hunmapped,
      hpages, hbytes]
    simp

/-! ### Runs -/

/-- Assumes: the arrays are bounded, and `next` has the tables of `manager` with table `i` changed
to one whose entries fit. The arrays of `next` are bounded. -/
theorem bounded_of_modify {manager next : VirtualMemoryManager} {i : ℕ}
    {change : PageTable → PageTable} (hbounded : Bounded manager)
    (hnext : next.pageTables = manager.pageTables.modify i change)
    (hchange : ∀ table, manager.pageTables[i]? = some table →
      (change table).entries.length ≤ maxPages) : Bounded next := by
  refine ⟨by simpa [hnext] using hbounded.tables, ?_⟩
  rw [hnext]
  cases htable : manager.pageTables[i]? with
  | none =>
    rw [List.modify_eq_self (List.getElem?_eq_none_iff.mp htable)]
    exact hbounded.entries
  | some table =>
    exact (forall_mem_modify_iff hbounded.entries htable change).mpr (hchange table htable)

/-- Assumes: the arrays are bounded, and `next` has the tables of `manager` with one entry written.
The arrays of `next` are bounded. -/
theorem bounded_of_set {manager next : VirtualMemoryManager} {i j : ℕ} {entry : PageTableEntry}
    {change : PageTable → PageTable} (hbounded : Bounded manager)
    (hnext : next.pageTables = manager.pageTables.modify i change)
    (hchange : ∀ table, (change table).entries = table.entries.set j entry) : Bounded next := by
  refine bounded_of_modify hbounded hnext fun table htable ↦ ?_
  rw [hchange, List.length_set]
  exact hbounded.entries table (List.mem_of_getElem? htable)

theorem bounded_vmSwapPageIn {manager : VirtualMemoryManager} (hbounded : Bounded manager)
    (i j : ℕ) : Bounded (vmSwapPageIn manager i j).1 := by
  rw [vmSwapPageIn]
  cases hentry : manager.entryAt i j with
  | none => exact hbounded
  | some entry =>
    dsimp only
    split_ifs
    · exact hbounded
    · exact bounded_of_set hbounded rfl fun _ ↦ rfl

theorem bounded_vmChangePage {manager : VirtualMemoryManager} (hbounded : Bounded manager)
    (pageTableId pageNum : UInt32) (change : PageTableEntry → PageTableEntry) :
    Bounded (vmChangePage manager pageTableId pageNum change).1 := by
  rw [vmChangePage]
  cases manager.locate pageTableId (hasPage pageNum) with
  | none => exact hbounded
  | some found => exact bounded_of_set hbounded rfl fun _ ↦ rfl

/-- Every call keeps the arrays bounded. -/
theorem bounded_step {manager : VirtualMemoryManager} (hbounded : Bounded manager) (call : VmCall) :
    Bounded (vmStep manager call) := by
  cases call with
  | createPageTable processId allocated =>
    simp only [vmStep, vmCreatePageTable]
    split_ifs with hfull hfailed
    · exact hbounded
    · exact hbounded
    · refine ⟨?_, fun table htable ↦ ?_⟩
      · simp only [List.length_append, List.length_singleton]
        omega
      · rcases List.mem_append.mp htable with hold | hnew
        · exact hbounded.entries table hold
        · simp [List.mem_singleton.mp hnew]
  | allocateVirtualPage pageTableId pageNum =>
    simp only [vmStep, vmAllocateVirtualPage]
    generalize manager.pageTables.findIdx (hasTableId pageTableId) = i
    cases htable : manager.pageTables[i]? with
    | none => exact hbounded
    | some table =>
      dsimp only
      split_ifs with hfull
      · exact hbounded
      · refine bounded_of_modify hbounded rfl fun found hfound ↦ ?_
        obtain rfl := Option.some.inj (htable.symm.trans hfound)
        simp only [PageTable.allocate, List.length_append, List.length_singleton]
        omega
  | freeVirtualPage pageTableId pageNum =>
    simp only [vmStep, vmFreeVirtualPage]
    cases manager.locate pageTableId (hasPage pageNum) with
    | none => exact hbounded
    | some found => exact bounded_of_set hbounded rfl fun _ ↦ rfl
  | pageFaultHandler pageTableId pageNum =>
    simp only [vmStep, vmPageFaultHandler]
    cases manager.locate pageTableId (isFaulting pageNum) with
    | none => exact bounded_countFaults hbounded pageTableId _
    | some found =>
      have hcounted := bounded_countFaults hbounded pageTableId found.1
      dsimp only
      split_ifs
      · exact bounded_vmSwapPageIn hcounted _ _
      · exact bounded_of_set hcounted rfl fun _ ↦ rfl
  | swapPageOut i j =>
    simp only [vmStep, vmSwapPageOut]
    cases manager.entryAt i j with
    | none => exact hbounded
    | some entry =>
      dsimp only
      split_ifs
      · exact hbounded
      · exact bounded_of_set hbounded rfl fun _ ↦ rfl
  | swapPageIn i j => exact bounded_vmSwapPageIn hbounded i j
  | lockPage pageTableId pageNum => exact bounded_vmChangePage hbounded pageTableId pageNum _
  | unlockPage pageTableId pageNum => exact bounded_vmChangePage hbounded pageTableId pageNum _
  | setPagePermissions pageTableId pageNum read write exec =>
    exact bounded_vmChangePage hbounded pageTableId pageNum _

/-- Assumes: the counters are right and the arrays bounded. The counters are right after a call
exactly when the call meets `CountersFollow`. -/
theorem accounted_step_iff {manager : VirtualMemoryManager} (hbounded : Bounded manager)
    (haccounted : Accounted manager) (call : VmCall) :
    Accounted (vmStep manager call) ↔ CountersFollow manager call := by
  cases call with
  | createPageTable processId allocated =>
    simp only [vmStep, vmCreatePageTable, CountersFollow, iff_true]
    split_ifs
    · exact haccounted
    · exact haccounted
    · refine ⟨?_, ?_, fun table htable ↦ ?_⟩
      · simpa [VirtualMemoryManager.ramCount, PageTable.ramCount] using haccounted.mapped
      · simpa [VirtualMemoryManager.swapCount, PageTable.swapCount] using haccounted.swapped
      · rcases List.mem_append.mp htable with hold | hnew
        · exact haccounted.tables table hold
        · rw [List.mem_singleton.mp hnew]
          exact ⟨rfl, rfl⟩
  | allocateVirtualPage pageTableId pageNum =>
    exact iff_of_true (accounted_vmAllocateVirtualPage haccounted hbounded pageTableId pageNum)
      trivial
  | freeVirtualPage pageTableId pageNum =>
    cases hlocate : manager.locate pageTableId (hasPage pageNum) with
    | none => simp [vmStep, vmFreeVirtualPage, CountersFollow, hlocate, haccounted]
    | some found =>
      simp only [CountersFollow, hlocate, Option.some.injEq]
      rw [vmStep, accounted_vmFreeVirtualPage_iff haccounted hlocate]
      exact ⟨by rintro hstate _ _ _ rfl; exact hstate, fun hall ↦ hall _ _ _ rfl⟩
  | pageFaultHandler pageTableId pageNum =>
    cases hlocate : manager.locate pageTableId (isFaulting pageNum) with
    | none =>
      simp [vmStep, vmPageFaultHandler, CountersFollow, hlocate, accounted_countFaults haccounted]
    | some found =>
      simp only [CountersFollow, hlocate, Option.some.injEq]
      rw [vmStep, accounted_vmPageFaultHandler_iff haccounted hbounded hlocate]
      exact ⟨by rintro hstate _ _ _ rfl; exact hstate, fun hall ↦ hall _ _ _ rfl⟩
  | swapPageOut i j =>
    cases hentry : manager.entryAt i j with
    | none => simp [vmStep, vmSwapPageOut, CountersFollow, hentry, haccounted]
    | some entry =>
      simp only [CountersFollow, hentry, Option.some.injEq, forall_eq']
      exact accounted_vmSwapPageOut_iff haccounted hentry
  | swapPageIn i j =>
    cases hentry : manager.entryAt i j with
    | none => simp [vmStep, vmSwapPageIn, CountersFollow, hentry, haccounted]
    | some entry =>
      simp only [CountersFollow, hentry, Option.some.injEq, forall_eq', vmStep]
      by_cases hswapped : entry.state = .swapped
      · exact iff_of_false (not_accounted_vmSwapPageIn haccounted hentry hswapped)
          (not_not.mpr hswapped)
      · rw [vmSwapPageIn, hentry]
        dsimp only
        rw [if_pos hswapped]
        exact iff_of_true haccounted hswapped
  | lockPage pageTableId pageNum =>
    exact accounted_vmChangePage_iff haccounted (counts_restated_iff (.inl rfl))
  | unlockPage pageTableId pageNum =>
    exact accounted_vmChangePage_iff haccounted (counts_restated_iff (.inr rfl))
  | setPagePermissions pageTableId pageNum read write exec =>
    let change : PageTableEntry → PageTableEntry :=
      ({ · with isReadable := read, isWritable := write, isExecutable := exec })
    have hcounts : ∀ entry, (change entry).inRam = entry.inRam ∧
        (change entry).isSwapped = entry.isSwapped ↔ True :=
      fun _ ↦ iff_of_true ⟨rfl, rfl⟩ trivial
    exact iff_of_true
      ((accounted_vmChangePage_iff haccounted hcounts).mpr fun _ _ _ _ ↦ trivial) trivial

/-- Assumes: the counters are right. No decrement of a call goes below zero. -/
theorem noUnderflow_of_accounted {manager : VirtualMemoryManager} (haccounted : Accounted manager)
    (call : VmCall) : NoUnderflow manager call := by
  have hswapped : ∀ i j entry, manager.entryAt i j = some entry → entry.state = .swapped →
      pageSize ≤ manager.memorySwapped := by
    intro i j entry hentry hstate
    obtain ⟨table, htable, hold⟩ := getElem?_of_entryAt hentry
    exact UInt64.le_iff_toNat_le.mpr (swapped_pos haccounted htable hold (by
      simp [PageTableEntry.isSwapped, hstate])).2
  cases call with
  | freeVirtualPage pageTableId pageNum =>
    intro i j entry table hlocate htable
    obtain ⟨found, hfound, hold⟩ := getElem?_of_entryAt (entryAt_of_locate hlocate).1
    obtain rfl := Option.some.inj (htable.symm.trans hfound)
    refine ⟨fun hstate ↦ ?_, fun hstate ↦ ?_⟩
    · obtain ⟨hpages, hbytes⟩ := mapped_pos haccounted htable hold (by
        simp [PageTableEntry.inRam, hstate])
      exact ⟨UInt64.le_iff_toNat_le.mpr hpages, UInt64.le_iff_toNat_le.mpr hbytes⟩
    · obtain ⟨hpages, hbytes⟩ := swapped_pos haccounted htable hold (by
        simp [PageTableEntry.isSwapped, hstate])
      exact ⟨UInt64.le_iff_toNat_le.mpr hpages, UInt64.le_iff_toNat_le.mpr hbytes⟩
  | pageFaultHandler pageTableId pageNum =>
    intro i j entry hlocate hstate
    exact hswapped i j entry (entryAt_of_locate hlocate).1 hstate
  | swapPageIn i j =>
    intro entry hentry hstate
    exact hswapped i j entry hentry hstate
  | _ => trivial

/-- Accounting over every run. Along the calls made on a manager with allocated, zeroed page tables,
the counters of the manager and of every table are right in every state, and no decrement goes below
zero, exactly when every call meets `CountersFollow`. -/
theorem accounted_alongRun_iff (physicalMem swapSpace : UInt64) (nextPageTableId : UInt32)
    (calls : List VmCall) :
    (AlongRun vmStep Accounted (vmManagerStart physicalMem swapSpace nextPageTableId) calls ∧
        EveryStep vmStep NoUnderflow (vmManagerStart physicalMem swapSpace nextPageTableId) calls) ↔
      EveryStep vmStep CountersFollow (vmManagerStart physicalMem swapSpace nextPageTableId)
        calls := by
  have hexact : AlongRun vmStep Accounted (vmManagerStart physicalMem swapSpace nextPageTableId)
      calls ↔ EveryStep vmStep CountersFollow
        (vmManagerStart physicalMem swapSpace nextPageTableId) calls := by
    refine alongRun_iff_everyStep Bounded (fun _ _ ↦ True)
      (fun _ call hbounded _ ↦ bounded_step hbounded call)
      (fun _ call hbounded _ haccounted ↦ accounted_step_iff hbounded haccounted call) ?_ ?_ ?_
    · exact ⟨by simp [vmManagerStart], by simp [vmManagerStart]⟩
    · exact ⟨rfl, rfl, by simp [vmManagerStart]⟩
    · exact fun _ _ _ ↦ trivial
  constructor
  · exact fun hboth ↦ hexact.mp hboth.1
  · intro hfollow
    refine ⟨hexact.mpr hfollow, fun taken call htaken ↦ ?_⟩
    exact noUnderflow_of_accounted
      (hexact.mpr hfollow taken ((List.prefix_append taken [call]).trans htaken)) call

/-- One page goes out: `memory_mapped` still counts it, and its table counts it as resident. -/
theorem swapped_page_counted_as_mapped :
    ¬ (AlongRun vmStep Accounted (vmManagerStart 65536 65536 1)
        [.createPageTable 7 true, .allocateVirtualPage 1 10, .swapPageOut 0 0] ∧
      EveryStep vmStep NoUnderflow (vmManagerStart 65536 65536 1)
        [.createPageTable 7 true, .allocateVirtualPage 1 10, .swapPageOut 0 0]) := by
  rintro ⟨halong, -⟩
  exact absurd (halong _ (List.prefix_refl _)).mapped (by decide)

end OneOS.Memory.PagedMemory
