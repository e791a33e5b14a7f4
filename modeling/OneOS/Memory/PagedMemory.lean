import OneOS.Foundation.Runs
import OneOS.Foundation.Table

/-!
# The virtual memory manager

`memory-management/virtual_memory_manager.c`. The manager holds page tables, one for a process, and
a page table holds entries in the order they were allocated. An entry is never removed: freeing a
page zeroes its entry, which leaves an unmapped entry for page `0`. The tables are scanned by nested
loops, the outer one for the table and the inner one for the entry, and `locate` is the position at
which such a scan stops. The calls that take a pointer to an entry take its position here, which is
a pair of a table index and an entry index (`VirtualMemoryManager.entryAt`); a position with no
entry stands for `NULL`.

`vm_manager_init` allocates the page tables, clears the manager, and with it the pointer to them,
and then writes through that pointer, which ends the program. The runs start from the manager that
it is to set up, whose page tables are allocated and zeroed (`vmManagerStart`). The result of
`malloc` is an input of the call that allocates, the file-static counter is a field, and the
statistics that are floating point numbers or are read by no operation are left out.

Every call writes at most one entry. `vmWrites` is the position and the new content, and
`entryAt_vmStep` says that nothing else changes. `Written` lists what the new content can be, and
the results on swap slots and on physical addresses rest on these two descriptions.
-/

set_option autoImplicit false
set_option relaxedAutoImplicit false

namespace OneOS.Memory.PagedMemory

open Foundation

/-! ### The manager -/

/-- `MAX_PAGE_TABLES`. -/
def maxPageTables : ℕ := 256

/-- `MAX_PAGES`. -/
def maxPages : ℕ := 16384

/-- `PAGE_SIZE`. -/
def pageSize : UInt64 := 4096

/-- `PageState`, in the order of the source: the zero value is `unmapped`. -/
inductive PageState
  | unmapped
  | resident
  | swapped
  | pinned
  | locked
  | dirty
  deriving DecidableEq, Repr

/-- `PageTableEntry`. -/
structure PageTableEntry where
  pageNumber : UInt32
  physicalAddress : UInt64
  state : PageState
  isReadable : UInt8
  isWritable : UInt8
  isExecutable : UInt8
  accessCount : UInt16
  lastAccessTime : UInt64
  swapOffset : UInt64
  deriving DecidableEq, Repr

/-- An entry after `memset` to zero. -/
def PageTableEntry.zeroed : PageTableEntry := ⟨0, 0, .unmapped, 0, 0, 0, 0, 0, 0⟩

/-- `PageTable`, with the used rows `entries[0 .. entry_count)` as a list. -/
structure PageTable where
  pageTableId : UInt32
  processId : UInt32
  entries : List PageTableEntry
  virtualMemoryUsed : UInt64
  residentPages : UInt64
  swappedPages : UInt64
  pageFaults : UInt32
  deriving DecidableEq, Repr

/-- `VirtualMemoryManager`, with the used rows `page_tables[0 .. page_table_count)` as a list and
the file-static `next_page_table_id` as a field. -/
structure VirtualMemoryManager where
  vmManagerId : UInt32
  pageTables : List PageTable
  totalVirtualMemory : UInt64
  totalPhysicalMemory : UInt64
  totalSwapSpace : UInt64
  memoryMapped : UInt64
  memorySwapped : UInt64
  totalPageFaults : UInt64
  nextPageTableId : UInt32
  deriving DecidableEq, Repr

/-- The manager that `vm_manager_init` is to set up, with its page tables allocated and zeroed. The
function itself clears the pointer to them before it writes through it. -/
def vmManagerStart (physicalMem swapSpace : UInt64) (nextPageTableId : UInt32) :
    VirtualMemoryManager where
  vmManagerId := 1
  pageTables := []
  totalVirtualMemory := physicalMem + swapSpace
  totalPhysicalMemory := physicalMem
  totalSwapSpace := swapSpace
  memoryMapped := 0
  memorySwapped := 0
  totalPageFaults := 0
  nextPageTableId := nextPageTableId

/-- The entry at a position: entry `j` of table `i`. -/
def VirtualMemoryManager.entryAt (manager : VirtualMemoryManager) (i j : ℕ) :
    Option PageTableEntry :=
  manager.pageTables[i]?.bind fun table ↦ table.entries[j]?

/-- The test of the loops that look a table up by its identifier. -/
def hasTableId (pageTableId : UInt32) (table : PageTable) : Bool :=
  table.pageTableId == pageTableId

/-- The test of the loops that look an entry up by its page number. -/
def hasPage (pageNum : UInt32) (entry : PageTableEntry) : Bool :=
  entry.pageNumber == pageNum

/-- Where the nested loops over tables and entries stop: the first entry satisfying the test in the
first table with the identifier that has such an entry, with its position. -/
def VirtualMemoryManager.locate (manager : VirtualMemoryManager) (pageTableId : UInt32)
    (test : PageTableEntry → Bool) : Option (ℕ × ℕ × PageTableEntry) :=
  let i := manager.pageTables.findIdx fun table ↦
    hasTableId pageTableId table && table.entries.any test
  manager.pageTables[i]?.bind fun table ↦
    table.entries[table.entries.findIdx test]?.map fun entry ↦
      (i, table.entries.findIdx test, entry)

/-- Write an entry of a table. -/
def PageTable.writeEntry (j : ℕ) (entry : PageTableEntry) (table : PageTable) : PageTable :=
  { table with entries := table.entries.set j entry }

/-- Write the entry at a position. -/
def VirtualMemoryManager.writeEntry (manager : VirtualMemoryManager) (i j : ℕ)
    (entry : PageTableEntry) : VirtualMemoryManager :=
  { manager with pageTables := manager.pageTables.modify i (PageTable.writeEntry j entry) }

/-! ### The operations -/

/-- `vm_create_page_table`, with the success of `malloc`; the returned pointer is the index of the
table. -/
def vmCreatePageTable (manager : VirtualMemoryManager) (processId : UInt32) (allocated : Bool) :
    VirtualMemoryManager × Option ℕ :=
  if maxPageTables ≤ manager.pageTables.length then (manager, none)
  else if allocated = false then (manager, none)
  else
    let table : PageTable := ⟨manager.nextPageTableId, processId, [], 0, 0, 0, 0⟩
    ({ manager with
      pageTables := manager.pageTables ++ [table]
      nextPageTableId := manager.nextPageTableId + 1 }, some manager.pageTables.length)

/-- The entry that `vm_allocate_virtual_page` writes. The product of the page number and the page
size is taken in 32 bits. -/
def allocatedEntry (pageNum : UInt32) : PageTableEntry :=
  { PageTableEntry.zeroed with
    pageNumber := pageNum
    physicalAddress := (pageNum * 4096).toUInt64
    state := .resident
    isReadable := 1
    isWritable := 1 }

/-- The effect of `vm_allocate_virtual_page` on the table found. -/
def PageTable.allocate (pageNum : UInt32) (table : PageTable) : PageTable :=
  { table with
    entries := table.entries ++ [allocatedEntry pageNum]
    virtualMemoryUsed := table.virtualMemoryUsed + pageSize
    residentPages := table.residentPages + 1 }

/-- `vm_allocate_virtual_page`; the returned pointer is the position of the entry. -/
def vmAllocateVirtualPage (manager : VirtualMemoryManager) (pageTableId pageNum : UInt32) :
    VirtualMemoryManager × Option (ℕ × ℕ) :=
  let i := manager.pageTables.findIdx (hasTableId pageTableId)
  match manager.pageTables[i]? with
  | none => (manager, none)
  | some table =>
    if maxPages ≤ table.entries.length then (manager, none)
    else ({ manager with
      pageTables := manager.pageTables.modify i (PageTable.allocate pageNum)
      memoryMapped := manager.memoryMapped + pageSize }, some (i, table.entries.length))

/-- The effect of `vm_free_virtual_page` on the table, for an entry found in a given state: the
counters of resident and of swapped pages follow the state. -/
def PageTable.free (j : ℕ) (state : PageState) (table : PageTable) : PageTable :=
  { table with
    entries := table.entries.set j .zeroed
    virtualMemoryUsed := table.virtualMemoryUsed - pageSize
    residentPages := if state = .resident then table.residentPages - 1 else table.residentPages
    swappedPages := if state = .swapped then table.swappedPages - 1 else table.swappedPages }

/-- `vm_free_virtual_page`. -/
def vmFreeVirtualPage (manager : VirtualMemoryManager) (pageTableId pageNum : UInt32) :
    VirtualMemoryManager × Int :=
  match manager.locate pageTableId (hasPage pageNum) with
  | none => (manager, -1)
  | some (i, j, entry) =>
    ({ manager with
      pageTables := manager.pageTables.modify i (PageTable.free j entry.state)
      memoryMapped := if entry.state = .resident then manager.memoryMapped - pageSize
        else manager.memoryMapped
      memorySwapped := if entry.state = .swapped then manager.memorySwapped - pageSize
        else manager.memorySwapped }, 0)

/-- `vm_swap_page_out`, on the entry at a position. -/
def vmSwapPageOut (manager : VirtualMemoryManager) (i j : ℕ) : VirtualMemoryManager × Int :=
  match manager.entryAt i j with
  | none => (manager, -1)
  | some entry =>
    if entry.state = .locked ∨ entry.state = .pinned then (manager, -1)
    else
      let written := manager.writeEntry i j
        { entry with state := .swapped, swapOffset := manager.memorySwapped }
      ({ written with memorySwapped := manager.memorySwapped + pageSize }, 0)

/-- `vm_swap_page_in`, on the entry at a position. -/
def vmSwapPageIn (manager : VirtualMemoryManager) (i j : ℕ) : VirtualMemoryManager × Int :=
  match manager.entryAt i j with
  | none => (manager, -1)
  | some entry =>
    if entry.state ≠ .swapped then (manager, -1)
    else
      let written := manager.writeEntry i j { entry with state := .resident }
      ({ written with memorySwapped := manager.memorySwapped - pageSize }, 0)

/-- The entries that `vm_page_fault_handler` serves: those for the page that are swapped or
unmapped. The scan goes past entries for the page in another state. -/
def isFaulting (pageNum : UInt32) (entry : PageTableEntry) : Bool :=
  hasPage pageNum entry && (entry.state == .swapped || entry.state == .unmapped)

/-- The fault counters: every table with the identifier that the scan visits, up to the table it
stops in, counts the fault, and so does the manager. -/
def countFaults (manager : VirtualMemoryManager) (pageTableId : UInt32) (last : ℕ) :
    VirtualMemoryManager :=
  { manager with
    pageTables := manager.pageTables.mapIdx fun i table ↦
      if hasTableId pageTableId table ∧ i ≤ last then
        { table with pageFaults := table.pageFaults + 1 } else table
    totalPageFaults := manager.totalPageFaults +
      UInt64.ofNat ((manager.pageTables.take (last + 1)).countP (hasTableId pageTableId)) }

/-- The effect of `vm_page_fault_handler` on the table, for an unmapped entry. -/
def PageTable.revive (j : ℕ) (entry : PageTableEntry) (table : PageTable) : PageTable :=
  { table with
    entries := table.entries.set j { entry with state := .resident }
    residentPages := table.residentPages + 1 }

/-- `vm_page_fault_handler`. -/
def vmPageFaultHandler (manager : VirtualMemoryManager) (pageTableId pageNum : UInt32) :
    VirtualMemoryManager × Int :=
  match manager.locate pageTableId (isFaulting pageNum) with
  | none => (countFaults manager pageTableId manager.pageTables.length, -1)
  | some (i, j, entry) =>
    let counted := countFaults manager pageTableId i
    if entry.state = .swapped then vmSwapPageIn counted i j
    else ({ counted with
      pageTables := counted.pageTables.modify i (PageTable.revive j entry)
      memoryMapped := counted.memoryMapped + pageSize }, 0)

/-- The body shared by `vm_lock_page`, `vm_unlock_page` and `vm_set_page_permissions`: change the
entry found for the page. -/
def vmChangePage (manager : VirtualMemoryManager) (pageTableId pageNum : UInt32)
    (change : PageTableEntry → PageTableEntry) : VirtualMemoryManager × Int :=
  match manager.locate pageTableId (hasPage pageNum) with
  | none => (manager, -1)
  | some (i, j, entry) => (manager.writeEntry i j (change entry), 0)

/-- `vm_lock_page`. -/
def vmLockPage (manager : VirtualMemoryManager) (pageTableId pageNum : UInt32) :
    VirtualMemoryManager × Int :=
  vmChangePage manager pageTableId pageNum ({ · with state := .locked })

/-- `vm_unlock_page`. -/
def vmUnlockPage (manager : VirtualMemoryManager) (pageTableId pageNum : UInt32) :
    VirtualMemoryManager × Int :=
  vmChangePage manager pageTableId pageNum ({ · with state := .resident })

/-- `vm_set_page_permissions`. -/
def vmSetPagePermissions (manager : VirtualMemoryManager) (pageTableId pageNum : UInt32)
    (read write exec : UInt8) : VirtualMemoryManager × Int :=
  vmChangePage manager pageTableId pageNum
    ({ · with isReadable := read, isWritable := write, isExecutable := exec })

/-! ### Runs -/

/-- A call on the manager. -/
inductive VmCall
  | createPageTable (processId : UInt32) (allocated : Bool)
  | allocateVirtualPage (pageTableId pageNum : UInt32)
  | freeVirtualPage (pageTableId pageNum : UInt32)
  | pageFaultHandler (pageTableId pageNum : UInt32)
  | swapPageOut (i j : ℕ)
  | swapPageIn (i j : ℕ)
  | lockPage (pageTableId pageNum : UInt32)
  | unlockPage (pageTableId pageNum : UInt32)
  | setPagePermissions (pageTableId pageNum : UInt32) (read write exec : UInt8)

/-- The manager after a call. -/
def vmStep (manager : VirtualMemoryManager) : VmCall → VirtualMemoryManager
  | .createPageTable processId allocated => (vmCreatePageTable manager processId allocated).1
  | .allocateVirtualPage pageTableId pageNum =>
    (vmAllocateVirtualPage manager pageTableId pageNum).1
  | .freeVirtualPage pageTableId pageNum => (vmFreeVirtualPage manager pageTableId pageNum).1
  | .pageFaultHandler pageTableId pageNum => (vmPageFaultHandler manager pageTableId pageNum).1
  | .swapPageOut i j => (vmSwapPageOut manager i j).1
  | .swapPageIn i j => (vmSwapPageIn manager i j).1
  | .lockPage pageTableId pageNum => (vmLockPage manager pageTableId pageNum).1
  | .unlockPage pageTableId pageNum => (vmUnlockPage manager pageTableId pageNum).1
  | .setPagePermissions pageTableId pageNum read write exec =>
    (vmSetPagePermissions manager pageTableId pageNum read write exec).1

/-! ### The one entry a call writes -/

/-- The entry that a call writes, with its position, or `none` when it writes no entry. -/
def vmWrites (manager : VirtualMemoryManager) : VmCall → Option (ℕ × ℕ × PageTableEntry)
  | .createPageTable _ _ => none
  | .allocateVirtualPage pageTableId pageNum =>
    let i := manager.pageTables.findIdx (hasTableId pageTableId)
    manager.pageTables[i]?.bind fun table ↦
      if maxPages ≤ table.entries.length then none
      else some (i, table.entries.length, allocatedEntry pageNum)
  | .freeVirtualPage pageTableId pageNum =>
    (manager.locate pageTableId (hasPage pageNum)).map fun (i, j, _) ↦ (i, j, .zeroed)
  | .pageFaultHandler pageTableId pageNum =>
    (manager.locate pageTableId (isFaulting pageNum)).map fun (i, j, entry) ↦
      (i, j, { entry with state := .resident })
  | .swapPageOut i j => (manager.entryAt i j).bind fun entry ↦
      if entry.state = .locked ∨ entry.state = .pinned then none
      else some (i, j, { entry with state := .swapped, swapOffset := manager.memorySwapped })
  | .swapPageIn i j => (manager.entryAt i j).bind fun entry ↦
      if entry.state ≠ .swapped then none else some (i, j, { entry with state := .resident })
  | .lockPage pageTableId pageNum =>
    (manager.locate pageTableId (hasPage pageNum)).map fun (i, j, entry) ↦
      (i, j, { entry with state := .locked })
  | .unlockPage pageTableId pageNum =>
    (manager.locate pageTableId (hasPage pageNum)).map fun (i, j, entry) ↦
      (i, j, { entry with state := .resident })
  | .setPagePermissions pageTableId pageNum read write exec =>
    (manager.locate pageTableId (hasPage pageNum)).map fun (i, j, entry) ↦
      (i, j, { entry with isReadable := read, isWritable := write, isExecutable := exec })

/-- A scan stops at an entry of the manager that satisfies its test, in a table with the
identifier. -/
theorem entryAt_of_locate {manager : VirtualMemoryManager} {pageTableId : UInt32}
    {test : PageTableEntry → Bool} {i j : ℕ} {entry : PageTableEntry}
    (hlocate : manager.locate pageTableId test = some (i, j, entry)) :
    manager.entryAt i j = some entry ∧ test entry = true := by
  simp only [VirtualMemoryManager.locate, Option.bind_eq_some_iff, Option.map_eq_some_iff,
    Prod.mk.injEq] at hlocate
  obtain ⟨table, htable, found, hfound, rfl, rfl, rfl⟩ := hlocate
  refine ⟨?_, List.findIdx_of_getElem?_eq_some hfound⟩
  rw [VirtualMemoryManager.entryAt, htable, Option.bind_some, hfound]

/-- Assumes: `next` has the tables of `manager` with table `i` changed. Its entries are the old ones
in the other tables. -/
theorem entryAt_of_modify {manager next : VirtualMemoryManager} {i : ℕ}
    {change : PageTable → PageTable}
    (htables : next.pageTables = manager.pageTables.modify i change) (k l : ℕ) :
    next.entryAt k l =
      if i = k then manager.pageTables[k]?.bind fun table ↦ (change table).entries[l]?
      else manager.entryAt k l := by
  rw [VirtualMemoryManager.entryAt, htables, List.getElem?_modify]
  split_ifs with hik
  · cases manager.pageTables[k]? <;> simp
  · simp [VirtualMemoryManager.entryAt]

/-- Assumes: `next` has the tables of `manager` with entry `j` of table `i` written, where there was
an entry. Its entries are the old ones with that entry written. -/
theorem entryAt_of_modify_set {manager next : VirtualMemoryManager} {i j : ℕ}
    {old entry : PageTableEntry} {change : PageTable → PageTable}
    (htables : next.pageTables = manager.pageTables.modify i change)
    (hold : manager.entryAt i j = some old)
    (hchange : ∀ table, (change table).entries = table.entries.set j entry) (k l : ℕ) :
    next.entryAt k l = if i = k ∧ j = l then some entry else manager.entryAt k l := by
  rw [entryAt_of_modify htables]
  rw [VirtualMemoryManager.entryAt, Option.bind_eq_some_iff] at hold
  obtain ⟨table, htable, hold⟩ := hold
  by_cases hik : i = k
  · subst hik
    obtain ⟨hlt, -⟩ := List.getElem?_eq_some_iff.mp hold
    rw [if_pos rfl, VirtualMemoryManager.entryAt, htable, Option.bind_some, Option.bind_some,
      hchange, List.getElem?_set]
    by_cases hjl : j = l
    · subst hjl
      simp [hlt]
    · simp [hjl]
  · simp [hik]

/-- Counting a fault changes no entry. -/
theorem entryAt_countFaults (manager : VirtualMemoryManager) (pageTableId : UInt32)
    (last i j : ℕ) : (countFaults manager pageTableId last).entryAt i j = manager.entryAt i j := by
  simp only [countFaults, VirtualMemoryManager.entryAt, List.getElem?_mapIdx]
  cases manager.pageTables[i]? with
  | none => rfl
  | some table =>
    simp only [Option.map_some, Option.bind_some]
    split_ifs <;> rfl

/-- The calls that change the entry found for a page write that entry. -/
theorem entryAt_vmChangePage (manager : VirtualMemoryManager) (pageTableId pageNum : UInt32)
    (change : PageTableEntry → PageTableEntry) (k l : ℕ) :
    (vmChangePage manager pageTableId pageNum change).1.entryAt k l =
      match (manager.locate pageTableId (hasPage pageNum)).map fun (i, j, entry) ↦
        (i, j, change entry) with
      | none => manager.entryAt k l
      | some (i, j, entry) => if i = k ∧ j = l then some entry else manager.entryAt k l := by
  rw [vmChangePage]
  cases hlocate : manager.locate pageTableId (hasPage pageNum) with
  | none => rfl
  | some found => exact entryAt_of_modify_set rfl (entryAt_of_locate hlocate).1 (fun _ ↦ rfl) k l

/-- A new page is written behind the entries of its table. -/
theorem entryAt_vmAllocateVirtualPage (manager : VirtualMemoryManager)
    (pageTableId pageNum : UInt32) (k l : ℕ) :
    (vmAllocateVirtualPage manager pageTableId pageNum).1.entryAt k l =
      match vmWrites manager (.allocateVirtualPage pageTableId pageNum) with
      | none => manager.entryAt k l
      | some (i, j, entry) => if i = k ∧ j = l then some entry else manager.entryAt k l := by
  simp only [vmAllocateVirtualPage, vmWrites]
  generalize manager.pageTables.findIdx (hasTableId pageTableId) = i
  cases htable : manager.pageTables[i]? with
  | none => rfl
  | some table =>
    simp only [Option.bind_some]
    split_ifs with hfull
    · rfl
    · dsimp only
      rw [entryAt_of_modify rfl]
      by_cases hik : i = k
      · subst hik
        simp only [VirtualMemoryManager.entryAt, htable, Option.bind_some, PageTable.allocate,
          if_true, true_and]
        by_cases hl : table.entries.length = l
        · simp [← hl]
        · rw [if_neg hl, List.getElem?_append]
          split_ifs with hlt
          · rfl
          · rw [List.getElem?_eq_none (by simp; omega), List.getElem?_eq_none (by omega)]
      · simp [hik]

/-- A served fault writes the entry found, resident. -/
theorem entryAt_vmPageFaultHandler (manager : VirtualMemoryManager)
    (pageTableId pageNum : UInt32) (k l : ℕ) :
    (vmPageFaultHandler manager pageTableId pageNum).1.entryAt k l =
      match vmWrites manager (.pageFaultHandler pageTableId pageNum) with
      | none => manager.entryAt k l
      | some (i, j, entry) => if i = k ∧ j = l then some entry else manager.entryAt k l := by
  simp only [vmPageFaultHandler, vmWrites]
  cases hlocate : manager.locate pageTableId (isFaulting pageNum) with
  | none => exact entryAt_countFaults manager pageTableId _ k l
  | some found =>
    obtain ⟨i, j, entry⟩ := found
    have hentry : (countFaults manager pageTableId i).entryAt i j = some entry := by
      rw [entryAt_countFaults]
      exact (entryAt_of_locate hlocate).1
    dsimp only [Option.map_some]
    rw [← entryAt_countFaults manager pageTableId i k l]
    by_cases hswapped : entry.state = .swapped
    · rw [if_pos hswapped, vmSwapPageIn, hentry]
      dsimp only
      rw [if_neg (not_not.mpr hswapped)]
      exact entryAt_of_modify_set rfl hentry (fun _ ↦ rfl) k l
    · rw [if_neg hswapped]
      exact entryAt_of_modify_set rfl hentry (fun _ ↦ rfl) k l

/-- Every call writes at most the one entry of `vmWrites`. -/
theorem entryAt_vmStep (manager : VirtualMemoryManager) (call : VmCall) (k l : ℕ) :
    (vmStep manager call).entryAt k l =
      match vmWrites manager call with
      | none => manager.entryAt k l
      | some (i, j, entry) => if i = k ∧ j = l then some entry else manager.entryAt k l := by
  cases call with
  | createPageTable processId allocated =>
    simp only [vmStep, vmCreatePageTable, vmWrites]
    split_ifs
    · rfl
    · rfl
    · -- the new table has no entries, so a position in it has none either
      simp only [VirtualMemoryManager.entryAt, List.getElem?_append]
      split_ifs with hk
      · rfl
      · rw [List.getElem?_eq_none (le_of_not_gt hk)]
        cases k - manager.pageTables.length <;> simp
  | allocateVirtualPage pageTableId pageNum =>
    exact entryAt_vmAllocateVirtualPage manager pageTableId pageNum k l
  | freeVirtualPage pageTableId pageNum =>
    simp only [vmStep, vmFreeVirtualPage, vmWrites]
    cases hlocate : manager.locate pageTableId (hasPage pageNum) with
    | none => rfl
    | some found =>
      exact entryAt_of_modify_set rfl (entryAt_of_locate hlocate).1 (fun _ ↦ rfl) k l
  | pageFaultHandler pageTableId pageNum =>
    exact entryAt_vmPageFaultHandler manager pageTableId pageNum k l
  | swapPageOut i j =>
    simp only [vmStep, vmSwapPageOut, vmWrites]
    cases hentry : manager.entryAt i j with
    | none => rfl
    | some entry =>
      dsimp only [Option.bind_some]
      split_ifs with hkept
      · rfl
      · exact entryAt_of_modify_set rfl hentry (fun _ ↦ rfl) k l
  | swapPageIn i j =>
    simp only [vmStep, vmSwapPageIn, vmWrites]
    cases hentry : manager.entryAt i j with
    | none => rfl
    | some entry =>
      dsimp only [Option.bind_some]
      split_ifs with hkept
      · rfl
      · exact entryAt_of_modify_set rfl hentry (fun _ ↦ rfl) k l
  | lockPage pageTableId pageNum =>
    simp only [vmStep, vmLockPage, vmWrites]
    exact entryAt_vmChangePage manager pageTableId pageNum _ k l
  | unlockPage pageTableId pageNum =>
    simp only [vmStep, vmUnlockPage, vmWrites]
    exact entryAt_vmChangePage manager pageTableId pageNum _ k l
  | setPagePermissions pageTableId pageNum read write exec =>
    simp only [vmStep, vmSetPagePermissions, vmWrites]
    exact entryAt_vmChangePage manager pageTableId pageNum _ k l

/-- What a call can write at a position: a newly allocated page, a zeroed entry, the old entry in a
state other than swapped, the old entry swapped out at the offset `memory_swapped`, or the old entry
with other permissions. -/
inductive Written (manager : VirtualMemoryManager) (i j : ℕ) : VmCall → PageTableEntry → Prop
  | allocated (pageTableId pageNum : UInt32) :
    Written manager i j (.allocateVirtualPage pageTableId pageNum) (allocatedEntry pageNum)
  | freed (pageTableId pageNum : UInt32) :
    Written manager i j (.freeVirtualPage pageTableId pageNum) .zeroed
  | restated {call : VmCall} {old : PageTableEntry} {state : PageState}
    (hold : manager.entryAt i j = some old) (hstate : state ≠ .swapped) :
    Written manager i j call { old with state := state }
  | swappedOut {old : PageTableEntry} (hold : manager.entryAt i j = some old)
    (hout : ¬ (old.state = .locked ∨ old.state = .pinned)) :
    Written manager i j (.swapPageOut i j)
      { old with state := .swapped, swapOffset := manager.memorySwapped }
  | permitted {call : VmCall} {old : PageTableEntry} {read write exec : UInt8}
    (hold : manager.entryAt i j = some old) :
    Written manager i j call
      { old with isReadable := read, isWritable := write, isExecutable := exec }

/-- Every entry that a call writes is one of the kinds of `Written`. -/
theorem written_of_vmWrites {manager : VirtualMemoryManager} {call : VmCall} {i j : ℕ}
    {entry : PageTableEntry} (hwrites : vmWrites manager call = some (i, j, entry)) :
    Written manager i j call entry := by
  cases call with
  | createPageTable processId allocated => simp [vmWrites] at hwrites
  | allocateVirtualPage pageTableId pageNum =>
    simp only [vmWrites, Option.bind_eq_some_iff] at hwrites
    obtain ⟨table, -, hwritten⟩ := hwrites
    split_ifs at hwritten
    obtain ⟨-, -, rfl⟩ : _ ∧ _ ∧ allocatedEntry pageNum = entry := by simpa using hwritten
    exact .allocated pageTableId pageNum
  | freeVirtualPage pageTableId pageNum =>
    simp only [vmWrites, Option.map_eq_some_iff, Prod.exists, Prod.mk.injEq] at hwrites
    obtain ⟨_, _, old, -, rfl, rfl, rfl⟩ := hwrites
    exact .freed pageTableId pageNum
  | pageFaultHandler pageTableId pageNum =>
    simp only [vmWrites, Option.map_eq_some_iff, Prod.exists, Prod.mk.injEq] at hwrites
    obtain ⟨_, _, old, hlocate, rfl, rfl, rfl⟩ := hwrites
    exact .restated (entryAt_of_locate hlocate).1 (by decide)
  | swapPageOut a b =>
    simp only [vmWrites, Option.bind_eq_some_iff] at hwrites
    obtain ⟨old, hold, hwritten⟩ := hwrites
    split_ifs at hwritten with hout
    obtain ⟨rfl, rfl, rfl⟩ : a = i ∧ b = j ∧ _ = entry := by simpa using hwritten
    exact .swappedOut hold hout
  | swapPageIn a b =>
    simp only [vmWrites, Option.bind_eq_some_iff] at hwrites
    obtain ⟨old, hold, hwritten⟩ := hwrites
    split_ifs at hwritten with hin
    obtain ⟨rfl, rfl, rfl⟩ : a = i ∧ b = j ∧ _ = entry := by simpa using hwritten
    exact .restated hold (by decide)
  | lockPage pageTableId pageNum =>
    simp only [vmWrites, Option.map_eq_some_iff, Prod.exists, Prod.mk.injEq] at hwrites
    obtain ⟨_, _, old, hlocate, rfl, rfl, rfl⟩ := hwrites
    exact .restated (entryAt_of_locate hlocate).1 (by decide)
  | unlockPage pageTableId pageNum =>
    simp only [vmWrites, Option.map_eq_some_iff, Prod.exists, Prod.mk.injEq] at hwrites
    obtain ⟨_, _, old, hlocate, rfl, rfl, rfl⟩ := hwrites
    exact .restated (entryAt_of_locate hlocate).1 (by decide)
  | setPagePermissions pageTableId pageNum read write exec =>
    simp only [vmWrites, Option.map_eq_some_iff, Prod.exists, Prod.mk.injEq] at hwrites
    obtain ⟨_, _, old, hlocate, rfl, rfl, rfl⟩ := hwrites
    exact .permitted (entryAt_of_locate hlocate).1

end OneOS.Memory.PagedMemory
