import Mathlib.Algebra.BigOperators.Group.Multiset.Basic
import Mathlib.Algebra.Order.Group.Multiset
import OneOS.Foundation.Runs
import OneOS.Foundation.Table

/-!
# The memory manager

`mm/memory_manager.c`. A manager hands out blocks from `malloc` and keeps one row for every block it
ever handed out, with the address and the size of the block and whether it is in use; a row is never
reused. Two counters of 64 bits say how much was allocated and how much was freed, and
`memory_get_usage` is their difference. Addresses are natural numbers with `0` for `NULL`, and the
results of `malloc` and `realloc` are inputs of the calls that ask for them. The checks of the
manager pointer against `NULL` are not modelled.

What a caller holds is recorded beside a run as the multiset of the live blocks, each an address and
a size, built from what the calls return and never from the table (`heapAfter`). The rows in use are
these blocks in every state (`RowsAreLive`), so that the usage is the size of the live blocks as
long as it fits in 64 bits, and a call on an address that is not live leaves the manager as it is
(`memoryGetUsage_exact`).
-/

set_option autoImplicit false
set_option relaxedAutoImplicit false

namespace OneOS.Memory.BlockManager

open Foundation

/-! ### The manager -/

/-- `MemoryBlock`. -/
structure MemoryBlock where
  ptr : ℕ
  size : UInt64
  inUse : Bool
  deriving DecidableEq, Repr

/-- `MemoryManager`, with the used rows `blocks[0 .. block_count)` as a list. -/
structure MemoryManager where
  blocks : List MemoryBlock
  maxBlocks : UInt32
  totalAllocated : UInt64
  totalFreed : UInt64
  deriving DecidableEq, Repr

/-- `memory_manager_init`. -/
def memoryManagerInit (maxBlocks : UInt32) : MemoryManager where
  blocks := []
  maxBlocks := maxBlocks
  totalAllocated := 0
  totalFreed := 0

/-- `memory_allocate`, with the result of `malloc`. -/
def memoryAllocate (mm : MemoryManager) (size : UInt64) (allocated : ℕ) : MemoryManager × ℕ :=
  if size = 0 ∨ mm.maxBlocks.toNat ≤ mm.blocks.length then (mm, 0)
  else if allocated = 0 then (mm, 0)
  else
    ({ mm with
      blocks := mm.blocks ++ [⟨allocated, size, true⟩]
      totalAllocated := mm.totalAllocated + size }, allocated)

/-- The test of the loops that look a block up by its address. -/
def MemoryBlock.isInUseAt (ptr : ℕ) (block : MemoryBlock) : Bool :=
  block.ptr == ptr && block.inUse

/-- `memory_free`. -/
def memoryFree (mm : MemoryManager) (ptr : ℕ) : MemoryManager :=
  if ptr = 0 then mm
  else
    match mm.blocks.find? (MemoryBlock.isInUseAt ptr) with
    | none => mm
    | some block =>
      { mm with
        totalFreed := mm.totalFreed + block.size
        blocks := updateFirst (MemoryBlock.isInUseAt ptr) ({ · with inUse := false }) mm.blocks }

/-- `memory_reallocate`, with the result of `realloc`. The difference of the sizes is added modulo
`2 ^ 64` when the block shrinks. -/
def memoryReallocate (mm : MemoryManager) (ptr : ℕ) (newSize : UInt64) (reallocated : ℕ) :
    MemoryManager × ℕ :=
  if newSize = 0 then (mm, 0)
  else
    match mm.blocks.find? (MemoryBlock.isInUseAt ptr) with
    | none => (mm, 0)
    | some block =>
      if reallocated = 0 then (mm, 0)
      else
        ({ mm with
          totalAllocated := mm.totalAllocated + (newSize - block.size)
          blocks := updateFirst (MemoryBlock.isInUseAt ptr)
            ({ · with ptr := reallocated, size := newSize }) mm.blocks }, reallocated)

/-- `memory_get_usage`. -/
def memoryGetUsage (mm : MemoryManager) : UInt64 :=
  mm.totalAllocated - mm.totalFreed

/-! ### Runs -/

/-- A call on the manager, with the result of `malloc` or `realloc` where the call asks for it. -/
inductive MemoryCall
  | allocate (size : UInt64) (allocated : ℕ)
  | free (ptr : ℕ)
  | reallocate (ptr : ℕ) (newSize : UInt64) (reallocated : ℕ)

/-- The manager after a call. -/
def memoryStep (mm : MemoryManager) : MemoryCall → MemoryManager
  | .allocate size allocated => (memoryAllocate mm size allocated).1
  | .free ptr => memoryFree mm ptr
  | .reallocate ptr newSize reallocated => (memoryReallocate mm ptr newSize reallocated).1

/-- The live blocks of a caller, each with its address and its size. -/
abbrev Heap := Multiset (ℕ × ℕ)

/-- A block at the address is live. -/
def Heap.Holds (heap : Heap) (ptr : ℕ) : Prop :=
  ∃ size, (ptr, size) ∈ heap

/-- The live blocks without those at an address. -/
def Heap.without (heap : Heap) (ptr : ℕ) : Heap :=
  heap.filter fun block ↦ block.1 ≠ ptr

/-- The size of the live blocks. -/
def Heap.bytes (heap : Heap) : ℕ :=
  (heap.map Prod.snd).sum

/-- The live blocks after a call, from those before it and from what the call returns. -/
def heapAfter (mm : MemoryManager) : MemoryCall → Heap → Heap
  | .allocate size allocated, heap =>
    let ptr := (memoryAllocate mm size allocated).2
    if ptr = 0 then heap else (ptr, size.toNat) ::ₘ heap
  | .free ptr, heap => heap.without ptr
  | .reallocate ptr newSize reallocated, heap =>
    let newPtr := (memoryReallocate mm ptr newSize reallocated).2
    if newPtr = 0 then heap else (newPtr, newSize.toNat) ::ₘ heap.without ptr

/-- What `malloc` and `realloc` promise: the result is `NULL`, or the address of no live block other
than the one that is resized. -/
def ResultFresh (traced : MemoryManager × Heap) : MemoryCall → Prop
  | .allocate _ allocated => allocated = 0 ∨ ¬ traced.2.Holds allocated
  | .free _ => True
  | .reallocate ptr _ reallocated =>
    reallocated = 0 ∨ reallocated = ptr ∨ ¬ traced.2.Holds reallocated

/-- A call on an address that is not live leaves the manager as it is. -/
def StaleUnchanged (traced : MemoryManager × Heap) : MemoryCall → Prop
  | .allocate _ _ => True
  | .free ptr => ¬ traced.2.Holds ptr → memoryFree traced.1 ptr = traced.1
  | .reallocate ptr newSize reallocated =>
    ¬ traced.2.Holds ptr → memoryReallocate traced.1 ptr newSize reallocated = (traced.1, 0)

/-! ### The rows in use -/

/-- The blocks that the rows in use describe. -/
def rowsInUse (blocks : List MemoryBlock) : Heap :=
  ((blocks.filter MemoryBlock.inUse).map fun block ↦ (block.ptr, block.size.toNat) : List _)

@[simp] theorem rowsInUse_nil : rowsInUse [] = 0 := rfl

theorem rowsInUse_append (first second : List MemoryBlock) :
    rowsInUse (first ++ second) = rowsInUse first + rowsInUse second := by
  rw [rowsInUse, List.filter_append, List.map_append, ← Multiset.coe_add]
  rfl

theorem rowsInUse_cons_of_pos {block : MemoryBlock} (blocks : List MemoryBlock)
    (huse : block.inUse = true) :
    rowsInUse (block :: blocks) = (block.ptr, block.size.toNat) ::ₘ rowsInUse blocks := by
  rw [rowsInUse, List.filter_cons_of_pos huse, List.map_cons, ← Multiset.cons_coe]
  rfl

theorem rowsInUse_cons_of_neg {block : MemoryBlock} (blocks : List MemoryBlock)
    (huse : block.inUse = false) : rowsInUse (block :: blocks) = rowsInUse blocks := by
  rw [rowsInUse, List.filter_cons_of_neg (Bool.eq_false_iff.mp huse)]
  rfl

/-- The scan for an address finds no row exactly when no row in use describes a block there. -/
theorem find?_isInUseAt_eq_none_iff {blocks : List MemoryBlock} {ptr : ℕ} :
    blocks.find? (MemoryBlock.isInUseAt ptr) = none ↔ ¬ (rowsInUse blocks).Holds ptr := by
  rw [List.find?_eq_none]
  constructor
  · rintro hnone ⟨size, hheld⟩
    obtain ⟨block, hblock, hpair⟩ := List.mem_map.mp (Multiset.mem_coe.mp hheld)
    obtain ⟨hmem, huse⟩ := List.mem_filter.mp hblock
    refine hnone block hmem ?_
    rw [MemoryBlock.isInUseAt, Bool.and_eq_true, beq_iff_eq]
    exact ⟨congrArg Prod.fst hpair, huse⟩
  · intro hstale block hmem hfound
    rw [MemoryBlock.isInUseAt, Bool.and_eq_true, beq_iff_eq] at hfound
    refine hstale ⟨block.size.toNat, Multiset.mem_coe.mpr (List.mem_map.mpr ⟨block, ?_, ?_⟩)⟩
    · exact List.mem_filter.mpr ⟨hmem, hfound.2⟩
    · rw [hfound.1]

/-- The row that the scan for an address finds, taken out of the rows in use. -/
theorem rowsInUse_updateFirst {blocks : List MemoryBlock} {ptr : ℕ} {block : MemoryBlock}
    (hfind : blocks.find? (MemoryBlock.isInUseAt ptr) = some block) :
    ∃ rest : Heap, rowsInUse blocks = (ptr, block.size.toNat) ::ₘ rest ∧
      rowsInUse (updateFirst (MemoryBlock.isInUseAt ptr) ({ · with inUse := false }) blocks) =
        rest ∧
      ∀ (newPtr : ℕ) (newSize : UInt64),
        rowsInUse (updateFirst (MemoryBlock.isInUseAt ptr)
          ({ · with ptr := newPtr, size := newSize }) blocks) =
            (newPtr, newSize.toNat) ::ₘ rest := by
  obtain ⟨before, after, rfl, hfound, -, hupdate⟩ := updateFirst_split hfind
  rw [MemoryBlock.isInUseAt, Bool.and_eq_true, beq_iff_eq] at hfound
  obtain ⟨rfl, huse⟩ := hfound
  refine ⟨rowsInUse before + rowsInUse after, ?_, ?_, fun newPtr newSize ↦ ?_⟩
  · rw [rowsInUse_append, rowsInUse_cons_of_pos after huse, Multiset.add_cons]
  · rw [hupdate, rowsInUse_append, rowsInUse_cons_of_neg after rfl]
  · have hchanged : ({ block with ptr := newPtr, size := newSize } : MemoryBlock).inUse = true :=
      huse
    rw [hupdate, rowsInUse_append, rowsInUse_cons_of_pos after hchanged, Multiset.add_cons]

/-! ### The rows in use are the live blocks -/

theorem Heap.holds_iff_mem {heap : Heap} {ptr : ℕ} : heap.Holds ptr ↔ ptr ∈ heap.map Prod.fst := by
  rw [Multiset.mem_map]
  constructor
  · rintro ⟨size, hheld⟩
    exact ⟨(ptr, size), hheld, rfl⟩
  · rintro ⟨⟨other, size⟩, hheld, rfl⟩
    exact ⟨size, hheld⟩

@[simp] theorem Heap.bytes_cons (block : ℕ × ℕ) (heap : Heap) :
    Heap.bytes (block ::ₘ heap) = block.2 + heap.bytes := by
  rw [Heap.bytes, Multiset.map_cons, Multiset.sum_cons, Heap.bytes]

/-- Removing what is at an address that no other block has removes one block. -/
theorem Heap.without_cons {ptr size : ℕ} {heap : Heap} (hnone : ¬ heap.Holds ptr) :
    Heap.without ((ptr, size) ::ₘ heap) ptr = heap := by
  rw [Heap.without, Multiset.filter_cons_of_neg heap (by simp), Multiset.filter_eq_self]
  rintro ⟨other, otherSize⟩ hother rfl
  exact hnone ⟨otherSize, hother⟩

theorem Heap.without_of_not_holds {ptr : ℕ} {heap : Heap} (hnone : ¬ heap.Holds ptr) :
    heap.without ptr = heap := by
  rw [Heap.without, Multiset.filter_eq_self]
  rintro ⟨other, otherSize⟩ hother rfl
  exact hnone ⟨otherSize, hother⟩

/-- The rows in use are the live blocks, at different addresses other than `NULL`, and the two
counters differ by their size, modulo `2 ^ 64`. -/
structure RowsAreLive (mm : MemoryManager) (heap : Heap) : Prop where
  rows : rowsInUse mm.blocks = heap
  distinct : (heap.map Prod.fst).Nodup
  nonnull : ¬ heap.Holds 0
  usage : memoryGetUsage mm = UInt64.ofNat heap.bytes

/-- `memory_allocate` changes nothing and returns `NULL`, or adds a row for the new block. -/
theorem memoryAllocate_cases (mm : MemoryManager) (size : UInt64) (allocated : ℕ) :
    memoryAllocate mm size allocated = (mm, 0) ∨
      (allocated ≠ 0 ∧ memoryAllocate mm size allocated =
        ({ mm with
          blocks := mm.blocks ++ [⟨allocated, size, true⟩]
          totalAllocated := mm.totalAllocated + size }, allocated)) := by
  rw [memoryAllocate]
  split_ifs with hrefused hnull
  · exact Or.inl rfl
  · exact Or.inl rfl
  · exact Or.inr ⟨hnull, rfl⟩

/-- `memory_reallocate` changes nothing and returns `NULL`, or changes the row of the block. -/
theorem memoryReallocate_cases (mm : MemoryManager) (ptr : ℕ) (newSize : UInt64)
    (reallocated : ℕ) :
    memoryReallocate mm ptr newSize reallocated = (mm, 0) ∨
      ∃ block, mm.blocks.find? (MemoryBlock.isInUseAt ptr) = some block ∧ reallocated ≠ 0 ∧
        memoryReallocate mm ptr newSize reallocated =
          ({ mm with
            totalAllocated := mm.totalAllocated + (newSize - block.size)
            blocks := updateFirst (MemoryBlock.isInUseAt ptr)
              ({ · with ptr := reallocated, size := newSize }) mm.blocks }, reallocated) := by
  rw [memoryReallocate]
  by_cases hzero : newSize = 0
  · exact Or.inl (if_pos hzero)
  · rw [if_neg hzero]
    cases hfind : mm.blocks.find? (MemoryBlock.isInUseAt ptr) with
    | none => exact Or.inl rfl
    | some block =>
      by_cases hnull : reallocated = 0
      · exact Or.inl (if_pos hnull)
      · exact Or.inr ⟨block, rfl, hnull, if_neg hnull⟩

theorem rowsAreLive_allocate {mm : MemoryManager} {heap : Heap} (hlive : RowsAreLive mm heap)
    {size : UInt64} {allocated : ℕ} (hfresh : ResultFresh (mm, heap) (.allocate size allocated)) :
    RowsAreLive (memoryAllocate mm size allocated).1
      (heapAfter mm (.allocate size allocated) heap) := by
  rw [heapAfter]
  rcases memoryAllocate_cases mm size allocated with hrefused | ⟨hnull, hserved⟩
  · rw [hrefused]
    exact hlive
  · have hnew := hfresh.resolve_left hnull
    rw [hserved]
    simp only [if_neg hnull]
    constructor
    · rw [rowsInUse_append, rowsInUse_cons_of_pos [] rfl, hlive.rows, rowsInUse_nil,
        Multiset.add_cons, add_zero]
    · rw [Multiset.map_cons, Multiset.nodup_cons]
      exact ⟨fun hmem ↦ hnew (Heap.holds_iff_mem.mpr hmem), hlive.distinct⟩
    · rintro ⟨other, hheld⟩
      rcases Multiset.mem_cons.mp hheld with hpair | hold
      · exact hnull (congrArg Prod.fst hpair).symm
      · exact hlive.nonnull ⟨other, hold⟩
    · have husage := hlive.usage
      rw [memoryGetUsage] at husage ⊢
      rw [Heap.bytes_cons, UInt64.ofNat_add, ← husage, UInt64.ofNat_toNat]
      grind

/-- A live heap with a block taken out: the block was the only one at its address. -/
theorem RowsAreLive.of_cons {mm : MemoryManager} {ptr size : ℕ} {rest : Heap}
    (hlive : RowsAreLive mm ((ptr, size) ::ₘ rest)) :
    ¬ rest.Holds ptr ∧ (rest.map Prod.fst).Nodup ∧ ¬ rest.Holds 0 ∧ ptr ≠ 0 := by
  have hdistinct := hlive.distinct
  rw [Multiset.map_cons, Multiset.nodup_cons, ← Heap.holds_iff_mem] at hdistinct
  refine ⟨hdistinct.1, hdistinct.2, ?_, ?_⟩
  · rintro ⟨other, hheld⟩
    exact hlive.nonnull ⟨other, Multiset.mem_cons_of_mem hheld⟩
  · rintro rfl
    exact hlive.nonnull ⟨size, Multiset.mem_cons_self _ _⟩

/-- Assumes: the rows in use are the live blocks. An address that is not live is at no row. -/
theorem RowsAreLive.find?_eq_none {mm : MemoryManager} {heap : Heap} (hlive : RowsAreLive mm heap)
    {ptr : ℕ} (hstale : ¬ heap.Holds ptr) :
    mm.blocks.find? (MemoryBlock.isInUseAt ptr) = none := by
  rw [find?_isInUseAt_eq_none_iff, hlive.rows]
  exact hstale

theorem memoryFree_of_stale {mm : MemoryManager} {heap : Heap} (hlive : RowsAreLive mm heap)
    {ptr : ℕ} (hstale : ¬ heap.Holds ptr) : memoryFree mm ptr = mm := by
  rw [memoryFree, hlive.find?_eq_none hstale, ite_self]

theorem memoryReallocate_of_stale {mm : MemoryManager} {heap : Heap}
    (hlive : RowsAreLive mm heap) {ptr : ℕ} (hstale : ¬ heap.Holds ptr) (newSize : UInt64)
    (reallocated : ℕ) : memoryReallocate mm ptr newSize reallocated = (mm, 0) := by
  rw [memoryReallocate, hlive.find?_eq_none hstale, ite_self]

theorem rowsAreLive_free {mm : MemoryManager} {heap : Heap} (hlive : RowsAreLive mm heap)
    (ptr : ℕ) : RowsAreLive (memoryFree mm ptr) (heap.without ptr) := by
  cases hfind : mm.blocks.find? (MemoryBlock.isInUseAt ptr) with
  | none =>
    have hstale : ¬ heap.Holds ptr := by
      rw [← hlive.rows]
      exact find?_isInUseAt_eq_none_iff.mp hfind
    rw [memoryFree_of_stale hlive hstale, Heap.without_of_not_holds hstale]
    exact hlive
  | some block =>
    obtain ⟨rest, hrows, hfreed, -⟩ := rowsInUse_updateFirst hfind
    obtain rfl : heap = (ptr, block.size.toNat) ::ₘ rest := hlive.rows.symm.trans hrows
    obtain ⟨hnone, hdistinct, hnonnull, hptr⟩ := hlive.of_cons
    rw [memoryFree, if_neg hptr, hfind, Heap.without_cons hnone]
    refine ⟨hfreed, hdistinct, hnonnull, ?_⟩
    have husage := hlive.usage
    rw [Heap.bytes_cons, UInt64.ofNat_add, UInt64.ofNat_toNat, memoryGetUsage] at husage
    simp only [memoryGetUsage]
    grind

theorem rowsAreLive_reallocate {mm : MemoryManager} {heap : Heap} (hlive : RowsAreLive mm heap)
    {ptr : ℕ} {newSize : UInt64} {reallocated : ℕ}
    (hfresh : ResultFresh (mm, heap) (.reallocate ptr newSize reallocated)) :
    RowsAreLive (memoryReallocate mm ptr newSize reallocated).1
      (heapAfter mm (.reallocate ptr newSize reallocated) heap) := by
  rw [heapAfter]
  rcases memoryReallocate_cases mm ptr newSize reallocated with
    hrefused | ⟨block, hfind, hnull, hserved⟩
  · rw [hrefused]
    exact hlive
  · obtain ⟨rest, hrows, -, hchanged⟩ := rowsInUse_updateFirst hfind
    obtain rfl : heap = (ptr, block.size.toNat) ::ₘ rest := hlive.rows.symm.trans hrows
    obtain ⟨hnone, hdistinct, hnonnull, hptr⟩ := hlive.of_cons
    -- the result is the old address of the block, or the address of no live block
    have hnew : ¬ rest.Holds reallocated := by
      rcases hfresh.resolve_left hnull with rfl | hother
      · exact hnone
      · rintro ⟨other, hheld⟩
        exact hother ⟨other, Multiset.mem_cons_of_mem hheld⟩
    rw [hserved]
    simp only [if_neg hnull]
    rw [Heap.without_cons hnone]
    refine ⟨hchanged reallocated newSize, ?_, ?_, ?_⟩
    · rw [Multiset.map_cons, Multiset.nodup_cons]
      exact ⟨fun hmem ↦ hnew (Heap.holds_iff_mem.mpr hmem), hdistinct⟩
    · rintro ⟨other, hheld⟩
      rcases Multiset.mem_cons.mp hheld with hpair | hold
      · exact hnull (congrArg Prod.fst hpair).symm
      · exact hnonnull ⟨other, hold⟩
    · have husage := hlive.usage
      rw [Heap.bytes_cons, UInt64.ofNat_add, UInt64.ofNat_toNat, memoryGetUsage] at husage
      rw [Heap.bytes_cons, UInt64.ofNat_add, UInt64.ofNat_toNat, memoryGetUsage]
      grind

/-! ### Usage along a run -/

/-- Assumes: `malloc` and `realloc` keep their promise. Every call leaves the rows in use the live
blocks. -/
theorem rowsAreLive_step {mm : MemoryManager} {heap : Heap} (hlive : RowsAreLive mm heap)
    {call : MemoryCall} (hfresh : ResultFresh (mm, heap) call) :
    RowsAreLive (memoryStep mm call) (heapAfter mm call heap) := by
  cases call with
  | allocate size allocated => exact rowsAreLive_allocate hlive hfresh
  | free ptr => exact rowsAreLive_free hlive ptr
  | reallocate ptr newSize reallocated => exact rowsAreLive_reallocate hlive hfresh

theorem rowsAreLive_init (maxBlocks : UInt32) : RowsAreLive (memoryManagerInit maxBlocks) 0 where
  rows := rfl
  distinct := Multiset.nodup_zero
  nonnull := by
    rintro ⟨size, hheld⟩
    exact Multiset.notMem_zero _ hheld
  usage := by
    rw [Heap.bytes, Multiset.map_zero, Multiset.sum_zero]
    exact show (0 : UInt64) - 0 = UInt64.ofNat 0 by decide

/-- Memory usage over every run. Assumes: every result of `malloc` and `realloc` is `NULL` or the
address of no live block other than the one that is resized, and the live blocks have fewer than
`2 ^ 64` bytes in every state. Then the usage is the size of the live blocks in every state, and the
live blocks are those of the rows in use; and every `memory_free` and `memory_reallocate` of an
address that is not live changes nothing. -/
theorem memoryGetUsage_exact (maxBlocks : UInt32) (calls : List MemoryCall)
    (hfresh : EveryStep (withTrace memoryStep heapAfter) ResultFresh
      (memoryManagerInit maxBlocks, 0) calls)
    (hfits : AlongRun (withTrace memoryStep heapAfter) (fun traced ↦ traced.2.bytes < 2 ^ 64)
      (memoryManagerInit maxBlocks, 0) calls) :
    AlongRun (withTrace memoryStep heapAfter)
        (fun traced ↦ (memoryGetUsage traced.1).toNat = traced.2.bytes ∧
          rowsInUse traced.1.blocks = traced.2) (memoryManagerInit maxBlocks, 0) calls ∧
      EveryStep (withTrace memoryStep heapAfter) StaleUnchanged (memoryManagerInit maxBlocks, 0)
        calls := by
  have hlive : AlongRun (withTrace memoryStep heapAfter)
      (fun traced ↦ RowsAreLive traced.1 traced.2) (memoryManagerInit maxBlocks, 0) calls :=
    alongRun_invariant _ ResultFresh (fun traced call hlive hcall ↦ rowsAreLive_step hlive hcall)
      (rowsAreLive_init maxBlocks) hfresh
  constructor
  · intro taken htaken
    have hrows := hlive taken htaken
    refine ⟨?_, hrows.rows⟩
    rw [hrows.usage, UInt64.toNat_ofNat_of_lt' (hfits taken htaken)]
  · refine hlive.everyStep fun traced call hrows ↦ ?_
    cases call with
    | allocate size allocated => exact trivial
    | free ptr => exact fun hstale ↦ memoryFree_of_stale hrows hstale
    | reallocate ptr newSize reallocated =>
      exact fun hstale ↦ memoryReallocate_of_stale hrows hstale newSize reallocated

/-- A block is allocated and moved to another address when it grows. A free of its old address does
nothing, until another block is allocated there. -/
theorem memoryGetUsage_exact_moved :
    AlongRun (withTrace memoryStep heapAfter)
        (fun traced ↦ (memoryGetUsage traced.1).toNat = traced.2.bytes ∧
          rowsInUse traced.1.blocks = traced.2) (memoryManagerInit 8, 0)
        [.allocate 16 4096, .reallocate 4096 32 8192, .free 4096, .allocate 8 4096, .free 4096] ∧
      EveryStep (withTrace memoryStep heapAfter) StaleUnchanged (memoryManagerInit 8, 0)
        [.allocate 16 4096, .reallocate 4096 32 8192, .free 4096, .allocate 8 4096,
          .free 4096] := by
  refine memoryGetUsage_exact 8 _ ?_ ?_
  · simp only [everyStep_cons, everyStep_nil, ResultFresh, Heap.holds_iff_mem]
    decide
  · simp only [alongRun_cons, alongRun_nil, Heap.bytes]
    decide

end OneOS.Memory.BlockManager
