import OneOS.DiskCache.Blocks
import OneOS.Foundation.KeyedPlaces

/-!
# Coherence of the disk cache

What the cache should hold at a disk location is what was last written there, unless the block was
released since (`contentsAfter`). The blocks in use represent that map: no location has two of them
(`Coherent`), and a read returns the block with the data last written (`coherent_alongRun`).

The proof looks at the blocks that are in use with their locations and data (`shownAt`). A read, a
flush and a lock show the same as before, a write stores at one place, and a release empties one. A
flush relies on free blocks not being dirty (`BufferBlock.Kept`), since it does not look whether a
block is free.
-/

set_option autoImplicit false
set_option relaxedAutoImplicit false

namespace OneOS.DiskCache

open Foundation

/-! ### What the cache should hold -/

/-- The data that belongs at each location, if any does. -/
abbrev Contents := UInt64 → Option BlockData

/-- What belongs at each location after a call: a write that succeeds puts its data there, and the
release of a block that succeeds takes away what is at the location of the block. -/
def contentsAfter (cache : DiskCacheBuffer) (call : DiskCacheCall) (contents : Contents) :
    Contents :=
  match call with
  | .writeBlock diskLocation (some data) malloc =>
    if (diskCacheWriteBlock cache diskLocation (some data) malloc).2 = 0 then
      Function.update contents diskLocation (some data)
    else contents
  | .deallocateBlock poolId blockId =>
    match (releasedPtr cache poolId blockId).bind (cellAt cache.grid) with
    | some block =>
      if (diskCacheDeallocateBlock cache poolId blockId).2 = 0 then
        Function.update contents block.diskLocation none
      else contents
    | none => contents
  | _ => contents

/-- The cache and what it should hold agree: no two blocks in use have the same location, and a read
returns a block with the data that belongs at the location, or NULL exactly when none does. -/
structure Coherent (traced : DiskCacheBuffer × Contents) : Prop where
  distinct : ∀ pointer other block otherBlock, cellAt traced.1.grid pointer = some block →
    cellAt traced.1.grid other = some otherBlock → block.state ≠ .free →
      otherBlock.state ≠ .free → block.diskLocation = otherBlock.diskLocation → pointer = other
  found : ∀ diskLocation data, traced.2 diskLocation = some data → ∃ pointer block,
    (diskCacheReadBlock traced.1 diskLocation).2 = some pointer ∧
      cellAt (diskCacheReadBlock traced.1 diskLocation).1.grid pointer = some block ∧
        block.diskLocation = diskLocation ∧ block.blockPtr = some data
  missing : ∀ diskLocation, (diskCacheReadBlock traced.1 diskLocation).2 = none ↔
    traced.2 diskLocation = none

/-! ### What is shown -/

variable {cache : DiskCacheBuffer} {grid : List (List BufferBlock)} {contents : Contents}
variable {pointer : BlockPtr} {block : BufferBlock} {diskLocation : UInt64}

/-- The location and the data of a block in use. -/
def BufferBlock.shown (block : BufferBlock) : Option (UInt64 × BlockData) :=
  if block.state = .free then none else block.blockPtr.map fun data ↦ (block.diskLocation, data)

/-- What the cache shows at a place. -/
def shownAt (grid : List (List BufferBlock)) (place : BlockPtr) : Option (UInt64 × BlockData) :=
  (cellAt grid place).bind BufferBlock.shown

/-- A free block is not dirty, and a block in use has data. -/
structure BufferBlock.Kept (block : BufferBlock) : Prop where
  clean : block.state = .free → block.isDirty = false
  backed : block.state ≠ .free → block.blockPtr ≠ none

/-- The blocks are kept well and what they show represents the map. -/
structure Mirrors (grid : List (List BufferBlock)) (contents : Contents) : Prop where
  kept : ∀ place block, cellAt grid place = some block → block.Kept
  shows : Represents (shownAt grid) contents

/-- A block in use shows its location and its data. -/
theorem BufferBlock.Kept.shown_eq (hkept : block.Kept) (hused : block.state ≠ .free) :
    ∃ data, block.blockPtr = some data ∧ block.shown = some (block.diskLocation, data) := by
  obtain ⟨data, hdata⟩ := Option.ne_none_iff_exists'.mp (hkept.backed hused)
  refine ⟨data, hdata, ?_⟩
  rw [BufferBlock.shown, if_neg hused, hdata, Option.map_some]

/-- A block that shows something is in use. -/
theorem BufferBlock.used_of_shown {shown : UInt64 × BlockData} (hshown : block.shown = some shown) :
    block.state ≠ .free ∧ block.diskLocation = shown.1 ∧ block.blockPtr = some shown.2 := by
  rw [BufferBlock.shown] at hshown
  split_ifs at hshown with hfree
  obtain ⟨data, hdata, rfl⟩ := Option.map_eq_some_iff.mp hshown
  exact ⟨hfree, rfl, hdata⟩

theorem shownAt_of_cellAt (hblock : cellAt grid pointer = some block) :
    shownAt grid pointer = block.shown := by
  rw [shownAt, hblock, Option.bind_some]

/-- A change of one block changes what is shown at its place. -/
theorem shownAt_changeAt (change : BufferBlock → BufferBlock)
    (hblock : cellAt grid pointer = some block) :
    shownAt (changeAt grid pointer change) =
      Function.update (shownAt grid) pointer (change block).shown := by
  funext place
  rw [shownAt, cellAt_changeAt]
  by_cases hsame : place = pointer
  · rw [if_pos hsame, hsame, hblock, Option.map_some, Option.bind_some, Function.update_self]
  · rw [if_neg hsame, Function.update_of_ne hsame, shownAt]

/-- Blocks are kept well when one is changed to one that is. -/
theorem kept_changeAt {change : BufferBlock → BufferBlock}
    (hkept : ∀ place block, cellAt grid place = some block → block.Kept)
    (hblock : cellAt grid pointer = some block) (hchange : (change block).Kept) :
    ∀ place block, cellAt (changeAt grid pointer change) place = some block → block.Kept := by
  intro place other hother
  rw [cellAt_changeAt] at hother
  split_ifs at hother with hsame
  · rw [hsame, hblock, Option.map_some, Option.some.injEq] at hother
    exact hother ▸ hchange
  · exact hkept place other hother

/-- A change of a block that shows the same keeps the map. -/
theorem Mirrors.change_same (hmirrors : Mirrors grid contents) {change : BufferBlock → BufferBlock}
    (hblock : cellAt grid pointer = some block) (hchange : (change block).Kept)
    (hshown : (change block).shown = block.shown) :
    Mirrors (changeAt grid pointer change) contents := by
  refine ⟨kept_changeAt hmirrors.kept hblock hchange, ?_⟩
  rw [shownAt_changeAt change hblock, hshown, ← shownAt_of_cellAt hblock, Function.update_eq_self]
  exact hmirrors.shows

/-! ### Reads and locks -/

theorem mirrors_readBlock (diskLocation : UInt64) (hmirrors : Mirrors cache.grid contents) :
    Mirrors (diskCacheReadBlock cache diskLocation).1.grid contents := by
  cases hfirst : firstPlace (fun block ↦ block.caches diskLocation) cache.grid with
  | none =>
    rw [(readBlock_of_missing hfirst).2]
    exact hmirrors
  | some pointer =>
    obtain ⟨block, hblock, -⟩ := cellAt_of_firstPlace hfirst
    have hkept := hmirrors.kept pointer block hblock
    rw [(readBlock_of_found hfirst).2]
    exact hmirrors.change_same hblock ⟨hkept.clean, hkept.backed⟩ rfl

theorem mirrors_setPinned (hmirrors : Mirrors cache.grid contents) (blockId : UInt32)
    (pinned : Bool) : Mirrors (setPinned cache blockId pinned).1.grid contents := by
  unfold setPinned
  split
  · exact hmirrors
  · next pointer hfirst =>
    obtain ⟨block, hblock, -⟩ := cellAt_of_firstPlace hfirst
    have hkept := hmirrors.kept pointer block hblock
    rw [grid_onBlock]
    exact hmirrors.change_same hblock ⟨hkept.clean, hkept.backed⟩ rfl

/-- No block is found where none is shown. -/
theorem Mirrors.contents_of_missing (hmirrors : Mirrors cache.grid contents)
    (hfirst : firstPlace (fun block ↦ block.caches diskLocation) cache.grid = none) :
    contents diskLocation = none := by
  by_contra hcontents
  obtain ⟨data, hdata⟩ := Option.ne_none_iff_exists'.mp hcontents
  obtain ⟨place, hplace⟩ := (hmirrors.shows.stored diskLocation data).mp hdata
  obtain ⟨block, hblock, hshown⟩ := Option.bind_eq_some_iff.mp hplace
  obtain ⟨hused, hlocation, -⟩ := BufferBlock.used_of_shown hshown
  have hcaches := firstPlace_eq_none_iff.mp hfirst place block hblock
  rw [caches_eq_true_iff.mpr ⟨hlocation, hused⟩] at hcaches
  exact absurd hcaches.symm Bool.false_ne_true

/-- The block that is found holds what is shown. -/
theorem Mirrors.contents_of_found (hmirrors : Mirrors cache.grid contents)
    (hfirst : firstPlace (fun block ↦ block.caches diskLocation) cache.grid = some pointer) :
    ∃ block data, cellAt cache.grid pointer = some block ∧ block.diskLocation = diskLocation ∧
      block.blockPtr = some data ∧ block.state ≠ .free ∧ contents diskLocation = some data ∧
        shownAt cache.grid pointer = some (diskLocation, data) := by
  obtain ⟨block, hblock, hcaches⟩ := cellAt_of_firstPlace hfirst
  obtain ⟨hlocation, hused⟩ := caches_eq_true_iff.mp hcaches
  obtain ⟨data, hdata, hshown⟩ := (hmirrors.kept pointer block hblock).shown_eq hused
  rw [← shownAt_of_cellAt hblock, hlocation] at hshown
  exact ⟨block, data, hblock, hlocation, hdata, hused, hmirrors.shows.contents_of_place hshown,
    hshown⟩

/-- Blocks that represent what the cache should hold make it coherent. -/
theorem Mirrors.coherent (hmirrors : Mirrors cache.grid contents) : Coherent (cache, contents) := by
  refine ⟨fun pointer other block otherBlock hblock hother hused hotherUsed hlocations ↦ ?_,
    fun diskLocation data hdata ↦ ?_, fun diskLocation ↦ ?_⟩
  · obtain ⟨data, -, hshown⟩ := (hmirrors.kept pointer block hblock).shown_eq hused
    obtain ⟨otherData, -, hotherShown⟩ :=
      (hmirrors.kept other otherBlock hother).shown_eq hotherUsed
    rw [← shownAt_of_cellAt hblock] at hshown
    rw [← shownAt_of_cellAt hother, ← hlocations] at hotherShown
    exact hmirrors.shows.distinct pointer other _ _ _ hshown hotherShown
  · cases hfirst : firstPlace (fun block ↦ block.caches diskLocation) cache.grid with
    | none => exact absurd ((hmirrors.contents_of_missing hfirst).symm.trans hdata) (by simp)
    | some pointer =>
      obtain ⟨block, data', hblock, hlocation, hptr, -, hcontents, -⟩ :=
        hmirrors.contents_of_found hfirst
      obtain rfl := Option.some.inj (hcontents.symm.trans hdata)
      obtain ⟨hread, hgrid⟩ := readBlock_of_found hfirst
      refine ⟨pointer, { block with accessCount := block.accessCount + 1, lastAccessTime := 0 },
        hread, ?_, hlocation, hptr⟩
      rw [hgrid, cellAt_changeAt, if_pos rfl, hblock, Option.map_some]
  · cases hfirst : firstPlace (fun block ↦ block.caches diskLocation) cache.grid with
    | none => simp [readBlock_of_missing hfirst, hmirrors.contents_of_missing hfirst]
    | some pointer =>
      obtain ⟨-, data, -, -, -, -, hcontents, -⟩ := hmirrors.contents_of_found hfirst
      simp [readBlock_of_found hfirst, hcontents]

/-! ### Writes -/

/-- A block that takes a location shows it, with the data written. -/
theorem Mirrors.store (hmirrors : Mirrors grid contents) {change : BufferBlock → BufferBlock}
    {data : BlockData} (hblock : cellAt grid pointer = some block) (hchange : (change block).Kept)
    (hshown : (change block).shown = some (diskLocation, data))
    (hkey : ∀ other old, shownAt grid other = some (diskLocation, old) → other = pointer)
    (hplace : ∀ other old, block.shown = some (other, old) → other = diskLocation) :
    Mirrors (changeAt grid pointer change) (Function.update contents diskLocation (some data)) := by
  refine ⟨kept_changeAt hmirrors.kept hblock hchange, ?_⟩
  rw [shownAt_changeAt change hblock, hshown]
  refine hmirrors.shows.store hkey fun other old hother ↦ hplace other old ?_
  rwa [← shownAt_of_cellAt hblock]

/-- What is shown after taking a block: the same, if it fails, and otherwise a block that was free
is taken. -/
theorem mirrors_allocateBlock (poolId : UInt32) (malloc : Option BlockData)
    (hmirrors : Mirrors cache.grid contents) :
    (diskCacheAllocateBlock cache poolId malloc).2 = none ∧
        Mirrors (diskCacheAllocateBlock cache poolId malloc).1.grid contents ∨
      ∃ pointer block data, (diskCacheAllocateBlock cache poolId malloc).2 = some pointer ∧
        cellAt cache.grid pointer = some block ∧ block.state = .free ∧
          (diskCacheAllocateBlock cache poolId malloc).1.grid =
            changeAt cache.grid pointer (·.taken cache.nextBlockId data) := by
  rcases allocateBlock_cases cache poolId malloc with ⟨hnone, hkeep, -⟩ |
    ⟨slot, block, hblock, hfree, ⟨-, hnone, hgrid⟩ | ⟨data, -, hreturned, hgrid⟩⟩
  · rw [hkeep]
    exact Or.inl ⟨hkeep ▸ hnone, hmirrors⟩
  · have hkept := hmirrors.kept _ _ hblock
    rw [hgrid]
    refine Or.inl ⟨hnone, hmirrors.change_same hblock
      ⟨hkept.clean, fun hused ↦ absurd hfree hused⟩ ?_⟩
    rw [BufferBlock.shown, BufferBlock.shown, if_pos hfree, if_pos hfree]
  · exact Or.inr ⟨(poolId.toNat, slot), block, data, hreturned, hblock, hfree, hgrid⟩

/-- What a write does: it fails and leaves what is shown, or the block of the location has the data
written. -/
theorem writeBlock_cases (data : BlockData) (malloc : Option BlockData)
    (hmirrors : Mirrors cache.grid contents) :
    (diskCacheWriteBlock cache diskLocation (some data) malloc).2 ≠ 0 ∧
        Mirrors (diskCacheWriteBlock cache diskLocation (some data) malloc).1.grid contents ∨
      (diskCacheWriteBlock cache diskLocation (some data) malloc).2 = 0 ∧
        Mirrors (diskCacheWriteBlock cache diskLocation (some data) malloc).1.grid
          (Function.update contents diskLocation (some data)) := by
  have hread := mirrors_readBlock diskLocation hmirrors
  unfold diskCacheWriteBlock
  dsimp only
  cases hfirst : firstPlace (fun block ↦ block.caches diskLocation) cache.grid with
  | some pointer =>
    obtain ⟨block, old, hblock, hlocation, -, -, -, hshown⟩ := hmirrors.contents_of_found hfirst
    obtain ⟨hfound, hgrid⟩ := readBlock_of_found hfirst
    rw [hfound]
    refine Or.inr ⟨rfl, ?_⟩
    rw [grid_counters, grid_onBlock, hgrid, changeAt_changeAt]
    refine hmirrors.store hblock ⟨fun hfree ↦ ?_, fun _ ↦ Option.some_ne_none _⟩ ?_ ?_ ?_
    · exact absurd hfree (by simp)
    · simp [BufferBlock.shown, hlocation]
    · intro other otherOld hother
      exact hmirrors.shows.distinct other pointer _ _ _ hother hshown
    · intro other otherOld hother
      rw [← shownAt_of_cellAt hblock, hshown, Option.some.injEq, Prod.mk.injEq] at hother
      exact hother.1.symm
  | none =>
    obtain ⟨hmissing, hgrid⟩ := readBlock_of_missing hfirst
    rw [hmissing]
    dsimp only
    rcases mirrors_allocateBlock 0 malloc hread with ⟨hnone, hkeep⟩ | ⟨pointer, block, fresh, hsome,
      hblock, hfree, htaken⟩
    · rw [hnone]
      exact Or.inl ⟨show (-1 : Int) ≠ 0 by decide, hkeep⟩
    · rw [hsome]
      refine Or.inr ⟨rfl, ?_⟩
      rw [grid_counters, grid_onBlock, htaken, changeAt_changeAt]
      refine hread.store hblock ⟨fun hfree ↦ ?_, fun _ ↦ Option.some_ne_none _⟩ ?_ ?_ ?_
      · exact absurd hfree (by simp)
      · simp [BufferBlock.shown]
      · intro other old hother
        have hcontents := hread.shows.contents_of_place hother
        rw [hmirrors.contents_of_missing hfirst] at hcontents
        exact absurd hcontents.symm (Option.some_ne_none _)
      · intro other old hother
        exact absurd hfree (BufferBlock.used_of_shown hother).1

/-! ### Releases and flushes -/

/-- What a release does: it fails and leaves the cache, or it empties the place of the block found,
which was in use. -/
theorem deallocateBlock_cases (poolId blockId : UInt32) (hmirrors : Mirrors cache.grid contents) :
    (diskCacheDeallocateBlock cache poolId blockId).2 ≠ 0 ∧
        Mirrors (diskCacheDeallocateBlock cache poolId blockId).1.grid contents ∨
      ∃ block, (releasedPtr cache poolId blockId).bind (cellAt cache.grid) = some block ∧
        (diskCacheDeallocateBlock cache poolId blockId).2 = 0 ∧
          Mirrors (diskCacheDeallocateBlock cache poolId blockId).1.grid
            (Function.update contents block.diskLocation none) := by
  unfold diskCacheDeallocateBlock
  have hfailed : (-1 : Int) ≠ 0 := by decide
  cases hreleased : releasedPtr cache poolId blockId with
  | none => exact Or.inl ⟨hfailed, hmirrors⟩
  | some pointer =>
    dsimp only
    cases hblock : cellAt cache.grid pointer with
    | none => exact Or.inl ⟨hfailed, hmirrors⟩
    | some block =>
      dsimp only
      by_cases hpinned : block.isPinned = true
      · rw [if_pos hpinned]
        exact Or.inl ⟨hfailed, hmirrors⟩
      · rw [if_neg hpinned]
        refine Or.inr ⟨block, hblock, rfl, ?_⟩
        obtain ⟨data, -, hshown⟩ :=
          (hmirrors.kept pointer block hblock).shown_eq (used_of_releasedPtr hreleased hblock)
        rw [grid_counters, grid_onBlock, grid_onPool_of_keep]
        · refine ⟨kept_changeAt hmirrors.kept hblock
            ⟨fun _ ↦ rfl, fun hused ↦ absurd rfl hused⟩, ?_⟩
          rw [shownAt_changeAt _ hblock]
          exact hmirrors.shows.empty ((shownAt_of_cellAt hblock).trans hshown)
        · exact fun _ ↦ rfl

/-- A flush keeps the location and the data of every block, and it frees and takes none: a block
that is written back is dirty, so that it is not free. -/
theorem mirrors_flushBlocks (poolId : UInt32) (hmirrors : Mirrors cache.grid contents) :
    Mirrors (diskCacheFlushBlocks cache poolId).1.grid contents := by
  unfold diskCacheFlushBlocks
  split
  · exact hmirrors
  · dsimp only
    rw [grid_counters, grid_onPool _ (List.map fun block ↦
      if block.flushed then { block with state := .allocated, isDirty := false } else block)
      fun _ ↦ rfl]
    have hblock : ∀ place block, cellAt cache.grid place = some block →
        BufferBlock.Kept (if block.flushed then
          { block with state := .allocated, isDirty := false } else block) ∧
        BufferBlock.shown (if block.flushed then
          { block with state := .allocated, isDirty := false } else block) = block.shown := by
      intro place block hblock
      have hkept := hmirrors.kept place block hblock
      split_ifs with hflushed
      · have hdirty := (Bool.and_eq_true_iff.mp hflushed).1
        have hused : block.state ≠ .free := by
          intro hfree
          rw [hkept.clean hfree] at hdirty
          exact Bool.false_ne_true hdirty
        refine ⟨⟨fun _ ↦ rfl, fun _ ↦ hkept.backed hused⟩, ?_⟩
        rw [BufferBlock.shown, BufferBlock.shown, if_neg hused, if_neg (by simp)]
      · exact ⟨hkept, rfl⟩
    refine ⟨fun place block hafter ↦ ?_, ?_⟩
    · rw [cellAt_modify_map] at hafter
      split_ifs at hafter
      · obtain ⟨before, hbefore, rfl⟩ := Option.map_eq_some_iff.mp hafter
        exact (hblock place before hbefore).1
      · exact hmirrors.kept place block hafter
    · convert hmirrors.shows using 1
      funext place
      rw [shownAt, cellAt_modify_map, shownAt]
      split_ifs
      · cases hbefore : cellAt cache.grid place with
        | none => rfl
        | some block =>
          rw [Option.map_some, Option.bind_some, Option.bind_some, (hblock place block hbefore).2]
      · rfl

theorem mirrors_flushAll (hmirrors : Mirrors cache.grid contents) :
    Mirrors (diskCacheFlushAll cache).1.grid contents := by
  refine runFrom_invariant (fun total : DiskCacheBuffer × UInt32 ↦ Mirrors total.1.grid contents)
    (fun _ _ ↦ True) (fun total i hbefore _ ↦ ?_) hmirrors (fun _ _ _ ↦ trivial)
  exact mirrors_flushBlocks _ hbefore

/-! ### Runs -/

/-- Every call keeps the blocks in agreement with what the cache should hold. -/
theorem mirrors_step (call : DiskCacheCall) (hmirrors : Mirrors cache.grid contents) :
    Mirrors (diskCacheStep cache call).grid (contentsAfter cache call contents) := by
  cases call with
  | writeBlock diskLocation data malloc =>
    cases data with
    | none => exact hmirrors
    | some data =>
      rw [contentsAfter]
      rcases writeBlock_cases data malloc hmirrors with ⟨hfailed, hkeep⟩ | ⟨hwritten, hstored⟩
      · rw [if_neg hfailed]
        exact hkeep
      · rw [if_pos hwritten]
        exact hstored
  | readBlock diskLocation => exact mirrors_readBlock diskLocation hmirrors
  | flushBlocks poolId => exact mirrors_flushBlocks poolId hmirrors
  | flushAll => exact mirrors_flushAll hmirrors
  | lockBlock blockId => exact mirrors_setPinned hmirrors blockId true
  | unlockBlock blockId => exact mirrors_setPinned hmirrors blockId false
  | deallocateBlock poolId blockId =>
    rw [contentsAfter]
    rcases deallocateBlock_cases poolId blockId hmirrors with ⟨hfailed, hkeep⟩ | ⟨block, hblock,
      hreleased, hemptied⟩
    · split
      · rw [if_neg hfailed]
        exact hkeep
      · exact hkeep
    · rw [hblock]
      dsimp only
      rw [if_pos hreleased]
      exact hemptied

/-- A new cache holds nothing. -/
theorem mirrors_init {bufferSize : UInt64} {poolCount nextBlockId : UInt32}
    (hinit : diskCacheInit bufferSize poolCount nextBlockId = some cache) :
    Mirrors cache.grid fun _ ↦ none := by
  -- all blocks of a new cache are all 0
  have hzero : ∀ place block, cellAt cache.grid place = some block → block = zeroBlock := by
    intro place block hblock
    unfold diskCacheInit at hinit
    split_ifs at hinit
    obtain rfl := Option.some.inj hinit
    obtain ⟨row, hrow, hcell⟩ := cellAt_eq_some_iff.mp hblock
    rw [DiskCacheBuffer.grid, List.getElem?_map, List.getElem?_map, Option.map_map] at hrow
    obtain ⟨i, -, rfl⟩ := Option.map_eq_some_iff.mp hrow
    exact List.eq_of_mem_replicate (List.mem_of_getElem? hcell)
  refine ⟨fun place block hblock ↦ ?_, ?_⟩
  · rw [hzero place block hblock]
    exact ⟨fun _ ↦ rfl, fun hused ↦ absurd rfl hused⟩
  · convert represents_empty using 1
    funext place
    cases hblock : cellAt cache.grid place with
    | none => rw [shownAt, hblock, Option.bind_none]
    | some block =>
      rw [shownAt_of_cellAt hblock, hzero place block hblock]
      rfl

/-- The disk cache is coherent: along every run of a new cache with at least one pool, no two blocks
in use have the same location, and a read returns the data of the last successful write to its
location, or NULL exactly when there is none or its block was released since. It is so whether or
not there is memory for the blocks, and whichever ids the blocks have. -/
theorem coherent_alongRun (bufferSize : UInt64) (poolCount nextBlockId : UInt32)
    (cache : DiskCacheBuffer) (hinit : diskCacheInit bufferSize poolCount nextBlockId = some cache)
    (calls : List DiskCacheCall) :
    AlongRun (withTrace diskCacheStep contentsAfter) Coherent (cache, fun _ ↦ none) calls := by
  have hmirrors : AlongRun (withTrace diskCacheStep contentsAfter)
      (fun traced ↦ Mirrors traced.1.grid traced.2) (cache, fun _ ↦ none) calls :=
    alongRun_invariant _ (fun _ _ ↦ True)
      (fun _ call hbefore _ ↦ mirrors_step call hbefore) (mirrors_init hinit)
      fun _ _ _ ↦ trivial
  exact hmirrors.imp fun _ hreached ↦ hreached.coherent

/-- A cache with one pool of one block, written at a location. -/
theorem coherent_alongRun_one_block :
    ∃ cache, diskCacheInit 8192 1 1 = some cache ∧
      AlongRun (withTrace diskCacheStep contentsAfter) Coherent (cache, fun _ ↦ none)
        [.writeBlock 7 (some fun _ ↦ 1) (some fun _ ↦ 0), .readBlock 7] :=
  ⟨_, rfl, coherent_alongRun 8192 1 1 _ rfl _⟩

end OneOS.DiskCache
