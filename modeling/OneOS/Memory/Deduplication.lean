import Mathlib.Data.List.Nodup
import Mathlib.Data.List.Perm.Subperm
import OneOS.Foundation.RowRecords
import OneOS.Foundation.Runs

/-!
# The table of duplicates

The duplicates of `mm/memory_optimization.c`: contents of memory are known by their hash, and an
entry counts how often its content has been added. The table is what it is meant to be, a map from
hashes to counts (`dedup_run`): a content counts from the time it was added first, or first after it
was removed, and `mem_opt_garbage_collect`, which removes the contents that are not counted, finds
none.

Entries are removed by their id, which is the number of entries there were when the entry was
written, plus 1. So a removal in front of other entries lets ids occur twice, and another content is
removed later: no id does so, however the run goes on, exactly when only last entries have been
removed (`dedupIds_distinct_iff`).

Left out are the checks of pointers, the time of an entry, and the savings, which are a floating
point number that nothing reads.
-/

set_option autoImplicit false
set_option relaxedAutoImplicit false

namespace OneOS.Memory.Deduplication

open Foundation

/-! ### The table -/

/-- `MAX_DEDUP_ENTRIES`. -/
def maxDedupEntries : ℕ := 8192

/-- `content_hash`. -/
abbrev ContentHash := Vector UInt8 32

/-- `DedupEntry`. -/
structure DedupEntry where
  dedupId : UInt32
  contentHash : ContentHash
  referenceCount : UInt64
  size : UInt32
  sharedRefs : UInt32
  deriving DecidableEq

/-- The duplicates of `MemoryOptimizer`. -/
structure DedupTable where
  entries : List DedupEntry
  deduplicatedMemory : UInt64
  deriving DecidableEq

/-- The duplicates after `mem_opt_init`. -/
def memOptInit : DedupTable := ⟨[], 0⟩

/-- The test of the loops over hashes. -/
def hasHash (contentHash : ContentHash) (entry : DedupEntry) : Bool :=
  entry.contentHash = contentHash

/-- The test of the loop over ids. -/
def hasDedupId (dedupId : UInt32) (entry : DedupEntry) : Bool :=
  entry.dedupId = dedupId

/-- An entry whose content is added once more. -/
def DedupEntry.share (entry : DedupEntry) : DedupEntry :=
  { entry with
    referenceCount := entry.referenceCount + 1
    sharedRefs := entry.sharedRefs + 1 }

/-- `mem_opt_add_dedup_entry`, returning the id, or 0. -/
def memOptAddDedupEntry (table : DedupTable) (contentHash : ContentHash) (size : UInt32) :
    DedupTable × UInt32 :=
  if maxDedupEntries ≤ table.entries.length then (table, 0)
  else
    match table.entries.find? (hasHash contentHash) with
    | some entry =>
      ({ table with
        entries := updateFirst (hasHash contentHash) DedupEntry.share table.entries },
        entry.dedupId)
    | none =>
      let entry : DedupEntry :=
        { dedupId := UInt32.ofNat table.entries.length + 1
          contentHash := contentHash
          referenceCount := 1
          size := size
          sharedRefs := 0 }
      ({ entries := table.entries ++ [entry]
         deduplicatedMemory := table.deduplicatedMemory + size.toUInt64 }, entry.dedupId)

/-- `mem_opt_remove_dedup_entry`. -/
def memOptRemoveDedupEntry (table : DedupTable) (dedupId : UInt32) : DedupTable × Int :=
  match table.entries.find? (hasDedupId dedupId) with
  | none => (table, -1)
  | some entry =>
    ({ entries := table.entries.eraseP (hasDedupId dedupId)
       deduplicatedMemory := table.deduplicatedMemory - entry.size.toUInt64 }, 0)

/-- `mem_opt_find_dedup`. -/
def memOptFindDedup (table : DedupTable) (contentHash : ContentHash) : Option DedupEntry :=
  table.entries.find? (hasHash contentHash)

/-- One turn of the loop of `mem_opt_garbage_collect`, in a place of the table. -/
def garbageTurn (table : DedupTable) (i : ℕ) : DedupTable :=
  match table.entries[i]? with
  | none => table
  | some entry =>
    if entry.referenceCount = 0 then (memOptRemoveDedupEntry table entry.dedupId).1 else table

/-- `mem_opt_garbage_collect`: the places behind the last entry, which the loop does not come to,
are none. -/
def memOptGarbageCollect (table : DedupTable) : DedupTable :=
  (List.range table.entries.length).foldl garbageTurn table

/-- A call on the table of duplicates. -/
inductive DedupCall
  | add (contentHash : ContentHash) (size : UInt32)
  | remove (dedupId : UInt32)
  deriving DecidableEq

/-- The table after a call. -/
def dedupStep (table : DedupTable) : DedupCall → DedupTable
  | .add contentHash size => (memOptAddDedupEntry table contentHash size).1
  | .remove dedupId => (memOptRemoveDedupEntry table dedupId).1

/-- A call on the table of duplicates, or a collection. -/
inductive CollectingCall
  | call (dedupCall : DedupCall)
  | garbageCollect
  deriving DecidableEq

/-- The table after a call. -/
def collectingStep (table : DedupTable) : CollectingCall → DedupTable
  | .call dedupCall => dedupStep table dedupCall
  | .garbageCollect => memOptGarbageCollect table

/-! ### What the table is meant to be -/

/-- What is known of a content: how often it has been added, and its size. -/
structure Content where
  references : ℕ
  size : UInt32
  deriving DecidableEq

/-- The contents that are known, by their hash. -/
abbrev Contents := ContentHash → Option Content

/-- A content is added: it keeps the size it has. -/
def addContent (contentHash : ContentHash) (size : UInt32) (contents : Contents) : Contents :=
  Function.update contents contentHash <| some <|
    match contents contentHash with
    | some content => { content with references := content.references + 1 }
    | none => ⟨1, size⟩

/-- The contents after a call. A full table refuses what is added to it, and an id stands for the
first entry with it. -/
def trackContents (table : DedupTable) : CollectingCall → Contents → Contents
  | .call (.add contentHash size), contents =>
    if maxDedupEntries ≤ table.entries.length then contents
    else addContent contentHash size contents
  | .call (.remove dedupId), contents =>
    match table.entries.find? (hasDedupId dedupId) with
    | some entry => Function.update contents entry.contentHash none
    | none => contents
  | .garbageCollect, contents => contents

/-- What an entry says of its content. -/
def DedupEntry.content (entry : DedupEntry) : Content :=
  ⟨entry.referenceCount.toNat, entry.size⟩

/-- The bytes of all contents, each counted once. -/
def totalSize (entries : List DedupEntry) : ℕ :=
  (entries.map fun entry ↦ entry.size.toNat).sum

/-- The table holds the contents, each once and none of them added more often than there were
steps. -/
structure Holds (steps : ℕ) (table : DedupTable) (contents : Contents) : Prop where
  hashes : (table.entries.map DedupEntry.contentHash).Nodup
  known : ∀ contentHash content, contents contentHash = some content ↔
    ∃ entry ∈ table.entries, entry.contentHash = contentHash ∧ entry.content = content
  counted : ∀ entry ∈ table.entries,
    0 < entry.referenceCount.toNat ∧ entry.referenceCount.toNat ≤ steps
  shared : ∀ entry ∈ table.entries,
    entry.sharedRefs.toNat = (entry.referenceCount.toNat - 1) % 2 ^ 32
  memory : table.deduplicatedMemory.toNat = totalSize table.entries
  fits : table.entries.length ≤ maxDedupEntries

variable {steps : ℕ} {table : DedupTable} {contents : Contents}

theorem Holds.init (steps : ℕ) : Holds steps memOptInit fun _ ↦ none where
  hashes := List.nodup_nil
  known _ _ := by simp [memOptInit]
  counted := List.forall_mem_nil _
  shared := List.forall_mem_nil _
  memory := rfl
  fits := Nat.zero_le _

theorem Holds.mono {more : ℕ} (hmore : steps ≤ more) (hholds : Holds steps table contents) :
    Holds more table contents :=
  { hholds with
    counted := fun entry hentry ↦
      ⟨(hholds.counted entry hentry).1, Nat.le_trans (hholds.counted entry hentry).2 hmore⟩ }

/-- The sizes fit in a count of 64 bits. -/
theorem totalSize_lt {entries : List DedupEntry} (hfits : entries.length ≤ maxDedupEntries) :
    totalSize entries ≤ maxDedupEntries * 2 ^ 32 := by
  have hsum : totalSize entries ≤ entries.length * 2 ^ 32 := by
    induction entries with
    | nil => exact Nat.zero_le _
    | cons entry entries ih =>
      have hsize := entry.size.toNat_lt
      have hrest := ih (Nat.le_of_succ_le hfits)
      rw [totalSize] at hrest ⊢
      rw [List.map_cons, List.sum_cons, List.length_cons]
      omega
  exact Nat.le_trans hsum (Nat.mul_le_mul_right _ hfits)

theorem contentHash_of_find? {contentHash : ContentHash} {entry : DedupEntry}
    (hfind : table.entries.find? (hasHash contentHash) = some entry) :
    entry.contentHash = contentHash := by
  have htest := List.find?_some hfind
  rwa [hasHash, decide_eq_true_eq] at htest

/-- The entries after a content that is known is added. -/
theorem mem_shared_iff (hhashes : (table.entries.map DedupEntry.contentHash).Nodup)
    {contentHash : ContentHash} {entry : DedupEntry}
    (hfind : table.entries.find? (hasHash contentHash) = some entry) (other : DedupEntry) :
    other ∈ updateFirst (hasHash contentHash) DedupEntry.share table.entries ↔
      other = entry.share ∨ other ∈ table.entries ∧ other.contentHash ≠ contentHash := by
  have hentry : entry ∈ table.entries := List.mem_of_find?_eq_some hfind
  have hhash := contentHash_of_find? hfind
  have hupdated : updateFirst (hasHash contentHash) DedupEntry.share table.entries =
      table.entries.map fun entry ↦
        if entry.contentHash = contentHash then entry.share else entry :=
    updateFirst_key_eq_map hhashes
  rw [hupdated, List.mem_map]
  constructor
  · rintro ⟨before, hbefore, rfl⟩
    split_ifs with hsame
    · left
      rw [List.inj_on_of_nodup_map hhashes hbefore hentry (hsame.trans hhash.symm)]
    · exact Or.inr ⟨hbefore, hsame⟩
  · rintro (rfl | ⟨hother, hne⟩)
    · exact ⟨entry, hentry, if_pos hhash⟩
    · exact ⟨other, hother, if_neg hne⟩

/-- A content that is known already is added. -/
theorem Holds.share (hholds : Holds steps table contents) (hsteps : steps + 1 < 2 ^ 64)
    {contentHash : ContentHash} {entry : DedupEntry}
    (hfind : table.entries.find? (hasHash contentHash) = some entry) (size : UInt32) :
    Holds (steps + 1) { table with
      entries := updateFirst (hasHash contentHash) DedupEntry.share table.entries }
      (addContent contentHash size contents) := by
  have hentry : entry ∈ table.entries := List.mem_of_find?_eq_some hfind
  have hhash := contentHash_of_find? hfind
  have hmem := mem_shared_iff hholds.hashes hfind
  obtain ⟨hpositive, hbound⟩ := hholds.counted entry hentry
  have hcount : entry.share.referenceCount.toNat = entry.referenceCount.toNat + 1 := by
    rw [DedupEntry.share, UInt64.toNat_add, UInt64.toNat_one, Nat.mod_eq_of_lt (by omega)]
  have hknown : contents contentHash = some entry.content :=
    (hholds.known contentHash entry.content).mpr ⟨entry, hentry, hhash, rfl⟩
  constructor
  case hashes =>
    have hsame : (updateFirst (hasHash contentHash) DedupEntry.share table.entries).map
        DedupEntry.contentHash = table.entries.map DedupEntry.contentHash :=
      map_updateFirst fun entry _ ↦ show entry.share.contentHash = _ from rfl
    exact hsame ▸ hholds.hashes
  case known =>
    intro other content
    rw [addContent, hknown]
    by_cases hsame : other = contentHash
    · rw [hsame, Function.update_self, Option.some_inj]
      constructor
      · rintro rfl
        refine ⟨entry.share, (hmem _).mpr (Or.inl rfl), hhash, ?_⟩
        rw [DedupEntry.content, hcount]
        rfl
      · rintro ⟨after, hafter, hafterHash, rfl⟩
        rcases (hmem after).mp hafter with rfl | ⟨-, hne⟩
        · rw [DedupEntry.content, DedupEntry.content, hcount]
          rfl
        · exact absurd hafterHash hne
    · rw [Function.update_of_ne hsame, hholds.known]
      constructor
      · rintro ⟨before, hbefore, rfl, rfl⟩
        exact ⟨before, (hmem before).mpr (Or.inr ⟨hbefore, hsame⟩), rfl, rfl⟩
      · rintro ⟨after, hafter, rfl, rfl⟩
        rcases (hmem after).mp hafter with rfl | ⟨hold, -⟩
        · exact absurd hhash hsame
        · exact ⟨after, hold, rfl, rfl⟩
  case counted =>
    intro after hafter
    rcases (hmem after).mp hafter with rfl | ⟨hold, -⟩
    · rw [hcount]
      omega
    · obtain ⟨hleast, hmost⟩ := hholds.counted after hold
      omega
  case shared =>
    intro after hafter
    rcases (hmem after).mp hafter with rfl | ⟨hold, -⟩
    · rw [hcount, DedupEntry.share, UInt32.toNat_add, UInt32.toNat_one,
        hholds.shared entry hentry, Nat.mod_add_mod, Nat.sub_add_cancel hpositive,
        Nat.add_sub_cancel]
    · exact hholds.shared after hold
  case memory =>
    have hsame : (updateFirst (hasHash contentHash) DedupEntry.share table.entries).map
        (fun entry ↦ entry.size.toNat) = table.entries.map fun entry ↦ entry.size.toNat :=
      map_updateFirst fun entry _ ↦ show entry.share.size.toNat = _ from rfl
    rw [totalSize, hsame]
    exact hholds.memory
  case fits =>
    rw [updateFirst, List.length_modify]
    exact hholds.fits

/-- A content that is not known is added. -/
theorem Holds.append (hholds : Holds steps table contents)
    (hroom : table.entries.length < maxDedupEntries) {contentHash : ContentHash}
    (hfind : table.entries.find? (hasHash contentHash) = none) (dedupId size : UInt32) :
    Holds (steps + 1)
      { entries := table.entries ++ [⟨dedupId, contentHash, 1, size, 0⟩]
        deduplicatedMemory := table.deduplicatedMemory + size.toUInt64 }
      (addContent contentHash size contents) := by
  have hnew : ∀ entry ∈ table.entries, entry.contentHash ≠ contentHash := by
    simpa [hasHash] using hfind
  have hunknown : contents contentHash = none := by
    refine Option.eq_none_iff_forall_ne_some.mpr fun content hcontent ↦ ?_
    obtain ⟨entry, hentry, hhash, -⟩ := (hholds.known contentHash content).mp hcontent
    exact hnew entry hentry hhash
  constructor
  case hashes =>
    exact (nodup_map_concat_iff hholds.hashes).mpr hnew
  case known =>
    intro other content
    rw [addContent, hunknown]
    by_cases hsame : other = contentHash
    · rw [hsame, Function.update_self, Option.some_inj]
      constructor
      · rintro rfl
        exact ⟨_, List.mem_append_right _ (List.mem_singleton_self _), rfl, rfl⟩
      · rintro ⟨after, hafter, hafterHash, rfl⟩
        rcases List.mem_append.mp hafter with hold | hlast
        · exact absurd hafterHash (hnew after hold)
        · rw [List.mem_singleton.mp hlast]
          rfl
    · rw [Function.update_of_ne hsame, hholds.known]
      constructor
      · rintro ⟨before, hbefore, rfl, rfl⟩
        exact ⟨before, List.mem_append_left _ hbefore, rfl, rfl⟩
      · rintro ⟨after, hafter, rfl, rfl⟩
        rcases List.mem_append.mp hafter with hold | hlast
        · exact ⟨after, hold, rfl, rfl⟩
        · rw [List.mem_singleton.mp hlast] at hsame
          exact absurd rfl hsame
  case counted =>
    intro after hafter
    rcases List.mem_append.mp hafter with hold | hlast
    · obtain ⟨hleast, hmost⟩ := hholds.counted after hold
      omega
    · rw [List.mem_singleton.mp hlast]
      exact ⟨Nat.one_pos, Nat.le_add_left 1 steps⟩
  case shared =>
    intro after hafter
    rcases List.mem_append.mp hafter with hold | hlast
    · exact hholds.shared after hold
    · rw [List.mem_singleton.mp hlast]
      rfl
  case memory =>
    have hless := totalSize_lt hholds.fits
    have hsize := size.toNat_lt
    rw [UInt64.toNat_add, UInt32.toNat_toUInt64, hholds.memory, totalSize, totalSize,
      List.map_append, List.sum_append]
    rw [totalSize, maxDedupEntries] at hless
    simp only [List.map_cons, List.map_nil, List.sum_cons, List.sum_nil, Nat.add_zero]
    exact Nat.mod_eq_of_lt (by omega)
  case fits =>
    rw [List.length_append]
    exact hroom

/-- A content is removed. -/
theorem Holds.remove (hholds : Holds steps table contents) {dedupId : UInt32} {entry : DedupEntry}
    (hfind : table.entries.find? (hasDedupId dedupId) = some entry) :
    Holds steps
      { entries := table.entries.eraseP (hasDedupId dedupId)
        deduplicatedMemory := table.deduplicatedMemory - entry.size.toUInt64 }
      (Function.update contents entry.contentHash none) := by
  have hperm := perm_cons_eraseP_of_find? hfind
  have hhashes := (hperm.map DedupEntry.contentHash).nodup_iff.mp hholds.hashes
  rw [List.map_cons, List.nodup_cons] at hhashes
  have hother : ∀ other ∈ table.entries.eraseP (hasDedupId dedupId),
      other.contentHash ≠ entry.contentHash :=
    fun other hother hsame ↦ hhashes.1 (List.mem_map.mpr ⟨other, hother, hsame⟩)
  constructor
  case hashes => exact hhashes.2
  case known =>
    intro contentHash content
    by_cases hsame : contentHash = entry.contentHash
    · rw [hsame, Function.update_self]
      constructor
      · exact fun hnone ↦ absurd hnone.symm (Option.some_ne_none content)
      · rintro ⟨other, hleft, hhash, -⟩
        exact absurd hhash (hother other hleft)
    · rw [Function.update_of_ne hsame, hholds.known]
      constructor
      · rintro ⟨other, hbefore, rfl, rfl⟩
        rcases List.mem_cons.mp (hperm.mem_iff.mp hbefore) with rfl | hleft
        · exact absurd rfl hsame
        · exact ⟨other, hleft, rfl, rfl⟩
      · rintro ⟨other, hleft, rfl, rfl⟩
        exact ⟨other, List.mem_of_mem_eraseP hleft, rfl, rfl⟩
  case counted => exact fun other hleft ↦ hholds.counted other (List.mem_of_mem_eraseP hleft)
  case shared => exact fun other hleft ↦ hholds.shared other (List.mem_of_mem_eraseP hleft)
  case memory =>
    have htotal : totalSize (table.entries.eraseP (hasDedupId dedupId)) + entry.size.toNat =
        totalSize table.entries := sum_map_eraseP_add hfind
    have hmemory := hholds.memory
    have hle : entry.size.toUInt64 ≤ table.deduplicatedMemory := by
      rw [UInt64.le_iff_toNat_le, UInt32.toNat_toUInt64]
      omega
    change (table.deduplicatedMemory - entry.size.toUInt64).toNat =
      totalSize (table.entries.eraseP (hasDedupId dedupId))
    rw [UInt64.toNat_sub_of_le _ _ hle, UInt32.toNat_toUInt64]
    omega
  case fits => exact Nat.le_trans (List.length_eraseP_le) hholds.fits

/-- A collection finds nothing to remove. -/
theorem Holds.garbageCollect (hholds : Holds steps table contents) :
    memOptGarbageCollect table = table := by
  have hturn : ∀ i, garbageTurn table i = table := by
    intro i
    rw [garbageTurn]
    cases hentry : table.entries[i]? with
    | none => rfl
    | some entry =>
      have hpositive := (hholds.counted entry (List.mem_of_getElem? hentry)).1
      refine if_neg fun hzero ↦ ?_
      rw [hzero] at hpositive
      exact Nat.lt_irrefl 0 hpositive
  rw [memOptGarbageCollect]
  induction List.range table.entries.length with
  | nil => rfl
  | cons i turns ih => rw [List.foldl_cons, hturn, ih]

/-- One call. -/
theorem Holds.step (hholds : Holds steps table contents) (hsteps : steps + 1 < 2 ^ 64)
    (call : CollectingCall) :
    Holds (steps + 1) (collectingStep table call) (trackContents table call contents) := by
  match call with
  | .garbageCollect =>
    rw [collectingStep, hholds.garbageCollect]
    exact hholds.mono (Nat.le_succ steps)
  | .call (.remove dedupId) =>
    simp only [collectingStep, dedupStep, memOptRemoveDedupEntry, trackContents]
    cases hfind : table.entries.find? (hasDedupId dedupId) with
    | none => exact hholds.mono (Nat.le_succ steps)
    | some entry => exact (hholds.remove hfind).mono (Nat.le_succ steps)
  | .call (.add contentHash size) =>
    simp only [collectingStep, dedupStep, memOptAddDedupEntry, trackContents]
    by_cases hfull : maxDedupEntries ≤ table.entries.length
    · rw [if_pos hfull, if_pos hfull]
      exact hholds.mono (Nat.le_succ steps)
    · rw [if_neg hfull, if_neg hfull]
      cases hfind : table.entries.find? (hasHash contentHash) with
      | some entry => exact hholds.share hsteps hfind size
      | none => exact hholds.append (Nat.lt_of_not_le hfull) hfind _ size

/-- A content is found by its hash. -/
theorem Holds.find (hholds : Holds steps table contents) (contentHash : ContentHash) :
    (memOptFindDedup table contentHash).map DedupEntry.content = contents contentHash := by
  rw [memOptFindDedup]
  cases hcontent : contents contentHash with
  | none =>
    rw [Option.map_eq_none_iff, List.find?_eq_none]
    intro entry hentry htest
    rw [hasHash, decide_eq_true_eq] at htest
    have hsome := (hholds.known contentHash entry.content).mpr ⟨entry, hentry, htest, rfl⟩
    rw [hcontent] at hsome
    exact Option.some_ne_none _ hsome.symm
  | some content =>
    obtain ⟨entry, hentry, rfl, rfl⟩ := (hholds.known contentHash content).mp hcontent
    have hfind : table.entries.find? (hasHash entry.contentHash) = some entry :=
      find?_key_of_mem hholds.hashes hentry
    rw [hfind, Option.map_some]

/-- The contents that a run leaves. -/
def knownAfter (calls : List CollectingCall) : DedupTable × Contents :=
  runFrom (withTrace collectingStep trackContents) (memOptInit, fun _ ↦ none) calls

/-- After every run, what is found by a hash is what has been added and not removed, as often as it
was added; no two entries have the same hash, and the memory is that of the entries, so that each
content is counted once; and a collection changes nothing. Assumes: there are not as many calls as a
counter can count. -/
theorem dedup_run (calls : List CollectingCall) (hcalls : calls.length < 2 ^ 64) :
    let after := knownAfter calls
    (∀ contentHash, (memOptFindDedup after.1 contentHash).map DedupEntry.content =
        after.2 contentHash) ∧
      (after.1.entries.map DedupEntry.contentHash).Nodup ∧
      after.1.deduplicatedMemory.toNat = totalSize after.1.entries ∧
      memOptGarbageCollect after.1 = after.1 := by
  suffices hholds : Holds calls.length (knownAfter calls).1 (knownAfter calls).2 from
    ⟨hholds.find, hholds.hashes, hholds.memory, hholds.garbageCollect⟩
  induction calls using List.reverseRecOn with
  | nil => exact Holds.init 0
  | append_singleton calls call ih =>
    rw [List.length_append, List.length_singleton] at hcalls ⊢
    rw [knownAfter, runFrom_append]
    exact (ih (Nat.lt_of_succ_lt hcalls)).step hcalls call

/-- Two contents of the same hash and another one, and a removal. -/
theorem dedup_run_example :
    let hash : ContentHash := Vector.replicate 32 7
    let after := knownAfter [.call (.add hash 4096), .call (.add hash 64),
      .call (.add (Vector.replicate 32 8) 100), .call (.remove 2), .garbageCollect]
    (∀ contentHash, (memOptFindDedup after.1 contentHash).map DedupEntry.content =
        after.2 contentHash) ∧
      (after.1.entries.map DedupEntry.contentHash).Nodup ∧
      after.1.deduplicatedMemory.toNat = totalSize after.1.entries ∧
      memOptGarbageCollect after.1 = after.1 :=
  dedup_run _ (by decide)

/-! ### Ids -/

/-- Every id stands for one entry. -/
def IdsDistinct (table : DedupTable) : Prop :=
  (table.entries.map DedupEntry.dedupId).Nodup

/-- A call that adds a content. -/
def DedupCall.Adds : DedupCall → Prop
  | .add _ _ => True
  | .remove _ => False

/-- The condition on a call: what it removes is the last entry. -/
def DedupCall.RemovesLast (table : DedupTable) : DedupCall → Prop
  | .add _ _ => True
  | .remove dedupId => ∀ entry, table.entries.find? (hasDedupId dedupId) = some entry →
      table.entries.getLast? = some entry

/-- The ids are the numbers from 1 on. -/
def Numbered (table : DedupTable) : Prop :=
  NumberedFrom 1 DedupEntry.dedupId table.entries ∧ table.entries.length ≤ maxDedupEntries

theorem Numbered.distinct (hnumbered : Numbered table) : IdsDistinct table :=
  hnumbered.1.nodup (Nat.lt_of_le_of_lt hnumbered.2 (by decide))

theorem Numbered.add (hnumbered : Numbered table) (contentHash : ContentHash) (size : UInt32) :
    Numbered (memOptAddDedupEntry table contentHash size).1 := by
  rw [memOptAddDedupEntry]
  split_ifs with hfull
  · exact hnumbered
  cases table.entries.find? (hasHash contentHash) with
  | some entry =>
    refine ⟨hnumbered.1.updateFirst fun _ ↦ rfl, ?_⟩
    rw [updateFirst, List.length_modify]
    exact hnumbered.2
  | none =>
    refine ⟨hnumbered.1.concat rfl, ?_⟩
    rw [List.length_append]
    exact Nat.lt_of_not_le hfull

/-- Where the last entry is found by an id, it is the one that is removed. -/
theorem Numbered.remove (hnumbered : Numbered table) {dedupId : UInt32}
    (hlast : DedupCall.RemovesLast table (.remove dedupId)) :
    Numbered (memOptRemoveDedupEntry table dedupId).1 := by
  rw [memOptRemoveDedupEntry]
  cases hfind : table.entries.find? (hasDedupId dedupId) with
  | none => exact hnumbered
  | some entry =>
    obtain ⟨front, hfront⟩ := List.getLast?_eq_some_iff.mp (hlast entry hfind)
    have hid : entry.dedupId = dedupId := by
      have htest := List.find?_some hfind
      rwa [hasDedupId, decide_eq_true_eq] at htest
    have hdistinct := hnumbered.distinct
    rw [IdsDistinct, hfront] at hdistinct
    have hothers : ∀ other ∈ front, ¬ hasDedupId dedupId other = true := by
      intro other hother htest
      rw [hasDedupId, decide_eq_true_eq, ← hid] at htest
      rw [List.map_append, List.nodup_append] at hdistinct
      exact hdistinct.2.2 _ (List.mem_map_of_mem hother) _ (List.mem_singleton_self _) htest
    have herased : table.entries.eraseP (hasDedupId dedupId) = front := by
      rw [hfront, List.eraseP_append_right _ hothers, List.eraseP_cons_of_pos, List.append_nil]
      rw [hasDedupId, decide_eq_true_eq]
      exact hid
    refine ⟨?_, Nat.le_trans List.length_eraseP_le hnumbered.2⟩
    change NumberedFrom 1 _ (table.entries.eraseP (hasDedupId dedupId))
    rw [herased]
    have hnumbers := hnumbered.1
    rw [hfront] at hnumbers
    exact hnumbers.of_concat.1

theorem Numbered.step (hnumbered : Numbered table) {call : DedupCall}
    (hlast : call.RemovesLast table) : Numbered (dedupStep table call) := by
  cases call with
  | add contentHash size => exact hnumbered.add contentHash size
  | remove dedupId => exact hnumbered.remove hlast

/-- Hashes that hold a number in their first two bytes. -/
def numberedHash (i : ℕ) : ContentHash :=
  Vector.ofFn fun j ↦ UInt8.ofNat (if j = 0 then i else i / 256)

theorem numberedHash_injective {i j : ℕ} (hi : i < maxDedupEntries) (hj : j < maxDedupEntries)
    (hsame : numberedHash i = numberedHash j) : i = j := by
  have hbyte : ∀ place (hplace : place < 32),
      (numberedHash i)[place].toNat = (numberedHash j)[place].toNat := by
    intro place hplace
    rw [hsame]
  have hlow := hbyte 0 (by decide)
  have hhigh := hbyte 1 (by decide)
  simp [numberedHash] at hlow hhigh
  rw [maxDedupEntries] at hi hj
  omega

/-- A table that is not full lacks some hash. -/
theorem exists_new_hash (hroom : table.entries.length < maxDedupEntries) :
    ∃ contentHash, table.entries.find? (hasHash contentHash) = none := by
  by_contra hall
  have hsubset : (List.range maxDedupEntries).map numberedHash ⊆
      table.entries.map DedupEntry.contentHash := by
    intro contentHash hmem
    obtain ⟨entry, hfind⟩ := Option.ne_none_iff_exists'.mp (not_exists.mp hall contentHash)
    exact List.mem_map.mpr ⟨entry, List.mem_of_find?_eq_some hfind, contentHash_of_find? hfind⟩
  have hnodup : ((List.range maxDedupEntries).map numberedHash).Nodup :=
    List.Nodup.map_on (fun i hi j hj ↦
      numberedHash_injective (List.mem_range.mp hi) (List.mem_range.mp hj)) List.nodup_range
  have hlength := (hnodup.subperm hsubset).length_le
  rw [List.length_map, List.length_map, List.length_range] at hlength
  exact Nat.lt_irrefl _ (Nat.lt_of_lt_of_le hroom hlength)

/-- When another entry than the last one is removed, a new content gets the id of the last one. -/
theorem Numbered.damaged (hnumbered : Numbered table) {dedupId : UInt32}
    (hother : ¬ DedupCall.RemovesLast table (.remove dedupId)) :
    ∃ contentHash, ¬ IdsDistinct
      (memOptAddDedupEntry (memOptRemoveDedupEntry table dedupId).1 contentHash 0).1 := by
  obtain ⟨entry, hentry⟩ := not_forall.mp hother
  obtain ⟨hfind, hnotLast⟩ := Classical.not_imp.mp hentry
  have hmem := List.mem_of_find?_eq_some hfind
  obtain ⟨front, last, hfront⟩ :=
    (List.eq_nil_or_concat' table.entries).resolve_left (List.ne_nil_of_mem hmem)
  obtain ⟨-, hlastId⟩ := (hfront ▸ hnumbered.1).of_concat
  have hin : entry ∈ front := by
    rw [hfront, List.mem_append, List.mem_singleton] at hmem
    refine hmem.resolve_right fun hlast ↦ hnotLast ?_
    rw [hfront, hlast, List.getLast?_concat]
  have htest := List.find?_some hfind
  have hleft : (memOptRemoveDedupEntry table dedupId).1.entries =
      front.eraseP (hasDedupId dedupId) ++ [last] := by
    rw [memOptRemoveDedupEntry, hfind]
    change table.entries.eraseP _ = _
    rw [hfront, List.eraseP_append_left htest _ hin]
  have hlength : (memOptRemoveDedupEntry table dedupId).1.entries.length = front.length := by
    rw [hleft, List.length_append, List.length_eraseP_of_mem hin htest, List.length_singleton]
    exact Nat.sub_add_cancel (List.length_pos_of_mem hin)
  have hroom : (memOptRemoveDedupEntry table dedupId).1.entries.length < maxDedupEntries := by
    have hfits := hnumbered.2
    rw [hfront, List.length_append, List.length_singleton] at hfits
    rw [hlength]
    exact hfits
  obtain ⟨contentHash, hnew⟩ := exists_new_hash hroom
  refine ⟨contentHash, fun hdistinct ↦ ?_⟩
  rw [IdsDistinct, memOptAddDedupEntry, if_neg (Nat.not_le.mpr hroom), hnew] at hdistinct
  simp only [hlength] at hdistinct
  rw [hleft, List.append_assoc, List.map_append] at hdistinct
  have htwice := (List.nodup_append.mp hdistinct).2.1
  simp [hlastId] at htwice

/-- Over every run of additions and removals: every id stands for one entry, and does so however
contents are added later on, exactly when only last entries are removed. -/
theorem dedupIds_distinct_iff (calls : List DedupCall) :
    EveryStep dedupStep DedupCall.RemovesLast memOptInit calls ↔
      ∀ taken more, taken <+: calls → (∀ later ∈ more, DedupCall.Adds later) →
        EveryStep dedupStep (fun table call ↦ IdsDistinct (dedupStep table call)) memOptInit
          (taken ++ more) := by
  refine everyStep_iff_sound_continued Numbered DedupCall.Adds
    (fun _ _ hnumbered hlast ↦ hnumbered.step hlast) ?_
    (fun _ _ hnumbered hlast ↦ (hnumbered.step hlast).distinct) ?_ ⟨rfl, Nat.zero_le _⟩
  · intro table call hadds
    cases call with
    | add contentHash size => trivial
    | remove dedupId => exact hadds.elim
  · intro table call hnumbered hother
    cases call with
    | add contentHash size => exact absurd trivial hother
    | remove dedupId =>
      obtain ⟨contentHash, hdamaged⟩ := hnumbered.damaged hother
      refine ⟨[.add contentHash 0], fun later hlater ↦ ?_, fun hsound ↦ ?_⟩
      · rw [List.mem_singleton.mp hlater]
        trivial
      · exact hdamaged (everyStep_cons.mp hsound).1

end OneOS.Memory.Deduplication
