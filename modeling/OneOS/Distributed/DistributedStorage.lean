import OneOS.Foundation.CStrings
import OneOS.Foundation.Compaction
import OneOS.Foundation.Runs
import OneOS.Foundation.Table

/-!
# The distributed storage

`distributed-systems/distributed_storage.c`: blocks of data under keys, in the order in which they
were put. A put always appends a block, a delete marks the first block with its key as a tombstone,
and a read takes the first block with its key that is not one. Tombstones are removed by
`storage_cleanup_tombstones`.

So the storage is a map as long as no key has two blocks that are alive with different values, and
no delete leaves one alive. `readsContents_iff` says exactly which runs keep it a map: a put over a
live block, and a delete of a key with a live block behind its first one, break it
(`LeavesMap`).

Left out are the checks of pointers, the address of the node, the strategy and the level of
consistency, which are never read, and of a replica everything but its id.
-/

set_option autoImplicit false
set_option relaxedAutoImplicit false

namespace OneOS.Distributed.Storage

open Foundation

/-! ### The storage -/

/-- `MAX_DATA_BLOCKS`. -/
def maxDataBlocks : ℕ := 100000

/-- `MAX_KEY_LEN`. -/
def maxKeyLen : ℕ := 256

/-- `MAX_VALUE_LEN`. -/
def maxValueLen : ℕ := 1048576

/-- `MAX_REPLICATION_JOBS`. -/
def maxReplicationJobs : ℕ := 128

/-- `DataBlock`. The length of the value is its `value_size`. -/
structure DataBlock where
  key : CString
  value : List UInt8
  version : UInt64
  replicas : List UInt32
  isTombstone : Bool
  deriving DecidableEq, Repr

/-- `ReplicationJob`. -/
structure ReplicationJob where
  replicationJobId : UInt32
  sourceReplicaId : UInt32
  targetReplicaId : UInt32
  blocksToReplicate : UInt64
  deriving DecidableEq, Repr

/-- `DistributedStorage`, with the counter that numbers jobs. -/
structure DistributedStorage where
  replicas : List UInt32
  dataBlocks : List DataBlock
  replicationFactor : UInt32
  totalReadOps : UInt64
  totalWriteOps : UInt64
  totalDeleteOps : UInt64
  totalBytesReplicated : UInt64
  replicationJobs : List ReplicationJob
  nextJobId : UInt32
  deriving DecidableEq, Repr

/-- `distributed_storage_init`. The counter that numbers jobs is shared by all storages of a process
and keeps its value. -/
def distributedStorageInit (nextJobId : UInt32) : DistributedStorage where
  replicas := []
  dataBlocks := []
  replicationFactor := 3
  totalReadOps := 0
  totalWriteOps := 0
  totalDeleteOps := 0
  totalBytesReplicated := 0
  replicationJobs := []
  nextJobId := nextJobId

/-- `storage_start_replication`. -/
def storageStartReplication (storage : DistributedStorage) (source target : UInt32) :
    DistributedStorage × Int :=
  if maxReplicationJobs ≤ storage.replicationJobs.length then (storage, -1)
  else
    ({ storage with
      replicationJobs := storage.replicationJobs ++
        [{ replicationJobId := storage.nextJobId
           sourceReplicaId := source
           targetReplicaId := target
           blocksToReplicate := UInt64.ofNat storage.dataBlocks.length }]
      nextJobId := storage.nextJobId + 1 }, 0)

/-- The replicas that a new block is given. -/
def DistributedStorage.blockReplicas (storage : DistributedStorage) : List UInt32 :=
  storage.replicas.take
    (if storage.replicationFactor.toNat < storage.replicas.length then
      storage.replicationFactor.toNat else storage.replicas.length)

/-- `storage_put`. -/
def storagePut (storage : DistributedStorage) (key : CString) (value : List UInt8) :
    DistributedStorage × Int :=
  if maxValueLen < value.length then (storage, -1)
  else if maxDataBlocks ≤ storage.dataBlocks.length then (storage, -1)
  else
    let block : DataBlock :=
      { key := key.take (maxKeyLen - 1)
        value := value
        version := 1
        replicas := storage.blockReplicas
        isTombstone := false }
    let stored :=
      { storage with
        dataBlocks := storage.dataBlocks ++ [block]
        totalWriteOps := storage.totalWriteOps + 1
        totalBytesReplicated := storage.totalBytesReplicated +
          UInt64.ofNat (value.length * block.replicas.length) }
    (block.replicas.foldl
      (fun started target ↦ (storageStartReplication started 0 target).1) stored, 0)

/-- The block has the key and is not a tombstone. -/
def liveAt (key : CString) (block : DataBlock) : Bool :=
  block.key = key && !block.isTombstone

/-- `storage_get`: the value that is copied out, or none when the call fails. -/
def storageGet (storage : DistributedStorage) (key : CString) :
    DistributedStorage × Option (List UInt8) :=
  match storage.dataBlocks.find? (liveAt key) with
  | some block => ({ storage with totalReadOps := storage.totalReadOps + 1 }, some block.value)
  | none => (storage, none)

/-- `storage_delete`. It marks the first block with the key, also when that is a tombstone. -/
def storageDelete (storage : DistributedStorage) (key : CString) : DistributedStorage × Int :=
  match storage.dataBlocks.find? fun block ↦ block.key = key with
  | some _ =>
    ({ storage with
      dataBlocks := updateFirst (fun block ↦ block.key = key)
        (fun block ↦ { block with isTombstone := true }) storage.dataBlocks
      totalDeleteOps := storage.totalDeleteOps + 1 }, 0)
  | none => (storage, -1)

/-- `storage_exists`. -/
def storageExists (storage : DistributedStorage) (key : CString) : Int :=
  if storage.dataBlocks.any (liveAt key) then 1 else 0

/-- `storage_cleanup_tombstones`. -/
def storageCleanupTombstones (storage : DistributedStorage) : DistributedStorage × Int :=
  ({ storage with dataBlocks := storage.dataBlocks.filter fun block ↦ !block.isTombstone }, 0)

/-! ### Calls -/

/-- A call to the storage. -/
inductive StorageCall
  | put (key : CString) (value : List UInt8)
  | get (key : CString)
  | delete (key : CString)
  | cleanupTombstones

/-- What a call does to the storage. -/
def storageStep (storage : DistributedStorage) : StorageCall → DistributedStorage
  | .put key value => (storagePut storage key value).1
  | .get key => (storageGet storage key).1
  | .delete key => (storageDelete storage key).1
  | .cleanupTombstones => (storageCleanupTombstones storage).1

/-- The key of the call is shorter than `MAX_KEY_LEN`. -/
def StorageCall.keyFits : StorageCall → Prop
  | .put key _ => key.length < maxKeyLen
  | .get key => key.length < maxKeyLen
  | .delete key => key.length < maxKeyLen
  | .cleanupTombstones => True

/-! ### The map -/

/-- What the storage should hold. -/
abbrev Contents := CString → Option (List UInt8)

/-- What the storage should hold after a call. -/
def contentsAfter (storage : DistributedStorage) (call : StorageCall) (contents : Contents) :
    Contents :=
  match call with
  | .put key value =>
    if (storagePut storage key value).2 = 0 then Function.update contents key (some value)
    else contents
  | .delete key =>
    if (storageDelete storage key).2 = 0 then Function.update contents key none else contents
  | _ => contents

/-- The storage is the map: a read of a key returns what was last put there and not deleted since,
and fails where nothing is, which `storage_exists` agrees with. -/
structure ReadsContents (traced : DistributedStorage × Contents) : Prop where
  reads : ∀ key, (storageGet traced.1 key).2 = traced.2 key
  tells : ∀ key, storageExists traced.1 key = if (traced.2 key).isSome then 1 else 0

/-- The condition on a call. A put that is accepted finds no live block with its key, or the first
one holds the same value; a delete finds no live block with its key behind the first block that has
it. -/
def LeavesMap (storage : DistributedStorage) : StorageCall → Prop
  | .put key value =>
    value.length ≤ maxValueLen → storage.dataBlocks.length < maxDataBlocks →
      ∀ block, storage.dataBlocks.find? (liveAt key) = some block →
        block.value = value
  | .delete key =>
    ∀ block ∈ (storage.dataBlocks.filter fun block ↦ block.key = key).tail,
      block.isTombstone = true
  | _ => True

/-! ### What is read -/

/-- The value of the first live block with a key. -/
def valueAt (blocks : List DataBlock) (key : CString) : Option (List UInt8) :=
  (blocks.find? (liveAt key)).map DataBlock.value

variable {storage : DistributedStorage} {blocks : List DataBlock} {contents : Contents}
variable {key other : CString} {value : List UInt8}

theorem storageGet_snd : (storageGet storage key).2 = valueAt storage.dataBlocks key := by
  unfold storageGet valueAt
  cases storage.dataBlocks.find? (liveAt key) with
  | none => rfl
  | some block => rfl

theorem storageExists_eq :
    storageExists storage key = if (valueAt storage.dataBlocks key).isSome then 1 else 0 := by
  unfold storageExists valueAt
  rw [Option.isSome_map]
  exact if_congr (by rw [List.any_eq_true, List.find?_isSome]) rfl rfl

theorem readsContents_iff_valueAt :
    ReadsContents (storage, contents) ↔ valueAt storage.dataBlocks = contents := by
  constructor
  · intro hmap
    funext key
    exact storageGet_snd.symm.trans (hmap.reads key)
  · rintro rfl
    exact ⟨fun key ↦ storageGet_snd, fun key ↦ storageExists_eq⟩

theorem liveAt_eq_true_iff {block : DataBlock} :
    liveAt key block = true ↔ block.key = key ∧ block.isTombstone = false := by
  simp [liveAt]

/-- A block that is appended is read when no block before it is. -/
theorem valueAt_concat {block : DataBlock} (hlive : block.isTombstone = false) :
    valueAt (blocks ++ [block]) other =
      (valueAt blocks other).or (if block.key = other then some block.value else none) := by
  unfold valueAt
  rw [List.find?_append, Option.map_or]
  congr 1
  by_cases hkey : block.key = other
  · rw [List.find?_cons_of_pos (liveAt_eq_true_iff.mpr ⟨hkey, hlive⟩), if_pos hkey, Option.map_some]
  · rw [List.find?_cons_of_neg (fun hat ↦ hkey (liveAt_eq_true_iff.mp hat).1), if_neg hkey,
      List.find?_nil, Option.map_none]

/-- Removing tombstones does not affect what is read. -/
theorem valueAt_filter_live :
    valueAt (blocks.filter fun block ↦ !block.isTombstone) key = valueAt blocks key := by
  have hlive : ∀ block : DataBlock, liveAt key block = true → (!block.isTombstone) = true := by
    intro block hread
    rw [(liveAt_eq_true_iff.mp hread).2, Bool.not_false]
  rw [valueAt, find?_filter_live hlive, valueAt]

/-- A delete does not affect what is read at other keys. -/
theorem valueAt_delete_of_ne (hother : other ≠ key) :
    valueAt (updateFirst (fun block ↦ block.key = key)
      (fun block ↦ { block with isTombstone := true }) blocks) other = valueAt blocks other := by
  cases hfind : blocks.find? fun block ↦ block.key = key with
  | none => rw [updateFirst_of_find?_eq_none hfind]
  | some row =>
    obtain ⟨before, after, rfl, hrow, -, hupdate⟩ := updateFirst_split hfind
    have hkey : row.key = key := of_decide_eq_true hrow
    have hne : ∀ block : DataBlock, block.key = key → ¬ liveAt other block = true :=
      fun block hblock hlive ↦ hother ((liveAt_eq_true_iff.mp hlive).1.symm.trans hblock)
    have hdead : ¬ liveAt other { row with isTombstone := true } = true := hne _ hkey
    rw [hupdate, valueAt, valueAt, List.find?_append, List.find?_append,
      List.find?_cons_of_neg hdead, List.find?_cons_of_neg (hne row hkey)]

/-- After a delete nothing is read at its key exactly when the blocks with the key behind the first
one are tombstones. -/
theorem valueAt_delete_self :
    valueAt (updateFirst (fun block ↦ block.key = key)
      (fun block ↦ { block with isTombstone := true }) blocks) key = none ↔
        ∀ block ∈ (blocks.filter fun block ↦ block.key = key).tail, block.isTombstone = true := by
  cases hfind : blocks.find? fun block ↦ block.key = key with
  | none =>
    have hnone : ∀ block ∈ blocks, ¬ block.key = key := by simpa using hfind
    have hfilter : (blocks.filter fun block ↦ block.key = key) = [] := by simpa using hnone
    rw [updateFirst_of_find?_eq_none hfind, hfilter, valueAt, Option.map_eq_none_iff,
      List.find?_eq_none]
    refine iff_of_true (fun block hblock hlive ↦ ?_) (by simp)
    exact hnone block hblock (liveAt_eq_true_iff.mp hlive).1
  | some row =>
    obtain ⟨before, after, rfl, hrow, hbefore, hupdate⟩ := updateFirst_split hfind
    have hfilter : ((before ++ row :: after).filter fun block ↦ block.key = key).tail =
        after.filter fun block ↦ block.key = key := by
      have hnone : (before.filter fun block ↦ block.key = key) = [] := by simpa using hbefore
      rw [List.filter_append, hnone, List.nil_append,
        List.filter_cons_of_pos (p := fun block : DataBlock ↦ decide (block.key = key)) hrow,
        List.tail_cons]
    have hearlier : before.find? (liveAt key) = none := by
      rw [List.find?_eq_none]
      intro block hblock hlive
      have hkey := hbefore block hblock
      rw [decide_eq_false_iff_not] at hkey
      exact hkey (liveAt_eq_true_iff.mp hlive).1
    have hdead : ¬ liveAt key { row with isTombstone := true } = true := by
      intro hlive
      exact absurd (liveAt_eq_true_iff.mp hlive).2 (by simp)
    rw [hupdate, hfilter, valueAt, Option.map_eq_none_iff, List.find?_append, hearlier,
      Option.none_or, List.find?_cons_of_neg hdead, List.find?_eq_none]
    constructor
    · intro hnone block hblock
      obtain ⟨hmem, hkey⟩ := List.mem_filter.mp hblock
      by_contra hlive
      exact hnone block hmem
        (liveAt_eq_true_iff.mpr ⟨of_decide_eq_true hkey, Bool.not_eq_true _ ▸ hlive⟩)
    · intro hall block hblock hlive
      obtain ⟨hkey, halive⟩ := liveAt_eq_true_iff.mp hlive
      have hdead := hall block (List.mem_filter.mpr ⟨hblock, decide_eq_true hkey⟩)
      rw [halive] at hdead
      exact Bool.false_ne_true hdead

/-! ### What the calls do -/

/-- Starting jobs leaves the blocks. -/
theorem dataBlocks_startReplication (source : UInt32) (targets : List UInt32)
    (storage : DistributedStorage) :
    (targets.foldl (fun started target ↦ (storageStartReplication started source target).1)
      storage).dataBlocks = storage.dataBlocks := by
  induction targets generalizing storage with
  | nil => rfl
  | cons target targets ih =>
    rw [List.foldl_cons, ih, storageStartReplication]
    split_ifs <;> rfl

/-- What a put does: it is refused and leaves the storage, or it appends a live block. -/
theorem storagePut_cases (hfits : key.length < maxKeyLen) :
    (storagePut storage key value).1 = storage ∧ (storagePut storage key value).2 ≠ 0 ∧
        ¬ (value.length ≤ maxValueLen ∧ storage.dataBlocks.length < maxDataBlocks) ∨
      (∃ block : DataBlock, (storagePut storage key value).1.dataBlocks =
          storage.dataBlocks ++ [block] ∧ block.key = key ∧ block.value = value ∧
            block.isTombstone = false) ∧
        (storagePut storage key value).2 = 0 ∧
          value.length ≤ maxValueLen ∧ storage.dataBlocks.length < maxDataBlocks := by
  have hrefused : (-1 : Int) ≠ 0 := by decide
  unfold storagePut
  split_ifs with hvalue hblocks
  · exact Or.inl ⟨rfl, hrefused, fun hroom ↦ absurd hroom.1 (Nat.not_le.mpr hvalue)⟩
  · exact Or.inl ⟨rfl, hrefused, fun hroom ↦ absurd hroom.2 (Nat.not_lt.mpr hblocks)⟩
  · refine Or.inr ⟨⟨_, dataBlocks_startReplication _ _ _, ?_, rfl, rfl⟩, rfl,
      Nat.not_lt.mp hvalue, Nat.not_le.mp hblocks⟩
    exact List.take_of_length_le (Nat.le_sub_one_of_lt hfits)

/-- What a delete does: it finds no block with its key and leaves the storage, or it marks the first
one. -/
theorem storageDelete_cases (storage : DistributedStorage) (key : CString) :
    (storageDelete storage key).1 = storage ∧ (storageDelete storage key).2 ≠ 0 ∧
        (storage.dataBlocks.filter fun block ↦ block.key = key) = [] ∨
      (storageDelete storage key).1.dataBlocks = updateFirst (fun block ↦ block.key = key)
          (fun block ↦ { block with isTombstone := true }) storage.dataBlocks ∧
        (storageDelete storage key).2 = 0 := by
  unfold storageDelete
  cases hfind : storage.dataBlocks.find? fun block ↦ block.key = key with
  | none =>
    refine Or.inl ⟨rfl, show (-1 : Int) ≠ 0 by decide, ?_⟩
    simpa using hfind
  | some block => exact Or.inr ⟨rfl, rfl⟩

/-! ### Runs -/

/-- A call keeps the storage a map exactly when it meets the condition. -/
theorem readsContents_step_iff (call : StorageCall) (hfits : call.keyFits)
    (hmap : ReadsContents (storage, contents)) :
    ReadsContents (storageStep storage call, contentsAfter storage call contents) ↔
      LeavesMap storage call := by
  obtain rfl := readsContents_iff_valueAt.mp hmap
  rw [readsContents_iff_valueAt]
  cases call with
  | put key value =>
    rw [storageStep, contentsAfter, LeavesMap]
    rcases storagePut_cases hfits with ⟨hsame, hrefused, hroom⟩ | ⟨⟨block, hblocks, hkey, hvalue,
      hlive⟩, haccepted, hlength, hroom⟩
    · rw [hsame, if_neg hrefused]
      exact iff_of_true rfl fun hlength hblocks ↦ absurd ⟨hlength, hblocks⟩ hroom
    · rw [hblocks, if_pos haccepted]
      constructor
      · intro hafter _ _ first hfirst
        have hself := congrFun hafter key
        rw [valueAt_concat hlive, Function.update_self, valueAt, hfirst, Option.map_some,
          Option.some_or, Option.some.injEq] at hself
        exact hself
      · intro hcondition
        funext other
        rw [valueAt_concat hlive, hkey]
        by_cases hother : key = other
        · rw [if_pos hother, ← hother, Function.update_self, valueAt, hvalue]
          cases hfirst : storage.dataBlocks.find? (liveAt key) with
          | none => rw [Option.map_none, Option.none_or]
          | some first =>
            rw [Option.map_some, Option.some_or, hcondition hlength hroom first hfirst]
        · rw [if_neg hother, Option.or_none, Function.update_of_ne (Ne.symm hother)]
  | get key =>
    rw [storageStep, storageGet]
    split <;> exact iff_of_true rfl trivial
  | delete key =>
    rw [storageStep, contentsAfter, LeavesMap]
    rcases storageDelete_cases storage key with ⟨hsame, hmissing, hnone⟩ |
      ⟨hblocks, hdeleted⟩
    · rw [hsame, if_neg hmissing, hnone]
      exact iff_of_true rfl (by simp)
    · rw [hblocks, if_pos hdeleted, ← valueAt_delete_self]
      constructor
      · intro hafter
        rw [hafter, Function.update_self]
      · intro hself
        funext other
        by_cases hother : other = key
        · rw [hother, hself, Function.update_self]
        · rw [valueAt_delete_of_ne hother, Function.update_of_ne hother]
  | cleanupTombstones =>
    exact iff_of_true (funext fun key ↦ valueAt_filter_live) trivial

/-- The storage is a map along a run of calls with keys shorter than `MAX_KEY_LEN` exactly when
every accepted put finds no live block with its key and another value, and every delete finds no
live block with its key behind the first one. Assumes: the storage starts without blocks. -/
theorem readsContents_iff (storage : DistributedStorage) (hempty : storage.dataBlocks = [])
    (calls : List StorageCall) (hkeys : ∀ call ∈ calls, call.keyFits) :
    AlongRun (withTrace storageStep contentsAfter) ReadsContents (storage, fun _ ↦ none) calls ↔
      EveryStep storageStep LeavesMap storage calls := by
  have htraced : EveryStep (withTrace storageStep contentsAfter)
      (fun traced call ↦ LeavesMap traced.1 call) (storage, fun _ ↦ none) calls ↔
        EveryStep storageStep LeavesMap storage calls := everyStep_withTrace
  rw [← htraced]
  refine alongRun_iff_everyStep (fun _ ↦ True) (fun _ call ↦ call.keyFits)
    (fun _ _ _ _ ↦ trivial) (fun traced call _ hfits hmap ↦ ?_) trivial ?_
    (everyStep_of_forall_mem hkeys)
  · exact readsContents_step_iff call hfits hmap
  · rw [readsContents_iff_valueAt, hempty]
    rfl

/-- A key that is deleted before it is put again. -/
theorem readsContents_delete_between_puts :
    AlongRun (withTrace storageStep contentsAfter) ReadsContents
      (distributedStorageInit 1, fun _ ↦ none)
      [.put [⟨97, by decide⟩] [1], .delete [⟨97, by decide⟩], .put [⟨97, by decide⟩] [2]] := by
  refine (readsContents_iff _ rfl _ ?_).mpr ?_
  · simp [StorageCall.keyFits, maxKeyLen]
  · simp [LeavesMap, storageStep, storagePut, storageDelete, distributedStorageInit, updateFirst,
      DistributedStorage.blockReplicas, maxDataBlocks, maxValueLen, maxKeyLen, liveAt]

/-- A key that is put twice is read with the first of the two values. -/
theorem not_readsContents_put_twice :
    (distributedStorageInit 1).dataBlocks = [] ∧
      ¬ AlongRun (withTrace storageStep contentsAfter) ReadsContents
        (distributedStorageInit 1, fun _ ↦ none)
        [.put [⟨97, by decide⟩] [1], .put [⟨97, by decide⟩] [2]] := by
  refine ⟨rfl, fun hmap ↦ ?_⟩
  have hread := (hmap _ (List.prefix_refl _)).reads [⟨97, by decide⟩]
  revert hread
  decide

end OneOS.Distributed.Storage
