import OneOS.Foundation.CStrings
import OneOS.Foundation.NumberedTable
import OneOS.Foundation.PartialRuns
import OneOS.Foundation.Runs
import OneOS.Foundation.Table

/-!
# The distributed cache

`services/dist_cache.c`: caches of values under keys. A cache has nodes, a node has 16 partitions,
and the hash of a key says in which node and partition its entry is. The buffer of an entry is
allocated when the entry is made; a put of a key that is there copies the new value into that
buffer.

Values fit their buffers as long as no put of a key that is there has a value that is longer than
the one that its entry was made for. `valuesFit_iff`: the values fit along a run exactly when no put
of the run is of that kind (`PutFits`). The calls alone (`cacheStep`) keep such a value whole. What
the source writes behind the buffer may hit anything on the heap, so a run of the program
(`cachesStep`) ends there, and it is the same as long as all puts fit (`overruns_eq_false_iff`).

Every function but `dcache_create` finds its cache by the id first and fails without one: that is
`callOn`. Left out are the checks of pointers and the functions that do nothing. The time of a call,
and whether there is memory for a new value, are inputs.
-/

set_option autoImplicit false
set_option relaxedAutoImplicit false

namespace OneOS.Caching

open Foundation

/-! ### Caches -/

/-- The number of caches that there is room for. -/
def maxCaches : ℕ := 8

/-- `MAX_CACHE_ENTRIES`. -/
def maxCacheEntries : ℕ := 8192

/-- `MAX_CACHE_NODES`. -/
def maxCacheNodes : ℕ := 64

/-- `MAX_KEY_SIZE`. -/
def maxKeySize : ℕ := 256

/-- `MAX_VALUE_SIZE`. -/
def maxValueSize : ℕ := 65536

/-- `MAX_CACHE_PARTITIONS`. -/
def maxCachePartitions : ℕ := 16

/-- `CacheEvictionPolicy`. -/
inductive CacheEvictionPolicy
  | lru
  | lfu
  | arc
  | fifo
  deriving DecidableEq, Repr

/-- `CacheEntry`. The length of the value is its `value_size`, and `buffer` is how many bytes were
allocated for it. -/
structure CacheEntry where
  key : CString
  value : List UInt8
  buffer : ℕ
  creationTime : UInt64
  lastAccessTime : UInt64
  accessCount : UInt32
  ttlSeconds : UInt32
  isExpired : Bool
  deriving DecidableEq, Repr

/-- `CachePartition`. -/
structure CachePartition where
  partitionId : UInt32
  entries : List CacheEntry
  hits : UInt64
  misses : UInt64
  bytesUsed : UInt64
  maxBytes : UInt32
  deriving DecidableEq, Repr

/-- `CacheNode`. -/
structure CacheNode where
  nodeId : UInt32
  ipAddress : UInt32
  port : UInt16
  isPrimary : Bool
  isAlive : Bool
  lastHeartbeat : UInt64
  partitions : Fin maxCachePartitions → CachePartition

/-- `DistributedCache`. -/
structure DistributedCache where
  cacheId : UInt32
  name : CString
  nodes : List CacheNode
  evictionPolicy : CacheEvictionPolicy
  maxMemoryMb : UInt32
  partitionCount : UInt32
  totalHits : UInt64
  totalMisses : UInt64
  totalBytesStored : UInt64
  enableReplication : Bool

/-- `dcache_create`. -/
def dcacheCreate (caches : List DistributedCache) (name : CString) (policy : CacheEvictionPolicy)
    (maxMemoryMb : UInt32) : List DistributedCache × Int :=
  if maxCaches ≤ caches.length then (caches, -1)
  else
    let cacheId := UInt32.ofNat (caches.length + 1)
    (caches ++
      [{ cacheId := cacheId
         name := name.take 63
         nodes := []
         evictionPolicy := policy
         maxMemoryMb := maxMemoryMb
         partitionCount := UInt32.ofNat maxCachePartitions
         totalHits := 0
         totalMisses := 0
         totalBytesStored := 0
         enableReplication := false }], cacheId.toInt32.toInt)

/-! ### Nodes -/

/-- `dcache_add_node`, on its cache. -/
def DistributedCache.addNode (cache : DistributedCache) (ip : UInt32) (port : UInt16)
    (now : UInt64) : DistributedCache × Int :=
  if maxCacheNodes ≤ cache.nodes.length then (cache, -1)
  else
    let nodeId := UInt32.ofNat (cache.nodes.length + 1)
    ({ cache with
      nodes := cache.nodes ++
        [{ nodeId := nodeId
           ipAddress := ip
           port := port
           isPrimary := cache.nodes.length = 0
           isAlive := true
           lastHeartbeat := now
           partitions := fun i ↦
             { partitionId := UInt32.ofNat i
               entries := []
               hits := 0
               misses := 0
               bytesUsed := 0
               maxBytes := cache.maxMemoryMb * 1024 * 1024 / UInt32.ofNat maxCachePartitions } }] },
      nodeId.toInt32.toInt)

/-- The id names a node of the cache. -/
def DistributedCache.hasNode (cache : DistributedCache) (nodeId : UInt32) : Bool :=
  nodeId ≠ 0 && nodeId.toNat ≤ cache.nodes.length

/-- `dcache_remove_node`, on its cache. -/
def DistributedCache.removeNode (cache : DistributedCache) (nodeId : UInt32) :
    DistributedCache × Int :=
  if cache.hasNode nodeId then
    ({ cache with nodes := cache.nodes.eraseIdx (nodeId.toNat - 1) }, 0)
  else (cache, -1)

/-- `dcache_promote_replica`, on its cache. -/
def DistributedCache.promoteReplica (cache : DistributedCache) (nodeId : UInt32) :
    DistributedCache × Int :=
  if cache.hasNode nodeId then
    ({ cache with
      nodes := (cache.nodes.map fun node ↦ { node with isPrimary := false }).modify
        (nodeId.toNat - 1) fun node ↦ { node with isPrimary := true } }, 0)
  else (cache, -1)

/-- `dcache_enable_replication`, on its cache. -/
def DistributedCache.replicate (cache : DistributedCache) (numReplicas : UInt8) :
    DistributedCache × Int :=
  if cache.nodes.length < numReplicas.toNat then (cache, -1)
  else ({ cache with enableReplication := true }, 0)

/-- `dcache_sync_node`, on its cache. -/
def DistributedCache.syncNode (cache : DistributedCache) (nodeId : UInt32) (now : UInt64) :
    DistributedCache × Int :=
  if cache.hasNode nodeId then
    ({ cache with
      nodes := cache.nodes.modify (nodeId.toNat - 1) fun node ↦
        { node with lastHeartbeat := now } }, 0)
  else (cache, -1)

/-! ### Where a key is -/

/-- `dcache_hash_key`. -/
def dcacheHashKey (key : CString) : UInt32 :=
  xorHash key

/-- `dcache_get_partition_for_key`, once its cache is found. -/
def dcacheGetPartitionForKey (key : CString) : Fin maxCachePartitions :=
  ⟨(dcacheHashKey key % 16).toNat, by
    rw [UInt32.toNat_mod]
    exact Nat.mod_lt _ (by decide)⟩

/-- The position of the node that a key belongs to. -/
def DistributedCache.nodeFor (cache : DistributedCache) (key : CString) : ℕ :=
  (dcacheHashKey key % UInt32.ofNat cache.nodes.length).toNat

/-- The partition that a key belongs to. A cache without nodes has none. -/
def DistributedCache.partitionOf (cache : DistributedCache) (key : CString) :
    Option CachePartition :=
  cache.nodes[cache.nodeFor key]?.map fun node ↦ node.partitions (dcacheGetPartitionForKey key)

/-- Write the partition that a key belongs to. -/
def DistributedCache.setPartition (cache : DistributedCache) (key : CString)
    (partition : CachePartition) : DistributedCache :=
  { cache with
    nodes := cache.nodes.modify (cache.nodeFor key) fun node ↦
      { node with
        partitions := Function.update node.partitions (dcacheGetPartitionForKey key) partition } }

/-- The entry has the key. -/
def CacheEntry.hasKey (key : CString) (entry : CacheEntry) : Bool :=
  entry.key = key

/-- The first entry of the partition with the key. -/
def CachePartition.find (partition : CachePartition) (key : CString) : Option CacheEntry :=
  partition.entries.find? (CacheEntry.hasKey key)

/-- Change the first entry of the partition with the key. -/
def CachePartition.change (partition : CachePartition) (key : CString)
    (change : CacheEntry → CacheEntry) : CachePartition :=
  { partition with entries := updateFirst (CacheEntry.hasKey key) change partition.entries }

/-! ### Entries -/

/-- `dcache_put`, on its cache. A put of a key that is there copies the value into the buffer that
the entry has; one that is longer than the buffer is written behind it (`CacheCall.overruns`), and
what that does to other data is not described here. -/
def DistributedCache.put (cache : DistributedCache) (key : CString) (value : List UInt8)
    (ttlSeconds : UInt32) (now : UInt64) (malloc : Bool) : DistributedCache × Int :=
  if maxValueSize < value.length then (cache, -1)
  else
    match cache.partitionOf key with
    | none => (cache, -1)
    | some partition =>
      match partition.find key with
      | some old =>
        (cache.setPartition key
          { partition.change key fun entry ↦
              { entry with
                value := value
                lastAccessTime := now
                ttlSeconds := ttlSeconds
                isExpired := false } with
            bytesUsed := partition.bytesUsed - UInt64.ofNat old.value.length +
              UInt64.ofNat value.length }, 0)
      | none =>
        if maxCacheEntries ≤ partition.entries.length then (cache, -1)
        else if malloc then
          ({ cache.setPartition key
              { partition with
                entries := partition.entries ++
                  [{ key := key.take (maxKeySize - 1)
                     value := value
                     buffer := value.length
                     creationTime := now
                     lastAccessTime := now
                     accessCount := 0
                     ttlSeconds := ttlSeconds
                     isExpired := false }]
                bytesUsed := partition.bytesUsed + UInt64.ofNat value.length } with
            totalBytesStored := cache.totalBytesStored + UInt64.ofNat value.length }, 0)
        else (cache, -1)

/-- The time to live of the entry is over. -/
def CacheEntry.outlived (entry : CacheEntry) (now : UInt64) : Bool :=
  0 < entry.ttlSeconds && entry.ttlSeconds.toUInt64 < now - entry.creationTime

/-- Count a miss. -/
def DistributedCache.miss (cache : DistributedCache) (key : CString) (partition : CachePartition) :
    DistributedCache × Option (List UInt8) :=
  ({ cache.setPartition key { partition with misses := partition.misses + 1 } with
    totalMisses := cache.totalMisses + 1 }, none)

/-- `dcache_get`, on its cache: the value that is returned, if any. -/
def DistributedCache.get (cache : DistributedCache) (key : CString) (now : UInt64) :
    DistributedCache × Option (List UInt8) :=
  match cache.partitionOf key with
  | none => (cache, none)
  | some partition =>
    match partition.find key with
    | none => cache.miss key partition
    | some entry =>
      if entry.isExpired then cache.miss key partition
      else if entry.outlived now then
        cache.miss key (partition.change key fun entry ↦ { entry with isExpired := true })
      else
        ({ cache.setPartition key
            { partition.change key fun entry ↦
                { entry with
                  lastAccessTime := now
                  accessCount := entry.accessCount + 1 } with
              hits := partition.hits + 1 } with
          totalHits := cache.totalHits + 1 }, some entry.value)

/-- `dcache_delete`, on its cache. -/
def DistributedCache.delete (cache : DistributedCache) (key : CString) : DistributedCache × Int :=
  match cache.partitionOf key with
  | none => (cache, -1)
  | some partition =>
    match partition.find key with
    | none => (cache, -1)
    | some entry =>
      ({ cache.setPartition key
          { partition with
            entries := partition.entries.eraseP (CacheEntry.hasKey key)
            bytesUsed := partition.bytesUsed - UInt64.ofNat entry.value.length } with
        totalBytesStored := cache.totalBytesStored - UInt64.ofNat entry.value.length }, 0)

/-- `dcache_exists`, on its cache: it is a get. -/
def DistributedCache.exists (cache : DistributedCache) (key : CString) (now : UInt64) :
    DistributedCache × Int :=
  ((cache.get key now).1, if (cache.get key now).2.isSome then 1 else 0)

/-- `dcache_update_ttl`, on its cache. -/
def DistributedCache.updateTtl (cache : DistributedCache) (key : CString) (ttlSeconds : UInt32) :
    DistributedCache × Int :=
  match cache.partitionOf key with
  | none => (cache, -1)
  | some partition =>
    match partition.find key with
    | none => (cache, -1)
    | some _ =>
      (cache.setPartition key
        (partition.change key fun entry ↦ { entry with ttlSeconds := ttlSeconds }), 0)

/-- Change every partition of every node of the cache. -/
def DistributedCache.mapPartitions (cache : DistributedCache)
    (change : CachePartition → CachePartition) : DistributedCache :=
  { cache with
    nodes := cache.nodes.map fun node ↦
      { node with partitions := fun i ↦ change (node.partitions i) } }

/-- All entries of the cache. -/
def DistributedCache.entries (cache : DistributedCache) : List CacheEntry :=
  cache.nodes.flatMap fun node ↦ (List.finRange _).flatMap fun i ↦ (node.partitions i).entries

/-- `dcache_expire_old_entries`, on its cache. -/
def DistributedCache.expireOldEntries (cache : DistributedCache) (now : UInt64) :
    DistributedCache × Int :=
  (cache.mapPartitions fun partition ↦
    { partition with
      entries := partition.entries.map fun entry ↦
        if entry.outlived now then { entry with isExpired := true } else entry },
    (cache.entries.countP fun entry ↦ entry.outlived now : ℕ))

/-- `dcache_flush_all`, on its cache. -/
def DistributedCache.flushAll (cache : DistributedCache) : DistributedCache × Int :=
  ({ cache.mapPartitions fun partition ↦
      { partition with entries := [], bytesUsed := 0, hits := 0, misses := 0 } with
    totalBytesStored := 0
    totalHits := 0
    totalMisses := 0 }, 0)

/-- An entry that `dcache_cleanup_expired` removes. Its age is taken as a uint32_t. -/
def CacheEntry.isOver (entry : CacheEntry) (now : UInt64) : Bool :=
  entry.isExpired || (0 < entry.ttlSeconds &&
    entry.ttlSeconds < (now - entry.creationTime).toUInt32)

/-- How many bytes the values of the entries have. -/
def bytesOf (entries : List CacheEntry) : UInt64 :=
  UInt64.ofNat (entries.map fun entry ↦ entry.value.length).sum

/-- `dcache_cleanup_expired`, on its cache. -/
def DistributedCache.cleanupExpired (cache : DistributedCache) (now : UInt64) :
    DistributedCache × Int :=
  ({ cache.mapPartitions fun partition ↦
      { partition with
        entries := partition.entries.filter fun entry ↦ !entry.isOver now
        bytesUsed := partition.bytesUsed -
          bytesOf (partition.entries.filter fun entry ↦ entry.isOver now) } with
    totalBytesStored := cache.totalBytesStored -
      bytesOf (cache.entries.filter fun entry ↦ entry.isOver now) },
    (cache.entries.countP fun entry ↦ entry.isOver now : ℕ))

/-! ### Calls -/

/-- A call on a cache. -/
inductive CacheCall
  | addNode (ip : UInt32) (port : UInt16) (now : UInt64)
  | removeNode (nodeId : UInt32)
  | promoteReplica (nodeId : UInt32)
  | replicate (numReplicas : UInt8)
  | syncNode (nodeId : UInt32) (now : UInt64)
  | put (key : CString) (value : List UInt8) (ttlSeconds : UInt32) (now : UInt64) (malloc : Bool)
  | get (key : CString) (now : UInt64)
  | delete (key : CString)
  | exists (key : CString) (now : UInt64)
  | updateTtl (key : CString) (ttlSeconds : UInt32)
  | expireOldEntries (now : UInt64)
  | flushAll
  | cleanupExpired (now : UInt64)
  deriving DecidableEq, Repr

/-- A call to the caches. -/
inductive CachesCall
  | create (name : CString) (policy : CacheEvictionPolicy) (maxMemoryMb : UInt32)
  | onCache (cacheId : UInt32) (call : CacheCall)
  deriving DecidableEq, Repr

/-- What a call on a cache does to the cache, and what it returns. A get returns a pointer
instead. -/
def CacheCall.act (cache : DistributedCache) : CacheCall → DistributedCache × Int
  | .addNode ip port now => cache.addNode ip port now
  | .removeNode nodeId => cache.removeNode nodeId
  | .promoteReplica nodeId => cache.promoteReplica nodeId
  | .replicate numReplicas => cache.replicate numReplicas
  | .syncNode nodeId now => cache.syncNode nodeId now
  | .put key value ttlSeconds now malloc => cache.put key value ttlSeconds now malloc
  | .get key now => ((cache.get key now).1, 0)
  | .delete key => cache.delete key
  | .exists key now => cache.exists key now
  | .updateTtl key ttlSeconds => cache.updateTtl key ttlSeconds
  | .expireOldEntries now => cache.expireOldEntries now
  | .flushAll => cache.flushAll
  | .cleanupExpired now => cache.cleanupExpired now

/-- What a call does to the caches. -/
def cacheStep (caches : List DistributedCache) : CachesCall → List DistributedCache
  | .create name policy maxMemoryMb => (dcacheCreate caches name policy maxMemoryMb).1
  | .onCache cacheId call => (callOn caches cacheId fun cache ↦ call.act cache).1

/-! ### Values and their buffers -/

/-- The values of a partition fit their buffers. -/
def CachePartition.Fits (partition : CachePartition) : Prop :=
  ∀ entry ∈ partition.entries, entry.value.length ≤ entry.buffer

/-- The values of a node fit their buffers. -/
def CacheNode.Fits (node : CacheNode) : Prop :=
  ∀ i, (node.partitions i).Fits

/-- The values of a cache fit their buffers. -/
def DistributedCache.Fits (cache : DistributedCache) : Prop :=
  ∀ node ∈ cache.nodes, node.Fits

/-- All values fit their buffers. -/
def ValuesFit (caches : List DistributedCache) : Prop :=
  ∀ cache ∈ caches, cache.Fits

/-- The condition on a call on a cache: if it puts a value, of a size that is allowed, under a key
that has an entry, the value is no longer than what was allocated when the entry was made. -/
def PutFits (cache : DistributedCache) : CacheCall → Prop
  | .put key value _ _ _ => ∀ partition entry, cache.partitionOf key = some partition →
    partition.find key = some entry → value.length ≤ maxValueSize → value.length ≤ entry.buffer
  | _ => True

/-- The condition on a call to the caches. -/
def CachesPutFits (caches : List DistributedCache) : CachesCall → Prop
  | .create _ _ _ => True
  | .onCache cacheId call => ∀ cache, rowOf caches cacheId = some cache → PutFits cache call

/-- The call writes behind the buffer of an entry. -/
def CacheCall.overruns (cache : DistributedCache) : CacheCall → Bool
  | .put key value _ _ _ => value.length ≤ maxValueSize &&
    (cache.partitionOf key).any fun partition ↦ (partition.find key).any fun entry ↦
      entry.buffer < value.length
  | _ => false

/-- The call writes behind the buffer of an entry. -/
def CachesCall.overruns (caches : List DistributedCache) : CachesCall → Bool
  | .create _ _ _ => false
  | .onCache cacheId call => (rowOf caches cacheId).any fun cache ↦ call.overruns cache

/-- What a call does in the program, which ends where a call writes behind a buffer. -/
def cachesStep :
    Option (List DistributedCache) → CachesCall → Option (List DistributedCache) :=
  endingStep (fun caches call ↦ call.overruns caches) cacheStep

variable {cache : DistributedCache} {partition written : CachePartition} {key : CString}

/-- The partition that a key belongs to fits. -/
theorem DistributedCache.Fits.partitionOf (hfits : cache.Fits)
    (hpartition : cache.partitionOf key = some partition) : partition.Fits := by
  obtain ⟨node, hnode, rfl⟩ := Option.map_eq_some_iff.mp hpartition
  exact hfits node (List.mem_of_getElem? hnode) _

/-- Once a partition is written, the cache fits exactly when the partition does. -/
theorem fits_setPartition_iff (hfits : cache.Fits)
    (hpartition : cache.partitionOf key = some partition) :
    (cache.setPartition key written).Fits ↔ written.Fits := by
  obtain ⟨node, hnode, -⟩ := Option.map_eq_some_iff.mp hpartition
  refine (forall_mem_modify_iff hfits hnode _).trans ⟨fun hwritten ↦ ?_, fun hwritten i ↦ ?_⟩
  · have hself := hwritten (dcacheGetPartitionForKey key)
    dsimp only at hself
    rwa [Function.update_self] at hself
  · dsimp only
    by_cases hsame : i = dcacheGetPartitionForKey key
    · rw [hsame, Function.update_self]
      exact hwritten
    · rw [Function.update_of_ne hsame]
      exact hfits node (List.mem_of_getElem? hnode) i

/-- A change that keeps the values and the buffers keeps a partition fitting. -/
theorem CachePartition.Fits.change (hfits : partition.Fits) {change : CacheEntry → CacheEntry}
    (hvalue : ∀ entry, (change entry).value = entry.value)
    (hbuffer : ∀ entry, (change entry).buffer = entry.buffer) :
    (partition.change key change).Fits := by
  refine (forall_mem_updateFirst_iff hfits).mpr fun entry hfind ↦ ?_
  rw [hvalue, hbuffer]
  exact hfits entry (List.mem_of_find?_eq_some hfind)

/-- A change of a node that keeps its partitions keeps it fitting. -/
theorem CacheNode.Fits.of_partitions {node changed : CacheNode} (hfits : node.Fits)
    (hchange : changed.partitions = node.partitions) : changed.Fits := by
  intro i
  rw [hchange]
  exact hfits i

/-- A call on a cache writes behind no buffer exactly when it meets the condition. -/
theorem CacheCall.overruns_eq_false_iff {call : CacheCall} :
    call.overruns cache = false ↔ PutFits cache call := by
  cases call with
  | put key value ttlSeconds now malloc =>
    rw [CacheCall.overruns, PutFits, Bool.and_eq_false_imp, decide_eq_true_iff]
    constructor
    · intro hover partition entry hpartition hfind hsize
      have hentry := hover hsize
      rw [hpartition, Option.any_some, hfind, Option.any_some] at hentry
      exact Nat.not_lt.mp (of_decide_eq_false hentry)
    · intro hfits hsize
      cases hpartition : cache.partitionOf key with
      | none => rfl
      | some partition =>
        rw [Option.any_some]
        cases hfind : partition.find key with
        | none => rfl
        | some entry =>
          exact decide_eq_false (Nat.not_lt.mpr (hfits partition entry hpartition hfind hsize))
  | _ => exact iff_of_true rfl trivial

/-- A call to the caches writes behind no buffer exactly when it meets the condition. -/
theorem overruns_eq_false_iff {caches : List DistributedCache} {call : CachesCall} :
    call.overruns caches = false ↔ CachesPutFits caches call := by
  cases call with
  | create name policy maxMemoryMb => exact iff_of_true rfl trivial
  | onCache cacheId call =>
    rw [CachesCall.overruns, CachesPutFits]
    cases rowOf caches cacheId with
    | none => exact iff_of_true rfl fun _ hnone ↦ absurd hnone.symm (Option.some_ne_none _)
    | some cache =>
      rw [Option.any_some, CacheCall.overruns_eq_false_iff]
      exact ⟨fun hfits _ hcache ↦ Option.some.inj hcache ▸ hfits, fun hall ↦ hall cache rfl⟩

/-! ### Calls on a cache -/

/-- A put leaves the values fitting exactly when it meets the condition. -/
theorem fits_put_iff (hfits : cache.Fits) (value : List UInt8) (ttlSeconds : UInt32) (now : UInt64)
    (malloc : Bool) :
    (cache.put key value ttlSeconds now malloc).1.Fits ↔
      PutFits cache (.put key value ttlSeconds now malloc) := by
  rw [DistributedCache.put, PutFits]
  by_cases hlong : maxValueSize < value.length
  · rw [if_pos hlong]
    exact iff_of_true hfits fun _ _ _ _ hsize ↦ absurd hsize (Nat.not_le.mpr hlong)
  rw [if_neg hlong]
  cases hpartition : cache.partitionOf key with
  | none => exact iff_of_true hfits fun _ _ hnone ↦ absurd hnone (by simp)
  | some partition =>
    have hbefore := hfits.partitionOf hpartition
    cases hfind : partition.find key with
    | some old =>
      dsimp only
      rw [hfind, fits_setPartition_iff hfits hpartition, CachePartition.Fits]
      dsimp only [CachePartition.change]
      rw [forall_mem_updateFirst_iff hbefore]
      constructor
      · rintro hafter _ entry hsame hentry -
        obtain rfl := Option.some.inj hsame
        exact hafter entry hentry
      · intro hcondition entry hentry
        exact hcondition partition entry rfl hentry (Nat.not_lt.mp hlong)
    | none =>
      dsimp only
      rw [hfind]
      refine iff_of_true ?_ fun _ _ hsame hfound ↦ ?_
      · dsimp only
        split_ifs
        · exact hfits
        · refine (fits_setPartition_iff hfits hpartition).mpr fun entry hentry ↦ ?_
          rcases List.mem_append.mp hentry with hold | hnew
          · exact hbefore entry hold
          · obtain rfl := List.mem_singleton.mp hnew
            exact Nat.le_refl _
        · exact hfits
      · obtain rfl := Option.some.inj hsame
        exact absurd (hfind.symm.trans hfound) (by simp)

/-- A get keeps the values and their buffers. -/
theorem fits_get (hfits : cache.Fits) (now : UInt64) : (cache.get key now).1.Fits := by
  rw [DistributedCache.get]
  cases hpartition : cache.partitionOf key with
  | none => exact hfits
  | some partition =>
    have hbefore := hfits.partitionOf hpartition
    dsimp only
    cases hfind : partition.find key with
    | none => exact (fits_setPartition_iff hfits hpartition).mpr hbefore
    | some entry =>
      dsimp only
      split_ifs
      · exact (fits_setPartition_iff hfits hpartition).mpr hbefore
      · exact (fits_setPartition_iff hfits hpartition).mpr
          (hbefore.change (fun _ ↦ rfl) fun _ ↦ rfl)
      · exact (fits_setPartition_iff hfits hpartition).mpr
          (hbefore.change (fun _ ↦ rfl) fun _ ↦ rfl)

/-- A node that is added has no values. -/
theorem fits_addNode (hfits : cache.Fits) (ip : UInt32) (port : UInt16) (now : UInt64) :
    (cache.addNode ip port now).1.Fits := by
  rw [DistributedCache.addNode]
  split_ifs
  · exact hfits
  · intro node hnode
    rcases List.mem_append.mp hnode with hold | hnew
    · exact hfits node hold
    · obtain rfl := List.mem_singleton.mp hnew
      exact fun _ _ hentry ↦ absurd hentry List.not_mem_nil

/-- A delete keeps the other entries. -/
theorem fits_delete (hfits : cache.Fits) : (cache.delete key).1.Fits := by
  rw [DistributedCache.delete]
  cases hpartition : cache.partitionOf key with
  | none => exact hfits
  | some partition =>
    dsimp only
    cases hfind : partition.find key with
    | none => exact hfits
    | some entry =>
      refine (fits_setPartition_iff hfits hpartition).mpr fun other hother ↦ ?_
      exact hfits.partitionOf hpartition other (List.mem_of_mem_eraseP hother)

/-- A new time to live keeps the values and their buffers. -/
theorem fits_updateTtl (hfits : cache.Fits) (ttlSeconds : UInt32) :
    (cache.updateTtl key ttlSeconds).1.Fits := by
  rw [DistributedCache.updateTtl]
  cases hpartition : cache.partitionOf key with
  | none => exact hfits
  | some partition =>
    dsimp only
    cases hfind : partition.find key with
    | none => exact hfits
    | some entry =>
      refine (fits_setPartition_iff hfits hpartition).mpr ?_
      exact (hfits.partitionOf hpartition).change (fun _ ↦ rfl) fun _ ↦ rfl

/-- Every call on a cache leaves the values fitting exactly when it meets the condition. -/
theorem fits_act_iff (hfits : cache.Fits) (call : CacheCall) :
    (call.act cache).1.Fits ↔ PutFits cache call := by
  cases call with
  | put key value ttlSeconds now malloc => exact fits_put_iff hfits value ttlSeconds now malloc
  | addNode ip port now => exact iff_of_true (fits_addNode hfits ip port now) trivial
  | removeNode nodeId =>
    refine iff_of_true ?_ trivial
    rw [CacheCall.act, DistributedCache.removeNode]
    split_ifs
    · exact fun node hnode ↦ hfits node (List.mem_of_mem_eraseIdx hnode)
    · exact hfits
  | promoteReplica nodeId =>
    refine iff_of_true ?_ trivial
    rw [CacheCall.act, DistributedCache.promoteReplica]
    split_ifs
    · refine forall_mem_modify (fun node hnode ↦ ?_) (fun node hnode ↦ hnode.of_partitions rfl) _
      obtain ⟨old, hold, rfl⟩ := List.mem_map.mp hnode
      exact (hfits old hold).of_partitions rfl
    · exact hfits
  | replicate numReplicas =>
    refine iff_of_true ?_ trivial
    rw [CacheCall.act, DistributedCache.replicate]
    split_ifs
    · exact hfits
    · exact hfits
  | syncNode nodeId now =>
    refine iff_of_true ?_ trivial
    rw [CacheCall.act, DistributedCache.syncNode]
    split_ifs
    · refine forall_mem_modify hfits (fun node hnode ↦ ?_) _
      exact hnode.of_partitions rfl
    · exact hfits
  | get key now => exact iff_of_true (fits_get hfits now) trivial
  | delete key => exact iff_of_true (fits_delete hfits) trivial
  | «exists» key now => exact iff_of_true (fits_get hfits now) trivial
  | updateTtl key ttlSeconds => exact iff_of_true (fits_updateTtl hfits ttlSeconds) trivial
  | expireOldEntries now =>
    refine iff_of_true (fun node hnode i entry hentry ↦ ?_) trivial
    obtain ⟨old, hold, rfl⟩ := List.mem_map.mp hnode
    obtain ⟨before, hbefore, rfl⟩ := List.mem_map.mp hentry
    split_ifs
    · exact hfits old hold i before hbefore
    · exact hfits old hold i before hbefore
  | flushAll =>
    refine iff_of_true (fun node hnode i entry hentry ↦ ?_) trivial
    obtain ⟨old, hold, rfl⟩ := List.mem_map.mp hnode
    exact absurd hentry List.not_mem_nil
  | cleanupExpired now =>
    refine iff_of_true (fun node hnode i entry hentry ↦ ?_) trivial
    obtain ⟨old, hold, rfl⟩ := List.mem_map.mp hnode
    exact hfits old hold i entry (List.mem_of_mem_filter hentry)

/-! ### Runs -/

/-- A call to the caches leaves all values fitting exactly when it meets the condition. -/
theorem valuesFit_cacheStep_iff {caches : List DistributedCache} (hfits : ValuesFit caches)
    (call : CachesCall) : ValuesFit (cacheStep caches call) ↔ CachesPutFits caches call := by
  cases call with
  | create name policy maxMemoryMb =>
    refine iff_of_true ?_ trivial
    rw [cacheStep, dcacheCreate]
    split_ifs
    · exact hfits
    · intro cache hcache
      rcases List.mem_append.mp hcache with hold | hnew
      · exact hfits cache hold
      · obtain rfl := List.mem_singleton.mp hnew
        exact fun _ hnode ↦ absurd hnode List.not_mem_nil
  | onCache cacheId call =>
    refine (forall_mem_callOn_iff hfits).trans ?_
    refine forall_congr' fun cache ↦ forall_congr' fun hcache ↦ ?_
    exact fits_act_iff (hfits cache (mem_of_rowOf hcache)) call

/-- Along a run of the caches every value fits the buffer that was allocated for it exactly when no
put of the run writes a value, under a key that has an entry, that is longer than what was allocated
when the entry was made. -/
theorem valuesFit_iff (calls : List CachesCall) :
    AlongRun cacheStep ValuesFit [] calls ↔ EveryStep cacheStep CachesPutFits [] calls :=
  alongRun_iff_everyStep (fun _ ↦ True) (fun _ _ ↦ True) (fun _ _ _ _ ↦ trivial)
    (fun _ call _ _ hfits ↦ valuesFit_cacheStep_iff hfits call) trivial
    (fun _ hcache ↦ absurd hcache List.not_mem_nil) fun _ _ _ ↦ trivial

/-- A value of one byte is overwritten by one of two bytes. -/
theorem not_valuesFit_longer_value :
    ¬ AlongRun cacheStep ValuesFit []
      [.create [] .lru 64, .onCache 1 (.addNode 0 0 0),
        .onCache 1 (.put [⟨97, by decide⟩] [1] 0 0 true),
        .onCache 1 (.put [⟨97, by decide⟩] [1, 2] 0 0 true)] := by
  intro hfits
  have hlast := hfits _ (List.prefix_refl _) _ List.mem_cons_self _ List.mem_cons_self
    (dcacheGetPartitionForKey [⟨97, by decide⟩]) _ List.mem_cons_self
  revert hlast
  decide +kernel

end OneOS.Caching
