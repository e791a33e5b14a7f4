import OneOS.Caching.DistributedCache

/-!
# Entries of keys

A key has at most one entry in the partition that it belongs to (`CachePartition.Distinct`), as long
as the keys that are put are shorter than `MAX_KEY_SIZE`. So what happens to a key can be followed
by its entry (`entryOf`): a get answers with it (`get_snd`), and a call that neither writes nor
removes the key, nor changes the nodes, does to its entry what `CacheCall.entryAfter` says, whatever
the call does to other keys (`entryOf_act`).
-/

set_option autoImplicit false
set_option relaxedAutoImplicit false

namespace OneOS.Caching

open Foundation

/-- The entry of a key in the partition that the key belongs to. -/
def DistributedCache.entryOf (cache : DistributedCache) (key : CString) : Option CacheEntry :=
  (cache.partitionOf key).bind fun partition ↦ partition.find key

/-- The value that a get returns for an entry. -/
def CacheEntry.shown (entry : CacheEntry) (now : UInt64) : Option (List UInt8) :=
  if entry.isExpired || entry.outlived now then none else some entry.value

/-- What a get does to the entry that it finds. -/
def CacheEntry.read (entry : CacheEntry) (now : UInt64) : CacheEntry :=
  if entry.isExpired then entry
  else if entry.outlived now then { entry with isExpired := true }
  else { entry with lastAccessTime := now, accessCount := entry.accessCount + 1 }

/-- What `dcache_expire_old_entries` does to an entry. -/
def CacheEntry.expire (entry : CacheEntry) (now : UInt64) : CacheEntry :=
  if entry.outlived now then { entry with isExpired := true } else entry

/-- What a put does to the entry that it finds. -/
def CacheEntry.overwrite (entry : CacheEntry) (value : List UInt8) (ttlSeconds : UInt32)
    (now : UInt64) : CacheEntry :=
  { entry with
    value := value
    lastAccessTime := now
    ttlSeconds := ttlSeconds
    isExpired := false }

/-- The entry that a put makes. -/
def newEntry (key : CString) (value : List UInt8) (ttlSeconds : UInt32) (now : UInt64) :
    CacheEntry where
  key := key.take (maxKeySize - 1)
  value := value
  buffer := value.length
  creationTime := now
  lastAccessTime := now
  accessCount := 0
  ttlSeconds := ttlSeconds
  isExpired := false

/-- A put is accepted: its value is of a size that is allowed, there are nodes, and the key has an
entry or there is room, and memory, for one. -/
def DistributedCache.Accepts (cache : DistributedCache) (key : CString) (value : List UInt8)
    (malloc : Bool) : Prop :=
  value.length ≤ maxValueSize ∧ ∃ partition, cache.partitionOf key = some partition ∧
    (partition.find key = none → partition.entries.length < maxCacheEntries ∧ malloc = true)

/-- The call writes, removes or changes the entry of the key whatever its time, or changes the
nodes. -/
def CacheCall.Disturbs (key : CString) : CacheCall → Prop
  | .addNode _ _ _ => True
  | .removeNode _ => True
  | .put other _ _ _ _ => other = key
  | .delete other => other = key
  | .updateTtl other _ => other = key
  | .flushAll => True
  | _ => False

/-- The key of the call, if it is a put that is accepted, is shorter than `MAX_KEY_SIZE`. -/
def CacheCall.ShortKey (cache : DistributedCache) : CacheCall → Prop
  | .put key value _ _ malloc => cache.Accepts key value malloc → key.length < maxKeySize
  | _ => True

/-- What a call that does not disturb a key does to the entry of the key. -/
def CacheCall.entryAfter (key : CString) (entry : Option CacheEntry) :
    CacheCall → Option CacheEntry
  | .get other now => if other = key then entry.map fun entry ↦ entry.read now else entry
  | .exists other now => if other = key then entry.map fun entry ↦ entry.read now else entry
  | .expireOldEntries now => entry.map fun entry ↦ entry.expire now
  | .cleanupExpired now => entry.filter fun entry ↦ !entry.isOver now
  | _ => entry

/-- No two entries of the partition have the same key. -/
def CachePartition.Distinct (partition : CachePartition) : Prop :=
  (partition.entries.map CacheEntry.key).Nodup

/-- In no partition of the cache do two entries have the same key. -/
def DistributedCache.Distinct (cache : DistributedCache) : Prop :=
  ∀ node ∈ cache.nodes, ∀ i, (node.partitions i).Distinct

variable {cache : DistributedCache} {partition written : CachePartition} {key other : CString}
variable {entry : CacheEntry} {value : List UInt8} {ttlSeconds : UInt32} {now : UInt64}
variable {malloc : Bool}

/-! ### Partitions -/

/-- What is found in a partition rests on its entries only. -/
theorem find_congr (hentries : written.entries = partition.entries) :
    written.find key = partition.find key := by
  rw [CachePartition.find, CachePartition.find, hentries]

/-- A change of the entry of a key is seen at that key only. -/
theorem find_change {change : CacheEntry → CacheEntry}
    (hkeep : ∀ entry, (change entry).key = entry.key) :
    (partition.change key change).find other =
      if other = key then (partition.find other).map change else partition.find other :=
  find?_key_updateFirst hkeep

/-- A change of the entry of a key is not seen at the other keys. -/
theorem find_change_of_ne {change : CacheEntry → CacheEntry}
    (hkeep : ∀ entry, (change entry).key = entry.key) (hother : other ≠ key) :
    (partition.change key change).find other = partition.find other :=
  (find_change hkeep).trans (if_neg hother)

/-- An entry with another key that is added is not found. -/
theorem find_append_of_ne (hkey : entry.key ≠ other) :
    { partition with entries := partition.entries ++ [entry] }.find other =
      partition.find other := by
  have hnot : ¬ CacheEntry.hasKey other entry = true := fun hhas ↦ hkey (of_decide_eq_true hhas)
  rw [CachePartition.find, CachePartition.find, List.find?_append, List.find?_cons_of_neg hnot,
    List.find?_nil, Option.or_none]

/-- An entry that is added for a key without one is found. -/
theorem find_append_self (hmissing : partition.find key = none) (hkey : entry.key = key) :
    { partition with entries := partition.entries ++ [entry] }.find key = some entry := by
  rw [CachePartition.find] at hmissing ⊢
  rw [List.find?_append, hmissing, Option.none_or]
  exact List.find?_cons_of_pos (decide_eq_true hkey)

/-- The two keys belong to the same partition of the same node. -/
def DistributedCache.Together (cache : DistributedCache) (key other : CString) : Prop :=
  cache.nodeFor key = cache.nodeFor other ∧
    dcacheGetPartitionForKey key = dcacheGetPartitionForKey other

/-- Writing a partition is seen by the keys that belong to it. -/
theorem partitionOf_setPartition_together (hpartition : cache.partitionOf key = some partition)
    (htogether : cache.Together key other) :
    cache.partitionOf other = some partition ∧
      (cache.setPartition key written).partitionOf other = some written := by
  obtain ⟨hnode, hplace⟩ := htogether
  obtain ⟨node, hat, hpart⟩ := Option.map_eq_some_iff.mp hpartition
  have hsame : (cache.setPartition key written).nodeFor other = cache.nodeFor other := by
    rw [DistributedCache.nodeFor, DistributedCache.nodeFor, DistributedCache.setPartition,
      List.length_modify]
  refine ⟨?_, ?_⟩
  · rw [DistributedCache.partitionOf, ← hnode, hat, Option.map_some, ← hplace, hpart]
  · rw [DistributedCache.partitionOf, hsame, ← hnode, DistributedCache.setPartition,
      List.getElem?_modify_eq, hat, Option.map_eq_map, Option.map_some, Option.map_some, ← hplace]
    exact congrArg some (Function.update_self _ _ _)

/-- Writing a partition is not seen by the keys that do not belong to it. -/
theorem partitionOf_setPartition_apart (hapart : ¬ cache.Together key other) :
    (cache.setPartition key written).partitionOf other = cache.partitionOf other := by
  have hsame : (cache.setPartition key written).nodeFor other = cache.nodeFor other := by
    rw [DistributedCache.nodeFor, DistributedCache.nodeFor, DistributedCache.setPartition,
      List.length_modify]
  rw [DistributedCache.partitionOf, hsame, DistributedCache.setPartition,
    DistributedCache.partitionOf]
  by_cases hnode : cache.nodeFor key = cache.nodeFor other
  · have hplace : dcacheGetPartitionForKey other ≠ dcacheGetPartitionForKey key :=
      fun hplace ↦ hapart ⟨hnode, hplace.symm⟩
    rw [← hnode, List.getElem?_modify_eq, Option.map_eq_map, Option.map_map]
    refine congrArg (Option.map · _) (funext fun node ↦ ?_)
    exact Function.update_of_ne hplace _ _
  · dsimp only
    rw [List.getElem?_modify_ne _ _ hnode]

/-- A partition that is written with another entry for its own key only leaves the entries of the
other keys. -/
theorem entryOf_setPartition_of_ne (hpartition : cache.partitionOf key = some partition)
    (hfind : written.find other = partition.find other) :
    (cache.setPartition key written).entryOf other = cache.entryOf other := by
  rw [DistributedCache.entryOf, DistributedCache.entryOf]
  by_cases htogether : cache.Together key other
  · obtain ⟨hbefore, hafter⟩ := partitionOf_setPartition_together hpartition htogether
    rw [hbefore, hafter, Option.bind_some, Option.bind_some, hfind]
  · rw [partitionOf_setPartition_apart htogether]

theorem entryOf_of_partitionOf (hpartition : cache.partitionOf key = some partition) :
    cache.entryOf key = partition.find key := by
  rw [DistributedCache.entryOf, hpartition, Option.bind_some]

/-- The entry of the key whose partition is written. -/
theorem entryOf_setPartition_self (hpartition : cache.partitionOf key = some partition) :
    (cache.setPartition key written).entryOf key = written.find key :=
  entryOf_of_partitionOf (partitionOf_setPartition_together hpartition ⟨rfl, rfl⟩).2

/-- Assumes: a partition is written with so much done to the entry of its own key, and nothing to
the others. -/
theorem entryOf_setPartition (effect : Option CacheEntry → Option CacheEntry)
    (hpartition : cache.partitionOf key = some partition)
    (hself : written.find key = effect (partition.find key))
    (hothers : ∀ other, other ≠ key → written.find other = partition.find other) :
    (cache.setPartition key written).entryOf other =
      if key = other then effect (cache.entryOf other) else cache.entryOf other := by
  by_cases hkey : key = other
  · rw [if_pos hkey, ← hkey, entryOf_setPartition_self hpartition, hself,
      entryOf_of_partitionOf hpartition]
  · rw [if_neg hkey]
    exact entryOf_setPartition_of_ne hpartition (hothers other (Ne.symm hkey))

/-- The entries of keys rest on the nodes only. -/
theorem entryOf_congr {after : DistributedCache} (hnodes : after.nodes = cache.nodes) :
    after.entryOf key = cache.entryOf key := by
  rw [DistributedCache.entryOf, DistributedCache.entryOf, DistributedCache.partitionOf,
    DistributedCache.partitionOf, DistributedCache.nodeFor, DistributedCache.nodeFor, hnodes]

/-- Assumes: what is done to every partition does so much to what is found in it. That is what is
done to the entry of every key. -/
theorem entryOf_mapPartitions (change : CachePartition → CachePartition)
    (effect : Option CacheEntry → Option CacheEntry) (hnone : effect none = none)
    (hchange : ∀ partition, cache.partitionOf key = some partition →
      (change partition).find key = effect (partition.find key)) :
    (cache.mapPartitions change).entryOf key = effect (cache.entryOf key) := by
  have hpartition : (cache.mapPartitions change).partitionOf key =
      (cache.partitionOf key).map change := by
    rw [DistributedCache.partitionOf, DistributedCache.partitionOf, DistributedCache.nodeFor,
      DistributedCache.nodeFor, DistributedCache.mapPartitions, List.length_map, List.getElem?_map,
      Option.map_map, Option.map_map]
    rfl
  rw [DistributedCache.entryOf, hpartition, DistributedCache.entryOf]
  cases hfound : cache.partitionOf key with
  | none => exact hnone.symm
  | some partition => exact hchange partition hfound

/-! ### Gets -/

/-- A get answers with the entry of its key. -/
theorem get_snd : (cache.get key now).2 =
    (cache.entryOf key).bind fun entry ↦ entry.shown now := by
  rw [DistributedCache.get, DistributedCache.entryOf]
  cases cache.partitionOf key with
  | none => rfl
  | some partition =>
    rw [Option.bind_some]
    dsimp only
    cases partition.find key with
    | none => rfl
    | some entry =>
      rw [Option.bind_some, CacheEntry.shown]
      dsimp only
      cases entry.isExpired with
      | true => rfl
      | false => cases entry.outlived now <;> rfl

/-- What a get does to the entries. -/
theorem entryOf_get : (cache.get key now).1.entryOf other =
    if key = other then (cache.entryOf other).map fun entry ↦ entry.read now
    else cache.entryOf other := by
  rw [DistributedCache.get]
  cases hpartition : cache.partitionOf key with
  | none =>
    split_ifs with hkey
    · rw [← hkey, DistributedCache.entryOf, hpartition]
      rfl
    · rfl
  | some partition =>
    dsimp only
    cases hfind : partition.find key with
    | none =>
      refine entryOf_setPartition (Option.map fun entry ↦ entry.read now) hpartition ?_
        fun _ _ ↦ rfl
      rw [hfind]
      exact hfind
    | some entry =>
      dsimp only
      have hchange : ∀ change : CacheEntry → CacheEntry,
          (∀ entry, (change entry).key = entry.key) → change entry = entry.read now →
            (partition.change key change).find key =
              (partition.find key).map fun entry ↦ entry.read now := by
        intro change hkeep hread
        rw [find_change hkeep, if_pos rfl, hfind, Option.map_some, Option.map_some, hread]
      by_cases hexpired : entry.isExpired = true
      · rw [if_pos hexpired]
        refine entryOf_setPartition (Option.map fun entry ↦ entry.read now) hpartition ?_
          fun _ _ ↦ rfl
        rw [hfind, Option.map_some, CacheEntry.read, if_pos hexpired]
        exact hfind
      rw [if_neg hexpired]
      by_cases houtlived : entry.outlived now = true
      · rw [if_pos houtlived]
        refine entryOf_setPartition (Option.map fun entry ↦ entry.read now) hpartition
          (hchange _ (fun _ ↦ rfl) ?_) fun _ hother ↦ find_change_of_ne (fun _ ↦ rfl) hother
        rw [CacheEntry.read, if_neg hexpired, if_pos houtlived]
      · rw [if_neg houtlived]
        refine entryOf_setPartition (Option.map fun entry ↦ entry.read now) hpartition
          (hchange _ (fun _ ↦ rfl) ?_) fun _ hother ↦ find_change_of_ne (fun _ ↦ rfl) hother
        rw [CacheEntry.read, if_neg hexpired, if_neg houtlived]

/-! ### Puts -/

/-- What a put does: it is refused and leaves the cache, or it is accepted and overwrites the entry
of its key or adds one. -/
theorem put_cases (cache : DistributedCache) (key : CString) (value : List UInt8)
    (ttlSeconds : UInt32) (now : UInt64) (malloc : Bool) :
    (¬ cache.Accepts key value malloc ∧
        (cache.put key value ttlSeconds now malloc).1 = cache ∧
          (cache.put key value ttlSeconds now malloc).2 ≠ 0) ∨
      cache.Accepts key value malloc ∧ (cache.put key value ttlSeconds now malloc).2 = 0 ∧
        ∃ partition written, cache.partitionOf key = some partition ∧
          (cache.put key value ttlSeconds now malloc).1.nodes =
              (cache.setPartition key written).nodes ∧
            ((∃ old, partition.find key = some old ∧ written.entries =
                (partition.change key fun entry ↦ entry.overwrite value ttlSeconds now).entries) ∨
              partition.find key = none ∧
                written.entries = partition.entries ++ [newEntry key value ttlSeconds now]) := by
  have hrefused : (-1 : Int) ≠ 0 := by decide
  rw [DistributedCache.put, DistributedCache.Accepts]
  by_cases hlong : maxValueSize < value.length
  · rw [if_pos hlong]
    exact Or.inl ⟨fun haccepts ↦ absurd haccepts.1 (Nat.not_le.mpr hlong), rfl, hrefused⟩
  rw [if_neg hlong]
  have hfits := Nat.not_lt.mp hlong
  cases hpartition : cache.partitionOf key with
  | none =>
    refine Or.inl ⟨fun haccepts ↦ ?_, rfl, hrefused⟩
    obtain ⟨-, _, hnone, -⟩ := haccepts
    exact Option.some_ne_none _ hnone.symm
  | some partition =>
    dsimp only
    cases hfind : partition.find key with
    | some old =>
      refine Or.inr ⟨⟨hfits, partition, rfl, fun hnone ↦ ?_⟩, rfl, partition, _, rfl, rfl,
        Or.inl ⟨old, hfind, rfl⟩⟩
      exact absurd (hfind.symm.trans hnone) (by simp)
    | none =>
      dsimp only
      by_cases hfull : maxCacheEntries ≤ partition.entries.length
      · rw [if_pos hfull]
        refine Or.inl ⟨fun haccepts ↦ ?_, rfl, hrefused⟩
        obtain ⟨-, _, hsame, hroom⟩ := haccepts
        obtain rfl := Option.some.inj hsame
        exact absurd (hroom hfind).1 (Nat.not_lt.mpr hfull)
      rw [if_neg hfull]
      cases malloc with
      | true =>
        exact Or.inr ⟨⟨hfits, partition, rfl, fun _ ↦ ⟨Nat.not_le.mp hfull, rfl⟩⟩, rfl,
          partition, _, rfl, rfl, Or.inr ⟨hfind, rfl⟩⟩
      | false =>
        refine Or.inl ⟨fun haccepts ↦ ?_, rfl, hrefused⟩
        obtain ⟨-, _, hsame, hroom⟩ := haccepts
        obtain rfl := Option.some.inj hsame
        exact Bool.false_ne_true (hroom hfind).2

/-- Assumes: the key that is put, if the put is accepted, is shorter than `MAX_KEY_SIZE`. A put
leaves the entries of the other keys. -/
theorem entryOf_put_of_ne (hkey : key ≠ other)
    (hshort : cache.Accepts key value malloc → key.length < maxKeySize) :
    (cache.put key value ttlSeconds now malloc).1.entryOf other = cache.entryOf other := by
  rcases put_cases cache key value ttlSeconds now malloc with ⟨-, hsame, -⟩ | ⟨haccepts, -,
    partition, written, hpartition, hnodes, hwritten⟩
  · rw [hsame]
  · rw [entryOf_congr hnodes]
    refine entryOf_setPartition_of_ne hpartition ?_
    rcases hwritten with ⟨old, -, hentries⟩ | ⟨-, hentries⟩
    · exact (find_congr hentries).trans (find_change_of_ne (fun _ ↦ rfl) (Ne.symm hkey))
    · have hstored : (newEntry key value ttlSeconds now).key ≠ other := by
        rw [newEntry, List.take_of_length_le (Nat.le_sub_one_of_lt (hshort haccepts))]
        exact hkey
      exact (find_congr hentries).trans (find_append_of_ne hstored)

/-- Assumes: a key that is shorter than `MAX_KEY_SIZE`. An accepted put leaves the entry of its key
overwritten, or a new one. -/
theorem entryOf_put_self (haccepts : cache.Accepts key value malloc)
    (hshort : key.length < maxKeySize) :
    (cache.put key value ttlSeconds now malloc).1.entryOf key =
      some (((cache.entryOf key).map fun entry ↦ entry.overwrite value ttlSeconds now).getD
        (newEntry key value ttlSeconds now)) := by
  rcases put_cases cache key value ttlSeconds now malloc with ⟨hnot, -, -⟩ | ⟨-, -, partition,
    written, hpartition, hnodes, hwritten⟩
  · exact absurd haccepts hnot
  · rw [entryOf_congr hnodes, entryOf_setPartition_self hpartition,
      entryOf_of_partitionOf hpartition]
    rcases hwritten with ⟨old, hfind, hentries⟩ | ⟨hfind, hentries⟩
    · have hkeep : ∀ entry : CacheEntry, (entry.overwrite value ttlSeconds now).key = entry.key :=
        fun _ ↦ rfl
      rw [find_congr hentries, find_change hkeep, if_pos rfl, hfind]
      rfl
    · have hadded : written.find key =
          { partition with
            entries := partition.entries ++ [newEntry key value ttlSeconds now] }.find key :=
        find_congr hentries
      rw [hadded, hfind]
      exact find_append_self hfind (List.take_of_length_le (Nat.le_sub_one_of_lt hshort))

/-! ### Calls on another key -/

/-- A delete leaves the entries of the other keys. -/
theorem entryOf_delete_of_ne (hkey : key ≠ other) :
    (cache.delete key).1.entryOf other = cache.entryOf other := by
  rw [DistributedCache.delete]
  cases hpartition : cache.partitionOf key with
  | none => rfl
  | some partition =>
    dsimp only
    cases partition.find key with
    | none => rfl
    | some entry =>
      exact entryOf_setPartition_of_ne hpartition (find?_key_eraseP_of_ne (Ne.symm hkey))

/-- A new time to live leaves the entries of the other keys. -/
theorem entryOf_updateTtl_of_ne (hkey : key ≠ other) (ttlSeconds : UInt32) :
    (cache.updateTtl key ttlSeconds).1.entryOf other = cache.entryOf other := by
  rw [DistributedCache.updateTtl]
  cases hpartition : cache.partitionOf key with
  | none => rfl
  | some partition =>
    dsimp only
    cases partition.find key with
    | none => rfl
    | some entry =>
      exact entryOf_setPartition_of_ne hpartition
        (find_change_of_ne (fun _ ↦ rfl) (Ne.symm hkey))

/-! ### Calls on all entries -/

/-- The entries of keys rest on the partitions only. -/
theorem entryOf_of_partitions {after : DistributedCache}
    (hpartitions : after.nodes.map CacheNode.partitions = cache.nodes.map CacheNode.partitions) :
    after.entryOf key = cache.entryOf key := by
  have hlength : after.nodes.length = cache.nodes.length := by
    simpa using congrArg List.length hpartitions
  have hpartition : ∀ seen : DistributedCache, seen.partitionOf key =
      (seen.nodes.map CacheNode.partitions)[seen.nodeFor key]?.map fun partitions ↦
        partitions (dcacheGetPartitionForKey key) := by
    intro seen
    rw [DistributedCache.partitionOf, List.getElem?_map, Option.map_map]
    rfl
  rw [DistributedCache.entryOf, DistributedCache.entryOf, hpartition, hpartition, hpartitions,
    DistributedCache.nodeFor, DistributedCache.nodeFor, hlength]

/-- `dcache_expire_old_entries` marks the entries that have outlived their time. -/
theorem entryOf_expireOldEntries (now : UInt64) :
    (cache.expireOldEntries now).1.entryOf key =
      (cache.entryOf key).map fun entry ↦ entry.expire now := by
  refine entryOf_mapPartitions _ (Option.map fun entry ↦ entry.expire now) rfl
    fun partition _ ↦ ?_
  have hkey : CacheEntry.hasKey key ∘ (fun entry ↦ entry.expire now) = CacheEntry.hasKey key := by
    funext entry
    rw [Function.comp_apply, CacheEntry.expire]
    split_ifs <;> rfl
  rw [CachePartition.find, CachePartition.find, List.find?_map]
  exact congrArg (fun test ↦ (partition.entries.find? test).map fun entry ↦ entry.expire now) hkey

/-- The partition that a key belongs to is one of those of the cache. -/
theorem DistributedCache.Distinct.partitionOf (hdistinct : cache.Distinct)
    (hpartition : cache.partitionOf key = some partition) : partition.Distinct := by
  obtain ⟨node, hnode, rfl⟩ := Option.map_eq_some_iff.mp hpartition
  exact hdistinct node (List.mem_of_getElem? hnode) _

/-- Assumes: distinct keys in every partition. `dcache_cleanup_expired` removes the entries that are
over. -/
theorem entryOf_cleanupExpired (hdistinct : cache.Distinct) (now : UInt64) :
    (cache.cleanupExpired now).1.entryOf key =
      (cache.entryOf key).filter fun entry ↦ !entry.isOver now := by
  refine (entryOf_congr ?_).trans (entryOf_mapPartitions (fun partition ↦
    { partition with
      entries := partition.entries.filter fun entry ↦ !entry.isOver now
      bytesUsed := partition.bytesUsed -
        bytesOf (partition.entries.filter fun entry ↦ entry.isOver now) })
    (Option.filter fun entry ↦ !entry.isOver now) rfl fun partition hpartition ↦ ?_)
  · rfl
  · exact find?_key_filter (hdistinct.partitionOf hpartition) _

/-- Assumes: distinct keys in every partition, and a key that is shorter than `MAX_KEY_SIZE` if it
is put. A call that does not disturb a key does this to its entry. -/
theorem entryOf_act (hdistinct : cache.Distinct) {call : CacheCall} (hcalm : ¬ call.Disturbs key)
    (hshort : call.ShortKey cache) :
    (call.act cache).1.entryOf key = call.entryAfter key (cache.entryOf key) := by
  cases call with
  | addNode ip port now => exact absurd trivial hcalm
  | removeNode nodeId => exact absurd trivial hcalm
  | promoteReplica nodeId =>
    rw [CacheCall.act, DistributedCache.promoteReplica]
    split_ifs
    · refine entryOf_of_partitions ((map_modify_of_keep ?_ _).trans ?_)
      · exact fun _ ↦ rfl
      · rw [List.map_map]
        rfl
    · rfl
  | replicate numReplicas =>
    rw [CacheCall.act, DistributedCache.replicate]
    split_ifs <;> rfl
  | syncNode nodeId now =>
    rw [CacheCall.act, DistributedCache.syncNode]
    split_ifs
    · refine entryOf_of_partitions (map_modify_of_keep ?_ _)
      exact fun _ ↦ rfl
    · rfl
  | put other value ttlSeconds now malloc => exact entryOf_put_of_ne hcalm hshort
  | get other now => exact entryOf_get
  | delete other => exact entryOf_delete_of_ne hcalm
  | «exists» other now => exact entryOf_get
  | updateTtl other ttlSeconds => exact entryOf_updateTtl_of_ne hcalm ttlSeconds
  | expireOldEntries now => exact entryOf_expireOldEntries now
  | flushAll => exact absurd trivial hcalm
  | cleanupExpired now => exact entryOf_cleanupExpired hdistinct now

/-! ### Distinct keys -/

/-- Writing a partition with distinct keys. -/
theorem distinct_setPartition (hdistinct : cache.Distinct) (hwritten : written.Distinct) :
    (cache.setPartition key written).Distinct := by
  refine forall_mem_modify hdistinct (fun node hnode i ↦ ?_) _
  by_cases hplace : i = dcacheGetPartitionForKey key
  · rw [hplace]
    dsimp only
    rw [Function.update_self]
    exact hwritten
  · dsimp only
    rw [Function.update_of_ne hplace]
    exact hnode i

/-- A change that keeps the keys keeps them distinct. -/
theorem CachePartition.Distinct.change (hdistinct : partition.Distinct)
    {change : CacheEntry → CacheEntry} (hkeep : ∀ entry, (change entry).key = entry.key) :
    (partition.change key change).Distinct := by
  rw [CachePartition.Distinct, CachePartition.change, map_updateFirst fun entry _ ↦ hkeep entry]
  exact hdistinct

/-- A get keeps the keys distinct. -/
theorem distinct_get (hdistinct : cache.Distinct) : (cache.get key now).1.Distinct := by
  rw [DistributedCache.get]
  cases hpartition : cache.partitionOf key with
  | none => exact hdistinct
  | some partition =>
    have hbefore := hdistinct.partitionOf hpartition
    dsimp only
    cases partition.find key with
    | none => exact distinct_setPartition hdistinct hbefore
    | some entry =>
      dsimp only
      split_ifs
      · exact distinct_setPartition hdistinct hbefore
      · exact distinct_setPartition hdistinct (hbefore.change fun _ ↦ rfl)
      · exact distinct_setPartition hdistinct (hbefore.change fun _ ↦ rfl)

/-- Assumes: the key that is put, if the put is accepted, is shorter than `MAX_KEY_SIZE`. A put
keeps the keys distinct. -/
theorem distinct_put (hdistinct : cache.Distinct)
    (hshort : cache.Accepts key value malloc → key.length < maxKeySize) :
    (cache.put key value ttlSeconds now malloc).1.Distinct := by
  rcases put_cases cache key value ttlSeconds now malloc with ⟨-, hsame, -⟩ | ⟨haccepts, -,
    partition, written, hpartition, hnodes, hwritten⟩
  · rw [hsame]
    exact hdistinct
  · have hbefore := hdistinct.partitionOf hpartition
    have hafter : written.Distinct := by
      rcases hwritten with ⟨old, -, hentries⟩ | ⟨hfind, hentries⟩
      · rw [CachePartition.Distinct, hentries]
        exact hbefore.change fun _ ↦ rfl
      · rw [CachePartition.Distinct, hentries, nodup_map_concat_iff hbefore]
        intro entry hentry hsame
        have hkey : entry.key = key := hsame.trans
          (List.take_of_length_le (Nat.le_sub_one_of_lt (hshort haccepts)))
        exact List.find?_eq_none.mp hfind entry hentry (decide_eq_true hkey)
    rw [DistributedCache.Distinct, hnodes]
    exact distinct_setPartition hdistinct hafter

/-- A delete keeps the keys distinct. -/
theorem distinct_delete (hdistinct : cache.Distinct) : (cache.delete key).1.Distinct := by
  rw [DistributedCache.delete]
  cases hpartition : cache.partitionOf key with
  | none => exact hdistinct
  | some partition =>
    dsimp only
    cases partition.find key with
    | none => exact hdistinct
    | some entry =>
      exact distinct_setPartition hdistinct
        (nodup_map_eraseP (hdistinct.partitionOf hpartition))

/-- Another time to live keeps the keys distinct. -/
theorem distinct_updateTtl (hdistinct : cache.Distinct) (ttlSeconds : UInt32) :
    (cache.updateTtl key ttlSeconds).1.Distinct := by
  rw [DistributedCache.updateTtl]
  cases hpartition : cache.partitionOf key with
  | none => exact hdistinct
  | some partition =>
    dsimp only
    cases partition.find key with
    | none => exact hdistinct
    | some entry =>
      exact distinct_setPartition hdistinct
        ((hdistinct.partitionOf hpartition).change fun _ ↦ rfl)

/-- Marking entries keeps the keys distinct. -/
theorem distinct_expireOldEntries (hdistinct : cache.Distinct) (now : UInt64) :
    (cache.expireOldEntries now).1.Distinct := by
  refine List.forall_mem_map.mpr fun node hnode i ↦ ?_
  have hkeys : ((node.partitions i).entries.map fun entry ↦ entry.expire now).map
      CacheEntry.key = (node.partitions i).entries.map CacheEntry.key := by
    rw [List.map_map]
    refine List.map_congr_left fun entry _ ↦ ?_
    rw [Function.comp_apply, CacheEntry.expire]
    split_ifs <;> rfl
  exact (congrArg List.Nodup hkeys).mpr (hdistinct node hnode i)

/-- Assumes: the key that is put, if the put is accepted, is shorter than `MAX_KEY_SIZE`. Every call
on a cache keeps the keys distinct. -/
theorem distinct_act (hdistinct : cache.Distinct) {call : CacheCall}
    (hshort : call.ShortKey cache) : (call.act cache).1.Distinct := by
  cases call with
  | addNode ip port now =>
    rw [CacheCall.act, DistributedCache.addNode]
    split_ifs
    · exact hdistinct
    · refine List.forall_mem_append.mpr ⟨hdistinct, List.forall_mem_singleton.mpr ?_⟩
      exact fun _ ↦ List.nodup_nil
  | removeNode nodeId =>
    rw [CacheCall.act, DistributedCache.removeNode]
    split_ifs
    · exact fun node hnode ↦ hdistinct node (List.mem_of_mem_eraseIdx hnode)
    · exact hdistinct
  | promoteReplica nodeId =>
    rw [CacheCall.act, DistributedCache.promoteReplica]
    split_ifs
    · refine forall_mem_modify (fun node hnode ↦ ?_) ?_ _
      · obtain ⟨old, hold, rfl⟩ := List.mem_map.mp hnode
        exact hdistinct old hold
      · exact fun _ hnode ↦ hnode
    · exact hdistinct
  | replicate numReplicas =>
    rw [CacheCall.act, DistributedCache.replicate]
    split_ifs
    · exact hdistinct
    · exact hdistinct
  | syncNode nodeId now =>
    rw [CacheCall.act, DistributedCache.syncNode]
    split_ifs
    · refine forall_mem_modify hdistinct ?_ _
      exact fun _ hnode ↦ hnode
    · exact hdistinct
  | put key value ttlSeconds now malloc => exact distinct_put hdistinct hshort
  | get key now => exact distinct_get hdistinct
  | delete key => exact distinct_delete hdistinct
  | «exists» key now => exact distinct_get hdistinct
  | updateTtl key ttlSeconds => exact distinct_updateTtl hdistinct ttlSeconds
  | expireOldEntries now => exact distinct_expireOldEntries hdistinct now
  | flushAll => exact List.forall_mem_map.mpr fun _ _ _ ↦ List.nodup_nil
  | cleanupExpired now =>
    exact List.forall_mem_map.mpr fun node hnode i ↦
      (List.filter_sublist.map _).nodup (hdistinct node hnode i)

/-! ### Runs -/

/-- The key of the call, if it is a put that is accepted, is shorter than `MAX_KEY_SIZE`. -/
def CachesShortKey (caches : List DistributedCache) : CachesCall → Prop
  | .create _ _ _ => True
  | .onCache cacheId call =>
    ∀ cache, rowOf caches cacheId = some cache → call.ShortKey cache

/-- Assumes: the key that is put, if the put is accepted, is shorter than `MAX_KEY_SIZE`. Every call
keeps the keys of every partition distinct. -/
theorem distinct_cacheStep {caches : List DistributedCache} {call : CachesCall}
    (hdistinct : ∀ cache ∈ caches, cache.Distinct) (hshort : CachesShortKey caches call) :
    ∀ cache ∈ cacheStep caches call, cache.Distinct := by
  cases call with
  | create name policy maxMemoryMb =>
    rw [cacheStep, dcacheCreate]
    split_ifs
    · exact hdistinct
    · refine List.forall_mem_append.mpr ⟨hdistinct, List.forall_mem_singleton.mpr ?_⟩
      exact fun _ hnode ↦ absurd hnode List.not_mem_nil
  | onCache cacheId call =>
    refine (forall_mem_callOn_iff hdistinct).mpr fun cache hcache ↦ ?_
    exact distinct_act (hdistinct cache (mem_of_rowOf hcache)) (hshort cache hcache)

/-- After every run whose accepted puts have keys shorter than `MAX_KEY_SIZE`, the keys of every
partition are distinct. -/
theorem distinct_runFrom {calls : List CachesCall}
    (hshort : EveryStep cachesStep (fun running call ↦ ∀ caches ∈ running,
      CachesShortKey caches call) (some []) calls) :
    ∀ caches ∈ runFrom cachesStep (some []) calls, ∀ cache ∈ caches, cache.Distinct := by
  refine runFrom_invariant (fun running ↦ ∀ caches ∈ running, ∀ cache ∈ caches, cache.Distinct)
    (fun running call ↦ ∀ caches ∈ running, CachesShortKey caches call)
    (fun running call hdistinct hcall after hafter ↦ ?_) ?_ hshort
  · obtain ⟨caches, hcaches, hstep⟩ := Option.bind_eq_some_iff.mp hafter
    split_ifs at hstep
    rw [← Option.some.inj hstep]
    exact distinct_cacheStep (hdistinct caches hcaches) (hcall caches hcaches)
  · rintro caches hcaches
    rw [← Option.some.inj hcaches]
    exact List.forall_mem_nil _

end OneOS.Caching
