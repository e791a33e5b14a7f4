import OneOS.Foundation.Compaction
import OneOS.Foundation.StoredTables
import OneOS.Foundation.StringSearch
import OneOS.KvStore.AcknowledgedWrites
import OneOS.KvStore.Transactions

/-!
# Compaction

`kv_compact_store` moves the entries that are no tombstones to the front, in place. A scan and a
count pass over tombstones, but `find_entry` stops at the first entry with the key whether or not it
is one, and could find another entry behind it once it is gone. There is none: as long as keys that
are put are shorter than `MAX_KEY_SIZE` no two entries have the same key (`Orderly`). A longer key
is cut when it is stored and is not found again. The keys of transactions are cut beforehand.

`compactStore_invisible`: after every such run, no call that looks at a store can tell whether one
is compacted.
-/

set_option autoImplicit false
set_option relaxedAutoImplicit false

namespace OneOS.KvStore

open Foundation

/-! ### Looking at a store -/

/-- The entry is no tombstone. -/
def KeyValueEntry.isLive (entry : KeyValueEntry) : Bool :=
  !entry.isTombstone

/-- `kv_exists`, on its store. -/
def DistributedKVStore.exists (store : DistributedKVStore) (key : CString) : Int :=
  match findEntry store key with
  | none => 0
  | some entry => if entry.isTombstone then 0 else 1

/-- The entries that `kv_scan` copies out: they are no tombstones, and their keys begin with the
text, if there is one. -/
def scanSelects (keyPrefix : Option CString) (entry : KeyValueEntry) : Bool :=
  entry.isLive &&
    keyPrefix.all fun text ↦ strncmpEq entry.key text (UInt32.ofNat text.length)

/-- `kv_scan`, on its store. -/
def DistributedKVStore.scan (store : DistributedKVStore) (keyPrefix : Option CString)
    (count : UInt32) : List KeyValueEntry :=
  collect (scanSelects keyPrefix) count.toNat store.entries

/-- `kv_count_keys`, on its store. -/
def DistributedKVStore.countKeys (store : DistributedKVStore) : UInt32 :=
  UInt32.ofNat (store.entries.countP KeyValueEntry.isLive)

/-- `kv_exists`. -/
def kvExists (kv : KvStores) (storeId : UInt32) (key : CString) : Int :=
  match rowOf kv.stores storeId with
  | none => -1
  | some store => store.exists key

/-- `kv_scan`: the entries that are copied out, or none when the call fails. -/
def kvScan (kv : KvStores) (storeId : UInt32) (keyPrefix : Option CString) (count : UInt32) :
    Option (List KeyValueEntry) :=
  (rowOf kv.stores storeId).map fun store ↦ store.scan keyPrefix count

/-- `kv_count_keys`: the count that is handed over, or none when the call fails. -/
def kvCountKeys (kv : KvStores) (storeId : UInt32) : Option UInt32 :=
  (rowOf kv.stores storeId).map DistributedKVStore.countKeys

/-! ### What is claimed -/

/-- No call that looks at a store can tell the stores apart. -/
structure ReadAlike (first second : KvStores) : Prop where
  get : ∀ storeId key valueLen,
    (kvGet first storeId key valueLen).2 = (kvGet second storeId key valueLen).2
  tells : ∀ storeId key, kvExists first storeId key = kvExists second storeId key
  scans : ∀ storeId keyPrefix count,
    kvScan first storeId keyPrefix count = kvScan second storeId keyPrefix count
  counts : ∀ storeId, kvCountKeys first storeId = kvCountKeys second storeId

/-- No two entries of a store that are no tombstones have the same key. -/
def LiveKeysDistinct (kv : KvStores) : Prop :=
  ∀ store ∈ kv.stores,
    ((store.entries.filter KeyValueEntry.isLive).map KeyValueEntry.key).Nodup

/-- One round of the loop of `kv_compact_store`: an entry that is already in its place is not
written. -/
def compactStoreRound (moved : (ℕ → KeyValueEntry) × ℕ) (i : ℕ) : (ℕ → KeyValueEntry) × ℕ :=
  if (moved.1 i).isTombstone then moved
  else (if moved.2 ≠ i then Function.update moved.1 moved.2 (moved.1 i) else moved.1, moved.2 + 1)

/-- The loop of `kv_compact_store`: the array of entries and the number of those that are in use
afterwards. -/
def compactStoreLoop (entries : ℕ → KeyValueEntry) (entryCount : ℕ) :
    (ℕ → KeyValueEntry) × ℕ :=
  (List.range entryCount).foldl compactStoreRound (entries, 0)

/-- The entries that the loop leaves in use are those that are kept, whatever stands behind the
entries. -/
def CompactedInPlace (store : DistributedKVStore) : Prop :=
  ∀ (entries : ℕ → KeyValueEntry) (entryCount : ℕ),
    firstOf entries entryCount = store.entries →
      firstOf (compactStoreLoop entries entryCount).1 (compactStoreLoop entries entryCount).2 =
        store.compact.1.entries

/-- The key of the call, if it is a put, is shorter than `MAX_KEY_SIZE`. -/
def StoreCall.ShortKey : StoreCall → Prop
  | .put key _ => key.length < maxKeySize
  | _ => True

/-- The key of the call, if it is a put, is shorter than `MAX_KEY_SIZE`. -/
def KvCall.ShortKey : KvCall → Prop
  | .onStore _ call => call.ShortKey
  | _ => True

/-- What makes compaction invisible: no two entries have the same key, and the keys of transactions
are stored as they are. -/
structure Orderly (store : DistributedKVStore) : Prop where
  distinct : (store.entries.map KeyValueEntry.key).Nodup
  fits : ∀ tx ∈ store.transactions, tx.key.length < maxKeySize

variable {store : DistributedKVStore} {kv : KvStores} {key : CString} {value : List UInt8}

/-! ### One store -/

/-- A change that keeps the key of an entry keeps the keys. -/
theorem keys_onEntry {change : KeyValueEntry → KeyValueEntry}
    (hkeep : ∀ entry, (change entry).key = entry.key) :
    (store.onEntry key change).entries.map KeyValueEntry.key =
      store.entries.map KeyValueEntry.key :=
  map_updateFirst fun entry _ ↦ hkeep entry

/-- Assumes: the key is shorter than `MAX_KEY_SIZE`. A put keeps the keys distinct. -/
theorem keys_put (hdistinct : (store.entries.map KeyValueEntry.key).Nodup)
    (hshort : key.length < maxKeySize) (value : List UInt8) :
    ((store.put key value).1.entries.map KeyValueEntry.key).Nodup := by
  rcases put_cases store key value with ⟨hsame, -, -⟩ | ⟨-, -, ⟨entry, -, hentries⟩ | ⟨hmissing, -,
    hentries⟩⟩
  · rw [hsame]
    exact hdistinct
  · rw [hentries, keys_onEntry fun _ ↦ KeyValueEntry.key_addVersion]
    exact hdistinct
  · rw [hentries, nodup_map_concat_iff hdistinct]
    intro entry hentry hsame
    have hkey : entry.key = key :=
      hsame.trans (List.take_of_length_le (Nat.le_sub_one_of_lt hshort))
    exact List.find?_eq_none.mp hmissing entry hentry (decide_eq_true hkey)

/-- A delete keeps the keys. -/
theorem keys_delete :
    (store.delete key).1.entries.map KeyValueEntry.key = store.entries.map KeyValueEntry.key := by
  unfold DistributedKVStore.delete
  cases findEntry store key with
  | none => rfl
  | some entry => exact keys_onEntry fun _ ↦ rfl

/-- A get keeps the keys. -/
theorem keys_get (valueLen : UInt32) :
    (store.get key valueLen).1.entries.map KeyValueEntry.key =
      store.entries.map KeyValueEntry.key := by
  unfold DistributedKVStore.get
  cases findEntry store key with
  | none => rfl
  | some entry =>
    dsimp only
    split_ifs
    · rfl
    · rfl
    · exact keys_onEntry fun _ ↦ rfl

/-- The state of a transaction has no influence on its key. -/
theorem fits_setState (hfits : ∀ tx ∈ store.transactions, tx.key.length < maxKeySize)
    (txId : UInt64) (state : TransactionState) :
    ∀ tx ∈ (store.setState txId state).transactions, tx.key.length < maxKeySize := by
  intro tx htx
  rcases mem_updateFirst htx with hold | ⟨old, hfound, rfl⟩
  · exact hfits tx hold
  · exact hfits old (List.mem_of_find?_eq_some hfound)

/-- The key of a transaction is cut when it is started. -/
theorem orderly_start (horderly : Orderly store) (counter : UInt64) (operation key : CString)
    (value : List UInt8) : Orderly (store.startTransaction counter operation key value).1 := by
  rw [DistributedKVStore.startTransaction]
  split_ifs
  · exact horderly
  · refine ⟨horderly.distinct, List.forall_mem_append.mpr ⟨horderly.fits, ?_⟩⟩
    refine List.forall_mem_singleton.mpr ?_
    rw [List.length_take]
    exact (Nat.min_le_left _ _).trans_lt (by decide)

/-- A commit puts a key that was cut when its transaction was started. -/
theorem orderly_commit (horderly : Orderly store) (txId : UInt64) :
    Orderly (store.commitTransaction txId).1 := by
  unfold DistributedKVStore.commitTransaction
  cases hfound : findTransaction store txId with
  | none => exact horderly
  | some tx =>
    have hshort := horderly.fits tx (mem_of_findTransaction hfound).1
    have happlied : Orderly (((tx.innerCall store).map Prod.fst).getD store) := by
      unfold Transaction.innerCall
      split_ifs
      · refine ⟨keys_put horderly.distinct hshort _, ?_⟩
        rw [Option.map_some, Option.getD_some, transactions_put]
        exact horderly.fits
      · refine ⟨?_, ?_⟩
        · rw [Option.map_some, Option.getD_some, keys_delete]
          exact horderly.distinct
        · rw [Option.map_some, Option.getD_some, transactions_delete]
          exact horderly.fits
      · exact horderly
    exact ⟨happlied.distinct, fits_setState happlied.fits txId .committed⟩

/-- Assumes: a put has a key that is shorter than `MAX_KEY_SIZE`. Every call on a store keeps the
keys distinct. -/
theorem orderly_act (horderly : Orderly store) (counter : UInt64) {call : StoreCall}
    (hshort : call.ShortKey) : Orderly (call.act counter store).1 := by
  cases call with
  | put key value =>
    refine ⟨keys_put horderly.distinct hshort value, ?_⟩
    rw [StoreCall.act, transactions_put]
    exact horderly.fits
  | get key valueLen =>
    refine ⟨?_, ?_⟩
    · rw [StoreCall.act, keys_get]
      exact horderly.distinct
    · rw [StoreCall.act, transactions_get]
      exact horderly.fits
  | delete key =>
    refine ⟨?_, ?_⟩
    · rw [StoreCall.act, keys_delete]
      exact horderly.distinct
    · rw [StoreCall.act, transactions_delete]
      exact horderly.fits
  | compact => exact ⟨(List.filter_sublist.map _).nodup horderly.distinct, horderly.fits⟩
  | startTransaction operation key value => exact orderly_start horderly counter operation key value
  | commitTransaction txId => exact orderly_commit horderly txId
  | abortTransaction txId =>
    rw [StoreCall.act, DistributedKVStore.abortTransaction]
    cases findTransaction store txId with
    | none => exact horderly
    | some tx => exact ⟨horderly.distinct, fits_setState horderly.fits txId .aborted⟩

/-! ### Compacting one store -/

/-- Assumes: distinct keys. The entry that is found after compaction is the one that was found, if
it is no tombstone. -/
theorem findEntry_compact (hdistinct : (store.entries.map KeyValueEntry.key).Nodup) :
    findEntry store.compact.1 key = (findEntry store key).filter KeyValueEntry.isLive :=
  find?_key_filter hdistinct _

/-- Assumes: distinct keys. Compaction leaves the value of every key. -/
theorem valueOf_compact (hdistinct : (store.entries.map KeyValueEntry.key).Nodup) :
    store.compact.1.valueOf key = store.valueOf key := by
  rw [DistributedKVStore.valueOf, DistributedKVStore.valueOf, findEntry_compact hdistinct]
  cases findEntry store key with
  | none => rfl
  | some entry =>
    cases hlive : entry.isLive with
    | true => rw [Option.filter_some_pos hlive]
    | false =>
      rw [KeyValueEntry.isLive, Bool.not_eq_false'] at hlive
      rw [Option.filter_some_neg (by simp [KeyValueEntry.isLive, hlive]), Option.bind_none,
        Option.bind_some, KeyValueEntry.shown, if_pos hlive]

/-- A key exists when it has a value. -/
theorem exists_eq_valueOf : store.exists key = if (store.valueOf key).isSome then 1 else 0 := by
  rw [DistributedKVStore.exists, DistributedKVStore.valueOf]
  cases findEntry store key with
  | none => rfl
  | some entry =>
    rw [Option.bind_some, KeyValueEntry.shown]
    by_cases htombstone : entry.isTombstone = true
    · simp [htombstone]
    · simp [htombstone]

/-- A scan selects entries that are no tombstones. -/
theorem isLive_of_scanSelects {keyPrefix : Option CString} {entry : KeyValueEntry}
    (hselects : scanSelects keyPrefix entry = true) : entry.isLive = true := by
  rw [scanSelects, Bool.and_eq_true] at hselects
  exact hselects.1

/-- Compaction leaves what a scan copies out. -/
theorem scan_compact (keyPrefix : Option CString) (count : UInt32) :
    store.compact.1.scan keyPrefix count = store.scan keyPrefix count :=
  collect_filter_live fun _ ↦ isLive_of_scanSelects

/-- Compaction leaves the number of keys. -/
theorem countKeys_compact : store.compact.1.countKeys = store.countKeys :=
  congrArg UInt32.ofNat (countP_filter_live fun _ hlive ↦ hlive)

/-- Not writing an entry that is in its place makes no difference. -/
theorem compactStoreRound_eq : compactStoreRound = compactRound KeyValueEntry.isLive := by
  funext moved i
  rw [compactStoreRound, compactRound, KeyValueEntry.isLive]
  cases (moved.1 i).isTombstone with
  | true => rfl
  | false =>
    by_cases hplace : moved.2 = i
    · simp [hplace]
    · simp [hplace]

/-- The loop leaves the entries that are no tombstones in use, in order. -/
theorem compactedInPlace (store : DistributedKVStore) : CompactedInPlace store := by
  intro entries entryCount hentries
  have hloop : compactStoreLoop entries entryCount =
      compact KeyValueEntry.isLive entryCount entries := by
    rw [compactStoreLoop, compactStoreRound_eq]
    rfl
  rw [hloop, firstOf_compact, hentries]
  rfl

/-! ### All stores -/

/-- Assumes: a put has a key that is shorter than `MAX_KEY_SIZE`. Every call keeps the keys of every
store distinct. -/
theorem orderly_kvStep (horderly : ∀ store ∈ kv.stores, Orderly store) (call : KvCall)
    (hshort : call.ShortKey) : ∀ store ∈ (kvStep kv call).stores, Orderly store := by
  cases call with
  | createStore name consistency replicaFactor malloc =>
    have hnew : ∀ storeId, Orderly (newStore storeId name consistency replicaFactor) :=
      fun _ ↦ ⟨List.nodup_nil, fun _ htx ↦ absurd htx List.not_mem_nil⟩
    rw [kvStep, kvCreateStore]
    split_ifs
    · exact horderly
    · exact List.forall_mem_append.mpr ⟨horderly, List.forall_mem_singleton.mpr (hnew _)⟩
    · exact horderly
  | deleteStore storeId =>
    rw [kvStep, kvDeleteStore]
    cases rowOf kv.stores storeId with
    | none => exact horderly
    | some store => exact fun other hother ↦ horderly other (List.mem_of_mem_eraseIdx hother)
  | onStore storeId call =>
    rw [stores_kvStep_onStore, forall_mem_callOn_iff horderly]
    exact fun store hstore ↦ orderly_act (horderly store (mem_of_rowOf hstore)) _ hshort

/-- The store of an id after a compaction. -/
theorem rowOf_kvCompactStore (kv : KvStores) (storeId other : UInt32) :
    rowOf (kvCompactStore kv storeId).1.stores other = (rowOf kv.stores other).map fun store ↦
      if other = storeId then store.compact.1 else store := by
  rw [kvCompactStore, KvStores.call]
  by_cases hother : other = storeId
  · rw [hother, rowOf_callOn_self]
    simp
  · rw [rowOf_callOn_ne hother]
    simp [hother]

/-- Assumes: a look at a store that cannot tell whether the store is compacted. It cannot tell for
any id whether a store is compacted. -/
theorem seen_kvCompactStore {Seen : Type*} (horderly : ∀ store ∈ kv.stores, Orderly store)
    (storeId other : UInt32) (look : DistributedKVStore → Seen)
    (hlook : ∀ store : DistributedKVStore, Orderly store → look store.compact.1 = look store) :
    (rowOf (kvCompactStore kv storeId).1.stores other).map look =
      (rowOf kv.stores other).map look := by
  rw [rowOf_kvCompactStore, Option.map_map]
  refine Option.map_congr fun store hstore ↦ ?_
  rw [Function.comp_apply]
  split_ifs
  · exact hlook store (horderly store (mem_of_rowOf hstore))
  · rfl

/-- Assumes: distinct keys in every store. No call that looks at a store can tell whether one is
compacted. -/
theorem readAlike_kvCompactStore (horderly : ∀ store ∈ kv.stores, Orderly store)
    (storeId : UInt32) : ReadAlike (kvCompactStore kv storeId).1 kv := by
  refine ⟨fun other key valueLen ↦ ?_, fun other key ↦ ?_, fun other keyPrefix count ↦ ?_,
    fun other ↦ ?_⟩
  · have hget := seen_kvCompactStore horderly storeId other
      (fun store ↦ (store.get key valueLen).2) fun store hstore ↦ by
        rw [get_snd, get_snd, valueOf_compact hstore.distinct]
    have hbind := congrArg (fun seen : Option (Option (List UInt8)) ↦ seen.bind id) hget
    rw [Option.bind_map, Option.bind_map, Function.id_comp] at hbind
    exact hbind
  · have hexists := seen_kvCompactStore horderly storeId other
      (fun store ↦ store.exists key) fun store hstore ↦ by
        rw [exists_eq_valueOf, exists_eq_valueOf, valueOf_compact hstore.distinct]
    have hkv : ∀ stores : KvStores, kvExists stores other key =
        ((rowOf stores.stores other).map fun store ↦ store.exists key).getD (-1) := by
      intro stores
      rw [kvExists]
      cases rowOf stores.stores other <;> rfl
    rw [hkv, hkv, hexists]
  · exact seen_kvCompactStore horderly storeId other (fun store ↦ store.scan keyPrefix count)
      fun store _ ↦ scan_compact keyPrefix count
  · exact seen_kvCompactStore horderly storeId other _ fun store _ ↦ countKeys_compact

/-- After every run whose puts have keys shorter than `MAX_KEY_SIZE`, compacting a store leaves what
`kv_get` and `kv_exists` return for every key, `kv_count_keys` returns and `kv_scan` returns for
every start of keys and every limit, in every store; the keys of entries that are no tombstones
are distinct before and after; and the loop that moves the entries in place does just that. -/
theorem compactStore_invisible (calls : List KvCall) (hshort : ∀ call ∈ calls, call.ShortKey)
    (storeId : UInt32) :
    ReadAlike (kvCompactStore (runFrom kvStep noStores calls) storeId).1
        (runFrom kvStep noStores calls) ∧
      LiveKeysDistinct (runFrom kvStep noStores calls) ∧
        LiveKeysDistinct (kvCompactStore (runFrom kvStep noStores calls) storeId).1 ∧
          ∀ store ∈ (runFrom kvStep noStores calls).stores, CompactedInPlace store := by
  have horderly : ∀ store ∈ (runFrom kvStep noStores calls).stores, Orderly store :=
    runFrom_invariant (fun kv : KvStores ↦ ∀ store ∈ kv.stores, Orderly store)
      (fun _ call ↦ KvCall.ShortKey call)
      (fun _ call horderly hshort ↦ orderly_kvStep horderly call hshort)
      (fun _ hstore ↦ absurd hstore List.not_mem_nil) (everyStep_of_forall_mem hshort)
  have hlive : ∀ {kv : KvStores}, (∀ store ∈ kv.stores, Orderly store) → LiveKeysDistinct kv :=
    fun horderly store hstore ↦
      (List.filter_sublist.map _).nodup (horderly store hstore).distinct
  refine ⟨readAlike_kvCompactStore horderly storeId, hlive horderly, hlive ?_,
    fun store _ ↦ compactedInPlace store⟩
  exact orderly_kvStep horderly (.onStore storeId .compact) trivial

/-- A key is deleted and the store compacted. -/
theorem compactStore_invisible_deleted :
    (∀ call ∈ [KvCall.createStore [] .strong 1 true, .onStore 1 (.put [⟨97, by decide⟩] [1]),
        .onStore 1 (.delete [⟨97, by decide⟩])], call.ShortKey) ∧
      ReadAlike
        (kvCompactStore (runFrom kvStep noStores
          [.createStore [] .strong 1 true, .onStore 1 (.put [⟨97, by decide⟩] [1]),
            .onStore 1 (.delete [⟨97, by decide⟩])]) 1).1
        (runFrom kvStep noStores
          [.createStore [] .strong 1 true, .onStore 1 (.put [⟨97, by decide⟩] [1]),
            .onStore 1 (.delete [⟨97, by decide⟩])]) := by
  have hshort : ∀ call ∈ [KvCall.createStore [] .strong 1 true,
      .onStore 1 (.put [⟨97, by decide⟩] [1]), .onStore 1 (.delete [⟨97, by decide⟩])],
      call.ShortKey := by
    simp [KvCall.ShortKey, StoreCall.ShortKey, maxKeySize]
  exact ⟨hshort, (compactStore_invisible _ hshort 1).1⟩

end OneOS.KvStore
