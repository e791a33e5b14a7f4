import OneOS.Foundation.CStrings
import OneOS.Foundation.NumberedTable
import OneOS.Foundation.Runs
import OneOS.Foundation.Table

/-!
# The distributed key-value stores

`services/dist_kv_store.c`: a table of stores, named by their positions counted from 1. A store
keeps entries under keys, each with the versions of its value, and transactions, each of which is
one put or one delete that is carried out when it is committed.

What holds of every entry is carried by its type: its key fits into 256 bytes with the terminator,
it has a version and no more than 32, and the current one is the last (`KeyValueEntry`).

Left out are the checks of pointers, the nodes, the hash ring and what is computed from them, the
times and authors of versions and transactions, which are constant, and the calls that only look at
a store. The source declares the entries of a store as pointers and uses them as structures; they
are structures here. Whether there is memory for the hash ring of a new store is an input.
-/

set_option autoImplicit false
set_option relaxedAutoImplicit false

namespace OneOS.KvStore

open Foundation

/-! ### Entries -/

/-- `MAX_KV_STORES`. -/
def maxKvStores : ℕ := 16

/-- `MAX_KEYS`. -/
def maxKeys : ℕ := 16384

/-- `MAX_KEY_SIZE`. -/
def maxKeySize : ℕ := 256

/-- `MAX_VALUE_SIZE`. -/
def maxValueSize : ℕ := 65536

/-- `MAX_REPLICAS`. -/
def maxReplicas : UInt32 := 8

/-- `MAX_TRANSACTIONS`. -/
def maxTransactions : ℕ := 512

/-- `MAX_VERSIONS`. -/
def maxVersions : ℕ := 32

/-- `ValueVersion`. The length of the value is its `value_len`. -/
structure ValueVersion where
  version : UInt32
  value : List UInt8
  deriving DecidableEq, Repr

/-- `KeyValueEntry`. The length of the versions is `version_count`. -/
structure KeyValueEntry where
  key : CString
  versions : List ValueVersion
  currentVersion : UInt32
  accessCount : UInt32
  isTombstone : Bool
  keyFits : key.length < maxKeySize
  started : 0 < versions.length
  bounded : versions.length ≤ maxVersions
  latest : currentVersion.toNat = versions.length
  deriving DecidableEq, Repr

/-- The current version stands in the array of versions. -/
theorem KeyValueEntry.index_lt (entry : KeyValueEntry) :
    (entry.currentVersion - 1).toNat < entry.versions.length := by
  have hlatest := entry.latest
  have hstarted := entry.started
  have hle : (1 : UInt32) ≤ entry.currentVersion := by
    rw [UInt32.le_iff_toNat_le, hlatest]
    exact hstarted
  rw [UInt32.toNat_sub_of_le _ _ hle, hlatest]
  exact Nat.sub_lt hstarted Nat.one_pos

/-- The value of the current version. -/
def KeyValueEntry.value (entry : KeyValueEntry) : List UInt8 :=
  (entry.versions.get ⟨(entry.currentVersion - 1).toNat, entry.index_lt⟩).value

/-- What `kv_put` does to an entry that it finds: one more version, if there is room for it. -/
def KeyValueEntry.addVersion (entry : KeyValueEntry) (value : List UInt8) : KeyValueEntry :=
  if hroom : entry.versions.length < maxVersions then
    { entry with
      versions := entry.versions ++
        [{ version := UInt32.ofNat (entry.versions.length + 1), value := value }]
      currentVersion := UInt32.ofNat (entry.versions.length + 1)
      isTombstone := false
      started := by simp
      bounded := by
        rw [List.length_append]
        exact hroom
      latest := by
        have hsmall : entry.versions.length + 1 < UInt32.size :=
          (Nat.succ_le_of_lt hroom).trans_lt (by decide)
        rw [UInt32.toNat_ofNat_of_lt' hsmall, List.length_append, List.length_singleton] }
  else entry

/-- The entry that `kv_put` makes for a key that it does not find. -/
def newEntry (key : CString) (value : List UInt8) : KeyValueEntry where
  key := key.take (maxKeySize - 1)
  versions := [{ version := 1, value := value }]
  currentVersion := 1
  accessCount := 0
  isTombstone := false
  keyFits := by
    rw [List.length_take]
    exact (Nat.min_le_left _ _).trans_lt (by decide)
  started := Nat.one_pos
  bounded := show 1 ≤ maxVersions by decide
  latest := rfl

/-! ### Stores -/

/-- `ConsistencyModel`. -/
inductive ConsistencyModel
  | strong
  | eventual
  | causal
  deriving DecidableEq, Repr

/-- `TransactionState`. -/
inductive TransactionState
  | pending
  | committed
  | aborted
  | failed
  deriving DecidableEq, Repr

/-- `Transaction`. -/
structure Transaction where
  txId : UInt64
  operation : CString
  key : CString
  value : List UInt8
  state : TransactionState
  deriving DecidableEq, Repr

/-- `DistributedKVStore`. -/
structure DistributedKVStore where
  storeId : UInt32
  name : CString
  consistency : ConsistencyModel
  entries : List KeyValueEntry
  transactions : List Transaction
  replicaFactor : UInt32
  quorumSize : UInt32
  totalReads : UInt64
  totalWrites : UInt64
  totalDeletes : UInt64
  bytesTotal : UInt64
  deriving DecidableEq, Repr

/-- `find_entry`. -/
def findEntry (store : DistributedKVStore) (key : CString) : Option KeyValueEntry :=
  store.entries.find? fun entry ↦ entry.key = key

/-- Change the entry that `find_entry` finds. -/
def DistributedKVStore.onEntry (store : DistributedKVStore) (key : CString)
    (change : KeyValueEntry → KeyValueEntry) : DistributedKVStore :=
  { store with entries := updateFirst (fun entry ↦ entry.key = key) change store.entries }

/-- `kv_put`, on its store. -/
def DistributedKVStore.put (store : DistributedKVStore) (key : CString) (value : List UInt8) :
    DistributedKVStore × Int :=
  let counted (written : DistributedKVStore) : DistributedKVStore :=
    { written with
      totalWrites := written.totalWrites + 1
      bytesTotal := written.bytesTotal + UInt64.ofNat value.length }
  if maxValueSize < value.length then (store, -1)
  else
    match findEntry store key with
    | some _ => (counted (store.onEntry key fun entry ↦ entry.addVersion value), 0)
    | none =>
      if maxKeys ≤ store.entries.length then (store, -1)
      else (counted { store with entries := store.entries ++ [newEntry key value] }, 0)

/-- `kv_get`, on its store, with the room that there is for the value: the value that is copied out,
or none when the call fails. -/
def DistributedKVStore.get (store : DistributedKVStore) (key : CString) (valueLen : UInt32) :
    DistributedKVStore × Option (List UInt8) :=
  match findEntry store key with
  | none => (store, none)
  | some entry =>
    if entry.isTombstone then (store, none)
    else if valueLen.toNat < entry.value.length then (store, none)
    else
      let accessed := store.onEntry key fun entry ↦
        { entry with accessCount := entry.accessCount + 1 }
      ({ accessed with totalReads := accessed.totalReads + 1 }, some entry.value)

/-- `kv_delete`, on its store. -/
def DistributedKVStore.delete (store : DistributedKVStore) (key : CString) :
    DistributedKVStore × Int :=
  match findEntry store key with
  | none => (store, -1)
  | some _ =>
    let deleted := store.onEntry key fun entry ↦ { entry with isTombstone := true }
    ({ deleted with totalDeletes := deleted.totalDeletes + 1 }, 0)

/-- `kv_compact_store`, on its store. -/
def DistributedKVStore.compact (store : DistributedKVStore) : DistributedKVStore × Int :=
  ({ store with entries := store.entries.filter fun entry ↦ !entry.isTombstone }, 0)

/-! ### Transactions -/

/-- The operation `"PUT"`. -/
def operationPut : CString :=
  [⟨80, by decide⟩, ⟨85, by decide⟩, ⟨84, by decide⟩]

/-- The operation `"DELETE"`. -/
def operationDelete : CString :=
  [⟨68, by decide⟩, ⟨69, by decide⟩, ⟨76, by decide⟩, ⟨69, by decide⟩, ⟨84, by decide⟩,
    ⟨69, by decide⟩]

/-- `kv_start_transaction`, on its store, with the number of the transaction. It returns whether
there was room for it. A value is given with its length, and a pointer that is NULL gives none. -/
def DistributedKVStore.startTransaction (store : DistributedKVStore) (txId : UInt64)
    (operation key : CString) (value : List UInt8) : DistributedKVStore × Bool :=
  if maxTransactions ≤ store.transactions.length then (store, false)
  else
    ({ store with
      transactions := store.transactions ++
        [{ txId := txId
           operation := operation.take 31
           key := key.take (maxKeySize - 1)
           value := value.take maxValueSize
           state := .pending }] }, true)

/-- The call to `kv_put` or to `kv_delete` that a commit of the transaction makes. -/
def Transaction.innerCall (tx : Transaction) (store : DistributedKVStore) :
    Option (DistributedKVStore × Int) :=
  if tx.operation = operationPut then some (store.put tx.key tx.value)
  else if tx.operation = operationDelete then some (store.delete tx.key)
  else none

/-- The transaction that a number names. -/
def findTransaction (store : DistributedKVStore) (txId : UInt64) : Option Transaction :=
  store.transactions.find? fun tx ↦ tx.txId = txId

/-- Set the state of the transaction that a number names. -/
def DistributedKVStore.setState (store : DistributedKVStore) (txId : UInt64)
    (state : TransactionState) : DistributedKVStore :=
  { store with
    transactions := updateFirst (fun tx ↦ tx.txId = txId) (fun tx ↦ { tx with state := state })
      store.transactions }

/-- `kv_commit_transaction`, on its store. What the inner call returns is not looked at, nor is the
state of the transaction. -/
def DistributedKVStore.commitTransaction (store : DistributedKVStore) (txId : UInt64) :
    DistributedKVStore × Int :=
  match findTransaction store txId with
  | none => (store, -1)
  | some tx =>
    let applied := ((tx.innerCall store).map Prod.fst).getD store
    (applied.setState txId .committed, 0)

/-- `kv_abort_transaction`, on its store. -/
def DistributedKVStore.abortTransaction (store : DistributedKVStore) (txId : UInt64) :
    DistributedKVStore × Int :=
  match findTransaction store txId with
  | none => (store, -1)
  | some _ => (store.setState txId .aborted, 0)

/-! ### The table of stores -/

/-- `g_stores`, as far as `g_store_count` counts them, and `g_tx_id_counter`. -/
structure KvStores where
  stores : List DistributedKVStore
  txIdCounter : UInt64
  deriving DecidableEq, Repr

/-- No store has been created. -/
def noStores : KvStores where
  stores := []
  txIdCounter := 1

/-- The store that `kv_create_store` makes. -/
def newStore (storeId : UInt32) (name : CString) (consistency : ConsistencyModel)
    (replicaFactor : UInt32) : DistributedKVStore where
  storeId := storeId
  name := name.take 63
  consistency := consistency
  entries := []
  transactions := []
  replicaFactor := if maxReplicas < replicaFactor then maxReplicas else replicaFactor
  quorumSize := replicaFactor / 2 + 1
  totalReads := 0
  totalWrites := 0
  totalDeletes := 0
  bytesTotal := 0

/-- `kv_create_store`. -/
def kvCreateStore (kv : KvStores) (name : CString) (consistency : ConsistencyModel)
    (replicaFactor : UInt32) (malloc : Bool) : KvStores × Int :=
  if maxKvStores ≤ kv.stores.length then (kv, -1)
  else if malloc then
    let storeId := UInt32.ofNat (kv.stores.length + 1)
    ({ kv with stores := kv.stores ++ [newStore storeId name consistency replicaFactor] },
      storeId.toInt32.toInt)
  else (kv, -1)

/-- `kv_delete_store`. The stores behind the deleted one move up by one position. -/
def kvDeleteStore (kv : KvStores) (storeId : UInt32) : KvStores × Int :=
  match rowOf kv.stores storeId with
  | none => (kv, -1)
  | some _ => ({ kv with stores := kv.stores.eraseIdx (storeId.toNat - 1) }, 0)

/-- A call on the store that an id names. -/
def KvStores.call (kv : KvStores) (storeId : UInt32)
    (act : DistributedKVStore → DistributedKVStore × Int) : KvStores × Int :=
  ({ kv with stores := (callOn kv.stores storeId act).1 }, (callOn kv.stores storeId act).2)

/-- `kv_put`. -/
def kvPut (kv : KvStores) (storeId : UInt32) (key : CString) (value : List UInt8) :
    KvStores × Int :=
  kv.call storeId fun store ↦ store.put key value

/-- `kv_get`. -/
def kvGet (kv : KvStores) (storeId : UInt32) (key : CString) (valueLen : UInt32) :
    KvStores × Option (List UInt8) :=
  ((kv.call storeId fun store ↦ ((store.get key valueLen).1, 0)).1,
    (rowOf kv.stores storeId).bind fun store ↦ (store.get key valueLen).2)

/-- `kv_delete`. -/
def kvDelete (kv : KvStores) (storeId : UInt32) (key : CString) : KvStores × Int :=
  kv.call storeId fun store ↦ store.delete key

/-- `kv_compact_store`. -/
def kvCompactStore (kv : KvStores) (storeId : UInt32) : KvStores × Int :=
  kv.call storeId DistributedKVStore.compact

/-- `kv_start_transaction`: the number of the transaction, or 0. -/
def kvStartTransaction (kv : KvStores) (storeId : UInt32) (operation key : CString)
    (value : List UInt8) : KvStores × UInt64 :=
  let started := kv.call storeId fun store ↦
    ((store.startTransaction kv.txIdCounter operation key value).1,
      if (store.startTransaction kv.txIdCounter operation key value).2 then 1 else 0)
  if started.2 = 1 then
    ({ started.1 with txIdCounter := kv.txIdCounter + 1 }, kv.txIdCounter)
  else (started.1, 0)

/-- `kv_commit_transaction`. -/
def kvCommitTransaction (kv : KvStores) (storeId : UInt32) (txId : UInt64) : KvStores × Int :=
  kv.call storeId fun store ↦ store.commitTransaction txId

/-- `kv_abort_transaction`. -/
def kvAbortTransaction (kv : KvStores) (storeId : UInt32) (txId : UInt64) : KvStores × Int :=
  kv.call storeId fun store ↦ store.abortTransaction txId

/-! ### Calls -/

/-- A call on a store. -/
inductive StoreCall
  | put (key : CString) (value : List UInt8)
  | get (key : CString) (valueLen : UInt32)
  | delete (key : CString)
  | compact
  | startTransaction (operation key : CString) (value : List UInt8)
  | commitTransaction (txId : UInt64)
  | abortTransaction (txId : UInt64)

/-- A call to the stores. -/
inductive KvCall
  | createStore (name : CString) (consistency : ConsistencyModel) (replicaFactor : UInt32)
    (malloc : Bool)
  | deleteStore (storeId : UInt32)
  | onStore (storeId : UInt32) (call : StoreCall)

/-- What a call does to the stores. -/
def kvStep (kv : KvStores) : KvCall → KvStores
  | .createStore name consistency replicaFactor malloc =>
    (kvCreateStore kv name consistency replicaFactor malloc).1
  | .deleteStore storeId => (kvDeleteStore kv storeId).1
  | .onStore storeId (.put key value) => (kvPut kv storeId key value).1
  | .onStore storeId (.get key valueLen) => (kvGet kv storeId key valueLen).1
  | .onStore storeId (.delete key) => (kvDelete kv storeId key).1
  | .onStore storeId .compact => (kvCompactStore kv storeId).1
  | .onStore storeId (.startTransaction operation key value) =>
    (kvStartTransaction kv storeId operation key value).1
  | .onStore storeId (.commitTransaction txId) => (kvCommitTransaction kv storeId txId).1
  | .onStore storeId (.abortTransaction txId) => (kvAbortTransaction kv storeId txId).1

/-- The call does not delete a store. -/
def KvCall.keepsStores : KvCall → Prop
  | .deleteStore _ => False
  | _ => True

/-! ### Calls store by store -/

/-- What a call on a store does to the store, when the next transaction is given a number. -/
def StoreCall.act (txId : UInt64) (store : DistributedKVStore) :
    StoreCall → DistributedKVStore × Int
  | .put key value => store.put key value
  | .get key valueLen => ((store.get key valueLen).1, 0)
  | .delete key => store.delete key
  | .compact => store.compact
  | .startTransaction operation key value =>
    ((store.startTransaction txId operation key value).1,
      if (store.startTransaction txId operation key value).2 then 1 else 0)
  | .commitTransaction txId => store.commitTransaction txId
  | .abortTransaction txId => store.abortTransaction txId

/-- A call on a store changes the store that its id names. -/
theorem stores_kvStep_onStore (kv : KvStores) (storeId : UInt32) (call : StoreCall) :
    (kvStep kv (.onStore storeId call)).stores =
      (callOn kv.stores storeId fun store ↦ call.act kv.txIdCounter store).1 := by
  cases call with
  | startTransaction operation key value =>
    rw [kvStep, kvStartTransaction]
    split_ifs <;> rfl
  | _ => rfl

/-- What a put does: it is refused and leaves the store, or it is accepted, and it adds a version to
the entry of its key or an entry. -/
theorem put_cases (store : DistributedKVStore) (key : CString) (value : List UInt8) :
    ((store.put key value).1 = store ∧ (store.put key value).2 ≠ 0 ∧
        ¬ (value.length ≤ maxValueSize ∧
          (findEntry store key = none → store.entries.length < maxKeys))) ∨
      (store.put key value).2 = 0 ∧ value.length ≤ maxValueSize ∧
        ((∃ entry, findEntry store key = some entry ∧
            (store.put key value).1.entries =
              (store.onEntry key fun entry ↦ entry.addVersion value).entries) ∨
          findEntry store key = none ∧ store.entries.length < maxKeys ∧
            (store.put key value).1.entries = store.entries ++ [newEntry key value]) := by
  have hrefused : (-1 : Int) ≠ 0 := by decide
  unfold DistributedKVStore.put
  dsimp only
  by_cases hvalue : maxValueSize < value.length
  · rw [if_pos hvalue]
    exact Or.inl ⟨rfl, hrefused, fun haccepted ↦ absurd haccepted.1 (Nat.not_le.mpr hvalue)⟩
  · rw [if_neg hvalue]
    cases hfound : findEntry store key with
    | some entry => exact Or.inr ⟨rfl, Nat.not_lt.mp hvalue, Or.inl ⟨entry, rfl, rfl⟩⟩
    | none =>
      dsimp only
      by_cases hfull : maxKeys ≤ store.entries.length
      · rw [if_pos hfull]
        exact Or.inl ⟨rfl, hrefused, fun haccepted ↦
          absurd (haccepted.2 rfl) (Nat.not_lt.mpr hfull)⟩
      · rw [if_neg hfull]
        exact Or.inr ⟨rfl, Nat.not_lt.mp hvalue, Or.inr ⟨rfl, Nat.not_le.mp hfull, rfl⟩⟩

/-- What a delete does: it finds no entry and leaves the store, or it marks the entry. -/
theorem delete_snd_eq_zero_iff (store : DistributedKVStore) (key : CString) :
    (store.delete key).2 = 0 ↔ findEntry store key ≠ none := by
  unfold DistributedKVStore.delete
  cases findEntry store key with
  | none => exact iff_of_false (show ¬ (-1 : Int) = 0 by decide) (fun hnone ↦ hnone rfl)
  | some entry => exact iff_of_true rfl (Option.some_ne_none _)

/-! ### A record for every store -/

section Records

variable {Record : Type*}

/-- The records that are kept for the stores after a call: the one of the store that is called is
extended by the call. -/
def recordsAfter (extend : DistributedKVStore → StoreCall → Record → Record) (kv : KvStores)
    (call : KvCall) (records : UInt32 → Record) : UInt32 → Record :=
  match call with
  | .onStore storeId call =>
    match rowOf kv.stores storeId with
    | none => records
    | some store => Function.update records storeId (extend store call (records storeId))
  | _ => records

variable {extend : DistributedKVStore → StoreCall → Record → Record} {records : UInt32 → Record}
variable {matching : DistributedKVStore → Record → Prop} {blank : Record} {kv : KvStores}

/-- The condition on a call to the stores that comes from one on calls on a store. -/
def OnStore (condition : UInt32 → DistributedKVStore → StoreCall → Prop) (kv : KvStores) :
    KvCall → Prop
  | .onStore storeId call =>
    ∀ store, rowOf kv.stores storeId = some store → condition storeId store call
  | _ => True

variable {condition other : UInt32 → DistributedKVStore → StoreCall → Prop}

/-- Two conditions on calls on a store that agree on all stores that there are. -/
theorem onStore_congr (call : KvCall)
    (hiff : ∀ storeId store call, rowOf kv.stores storeId = some store →
      (condition storeId store call ↔ other storeId store call)) :
    OnStore condition kv call ↔ OnStore other kv call := by
  cases call with
  | onStore storeId call =>
    exact forall_congr' fun store ↦ forall_congr' fun hstore ↦ hiff storeId store call hstore
  | _ => exact Iff.rfl

theorem onStore_and (call : KvCall) :
    OnStore (fun storeId store call ↦ condition storeId store call ∧ other storeId store call) kv
        call ↔ OnStore condition kv call ∧ OnStore other kv call := by
  cases call with
  | onStore storeId call =>
    constructor
    · intro hboth
      exact ⟨fun store hstore ↦ (hboth store hstore).1, fun store hstore ↦ (hboth store hstore).2⟩
    · intro hboth store hstore
      exact ⟨hboth.1 store hstore, hboth.2 store hstore⟩
  | _ => exact (and_iff_left trivial).symm

/-- Assumes: a new store matches the blank record. The stores match their records after a call that
deletes none exactly when the store that is called does. -/
theorem rowsMatch_kvStep_iff (hmatch : RowsMatch matching blank kv.stores records) (call : KvCall)
    (hcall : call.keepsStores)
    (hnew : ∀ store : DistributedKVStore, store.entries = [] → store.transactions = [] →
      matching store blank) :
    RowsMatch matching blank (kvStep kv call).stores (recordsAfter extend kv call records) ↔
      OnStore (fun storeId store call ↦
        matching (call.act kv.txIdCounter store).1 (extend store call (records storeId))) kv
        call := by
  cases call with
  | createStore name consistency replicaFactor malloc =>
    refine iff_of_true ?_ trivial
    rw [kvStep, kvCreateStore]
    split_ifs
    · exact hmatch
    · exact hmatch.concat (hnew _ rfl rfl)
    · exact hmatch
  | deleteStore storeId => exact hcall.elim
  | onStore storeId call =>
    have hrecords : recordsAfter extend kv (.onStore storeId call) records =
        recordAfter kv.stores storeId (fun store record ↦ extend store call record) records := by
      rw [recordsAfter, recordAfter]
      cases rowOf kv.stores storeId with
      | none => rfl
      | some store => rfl
    rw [stores_kvStep_onStore, hrecords]
    exact hmatch.recordAfter_iff _

/-- The records of ids that name no store stay blank. -/
theorem recordsAfter_missing (call : KvCall) (hcall : call.keepsStores)
    (hmissing : ∀ storeId, rowOf kv.stores storeId = none → records storeId = blank) :
    ∀ storeId, rowOf (kvStep kv call).stores storeId = none →
      recordsAfter extend kv call records storeId = blank := by
  have hmatch : RowsMatch (fun _ _ ↦ True) blank kv.stores records :=
    ⟨fun _ _ _ ↦ trivial, hmissing⟩
  refine ((rowsMatch_kvStep_iff hmatch call hcall fun _ _ _ ↦ trivial).mpr ?_).missing
  cases call with
  | onStore storeId call => exact fun _ _ ↦ trivial
  | _ => exact trivial

end Records

end OneOS.KvStore
