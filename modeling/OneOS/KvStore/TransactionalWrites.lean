import OneOS.KvStore.AcknowledgedWrites
import OneOS.KvStore.Transactions

/-!
# Writes through transactions

A put or a delete can be called directly or be started as a transaction and committed. The two ways
should do the same to the entries and succeed or fail alike (`Agree`). They do not always:
`kv_start_transaction` cuts the key and the value, takes a value that is NULL for an empty one, and
`kv_commit_transaction` returns 0 whatever the write returned.

`transactionalWrites_iff` is the exact condition. A put agrees when it succeeds directly and its
key, if it is too long, is not cut to the key of an entry; a delete agrees when it finds its key.
That a commit finds the transaction that was just started rests on the counter of transactions being
far from its end.
-/

set_option autoImplicit false
set_option relaxedAutoImplicit false

namespace OneOS.KvStore

open Foundation

/-! ### The two ways -/

/-- `kv_put` with a pointer to the value, which is none when it is NULL. -/
def kvPutValue (kv : KvStores) (storeId : UInt32) (key : CString) (value : Option (List UInt8)) :
    KvStores × Int :=
  match value with
  | none => (kv, -1)
  | some bytes => kvPut kv storeId key bytes

/-- `kv_start_transaction` with a pointer to the value, which is none when it is NULL, and then
`kv_commit_transaction`. -/
def throughTransaction (kv : KvStores) (storeId : UInt32) (operation key : CString)
    (value : Option (List UInt8)) : KvStores × Int :=
  let started := kvStartTransaction kv storeId operation key (value.getD [])
  kvCommitTransaction started.1 storeId started.2

/-- The entries of a store. -/
def entriesOf (kv : KvStores) (storeId : UInt32) : Option (List KeyValueEntry) :=
  (rowOf kv.stores storeId).map DistributedKVStore.entries

/-- Two ways of writing to a store leave the same entries and succeed or fail alike. -/
structure Agree (storeId : UInt32) (first second : KvStores × Int) : Prop where
  entries : entriesOf first.1 storeId = entriesOf second.1 storeId
  succeeds : first.2 = 0 ↔ second.2 = 0

/-- The condition on a put: its value is not NULL and fits, there is an entry with its key or room
for one, and if the key does not fit, no entry has the key that it is cut to. -/
def PutAgrees (store : DistributedKVStore) (key : CString) (value : Option (List UInt8)) : Prop :=
  ∃ bytes, value = some bytes ∧ bytes.length ≤ maxValueSize ∧
    (findEntry store key = none → store.entries.length < maxKeys) ∧
      (maxKeySize ≤ key.length → findEntry store (key.take (maxKeySize - 1)) = none)

/-- The condition on a delete: there is an entry with its key. -/
def DeleteAgrees (store : DistributedKVStore) (key : CString) : Prop :=
  findEntry store key ≠ none

variable {kv : KvStores} {store : DistributedKVStore} {storeId : UInt32} {key : CString}

/-! ### Keys that are cut -/

/-- A key that fits is not cut. -/
theorem take_key_of_short (hshort : key.length < maxKeySize) :
    key.take (maxKeySize - 1) = key :=
  List.take_of_length_le (Nat.le_sub_one_of_lt hshort)

/-- A key that has an entry fits. -/
theorem short_of_findEntry {entry : KeyValueEntry} (hfound : findEntry store key = some entry) :
    key.length < maxKeySize := by
  rw [← key_of_findEntry hfound]
  exact entry.keyFits

/-- The entry that is made for a key is the one that is made for what it is cut to. -/
theorem newEntry_take (value : List UInt8) :
    newEntry (key.take (maxKeySize - 1)) value = newEntry key value := by
  have hcut : (key.take (maxKeySize - 1)).take (maxKeySize - 1) = key.take (maxKeySize - 1) := by
    rw [List.take_take, Nat.min_self]
  simp only [newEntry, hcut]

/-! ### What a transaction does -/

/-- The transactions of a store have no influence on a put. -/
theorem put_with_transactions (transactions : List Transaction) (value : List UInt8) :
    ({ store with transactions := transactions }.put key value).1.entries =
      (store.put key value).1.entries := by
  unfold DistributedKVStore.put
  dsimp only
  split_ifs
  · rfl
  · have hsame : findEntry { store with transactions := transactions } key =
        findEntry store key := rfl
    rw [hsame]
    cases findEntry store key with
    | none => rfl
    | some entry => rfl
  · have hsame : findEntry { store with transactions := transactions } key =
        findEntry store key := rfl
    rw [hsame]
    cases findEntry store key with
    | none => rfl
    | some entry => rfl

/-- The transactions of a store have no influence on a delete. -/
theorem delete_with_transactions (transactions : List Transaction) :
    ({ store with transactions := transactions }.delete key).1.entries =
      (store.delete key).1.entries := by
  unfold DistributedKVStore.delete
  have hsame : findEntry { store with transactions := transactions } key =
      findEntry store key := rfl
  rw [hsame]
  cases findEntry store key with
  | none => rfl
  | some entry => rfl

/-- The transaction that is started. -/
def startedTransaction (txId : UInt64) (operation key : CString) (value : List UInt8) :
    Transaction where
  txId := txId
  operation := operation.take 31
  key := key.take (maxKeySize - 1)
  value := value.take maxValueSize
  state := .pending

/-- The store with the transaction that is started. -/
def DistributedKVStore.withStarted (store : DistributedKVStore) (txId : UInt64)
    (operation key : CString) (value : List UInt8) : DistributedKVStore :=
  { store with
    transactions := store.transactions ++ [startedTransaction txId operation key value] }

/-- Assumes: there is room for a transaction. Starting one adds it to its store and returns its
number. -/
theorem kvStartTransaction_of_room (hstore : rowOf kv.stores storeId = some store)
    (hroom : store.transactions.length < maxTransactions) (operation key : CString)
    (bytes : List UInt8) :
    rowOf (kvStartTransaction kv storeId operation key bytes).1.stores storeId =
        some (store.withStarted kv.txIdCounter operation key bytes) ∧
      (kvStartTransaction kv storeId operation key bytes).2 = kv.txIdCounter := by
  have hstart : store.startTransaction kv.txIdCounter operation key bytes =
      (store.withStarted kv.txIdCounter operation key bytes, true) := by
    rw [DistributedKVStore.startTransaction, if_neg (Nat.not_le.mpr hroom)]
    rfl
  have haccepted : (kv.call storeId fun store ↦
      ((store.startTransaction kv.txIdCounter operation key bytes).1,
        if (store.startTransaction kv.txIdCounter operation key bytes).2 then 1 else 0)).2 = 1 := by
    rw [KvStores.call, callOn_of_some hstore, hstart]
    rfl
  rw [kvStartTransaction, if_pos haccepted, KvStores.call]
  refine ⟨?_, rfl⟩
  rw [rowOf_callOn_self, hstore, Option.map_some, hstart]

/-- Assumes: the number that a transaction is given names none. The number names the transaction
once it is started. -/
theorem findTransaction_withStarted {txId : UInt64} (hfresh : findTransaction store txId = none)
    (operation key : CString) (bytes : List UInt8) :
    findTransaction (store.withStarted txId operation key bytes) txId =
      some (startedTransaction txId operation key bytes) := by
  rw [findTransaction] at hfresh
  rw [findTransaction, DistributedKVStore.withStarted, List.find?_append, hfresh, Option.none_or]
  exact List.find?_cons_of_pos (decide_eq_true rfl)

/-- Assumes: there is room for a transaction and the number that it is given names none. A commit
carries out the transaction that was just started, and returns 0. -/
theorem throughTransaction_eq (hstore : rowOf kv.stores storeId = some store)
    (hroom : store.transactions.length < maxTransactions)
    (hfresh : findTransaction store kv.txIdCounter = none) (operation key : CString)
    (value : Option (List UInt8)) :
    entriesOf (throughTransaction kv storeId operation key value).1 storeId =
        some ((((startedTransaction kv.txIdCounter operation key (value.getD [])).innerCall
          (store.withStarted kv.txIdCounter operation key (value.getD []))).map Prod.fst).getD
            store).entries ∧
      (throughTransaction kv storeId operation key value).2 = 0 := by
  obtain ⟨hrow, hnumber⟩ := kvStartTransaction_of_room hstore hroom operation key (value.getD [])
  have hfound := findTransaction_withStarted hfresh operation key (value.getD [])
  have hcommit : (store.withStarted kv.txIdCounter operation key (value.getD [])).commitTransaction
      kv.txIdCounter =
        (((((startedTransaction kv.txIdCounter operation key (value.getD [])).innerCall
          (store.withStarted kv.txIdCounter operation key (value.getD []))).map Prod.fst).getD
            (store.withStarted kv.txIdCounter operation key (value.getD []))).setState
              kv.txIdCounter .committed, 0) := by
    rw [DistributedKVStore.commitTransaction, hfound]
  rw [throughTransaction, kvCommitTransaction, KvStores.call, entriesOf, rowOf_callOn_self, hrow,
    hnumber, callOn_of_some hrow, Option.map_some, Option.map_some, hcommit]
  refine ⟨?_, rfl⟩
  cases (startedTransaction kv.txIdCounter operation key (value.getD [])).innerCall
    (store.withStarted kv.txIdCounter operation key (value.getD [])) with
  | none => rfl
  | some done => rfl

/-! ### Puts -/

/-- Assumes: there is room for a transaction and the number that it is given names none. What a put
through a transaction leaves. -/
theorem entriesOf_putThrough (hstore : rowOf kv.stores storeId = some store)
    (hroom : store.transactions.length < maxTransactions)
    (hfresh : findTransaction store kv.txIdCounter = none) (key : CString)
    (value : Option (List UInt8)) :
    entriesOf (throughTransaction kv storeId operationPut key value).1 storeId =
        some (store.put (key.take (maxKeySize - 1))
          ((value.getD []).take maxValueSize)).1.entries ∧
      (throughTransaction kv storeId operationPut key value).2 = 0 := by
  obtain ⟨hentries, hanswer⟩ :=
    throughTransaction_eq hstore hroom hfresh operationPut key value
  refine ⟨?_, hanswer⟩
  have hput : (startedTransaction kv.txIdCounter operationPut key (value.getD [])).operation =
      operationPut := rfl
  rw [hentries, Transaction.innerCall, if_pos hput, Option.map_some, Option.getD_some,
    DistributedKVStore.withStarted, put_with_transactions]
  rfl

/-- What a direct put leaves. -/
theorem entriesOf_kvPut (hstore : rowOf kv.stores storeId = some store) (key : CString)
    (bytes : List UInt8) :
    entriesOf (kvPut kv storeId key bytes).1 storeId = some (store.put key bytes).1.entries ∧
      (kvPut kv storeId key bytes).2 = (store.put key bytes).2 := by
  rw [kvPut, KvStores.call, entriesOf, rowOf_callOn_self, hstore, callOn_of_some hstore]
  exact ⟨rfl, rfl⟩

/-- A put of the key and value that a transaction keeps leaves the same entries as an accepted put
of the key and value themselves exactly when the key is not cut to that of an entry. -/
theorem entries_put_take_iff {bytes : List UInt8} (haccepted : (store.put key bytes).2 = 0) :
    (store.put (key.take (maxKeySize - 1)) (bytes.take maxValueSize)).1.entries =
        (store.put key bytes).1.entries ↔
      (maxKeySize ≤ key.length → findEntry store (key.take (maxKeySize - 1)) = none) := by
  have hbytes : bytes.take maxValueSize = bytes := by
    rcases put_cases store key bytes with ⟨-, hrefused, -⟩ | ⟨-, hlength, -⟩
    · exact absurd haccepted hrefused
    · exact List.take_of_length_le hlength
  rw [hbytes]
  by_cases hshort : key.length < maxKeySize
  · rw [take_key_of_short hshort]
    exact iff_of_true rfl fun hlong ↦ absurd hshort (Nat.not_lt.mpr hlong)
  · -- a key that does not fit has no entry, so that one is added
    have hdirect : findEntry store key = none ∧ store.entries.length < maxKeys ∧
        (store.put key bytes).1.entries = store.entries ++ [newEntry key bytes] := by
      rcases put_cases store key bytes with ⟨-, hrefused, -⟩ | ⟨-, -, ⟨entry, hfound, -⟩ | hnew⟩
      · exact absurd haccepted hrefused
      · exact absurd (short_of_findEntry hfound) hshort
      · exact hnew
    obtain ⟨-, hspace, hentries⟩ := hdirect
    rw [hentries]
    constructor
    · intro hsame _
      by_contra hfound
      obtain ⟨entry, hentry⟩ := Option.ne_none_iff_exists'.mp hfound
      have hlength := congrArg List.length hsame
      rcases put_cases store (key.take (maxKeySize - 1)) bytes with ⟨hrefused, -, -⟩ | ⟨-, -,
        ⟨-, -, hcut⟩ | ⟨hnone, -, -⟩⟩
      · rw [hrefused, List.length_append, List.length_singleton] at hlength
        exact absurd hlength (Nat.ne_of_lt (Nat.lt_succ_self _))
      · rw [hcut, DistributedKVStore.onEntry, updateFirst, List.length_modify, List.length_append,
          List.length_singleton] at hlength
        exact absurd hlength (Nat.ne_of_lt (Nat.lt_succ_self _))
      · exact hfound hnone
    · intro hmissing
      have hnone := hmissing (Nat.not_lt.mp hshort)
      rcases put_cases store (key.take (maxKeySize - 1)) bytes with ⟨-, -, hnot⟩ | ⟨-, -,
        ⟨entry, hfound, -⟩ | ⟨-, -, hcut⟩⟩
      · have hlength : bytes.length ≤ maxValueSize := by
          rw [← hbytes, List.length_take]
          exact Nat.min_le_left _ _
        exact absurd ⟨hlength, fun _ ↦ hspace⟩ hnot
      · exact absurd (hnone.symm.trans hfound) (by simp)
      · rw [hcut, newEntry_take]

/-- Assumes: there is room for a transaction and the number that it is given names none. The two
ways of putting agree exactly under the condition. -/
theorem agree_put_iff (hstore : rowOf kv.stores storeId = some store)
    (hroom : store.transactions.length < maxTransactions)
    (hfresh : findTransaction store kv.txIdCounter = none) (value : Option (List UInt8)) :
    Agree storeId (throughTransaction kv storeId operationPut key value)
        (kvPutValue kv storeId key value) ↔ PutAgrees store key value := by
  obtain ⟨hthrough, hanswer⟩ := entriesOf_putThrough hstore hroom hfresh key value
  cases value with
  | none =>
    refine iff_of_false (fun hagree ↦ ?_) ?_
    · exact absurd (hagree.succeeds.mp hanswer) (show (-1 : Int) ≠ 0 by decide)
    · rintro ⟨bytes, hnull, -⟩
      exact Option.some_ne_none _ hnull.symm
  | some bytes =>
    obtain ⟨hdirect, hdirectAnswer⟩ := entriesOf_kvPut hstore key bytes
    have haccepts : (store.put key bytes).2 = 0 ↔ bytes.length ≤ maxValueSize ∧
        (findEntry store key = none → store.entries.length < maxKeys) := by
      rcases put_cases store key bytes with ⟨-, hrefused, hnot⟩ | ⟨haccepted, hlength,
        ⟨entry, hfound, -⟩ | ⟨-, hspace, -⟩⟩
      · exact iff_of_false hrefused hnot
      · exact iff_of_true haccepted
          ⟨hlength, fun hnone ↦ absurd (hnone.symm.trans hfound) (by simp)⟩
      · exact iff_of_true haccepted ⟨hlength, fun _ ↦ hspace⟩
    constructor
    · intro hagree
      have haccepted : (store.put key bytes).2 = 0 :=
        hdirectAnswer.symm.trans (hagree.succeeds.mp hanswer)
      have hentries := Option.some.inj (hthrough.symm.trans (hagree.entries.trans hdirect))
      obtain ⟨hlength, hspace⟩ := haccepts.mp haccepted
      exact ⟨bytes, rfl, hlength, hspace, (entries_put_take_iff haccepted).mp hentries⟩
    · rintro ⟨_, hbytes, hlength, hspace, hcut⟩
      obtain rfl := Option.some.inj hbytes
      have haccepted := haccepts.mpr ⟨hlength, hspace⟩
      refine ⟨?_, iff_of_true hanswer (hdirectAnswer.trans haccepted)⟩
      rw [hthrough, kvPutValue, hdirect]
      exact congrArg some ((entries_put_take_iff haccepted).mpr hcut)

/-! ### Deletes -/

/-- Assumes: there is room for a transaction and the number that it is given names none. What a
delete through a transaction leaves. -/
theorem entriesOf_deleteThrough (hstore : rowOf kv.stores storeId = some store)
    (hroom : store.transactions.length < maxTransactions)
    (hfresh : findTransaction store kv.txIdCounter = none) (key : CString)
    (value : Option (List UInt8)) :
    entriesOf (throughTransaction kv storeId operationDelete key value).1 storeId =
        some (store.delete (key.take (maxKeySize - 1))).1.entries ∧
      (throughTransaction kv storeId operationDelete key value).2 = 0 := by
  obtain ⟨hentries, hanswer⟩ :=
    throughTransaction_eq hstore hroom hfresh operationDelete key value
  refine ⟨?_, hanswer⟩
  have hdelete : (startedTransaction kv.txIdCounter operationDelete key (value.getD [])).operation =
      operationDelete := rfl
  have hput : operationDelete ≠ operationPut := by decide
  rw [hentries, Transaction.innerCall, hdelete, if_neg hput, if_pos rfl, Option.map_some,
    Option.getD_some, DistributedKVStore.withStarted, delete_with_transactions]
  rfl

/-- Assumes: there is room for a transaction and the number that it is given names none. The two
ways of deleting agree exactly when the key has an entry. -/
theorem agree_delete_iff (hstore : rowOf kv.stores storeId = some store)
    (hroom : store.transactions.length < maxTransactions)
    (hfresh : findTransaction store kv.txIdCounter = none) (value : Option (List UInt8)) :
    Agree storeId (throughTransaction kv storeId operationDelete key value)
        (kvDelete kv storeId key) ↔ DeleteAgrees store key := by
  obtain ⟨hthrough, hanswer⟩ := entriesOf_deleteThrough hstore hroom hfresh key value
  have hdirectAnswer : (kvDelete kv storeId key).2 = (store.delete key).2 := by
    rw [kvDelete, KvStores.call, callOn_of_some hstore]
  rw [DeleteAgrees, ← delete_snd_eq_zero_iff, ← hdirectAnswer]
  constructor
  · exact fun hagree ↦ hagree.succeeds.mp hanswer
  · intro hdeleted
    refine ⟨?_, iff_of_true hanswer hdeleted⟩
    rw [hdirectAnswer, delete_snd_eq_zero_iff] at hdeleted
    obtain ⟨entry, hfound⟩ := Option.ne_none_iff_exists'.mp hdeleted
    rw [hthrough, take_key_of_short (short_of_findEntry hfound), kvDelete, KvStores.call, entriesOf,
      rowOf_callOn_self, hstore]
    rfl

/-! ### Numbers of transactions -/

/-- The counter has been raised at most so often, and the transactions have numbers that it has
passed. -/
structure Passed (raised : ℕ) (kv : KvStores) : Prop where
  counter : kv.txIdCounter.toNat ≤ 1 + raised
  older : ∀ store ∈ kv.stores, ∀ txId ∈ store.transactions.map Transaction.txId,
    txId < kv.txIdCounter

/-- The counter is raised by at most one, as long as it is not at its end. -/
theorem txIdCounter_kvStep (kv : KvStores) (call : KvCall) :
    (kvStep kv call).txIdCounter = kv.txIdCounter ∨
      (kvStep kv call).txIdCounter = kv.txIdCounter + 1 := by
  cases call with
  | createStore name consistency replicaFactor malloc =>
    rw [kvStep, kvCreateStore]
    split_ifs <;> exact Or.inl rfl
  | deleteStore storeId =>
    rw [kvStep, kvDeleteStore]
    cases rowOf kv.stores storeId with
    | none => exact Or.inl rfl
    | some store => exact Or.inl rfl
  | onStore storeId call =>
    cases hstore : rowOf kv.stores storeId with
    | none =>
      rw [kvStep_onStore_of_none call hstore]
      exact Or.inl rfl
    | some store =>
      rw [txIdCounter_onStore call hstore]
      split_ifs
      · exact Or.inr rfl
      · exact Or.inl rfl

/-- Assumes: the counter is not at its end. Every call leaves the transactions with numbers that the
counter has passed. -/
theorem passed_step {raised : ℕ} (hpassed : Passed raised kv) (hraised : raised + 2 < 2 ^ 64)
    (call : KvCall) : Passed (raised + 1) (kvStep kv call) := by
  have hsucc : (kv.txIdCounter + 1).toNat = kv.txIdCounter.toNat + 1 := by
    rw [UInt64.toNat_add, UInt64.toNat_one]
    exact Nat.mod_eq_of_lt (by have hcounter := hpassed.counter; omega)
  have hle : kv.txIdCounter ≤ (kvStep kv call).txIdCounter := by
    rw [UInt64.le_iff_toNat_le]
    rcases txIdCounter_kvStep kv call with hsame | hnext
    · rw [hsame]
    · rw [hnext, hsucc]
      exact Nat.le_succ _
  have hkept : ∀ store ∈ kv.stores, ∀ txId ∈ store.transactions.map Transaction.txId,
      txId < (kvStep kv call).txIdCounter :=
    fun store hstore txId htx ↦ UInt64.lt_of_lt_of_le (hpassed.older store hstore txId htx) hle
  refine ⟨?_, ?_⟩
  · have hcounter := hpassed.counter
    rcases txIdCounter_kvStep kv call with hsame | hnext
    · rw [hsame]
      omega
    · rw [hnext, hsucc]
      omega
  · cases call with
    | createStore name consistency replicaFactor malloc =>
      rw [kvStep, kvCreateStore] at hkept ⊢
      split_ifs at hkept ⊢
      · exact hkept
      · exact List.forall_mem_append.mpr
          ⟨hkept, List.forall_mem_singleton.mpr fun _ htx ↦ absurd htx List.not_mem_nil⟩
      · exact hkept
    | deleteStore storeId =>
      rw [kvStep, kvDeleteStore] at hkept ⊢
      cases hstore : rowOf kv.stores storeId with
      | none =>
        rw [hstore] at hkept
        exact hkept
      | some store =>
        rw [hstore] at hkept
        exact fun other hother ↦ hkept other (List.mem_of_mem_eraseIdx hother)
    | onStore storeId call =>
      rw [stores_kvStep_onStore, forall_mem_callOn_iff hkept]
      intro store hstore txId htx
      rw [txIds_act] at htx
      rcases List.mem_append.mp htx with hold | hnew
      · exact hkept store (mem_of_rowOf hstore) txId hold
      · -- the only new number is the one that the counter has just passed
        rw [txIdCounter_onStore call hstore]
        split_ifs at hnew ⊢ with hstarts
        · rw [List.mem_singleton.mp hnew, UInt64.lt_iff_toNat_lt, hsucc]
          exact Nat.lt_succ_self _
        · exact absurd hnew List.not_mem_nil

/-- In a run of fewer calls than the counter can count, the transactions have numbers that it has
passed. -/
theorem passed_runFrom (calls : List KvCall) (hlength : calls.length + 1 < 2 ^ 64) :
    Passed calls.length (runFrom kvStep noStores calls) := by
  induction calls using List.reverseRecOn with
  | nil => exact ⟨Nat.le_refl 1, fun _ hstore ↦ absurd hstore List.not_mem_nil⟩
  | append_singleton calls call ih =>
    rw [List.length_append, List.length_singleton] at hlength ⊢
    rw [runFrom_append]
    exact passed_step (ih (by omega)) (by omega) call

/-- The number that the next transaction is given names none. -/
theorem Passed.findTransaction_counter {raised : ℕ} (hpassed : Passed raised kv)
    (hstore : rowOf kv.stores storeId = some store) :
    findTransaction store kv.txIdCounter = none := by
  rw [findTransaction, List.find?_eq_none]
  intro tx htx hsame
  have holder := hpassed.older store (mem_of_rowOf hstore) tx.txId (List.mem_map_of_mem htx)
  rw [of_decide_eq_true hsame] at holder
  exact UInt64.lt_irrefl _ holder

/-! ### Every reachable store -/

/-- In every store that a run of fewer than `2 ^ 64 - 1` calls reaches, and that has a free slot for
a transaction: a put through a transaction leaves the entries of the direct put and succeeds or
fails like it exactly when the value is not NULL and fits, the key has an entry or there is room for
one, and no entry has the key that a key that does not fit is cut to; a delete through a transaction
agrees with the direct one exactly when its key has an entry. -/
theorem transactionalWrites_iff (calls : List KvCall) (hlength : calls.length + 1 < 2 ^ 64)
    (storeId : UInt32) (store : DistributedKVStore)
    (hstore : rowOf (runFrom kvStep noStores calls).stores storeId = some store)
    (hroom : store.transactions.length < maxTransactions) (key : CString)
    (value : Option (List UInt8)) :
    (Agree storeId
        (throughTransaction (runFrom kvStep noStores calls) storeId operationPut key value)
        (kvPutValue (runFrom kvStep noStores calls) storeId key value) ↔
          PutAgrees store key value) ∧
      (Agree storeId
        (throughTransaction (runFrom kvStep noStores calls) storeId operationDelete key value)
        (kvDelete (runFrom kvStep noStores calls) storeId key) ↔ DeleteAgrees store key) := by
  have hfresh := (passed_runFrom calls hlength).findTransaction_counter hstore
  exact ⟨agree_put_iff hstore hroom hfresh value, agree_delete_iff hstore hroom hfresh value⟩

/-- A put of a new key and a delete of a missing one, on a new store. -/
theorem transactionalWrites_new_store :
    Agree 1
        (throughTransaction (runFrom kvStep noStores [.createStore [] .strong 1 true]) 1
          operationPut [⟨97, by decide⟩] (some [1]))
        (kvPutValue (runFrom kvStep noStores [.createStore [] .strong 1 true]) 1
          [⟨97, by decide⟩] (some [1])) ∧
      ¬ Agree 1
        (throughTransaction (runFrom kvStep noStores [.createStore [] .strong 1 true]) 1
          operationDelete [⟨97, by decide⟩] (some [1]))
        (kvDelete (runFrom kvStep noStores [.createStore [] .strong 1 true]) 1
          [⟨97, by decide⟩]) := by
  have hboth := transactionalWrites_iff [.createStore [] .strong 1 true] (by decide) 1
    (newStore 1 [] .strong 1) (by decide) (by decide) [⟨97, by decide⟩] (some [1])
  refine ⟨hboth.1.mpr ⟨[1], rfl, by decide, fun _ ↦ by decide, fun hlong ↦ ?_⟩, fun hagree ↦ ?_⟩
  · exact absurd hlong (by decide)
  · exact hboth.2.mp hagree (by decide)

/-- Deleting a key that is not there fails, and succeeds through a transaction; a value of NULL is
refused, and put through a transaction. -/
theorem not_agree_missing_key_null_value :
    ¬ Agree 1
        (throughTransaction (runFrom kvStep noStores [.createStore [] .strong 1 true]) 1
          operationDelete [⟨97, by decide⟩] none)
        (kvDelete (runFrom kvStep noStores [.createStore [] .strong 1 true]) 1
          [⟨97, by decide⟩]) ∧
      ¬ Agree 1
        (throughTransaction (runFrom kvStep noStores [.createStore [] .strong 1 true]) 1
          operationPut [⟨97, by decide⟩] none)
        (kvPutValue (runFrom kvStep noStores [.createStore [] .strong 1 true]) 1
          [⟨97, by decide⟩] none) := by
  refine ⟨fun hagree ↦ ?_, fun hagree ↦ ?_⟩
  · exact absurd hagree.succeeds (by decide)
  · exact absurd hagree.succeeds (by decide)

end OneOS.KvStore
