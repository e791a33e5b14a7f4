import OneOS.KvStore.Compaction

/-!
# The versions of a key

`kv_put` keeps the values of a key as versions, and `kv_get_version`, `kv_get_all_versions` and
`kv_get_version_history` read them. The values that were put for each key of a store are recorded
beside the stores (`historyAfter`): puts that are accepted add to them, also those of committed
transactions, and compaction forgets the keys that are deleted.

After every run the versions of a key are the first 32 of these values, numbered from 1 on
(`versions_run`). So a version never changes as long as the key is there, values that are put later
than that are not among the versions although the put is accepted, and a deleted value can be read
as a version until the store is compacted; a key that is put again meanwhile goes on with the
versions it had.
-/

set_option autoImplicit false
set_option relaxedAutoImplicit false

namespace OneOS.KvStore

open Foundation

/-! ### Reading versions -/

/-- `kv_get_version`, on its store, with the room that there is for the value. -/
def DistributedKVStore.getVersion (store : DistributedKVStore) (key : CString)
    (version valueLen : UInt32) : Option (List UInt8) :=
  match findEntry store key with
  | none => none
  | some entry =>
    if version = 0 ∨ entry.versions.length < version.toNat then none
    else
      match entry.versions[version.toNat - 1]? with
      | none => none
      | some found => if valueLen.toNat < found.value.length then none else some found.value

/-- `kv_get_all_versions`, on its store, with the number of values that there is room for. -/
def DistributedKVStore.getAllVersions (store : DistributedKVStore) (key : CString)
    (versionCount : UInt32) : Option (List (List UInt8)) :=
  match findEntry store key with
  | none => none
  | some entry =>
    if versionCount.toNat < entry.versions.length then none
    else some (entry.versions.map ValueVersion.value)

/-- `kv_get_version_history`, on its store, with the number of versions that there is room for. -/
def DistributedKVStore.getVersionHistory (store : DistributedKVStore) (key : CString)
    (count : UInt32) : Option (List ValueVersion) :=
  match findEntry store key with
  | none => none
  | some entry => if count.toNat < entry.versions.length then none else some entry.versions

/-- `kv_get_version`. -/
def kvGetVersion (kv : KvStores) (storeId : UInt32) (key : CString) (version valueLen : UInt32) :
    Option (List UInt8) :=
  (rowOf kv.stores storeId).bind fun store ↦ store.getVersion key version valueLen

/-- `kv_get_all_versions`. -/
def kvGetAllVersions (kv : KvStores) (storeId : UInt32) (key : CString) (versionCount : UInt32) :
    Option (List (List UInt8)) :=
  (rowOf kv.stores storeId).bind fun store ↦ store.getAllVersions key versionCount

/-- `kv_get_version_history`. -/
def kvGetVersionHistory (kv : KvStores) (storeId : UInt32) (key : CString) (count : UInt32) :
    Option (List ValueVersion) :=
  (rowOf kv.stores storeId).bind fun store ↦ store.getVersionHistory key count

/-! ### What has been put -/

/-- The values that were put for each key of a store, the oldest first. -/
abbrev StoreHistory := CString → List (List UInt8)

/-- A put is recorded when it is accepted. -/
def recordPut (store : DistributedKVStore) (key : CString) (value : List UInt8)
    (history : StoreHistory) : StoreHistory :=
  if (store.put key value).2 = 0 then Function.update history key (history key ++ [value])
  else history

/-- The values that were put, after a call on a store. -/
def historyAfter (store : DistributedKVStore) (call : StoreCall) (history : StoreHistory) :
    StoreHistory :=
  match call with
  | .put key value => recordPut store key value history
  | .commitTransaction txId =>
    match findTransaction store txId with
    | none => history
    | some tx =>
      if tx.operation = operationPut then recordPut store tx.key tx.value history else history
  | .compact => fun key ↦
    if (findEntry store key).any KeyValueEntry.isTombstone then [] else history key
  | _ => history

/-- Values as versions. -/
def numberVersions (values : List (List UInt8)) : List ValueVersion :=
  values.mapIdx fun i value ↦ ⟨UInt32.ofNat (i + 1), value⟩

/-- The versions of a key. -/
def DistributedKVStore.versionsOf (store : DistributedKVStore) (key : CString) :
    List ValueVersion :=
  (findEntry store key).elim [] KeyValueEntry.versions

/-- The versions of every key are the first values that were put. -/
structure KeepsHistory (store : DistributedKVStore) (history : StoreHistory) : Prop where
  orderly : Orderly store
  versions : ∀ key, store.versionsOf key = numberVersions ((history key).take maxVersions)

variable {store later : DistributedKVStore} {history : StoreHistory} {key other : CString}
variable {value : List UInt8}

/-! ### Entries and their versions -/

theorem versionsOf_congr (hentries : later.entries = store.entries) :
    later.versionsOf = store.versionsOf := by
  funext key
  rw [DistributedKVStore.versionsOf, DistributedKVStore.versionsOf, findEntry, findEntry, hentries]

/-- A change that keeps the key and the versions of an entry. -/
theorem versionsOf_onEntry {change : KeyValueEntry → KeyValueEntry}
    (hkeep : ∀ entry, (change entry).key = entry.key)
    (hversions : ∀ entry, (change entry).versions = entry.versions) :
    (store.onEntry key change).versionsOf = store.versionsOf := by
  funext other
  rw [DistributedKVStore.versionsOf, DistributedKVStore.versionsOf, findEntry_onEntry hkeep]
  split_ifs
  · cases findEntry store other with
    | none => rfl
    | some entry => exact hversions entry
  · rfl

theorem numberVersions_concat (values : List (List UInt8)) (value : List UInt8) :
    numberVersions (values ++ [value]) =
      numberVersions values ++ [⟨UInt32.ofNat (values.length + 1), value⟩] := by
  rw [numberVersions, List.mapIdx_concat, numberVersions]

theorem length_numberVersions (values : List (List UInt8)) :
    (numberVersions values).length = values.length :=
  List.length_mapIdx

/-- A version is added while there is room for it. -/
theorem addVersion_versions {entry : KeyValueEntry} {values : List (List UInt8)}
    (hversions : entry.versions = numberVersions (values.take maxVersions)) (value : List UInt8) :
    (entry.addVersion value).versions = numberVersions ((values ++ [value]).take maxVersions) := by
  have hlength : entry.versions.length = min maxVersions values.length := by
    rw [hversions, length_numberVersions, List.length_take]
  by_cases hroom : entry.versions.length < maxVersions
  · have hfew : values.length < maxVersions := by omega
    have hadded : (entry.addVersion value).versions =
        entry.versions ++ [⟨UInt32.ofNat (entry.versions.length + 1), value⟩] := by
      rw [KeyValueEntry.addVersion, dif_pos hroom]
    rw [hadded, hversions, length_numberVersions, List.take_of_length_le hfew.le,
      List.take_of_length_le (by simpa using Nat.succ_le_of_lt hfew), numberVersions_concat]
  · rw [KeyValueEntry.addVersion_of_full hroom, hversions, List.take_append_of_le_length (by omega)]

/-! ### Calls on one store -/

/-- A put adds to what was put, if it is accepted. -/
theorem keepsHistory_put (hkeeps : KeepsHistory store history) (hshort : key.length < maxKeySize)
    (value : List UInt8) (other : CString) :
    (store.put key value).1.versionsOf other =
      numberVersions ((recordPut store key value history other).take maxVersions) := by
  rcases put_cases store key value with ⟨hsame, hrefused, -⟩ | ⟨haccepted, -,
    ⟨entry, hfound, hentries⟩ | ⟨hmissing, -, hentries⟩⟩
  · rw [recordPut, if_neg hrefused, hsame]
    exact hkeeps.versions other
  · rw [recordPut, if_pos haccepted, versionsOf_congr hentries, DistributedKVStore.versionsOf,
      findEntry_onEntry fun _ ↦ KeyValueEntry.key_addVersion]
    by_cases hother : other = key
    · have hversions := hkeeps.versions key
      rw [DistributedKVStore.versionsOf, hfound] at hversions
      rw [hother, if_pos rfl, hfound, Function.update_self]
      exact addVersion_versions hversions value
    · rw [if_neg hother, Function.update_of_ne hother]
      exact hkeeps.versions other
  · have hkey : (newEntry key value).key = key :=
      List.take_of_length_le (Nat.le_sub_one_of_lt hshort)
    have hfound : findEntry (store.put key value).1 other =
        (findEntry store other).or (if other = key then some (newEntry key value) else none) := by
      rw [findEntry, hentries, List.find?_append, findEntry]
      congr 1
      by_cases hother : other = key
      · rw [if_pos hother, List.find?_cons_of_pos (by rw [hkey, hother]; exact decide_eq_true rfl)]
      · rw [if_neg hother, List.find?_cons_of_neg (by rw [hkey]; simpa using Ne.symm hother),
          List.find?_nil]
    rw [recordPut, if_pos haccepted, DistributedKVStore.versionsOf, hfound]
    by_cases hother : other = key
    · have hnone := hkeeps.versions key
      rw [DistributedKVStore.versionsOf, hmissing] at hnone
      have hempty : history key = [] := by
        have hlength := congrArg List.length hnone
        rw [length_numberVersions, List.length_take, Option.elim_none, List.length_nil] at hlength
        have hroom : 0 < maxVersions := by decide
        exact List.eq_nil_of_length_eq_zero (by omega)
      rw [hother, if_pos rfl, hmissing, Function.update_self, hempty]
      rfl
    · rw [if_neg hother, Function.update_of_ne hother, Option.or_none]
      exact hkeeps.versions other

/-- A delete keeps the versions. -/
theorem versionsOf_delete (store : DistributedKVStore) (key : CString) :
    (store.delete key).1.versionsOf = store.versionsOf := by
  unfold DistributedKVStore.delete
  cases findEntry store key with
  | none => rfl
  | some entry => exact versionsOf_onEntry (fun _ ↦ rfl) fun _ ↦ rfl

/-- A get keeps the versions. -/
theorem versionsOf_get (store : DistributedKVStore) (key : CString) (valueLen : UInt32) :
    (store.get key valueLen).1.versionsOf = store.versionsOf := by
  unfold DistributedKVStore.get
  cases findEntry store key with
  | none => rfl
  | some entry =>
    dsimp only
    split_ifs
    · rfl
    · rfl
    · exact versionsOf_onEntry (fun _ ↦ rfl) fun _ ↦ rfl

/-- Compaction takes the versions of the deleted keys. -/
theorem versionsOf_compact (horderly : Orderly store) (key : CString) :
    store.compact.1.versionsOf key =
      if (findEntry store key).any KeyValueEntry.isTombstone then [] else store.versionsOf key := by
  rw [DistributedKVStore.versionsOf, findEntry_compact horderly.distinct,
    DistributedKVStore.versionsOf]
  cases findEntry store key with
  | none => rfl
  | some entry =>
    cases hdeleted : entry.isTombstone with
    | true => simp [KeyValueEntry.isLive, hdeleted, Option.filter]
    | false => simp [KeyValueEntry.isLive, hdeleted, Option.filter]

/-- A call on a store. -/
theorem keepsHistory_act (hkeeps : KeepsHistory store history) (counter : UInt64) {call : StoreCall}
    (hshort : call.ShortKey) :
    KeepsHistory (call.act counter store).1 (historyAfter store call history) := by
  refine ⟨orderly_act hkeeps.orderly counter hshort, fun other ↦ ?_⟩
  cases call with
  | put key value => exact keepsHistory_put hkeeps hshort value other
  | get key valueLen =>
    rw [StoreCall.act, versionsOf_get]
    exact hkeeps.versions other
  | delete key =>
    rw [StoreCall.act, versionsOf_delete]
    exact hkeeps.versions other
  | compact =>
    rw [StoreCall.act, versionsOf_compact hkeeps.orderly, historyAfter]
    dsimp only
    split_ifs
    · rfl
    · exact hkeeps.versions other
  | startTransaction operation key value =>
    have hentries : (store.startTransaction counter operation key value).1.entries =
        store.entries := by
      rw [DistributedKVStore.startTransaction]
      split_ifs <;> rfl
    rw [StoreCall.act, versionsOf_congr hentries]
    exact hkeeps.versions other
  | abortTransaction txId =>
    have hentries : (store.abortTransaction txId).1.entries = store.entries := by
      rw [DistributedKVStore.abortTransaction]
      split <;> rfl
    rw [StoreCall.act, versionsOf_congr hentries]
    exact hkeeps.versions other
  | commitTransaction txId =>
    rw [StoreCall.act, DistributedKVStore.commitTransaction, historyAfter]
    cases hfound : findTransaction store txId with
    | none => exact hkeeps.versions other
    | some tx =>
      have hfits := hkeeps.orderly.fits tx (mem_of_findTransaction hfound).1
      dsimp only
      rw [Transaction.innerCall]
      by_cases hput : tx.operation = operationPut
      · rw [if_pos hput, if_pos hput]
        exact keepsHistory_put hkeeps hfits tx.value other
      · rw [if_neg hput, if_neg hput]
        by_cases hdelete : tx.operation = operationDelete
        · rw [if_pos hdelete]
          refine Eq.trans ?_ (hkeeps.versions other)
          exact congrFun (versionsOf_delete store tx.key) other
        · rw [if_neg hdelete]
          exact hkeeps.versions other

/-! ### Runs -/

/-- The values that were put in a run, store by store. -/
def historiesAfter : KvStores → KvCall → (UInt32 → StoreHistory) → UInt32 → StoreHistory :=
  recordsAfter historyAfter

/-- The versions of a key as they can be read. -/
structure ReadsVersions (kv : KvStores) (storeId : UInt32) (key : CString)
    (values : List (List UInt8)) : Prop where
  version : ∀ version valueLen, kvGetVersion kv storeId key version valueLen =
    if version = 0 then none
    else values[version.toNat - 1]?.filter fun value ↦ value.length ≤ valueLen.toNat
  all : ∀ count, kvGetAllVersions kv storeId key count =
    if values = [] ∨ count.toNat < values.length then none else some values
  history : ∀ count, kvGetVersionHistory kv storeId key count =
    if values = [] ∨ count.toNat < values.length then none else some (numberVersions values)

theorem getElem?_numberVersions (values : List (List UInt8)) (i : ℕ) :
    (numberVersions values)[i]? = values[i]?.map fun value ↦ ⟨UInt32.ofNat (i + 1), value⟩ :=
  List.getElem?_mapIdx

theorem value_numberVersions (values : List (List UInt8)) :
    (numberVersions values).map ValueVersion.value = values := by
  refine List.ext_getElem? fun i ↦ ?_
  rw [List.getElem?_map, getElem?_numberVersions, Option.map_map]
  exact congrFun Option.map_id values[i]?

/-- A store without the key. -/
theorem readsVersions_missing {kv : KvStores} {storeId : UInt32}
    (hmissing : ∀ store, rowOf kv.stores storeId = some store → findEntry store key = none) :
    ReadsVersions kv storeId key [] := by
  constructor
  all_goals
    intros
    simp only [kvGetVersion, kvGetAllVersions, kvGetVersionHistory]
    cases hstore : rowOf kv.stores storeId with
    | none => simp
    | some store =>
      simp [DistributedKVStore.getVersion, DistributedKVStore.getAllVersions,
        DistributedKVStore.getVersionHistory, hmissing store hstore]

/-- A store with the key. -/
theorem readsVersions_found {kv : KvStores} {storeId : UInt32} {values : List (List UInt8)}
    {entry : KeyValueEntry} (hstore : rowOf kv.stores storeId = some store)
    (hfound : findEntry store key = some entry)
    (hversions : entry.versions = numberVersions values) :
    ReadsVersions kv storeId key values := by
  have hlength : entry.versions.length = values.length := by
    rw [hversions, length_numberVersions]
  have hsome : values ≠ [] := by
    rintro rfl
    have hstarted := entry.started
    rw [hlength] at hstarted
    exact Nat.lt_irrefl 0 hstarted
  constructor
  case version =>
    intro version valueLen
    rw [kvGetVersion, hstore, Option.bind_some, DistributedKVStore.getVersion, hfound]
    dsimp only
    rw [hlength, hversions, getElem?_numberVersions]
    by_cases hzero : version = 0
    · rw [if_pos (Or.inl hzero), if_pos hzero]
    · rw [if_neg hzero]
      cases hvalue : values[version.toNat - 1]? with
      | none => exact ite_self none
      | some value =>
        have hinside := (List.getElem?_eq_some_iff.mp hvalue).1
        rw [if_neg (not_or.mpr ⟨hzero, by omega⟩), Option.map_some, Option.filter_some]
        simp only [decide_eq_true_eq]
        split_ifs with hroom hfits hfits
        · omega
        · rfl
        · rfl
        · omega
  case all =>
    intro count
    rw [kvGetAllVersions, hstore, Option.bind_some, DistributedKVStore.getAllVersions, hfound]
    dsimp only
    rw [hlength, hversions, value_numberVersions]
    simp [hsome]
  case history =>
    intro count
    rw [kvGetVersionHistory, hstore, Option.bind_some, DistributedKVStore.getVersionHistory, hfound]
    dsimp only
    rw [hlength, hversions]
    simp [hsome]

/-- After every run that deletes no store and whose puts have keys shorter than `MAX_KEY_SIZE`, the
versions of a key are the first values that have been put for it since it was not there, in
order. -/
theorem versions_run (calls : List KvCall)
    (hcalls : ∀ call ∈ calls, call.keepsStores ∧ call.ShortKey) (storeId : UInt32)
    (key : CString) :
    let after := runFrom (withTrace kvStep historiesAfter) (noStores, fun _ _ ↦ []) calls
    ReadsVersions after.1 storeId key ((after.2 storeId key).take maxVersions) := by
  intro after
  have hmatch : RowsMatch KeepsHistory (fun _ ↦ []) after.1.stores after.2 := by
    refine runFrom_invariant
      (fun traced : KvStores × (UInt32 → StoreHistory) ↦
        RowsMatch KeepsHistory (fun _ ↦ []) traced.1.stores traced.2)
      (fun _ call ↦ call.keepsStores ∧ call.ShortKey) (fun traced call hmatch hcall ↦ ?_)
      rowsMatch_nil (everyStep_of_forall_mem hcalls)
    refine (rowsMatch_kvStep_iff hmatch call hcall.1 fun store hentries htransactions ↦ ?_).mpr ?_
    · refine ⟨⟨?_, ?_⟩, fun key ↦ ?_⟩
      · simp [hentries]
      · simp [htransactions]
      · simp [DistributedKVStore.versionsOf, findEntry, hentries, numberVersions]
    · cases call with
      | onStore storeId call =>
        exact fun store hstore ↦
          keepsHistory_act (hmatch.related storeId store hstore) traced.1.txIdCounter hcall.2
      | createStore => trivial
      | deleteStore => trivial
  cases hstore : rowOf after.1.stores storeId with
  | none =>
    rw [hmatch.missing storeId hstore]
    exact readsVersions_missing fun store hsome ↦ absurd (hstore.symm.trans hsome) (by simp)
  | some store =>
    have hversions := (hmatch.related storeId store hstore).versions key
    rw [DistributedKVStore.versionsOf] at hversions
    cases hfound : findEntry store key with
    | none =>
      rw [hfound] at hversions
      have hnone := congrArg (List.map ValueVersion.value) hversions
      rw [value_numberVersions] at hnone
      rw [← hnone]
      refine readsVersions_missing fun other hother ↦ ?_
      rwa [← Option.some.inj (hstore.symm.trans hother)]
    | some entry =>
      rw [hfound] at hversions
      exact readsVersions_found hstore hfound hversions

/-- Two values are put for a key that is deleted in between: both are versions of it. -/
theorem versions_run_example :
    ReadsVersions
      (runFrom (withTrace kvStep historiesAfter) (noStores, fun _ _ ↦ [])
        [.createStore [] .strong 1 true, .onStore 1 (.put [⟨97, by decide⟩] [1]),
          .onStore 1 (.delete [⟨97, by decide⟩]),
          .onStore 1 (.put [⟨97, by decide⟩] [2])]).1
      1 [⟨97, by decide⟩] [[1], [2]] := by
  have hreads := versions_run
    [.createStore [] .strong 1 true, .onStore 1 (.put [⟨97, by decide⟩] [1]),
      .onStore 1 (.delete [⟨97, by decide⟩]), .onStore 1 (.put [⟨97, by decide⟩] [2])]
    (by simp [KvCall.keepsStores, KvCall.ShortKey, StoreCall.ShortKey, maxKeySize]) 1
    [⟨97, by decide⟩]
  exact hreads

end OneOS.KvStore
