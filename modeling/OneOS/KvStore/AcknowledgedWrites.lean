import OneOS.KvStore.KvStores

/-!
# Reading acknowledged writes

A put that returns 0 is acknowledged, also when a transaction makes it, and so is a delete. What was
acknowledged last for a key of a store is kept by `acksAfter`, and `ReadsAcknowledged` says that the
store returns it.

A put returns 0 in two cases in which it does not store the value under its key. An entry with all
its versions in use is left as it is, and a key of 256 bytes or more is cut off, so that a read of
the whole key does not find it. `readsAcknowledged_iff` says that nothing else goes wrong: what is
acknowledged is read along a run exactly when every put that is accepted has a key that fits and
finds no full entry, or finds a full one that is alive and has the value already (`StoresPut`).
-/

set_option autoImplicit false
set_option relaxedAutoImplicit false

namespace OneOS.KvStore

open Foundation

/-! ### What is acknowledged -/

/-- What was acknowledged last for each key of a store, a put or, by none, a delete or nothing. -/
abbrev StoreAcks := CString → Option (List UInt8)

/-- What a call on a store acknowledges: a key, with the value of a put or without one. -/
def acknowledged (store : DistributedKVStore) :
    StoreCall → Option (CString × Option (List UInt8))
  | .put key value => if (store.put key value).2 = 0 then some (key, some value) else none
  | .delete key => if (store.delete key).2 = 0 then some (key, none) else none
  | .commitTransaction txId =>
    match findTransaction store txId with
    | none => none
    | some tx =>
      if tx.operation = operationPut then
        if (store.put tx.key tx.value).2 = 0 then some (tx.key, some tx.value) else none
      else if tx.operation = operationDelete then
        if (store.delete tx.key).2 = 0 then some (tx.key, none) else none
      else none
  | _ => none

/-- Record what is acknowledged. -/
def recordAck (ack : Option (CString × Option (List UInt8))) (acks : StoreAcks) : StoreAcks :=
  match ack with
  | none => acks
  | some (key, value) => Function.update acks key value

/-- What was acknowledged last, store by store, after a call. -/
def acksAfter : KvStores → KvCall → (UInt32 → StoreAcks) → UInt32 → StoreAcks :=
  recordsAfter fun store call ↦ recordAck (acknowledged store call)

/-- A read of a key with an acknowledged value returns the value, given room for it. -/
def ReadsAcknowledged (traced : KvStores × (UInt32 → StoreAcks)) : Prop :=
  ∀ storeId key value valueLen, traced.2 storeId key = some value →
    value.length ≤ valueLen.toNat → (kvGet traced.1 storeId key valueLen).2 = some value

/-- A put that is accepted stores its value where a read finds it: its key fits, and the entry that
it finds has room for a version, or is alive with the value already. -/
def StoresPut (store : DistributedKVStore) (key : CString) (value : List UInt8) : Prop :=
  value.length ≤ maxValueSize → (findEntry store key = none → store.entries.length < maxKeys) →
    key.length < maxKeySize ∧ ∀ entry, findEntry store key = some entry →
      entry.versions.length < maxVersions ∨ entry.isTombstone = false ∧ entry.value = value

/-- The condition on a call on a store. -/
def KeepsAcks (store : DistributedKVStore) : StoreCall → Prop
  | .put key value => StoresPut store key value
  | .commitTransaction txId =>
    ∀ tx, findTransaction store txId = some tx → tx.operation = operationPut →
      StoresPut store tx.key tx.value
  | _ => True

/-! ### Entries -/

variable {store : DistributedKVStore} {entry : KeyValueEntry} {key other : CString}
variable {value : List UInt8} {acks : StoreAcks}

/-- The value of an entry is that of its last version. -/
theorem KeyValueEntry.value_eq_getLast :
    some entry.value = entry.versions.getLast?.map ValueVersion.value := by
  have hle : (1 : UInt32) ≤ entry.currentVersion := by
    rw [UInt32.le_iff_toNat_le, entry.latest]
    exact entry.started
  have hindex : (entry.currentVersion - 1).toNat = entry.versions.length - 1 := by
    rw [UInt32.toNat_sub_of_le _ _ hle, entry.latest]
    rfl
  rw [List.getLast?_eq_getElem?, ← hindex, List.getElem?_eq_getElem entry.index_lt, Option.map_some]
  rfl

theorem KeyValueEntry.key_addVersion : (entry.addVersion value).key = entry.key := by
  unfold KeyValueEntry.addVersion
  split_ifs <;> rfl

/-- With room for it a new version is the current one. -/
theorem KeyValueEntry.addVersion_of_room (value : List UInt8)
    (hroom : entry.versions.length < maxVersions) :
    (entry.addVersion value).isTombstone = false ∧ (entry.addVersion value).value = value := by
  have hversions : (entry.addVersion value).versions = entry.versions ++
      [{ version := UInt32.ofNat (entry.versions.length + 1), value := value }] := by
    rw [KeyValueEntry.addVersion, dif_pos hroom]
  refine ⟨by rw [KeyValueEntry.addVersion, dif_pos hroom], ?_⟩
  have hlast := (entry.addVersion value).value_eq_getLast
  rw [hversions, List.getLast?_concat, Option.map_some, Option.some.injEq] at hlast
  exact hlast

/-- Without room the entry stays as it is. -/
theorem KeyValueEntry.addVersion_of_full (hfull : ¬ entry.versions.length < maxVersions) :
    entry.addVersion value = entry := by
  rw [KeyValueEntry.addVersion, dif_neg hfull]

/-! ### Values of keys -/

/-- The value of an entry that is not a tombstone. -/
def KeyValueEntry.shown (entry : KeyValueEntry) : Option (List UInt8) :=
  if entry.isTombstone then none else some entry.value

/-- The value that a store has for a key. -/
def DistributedKVStore.valueOf (store : DistributedKVStore) (key : CString) :
    Option (List UInt8) :=
  (findEntry store key).bind KeyValueEntry.shown

/-- A read returns the value of its key, given room for it. -/
theorem get_snd (valueLen : UInt32) :
    (store.get key valueLen).2 = (store.valueOf key).filter fun value ↦
      value.length ≤ valueLen.toNat := by
  unfold DistributedKVStore.get DistributedKVStore.valueOf
  cases findEntry store key with
  | none => rfl
  | some entry =>
    rw [Option.bind_some, KeyValueEntry.shown]
    dsimp only
    split_ifs with htombstone hroom
    · rfl
    · rw [Option.filter_some_neg]
      simpa using hroom
    · rw [Option.filter_some_pos]
      simpa using hroom

/-- The value is acknowledged and can be read: it has a length that room can be given for. -/
theorem reads_iff_valueOf :
    (∀ valueLen : UInt32, value.length ≤ valueLen.toNat →
      (store.get key valueLen).2 = some value) ↔
        (value.length < 2 ^ 32 → store.valueOf key = some value) := by
  constructor
  · intro hreads hlength
    have hroom : (UInt32.ofNat value.length).toNat = value.length :=
      UInt32.toNat_ofNat_of_lt' hlength
    have hread := hreads (UInt32.ofNat value.length) (Nat.le_of_eq hroom.symm)
    rw [get_snd, Option.filter_eq_some_iff] at hread
    exact hread.1
  · intro hvalue valueLen hroom
    rw [get_snd, hvalue (hroom.trans_lt valueLen.toNat_lt), Option.filter_some_pos]
    exact decide_eq_true hroom

/-- The store returns what is acknowledged. -/
def Readable (store : DistributedKVStore) (acks : StoreAcks) : Prop :=
  ∀ key value, acks key = some value → value.length < 2 ^ 32 → store.valueOf key = some value

/-- What all stores return, store by store. -/
theorem readsAcknowledged_iff_readable {kv : KvStores} {acks : UInt32 → StoreAcks}
    (hmissing : ∀ storeId, rowOf kv.stores storeId = none → acks storeId = fun _ ↦ none) :
    ReadsAcknowledged (kv, acks) ↔ RowsMatch Readable (fun _ ↦ none) kv.stores acks := by
  constructor
  · intro hreads
    refine ⟨fun storeId store hstore key value hack ↦ ?_, hmissing⟩
    refine reads_iff_valueOf.mp fun valueLen hroom ↦ ?_
    have hread := hreads storeId key value valueLen hack hroom
    rwa [kvGet, hstore, Option.bind_some] at hread
  · intro hmatch storeId key value valueLen hack hroom
    cases hstore : rowOf kv.stores storeId with
    | none =>
      have hnone : acks storeId key = some value := hack
      rw [hmissing storeId hstore] at hnone
      exact absurd hnone.symm (Option.some_ne_none _)
    | some store =>
      rw [kvGet, hstore, Option.bind_some]
      exact reads_iff_valueOf.mpr (hmatch.related storeId store hstore key value hack) valueLen
        hroom

/-- A new entry shows its value. -/
theorem shown_newEntry : (newEntry key value).shown = some value := by
  have hlast := (newEntry key value).value_eq_getLast
  rw [KeyValueEntry.shown, hlast]
  rfl

theorem key_of_findEntry (hfound : findEntry store key = some entry) : entry.key = key := by
  have hmatch := List.find?_some (p := fun entry : KeyValueEntry ↦ decide (entry.key = key)) hfound
  exact of_decide_eq_true hmatch

/-- What a store returns depends on its entries only. -/
theorem readable_congr {later : DistributedKVStore} (hentries : later.entries = store.entries) :
    Readable later acks ↔ Readable store acks := by
  have hvalue : later.valueOf = store.valueOf := by
    funext key
    rw [DistributedKVStore.valueOf, DistributedKVStore.valueOf, findEntry, findEntry, hentries]
  rw [Readable, Readable, hvalue]

/-! ### What the calls do to the values -/

theorem findEntry_onEntry {change : KeyValueEntry → KeyValueEntry}
    (hkeep : ∀ entry, (change entry).key = entry.key) :
    findEntry (store.onEntry key change) other =
      if other = key then (findEntry store other).map change else findEntry store other :=
  find?_key_updateFirst hkeep

/-- A change of the entry of a key changes the value of the key. -/
theorem valueOf_onEntry {change : KeyValueEntry → KeyValueEntry}
    (hkeep : ∀ entry, (change entry).key = entry.key) (hfound : findEntry store key = some entry) :
    (store.onEntry key change).valueOf other =
      if other = key then (change entry).shown else store.valueOf other := by
  rw [DistributedKVStore.valueOf, findEntry_onEntry hkeep]
  by_cases hother : other = key
  · rw [if_pos hother, if_pos hother, hother, hfound, Option.map_some, Option.bind_some]
  · rw [if_neg hother, if_neg hother, DistributedKVStore.valueOf]

/-- An entry that is added is found where no other is. -/
theorem valueOf_concat {later : DistributedKVStore}
    (hentries : later.entries = store.entries ++ [newEntry key value]) :
    later.valueOf other =
      ((findEntry store other).or
        (if key.take (maxKeySize - 1) = other then some (newEntry key value) else none)).bind
          KeyValueEntry.shown := by
  rw [DistributedKVStore.valueOf, findEntry, hentries, List.find?_append, findEntry]
  congr 2
  by_cases hother : key.take (maxKeySize - 1) = other
  · rw [if_pos hother, List.find?_cons_of_pos]
    exact decide_eq_true hother
  · rw [if_neg hother, List.find?_cons_of_neg, List.find?_nil]
    exact fun hfound ↦ hother (of_decide_eq_true hfound)

/-- The entry of a key that does not fit is not found under it. -/
theorem valueOf_concat_self {later : DistributedKVStore} (hmissing : findEntry store key = none)
    (hentries : later.entries = store.entries ++ [newEntry key value]) :
    later.valueOf key = some value ↔ key.length < maxKeySize := by
  rw [valueOf_concat hentries, hmissing, Option.none_or]
  by_cases hfits : key.length < maxKeySize
  · rw [if_pos (List.take_of_length_le (Nat.le_sub_one_of_lt hfits)), Option.bind_some]
    exact iff_of_true shown_newEntry hfits
  · have hcut : key.take (maxKeySize - 1) ≠ key := by
      intro hsame
      exact hfits (hsame ▸ (newEntry key value).keyFits)
    rw [if_neg hcut, Option.bind_none]
    exact iff_of_false (fun hnone ↦ Option.some_ne_none _ hnone.symm) hfits

/-- A read of another key is not affected by a put. -/
theorem valueOf_put_of_ne (hother : other ≠ key) {old : List UInt8}
    (hold : store.valueOf other = some old) : (store.put key value).1.valueOf other = some old := by
  rcases put_cases store key value with ⟨hsame, -, -⟩ | ⟨-, -, ⟨entry, hfound, hentries⟩ | ⟨-, -,
    hentries⟩⟩
  · rw [hsame, hold]
  · have hvalue : (store.put key value).1.valueOf other =
        (store.onEntry key fun entry ↦ entry.addVersion value).valueOf other := by
      rw [DistributedKVStore.valueOf, DistributedKVStore.valueOf, findEntry, findEntry, hentries]
    rw [hvalue, valueOf_onEntry (fun _ ↦ KeyValueEntry.key_addVersion) hfound, if_neg hother, hold]
  · obtain ⟨found, hfound, hshown⟩ := Option.bind_eq_some_iff.mp hold
    rw [valueOf_concat hentries, hfound, Option.some_or, Option.bind_some, hshown]

/-- An accepted put is read back exactly when it stores its value. -/
theorem valueOf_put_self_iff (haccepted : (store.put key value).2 = 0) :
    (store.put key value).1.valueOf key = some value ↔ StoresPut store key value := by
  rcases put_cases store key value with ⟨-, hrefused, -⟩ | ⟨-, hlength, ⟨entry, hfound, hentries⟩ |
    ⟨hmissing, hroom, hentries⟩⟩
  · exact absurd haccepted hrefused
  · have hvalue : (store.put key value).1.valueOf key =
        (store.onEntry key fun entry ↦ entry.addVersion value).valueOf key := by
      rw [DistributedKVStore.valueOf, DistributedKVStore.valueOf, findEntry, findEntry, hentries]
    have hkey := key_of_findEntry hfound
    rw [hvalue, valueOf_onEntry (fun _ ↦ KeyValueEntry.key_addVersion) hfound, if_pos rfl]
    by_cases hroom : entry.versions.length < maxVersions
    · obtain ⟨hlive, hcurrent⟩ := entry.addVersion_of_room value hroom
      refine iff_of_true ?_ fun _ _ ↦ ⟨hkey ▸ entry.keyFits, fun found hsame ↦ Or.inl ?_⟩
      · rw [KeyValueEntry.shown, hlive, hcurrent]
        rfl
      · rw [hfound, Option.some.injEq] at hsame
        exact hsame ▸ hroom
    · rw [KeyValueEntry.addVersion_of_full hroom]
      constructor
      · intro hshown _ _
        refine ⟨hkey ▸ entry.keyFits, fun found hsame ↦ Or.inr ?_⟩
        rw [hfound, Option.some.injEq] at hsame
        rw [← hsame]
        rw [KeyValueEntry.shown] at hshown
        split_ifs at hshown with hlive
        exact ⟨Bool.not_eq_true _ ▸ hlive, Option.some.inj hshown⟩
      · intro hstores
        have hfull := (hstores hlength fun hnone ↦ absurd (hnone.symm.trans hfound) (by simp)).2
          entry hfound
        obtain ⟨hlive, hcurrent⟩ := hfull.resolve_left hroom
        rw [KeyValueEntry.shown, hlive, hcurrent]
        rfl
  · rw [valueOf_concat_self hmissing hentries]
    constructor
    · intro hfits _ _
      refine ⟨hfits, fun entry hfound ↦ ?_⟩
      rw [hmissing] at hfound
      exact absurd hfound.symm (Option.some_ne_none _)
    · intro hstores
      exact (hstores hlength fun _ ↦ hroom).1

/-! ### One store -/

/-- A put keeps what is read exactly when it stores its value. -/
theorem readable_put_iff (hreads : Readable store acks) :
    Readable (store.put key value).1
        (recordAck (if (store.put key value).2 = 0 then some (key, some value) else none) acks) ↔
      StoresPut store key value := by
  rcases put_cases store key value with ⟨hsame, hrefused, hnot⟩ | ⟨haccepted, hlength, -⟩
  · rw [hsame, if_neg hrefused]
    exact iff_of_true hreads fun hlength hroom ↦ absurd ⟨hlength, hroom⟩ hnot
  · rw [if_pos haccepted, ← valueOf_put_self_iff haccepted, recordAck]
    constructor
    · intro hafter
      exact hafter key value (Function.update_self _ _ _) (hlength.trans_lt (by decide))
    · intro hself other old hack hsmall
      by_cases hother : other = key
      · rw [hother, Function.update_self, Option.some.injEq] at hack
        rw [hother, ← hack, hself]
      · rw [Function.update_of_ne hother] at hack
        exact valueOf_put_of_ne hother (hreads other old hack hsmall)

/-- A delete keeps what is read. -/
theorem readable_delete (hreads : Readable store acks) (key : CString) :
    Readable (store.delete key).1
      (recordAck (if (store.delete key).2 = 0 then some (key, none) else none) acks) := by
  unfold DistributedKVStore.delete
  cases hfound : findEntry store key with
  | none => exact hreads
  | some entry =>
    intro other old hack hsmall
    rw [if_pos rfl, recordAck] at hack
    show (store.onEntry key fun entry ↦ { entry with isTombstone := true }).valueOf other = some old
    by_cases hother : other = key
    · rw [hother, Function.update_self] at hack
      exact absurd hack.symm (Option.some_ne_none _)
    · rw [Function.update_of_ne hother] at hack
      rw [valueOf_onEntry ?_ hfound, if_neg hother]
      · exact hreads other old hack hsmall
      · exact fun _ ↦ rfl

/-- A read keeps what is read. -/
theorem readable_get (hreads : Readable store acks) (key : CString) (valueLen : UInt32) :
    Readable (store.get key valueLen).1 acks := by
  unfold DistributedKVStore.get
  cases hfound : findEntry store key with
  | none => exact hreads
  | some entry =>
    dsimp only
    split_ifs with htombstone hroom
    · exact hreads
    · exact hreads
    · intro other old hack hsmall
      have hold := hreads other old hack hsmall
      show (store.onEntry key fun entry ↦
        { entry with accessCount := entry.accessCount + 1 }).valueOf other = some old
      rw [valueOf_onEntry ?_ hfound]
      · split_ifs with hother
        · rw [hother, DistributedKVStore.valueOf, hfound, Option.bind_some] at hold
          exact hold
        · exact hold
      · exact fun _ ↦ rfl

/-- Removing tombstones keeps what is read. -/
theorem readable_compact (hreads : Readable store acks) : Readable store.compact.1 acks := by
  intro key value hack hsmall
  obtain ⟨entry, hfound, hshown⟩ := Option.bind_eq_some_iff.mp (hreads key value hack hsmall)
  have hlive : entry.isTombstone = false := by
    rw [KeyValueEntry.shown] at hshown
    split_ifs at hshown with hlive
    exact Bool.not_eq_true _ ▸ hlive
  -- the first entry with the key is alive, so that it stays the first one
  have hkept : findEntry store.compact.1 key = some entry := by
    rw [findEntry, List.find?_eq_some_iff_append] at hfound
    obtain ⟨hkey, before, after, hentries, hbefore⟩ := hfound
    rw [findEntry, DistributedKVStore.compact, hentries, List.filter_append,
      List.filter_cons_of_pos (by simp [hlive]), List.find?_append,
      List.find?_cons_of_pos (p := fun entry : KeyValueEntry ↦ decide (entry.key = key)) hkey]
    have hnone : (before.filter fun entry ↦ !entry.isTombstone).find?
        (fun entry ↦ decide (entry.key = key)) = none := by
      rw [List.find?_eq_none]
      intro earlier hearlier
      simpa using hbefore earlier (List.mem_of_mem_filter hearlier)
    rw [hnone, Option.none_or]
  rw [DistributedKVStore.valueOf, hkept, Option.bind_some, hshown]

/-- A call on a store keeps what is read exactly when it meets the condition. -/
theorem readable_act_iff (txId : UInt64) (call : StoreCall) (hreads : Readable store acks) :
    Readable (call.act txId store).1 (recordAck (acknowledged store call) acks) ↔
      KeepsAcks store call := by
  cases call with
  | put key value => exact readable_put_iff hreads
  | get key valueLen => exact iff_of_true (readable_get hreads key valueLen) trivial
  | delete key => exact iff_of_true (readable_delete hreads key) trivial
  | compact => exact iff_of_true (readable_compact hreads) trivial
  | startTransaction operation key value =>
    refine iff_of_true ((readable_congr ?_).mpr hreads) trivial
    rw [StoreCall.act, DistributedKVStore.startTransaction]
    split_ifs <;> rfl
  | abortTransaction txId =>
    refine iff_of_true ((readable_congr ?_).mpr hreads) trivial
    rw [StoreCall.act, DistributedKVStore.abortTransaction]
    split <;> rfl
  | commitTransaction txId =>
    rw [StoreCall.act, DistributedKVStore.commitTransaction, acknowledged, KeepsAcks]
    cases hfound : findTransaction store txId with
    | none => exact iff_of_true hreads fun tx htx ↦ absurd htx.symm (Option.some_ne_none _)
    | some tx =>
      dsimp only
      rw [Transaction.innerCall]
      by_cases hput : tx.operation = operationPut
      · rw [if_pos hput, if_pos hput]
        refine (readable_congr rfl).trans ((readable_put_iff hreads).trans ?_)
        simp [hput]
      · rw [if_neg hput, if_neg hput]
        by_cases hdelete : tx.operation = operationDelete
        · rw [if_pos hdelete, if_pos hdelete]
          refine (readable_congr rfl).trans (iff_of_true (readable_delete hreads tx.key) ?_)
          simp [hput]
        · rw [if_neg hdelete, if_neg hdelete]
          refine (readable_congr rfl).trans (iff_of_true hreads ?_)
          simp [hput]

/-! ### All stores -/

/-- A call to the stores keeps what is read exactly when it meets the condition. -/
theorem rowsMatch_readable_step_iff {kv : KvStores} {acks : UInt32 → StoreAcks} (call : KvCall)
    (hcall : call.keepsStores) (hmatch : RowsMatch Readable (fun _ ↦ none) kv.stores acks) :
    RowsMatch Readable (fun _ ↦ none) (kvStep kv call).stores (acksAfter kv call acks) ↔
      OnStore (fun _ ↦ KeepsAcks) kv call := by
  rw [acksAfter, rowsMatch_kvStep_iff hmatch call hcall]
  · exact onStore_congr call fun storeId store call hstore ↦
      readable_act_iff kv.txIdCounter call (hmatch.related storeId store hstore)
  · exact fun _ _ _ _ _ hack ↦ absurd hack.symm (Option.some_ne_none _)

/-- What is acknowledged is read along a run that deletes no store exactly when every put that is
accepted, directly or by a commit, has a key that fits and finds no full entry, or a full one that
is alive and has the value already. -/
theorem readsAcknowledged_iff (calls : List KvCall) (hcalls : ∀ call ∈ calls, call.keepsStores) :
    AlongRun (withTrace kvStep acksAfter) ReadsAcknowledged (noStores, fun _ _ ↦ none) calls ↔
      EveryStep kvStep (OnStore (fun _ ↦ KeepsAcks)) noStores calls := by
  have htraced : EveryStep (withTrace kvStep acksAfter)
      (fun traced call ↦ OnStore (fun _ ↦ KeepsAcks) traced.1 call) (noStores, fun _ _ ↦ none)
        calls ↔ EveryStep kvStep (OnStore (fun _ ↦ KeepsAcks)) noStores calls := everyStep_withTrace
  rw [← htraced]
  refine alongRun_iff_everyStep
    (fun traced ↦ ∀ storeId, rowOf traced.1.stores storeId = none → traced.2 storeId = fun _ ↦ none)
    (fun _ call ↦ call.keepsStores) (fun traced call hmissing hcall ↦ ?_)
    (fun traced call hmissing hcall hreads ↦ ?_) (fun _ _ ↦ rfl) ?_ (everyStep_of_forall_mem hcalls)
  · exact recordsAfter_missing call hcall hmissing
  · refine (readsAcknowledged_iff_readable (recordsAfter_missing call hcall hmissing)).trans ?_
    exact rowsMatch_readable_step_iff call hcall
      ((readsAcknowledged_iff_readable hmissing).mp hreads)
  · intro storeId key value valueLen hack
    exact absurd hack.symm (Option.some_ne_none _)

/-- A value that is put, deleted and put again. -/
theorem readsAcknowledged_put_again :
    AlongRun (withTrace kvStep acksAfter) ReadsAcknowledged (noStores, fun _ _ ↦ none)
      [.createStore [] .strong 1 true, .onStore 1 (.put [⟨97, by decide⟩] [1]),
        .onStore 1 (.delete [⟨97, by decide⟩]), .onStore 1 (.put [⟨97, by decide⟩] [2])] := by
  refine (readsAcknowledged_iff _ ?_).mpr ?_
  · simp [KvCall.keepsStores]
  · simp [OnStore, KeepsAcks, StoresPut, kvStep, kvCreateStore, noStores, newStore, kvPut, kvDelete,
      KvStores.call, callOn, rowOf, DistributedKVStore.put, DistributedKVStore.delete, findEntry,
      DistributedKVStore.onEntry, updateFirst, newEntry, KeyValueEntry.addVersion, maxKvStores,
      maxKeys, maxKeySize, maxVersions, maxValueSize]

/-- After 32 puts of a key the next one is acknowledged and not stored, and a key of 256 bytes is
put and not found. -/
theorem not_readsAcknowledged_full_entry_long_key :
    ¬ AlongRun (withTrace kvStep acksAfter) ReadsAcknowledged (noStores, fun _ _ ↦ none)
        (.createStore [] .strong 1 true ::
          (List.replicate 32 (.onStore 1 (.put [⟨97, by decide⟩] [1])) ++
            [.onStore 1 (.put [⟨97, by decide⟩] [2])])) ∧
      ¬ AlongRun (withTrace kvStep acksAfter) ReadsAcknowledged (noStores, fun _ _ ↦ none)
        [.createStore [] .strong 1 true,
          .onStore 1 (.put (List.replicate 256 ⟨97, by decide⟩) [1])] := by
  constructor
  · intro hreads
    have hread := hreads _ (List.prefix_refl _) 1 [⟨97, by decide⟩] [2] 1
    revert hread
    decide +kernel
  · intro hreads
    have hread := hreads _ (List.prefix_refl _) 1 (List.replicate 256 ⟨97, by decide⟩) [1] 1
    revert hread
    decide +kernel

end OneOS.KvStore
