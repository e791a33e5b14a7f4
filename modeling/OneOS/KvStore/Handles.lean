import OneOS.KvStore.KvStores

/-!
# Handles of stores

`kv_create_store` gives out ids, and a caller expects an id to name its store until the store is
deleted. What each id should name is kept by `handlesAfter`: a creation adds a store under the id
that it returns, a call on an id changes the store of that id, and a deletion removes its own id and
no other.

The ids are positions in the table, and a deletion moves the stores behind the deleted one up. So an
id that was given out may name another store, or none. `stable_iff` says that ids are stable along a
run exactly when only the last store of the table is ever deleted (`DeletesLast`).
-/

set_option autoImplicit false
set_option relaxedAutoImplicit false

namespace OneOS.KvStore

open Foundation

/-! ### What the ids should name -/

/-- The store that each id should name. -/
abbrev Handles := UInt32 → Option DistributedKVStore

/-- What the ids should name after a call. -/
def handlesAfter (kv : KvStores) (call : KvCall) (handles : Handles) : Handles :=
  match call with
  | .createStore name consistency replicaFactor malloc =>
    let returned := (kvCreateStore kv name consistency replicaFactor malloc).2
    if 0 < returned then
      Function.update handles (UInt32.ofInt returned)
        (some (newStore (UInt32.ofInt returned) name consistency replicaFactor))
    else handles
  | .deleteStore storeId =>
    if (kvDeleteStore kv storeId).2 = 0 then Function.update handles storeId none else handles
  | .onStore storeId call =>
    Function.update handles storeId
      ((handles storeId).map fun store ↦ (call.act kv.txIdCounter store).1)

/-- The ids name what they should, and no two stores have the same id. -/
structure Stable (traced : KvStores × Handles) : Prop where
  names : ∀ storeId, rowOf traced.1.stores storeId = traced.2 storeId
  distinct : (traced.1.stores.map DistributedKVStore.storeId).Nodup

/-- The condition on a call: a store that is deleted is the last one of the table. -/
def DeletesLast (kv : KvStores) : KvCall → Prop
  | .deleteStore storeId => storeId ≠ 0 → storeId.toNat ≤ kv.stores.length →
    storeId.toNat = kv.stores.length
  | _ => True

/-! ### Ids of stores -/

variable {kv : KvStores} {handles : Handles} {store : DistributedKVStore}

/-- A call on a store keeps its id. -/
theorem storeId_act (txId : UInt64) (call : StoreCall) :
    (call.act txId store).1.storeId = store.storeId := by
  have hput : ∀ key value, (store.put key value).1.storeId = store.storeId := by
    intro key value
    unfold DistributedKVStore.put
    dsimp only
    split_ifs
    · rfl
    · split <;> rfl
    · split <;> rfl
  have hdelete : ∀ key, (store.delete key).1.storeId = store.storeId := by
    intro key
    unfold DistributedKVStore.delete
    split <;> rfl
  cases call with
  | put key value => exact hput key value
  | get key valueLen =>
    rw [StoreCall.act, DistributedKVStore.get]
    split
    · rfl
    · split_ifs <;> rfl
  | delete key => exact hdelete key
  | compact => rfl
  | startTransaction operation key value =>
    rw [StoreCall.act, DistributedKVStore.startTransaction]
    split_ifs <;> rfl
  | commitTransaction number =>
    rw [StoreCall.act, DistributedKVStore.commitTransaction]
    split
    · rfl
    · next tx htx =>
      unfold Transaction.innerCall
      split_ifs
      · exact hput tx.key tx.value
      · exact hdelete tx.key
      · rfl
  | abortTransaction number =>
    rw [StoreCall.act, DistributedKVStore.abortTransaction]
    split <;> rfl

/-- The store that an id should name has that id. -/
def Numbers (handles : Handles) : Prop :=
  ∀ storeId store, handles storeId = some store → store.storeId = storeId

theorem Numbers.update (hnumbers : Numbers handles) {storeId : UInt32}
    {named : Option DistributedKVStore}
    (hnamed : ∀ store, named = some store → store.storeId = storeId) :
    Numbers (Function.update handles storeId named) := by
  intro other store hother
  by_cases hsame : other = storeId
  · rw [hsame, Function.update_self] at hother
    rw [hsame]
    exact hnamed store hother
  · rw [Function.update_of_ne hsame] at hother
    exact hnumbers other store hother

/-- What holds of the table and the handles in every run: there are no more than a few stores, and
the store that an id should name has that id. -/
structure Registered (kv : KvStores) (handles : Handles) : Prop where
  bounded : kv.stores.length ≤ maxKvStores
  numbers : Numbers handles

/-- The number of a new store, as it is stored and as it is returned. -/
theorem newId_returned : ∀ count < maxKvStores,
    (UInt32.ofNat (count + 1)).toNat = count + 1 ∧
      0 < (UInt32.ofNat (count + 1)).toInt32.toInt ∧
        UInt32.ofInt (UInt32.ofNat (count + 1)).toInt32.toInt = UInt32.ofNat (count + 1) := by
  decide

/-- A store that is created is given the next number. -/
theorem kvCreateStore_cases (kv : KvStores) (name : CString) (consistency : ConsistencyModel)
    (replicaFactor : UInt32) (malloc : Bool) :
    (kvCreateStore kv name consistency replicaFactor malloc).1 = kv ∧
        ¬ 0 < (kvCreateStore kv name consistency replicaFactor malloc).2 ∨
      kv.stores.length < maxKvStores ∧ ∃ storeId : UInt32, storeId.toNat = kv.stores.length + 1 ∧
        0 < (kvCreateStore kv name consistency replicaFactor malloc).2 ∧
          UInt32.ofInt (kvCreateStore kv name consistency replicaFactor malloc).2 = storeId ∧
            (kvCreateStore kv name consistency replicaFactor malloc).1.stores =
              kv.stores ++ [newStore storeId name consistency replicaFactor] := by
  have hrefused : ¬ (0 : Int) < -1 := by decide
  unfold kvCreateStore
  split_ifs with hfull
  · exact Or.inl ⟨rfl, hrefused⟩
  · have hroom : kv.stores.length < maxKvStores := Nat.not_le.mp hfull
    obtain ⟨hnumber, hpositive, hreturned⟩ := newId_returned kv.stores.length hroom
    exact Or.inr ⟨hroom, UInt32.ofNat (kv.stores.length + 1), hnumber, hpositive, hreturned, rfl⟩
  · exact Or.inl ⟨rfl, hrefused⟩

/-- Every call keeps the table and the handles registered. -/
theorem registered_step (call : KvCall) (hregistered : Registered kv handles) :
    Registered (kvStep kv call) (handlesAfter kv call handles) := by
  obtain ⟨hbounded, hnumbers⟩ := hregistered
  cases call with
  | createStore name consistency replicaFactor malloc =>
    rw [kvStep, handlesAfter]
    rcases kvCreateStore_cases kv name consistency replicaFactor malloc with ⟨hsame, hrefused⟩ |
      ⟨hroom, storeId, hnumber, hpositive, hreturned, hstores⟩
    · rw [hsame, if_neg hrefused]
      exact ⟨hbounded, hnumbers⟩
    · rw [if_pos hpositive, hreturned]
      refine ⟨?_, hnumbers.update fun store hstore ↦ ?_⟩
      · rw [hstores, List.length_append]
        exact hroom
      · rw [← Option.some.inj hstore, newStore]
  | deleteStore storeId =>
    refine ⟨?_, ?_⟩
    · rw [kvStep, kvDeleteStore]
      split
      · exact hbounded
      · exact (List.length_eraseIdx_le _ _).trans hbounded
    · rw [handlesAfter]
      split_ifs
      · exact hnumbers.update fun store hnone ↦ absurd hnone.symm (Option.some_ne_none _)
      · exact hnumbers
  | onStore storeId call =>
    refine ⟨?_, hnumbers.update fun store hstore ↦ ?_⟩
    · rw [stores_kvStep_onStore]
      cases hstore : rowOf kv.stores storeId with
      | none =>
        rw [callOn_of_none hstore]
        exact hbounded
      | some found =>
        rw [callOn_of_some hstore, List.length_set]
        exact hbounded
    · obtain ⟨before, hbefore, rfl⟩ := Option.map_eq_some_iff.mp hstore
      rw [storeId_act]
      exact hnumbers storeId before hbefore

/-- Stores that are named by their own ids have different ones. -/
theorem Registered.stable_iff_names (hregistered : Registered kv handles) :
    Stable (kv, handles) ↔ ∀ storeId, rowOf kv.stores storeId = handles storeId := by
  constructor
  · intro hstable
    exact hstable.names
  · intro hnames
    refine ⟨hnames, ?_⟩
    -- the store at a position is named by the number after it, so that this is its id
    have hat : ∀ (i : ℕ) (hi : i < kv.stores.length), kv.stores[i].storeId.toNat = i + 1 := by
      intro i hi
      have hsmall : i < maxKvStores := hi.trans_le hregistered.bounded
      obtain ⟨hnumber, -, -⟩ := newId_returned i hsmall
      have hrow : rowOf kv.stores (UInt32.ofNat (i + 1)) = some kv.stores[i] := by
        rw [rowOf_eq_some_iff, hnumber]
        refine ⟨fun hzero ↦ ?_, List.getElem?_eq_getElem hi⟩
        rw [hzero] at hnumber
        exact Nat.succ_ne_zero i hnumber.symm
      have hid := hregistered.numbers _ _ ((hnames _).symm.trans hrow)
      rw [hid, hnumber]
    rw [List.Nodup, List.pairwise_map, List.pairwise_iff_getElem]
    intro i j hi hj hlt hsame
    have hnumbers := congrArg UInt32.toNat hsame
    rw [hat i hi, hat j hj] at hnumbers
    omega

/-- A deletion leaves what the other ids name exactly when it deletes the last store. -/
theorem names_eraseIdx_iff {storeId : UInt32} (hstore : rowOf kv.stores storeId = some store) :
    (∀ other, rowOf (kv.stores.eraseIdx (storeId.toNat - 1)) other =
        Function.update (rowOf kv.stores) storeId none other) ↔
      storeId.toNat = kv.stores.length := by
  obtain ⟨hzero, hat⟩ := rowOf_eq_some_iff.mp hstore
  have hlt := (List.getElem?_eq_some_iff.mp hat).1
  have hpos := toNat_pos hzero
  constructor
  · intro hnames
    have hself := hnames storeId
    rw [rowOf_eraseIdx hzero, if_neg (Nat.lt_irrefl _), Function.update_self,
      List.getElem?_eq_none_iff] at hself
    omega
  · intro hlast other
    rw [rowOf_eraseIdx hzero]
    by_cases hsame : other = storeId
    · rw [hsame, Function.update_self, if_neg (Nat.lt_irrefl _), hlast]
      exact List.getElem?_eq_none (Nat.le_refl _)
    · rw [Function.update_of_ne hsame]
      have hne : other.toNat ≠ storeId.toNat := fun heq ↦ hsame (UInt32.toNat_inj.mp heq)
      by_cases hbefore : other.toNat < storeId.toNat
      · rw [if_pos hbefore]
      · have hother : other ≠ 0 := by
          rintro rfl
          exact hbefore hpos
        rw [if_neg hbefore, rowOf, if_neg hother, List.getElem?_eq_none (by omega),
          List.getElem?_eq_none (by omega)]

/-- A call keeps the ids stable exactly when it meets the condition. -/
theorem stable_step_iff (call : KvCall) (hregistered : Registered kv handles)
    (hstable : Stable (kv, handles)) :
    Stable (kvStep kv call, handlesAfter kv call handles) ↔ DeletesLast kv call := by
  rw [(registered_step call hregistered).stable_iff_names]
  have hnames : rowOf kv.stores = handles := funext hstable.names
  cases call with
  | createStore name consistency replicaFactor malloc =>
    refine iff_of_true (fun other ↦ ?_) trivial
    rw [kvStep, handlesAfter]
    rcases kvCreateStore_cases kv name consistency replicaFactor malloc with ⟨hsame, hrefused⟩ |
      ⟨hroom, storeId, hnumber, hpositive, hreturned, hstores⟩
    · rw [hsame, if_neg hrefused, hnames]
    · rw [if_pos hpositive, hreturned, hstores, rowOf_concat_eq, ← hnumber, hnames]
      by_cases hsame : other = storeId
      · rw [hsame, if_pos rfl, Function.update_self]
      · rw [if_neg fun heq ↦ hsame (UInt32.toNat_inj.mp heq), Function.update_of_ne hsame]
  | deleteStore storeId =>
    rw [kvStep, kvDeleteStore, handlesAfter, kvDeleteStore, DeletesLast]
    cases hstore : rowOf kv.stores storeId with
    | none =>
      refine iff_of_true (fun other ↦ ?_) fun hzero hle ↦ ?_
      · dsimp only
        rw [if_neg (show ¬ (-1 : Int) = 0 by decide), hnames]
      · rw [rowOf, if_neg hzero, List.getElem?_eq_none_iff] at hstore
        have hpos := toNat_pos hzero
        omega
    | some store =>
      dsimp only
      rw [if_pos rfl, ← hnames, names_eraseIdx_iff hstore]
      obtain ⟨hzero, hat⟩ := rowOf_eq_some_iff.mp hstore
      have hlt := (List.getElem?_eq_some_iff.mp hat).1
      constructor
      · exact fun hlast _ _ ↦ hlast
      · intro hlast
        exact hlast hzero (by omega)
  | onStore storeId call =>
    refine iff_of_true (fun other ↦ ?_) trivial
    rw [stores_kvStep_onStore, handlesAfter, ← hnames]
    by_cases hsame : other = storeId
    · rw [hsame, rowOf_callOn_self, Function.update_self]
    · rw [rowOf_callOn_ne hsame, Function.update_of_ne hsame]

/-- The ids of stores are stable along a run exactly when every store that is deleted is the last
one of the table at that time. -/
theorem stable_iff (calls : List KvCall) :
    AlongRun (withTrace kvStep handlesAfter) Stable (noStores, fun _ ↦ none) calls ↔
      EveryStep kvStep DeletesLast noStores calls := by
  have htraced : EveryStep (withTrace kvStep handlesAfter)
      (fun traced call ↦ DeletesLast traced.1 call) (noStores, fun _ ↦ none) calls ↔
        EveryStep kvStep DeletesLast noStores calls := everyStep_withTrace
  rw [← htraced]
  have hregistered : Registered noStores fun _ ↦ none :=
    ⟨Nat.zero_le _, fun _ _ hnone ↦ absurd hnone.symm (Option.some_ne_none _)⟩
  refine alongRun_iff_everyStep (fun traced ↦ Registered traced.1 traced.2) (fun _ _ ↦ True)
    (fun _ call hbefore _ ↦ registered_step call hbefore)
    (fun _ call hbefore _ hstable ↦ stable_step_iff call hbefore hstable) hregistered ?_
    fun _ _ _ ↦ trivial
  refine hregistered.stable_iff_names.mpr fun storeId ↦ ?_
  rw [noStores, rowOf]
  split_ifs <;> rfl

/-- After the first of two stores is deleted, the id of the second one names nothing. -/
theorem not_stable_delete_first :
    ¬ AlongRun (withTrace kvStep handlesAfter) Stable (noStores, fun _ ↦ none)
      [.createStore [⟨65, by decide⟩] .strong 1 true, .createStore [⟨66, by decide⟩] .strong 1 true,
        .deleteStore 1] := by
  intro hstable
  have hname := (hstable _ (List.prefix_refl _)).names 2
  revert hname
  decide

end OneOS.KvStore
