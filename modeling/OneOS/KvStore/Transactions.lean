import Mathlib.Algebra.Order.BigOperators.Group.List
import Mathlib.Algebra.Order.Ring.Nat
import OneOS.KvStore.KvStores

/-!
# Transactions

A commit carries out the operation of its transaction and reports it as committed, and an abort
reports it as aborted. Neither looks at the state of the transaction, and a commit does not look at
what the operation returned. So a transaction may be carried out twice, after it was aborted, or
reported as committed when its operation failed.

The operations that were carried out are listed store by store (`appliedAfter`). `Sound` says that
each was carried out once and that those reported as committed are those carried out, and `Honest`
what a single call must not do. `sound_iff` says when both hold along a run: exactly when every
commit of an operation finds its transaction undecided and its operation possible, no commit finds
an aborted transaction, and no abort a committed one (`Decides`). That the number of a transaction
is its own rests on there being room for only so many (`Counted`).
-/

set_option autoImplicit false
set_option relaxedAutoImplicit false

namespace OneOS.KvStore

open Foundation

/-! ### What is carried out -/

/-- The numbers of the transactions of a store that were carried out, after a call. -/
def appliedAfter (store : DistributedKVStore) (call : StoreCall) (applied : List UInt64) :
    List UInt64 :=
  match call with
  | .commitTransaction txId =>
    match findTransaction store txId with
    | none => applied
    | some tx =>
      match tx.innerCall store with
      | none => applied
      | some done => if done.2 = 0 then applied ++ [txId] else applied
  | _ => applied

/-- The transaction has an operation to carry out. -/
def Transaction.Operates (tx : Transaction) : Prop :=
  tx.operation = operationPut ∨ tx.operation = operationDelete

/-- No transaction was carried out twice, and of those with an operation the ones that are reported
as committed are the ones that were carried out. -/
structure Sound (store : DistributedKVStore) (applied : List UInt64) : Prop where
  once : applied.Nodup
  reported : ∀ tx ∈ store.transactions, tx.Operates → (tx.state = .committed ↔ tx.txId ∈ applied)

/-- A transaction that is reported as committed or aborted is reported so from then on. -/
def Final (before after : DistributedKVStore) : Prop :=
  ∀ (i : ℕ) (tx later : Transaction), before.transactions[i]? = some tx →
    after.transactions[i]? = some later → tx.state = .committed ∨ tx.state = .aborted →
      later.state = tx.state

/-- A commit carries out no transaction that was aborted, and returns 0 for none whose operation
failed. -/
def CarriesOut (store : DistributedKVStore) : StoreCall → Prop
  | .commitTransaction txId =>
    ∀ tx done, findTransaction store txId = some tx → tx.innerCall store = some done →
      tx.state ≠ .aborted ∧ ((store.commitTransaction txId).2 = 0 → done.2 = 0)
  | _ => True

/-- What is asked of a single call: it changes no decision, and it carries out transactions as it
should. -/
structure Honest (txId : UInt64) (store : DistributedKVStore) (call : StoreCall) : Prop where
  final : Final store (call.act txId store).1
  carries : CarriesOut store call

/-- The operation of a transaction can be carried out on the store: a put has a value that fits and
an entry or room for one, and a delete has an entry. -/
def Transaction.CanApply (tx : Transaction) (store : DistributedKVStore) : Prop :=
  if tx.operation = operationPut then
    tx.value.length ≤ maxValueSize ∧
      (findEntry store tx.key = none → store.entries.length < maxKeys)
  else findEntry store tx.key ≠ none

/-- The condition on a call on a store. A commit finds no aborted transaction, and if there is an
operation to carry out, it can be and the transaction is not committed; an abort finds no committed
transaction. -/
def Decides (store : DistributedKVStore) : StoreCall → Prop
  | .commitTransaction txId =>
    ∀ tx, findTransaction store txId = some tx →
      tx.state ≠ .aborted ∧ (tx.Operates → tx.state ≠ .committed ∧ tx.CanApply store)
  | .abortTransaction txId =>
    ∀ tx, findTransaction store txId = some tx → tx.state ≠ .committed
  | _ => True

/-! ### Numbers of transactions -/

/-- The transactions of a store have numbers of their own, which were given out already, and those
that were carried out are among them. -/
structure Numbered (counter : UInt64) (store : DistributedKVStore) (applied : List UInt64) :
    Prop where
  distinct : (store.transactions.map Transaction.txId).Nodup
  older : ∀ txId ∈ store.transactions.map Transaction.txId, txId < counter
  known : ∀ txId ∈ applied, txId ∈ store.transactions.map Transaction.txId

/-- All transactions of all stores were numbered one after the other. -/
structure Counted (kv : KvStores) : Prop where
  stores : kv.stores.length ≤ maxKvStores
  room : ∀ store ∈ kv.stores, store.transactions.length ≤ maxTransactions
  counter : kv.txIdCounter.toNat =
    1 + (kv.stores.map fun store ↦ store.transactions.length).sum

variable {store : DistributedKVStore} {applied : List UInt64} {txId counter : UInt64}
variable {tx : Transaction}

theorem mem_of_findTransaction (hfound : findTransaction store txId = some tx) :
    tx ∈ store.transactions ∧ tx.txId = txId := by
  refine ⟨List.mem_of_find?_eq_some hfound, ?_⟩
  have hmatch := List.find?_some (p := fun tx : Transaction ↦ decide (tx.txId = txId)) hfound
  exact of_decide_eq_true hmatch

/-- The number of a transaction is its own. -/
theorem Numbered.eq_of_txId (hnumbered : Numbered counter store applied) {other : Transaction}
    (htx : tx ∈ store.transactions) (hother : other ∈ store.transactions)
    (hsame : other.txId = tx.txId) : other = tx :=
  List.inj_on_of_nodup_map hnumbered.distinct hother htx hsame

/-- Setting the state of a transaction leaves all others. -/
theorem Numbered.transactions_setState (hnumbered : Numbered counter store applied)
    (state : TransactionState) :
    (store.setState txId state).transactions = store.transactions.map fun tx ↦
      if tx.txId = txId then { tx with state := state } else tx := by
  rw [DistributedKVStore.setState, updateFirst_eq_map hnumbered.distinct]
  · simp
  · exact fun tx ↦ of_decide_eq_true

/-- A put and a delete leave the transactions. -/
theorem transactions_put (key : CString) (value : List UInt8) :
    (store.put key value).1.transactions = store.transactions := by
  unfold DistributedKVStore.put
  dsimp only
  split_ifs
  · rfl
  · split <;> rfl
  · split <;> rfl

theorem transactions_delete (key : CString) :
    (store.delete key).1.transactions = store.transactions := by
  unfold DistributedKVStore.delete
  split <;> rfl

theorem transactions_get (key : CString) (valueLen : UInt32) :
    (store.get key valueLen).1.transactions = store.transactions := by
  unfold DistributedKVStore.get
  split
  · rfl
  · split_ifs <;> rfl

theorem transactions_innerCall {done : DistributedKVStore × Int}
    (hdone : tx.innerCall store = some done) : done.1.transactions = store.transactions := by
  unfold Transaction.innerCall at hdone
  split_ifs at hdone
  · obtain rfl := Option.some.inj hdone
    exact transactions_put tx.key tx.value
  · obtain rfl := Option.some.inj hdone
    exact transactions_delete tx.key

/-- A transaction with an operation carries it out exactly when it can be. -/
theorem exists_innerCall (store : DistributedKVStore) (hoperates : tx.Operates) :
    ∃ done, tx.innerCall store = some done ∧ (done.2 = 0 ↔ tx.CanApply store) := by
  unfold Transaction.innerCall Transaction.CanApply
  by_cases hput : tx.operation = operationPut
  · rw [if_pos hput, if_pos hput]
    refine ⟨_, rfl, ?_⟩
    rcases put_cases store tx.key tx.value with ⟨-, hrefused, hnot⟩ | ⟨haccepted, hlength,
      ⟨entry, hfound, -⟩ | ⟨-, hroom, -⟩⟩
    · exact iff_of_false hrefused hnot
    · exact iff_of_true haccepted
        ⟨hlength, fun hnone ↦ absurd (hnone.symm.trans hfound) (by simp)⟩
    · exact iff_of_true haccepted ⟨hlength, fun _ ↦ hroom⟩
  · rw [if_neg hput, if_pos (hoperates.resolve_left hput), if_neg hput]
    exact ⟨_, rfl, delete_snd_eq_zero_iff store tx.key⟩

/-- A transaction without an operation carries out nothing. -/
theorem innerCall_eq_none (hoperates : ¬ tx.Operates) : tx.innerCall store = none := by
  unfold Transaction.innerCall
  rw [if_neg fun hput ↦ hoperates (Or.inl hput), if_neg fun hdelete ↦ hoperates (Or.inr hdelete)]

/-! ### One store -/

/-- A call that leaves the transactions and carries out none changes nothing that is asked. -/
theorem sound_and_honest_of_same {call : StoreCall}
    (htransactions : (call.act counter store).1.transactions = store.transactions)
    (happlied : appliedAfter store call applied = applied)
    (hcarries : CarriesOut store call) (hsound : Sound store applied) :
    Sound (call.act counter store).1 (appliedAfter store call applied) ∧
      Honest counter store call := by
  rw [happlied]
  refine ⟨⟨hsound.once, ?_⟩, ?_, hcarries⟩
  · rw [htransactions]
    exact hsound.reported
  · intro i tx later htx hlater _
    rw [htransactions, htx, Option.some.injEq] at hlater
    rw [hlater]

/-- Setting the state of a transaction changes no decision exactly when the transaction has that
state or is not decided. -/
theorem Numbered.final_setState_iff (hnumbered : Numbered counter store applied)
    (state : TransactionState) {after : DistributedKVStore}
    (hafter : after.transactions = (store.setState txId state).transactions)
    (hfound : findTransaction store txId = some tx) :
    Final store after ↔ (tx.state = .committed ∨ tx.state = .aborted → state = tx.state) := by
  obtain ⟨hmem, hid⟩ := mem_of_findTransaction hfound
  rw [hnumbered.transactions_setState] at hafter
  unfold Final
  rw [hafter]
  constructor
  · intro hfinal
    obtain ⟨i, hi⟩ := List.mem_iff_getElem?.mp hmem
    refine hfinal i tx { tx with state := state } hi ?_
    rw [List.getElem?_map, hi, Option.map_some, if_pos hid]
  · intro hstate i other later hother hlater hdecided
    rw [List.getElem?_map, hother, Option.map_some, Option.some.injEq] at hlater
    split_ifs at hlater with hsame
    · have heq := hnumbered.eq_of_txId hmem (List.mem_of_getElem? hother) (hsame.trans hid.symm)
      rw [← hlater, heq]
      exact hstate (heq ▸ hdecided)
    · rw [hlater]

/-- Assumes: what was carried out is right. After the state of a transaction is set, it is right
again exactly when the transaction is reported as committed as it was carried out. -/
theorem Numbered.reported_setState_iff (hnumbered : Numbered counter store applied)
    (state : TransactionState) {after : DistributedKVStore} {later : List UInt64}
    (hafter : after.transactions = (store.setState txId state).transactions)
    (hfound : findTransaction store txId = some tx)
    (hlater : ∀ number, number ≠ txId → (number ∈ later ↔ number ∈ applied))
    (hsound : Sound store applied) :
    (∀ tx ∈ after.transactions, tx.Operates → (tx.state = .committed ↔ tx.txId ∈ later)) ↔
      (tx.Operates → (state = .committed ↔ txId ∈ later)) := by
  obtain ⟨hmem, hid⟩ := mem_of_findTransaction hfound
  rw [hafter, hnumbered.transactions_setState, List.forall_mem_map]
  constructor
  · intro hreported hoperates
    have hself := hreported tx hmem
    rw [if_pos hid] at hself
    rw [← hid]
    exact hself hoperates
  · intro hself other hother
    split_ifs with hsame
    · have heq := hnumbered.eq_of_txId hmem hother (hsame.trans hid.symm)
      rw [heq]
      intro hoperates
      rw [hid]
      exact hself hoperates
    · intro hoperates
      rw [hlater other.txId hsame]
      exact hsound.reported other hother hoperates

/-- A transaction that is started is new and has not been carried out. -/
theorem sound_and_honest_start (operation key : CString) (value : List UInt8)
    (hnumbered : Numbered counter store applied) (hsound : Sound store applied) :
    Sound (StoreCall.act counter store (.startTransaction operation key value)).1 applied ∧
      Honest counter store (.startTransaction operation key value) := by
  by_cases hfull : maxTransactions ≤ store.transactions.length
  · refine sound_and_honest_of_same ?_ rfl trivial hsound
    rw [StoreCall.act, DistributedKVStore.startTransaction, if_pos hfull]
  · have htransactions : (StoreCall.act counter store
        (.startTransaction operation key value)).1.transactions = store.transactions ++
          [{ txId := counter, operation := operation.take 31, key := key.take (maxKeySize - 1),
             value := value.take maxValueSize, state := .pending }] := by
      rw [StoreCall.act, DistributedKVStore.startTransaction, if_neg hfull]
    refine ⟨⟨hsound.once, ?_⟩, ?_, trivial⟩
    · rw [htransactions]
      intro tx htx hoperates
      rcases List.mem_append.mp htx with hold | hnew
      · exact hsound.reported tx hold hoperates
      · rw [List.mem_singleton.mp hnew]
        refine iff_of_false (by simp) fun happlied ↦ ?_
        exact absurd (hnumbered.older counter (hnumbered.known counter happlied))
          (UInt64.lt_irrefl counter)
    · intro i tx later htx hlater _
      have hlt := (List.getElem?_eq_some_iff.mp htx).1
      rw [htransactions, List.getElem?_append_left hlt, htx, Option.some.injEq] at hlater
      rw [hlater]

/-- An abort of a transaction that is found. -/
theorem sound_and_honest_abort_iff (hnumbered : Numbered counter store applied)
    (hsound : Sound store applied) (hfound : findTransaction store txId = some tx) :
    Sound (StoreCall.act counter store (.abortTransaction txId)).1 applied ∧
        Honest counter store (.abortTransaction txId) ↔ tx.state ≠ .committed := by
  have hafter : (StoreCall.act counter store (.abortTransaction txId)).1 =
      store.setState txId .aborted := by
    rw [StoreCall.act, DistributedKVStore.abortTransaction, hfound]
  have hfinal := hnumbered.final_setState_iff .aborted (congrArg _ hafter) hfound
  have hreported := hnumbered.reported_setState_iff .aborted (congrArg _ hafter) hfound
    (fun _ _ ↦ Iff.rfl) hsound
  obtain ⟨hmem, hid⟩ := mem_of_findTransaction hfound
  constructor
  · rintro ⟨-, hhonest⟩ hcommitted
    have hsame := hfinal.mp hhonest.final (Or.inl hcommitted)
    rw [hcommitted] at hsame
    exact absurd hsame (by simp)
  · intro hstate
    refine ⟨⟨hsound.once, hreported.mpr fun hoperates ↦ ?_⟩, hfinal.mpr ?_, trivial⟩
    · rw [← hid, ← hsound.reported tx hmem hoperates]
      exact iff_of_false (by simp) hstate
    · intro hdecided
      exact (hdecided.resolve_left hstate).symm

/-- What a commit of a transaction that is found does. -/
theorem commitTransaction_of_found (hfound : findTransaction store txId = some tx) :
    store.commitTransaction txId =
      ((((tx.innerCall store).map Prod.fst).getD store).setState txId .committed, 0) := by
  rw [DistributedKVStore.commitTransaction, hfound]

/-- Carrying out the operation leaves the transactions, so that a commit only sets the state. -/
theorem transactions_commit (counter : UInt64) (hfound : findTransaction store txId = some tx) :
    (StoreCall.act counter store (.commitTransaction txId)).1.transactions =
      (store.setState txId .committed).transactions := by
  have hinner : (((tx.innerCall store).map Prod.fst).getD store).transactions =
      store.transactions := by
    cases hdone : tx.innerCall store with
    | none => rfl
    | some done => exact transactions_innerCall hdone
  rw [StoreCall.act, commitTransaction_of_found hfound, DistributedKVStore.setState, hinner]
  rfl

/-- When a commit of a transaction that is found carries its operation out. -/
theorem carriesOut_commit_iff (hfound : findTransaction store txId = some tx) :
    CarriesOut store (.commitTransaction txId) ↔
      ∀ done, tx.innerCall store = some done → tx.state ≠ .aborted ∧ done.2 = 0 := by
  rw [CarriesOut, commitTransaction_of_found hfound]
  constructor
  · intro hall done hdone
    obtain ⟨halive, hzero⟩ := hall tx done hfound hdone
    exact ⟨halive, hzero rfl⟩
  · intro hall other done hother hdone
    rw [hfound, Option.some.injEq] at hother
    rw [← hother] at hdone ⊢
    obtain ⟨halive, hzero⟩ := hall done hdone
    exact ⟨halive, fun _ ↦ hzero⟩

/-- A commit of a transaction that puts or deletes. -/
theorem sound_and_honest_commit_of_operates (hnumbered : Numbered counter store applied)
    (hsound : Sound store applied) (hfound : findTransaction store txId = some tx)
    (hoperates : tx.Operates) :
    Sound (StoreCall.act counter store (.commitTransaction txId)).1
          (appliedAfter store (.commitTransaction txId) applied) ∧
        Honest counter store (.commitTransaction txId) ↔
      tx.state ≠ .aborted ∧ tx.state ≠ .committed ∧ tx.CanApply store := by
  obtain ⟨hmem, hid⟩ := mem_of_findTransaction hfound
  have hafter := transactions_commit counter hfound
  obtain ⟨done, hdone, hresult⟩ := exists_innerCall store hoperates
  have happlied : appliedAfter store (.commitTransaction txId) applied =
      if done.2 = 0 then applied ++ [txId] else applied := by
    simp [appliedAfter, hfound, hdone]
  have hreported := hsound.reported tx hmem hoperates
  rw [hid] at hreported
  rw [happlied]
  constructor
  · rintro ⟨hsoundAfter, hhonest⟩
    obtain ⟨halive, hzero⟩ := (carriesOut_commit_iff hfound).mp hhonest.carries done hdone
    refine ⟨halive, fun hcommitted ↦ ?_, hresult.mp hzero⟩
    have honce := hsoundAfter.once
    rw [if_pos hzero, List.nodup_append] at honce
    exact honce.2.2 txId (hreported.mp hcommitted) txId List.mem_cons_self rfl
  · rintro ⟨halive, hundecided, hcan⟩
    have hzero := hresult.mpr hcan
    have hfresh : txId ∉ applied := fun hin ↦ hundecided (hreported.mpr hin)
    rw [if_pos hzero]
    refine ⟨⟨List.nodup_append.mpr ⟨hsound.once, List.nodup_singleton txId, ?_⟩, ?_⟩,
      (hnumbered.final_setState_iff .committed hafter hfound).mpr ?_,
      (carriesOut_commit_iff hfound).mpr fun found hsame ↦ ?_⟩
    · intro number hnumber other hother hsame
      rw [hsame, List.mem_singleton.mp hother] at hnumber
      exact hfresh hnumber
    · refine (hnumbered.reported_setState_iff .committed hafter hfound ?_ hsound).mpr ?_
      · intro number hnumber
        simp [hnumber]
      · exact fun _ ↦ iff_of_true rfl (List.mem_append_right _ List.mem_cons_self)
    · rintro (hcommitted | haborted)
      · exact absurd hcommitted hundecided
      · exact absurd haborted halive
    · rw [hdone, Option.some.injEq] at hsame
      exact ⟨halive, hsame ▸ hzero⟩

/-- A commit of a transaction that neither puts nor deletes. -/
theorem sound_and_honest_commit_of_idle (hnumbered : Numbered counter store applied)
    (hsound : Sound store applied) (hfound : findTransaction store txId = some tx)
    (hidle : ¬ tx.Operates) :
    Sound (StoreCall.act counter store (.commitTransaction txId)).1
          (appliedAfter store (.commitTransaction txId) applied) ∧
        Honest counter store (.commitTransaction txId) ↔ tx.state ≠ .aborted := by
  have hafter := transactions_commit counter hfound
  have hfinal := hnumbered.final_setState_iff .committed hafter hfound
  have hnone : tx.innerCall store = none := innerCall_eq_none hidle
  have happlied : appliedAfter store (.commitTransaction txId) applied = applied := by
    simp [appliedAfter, hfound, hnone]
  rw [happlied]
  constructor
  · rintro ⟨-, hhonest⟩ haborted
    have hsame := hfinal.mp hhonest.final (Or.inr haborted)
    rw [haborted] at hsame
    exact absurd hsame (by simp)
  · intro hstate
    refine ⟨⟨hsound.once, ?_⟩, hfinal.mpr ?_, (carriesOut_commit_iff hfound).mpr ?_⟩
    · exact (hnumbered.reported_setState_iff .committed hafter hfound (fun _ _ ↦ Iff.rfl)
        hsound).mpr fun hsome ↦ absurd hsome hidle
    · intro hdecided
      exact (hdecided.resolve_right hstate).symm
    · intro done hdone
      rw [hnone] at hdone
      exact absurd hdone.symm (Option.some_ne_none _)

/-- A commit of a transaction that is found. -/
theorem sound_and_honest_commit_iff (hnumbered : Numbered counter store applied)
    (hsound : Sound store applied) (hfound : findTransaction store txId = some tx) :
    Sound (StoreCall.act counter store (.commitTransaction txId)).1
          (appliedAfter store (.commitTransaction txId) applied) ∧
        Honest counter store (.commitTransaction txId) ↔
      tx.state ≠ .aborted ∧ (tx.Operates → tx.state ≠ .committed ∧ tx.CanApply store) := by
  by_cases hoperates : tx.Operates
  · rw [sound_and_honest_commit_of_operates hnumbered hsound hfound hoperates]
    exact and_congr_right fun _ ↦ (imp_iff_right hoperates).symm
  · rw [sound_and_honest_commit_of_idle hnumbered hsound hfound hoperates]
    exact (and_iff_left fun hsome ↦ absurd hsome hoperates).symm

/-- A call on a store does what is asked exactly when it meets the condition. -/
theorem sound_and_honest_act_iff (hnumbered : Numbered counter store applied)
    (hsound : Sound store applied) (call : StoreCall) :
    Sound (call.act counter store).1 (appliedAfter store call applied) ∧
        Honest counter store call ↔ Decides store call := by
  cases call with
  | put key value =>
    exact iff_of_true
      (sound_and_honest_of_same (transactions_put key value) rfl trivial hsound) trivial
  | get key valueLen =>
    exact iff_of_true
      (sound_and_honest_of_same (transactions_get key valueLen) rfl trivial hsound) trivial
  | delete key =>
    exact iff_of_true
      (sound_and_honest_of_same (transactions_delete key) rfl trivial hsound) trivial
  | compact => exact iff_of_true (sound_and_honest_of_same rfl rfl trivial hsound) trivial
  | startTransaction operation key value =>
    exact iff_of_true (sound_and_honest_start operation key value hnumbered hsound) trivial
  | commitTransaction txId =>
    rw [Decides]
    cases hfound : findTransaction store txId with
    | none =>
      refine iff_of_true (sound_and_honest_of_same ?_ ?_ ?_ hsound) (by simp)
      · rw [StoreCall.act, DistributedKVStore.commitTransaction, hfound]
      · rw [appliedAfter, hfound]
      · simp [CarriesOut, hfound]
    | some tx =>
      rw [sound_and_honest_commit_iff hnumbered hsound hfound]
      simp
  | abortTransaction txId =>
    rw [Decides]
    cases hfound : findTransaction store txId with
    | none =>
      refine iff_of_true (sound_and_honest_of_same ?_ rfl trivial hsound) (by simp)
      rw [StoreCall.act, DistributedKVStore.abortTransaction, hfound]
    | some tx =>
      refine (sound_and_honest_abort_iff hnumbered hsound hfound).trans ?_
      simp

/-! ### All stores -/

/-- The call starts a transaction. -/
def StoreCall.starts (store : DistributedKVStore) : StoreCall → Bool
  | .startTransaction _ _ _ => store.transactions.length < maxTransactions
  | _ => false

/-- What a call does to the numbers of the transactions of its store. -/
theorem txIds_act (counter : UInt64) (store : DistributedKVStore) (call : StoreCall) :
    (call.act counter store).1.transactions.map Transaction.txId =
      store.transactions.map Transaction.txId ++ if call.starts store then [counter] else [] := by
  have hsame : ∀ transactions : List Transaction, transactions = store.transactions →
      transactions.map Transaction.txId = store.transactions.map Transaction.txId ++ [] := by
    rintro transactions rfl
    rw [List.append_nil]
  have hset : ∀ (later : DistributedKVStore) (number : UInt64) (state : TransactionState),
      later.transactions = store.transactions →
        (later.setState number state).transactions.map Transaction.txId =
          store.transactions.map Transaction.txId ++ [] := by
    intro later number state hlater
    rw [List.append_nil, ← hlater]
    refine map_updateFirst ?_
    exact fun _ _ ↦ rfl
  cases call with
  | put key value => exact hsame _ (transactions_put key value)
  | get key valueLen => exact hsame _ (transactions_get key valueLen)
  | delete key => exact hsame _ (transactions_delete key)
  | compact => exact hsame _ rfl
  | startTransaction operation key value =>
    rw [StoreCall.act, DistributedKVStore.startTransaction, StoreCall.starts]
    by_cases hfull : maxTransactions ≤ store.transactions.length
    · simp [hfull, Nat.not_lt.mpr hfull]
    · simp [hfull, Nat.not_le.mp hfull]
  | commitTransaction txId =>
    rw [StoreCall.act, DistributedKVStore.commitTransaction]
    split
    · exact hsame _ rfl
    · next tx htx =>
      refine hset _ txId .committed ?_
      cases hdone : tx.innerCall store with
      | none => rfl
      | some done => exact transactions_innerCall hdone
  | abortTransaction txId =>
    rw [StoreCall.act, DistributedKVStore.abortTransaction]
    split
    · exact hsame _ rfl
    · exact hset store txId .aborted rfl

/-- The counter is raised when a transaction is started. -/
theorem txIdCounter_onStore {kv : KvStores} {storeId : UInt32} (call : StoreCall)
    (hstore : rowOf kv.stores storeId = some store) :
    (kvStep kv (.onStore storeId call)).txIdCounter =
      if call.starts store then kv.txIdCounter + 1 else kv.txIdCounter := by
  cases call with
  | startTransaction operation key value =>
    rw [kvStep, kvStartTransaction, KvStores.call, callOn_of_some hstore,
      DistributedKVStore.startTransaction, StoreCall.starts]
    by_cases hfull : maxTransactions ≤ store.transactions.length
    · simp [hfull, Nat.not_lt.mpr hfull]
    · simp [hfull, Nat.not_le.mp hfull]
  | _ => rfl

theorem kvStep_onStore_of_none {kv : KvStores} {storeId : UInt32} (call : StoreCall)
    (hstore : rowOf kv.stores storeId = none) : kvStep kv (.onStore storeId call) = kv := by
  cases call with
  | startTransaction operation key value =>
    rw [kvStep, kvStartTransaction, KvStores.call, callOn_of_none hstore]
    simp
  | _ =>
    simp only [kvStep, kvPut, kvGet, kvDelete, kvCompactStore, kvCommitTransaction,
      kvAbortTransaction, KvStores.call, callOn_of_none hstore]

/-- The counter is far from its end. -/
theorem Counted.counter_lt {kv : KvStores} (hcounted : Counted kv) :
    kv.txIdCounter.toNat + 1 < 2 ^ 64 := by
  have hsum : (kv.stores.map fun store ↦ store.transactions.length).sum ≤
      (kv.stores.map fun store ↦ store.transactions.length).length • maxTransactions := by
    refine List.sum_le_card_nsmul _ _ fun count hcount ↦ ?_
    obtain ⟨store, hstore, rfl⟩ := List.mem_map.mp hcount
    exact hcounted.room store hstore
  rw [List.length_map, Nat.nsmul_eq_mul] at hsum
  have hbound : kv.stores.length * maxTransactions ≤ 16 * 512 :=
    Nat.mul_le_mul hcounted.stores (Nat.le_refl 512)
  rw [hcounted.counter]
  omega

theorem Counted.toNat_counter_succ {kv : KvStores} (hcounted : Counted kv) :
    (kv.txIdCounter + 1).toNat = kv.txIdCounter.toNat + 1 := by
  rw [UInt64.toNat_add, UInt64.toNat_one]
  exact Nat.mod_eq_of_lt hcounted.counter_lt

/-- Every call that deletes no store keeps the transactions counted. -/
theorem counted_step {kv : KvStores} (call : KvCall) (hcall : call.keepsStores)
    (hcounted : Counted kv) : Counted (kvStep kv call) := by
  cases call with
  | createStore name consistency replicaFactor malloc =>
    rw [kvStep, kvCreateStore]
    split_ifs with hfull
    · exact hcounted
    · refine ⟨?_, ?_, ?_⟩
      · rw [List.length_append]
        exact Nat.not_le.mp hfull
      · intro store hstore
        rcases List.mem_append.mp hstore with hold | hnew
        · exact hcounted.room store hold
        · rw [List.mem_singleton.mp hnew]
          exact Nat.zero_le _
      · rw [List.map_append, List.sum_append]
        exact hcounted.counter
    · exact hcounted
  | deleteStore storeId => exact hcall.elim
  | onStore storeId call =>
    cases hstore : rowOf kv.stores storeId with
    | none =>
      rw [kvStep_onStore_of_none call hstore]
      exact hcounted
    | some store =>
      have hlength : (call.act kv.txIdCounter store).1.transactions.length =
          store.transactions.length + if call.starts store then 1 else 0 := by
        have hids := congrArg List.length (txIds_act kv.txIdCounter store call)
        rw [List.length_append, List.length_map, List.length_map] at hids
        rw [hids]
        split_ifs <;> rfl
      refine ⟨?_, ?_, ?_⟩
      · rw [stores_kvStep_onStore, callOn_of_some hstore, List.length_set]
        exact hcounted.stores
      · rw [stores_kvStep_onStore, forall_mem_callOn_iff hcounted.room]
        intro found hfound
        rw [hstore, Option.some.injEq] at hfound
        rw [← hfound, hlength]
        have hroom := hcounted.room store (mem_of_rowOf hstore)
        cases call with
        | startTransaction operation key value =>
          rw [StoreCall.starts]
          split_ifs with hfits
          · exact of_decide_eq_true hfits
          · exact hroom
        | _ => exact hroom
      · have hsum := sum_map_callOn_add (fun store ↦ store.transactions.length)
          (fun store ↦ call.act kv.txIdCounter store) hstore
        rw [stores_kvStep_onStore, txIdCounter_onStore call hstore]
        have hcounter := hcounted.counter
        have hsucc := hcounted.toNat_counter_succ
        split_ifs with hstarts
        · rw [if_pos hstarts] at hlength
          rw [hsucc]
          omega
        · rw [if_neg hstarts] at hlength
          omega

/-- A call on a store keeps the numbers of its transactions distinct and below the counter. -/
theorem numbered_act (hnumbered : Numbered counter store applied) (call : StoreCall)
    {later : UInt64} (hlater : counter ≤ later)
    (hstarts : call.starts store = true → counter < later) :
    Numbered later (call.act counter store).1 (appliedAfter store call applied) := by
  have hids := txIds_act counter store call
  refine ⟨?_, ?_, ?_⟩
  · rw [hids]
    split_ifs
    · refine List.nodup_append.mpr ⟨hnumbered.distinct, List.nodup_singleton counter, ?_⟩
      intro number hnumber other hother hsame
      rw [hsame, List.mem_singleton.mp hother] at hnumber
      exact absurd (hnumbered.older counter hnumber) (UInt64.lt_irrefl counter)
    · rw [List.append_nil]
      exact hnumbered.distinct
  · rw [hids]
    intro number hnumber
    rcases List.mem_append.mp hnumber with hold | hnew
    · exact UInt64.lt_of_lt_of_le (hnumbered.older number hold) hlater
    · split_ifs at hnew with hstart
      · rw [List.mem_singleton.mp hnew]
        exact hstarts hstart
      · exact absurd hnew List.not_mem_nil
  · rw [hids]
    intro number hnumber
    refine List.mem_append_left _ ?_
    cases call with
    | commitTransaction txId =>
      rw [appliedAfter] at hnumber
      split at hnumber
      · exact hnumbered.known number hnumber
      · next tx htx =>
        obtain ⟨hmem, hid⟩ := mem_of_findTransaction htx
        split at hnumber
        · exact hnumbered.known number hnumber
        · split_ifs at hnumber
          · rcases List.mem_append.mp hnumber with hold | hnew
            · exact hnumbered.known number hold
            · rw [List.mem_singleton.mp hnew, ← hid]
              exact List.mem_map_of_mem hmem
          · exact hnumbered.known number hnumber
    | _ => exact hnumbered.known number hnumber

/-- The counter never falls, and it rises when a transaction is started. -/
theorem le_txIdCounter_step {kv : KvStores} (hcounted : Counted kv) (call : KvCall) :
    kv.txIdCounter ≤ (kvStep kv call).txIdCounter := by
  cases call with
  | createStore name consistency replicaFactor malloc =>
    rw [kvStep, kvCreateStore]
    split_ifs <;> exact UInt64.le_refl _
  | deleteStore storeId =>
    rw [kvStep, kvDeleteStore]
    split <;> exact UInt64.le_refl _
  | onStore storeId call =>
    cases hstore : rowOf kv.stores storeId with
    | none => rw [kvStep_onStore_of_none call hstore]; exact UInt64.le_refl _
    | some store =>
      rw [txIdCounter_onStore call hstore]
      split_ifs
      · rw [UInt64.le_iff_toNat_le, hcounted.toNat_counter_succ]
        exact Nat.le_succ _
      · exact UInt64.le_refl _

theorem lt_txIdCounter_of_starts {kv : KvStores} {storeId : UInt32} {call : StoreCall}
    (hcounted : Counted kv) (hstore : rowOf kv.stores storeId = some store)
    (hstarts : call.starts store = true) :
    kv.txIdCounter < (kvStep kv (.onStore storeId call)).txIdCounter := by
  rw [txIdCounter_onStore call hstore, if_pos hstarts, UInt64.lt_iff_toNat_lt,
    hcounted.toNat_counter_succ]
  exact Nat.lt_succ_self _

/-- What holds along every run that deletes no store. -/
structure Ledger (traced : KvStores × (UInt32 → List UInt64)) : Prop where
  counted : Counted traced.1
  numbered : RowsMatch (Numbered traced.1.txIdCounter) [] traced.1.stores traced.2

theorem ledger_step {kv : KvStores} {records : UInt32 → List UInt64} (call : KvCall)
    (hcall : call.keepsStores) (hledger : Ledger (kv, records)) :
    Ledger (withTrace kvStep (recordsAfter appliedAfter) (kv, records) call) := by
  refine ⟨counted_step call hcall hledger.counted, ?_⟩
  have hnext := le_txIdCounter_step hledger.counted call
  have hmatch : RowsMatch (Numbered (kvStep kv call).txIdCounter) [] kv.stores records := by
    refine ⟨fun storeId store hstore ↦ ?_, hledger.numbered.missing⟩
    have hbefore := hledger.numbered.related storeId store hstore
    exact ⟨hbefore.distinct,
      fun number hnumber ↦ UInt64.lt_of_lt_of_le (hbefore.older number hnumber) hnext,
      hbefore.known⟩
  refine (rowsMatch_kvStep_iff hmatch call hcall ?_).mpr ?_
  · intro store _ hnone
    refine ⟨?_, ?_, ?_⟩ <;> simp [hnone]
  · cases call with
    | onStore storeId call =>
      intro store hstore
      exact numbered_act (hledger.numbered.related storeId store hstore) call hnext
        (lt_txIdCounter_of_starts hledger.counted hstore)
    | _ => trivial

/-- Every store is sound. -/
def AllSound (traced : KvStores × (UInt32 → List UInt64)) : Prop :=
  ∀ storeId store, rowOf traced.1.stores storeId = some store → Sound store (traced.2 storeId)

/-- A call does what is asked of it on the store that it is on. -/
def CallHonest (kv : KvStores) (call : KvCall) : Prop :=
  OnStore (fun _ ↦ Honest kv.txIdCounter) kv call

/-- Transactions are carried out at most once, never after they were aborted, reported as committed
only when their operation succeeded, and decided for good, along a run that deletes no store,
exactly when every commit finds a transaction that is not aborted and, if it has an operation, is
not committed either and has an operation that can be carried out, and every abort finds one that is
not committed. -/
theorem sound_iff (calls : List KvCall) (hcalls : ∀ call ∈ calls, call.keepsStores) :
    AlongRun (withTrace kvStep (recordsAfter appliedAfter)) AllSound (noStores, fun _ ↦ []) calls ∧
        EveryStep kvStep CallHonest noStores calls ↔
      EveryStep kvStep (OnStore fun _ ↦ Decides) noStores calls := by
  have hhonest : EveryStep (withTrace kvStep (recordsAfter appliedAfter))
      (fun traced call ↦ CallHonest traced.1 call) (noStores, fun _ ↦ []) calls ↔
        EveryStep kvStep CallHonest noStores calls := everyStep_withTrace
  have hdecides : EveryStep (withTrace kvStep (recordsAfter appliedAfter))
      (fun traced call ↦ OnStore (fun _ ↦ Decides) traced.1 call) (noStores, fun _ ↦ []) calls ↔
        EveryStep kvStep (OnStore fun _ ↦ Decides) noStores calls := everyStep_withTrace
  rw [← hhonest, ← hdecides]
  refine alongRun_and_everyStep_iff Ledger (fun _ call ↦ call.keepsStores)
    (fun traced call hledger hcall ↦ ledger_step call hcall hledger)
    (fun traced call hledger hcall hsound ↦ ?_)
    ⟨⟨Nat.zero_le _, by simp [noStores], rfl⟩, rowsMatch_nil⟩ ?_ (everyStep_of_forall_mem hcalls)
  · have hmatch : RowsMatch Sound [] traced.1.stores traced.2 :=
      ⟨hsound, hledger.numbered.missing⟩
    have hafter : AllSound (withTrace kvStep (recordsAfter appliedAfter) traced call) ↔
        OnStore (fun storeId store call ↦ Sound (call.act traced.1.txIdCounter store).1
          (appliedAfter store call (traced.2 storeId))) traced.1 call := by
      rw [← rowsMatch_kvStep_iff hmatch call hcall]
      · constructor
        · intro hall
          exact ⟨hall, recordsAfter_missing call hcall hledger.numbered.missing⟩
        · intro hall
          exact hall.related
      · intro store _ hnone
        exact ⟨List.nodup_nil, by simp [hnone]⟩
    rw [hafter, CallHonest, ← onStore_and]
    exact onStore_congr call fun storeId store call hstore ↦
      sound_and_honest_act_iff (hledger.numbered.related storeId store hstore)
        (hsound storeId store hstore) call
  · intro storeId store hstore
    exact absurd (mem_of_rowOf hstore) List.not_mem_nil

/-- A transaction that is committed and one that is aborted. -/
theorem sound_commit_abort :
    AlongRun (withTrace kvStep (recordsAfter appliedAfter)) AllSound (noStores, fun _ ↦ [])
        [.createStore [] .strong 1 true,
          .onStore 1 (.startTransaction operationPut [⟨97, by decide⟩] [1]),
          .onStore 1 (.startTransaction operationDelete [⟨97, by decide⟩] []),
          .onStore 1 (.commitTransaction 1), .onStore 1 (.abortTransaction 2)] ∧
      EveryStep kvStep CallHonest noStores
        [.createStore [] .strong 1 true,
          .onStore 1 (.startTransaction operationPut [⟨97, by decide⟩] [1]),
          .onStore 1 (.startTransaction operationDelete [⟨97, by decide⟩] []),
          .onStore 1 (.commitTransaction 1), .onStore 1 (.abortTransaction 2)] := by
  refine (sound_iff _ ?_).mpr ?_
  · simp [KvCall.keepsStores]
  · simp [OnStore, Decides, kvStep, kvCreateStore, noStores, newStore, kvStartTransaction,
      kvCommitTransaction, KvStores.call, callOn, rowOf, DistributedKVStore.startTransaction,
      DistributedKVStore.commitTransaction, DistributedKVStore.setState, findTransaction,
      Transaction.innerCall, Transaction.CanApply, Transaction.Operates, DistributedKVStore.put,
      findEntry, updateFirst, List.findIdx_cons, operationPut, operationDelete, maxKvStores,
      maxKeys, maxTransactions, maxValueSize]

/-- A transaction that is committed twice puts its value twice. -/
theorem not_sound_commit_twice :
    ¬ AlongRun (withTrace kvStep (recordsAfter appliedAfter)) AllSound (noStores, fun _ ↦ [])
      [.createStore [] .strong 1 true,
        .onStore 1 (.startTransaction operationPut [⟨97, by decide⟩] [1]),
        .onStore 1 (.commitTransaction 1), .onStore 1 (.commitTransaction 1)] := by
  intro hsound
  have honce := (hsound _ (List.prefix_refl _) 1 _ rfl).once
  revert honce
  decide

end OneOS.KvStore
