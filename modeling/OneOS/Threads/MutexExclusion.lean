import OneOS.Foundation.Counters
import OneOS.Threads.ThreadManager

/-!
# Mutual exclusion

A mutex of the thread manager is recursive: its owner may lock it again and has to unlock it as
often. `mutexExclusion` shows for every interleaving of calls that the three fields of a mutex
agree, that `lock_count` is what the owner has locked and not unlocked since it became the owner,
and that no other thread gets the mutex meanwhile.

`Acquires` and `Releases` are what one call can do to a mutex, the same for `mutex_lock` and
`mutex_trylock` although these test their conditions in a different order.
-/

set_option autoImplicit false
set_option relaxedAutoImplicit false

namespace OneOS.Threads

open Foundation

variable {manager : ThreadManager} {mutex : Mutex} {threadId : UInt32} {call : ThreadCall}

/-! ### What one call does to a mutex -/

/-- `is_locked`, `owner_thread_id` and `lock_count` agree on whether the mutex is taken. -/
structure Mutex.Consistent (mutex : Mutex) : Prop where
  locked : mutex.isLocked = true ↔ mutex.ownerThreadId ≠ 0
  counted : mutex.ownerThreadId ≠ 0 ↔ 0 < mutex.lockCount

/-- The outcomes of a call by which a thread tries to get a mutex, with the answer: the owner gets
it again, a taken mutex is refused, with the list of waiting threads left open, and a free mutex is
taken. -/
inductive Acquires (threadId : UInt32) (mutex : Mutex) : Mutex × Int → Prop
  | again (howner : mutex.ownerThreadId = threadId) :
    Acquires threadId mutex ({ mutex with lockCount := mutex.lockCount + 1 }, 0)
  | refused (waitingThreads : List UInt32) (howner : mutex.ownerThreadId ≠ threadId)
      (hlocked : mutex.isLocked = true) :
    Acquires threadId mutex ({ mutex with waitingThreads := waitingThreads }, -1)
  | taken (howner : mutex.ownerThreadId ≠ threadId) (hfree : mutex.isLocked = false) :
    Acquires threadId mutex
      ({ mutex with isLocked := true, ownerThreadId := threadId, lockCount := 1 }, 0)

/-- The outcomes of `mutex_unlock`: it is refused, or undoes one of several locks, or the last
one. -/
inductive Releases (threadId : UInt32) (mutex : Mutex) : Mutex × Int → Prop
  | refused (howner : mutex.ownerThreadId ≠ threadId ∨ mutex.isLocked = false) :
    Releases threadId mutex (mutex, -1)
  | inner (howner : mutex.ownerThreadId = threadId) (hcount : mutex.lockCount - 1 ≠ 0) :
    Releases threadId mutex ({ mutex with lockCount := mutex.lockCount - 1 }, 0)
  | last (howner : mutex.ownerThreadId = threadId) (hlocked : mutex.isLocked = true)
      (hcount : mutex.lockCount - 1 = 0) :
    Releases threadId mutex ({ mutex with
      lockCount := mutex.lockCount - 1
      isLocked := false
      ownerThreadId := 0
      waitingThreads := mutex.waitingThreads.tail }, 0)

theorem acquires_lock (mutex : Mutex) (threadId : UInt32) :
    Acquires threadId mutex (mutex.lock threadId) := by
  unfold Mutex.lock
  split_ifs with howner hlocked
  · exact .again howner
  · exact .refused _ howner hlocked
  · exact .taken howner (Bool.not_eq_true _ ▸ hlocked)

theorem acquires_trylock (mutex : Mutex) (threadId : UInt32) :
    Acquires threadId mutex (mutex.trylock threadId) := by
  unfold Mutex.trylock
  split_ifs with hrefused howner
  · exact .refused mutex.waitingThreads hrefused.2 hrefused.1
  · exact .again howner
  · refine .taken howner ?_
    rw [← Bool.not_eq_true]
    exact fun hlocked ↦ hrefused ⟨hlocked, howner⟩

theorem releases_unlock (mutex : Mutex) (threadId : UInt32) :
    Releases threadId mutex (mutex.unlock threadId) := by
  unfold Mutex.unlock
  split_ifs with hrefused hcount
  · exact .refused hrefused
  · obtain ⟨howner, hlocked⟩ := not_or.mp hrefused
    exact .last (not_not.mp howner) (Bool.not_eq_false _ ▸ hlocked) hcount
  · exact .inner (not_not.mp (not_or.mp hrefused).1) hcount

/-! ### Calls that are counted -/

/-- The owner of a mutex, if there is such a mutex. -/
def ThreadManager.owner (manager : ThreadManager) (mutexId : UInt32) : Option UInt32 :=
  (rowOf manager.mutexes mutexId).map Mutex.ownerThreadId

/-- 1 for a call of `mutex_lock` or `mutex_trylock` by the thread on the mutex that succeeds. -/
def acquired (mutexId threadId : UInt32) (manager : ThreadManager) (call : ThreadCall) : ℕ :=
  if (call = .mutexLock mutexId threadId ∨ call = .mutexTrylock mutexId threadId) ∧
    (perform manager call).2 = 0 then 1 else 0

/-- 1 for a call of `mutex_unlock` by the thread on the mutex that succeeds. -/
def released (mutexId threadId : UInt32) (manager : ThreadManager) (call : ThreadCall) : ℕ :=
  if call = .mutexUnlock mutexId threadId ∧ (perform manager call).2 = 0 then 1 else 0

/-- The thread does not wrap the count of the mutex when it gets it again. -/
def NestsBelow (manager : ThreadManager) (mutexId threadId : UInt32) : Prop :=
  ∀ mutex, rowOf manager.mutexes mutexId = some mutex → mutex.ownerThreadId = threadId →
    mutex.lockCount.toNat + 1 < 2 ^ 32

instance (manager : ThreadManager) (mutexId threadId : UInt32) :
    Decidable (NestsBelow manager mutexId threadId) :=
  inferInstanceAs (Decidable (∀ mutex ∈ rowOf manager.mutexes mutexId,
    mutex.ownerThreadId = threadId → mutex.lockCount.toNat + 1 < 2 ^ 32))

/-- A call does not wrap a count. -/
def NestingKept (manager : ThreadManager) : ThreadCall → Prop
  | .mutexLock mutexId threadId => NestsBelow manager mutexId threadId
  | .mutexTrylock mutexId threadId => NestsBelow manager mutexId threadId
  | _ => True

/-- The calls considered: thread ids are not 0, and a count does not wrap. -/
def CallAllowed (manager : ThreadManager) (call : ThreadCall) : Prop :=
  call.ThreadNonzero ∧ NestingKept manager call

/-! ### The fields agree -/

/-- Assumes: the thread is not 0 and the count does not wrap. -/
theorem Acquires.consistent {outcome : Mutex × Int} (hacquires : Acquires threadId mutex outcome)
    (hthread : threadId ≠ 0)
    (hnests : mutex.ownerThreadId = threadId → mutex.lockCount.toNat + 1 < 2 ^ 32)
    (hconsistent : mutex.Consistent) : outcome.1.Consistent := by
  cases hacquires with
  | again howner =>
    refine ⟨hconsistent.locked, iff_of_true (howner ▸ hthread) ?_⟩
    rw [UInt32.lt_iff_toNat_lt, toNat_succ (hnests howner)]
    exact Nat.succ_pos _
  | refused waitingThreads howner hlocked => exact ⟨hconsistent.locked, hconsistent.counted⟩
  | taken howner hfree =>
    have hone : (0 : UInt32) < 1 := by decide
    exact ⟨iff_of_true rfl hthread, iff_of_true hthread hone⟩

/-- Assumes: the thread is not 0. -/
theorem Releases.consistent {outcome : Mutex × Int} (hreleases : Releases threadId mutex outcome)
    (hthread : threadId ≠ 0) (hconsistent : mutex.Consistent) : outcome.1.Consistent := by
  cases hreleases with
  | refused howner => exact hconsistent
  | inner howner hcount =>
    exact ⟨hconsistent.locked, iff_of_true (howner ▸ hthread) (UInt32.pos_iff_ne_zero.mpr hcount)⟩
  | last howner hlocked hcount =>
    refine ⟨by simp, iff_of_false (by simp) ?_⟩
    show ¬ 0 < mutex.lockCount - 1
    rw [hcount]
    decide

theorem Mutex.Consistent.destroy (hconsistent : mutex.Consistent) :
    mutex.destroy.1.Consistent := by
  unfold Mutex.destroy
  split_ifs
  · exact hconsistent
  · exact ⟨hconsistent.locked, hconsistent.counted⟩

/-- An allowed call keeps the fields of every mutex in agreement. -/
theorem consistent_step (hallowed : CallAllowed manager call)
    (hconsistent : ∀ mutex ∈ manager.mutexes, mutex.Consistent) :
    ∀ mutex ∈ (threadStep manager call).mutexes, mutex.Consistent := by
  cases call with
  | mutexCreate =>
    rw [threadStep, perform, mutexCreate]
    split_ifs
    · exact hconsistent
    · intro mutex hmutex
      rcases List.mem_append.mp hmutex with hold | hnew
      · exact hconsistent mutex hold
      · rw [List.mem_singleton.mp hnew]
        exact ⟨by simp, by simp⟩
  | mutexLock mutexId threadId =>
    apply (forall_mem_callOn_iff hconsistent).mpr
    intro mutex hmutex
    exact (acquires_lock mutex threadId).consistent hallowed.1 (hallowed.2 mutex hmutex)
      (hconsistent mutex (mem_of_rowOf hmutex))
  | mutexTrylock mutexId threadId =>
    apply (forall_mem_callOn_iff hconsistent).mpr
    intro mutex hmutex
    exact (acquires_trylock mutex threadId).consistent hallowed.1 (hallowed.2 mutex hmutex)
      (hconsistent mutex (mem_of_rowOf hmutex))
  | mutexUnlock mutexId threadId =>
    apply (forall_mem_callOn_iff hconsistent).mpr
    intro mutex hmutex
    exact (releases_unlock mutex threadId).consistent hallowed.1
      (hconsistent mutex (mem_of_rowOf hmutex))
  | mutexDestroy mutexId =>
    apply (forall_mem_callOn_iff hconsistent).mpr
    intro mutex hmutex
    exact (hconsistent mutex (mem_of_rowOf hmutex)).destroy
  | semaphoreCreate initialCount maxCount =>
    rw [threadStep, perform, semaphoreCreate]
    split_ifs
    · exact hconsistent
    · exact hconsistent
  | semaphoreWait semId threadId => exact hconsistent
  | semaphorePost semId => exact hconsistent
  | semaphoreDestroy semId => exact hconsistent

/-! ### The count of the owner -/

/-- Assumes: the count does not wrap. When a thread owns a mutex after a call that tries to get it,
it owned it before, and the count has grown by the call if it was its own and succeeded, or it did
not, and the count is that of the call. -/
theorem Acquires.count {outcome : Mutex × Int} {owner : UInt32}
    (hacquires : Acquires threadId mutex outcome)
    (hnests : mutex.ownerThreadId = threadId → mutex.lockCount.toNat + 1 < 2 ^ 32)
    (howns : outcome.1.ownerThreadId = owner) :
    (mutex.ownerThreadId = owner ∧ outcome.1.lockCount.toNat =
      mutex.lockCount.toNat + if threadId = owner ∧ outcome.2 = 0 then 1 else 0) ∨
    (mutex.ownerThreadId ≠ owner ∧
      outcome.1.lockCount.toNat = if threadId = owner ∧ outcome.2 = 0 then 1 else 0) := by
  cases hacquires with
  | again howner =>
    refine Or.inl ⟨howns, ?_⟩
    rw [if_pos ⟨howner.symm.trans howns, rfl⟩]
    exact toNat_succ (hnests howner)
  | refused waitingThreads howner hlocked =>
    refine Or.inl ⟨howns, ?_⟩
    rw [if_neg (fun hown ↦ howner (howns.trans hown.1.symm)), Nat.add_zero]
  | taken howner hfree =>
    have hthread : threadId = owner := howns
    refine Or.inr ⟨hthread ▸ howner, ?_⟩
    rw [if_pos ⟨hthread, rfl⟩]
    rfl

/-- Assumes: the fields of the mutex agree. When a thread other than 0 owns a mutex after
`mutex_unlock`, it owned it before, and the count has gone down by the call if it was its own and
succeeded. -/
theorem Releases.count {outcome : Mutex × Int} {owner : UInt32}
    (hreleases : Releases threadId mutex outcome) (hconsistent : mutex.Consistent)
    (howns : outcome.1.ownerThreadId = owner) (howner : owner ≠ 0) :
    mutex.ownerThreadId = owner ∧ outcome.1.lockCount.toNat +
      (if threadId = owner ∧ outcome.2 = 0 then 1 else 0) = mutex.lockCount.toNat := by
  cases hreleases with
  | refused hrefused =>
    refine ⟨howns, ?_⟩
    rw [if_neg (fun hown ↦ absurd hown.2 (by simp)), Nat.add_zero]
  | inner hthread hcount =>
    have hpositive : 0 < mutex.lockCount := hconsistent.counted.mp (howns ▸ howner)
    refine ⟨howns, ?_⟩
    rw [if_pos ⟨hthread.symm.trans howns, rfl⟩]
    show (mutex.lockCount - 1).toNat + 1 = _
    rw [UInt32.lt_iff_toNat_lt, UInt32.toNat_zero] at hpositive
    have hone : (1 : UInt32) ≤ mutex.lockCount := UInt32.le_iff_toNat_le.mpr hpositive
    rw [UInt32.toNat_sub_of_le _ _ hone, UInt32.toNat_one, Nat.sub_add_cancel hpositive]
  | last hthread hlocked hcount => exact absurd howns.symm howner

/-- The counts of a mutex before and after a call agree with what the owner after the call has
gained and given up by it: it was the owner already, or its count starts with the call. -/
def CountKept (mutexId owner : UInt32) (after : Mutex) (manager : ThreadManager)
    (call : ThreadCall) : Prop :=
  (∃ before, rowOf manager.mutexes mutexId = some before ∧ before.ownerThreadId = owner ∧
    after.lockCount.toNat + released mutexId owner manager call =
      before.lockCount.toNat + acquired mutexId owner manager call) ∨
  (manager.owner mutexId ≠ some owner ∧
    after.lockCount.toNat + released mutexId owner manager call =
      acquired mutexId owner manager call)

variable {mutexId owner : UInt32} {after : Mutex}

/-- A call that is not counted and leaves owner and count of the mutex. -/
theorem countKept_of_same {before : Mutex} (hbefore : rowOf manager.mutexes mutexId = some before)
    (howner : before.ownerThreadId = owner) (hcount : after.lockCount = before.lockCount)
    (hacquired : acquired mutexId owner manager call = 0)
    (hreleased : released mutexId owner manager call = 0) :
    CountKept mutexId owner after manager call := by
  refine Or.inl ⟨before, hbefore, howner, ?_⟩
  rw [hcount, hacquired, hreleased]

/-- A call that tries to get the mutex. -/
theorem countKept_of_acquires {act : Mutex → Mutex × Int}
    (hact : ∀ mutex, Acquires threadId mutex (act mutex))
    (hnests : NestsBelow manager mutexId threadId)
    (hacquired : acquired mutexId owner manager call =
      if threadId = owner ∧ (callOn manager.mutexes mutexId act).2 = 0 then 1 else 0)
    (hreleased : released mutexId owner manager call = 0)
    (hafter : rowOf (callOn manager.mutexes mutexId act).1 mutexId = some after)
    (howns : after.ownerThreadId = owner) : CountKept mutexId owner after manager call := by
  rw [rowOf_callOn_self, Option.map_eq_some_iff] at hafter
  obtain ⟨before, hbefore, rfl⟩ := hafter
  rw [callOn_of_some hbefore] at hacquired
  rw [CountKept, hacquired, hreleased, Nat.add_zero]
  rcases (hact before).count (hnests before hbefore) howns with ⟨howned, hcount⟩ | ⟨hnot, hcount⟩
  · exact Or.inl ⟨before, hbefore, howned, hcount⟩
  · refine Or.inr ⟨?_, hcount⟩
    rw [ThreadManager.owner, hbefore, Option.map_some]
    exact fun hsome ↦ hnot (Option.some.inj hsome)

/-- An allowed call keeps account of the owner of a mutex. -/
theorem countKept_step (hallowed : CallAllowed manager call)
    (hconsistent : ∀ mutex ∈ manager.mutexes, mutex.Consistent)
    (hafter : rowOf (threadStep manager call).mutexes mutexId = some after)
    (howns : after.ownerThreadId = owner) (howner : owner ≠ 0) :
    CountKept mutexId owner after manager call := by
  cases call with
  | mutexCreate =>
    have hkept : rowOf manager.mutexes mutexId = some after := by
      rw [threadStep, perform, mutexCreate] at hafter
      split_ifs at hafter
      · exact hafter
      · rcases rowOf_concat hafter with hold | ⟨-, hnew⟩
        · exact hold
        · rw [hnew] at howns
          exact absurd howns.symm howner
    exact countKept_of_same hkept howns rfl (by simp [acquired]) (by simp [released])
  | mutexLock id threadId =>
    by_cases hsame : mutexId = id
    · rw [hsame] at hafter ⊢
      exact countKept_of_acquires (fun mutex ↦ acquires_lock mutex threadId) hallowed.2
        (by simp [acquired, perform, mutexLock, onMutex]) (by simp [released]) hafter howns
    · have hkept := (rowOf_callOn_ne hsame).symm.trans hafter
      exact countKept_of_same hkept howns rfl (by simp [acquired, Ne.symm hsame])
        (by simp [released])
  | mutexTrylock id threadId =>
    by_cases hsame : mutexId = id
    · rw [hsame] at hafter ⊢
      exact countKept_of_acquires (fun mutex ↦ acquires_trylock mutex threadId) hallowed.2
        (by simp [acquired, perform, mutexTrylock, onMutex]) (by simp [released]) hafter howns
    · have hkept := (rowOf_callOn_ne hsame).symm.trans hafter
      exact countKept_of_same hkept howns rfl (by simp [acquired, Ne.symm hsame])
        (by simp [released])
  | mutexUnlock id threadId =>
    by_cases hsame : mutexId = id
    · rw [hsame] at hafter ⊢
      have hmutex := rowOf_callOn_self.symm.trans hafter
      obtain ⟨before, hbefore, rfl⟩ := Option.map_eq_some_iff.mp hmutex
      obtain ⟨howned, hcount⟩ := (releases_unlock before threadId).count
        (hconsistent before (mem_of_rowOf hbefore)) howns howner
      refine Or.inl ⟨before, hbefore, howned, ?_⟩
      rw [← hcount]
      simp [acquired, released, perform, mutexUnlock, onMutex, callOn_of_some hbefore]
    · have hkept := (rowOf_callOn_ne hsame).symm.trans hafter
      exact countKept_of_same hkept howns rfl (by simp [acquired])
        (by simp [released, Ne.symm hsame])
  | mutexDestroy id =>
    by_cases hsame : mutexId = id
    · rw [hsame] at hafter ⊢
      have hmutex := rowOf_callOn_self.symm.trans hafter
      obtain ⟨before, hbefore, rfl⟩ := Option.map_eq_some_iff.mp hmutex
      have hkept : before.destroy.1.ownerThreadId = before.ownerThreadId ∧
          before.destroy.1.lockCount = before.lockCount := by
        unfold Mutex.destroy
        split_ifs
        · exact ⟨rfl, rfl⟩
        · exact ⟨rfl, rfl⟩
      exact countKept_of_same hbefore (hkept.1.symm.trans howns) hkept.2 (by simp [acquired])
        (by simp [released])
    · have hkept := (rowOf_callOn_ne hsame).symm.trans hafter
      exact countKept_of_same hkept howns rfl (by simp [acquired]) (by simp [released])
  | semaphoreCreate initialCount maxCount =>
    have hkept : rowOf manager.mutexes mutexId = some after := by
      rw [threadStep, perform, semaphoreCreate] at hafter
      split_ifs at hafter
      · exact hafter
      · exact hafter
    exact countKept_of_same hkept howns rfl (by simp [acquired]) (by simp [released])
  | semaphoreWait semId threadId =>
    exact countKept_of_same hafter howns rfl (by simp [acquired]) (by simp [released])
  | semaphorePost semId =>
    exact countKept_of_same hafter howns rfl (by simp [acquired]) (by simp [released])
  | semaphoreDestroy semId =>
    exact countKept_of_same hafter howns rfl (by simp [acquired]) (by simp [released])

/-! ### Runs -/

/-- The run divides into calls after which the thread does not own the mutex and a rest during which
it owns it after every call. In the rest, it has succeeded to get the mutex `count` times more often
than to unlock it. -/
def HeldSince (mutexId owner : UInt32) (calls : List ThreadCall) (count : ℕ) : Prop :=
  ∃ earlier since, calls = earlier ++ since ∧
    (runFrom threadStep threadInit earlier).owner mutexId ≠ some owner ∧
    (∀ taken, taken <+: since → taken ≠ [] →
      (runFrom threadStep threadInit (earlier ++ taken)).owner mutexId = some owner) ∧
    count +
        tally threadStep (released mutexId owner) (runFrom threadStep threadInit earlier) since =
      tally threadStep (acquired mutexId owner) (runFrom threadStep threadInit earlier) since

/-- A thread does not get a mutex that another thread owns. -/
def NoIntrusion (manager : ThreadManager) (call : ThreadCall) : Prop :=
  ∀ mutexId threadId mutex,
    call = .mutexLock mutexId threadId ∨ call = .mutexTrylock mutexId threadId →
      rowOf manager.mutexes mutexId = some mutex → mutex.ownerThreadId ≠ 0 →
        mutex.ownerThreadId ≠ threadId → (perform manager call).2 ≠ 0

/-- A call that tries to get a mutex that another thread owns is refused. -/
theorem Acquires.refused_of_owned {outcome : Mutex × Int}
    (hacquires : Acquires threadId mutex outcome) (hconsistent : mutex.Consistent)
    (howned : mutex.ownerThreadId ≠ 0) (hother : mutex.ownerThreadId ≠ threadId) :
    outcome.2 ≠ 0 := by
  cases hacquires with
  | again howner => exact absurd howner hother
  | refused waitingThreads howner hlocked => simp
  | taken howner hfree =>
    rw [hconsistent.locked.mpr howned] at hfree
    cases hfree

theorem noIntrusion_of_consistent (hconsistent : ∀ mutex ∈ manager.mutexes, mutex.Consistent) :
    NoIntrusion manager call := by
  rintro mutexId threadId mutex (rfl | rfl) hmutex howned hother
  · simp only [perform, mutexLock, onMutex, callOn_of_some hmutex]
    exact (acquires_lock mutex threadId).refused_of_owned
      (hconsistent mutex (mem_of_rowOf hmutex)) howned hother
  · simp only [perform, mutexTrylock, onMutex, callOn_of_some hmutex]
    exact (acquires_trylock mutex threadId).refused_of_owned
      (hconsistent mutex (mem_of_rowOf hmutex)) howned hother

/-- In every run of allowed calls the fields of every mutex agree. -/
theorem consistent_alongRun {calls : List ThreadCall}
    (hallowed : EveryStep threadStep CallAllowed threadInit calls) :
    AlongRun threadStep (fun manager ↦ ∀ mutex ∈ manager.mutexes, mutex.Consistent) threadInit
      calls :=
  alongRun_invariant _ CallAllowed (fun _ _ hconsistent hcall ↦ consistent_step hcall hconsistent)
    (by simp [threadInit]) hallowed

/-- In every run of allowed calls the count of a mutex that is owned is the owner's, since it became
the owner. -/
theorem heldSince_of_allowed (calls : List ThreadCall)
    (hallowed : EveryStep threadStep CallAllowed threadInit calls)
    (hafter : rowOf (runFrom threadStep threadInit calls).mutexes mutexId = some after)
    (howns : after.ownerThreadId = owner) (howner : owner ≠ 0) :
    HeldSince mutexId owner calls after.lockCount.toNat := by
  -- from the last call backwards, as far as the owner stays the same
  induction calls using List.reverseRecOn generalizing after with
  | nil =>
    rw [runFrom_nil, rowOf_eq_some_iff] at hafter
    simp [threadInit] at hafter
  | append_singleton calls call ih =>
    obtain ⟨hbefore, hcall⟩ := everyStep_append.mp hallowed
    rw [runFrom_append] at hafter
    have hconsistent := consistent_alongRun hbefore calls (List.prefix_refl calls)
    have hkept := countKept_step (everyStep_cons.mp hcall).1 hconsistent hafter howns howner
    have hownsNow :
        (runFrom threadStep threadInit (calls ++ [call])).owner mutexId = some owner := by
      rw [runFrom_append, ThreadManager.owner, hafter, Option.map_some, howns]
    rcases hkept with ⟨before, hbeforeRow, howned, hcount⟩ | ⟨hnot, hcount⟩
    · obtain ⟨earlier, since, rfl, hstart, hheld, htally⟩ := ih hbefore hbeforeRow howned
      refine ⟨earlier, since ++ [call], (List.append_assoc _ _ _), hstart, ?_, ?_⟩
      · intro taken htaken hsome
        rcases List.prefix_concat_iff.mp htaken with rfl | hearlier
        · rw [← List.append_assoc]
          exact hownsNow
        · exact hheld taken hearlier hsome
      · rw [tally_concat, tally_concat, ← runFrom_append]
        omega
    · refine ⟨calls, [call], rfl, hnot, ?_, ?_⟩
      · intro taken htaken hsome
        rcases List.prefix_cons_iff.mp htaken with hnil | ⟨rest, rfl, hrest⟩
        · exact absurd hnil hsome
        · rw [List.prefix_nil.mp hrest]
          exact hownsNow
      · rw [tally, tally, tally, tally, Nat.add_zero, Nat.add_zero]
        exact hcount

/-- Assumes: thread ids are not 0 and no count wraps. In every state of every run, `is_locked`,
`owner_thread_id` and `lock_count` agree for every mutex; the count of a mutex that is owned is what
its owner has locked and not unlocked since it became the owner; and no thread gets a mutex that
another one owns. -/
theorem mutexExclusion (calls : List ThreadCall)
    (hallowed : EveryStep threadStep CallAllowed threadInit calls) :
    AlongRun threadStep (fun manager ↦ ∀ mutex ∈ manager.mutexes,
      (mutex.isLocked = true ↔ mutex.ownerThreadId ≠ 0) ∧
        (mutex.ownerThreadId ≠ 0 ↔ 0 < mutex.lockCount)) threadInit calls ∧
    (∀ taken, taken <+: calls → ∀ mutexId mutex,
      rowOf (runFrom threadStep threadInit taken).mutexes mutexId = some mutex →
        mutex.ownerThreadId ≠ 0 →
          HeldSince mutexId mutex.ownerThreadId taken mutex.lockCount.toNat) ∧
    EveryStep threadStep NoIntrusion threadInit calls := by
  have hconsistent := consistent_alongRun hallowed
  refine ⟨?_, ?_, ?_⟩
  · exact hconsistent.imp fun _ hall mutex hmutex ↦
      ⟨(hall mutex hmutex).locked, (hall mutex hmutex).counted⟩
  · intro taken htaken mutexId mutex hmutex howned
    exact heldSince_of_allowed taken (hallowed.of_prefix htaken) hmutex rfl howned
  · intro taken call htaken
    exact noIntrusion_of_consistent
      (hconsistent taken ((List.prefix_append taken [call]).trans htaken))

/-- Thread 7 locks a mutex twice, thread 8 is refused and put on the list, and thread 7 unlocks
once: it still holds the mutex, with the count 1. -/
theorem mutexExclusion_nested :
    (runFrom threadStep threadInit [.mutexCreate, .mutexLock 1 7, .mutexTrylock 1 7,
      .mutexLock 1 8, .mutexUnlock 1 7]).mutexes = [⟨1, 7, true, 1, [8]⟩] ∧
    HeldSince 1 7 [.mutexCreate, .mutexLock 1 7, .mutexTrylock 1 7, .mutexLock 1 8,
      .mutexUnlock 1 7] 1 := by
  refine ⟨by decide, (mutexExclusion _ ?_).2.1 _ (List.prefix_refl _) 1 ⟨1, 7, true, 1, [8]⟩
    (by decide) (by decide)⟩
  simp only [everyStep_cons, everyStep_nil, and_true, CallAllowed, ThreadCall.ThreadNonzero,
    NestingKept]
  decide

end OneOS.Threads
