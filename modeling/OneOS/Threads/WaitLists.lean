import Mathlib.Data.List.Nodup
import OneOS.Threads.ThreadManager

/-!
# Waiting threads

A thread on the list of a mutex or a semaphore waits for it. It should be there once, not while it
owns the mutex, and leave the list only by getting what it waits for (`Orderly`, `HandsOver`).

The thread manager takes a thread off a list without giving it anything: the last `mutex_unlock`
drops the first waiting thread and leaves the mutex free for whoever comes next, and
`semaphore_post` drops the first waiting thread and leaves the unit in `count`. Nor does a call look
at the list: a thread that tries again is put on it again, and one that finds the mutex free takes
it and stays on the list. `waitLists_iff` says that this is all: a run is as it should be exactly
when none of its calls is of this kind (`WaitersKept`).
-/

set_option autoImplicit false
set_option relaxedAutoImplicit false

namespace OneOS.Threads

open Foundation

/-! ### Orderly lists -/

/-- No thread is on the list twice, and the owner is not on it. -/
structure Mutex.Orderly (mutex : Mutex) : Prop where
  distinct : mutex.waitingThreads.Nodup
  owner : mutex.ownerThreadId ∉ mutex.waitingThreads

/-- The lists of all mutexes and semaphores are orderly. -/
structure ThreadManager.Orderly (manager : ThreadManager) : Prop where
  mutexes : ∀ mutex ∈ manager.mutexes, mutex.Orderly
  semaphores : ∀ semaphore ∈ manager.semaphores, semaphore.waitingThreads.Nodup

/-- A thread that leaves the list of a mutex becomes its owner. -/
def Mutex.HandsOver (before after : Mutex) : Prop :=
  ∀ threadId ∈ before.waitingThreads, threadId ∉ after.waitingThreads →
    after.ownerThreadId = threadId

/-- A thread that leaves the list of a semaphore gets the unit that is posted, which is then not
added to the count. -/
def Semaphore.HandsOver (before after : Semaphore) : Prop :=
  ∀ threadId ∈ before.waitingThreads, threadId ∉ after.waitingThreads →
    after.count = before.count

/-- Every thread that leaves a list gets what it waited for. -/
structure ThreadManager.HandsOver (before after : ThreadManager) : Prop where
  mutexes : ∀ mutexId mutex next, rowOf before.mutexes mutexId = some mutex →
    rowOf after.mutexes mutexId = some next → mutex.HandsOver next
  semaphores : ∀ semId semaphore next, rowOf before.semaphores semId = some semaphore →
    rowOf after.semaphores semId = some next → semaphore.HandsOver next

/-- The condition on a call: a thread that is put on a list, or takes a free mutex, is not on the
list, and nobody is waiting when a mutex becomes free or a unit is posted. -/
def WaitersKept (manager : ThreadManager) : ThreadCall → Prop
  | .mutexLock mutexId threadId => ∀ mutex, rowOf manager.mutexes mutexId = some mutex →
      mutex.ownerThreadId ≠ threadId →
        (mutex.isLocked = false ∨ mutex.waitingThreads.length < maxThreads) →
          threadId ∉ mutex.waitingThreads
  | .mutexTrylock mutexId threadId => ∀ mutex, rowOf manager.mutexes mutexId = some mutex →
      mutex.ownerThreadId ≠ threadId → mutex.isLocked = false → threadId ∉ mutex.waitingThreads
  | .mutexUnlock mutexId threadId => ∀ mutex, rowOf manager.mutexes mutexId = some mutex →
      mutex.ownerThreadId = threadId → mutex.isLocked = true → mutex.lockCount = 1 →
        mutex.waitingThreads = []
  | .semaphoreWait semId threadId => ∀ semaphore, rowOf manager.semaphores semId = some semaphore →
      semaphore.count = 0 → semaphore.waitingThreads.length < maxThreads →
        threadId ∉ semaphore.waitingThreads
  | .semaphorePost semId => ∀ semaphore, rowOf manager.semaphores semId = some semaphore →
      semaphore.count < semaphore.maxCount → semaphore.waitingThreads = []
  | _ => True

variable {manager : ThreadManager} {mutex : Mutex} {semaphore : Semaphore} {threadId : UInt32}

/-! ### One mutex -/

theorem Mutex.HandsOver.of_subset {next : Mutex}
    (hsubset : mutex.waitingThreads ⊆ next.waitingThreads) : mutex.HandsOver next :=
  fun _ hwaiting hleft ↦ absurd (hsubset hwaiting) hleft

theorem subset_enqueueWaiting (waitingThreads : List UInt32) (threadId : UInt32) :
    waitingThreads ⊆ enqueueWaiting waitingThreads threadId := by
  unfold enqueueWaiting
  split_ifs
  · exact List.subset_append_left _ _
  · exact List.Subset.refl _

/-- Assumes: no thread is on the list twice. The list is still so after a thread has joined exactly
when the thread is not on it, unless the list is full. -/
theorem nodup_enqueueWaiting_iff {waitingThreads : List UInt32} (threadId : UInt32)
    (hdistinct : waitingThreads.Nodup) :
    (enqueueWaiting waitingThreads threadId).Nodup ↔
      (waitingThreads.length < maxThreads → threadId ∉ waitingThreads) := by
  unfold enqueueWaiting
  split_ifs with hroom
  · have hjoined : (waitingThreads ++ [threadId]).Nodup ↔ threadId ∉ waitingThreads := by
      rw [List.nodup_append_comm, List.singleton_append, List.nodup_cons]
      exact and_iff_left hdistinct
    rw [hjoined]
    exact ⟨fun habsent _ ↦ habsent, fun habsent ↦ habsent hroom⟩
  · exact iff_of_true hdistinct fun hlength ↦ absurd hlength hroom

theorem mem_enqueueWaiting {waitingThreads : List UInt32} {other : UInt32}
    (hother : other ∈ enqueueWaiting waitingThreads threadId) :
    other ∈ waitingThreads ∨ other = threadId := by
  unfold enqueueWaiting at hother
  split_ifs at hother
  · rcases List.mem_append.mp hother with hold | hnew
    · exact Or.inl hold
    · exact Or.inr (List.mem_singleton.mp hnew)
  · exact Or.inl hother

/-- A call that leaves the list and the owner of a mutex does no harm. -/
theorem Mutex.Orderly.of_same {next : Mutex} (horderly : mutex.Orderly)
    (howner : next.ownerThreadId = mutex.ownerThreadId)
    (hwaiting : next.waitingThreads = mutex.waitingThreads) :
    next.Orderly ∧ mutex.HandsOver next := by
  refine ⟨⟨hwaiting ▸ horderly.distinct, ?_⟩, .of_subset (hwaiting ▸ List.Subset.refl _)⟩
  rw [howner, hwaiting]
  exact horderly.owner

/-- A thread takes a mutex without harm exactly when it is not on the list. -/
theorem Mutex.Orderly.taken_iff (horderly : mutex.Orderly) (threadId : UInt32) :
    ({ mutex with isLocked := true, ownerThreadId := threadId, lockCount := 1 } : Mutex).Orderly ∧
      mutex.HandsOver
        { mutex with isLocked := true, ownerThreadId := threadId, lockCount := 1 } ↔
    threadId ∉ mutex.waitingThreads := by
  constructor
  · rintro ⟨htaken, -⟩
    exact htaken.owner
  · intro habsent
    exact ⟨⟨horderly.distinct, habsent⟩, .of_subset (List.Subset.refl _)⟩

theorem Mutex.Orderly.lock_exact (horderly : mutex.Orderly) :
    (mutex.lock threadId).1.Orderly ∧ mutex.HandsOver (mutex.lock threadId).1 ↔
      (mutex.ownerThreadId ≠ threadId →
        (mutex.isLocked = false ∨ mutex.waitingThreads.length < maxThreads) →
          threadId ∉ mutex.waitingThreads) := by
  unfold Mutex.lock
  split_ifs with howner hlocked
  · exact iff_of_true (horderly.of_same rfl rfl) fun hother ↦ absurd howner hother
  · have hjoined := nodup_enqueueWaiting_iff threadId horderly.distinct
    constructor
    · rintro ⟨hafter, -⟩ - (hfree | hroom)
      · rw [hlocked] at hfree
        cases hfree
      · exact hjoined.mp hafter.distinct hroom
    · intro habsent
      refine ⟨⟨hjoined.mpr fun hroom ↦ habsent howner (Or.inr hroom), fun howned ↦ ?_⟩,
        .of_subset (subset_enqueueWaiting _ _)⟩
      rcases mem_enqueueWaiting howned with hold | hnew
      · exact horderly.owner hold
      · exact howner hnew
  · rw [horderly.taken_iff threadId]
    have hfree : mutex.isLocked = false := Bool.not_eq_true _ ▸ hlocked
    exact ⟨fun habsent _ _ ↦ habsent, fun habsent ↦ habsent howner (Or.inl hfree)⟩

theorem Mutex.Orderly.trylock_exact (horderly : mutex.Orderly) :
    (mutex.trylock threadId).1.Orderly ∧ mutex.HandsOver (mutex.trylock threadId).1 ↔
      (mutex.ownerThreadId ≠ threadId → mutex.isLocked = false →
        threadId ∉ mutex.waitingThreads) := by
  unfold Mutex.trylock
  split_ifs with hrefused howner
  · refine iff_of_true (horderly.of_same rfl rfl) fun _ hfree ↦ ?_
    rw [hrefused.1] at hfree
    cases hfree
  · exact iff_of_true (horderly.of_same rfl rfl) fun hother ↦ absurd howner hother
  · rw [horderly.taken_iff threadId]
    have hfree : mutex.isLocked = false := by
      rw [← Bool.not_eq_true]
      exact fun hlocked ↦ hrefused ⟨hlocked, howner⟩
    exact ⟨fun habsent _ _ ↦ habsent, fun habsent ↦ habsent howner hfree⟩

/-- Assumes: 0 is not on the list. -/
theorem Mutex.Orderly.unlock_exact (horderly : mutex.Orderly) (hzero : 0 ∉ mutex.waitingThreads) :
    (mutex.unlock threadId).1.Orderly ∧ mutex.HandsOver (mutex.unlock threadId).1 ↔
      (mutex.ownerThreadId = threadId → mutex.isLocked = true → mutex.lockCount = 1 →
        mutex.waitingThreads = []) := by
  have hlast : mutex.lockCount - 1 = 0 ↔ mutex.lockCount = 1 := by
    rw [UInt32.sub_eq_iff_eq_add, UInt32.zero_add]
  unfold Mutex.unlock
  split_ifs with hrefused hcount
  · refine iff_of_true (horderly.of_same rfl rfl) fun howner hlocked ↦ ?_
    rcases hrefused with hother | hfree
    · exact absurd howner hother
    · rw [hlocked] at hfree
      cases hfree
  · obtain ⟨howner, hlocked⟩ := not_or.mp hrefused
    have hfirst (first : UInt32) (rest : List UInt32)
        (hwaiting : mutex.waitingThreads = first :: rest) : first ∉ rest ∧ first ≠ 0 := by
      refine ⟨(List.nodup_cons.mp (hwaiting ▸ horderly.distinct)).1, fun hnone ↦ hzero ?_⟩
      rw [hwaiting, hnone]
      exact List.mem_cons_self
    constructor
    · rintro ⟨-, hhands⟩ - - -
      -- the first thread leaves the list, and the mutex has no owner
      cases hwaiting : mutex.waitingThreads with
      | nil => rfl
      | cons first rest =>
        obtain ⟨hleaves, hnonzero⟩ := hfirst first rest hwaiting
        have hwaits : first ∈ mutex.waitingThreads := hwaiting ▸ List.mem_cons_self
        have howns := hhands first hwaits (by simpa [hwaiting] using hleaves)
        exact absurd howns.symm hnonzero
    · intro hnobody
      have hempty := hnobody (not_not.mp howner) (Bool.not_eq_false _ ▸ hlocked) (hlast.mp hcount)
      refine ⟨⟨?_, ?_⟩, .of_subset ?_⟩
      · simp [hempty]
      · simp [hempty]
      · simp [hempty]
  · exact iff_of_true (horderly.of_same rfl rfl) fun _ _ hone ↦ absurd (hlast.mpr hone) hcount

theorem Mutex.Orderly.destroy (horderly : mutex.Orderly) :
    mutex.destroy.1.Orderly ∧ mutex.HandsOver mutex.destroy.1 := by
  unfold Mutex.destroy
  split_ifs
  · exact horderly.of_same rfl rfl
  · exact horderly.of_same rfl rfl

/-! ### One semaphore -/

theorem Semaphore.HandsOver.of_subset {next : Semaphore}
    (hsubset : semaphore.waitingThreads ⊆ next.waitingThreads) : semaphore.HandsOver next :=
  fun _ hwaiting hleft ↦ absurd (hsubset hwaiting) hleft

theorem Semaphore.wait_exact (hdistinct : semaphore.waitingThreads.Nodup) :
    (semaphore.wait threadId).1.waitingThreads.Nodup ∧
      semaphore.HandsOver (semaphore.wait threadId).1 ↔
        (semaphore.count = 0 → semaphore.waitingThreads.length < maxThreads →
          threadId ∉ semaphore.waitingThreads) := by
  unfold Semaphore.wait
  split_ifs with hcount
  · refine iff_of_true ⟨hdistinct, .of_subset (List.Subset.refl _)⟩ fun hnone ↦ ?_
    exact absurd hnone (UInt32.pos_iff_ne_zero.mp hcount)
  · have hnone : semaphore.count = 0 := by
      by_contra hsome
      exact hcount (UInt32.pos_iff_ne_zero.mpr hsome)
    have hhands : semaphore.HandsOver { semaphore with
        waitingThreads := enqueueWaiting semaphore.waitingThreads threadId } :=
      .of_subset (subset_enqueueWaiting _ _)
    rw [and_iff_left hhands, nodup_enqueueWaiting_iff threadId hdistinct]
    exact ⟨fun habsent _ ↦ habsent, fun habsent ↦ habsent hnone⟩

theorem Semaphore.post_exact (hdistinct : semaphore.waitingThreads.Nodup) :
    semaphore.post.1.waitingThreads.Nodup ∧ semaphore.HandsOver semaphore.post.1 ↔
      (semaphore.count < semaphore.maxCount → semaphore.waitingThreads = []) := by
  unfold Semaphore.post
  split_ifs with hfull
  · refine iff_of_true ⟨hdistinct, .of_subset (List.Subset.refl _)⟩ fun hroom ↦ ?_
    exact absurd hfull (UInt32.not_le.mpr hroom)
  · constructor
    · rintro ⟨-, hhands⟩ -
      cases hwaiting : semaphore.waitingThreads with
      | nil => rfl
      | cons first rest =>
        have hleaves := (List.nodup_cons.mp (hwaiting ▸ hdistinct)).1
        have hwaits : first ∈ semaphore.waitingThreads := hwaiting ▸ List.mem_cons_self
        have hunit := hhands first hwaits (by simpa [hwaiting] using hleaves)
        simp at hunit
    · intro hnobody
      have hempty := hnobody (UInt32.not_le.mp hfull)
      refine ⟨?_, .of_subset ?_⟩
      · simp [hempty]
      · simp [hempty]

theorem Semaphore.destroy_orderly (hdistinct : semaphore.waitingThreads.Nodup) :
    semaphore.destroy.1.waitingThreads.Nodup ∧ semaphore.HandsOver semaphore.destroy.1 := by
  unfold Semaphore.destroy
  split_ifs
  · exact ⟨hdistinct, .of_subset (List.Subset.refl _)⟩
  · exact ⟨hdistinct, .of_subset (List.Subset.refl _)⟩

/-! ### The manager -/

/-- A call on a mutex does no harm to the lists exactly when it does none to the list of that
mutex. -/
theorem onMutex_exact (horderly : manager.Orderly) (mutexId : UInt32)
    (act : Mutex → Mutex × Int) :
    (onMutex manager mutexId act).1.Orderly ∧ manager.HandsOver (onMutex manager mutexId act).1 ↔
      ∀ mutex, rowOf manager.mutexes mutexId = some mutex →
        (act mutex).1.Orderly ∧ mutex.HandsOver (act mutex).1 := by
  have hself : ∀ mutex : Mutex, mutex.HandsOver mutex := fun _ ↦ .of_subset (List.Subset.refl _)
  constructor
  · rintro ⟨hafter, hhands⟩ mutex hmutex
    exact ⟨(forall_mem_callOn_iff horderly.mutexes).mp hafter.mutexes mutex hmutex,
      (forall_rowOf_callOn_iff hself).mp hhands.mutexes mutex hmutex⟩
  · intro hcalled
    refine ⟨⟨?_, horderly.semaphores⟩, ⟨?_, fun semId semaphore next hbefore hafter ↦ ?_⟩⟩
    · exact (forall_mem_callOn_iff horderly.mutexes).mpr fun mutex hmutex ↦ (hcalled mutex hmutex).1
    · exact (forall_rowOf_callOn_iff hself).mpr fun mutex hmutex ↦ (hcalled mutex hmutex).2
    · obtain rfl := Option.some.inj (hbefore.symm.trans hafter)
      exact .of_subset (List.Subset.refl _)

/-- A call on a semaphore does no harm to the lists exactly when it does none to the list of that
semaphore. -/
theorem onSemaphore_exact (horderly : manager.Orderly) (semId : UInt32)
    (act : Semaphore → Semaphore × Int) :
    (onSemaphore manager semId act).1.Orderly ∧
        manager.HandsOver (onSemaphore manager semId act).1 ↔
      ∀ semaphore, rowOf manager.semaphores semId = some semaphore →
        (act semaphore).1.waitingThreads.Nodup ∧ semaphore.HandsOver (act semaphore).1 := by
  have hself : ∀ semaphore : Semaphore, semaphore.HandsOver semaphore :=
    fun _ ↦ .of_subset (List.Subset.refl _)
  constructor
  · rintro ⟨hafter, hhands⟩ semaphore hsemaphore
    exact ⟨(forall_mem_callOn_iff horderly.semaphores).mp hafter.semaphores semaphore hsemaphore,
      (forall_rowOf_callOn_iff hself).mp hhands.semaphores semaphore hsemaphore⟩
  · intro hcalled
    refine ⟨⟨horderly.mutexes, ?_⟩, ⟨fun mutexId mutex next hbefore hafter ↦ ?_, ?_⟩⟩
    · exact (forall_mem_callOn_iff horderly.semaphores).mpr fun semaphore hsemaphore ↦
        (hcalled semaphore hsemaphore).1
    · obtain rfl := Option.some.inj (hbefore.symm.trans hafter)
      exact .of_subset (List.Subset.refl _)
    · exact (forall_rowOf_callOn_iff hself).mpr fun semaphore hsemaphore ↦
        (hcalled semaphore hsemaphore).2

/-- Nobody leaves a list when all rows stay as they are. -/
theorem ThreadManager.HandsOver.of_rows {next : ThreadManager}
    (hmutexes : ∀ mutexId mutex, rowOf manager.mutexes mutexId = some mutex →
      rowOf next.mutexes mutexId = some mutex)
    (hsemaphores : ∀ semId semaphore, rowOf manager.semaphores semId = some semaphore →
      rowOf next.semaphores semId = some semaphore) : manager.HandsOver next := by
  constructor
  · intro mutexId mutex after hbefore hafter
    obtain rfl := Option.some.inj ((hmutexes mutexId mutex hbefore).symm.trans hafter)
    exact .of_subset (List.Subset.refl _)
  · intro semId semaphore after hbefore hafter
    obtain rfl := Option.some.inj ((hsemaphores semId semaphore hbefore).symm.trans hafter)
    exact .of_subset (List.Subset.refl _)

/-- Nobody waits for a new mutex. -/
theorem ThreadManager.Orderly.mutexCreate (horderly : manager.Orderly) :
    (mutexCreate manager).1.Orderly ∧ manager.HandsOver (mutexCreate manager).1 := by
  rw [Threads.mutexCreate]
  split_ifs
  · exact ⟨horderly, .of_rows (fun _ _ hrow ↦ hrow) fun _ _ hrow ↦ hrow⟩
  · refine ⟨⟨fun mutex hmutex ↦ ?_, horderly.semaphores⟩,
      .of_rows (fun _ _ hrow ↦ rowOf_concat_of_some hrow) fun _ _ hrow ↦ hrow⟩
    rcases List.mem_append.mp hmutex with hold | hnew
    · exact horderly.mutexes mutex hold
    · rw [List.mem_singleton.mp hnew]
      exact ⟨List.nodup_nil, List.not_mem_nil⟩

/-- Nobody waits for a new semaphore. -/
theorem ThreadManager.Orderly.semaphoreCreate (horderly : manager.Orderly)
    (initialCount maxCount : UInt32) :
    (semaphoreCreate manager initialCount maxCount).1.Orderly ∧
      manager.HandsOver (semaphoreCreate manager initialCount maxCount).1 := by
  rw [Threads.semaphoreCreate]
  split_ifs
  · exact ⟨horderly, .of_rows (fun _ _ hrow ↦ hrow) fun _ _ hrow ↦ hrow⟩
  · refine ⟨⟨horderly.mutexes, fun semaphore hsemaphore ↦ ?_⟩,
      .of_rows (fun _ _ hrow ↦ hrow) fun _ _ hrow ↦ rowOf_concat_of_some hrow⟩
    rcases List.mem_append.mp hsemaphore with hold | hnew
    · exact horderly.semaphores semaphore hold
    · rw [List.mem_singleton.mp hnew]
      exact List.nodup_nil

/-- 0 is on no list of a mutex. -/
def ZeroNotWaiting (manager : ThreadManager) : Prop :=
  ∀ mutex ∈ manager.mutexes, 0 ∉ mutex.waitingThreads

/-- 0 stays off the lists over a call on a mutex that does not put it on the list there. -/
theorem ZeroNotWaiting.onMutex (hzero : ZeroNotWaiting manager) (mutexId : UInt32)
    {act : Mutex → Mutex × Int}
    (hact : ∀ mutex, 0 ∉ mutex.waitingThreads → 0 ∉ (act mutex).1.waitingThreads) :
    ZeroNotWaiting (onMutex manager mutexId act).1 := by
  apply (forall_mem_callOn_iff hzero).mpr
  intro mutex hmutex
  exact hact mutex (hzero mutex (mem_of_rowOf hmutex))

/-- Assumes: the thread that makes the call is not 0. -/
theorem zeroNotWaiting_step {call : ThreadCall} (hthread : call.ThreadNonzero)
    (hzero : ZeroNotWaiting manager) : ZeroNotWaiting (threadStep manager call) := by
  cases call with
  | mutexCreate =>
    rw [threadStep, perform, mutexCreate]
    split_ifs
    · exact hzero
    · intro mutex hmutex
      rcases List.mem_append.mp hmutex with hold | hnew
      · exact hzero mutex hold
      · rw [List.mem_singleton.mp hnew]
        exact List.not_mem_nil
  | mutexLock mutexId threadId =>
    refine hzero.onMutex mutexId fun mutex hbefore ↦ ?_
    simp only [Mutex.lock]
    split_ifs
    · exact hbefore
    · intro hjoined
      rcases mem_enqueueWaiting hjoined with hold | hnew
      · exact hbefore hold
      · exact hthread hnew.symm
    · exact hbefore
  | mutexTrylock mutexId threadId =>
    refine hzero.onMutex mutexId fun mutex hbefore ↦ ?_
    simp only [Mutex.trylock]
    split_ifs
    · exact hbefore
    · exact hbefore
    · exact hbefore
  | mutexUnlock mutexId threadId =>
    refine hzero.onMutex mutexId fun mutex hbefore ↦ ?_
    simp only [Mutex.unlock]
    split_ifs
    · exact hbefore
    · exact fun hleft ↦ hbefore (List.mem_of_mem_tail hleft)
    · exact hbefore
  | mutexDestroy mutexId =>
    refine hzero.onMutex mutexId fun mutex hbefore ↦ ?_
    simp only [Mutex.destroy]
    split_ifs
    · exact hbefore
    · exact hbefore
  | semaphoreCreate initialCount maxCount =>
    rw [threadStep, perform, semaphoreCreate]
    split_ifs
    · exact hzero
    · exact hzero
  | semaphoreWait semId threadId => exact hzero
  | semaphorePost semId => exact hzero
  | semaphoreDestroy semId => exact hzero

/-- Assumes: 0 is on no list. A call from orderly lists leads to orderly lists, and hands over what
a thread that leaves a list waited for, exactly when it keeps the waiting threads. -/
theorem orderly_step_iff (hzero : ZeroNotWaiting manager) (horderly : manager.Orderly)
    (call : ThreadCall) :
    (threadStep manager call).Orderly ∧ manager.HandsOver (threadStep manager call) ↔
      WaitersKept manager call := by
  cases call with
  | mutexCreate => exact iff_of_true horderly.mutexCreate trivial
  | mutexLock mutexId threadId =>
    refine (onMutex_exact horderly mutexId _).trans (forall₂_congr fun mutex hmutex ↦ ?_)
    exact (horderly.mutexes mutex (mem_of_rowOf hmutex)).lock_exact
  | mutexTrylock mutexId threadId =>
    refine (onMutex_exact horderly mutexId _).trans (forall₂_congr fun mutex hmutex ↦ ?_)
    exact (horderly.mutexes mutex (mem_of_rowOf hmutex)).trylock_exact
  | mutexUnlock mutexId threadId =>
    refine (onMutex_exact horderly mutexId _).trans (forall₂_congr fun mutex hmutex ↦ ?_)
    have hmem := mem_of_rowOf hmutex
    exact (horderly.mutexes mutex hmem).unlock_exact (hzero mutex hmem)
  | mutexDestroy mutexId =>
    refine iff_of_true ((onMutex_exact horderly mutexId _).mpr fun mutex hmutex ↦ ?_) trivial
    exact (horderly.mutexes mutex (mem_of_rowOf hmutex)).destroy
  | semaphoreCreate initialCount maxCount =>
    exact iff_of_true (horderly.semaphoreCreate initialCount maxCount) trivial
  | semaphoreWait semId threadId =>
    refine (onSemaphore_exact horderly semId _).trans (forall₂_congr fun semaphore hsemaphore ↦ ?_)
    exact Semaphore.wait_exact (horderly.semaphores semaphore (mem_of_rowOf hsemaphore))
  | semaphorePost semId =>
    refine (onSemaphore_exact horderly semId _).trans (forall₂_congr fun semaphore hsemaphore ↦ ?_)
    exact Semaphore.post_exact (horderly.semaphores semaphore (mem_of_rowOf hsemaphore))
  | semaphoreDestroy semId =>
    refine iff_of_true
      ((onSemaphore_exact horderly semId _).mpr fun semaphore hsemaphore ↦ ?_) trivial
    exact Semaphore.destroy_orderly (horderly.semaphores semaphore (mem_of_rowOf hsemaphore))

/-! ### Runs -/

/-- Assumes: thread ids are not 0. In a run of calls no thread is on a list twice or on the list of
a mutex that it owns, and every thread that leaves a list gets the mutex or the unit it waited for,
exactly when every call keeps the waiting threads. -/
theorem waitLists_iff (calls : List ThreadCall) (hthreads : ∀ call ∈ calls, call.ThreadNonzero) :
    AlongRun threadStep ThreadManager.Orderly threadInit calls ∧
        EveryStep threadStep (fun manager call ↦ manager.HandsOver (threadStep manager call))
          threadInit calls ↔
      EveryStep threadStep WaitersKept threadInit calls := by
  refine alongRun_and_everyStep_iff ZeroNotWaiting (fun _ call ↦ call.ThreadNonzero)
    (fun _ _ hzero hthread ↦ zeroNotWaiting_step hthread hzero)
    (fun _ call hzero _ horderly ↦ orderly_step_iff hzero horderly call) ?_ ⟨?_, ?_⟩
    (everyStep_of_forall_mem hthreads)
  · simp [ZeroNotWaiting, threadInit]
  · simp [threadInit]
  · simp [threadInit]

/-- Thread 7 locks a mutex and thread 8 waits for it. -/
theorem waitLists_iff_waiting :
    (runFrom threadStep threadInit [.mutexCreate, .mutexLock 1 7, .mutexLock 1 8]).mutexes =
      [⟨1, 7, true, 1, [8]⟩] ∧
    AlongRun threadStep ThreadManager.Orderly threadInit
      [.mutexCreate, .mutexLock 1 7, .mutexLock 1 8] := by
  refine ⟨by decide, ((waitLists_iff [.mutexCreate, .mutexLock 1 7, .mutexLock 1 8] ?_).mpr ?_).1⟩
  · simp [ThreadCall.ThreadNonzero]
  · simp only [everyStep_cons, everyStep_nil, and_true]
    refine ⟨trivial, fun mutex hmutex _ _ ↦ ?_, fun mutex hmutex _ _ ↦ ?_⟩
    · obtain rfl : ⟨1, 0, false, 0, []⟩ = mutex := Option.some.inj hmutex
      decide
    · obtain rfl : ⟨1, 7, true, 1, []⟩ = mutex := Option.some.inj hmutex
      decide

/-- Thread 7 locks a mutex, thread 8 waits for it, and thread 7 unlocks it: thread 8 is no longer
waiting, and the mutex is free. -/
theorem waitLists_dropped :
    ¬ (AlongRun threadStep ThreadManager.Orderly threadInit
        [.mutexCreate, .mutexLock 1 7, .mutexLock 1 8, .mutexUnlock 1 7] ∧
      EveryStep threadStep (fun manager call ↦ manager.HandsOver (threadStep manager call))
        threadInit [.mutexCreate, .mutexLock 1 7, .mutexLock 1 8, .mutexUnlock 1 7]) := by
  rintro ⟨-, hhands⟩
  have hunlock := hhands [.mutexCreate, .mutexLock 1 7, .mutexLock 1 8] (.mutexUnlock 1 7)
    (List.prefix_refl _)
  have howns := hunlock.mutexes 1 ⟨1, 7, true, 1, [8]⟩ ⟨1, 0, false, 0, []⟩ (by decide) (by decide)
    8 (by decide) (by decide)
  revert howns
  decide

end OneOS.Threads
