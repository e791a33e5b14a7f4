import OneOS.Foundation.NumberedTable
import OneOS.Foundation.Runs

/-!
# Mutexes and semaphores of the thread manager

The mutexes and semaphores of `core-services/thread_manager.c`. The calls return at once: a thread
that does not get a mutex or a unit of a semaphore is put on its list of waiting threads and told
so. The table of threads is not read by any of these calls and is left out, and so is the check of
the pointer to the manager.

A mutex or a semaphore is found by its position, which is its id less one. Destroying it clears the
field with the id and leaves the position in use, so that the calls go on to work.
-/

set_option autoImplicit false
set_option relaxedAutoImplicit false

namespace OneOS.Threads

open Foundation

/-! ### One mutex -/

/-- `MAX_THREADS`, the room on a list of waiting threads. -/
def maxThreads : ℕ := 4096

/-- `MAX_MUTEXES`. -/
def maxMutexes : ℕ := 2048

/-- `MAX_SEMAPHORES`. -/
def maxSemaphores : ℕ := 2048

/-- `Mutex`, with the used part of `waiting_threads` as a list. -/
structure Mutex where
  mutexId : UInt32
  ownerThreadId : UInt32
  isLocked : Bool
  lockCount : UInt32
  waitingThreads : List UInt32
  deriving DecidableEq, Repr

/-- A thread joins a list of waiting threads if there is room. -/
def enqueueWaiting (waitingThreads : List UInt32) (threadId : UInt32) : List UInt32 :=
  if waitingThreads.length < maxThreads then waitingThreads ++ [threadId] else waitingThreads

/-- `mutex_lock` on one mutex. -/
def Mutex.lock (mutex : Mutex) (threadId : UInt32) : Mutex × Int :=
  if mutex.ownerThreadId = threadId then ({ mutex with lockCount := mutex.lockCount + 1 }, 0)
  else if mutex.isLocked = true then
    ({ mutex with waitingThreads := enqueueWaiting mutex.waitingThreads threadId }, -1)
  else ({ mutex with isLocked := true, ownerThreadId := threadId, lockCount := 1 }, 0)

/-- `mutex_unlock` on one mutex. With the last unlock the first waiting thread leaves the list. -/
def Mutex.unlock (mutex : Mutex) (threadId : UInt32) : Mutex × Int :=
  if mutex.ownerThreadId ≠ threadId ∨ mutex.isLocked = false then (mutex, -1)
  else if mutex.lockCount - 1 = 0 then
    ({ mutex with
      lockCount := mutex.lockCount - 1
      isLocked := false
      ownerThreadId := 0
      waitingThreads := mutex.waitingThreads.tail }, 0)
  else ({ mutex with lockCount := mutex.lockCount - 1 }, 0)

/-- `mutex_trylock` on one mutex. -/
def Mutex.trylock (mutex : Mutex) (threadId : UInt32) : Mutex × Int :=
  if mutex.isLocked = true ∧ mutex.ownerThreadId ≠ threadId then (mutex, -1)
  else if mutex.ownerThreadId = threadId then
    ({ mutex with lockCount := mutex.lockCount + 1 }, 0)
  else ({ mutex with isLocked := true, ownerThreadId := threadId, lockCount := 1 }, 0)

/-- `mutex_destroy` on one mutex. -/
def Mutex.destroy (mutex : Mutex) : Mutex × Int :=
  if mutex.isLocked = true ∨ 0 < mutex.waitingThreads.length then (mutex, -1)
  else ({ mutex with mutexId := 0 }, 0)

/-! ### One semaphore -/

/-- `Semaphore`, with the used part of `waiting_threads` as a list. -/
structure Semaphore where
  semaphoreId : UInt32
  count : UInt32
  maxCount : UInt32
  waitingThreads : List UInt32
  deriving DecidableEq, Repr

/-- `semaphore_wait` on one semaphore. -/
def Semaphore.wait (semaphore : Semaphore) (threadId : UInt32) : Semaphore × Int :=
  if 0 < semaphore.count then ({ semaphore with count := semaphore.count - 1 }, 0)
  else
    ({ semaphore with waitingThreads := enqueueWaiting semaphore.waitingThreads threadId }, -1)

/-- `semaphore_post` on one semaphore. The first waiting thread leaves the list. -/
def Semaphore.post (semaphore : Semaphore) : Semaphore × Int :=
  if semaphore.maxCount ≤ semaphore.count then (semaphore, -1)
  else
    ({ semaphore with
      count := semaphore.count + 1
      waitingThreads := semaphore.waitingThreads.tail }, 0)

/-- `semaphore_destroy` on one semaphore. -/
def Semaphore.destroy (semaphore : Semaphore) : Semaphore × Int :=
  if 0 < semaphore.waitingThreads.length then (semaphore, -1)
  else ({ semaphore with semaphoreId := 0 }, 0)

/-! ### The manager -/

/-- `ThreadManager`, with the used rows of the two tables as lists. -/
structure ThreadManager where
  mutexes : List Mutex
  semaphores : List Semaphore
  deriving DecidableEq, Repr

/-- `thread_init`. -/
def threadInit : ThreadManager where
  mutexes := []
  semaphores := []

/-- `mutex_create`. -/
def mutexCreate (manager : ThreadManager) : ThreadManager × Int :=
  if maxMutexes ≤ manager.mutexes.length then (manager, 0)
  else
    let mutex : Mutex := {
      mutexId := (manager.mutexes.length + 1).toUInt32
      ownerThreadId := 0
      isLocked := false
      lockCount := 0
      waitingThreads := [] }
    ({ manager with mutexes := manager.mutexes ++ [mutex] }, mutex.mutexId.toNat)

/-- A call on one mutex of the manager. -/
def onMutex (manager : ThreadManager) (mutexId : UInt32) (act : Mutex → Mutex × Int) :
    ThreadManager × Int :=
  let answer := callOn manager.mutexes mutexId act
  ({ manager with mutexes := answer.1 }, answer.2)

/-- `mutex_lock`. -/
def mutexLock (manager : ThreadManager) (mutexId threadId : UInt32) : ThreadManager × Int :=
  onMutex manager mutexId fun mutex ↦ mutex.lock threadId

/-- `mutex_unlock`. -/
def mutexUnlock (manager : ThreadManager) (mutexId threadId : UInt32) : ThreadManager × Int :=
  onMutex manager mutexId fun mutex ↦ mutex.unlock threadId

/-- `mutex_trylock`. -/
def mutexTrylock (manager : ThreadManager) (mutexId threadId : UInt32) : ThreadManager × Int :=
  onMutex manager mutexId fun mutex ↦ mutex.trylock threadId

/-- `mutex_destroy`. -/
def mutexDestroy (manager : ThreadManager) (mutexId : UInt32) : ThreadManager × Int :=
  onMutex manager mutexId Mutex.destroy

/-- `semaphore_create`. -/
def semaphoreCreate (manager : ThreadManager) (initialCount maxCount : UInt32) :
    ThreadManager × Int :=
  if maxSemaphores ≤ manager.semaphores.length then (manager, 0)
  else
    let semaphore : Semaphore := {
      semaphoreId := (manager.semaphores.length + 1).toUInt32
      count := initialCount
      maxCount := maxCount
      waitingThreads := [] }
    ({ manager with semaphores := manager.semaphores ++ [semaphore] },
      semaphore.semaphoreId.toNat)

/-- A call on one semaphore of the manager. -/
def onSemaphore (manager : ThreadManager) (semId : UInt32) (act : Semaphore → Semaphore × Int) :
    ThreadManager × Int :=
  let answer := callOn manager.semaphores semId act
  ({ manager with semaphores := answer.1 }, answer.2)

/-- `semaphore_wait`. -/
def semaphoreWait (manager : ThreadManager) (semId threadId : UInt32) : ThreadManager × Int :=
  onSemaphore manager semId fun semaphore ↦ semaphore.wait threadId

/-- `semaphore_post`. -/
def semaphorePost (manager : ThreadManager) (semId : UInt32) : ThreadManager × Int :=
  onSemaphore manager semId Semaphore.post

/-- `semaphore_destroy`. -/
def semaphoreDestroy (manager : ThreadManager) (semId : UInt32) : ThreadManager × Int :=
  onSemaphore manager semId Semaphore.destroy

/-! ### Calls -/

/-- A call on the manager, with the thread that makes it where the source has one. -/
inductive ThreadCall
  | mutexCreate
  | mutexLock (mutexId threadId : UInt32)
  | mutexTrylock (mutexId threadId : UInt32)
  | mutexUnlock (mutexId threadId : UInt32)
  | mutexDestroy (mutexId : UInt32)
  | semaphoreCreate (initialCount maxCount : UInt32)
  | semaphoreWait (semId threadId : UInt32)
  | semaphorePost (semId : UInt32)
  | semaphoreDestroy (semId : UInt32)
  deriving DecidableEq, Repr

/-- The manager after a call, and the answer. -/
def perform (manager : ThreadManager) : ThreadCall → ThreadManager × Int
  | .mutexCreate => mutexCreate manager
  | .mutexLock mutexId threadId => mutexLock manager mutexId threadId
  | .mutexTrylock mutexId threadId => mutexTrylock manager mutexId threadId
  | .mutexUnlock mutexId threadId => mutexUnlock manager mutexId threadId
  | .mutexDestroy mutexId => mutexDestroy manager mutexId
  | .semaphoreCreate initialCount maxCount => semaphoreCreate manager initialCount maxCount
  | .semaphoreWait semId threadId => semaphoreWait manager semId threadId
  | .semaphorePost semId => semaphorePost manager semId
  | .semaphoreDestroy semId => semaphoreDestroy manager semId

/-- The thread that makes a call, where the source has one, is not 0. -/
def ThreadCall.ThreadNonzero : ThreadCall → Prop
  | .mutexLock _ threadId => threadId ≠ 0
  | .mutexTrylock _ threadId => threadId ≠ 0
  | .mutexUnlock _ threadId => threadId ≠ 0
  | .semaphoreWait _ threadId => threadId ≠ 0
  | _ => True

/-- The manager after a call. -/
def threadStep (manager : ThreadManager) (call : ThreadCall) : ThreadManager :=
  (perform manager call).1

end OneOS.Threads
