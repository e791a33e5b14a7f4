import OneOS.Foundation.Counters
import OneOS.Foundation.Runs
import OneOS.Foundation.Table

/-!
# Asynchronous operations

`async-io-multiplexing/async_io_manager.c`: an array of operations that only grows, and the counts
of those that are queued, in progress and completed. `async_poll_completions` goes through the array
and completes what is queued, up to a number of completions, calling the callback of each operation
as it is completed.

`operationsAccounted` says what this comes to over every run: the counts are right, operations
complete in the order in which they were submitted, a callback is called once when its operation
completes and never otherwise, and an operation that was completed or cancelled stays as it is.

A callback and its data are given by their addresses, of which 0 is `NULL`. Callbacks do not call
the manager, and `malloc` succeeds. Left out are the checks of pointers, the type, the file
descriptor, the offset and the buffer of an operation, times, and the table of handlers, which no
modelled function reads.
-/

set_option autoImplicit false
set_option relaxedAutoImplicit false

namespace OneOS.Multiplexing

open Foundation

/-! ### Operations -/

/-- `MAX_ASYNC_OPERATIONS`. -/
def maxAsyncOperations : ℕ := 16384

/-- `AsyncOpState`. -/
inductive AsyncOpState
  | queued
  | inProgress
  | completed
  | failed
  | cancelled
  deriving DecidableEq, Repr

/-- `AsyncOperation`. -/
structure AsyncOperation where
  asyncOpId : UInt32
  state : AsyncOpState
  length : UInt32
  callback : ℕ
  userData : ℕ
  result : Int32
  bytesTransferred : UInt32
  deriving DecidableEq, Repr

/-- The counts of operations that `AsyncIOManager` keeps. -/
structure AsyncCounts where
  queuedOps : UInt32
  inProgressOps : UInt32
  completedOps : UInt32
  deriving DecidableEq, Repr

/-- `AsyncIOManager`, with the used rows of its array as a list, and the counter that numbers
operations. -/
structure AsyncIoManager extends AsyncCounts where
  operations : List AsyncOperation
  nextAsyncOpId : UInt32
  deriving DecidableEq, Repr

/-- `async_io_init`. The counter is shared by all managers of a process and keeps its value. -/
def asyncIoInit (nextAsyncOpId : UInt32) : AsyncIoManager where
  queuedOps := 0
  inProgressOps := 0
  completedOps := 0
  operations := []
  nextAsyncOpId := nextAsyncOpId

/-- A call of a callback. -/
structure CallbackCall where
  callback : ℕ
  opId : UInt32
  state : AsyncOpState
  result : Int32
  userData : ℕ
  deriving DecidableEq, Repr

/-! ### Submitting and cancelling -/

/-- `async_submit_operation`, returning the id, or 0. -/
def asyncSubmitOperation (manager : AsyncIoManager) (fd : ℤ) (length : UInt32)
    (callback userData : ℕ) : AsyncIoManager × UInt32 :=
  if fd < 0 ∨ length = 0 then (manager, 0)
  else if maxAsyncOperations ≤ manager.operations.length then (manager, 0)
  else
    ({ manager with
      operations := manager.operations ++
        [{ asyncOpId := manager.nextAsyncOpId, state := .queued, length := length,
           callback := callback, userData := userData, result := 0, bytesTransferred := 0 }]
      queuedOps := manager.queuedOps + 1
      nextAsyncOpId := manager.nextAsyncOpId + 1 }, manager.nextAsyncOpId)

/-- The operations that `async_cancel_operation` cancels: it passes over an operation with the id
that is neither queued nor in progress. -/
def AsyncOperation.cancellable (opId : UInt32) (op : AsyncOperation) : Bool :=
  op.asyncOpId = opId ∧ (op.state = .queued ∨ op.state = .inProgress)

/-- `async_cancel_operation`. -/
def asyncCancelOperation (manager : AsyncIoManager) (opId : UInt32) : AsyncIoManager × Int :=
  if opId = 0 then (manager, -1)
  else
    match manager.operations.find? (AsyncOperation.cancellable opId) with
    | none => (manager, -1)
    | some op =>
      ({ manager with
        operations := updateFirst (AsyncOperation.cancellable opId) ({ · with state := .cancelled })
          manager.operations
        queuedOps := if op.state = .queued then manager.queuedOps - 1 else manager.queuedOps
        inProgressOps :=
          if op.state = .queued then manager.inProgressOps else manager.inProgressOps - 1 }, 0)

/-! ### Polling -/

/-- What `async_poll_completions` does first to an operation: a queued one is in progress. -/
def AsyncOperation.start (op : AsyncOperation) (counts : AsyncCounts) :
    AsyncOperation × AsyncCounts :=
  if op.state = .queued then
    ({ op with state := .inProgress },
      { counts with
        queuedOps := counts.queuedOps - 1
        inProgressOps := counts.inProgressOps + 1 })
  else (op, counts)

/-- The operation after it is completed. -/
def AsyncOperation.complete (op : AsyncOperation) : AsyncOperation :=
  { op with bytesTransferred := op.length, result := 0, state := .completed }

/-- The counts after an operation is completed. -/
def AsyncCounts.complete (counts : AsyncCounts) : AsyncCounts :=
  { counts with
    inProgressOps := counts.inProgressOps - 1
    completedOps := counts.completedOps + 1 }

/-- The loop of `async_poll_completions` over the operations, with the number of completions that
are left: the counts, the operations after it, and the operations that are completed. -/
def pollOperations : ℕ → AsyncCounts → List AsyncOperation →
    AsyncCounts × List AsyncOperation × List AsyncOperation
  | 0, counts, ops => (counts, ops, [])
  | _ + 1, counts, [] => (counts, [], [])
  | room + 1, counts, op :: ops =>
    let (started, startedCounts) := op.start counts
    if started.state = .inProgress then
      let (after, rest, done) := pollOperations room startedCounts.complete ops
      (after, started.complete :: rest, started.complete :: done)
    else
      let (after, rest, done) := pollOperations (room + 1) startedCounts ops
      (after, started :: rest, done)

/-- The call of the callback of an operation. -/
def AsyncOperation.callbackCall (op : AsyncOperation) : Option CallbackCall :=
  if op.callback = 0 then none
  else
    some { callback := op.callback, opId := op.asyncOpId, state := op.state, result := op.result,
           userData := op.userData }

/-- The operations that `async_poll_completions` completes, in order. -/
def completedBy (manager : AsyncIoManager) (maxCompletions : UInt32) : List AsyncOperation :=
  (pollOperations maxCompletions.toNat manager.toAsyncCounts manager.operations).2.2

/-- `async_poll_completions`, with the callbacks that are called. -/
def asyncPollCompletions (manager : AsyncIoManager) (maxCompletions : UInt32) :
    AsyncIoManager × Int × List CallbackCall :=
  if maxCompletions = 0 then (manager, -1, [])
  else
    let (counts, ops, done) :=
      pollOperations maxCompletions.toNat manager.toAsyncCounts manager.operations
    ({ manager with toAsyncCounts := counts, operations := ops }, done.length,
      done.filterMap AsyncOperation.callbackCall)

/-! ### Calls -/

/-- A call to the manager. -/
inductive AsyncCall
  | submit (fd : ℤ) (length : UInt32) (callback userData : ℕ)
  | cancel (opId : UInt32)
  | poll (maxCompletions : UInt32)
  deriving DecidableEq, Repr

/-- What a call does to the manager. -/
def asyncStep (manager : AsyncIoManager) : AsyncCall → AsyncIoManager
  | .submit fd length callback userData =>
    (asyncSubmitOperation manager fd length callback userData).1
  | .cancel opId => (asyncCancelOperation manager opId).1
  | .poll maxCompletions => (asyncPollCompletions manager maxCompletions).1

/-- What has happened over a run: the ids of the operations that were completed and the callbacks
that were called. -/
structure AsyncLog where
  completions : List UInt32
  callbacks : List CallbackCall
  deriving DecidableEq, Repr

/-- The record after a call. -/
def asyncLogAfter (manager : AsyncIoManager) (call : AsyncCall) (log : AsyncLog) : AsyncLog :=
  match call with
  | .poll maxCompletions =>
    { completions :=
        log.completions ++ (completedBy manager maxCompletions).map AsyncOperation.asyncOpId
      callbacks := log.callbacks ++ (asyncPollCompletions manager maxCompletions).2.2 }
  | _ => log

end OneOS.Multiplexing
