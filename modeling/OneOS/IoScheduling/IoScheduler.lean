import OneOS.Foundation.Slots

/-!
# The I/O scheduler

`io-filesystem/io_scheduler.c`: requests are submitted to queue 0 at the slot `rear_index`, which
goes round, while they are looked for, sorted, handed out, cancelled and completed among the first
`request_count` slots. The other queues stay empty, so only queue 0 is modelled. Request ids are
natural numbers: that they do not wrap around is assumed throughout.

The loops that sort a queue run to `request_count - 1`, which wraps around for an empty queue: they
leave the array, and the program has failed (`none`).

Left out are the checks of pointers, buffers, times, `is_queued`, the totals and the metrics, which
no modelled function reads, and `io_execute_request`, which changes a request through a pointer.
-/

set_option autoImplicit false
set_option relaxedAutoImplicit false

namespace OneOS.IoScheduling

open Foundation

/-! ### Queues -/

/-- `MAX_IO_QUEUES`. -/
def maxIoQueues : ℕ := 32

/-- The number of slots of a queue. -/
def queueSlots : ℕ := 1024

/-- `IOOperationType`. -/
inductive IOOperationType
  | read
  | write
  | trim
  | flush
  | sync
  deriving DecidableEq, Repr

/-- `IORequestStatus`. -/
inductive IORequestStatus
  | pending
  | scheduled
  | executing
  | completed
  | failed
  deriving DecidableEq, Repr

/-- `IOSchedulingAlgorithm`. -/
inductive IOSchedulingAlgorithm
  | fifo
  | elevator
  | deadline
  | cfq
  | noop
  deriving DecidableEq, Repr

/-- `IORequest`. -/
structure IORequest where
  requestId : ℕ
  operation : IOOperationType
  diskSector : UInt64
  sectorCount : UInt32
  status : IORequestStatus
  priority : UInt32
  deriving DecidableEq, Repr

/-- The request that `memset` leaves. Its status, 0, is `PENDING`. -/
def clearedRequest : IORequest where
  requestId := 0
  operation := .read
  diskSector := 0
  sectorCount := 0
  status := .pending
  priority := 0

/-- `IOQueue`. -/
structure IOQueue where
  requestCount : ℕ
  requests : ℕ → IORequest
  rearIndex : ℕ

/-- `IOScheduler`, with its queue 0 and the counter that numbers requests. -/
structure IOScheduler where
  algorithm : IOSchedulingAlgorithm
  queueCount : ℕ
  queue : IOQueue
  nextRequestId : ℕ

/-- `io_scheduler_init`. The counter is shared by all schedulers of a process and keeps its value;
it starts at 1. -/
def ioSchedulerInit (algorithm : IOSchedulingAlgorithm) (queueCount : UInt32)
    (earlierRequests : ℕ) : IOScheduler where
  algorithm := algorithm
  queueCount := min queueCount.toNat maxIoQueues
  queue := { requestCount := 0, requests := fun _ ↦ clearedRequest, rearIndex := 0 }
  nextRequestId := earlierRequests + 1

/-! ### Requests -/

/-- The request that `io_submit_request` writes. -/
def IOScheduler.newRequest (scheduler : IOScheduler) (operation : IOOperationType)
    (sector : UInt64) (count : UInt32) : IORequest where
  requestId := scheduler.nextRequestId
  operation := operation
  diskSector := sector
  sectorCount := count
  status := .pending
  priority := 0

/-- `io_submit_request`, returning the id of the request, or none for `NULL`. When `malloc` fails
the slot has been written and the id is used up. -/
def ioSubmitRequest (scheduler : IOScheduler) (operation : IOOperationType) (sector : UInt64)
    (count : UInt32) (malloc : Bool) : IOScheduler × Option ℕ :=
  if count = 0 ∨ queueSlots ≤ scheduler.queue.requestCount then (scheduler, none)
  else
    let requests := Function.update scheduler.queue.requests scheduler.queue.rearIndex
      (scheduler.newRequest operation sector count)
    if malloc then
      ({ scheduler with
        queue :=
          { requestCount := scheduler.queue.requestCount + 1
            requests := requests
            rearIndex := (scheduler.queue.rearIndex + 1) % queueSlots }
        nextRequestId := scheduler.nextRequestId + 1 }, some scheduler.nextRequestId)
    else
      ({ scheduler with
        queue := { scheduler.queue with requests := requests }
        nextRequestId := scheduler.nextRequestId + 1 }, none)

/-- The first slot among those that are counted whose request passes a test. The other queues are
empty; without a queue there is none to look through. -/
def IOScheduler.slotOf (scheduler : IOScheduler) (test : IORequest → Bool) : Option ℕ :=
  if scheduler.queueCount = 0 then none
  else firstSlot test scheduler.queue.requestCount scheduler.queue.requests

/-- The queue after a request is put into a slot. -/
def IOQueue.put (queue : IOQueue) (slot : ℕ) (request : IORequest) : IOQueue :=
  { queue with requests := Function.update queue.requests slot request }

/-- The test of the loop of `io_cancel_request`. -/
def IORequest.cancellable (requestId : ℕ) (request : IORequest) : Bool :=
  request.requestId = requestId && (request.status = .pending || request.status = .scheduled)

/-- `io_cancel_request`: the slot is cleared, and one slot less is counted. -/
def ioCancelRequest (scheduler : IOScheduler) (requestId : ℕ) : IOScheduler × Int :=
  match scheduler.slotOf (IORequest.cancellable requestId) with
  | none => (scheduler, -1)
  | some slot =>
    let cleared := scheduler.queue.put slot clearedRequest
    ({ scheduler with queue := { cleared with requestCount := cleared.requestCount - 1 } }, 0)

/-- The test of the loop of `io_complete_request`. -/
def IORequest.hasId (requestId : ℕ) (request : IORequest) : Bool :=
  request.requestId = requestId

/-- `io_complete_request`: the slot is cleared and stays counted. -/
def ioCompleteRequest (scheduler : IOScheduler) (requestId : ℕ) : IOScheduler × Int :=
  match scheduler.slotOf (IORequest.hasId requestId) with
  | none => (scheduler, -1)
  | some slot => ({ scheduler with queue := scheduler.queue.put slot clearedRequest }, 0)

/-! ### Scheduling -/

/-- A sort of a queue, of which only queue 0 can hold requests. -/
def IOScheduler.sort (scheduler : IOScheduler) (queueId : ℕ)
    (outOfOrder : IORequest → IORequest → Bool) : Option IOScheduler :=
  if queueId ≠ 0 ∨ scheduler.queue.requestCount = 0 then none
  else
    some { scheduler with
      queue := { scheduler.queue with
        requests := bubbleSort outOfOrder scheduler.queue.requestCount scheduler.queue.requests } }

/-- `io_elevator_sort`. The position of the head is an argument that is not read. -/
def ioElevatorSort (scheduler : IOScheduler) (queueId : ℕ) : Option IOScheduler :=
  scheduler.sort queueId fun first second ↦ second.diskSector < first.diskSector

/-- `io_deadline_sort`. -/
def ioDeadlineSort (scheduler : IOScheduler) (queueId : ℕ) : Option IOScheduler :=
  scheduler.sort queueId fun first second ↦ first.priority < second.priority

/-- `io_schedule_requests`. -/
def ioScheduleRequests (scheduler : IOScheduler) (queueId : ℕ) : Option IOScheduler :=
  if scheduler.queueCount ≤ queueId then some scheduler
  else
    match scheduler.algorithm with
    | .elevator => ioElevatorSort scheduler queueId
    | .deadline => ioDeadlineSort scheduler queueId
    | _ => some scheduler

/-- The test of the loop of `io_get_next_request`. -/
def IORequest.isPending (request : IORequest) : Bool := request.status = .pending

/-- The request after it is handed out. -/
def IORequest.handOut (request : IORequest) : IORequest :=
  { request with status := .scheduled }

/-- `io_get_next_request`, returning the id of the request that is handed out, or none for -1. -/
def ioGetNextRequest (scheduler : IOScheduler) (queueId : ℕ) : IOScheduler × Option ℕ :=
  if scheduler.queueCount ≤ queueId ∨ queueId ≠ 0 then (scheduler, none)
  else
    match scheduler.slotOf IORequest.isPending with
    | none => (scheduler, none)
    | some slot =>
      let request := scheduler.queue.requests slot
      ({ scheduler with queue := scheduler.queue.put slot request.handOut },
        some request.requestId)

/-! ### Calls -/

/-- A call to the scheduler. -/
inductive IOCall
  | submitRequest (operation : IOOperationType) (sector : UInt64) (count : UInt32) (malloc : Bool)
  | cancelRequest (requestId : ℕ)
  | scheduleRequests (queueId : ℕ)
  | getNextRequest (queueId : ℕ)
  | completeRequest (requestId : ℕ)
  deriving DecidableEq, Repr

/-- What a call does to the scheduler. -/
def ioCall (scheduler : IOScheduler) : IOCall → Option IOScheduler
  | .submitRequest operation sector count malloc =>
    some (ioSubmitRequest scheduler operation sector count malloc).1
  | .cancelRequest requestId => some (ioCancelRequest scheduler requestId).1
  | .scheduleRequests queueId => ioScheduleRequests scheduler queueId
  | .getNextRequest queueId => some (ioGetNextRequest scheduler queueId).1
  | .completeRequest requestId => some (ioCompleteRequest scheduler requestId).1

/-- A step of the program, which has failed when there is no scheduler any more. -/
def ioStep (running : Option IOScheduler) (call : IOCall) : Option IOScheduler :=
  running.bind fun scheduler ↦ ioCall scheduler call

end OneOS.IoScheduling
