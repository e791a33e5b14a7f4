import Mathlib.Algebra.GroupWithZero.Nat
import OneOS.Foundation.ExchangeSort
import OneOS.Foundation.Runs
import OneOS.IoScheduling.IoScheduler

/-!
# The queues of the I/O scheduler as arrays

`io-filesystem/io_scheduler.c` once more, with all queues, whole requests and the numbers as wide as
they are, and with every access to the array of queues and to the array of requests of a queue
checked: a program that leaves an array has failed (`none`). Submission goes to queue 0, all other
functions to any queue.

The bounds of the loops that sort are `request_count - 1` and `request_count - i - 1` of 32-bit
numbers, which wrap around for an empty queue.

Left out are the checks of pointers, the id of the scheduler, its averages, which are never
computed, and the metrics. A pointer to a request is its queue and its slot there.
-/

set_option autoImplicit false
set_option relaxedAutoImplicit false

namespace OneOS.IoScheduling.QueueArrays

open Foundation

/-! ### Queues -/

instance : NeZero maxIoQueues := ⟨by decide⟩

instance : NeZero queueSlots := ⟨by decide⟩

/-- `IORequest`. The buffer is missing where the pointer to it is NULL. -/
structure IORequest where
  requestId : UInt32
  operation : IOOperationType
  diskSector : UInt64
  sectorCount : UInt32
  dataBuffer : Option ℕ
  status : IORequestStatus
  submissionTime : UInt64
  startTime : UInt64
  completionTime : UInt64
  priority : UInt32
  isQueued : Bool
  deriving DecidableEq, Repr

/-- A request that is all 0. -/
def zeroRequest : IORequest where
  requestId := 0
  operation := .read
  diskSector := 0
  sectorCount := 0
  dataBuffer := none
  status := .pending
  submissionTime := 0
  startTime := 0
  completionTime := 0
  priority := 0
  isQueued := false

/-- The array of requests of a queue. -/
abbrev Requests := Fin queueSlots → IORequest

/-- `IOQueue`. -/
structure IOQueue where
  queueId : UInt32
  requestCount : UInt32
  requests : Requests
  frontIndex : UInt32
  rearIndex : UInt32
  totalOperations : UInt64
  totalSectorsRead : UInt64
  totalSectorsWritten : UInt64
  totalIoTimeMs : UInt64

/-- `IOScheduler`, with the counter that numbers requests. -/
structure IOScheduler where
  algorithm : IOSchedulingAlgorithm
  queueCount : UInt32
  queues : Fin maxIoQueues → IOQueue
  totalRequests : UInt64
  totalReadOperations : UInt64
  totalWriteOperations : UInt64
  nextRequestId : UInt32

/-- A pointer to a request. -/
abbrev RequestPtr := ℕ × ℕ

/-- `io_scheduler_init`. The counter is shared by all schedulers of a process and keeps its
value. -/
def ioSchedulerInit (algorithm : IOSchedulingAlgorithm) (queueCount nextRequestId : UInt32) :
    IOScheduler where
  algorithm := algorithm
  queueCount := if maxIoQueues < queueCount.toNat then maxIoQueues.toUInt32 else queueCount
  queues := fun i ↦
    { queueId := if i.val < queueCount.toNat then i.val.toUInt32 else 0
      requestCount := 0
      requests := fun _ ↦ zeroRequest
      frontIndex := 0
      rearIndex := 0
      totalOperations := 0
      totalSectorsRead := 0
      totalSectorsWritten := 0
      totalIoTimeMs := 0 }
  totalRequests := 0
  totalReadOperations := 0
  totalWriteOperations := 0
  nextRequestId := nextRequestId

/-- Change the queue at an index. -/
def IOScheduler.onQueue (scheduler : IOScheduler) (i : ℕ) (change : IOQueue → Option IOQueue) :
    Option IOScheduler :=
  (rowAt scheduler.queues i).bind fun queue ↦ (change queue).bind fun queue ↦
    (putRow scheduler.queues i queue).map fun queues ↦ { scheduler with queues := queues }

/-! ### Submitting -/

/-- The request that `io_submit_request` leaves in the slot when there is no memory for its
buffer. -/
def unbufferedRequest (requestId : UInt32) (operation : IOOperationType) (sector : UInt64)
    (count : UInt32) : IORequest :=
  { zeroRequest with
    requestId := requestId
    operation := operation
    diskSector := sector
    sectorCount := count }

/-- The queue after a request has been submitted. -/
def IOQueue.submitted (queue : IOQueue) (requests : Requests) (operation : IOOperationType)
    (count : UInt32) : IOQueue :=
  { queue with
    requests := requests
    rearIndex := (queue.rearIndex + 1) % 1024
    requestCount := queue.requestCount + 1
    totalSectorsRead :=
      if operation = .read then queue.totalSectorsRead + count.toUInt64
      else queue.totalSectorsRead
    totalSectorsWritten :=
      if operation = .write then queue.totalSectorsWritten + count.toUInt64
      else queue.totalSectorsWritten }

/-- The totals of the scheduler after a request has been submitted. -/
def IOScheduler.submitted (scheduler : IOScheduler) (operation : IOOperationType) : IOScheduler :=
  { scheduler with
    totalRequests := scheduler.totalRequests + 1
    totalReadOperations :=
      if operation = .read then scheduler.totalReadOperations + 1
      else scheduler.totalReadOperations
    totalWriteOperations :=
      if operation = .write then scheduler.totalWriteOperations + 1
      else scheduler.totalWriteOperations }

/-- `io_submit_request`. -/
def ioSubmitRequest (scheduler : IOScheduler) (operation : IOOperationType) (sector : UInt64)
    (count : UInt32) (malloc : Option ℕ) : Option (IOScheduler × Option RequestPtr) :=
  if count = 0 then some (scheduler, none)
  else
    (rowAt scheduler.queues 0).bind fun queue ↦
      if 1024 ≤ queue.requestCount then some (scheduler, none)
      else
        let request := unbufferedRequest scheduler.nextRequestId operation sector count
        let numbered := { scheduler with nextRequestId := scheduler.nextRequestId + 1 }
        match malloc with
        | none =>
          (numbered.onQueue 0 fun queue ↦
            (putRow queue.requests queue.rearIndex.toNat request).map fun requests ↦
              { queue with requests := requests }).map fun scheduler ↦ (scheduler, none)
        | some buffer =>
          (numbered.onQueue 0 fun queue ↦
            (putRow queue.requests queue.rearIndex.toNat
              { request with dataBuffer := some buffer, isQueued := true }).map fun requests ↦
                queue.submitted requests operation count).map fun scheduler ↦
            (scheduler.submitted operation, some (0, queue.rearIndex.toNat))

/-! ### Looking for requests -/

/-- The loop over the requests of a queue that are counted, up to the first that passes a test. -/
def IOQueue.find (queue : IOQueue) (test : IORequest → Bool) : Option (Option ℕ) :=
  countedLoop
    (fun found j ↦
      match found with
      | some j => some (some j)
      | none => (rowAt queue.requests j).map fun request ↦ if test request then some j else none)
    queue.requestCount.toNat 0 none

/-- The loop over the queues that are counted and their requests, up to the first that passes a
test. -/
def IOScheduler.find (scheduler : IOScheduler) (test : IORequest → Bool) :
    Option (Option RequestPtr) :=
  countedLoop
    (fun found i ↦
      match found with
      | some pointer => some (some pointer)
      | none =>
        (rowAt scheduler.queues i).bind fun queue ↦
          (queue.find test).map fun slot ↦ slot.map fun j ↦ (i, j))
    scheduler.queueCount.toNat 0 none

/-- The test of the loop of `io_cancel_request`. -/
def IORequest.cancellable (requestId : UInt32) (request : IORequest) : Bool :=
  request.requestId = requestId && (request.status = .pending || request.status = .scheduled)

/-- `io_cancel_request`. -/
def ioCancelRequest (scheduler : IOScheduler) (requestId : UInt32) : Option (IOScheduler × Int) :=
  (scheduler.find (IORequest.cancellable requestId)).bind fun found ↦
    match found with
    | none => some (scheduler, -1)
    | some pointer =>
      (scheduler.onQueue pointer.1 fun queue ↦
        (putRow queue.requests pointer.2 zeroRequest).map fun requests ↦
          { queue with requests := requests, requestCount := queue.requestCount - 1 }).map
        fun scheduler ↦ (scheduler, 0)

/-- `io_complete_request`. The slot is cleared and stays counted. -/
def ioCompleteRequest (scheduler : IOScheduler) (requestId : UInt32) :
    Option (IOScheduler × Int) :=
  (scheduler.find fun request ↦ request.requestId = requestId).bind fun found ↦
    match found with
    | none => some (scheduler, -1)
    | some pointer =>
      (scheduler.onQueue pointer.1 fun queue ↦
        (rowAt queue.requests pointer.2).bind fun request ↦
          (putRow queue.requests pointer.2 zeroRequest).map fun requests ↦
            { queue with
              requests := requests
              totalIoTimeMs :=
                queue.totalIoTimeMs + (request.completionTime - request.submissionTime)
              totalOperations := queue.totalOperations + 1 }).map
        fun scheduler ↦ (scheduler, 0)

/-- `io_get_next_request`, returning the request that is handed out, or none for -1. -/
def ioGetNextRequest (scheduler : IOScheduler) (queueId : UInt32) :
    Option (IOScheduler × Option RequestPtr) :=
  if scheduler.queueCount ≤ queueId then some (scheduler, none)
  else
    (rowAt scheduler.queues queueId.toNat).bind fun queue ↦
      (queue.find fun request ↦ request.status = .pending).bind fun found ↦
        match found with
        | none => some (scheduler, none)
        | some j =>
          (scheduler.onQueue queueId.toNat fun queue ↦
            (rowAt queue.requests j).bind fun request ↦
              (putRow queue.requests j { request with status := .scheduled }).map fun requests ↦
                { queue with requests := requests }).map
            fun scheduler ↦ (scheduler, some (queueId.toNat, j))

/-- What `io_execute_request` leaves of a request. -/
def IORequest.executed (request : IORequest) : IORequest :=
  { request with
    startTime := 0
    completionTime :=
      if request.operation = .read ∨ request.operation = .write ∨ request.operation = .flush then
        (request.sectorCount * 10).toUInt64
      else request.completionTime
    status := .completed }

/-- `io_execute_request`. -/
def ioExecuteRequest (scheduler : IOScheduler) (pointer : RequestPtr) : Option IOScheduler :=
  scheduler.onQueue pointer.1 fun queue ↦
    (rowAt queue.requests pointer.2).bind fun request ↦
      (putRow queue.requests pointer.2 request.executed).map fun requests ↦
        { queue with requests := requests }

/-! ### Sorting -/

/-- The loops of `io_elevator_sort` and of `io_deadline_sort`. -/
def sortRequests (outOfOrder : IORequest → IORequest → Bool) (requestCount : UInt32)
    (requests : Requests) : Option Requests :=
  exchangeSort outOfOrder (requestCount - 1).toNat
    (fun i ↦ (requestCount - i.toUInt32 - 1).toNat) requests

/-- A sort of the requests of a queue, which returns their number. -/
def IOScheduler.sort (scheduler : IOScheduler) (queueId : UInt32)
    (outOfOrder : IORequest → IORequest → Bool) : Option (IOScheduler × Int) :=
  if scheduler.queueCount ≤ queueId then some (scheduler, -1)
  else
    (rowAt scheduler.queues queueId.toNat).bind fun queue ↦
      (scheduler.onQueue queueId.toNat fun queue ↦
        (sortRequests outOfOrder queue.requestCount queue.requests).map fun requests ↦
          { queue with requests := requests }).map
        fun scheduler ↦ (scheduler, queue.requestCount.toInt32.toInt)

/-- `io_elevator_sort`. The position of the head is not read. -/
def ioElevatorSort (scheduler : IOScheduler) (queueId : UInt32) (_currentHeadPosition : UInt64) :
    Option (IOScheduler × Int) :=
  scheduler.sort queueId fun first second ↦ second.diskSector < first.diskSector

/-- `io_deadline_sort`. -/
def ioDeadlineSort (scheduler : IOScheduler) (queueId : UInt32) : Option (IOScheduler × Int) :=
  scheduler.sort queueId fun first second ↦ first.priority < second.priority

/-- `io_schedule_requests`. -/
def ioScheduleRequests (scheduler : IOScheduler) (queueId : UInt32) :
    Option (IOScheduler × Int) :=
  if scheduler.queueCount ≤ queueId then some (scheduler, -1)
  else
    match scheduler.algorithm with
    | .elevator => ioElevatorSort scheduler queueId 0
    | .deadline => ioDeadlineSort scheduler queueId
    | _ => some (scheduler, 0)

/-! ### Calls -/

/-- A call to the scheduler. -/
inductive IOCall
  | submitRequest (operation : IOOperationType) (sector : UInt64) (count : UInt32)
    (malloc : Option ℕ)
  | cancelRequest (requestId : UInt32)
  | scheduleRequests (queueId : UInt32)
  | elevatorSort (queueId : UInt32) (currentHeadPosition : UInt64)
  | deadlineSort (queueId : UInt32)
  | executeRequest (queue : Fin maxIoQueues) (slot : Fin queueSlots)
  | completeRequest (requestId : UInt32)
  | getNextRequest (queueId : UInt32)

/-- What a call does to the scheduler. -/
def ioCall (scheduler : IOScheduler) : IOCall → Option IOScheduler
  | .submitRequest operation sector count malloc =>
    (ioSubmitRequest scheduler operation sector count malloc).map Prod.fst
  | .cancelRequest requestId => (ioCancelRequest scheduler requestId).map Prod.fst
  | .scheduleRequests queueId => (ioScheduleRequests scheduler queueId).map Prod.fst
  | .elevatorSort queueId currentHeadPosition =>
    (ioElevatorSort scheduler queueId currentHeadPosition).map Prod.fst
  | .deadlineSort queueId => (ioDeadlineSort scheduler queueId).map Prod.fst
  | .executeRequest queue slot => ioExecuteRequest scheduler (queue.val, slot.val)
  | .completeRequest requestId => (ioCompleteRequest scheduler requestId).map Prod.fst
  | .getNextRequest queueId => (ioGetNextRequest scheduler queueId).map Prod.fst

/-- A step of the program, which has failed when there is no scheduler any more. -/
def ioStep (running : Option IOScheduler) (call : IOCall) : Option IOScheduler :=
  running.bind fun scheduler ↦ ioCall scheduler call

end OneOS.IoScheduling.QueueArrays
