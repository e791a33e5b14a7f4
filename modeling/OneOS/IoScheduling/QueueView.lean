import OneOS.Foundation.ArraySlots
import OneOS.IoScheduling.ArrayBounds

/-!
# The scheduler seen through its first queue

The scheduler with its arrays (`QueueArrays`) refines the one with queue 0 only. What is seen of it
is queue 0, the fields that decide what happens, and numbers in place of machine words
(`IOScheduler.view`). While the counter of request ids does not wrap around, every call leaves what
the same call leaves of what is seen, a program that leaves an array included (`ioCall_view`), and
so does every run of a new scheduler (`ioRun_view`).
-/

set_option autoImplicit false
set_option relaxedAutoImplicit false

namespace OneOS.IoScheduling.QueueArrays

open Foundation

/-! ### What is seen -/

/-- What is seen of a request. -/
def IORequest.view (request : IORequest) : IoScheduling.IORequest where
  requestId := request.requestId.toNat
  operation := request.operation
  diskSector := request.diskSector
  sectorCount := request.sectorCount
  status := request.status
  priority := request.priority

/-- What is seen of an array of requests. -/
def seenRequests (requests : Requests) : ℕ → IoScheduling.IORequest :=
  slotsOf IORequest.view clearedRequest requests

/-- What is seen of a queue. -/
def IOQueue.view (queue : IOQueue) : IoScheduling.IOQueue where
  requestCount := queue.requestCount.toNat
  requests := seenRequests queue.requests
  rearIndex := queue.rearIndex.toNat

/-- What is seen of a scheduler. -/
def IOScheduler.view (scheduler : IOScheduler) : IoScheduling.IOScheduler where
  algorithm := scheduler.algorithm
  queueCount := scheduler.queueCount.toNat
  queue := (scheduler.queues 0).view
  nextRequestId := scheduler.nextRequestId.toNat

/-- The call as one to the scheduler that is seen, which has no direct calls of the sorts and does
not execute requests. -/
def IOCall.view : IOCall → Option IoScheduling.IOCall
  | .submitRequest operation sector count malloc =>
    some (.submitRequest operation sector count malloc.isSome)
  | .cancelRequest requestId => some (.cancelRequest requestId.toNat)
  | .scheduleRequests queueId => some (.scheduleRequests queueId.toNat)
  | .getNextRequest queueId => some (.getNextRequest queueId.toNat)
  | .completeRequest requestId => some (.completeRequest requestId.toNat)
  | .elevatorSort _ _ => none
  | .deadlineSort _ => none
  | .executeRequest _ _ => none

variable {scheduler : IOScheduler} {test : IORequest → Bool}
variable {seenTest : IoScheduling.IORequest → Bool}

theorem seenRequests_update (requests : Requests) (slot : Fin queueSlots) (request : IORequest) :
    seenRequests (Function.update requests slot request) =
      Function.update (seenRequests requests) slot.val request.view :=
  slotsOf_update slot request

/-! ### Searches -/

/-- The search of a queue is the search of the slots. -/
theorem find_eq_firstSlot (htest : ∀ request, test request = seenTest request.view)
    {queue : IOQueue} (hcount : queue.requestCount.toNat ≤ queueSlots) :
    queue.find test =
      some (firstSlot seenTest queue.requestCount.toNat (seenRequests queue.requests)) :=
  searchLoop_eq_firstSlot htest hcount

/-- The search of all queues is the search of queue 0, as the others are empty. -/
theorem WithinArrays.find_eq_slotOf (hwithin : WithinArrays scheduler)
    (htest : ∀ request, test request = seenTest request.view) :
    scheduler.find test = some ((scheduler.view.slotOf seenTest).map fun slot ↦ (0, slot)) := by
  have hqueue (i : ℕ) (hlt : i < maxIoQueues) :=
    find_eq_firstSlot htest (hwithin.requestCount ⟨i, hlt⟩)
  refine countedLoop_eq_some
    (fun i ↦ (if i = 0 then none else firstSlot seenTest (scheduler.queues 0).requestCount.toNat
      (seenRequests (scheduler.queues 0).requests)).map fun slot ↦ (0, slot)) fun i hi ↦ ?_
  have hlt := hi.trans_le hwithin.queueCount
  cases i with
  | zero =>
    show ((rowAt scheduler.queues 0).bind fun queue ↦ _) = _
    rw [rowAt_of_lt hlt, Option.bind_some, hqueue 0 hlt]
    rfl
  | succ i =>
    rw [if_neg (Nat.succ_ne_zero i), if_neg (Nat.succ_ne_zero (i + 1))]
    cases firstSlot seenTest (scheduler.queues 0).requestCount.toNat
        (seenRequests (scheduler.queues 0).requests) with
    | some slot => rfl
    | none =>
      have hne : (⟨i + 1, hlt⟩ : Fin maxIoQueues) ≠ 0 :=
        fun hzero ↦ Nat.succ_ne_zero i (congrArg Fin.val hzero)
      show ((rowAt scheduler.queues (i + 1)).bind fun queue ↦ _) = _
      rw [rowAt_of_lt hlt, Option.bind_some, hqueue (i + 1) hlt, hwithin.empty _ hne]
      rfl

/-- The slot that a search finds is counted, and in the array. -/
theorem WithinArrays.slotOf_lt (hwithin : WithinArrays scheduler) {slot : ℕ}
    (hslot : scheduler.view.slotOf seenTest = some slot) :
    slot < (scheduler.queues 0).requestCount.toNat ∧ slot < queueSlots := by
  rw [IOScheduler.slotOf] at hslot
  split_ifs at hslot
  have hcounted := (firstSlot_spec hslot).1
  exact ⟨hcounted, hcounted.trans_le (hwithin.requestCount 0)⟩

/-! ### Changes of queue 0 -/

/-- The scheduler with another queue 0. -/
def IOScheduler.setFirstQueue (scheduler : IOScheduler) (queue : IOQueue) : IOScheduler :=
  { scheduler with queues := Function.update scheduler.queues 0 queue }

@[simp] theorem view_setFirstQueue (scheduler : IOScheduler) (queue : IOQueue) :
    (scheduler.setFirstQueue queue).view = { scheduler.view with queue := queue.view } := by
  simp only [IOScheduler.view, IOScheduler.setFirstQueue, Function.update_self]

theorem onQueue_zero (scheduler : IOScheduler) (change : IOQueue → Option IOQueue) :
    scheduler.onQueue 0 change = (change (scheduler.queues 0)).map scheduler.setFirstQueue :=
  onQueue_of_lt scheduler 0 change

/-- A request that is written to a slot is seen as one. -/
theorem view_putRequest (queue : IOQueue) {slot : ℕ} (hlt : slot < queueSlots)
    (request : IORequest) :
    IOQueue.view { queue with requests := Function.update queue.requests ⟨slot, hlt⟩ request } =
      queue.view.put slot request.view := by
  rw [IOQueue.view, seenRequests_update]
  rfl

/-- The queue after a submission. Assumes: there is room for one more request. -/
theorem view_queueSubmitted {queue : IOQueue} (hroom : queue.requestCount.toNat < queueSlots)
    (hrear : queue.rearIndex.toNat < queueSlots) (requests : Requests)
    (operation : IOOperationType) (count : UInt32) :
    (queue.submitted requests operation count).view =
      { requestCount := queue.view.requestCount + 1
        requests := seenRequests requests
        rearIndex := (queue.view.rearIndex + 1) % queueSlots } := by
  have hslots : queueSlots = 1024 := rfl
  have hcount : (queue.requestCount + 1).toNat = queue.requestCount.toNat + 1 := by
    rw [UInt32.toNat_add, show (1 : UInt32).toNat = 1 from rfl, Nat.mod_eq_of_lt (by omega)]
  have hindex : ((queue.rearIndex + 1) % 1024).toNat =
      (queue.rearIndex.toNat + 1) % queueSlots := by
    rw [UInt32.toNat_mod, UInt32.toNat_add, show (1 : UInt32).toNat = 1 from rfl,
      Nat.mod_eq_of_lt (show queue.rearIndex.toNat + 1 < 2 ^ 32 by omega)]
    rfl
  simp only [IOQueue.view, IOQueue.submitted, hcount, hindex]

/-- The totals are not seen. -/
theorem view_submitted (scheduler : IOScheduler) (operation : IOOperationType) :
    (scheduler.submitted operation).view = scheduler.view := rfl

theorem view_setNextRequestId (scheduler : IOScheduler) (nextRequestId : UInt32) :
    IOScheduler.view { scheduler with nextRequestId := nextRequestId } =
      { scheduler.view with nextRequestId := nextRequestId.toNat } := rfl

/-! ### Calls -/

theorem submitRequest_view (hwithin : WithinArrays scheduler)
    (hid : scheduler.nextRequestId.toNat + 1 < 2 ^ 32) (operation : IOOperationType)
    (sector : UInt64) (count : UInt32) (malloc : Option ℕ) :
    (ioSubmitRequest scheduler operation sector count malloc).map (fun result ↦ result.1.view) =
      some (IoScheduling.ioSubmitRequest scheduler.view operation sector count
        malloc.isSome).1 := by
  have hrear := hwithin.rearIndex 0
  have hnext : (scheduler.nextRequestId + 1).toNat = scheduler.nextRequestId.toNat + 1 := by
    rw [UInt32.toNat_add]
    exact Nat.mod_eq_of_lt hid
  have hfull : 1024 ≤ (scheduler.queues 0).requestCount ↔
      queueSlots ≤ scheduler.view.queue.requestCount := UInt32.le_iff_toNat_le
  rw [ioSubmitRequest, IoScheduling.ioSubmitRequest]
  by_cases hzero : count = 0
  · rw [if_pos hzero, if_pos (Or.inl hzero)]
    rfl
  · rw [if_neg hzero, rowAt_of_lt (show 0 < maxIoQueues by decide), Option.bind_some]
    by_cases hroom : 1024 ≤ (scheduler.queues 0).requestCount
    · rw [if_pos (show 1024 ≤ (scheduler.queues ⟨0, _⟩).requestCount from hroom),
        if_pos (Or.inr (hfull.mp hroom))]
      rfl
    · rw [if_neg (show ¬ 1024 ≤ (scheduler.queues ⟨0, _⟩).requestCount from hroom),
        if_neg (not_or_intro hzero (mt hfull.mpr hroom))]
      cases malloc with
      | none =>
        simp only [onQueue_zero, putRow_of_lt hrear, Option.map_some, view_setFirstQueue,
          view_putRequest, view_setNextRequestId, hnext]
        rfl
      | some buffer =>
        have hcount : (scheduler.queues 0).requestCount.toNat < queueSlots :=
          UInt32.lt_iff_toNat_lt.mp (UInt32.not_le.mp hroom)
        simp only [onQueue_zero, putRow_of_lt hrear, Option.map_some, view_submitted,
          view_setFirstQueue, view_queueSubmitted hcount hrear, seenRequests_update,
          view_setNextRequestId, hnext]
        rfl

/-- The test of a cancellation is seen as one. -/
theorem cancellable_view (requestId : UInt32) (request : IORequest) :
    request.cancellable requestId = request.view.cancellable requestId.toNat := by
  rw [IORequest.cancellable, decide_eq_decide.mpr UInt32.toNat_inj.symm]
  rfl

theorem cancelRequest_view (hwithin : WithinArrays scheduler) (requestId : UInt32) :
    (ioCancelRequest scheduler requestId).map (fun result ↦ (result.1.view, result.2)) =
      some (IoScheduling.ioCancelRequest scheduler.view requestId.toNat) := by
  rw [ioCancelRequest, hwithin.find_eq_slotOf (cancellable_view requestId), Option.bind_some,
    IoScheduling.ioCancelRequest]
  cases hslot : scheduler.view.slotOf (IoScheduling.IORequest.cancellable requestId.toNat) with
  | none => rfl
  | some slot =>
    obtain ⟨hcounted, hlt⟩ := hwithin.slotOf_lt hslot
    have hone : (1 : UInt32) ≤ (scheduler.queues 0).requestCount :=
      UInt32.le_iff_toNat_le.mpr (show 1 ≤ (scheduler.queues 0).requestCount.toNat by omega)
    have hless : ((scheduler.queues 0).requestCount - 1).toNat =
        (scheduler.queues 0).requestCount.toNat - 1 := UInt32.toNat_sub_of_le _ _ hone
    simp only [Option.map_some, onQueue_zero, putRow_of_lt hlt, view_setFirstQueue]
    rw [IOQueue.view, seenRequests_update, hless]
    rfl

theorem completeRequest_view (hwithin : WithinArrays scheduler) (requestId : UInt32) :
    (ioCompleteRequest scheduler requestId).map (fun result ↦ (result.1.view, result.2)) =
      some (IoScheduling.ioCompleteRequest scheduler.view requestId.toNat) := by
  have htest (request : IORequest) : decide (request.requestId = requestId) =
      IoScheduling.IORequest.hasId requestId.toNat request.view :=
    decide_eq_decide.mpr UInt32.toNat_inj.symm
  rw [ioCompleteRequest, hwithin.find_eq_slotOf htest, Option.bind_some,
    IoScheduling.ioCompleteRequest]
  cases hslot : scheduler.view.slotOf (IoScheduling.IORequest.hasId requestId.toNat) with
  | none => rfl
  | some slot =>
    have hlt := (hwithin.slotOf_lt hslot).2
    simp only [Option.map_some, onQueue_zero, rowAt_of_lt hlt, putRow_of_lt hlt, Option.bind_some,
      view_setFirstQueue]
    rw [IOQueue.view, seenRequests_update]
    rfl

theorem getNextRequest_view (hwithin : WithinArrays scheduler) (queueId : UInt32) :
    (ioGetNextRequest scheduler queueId).map (fun result ↦ result.1.view) =
      some (IoScheduling.ioGetNextRequest scheduler.view queueId.toNat).1 := by
  have htest (request : IORequest) :
      decide (request.status = .pending) = request.view.isPending := rfl
  have hle : scheduler.queueCount ≤ queueId ↔ scheduler.view.queueCount ≤ queueId.toNat :=
    UInt32.le_iff_toNat_le
  rw [ioGetNextRequest, IoScheduling.ioGetNextRequest]
  by_cases hcounted : scheduler.queueCount ≤ queueId
  · rw [if_pos hcounted, if_pos (Or.inl (hle.mp hcounted))]
    rfl
  · have hlt : queueId.toNat < maxIoQueues :=
      (UInt32.lt_iff_toNat_lt.mp (UInt32.not_le.mp hcounted)).trans_le hwithin.queueCount
    rw [if_neg hcounted, rowAt_of_lt hlt, Option.bind_some,
      find_eq_firstSlot htest (hwithin.requestCount ⟨_, hlt⟩), Option.bind_some]
    by_cases hzero : queueId.toNat = 0
    · obtain rfl : queueId = 0 := UInt32.toNat_inj.mp hzero
      have hsome : scheduler.view.queueCount ≠ 0 :=
        fun hnone ↦ hcounted (hle.mpr (Nat.le_of_eq hnone))
      have hslotOf : firstSlot IoScheduling.IORequest.isPending
          (scheduler.queues ⟨UInt32.toNat 0, hlt⟩).requestCount.toNat
          (seenRequests (scheduler.queues ⟨UInt32.toNat 0, hlt⟩).requests) =
            scheduler.view.slotOf IoScheduling.IORequest.isPending := (if_neg hsome).symm
      rw [if_neg (not_or_intro (mt hle.mpr hcounted) (not_not_intro hzero)), hslotOf]
      cases hslot : scheduler.view.slotOf IoScheduling.IORequest.isPending with
      | none => rfl
      | some slot =>
        have hslotLt := (hwithin.slotOf_lt hslot).2
        have hseen : scheduler.view.queue.requests slot =
            ((scheduler.queues 0).requests ⟨slot, hslotLt⟩).view := slotsOf_of_lt hslotLt
        simp only [hzero, onQueue_zero, rowAt_of_lt hslotLt, putRow_of_lt hslotLt,
          Option.bind_some, Option.map_some, view_setFirstQueue, view_putRequest, hseen]
        rfl
    · have hne : (⟨queueId.toNat, hlt⟩ : Fin maxIoQueues) ≠ 0 :=
        fun hsame ↦ hzero (congrArg Fin.val hsame)
      rw [if_pos (Or.inr hzero), hwithin.empty _ hne]
      rfl

/-- A sort is seen as the sort of queue 0. -/
theorem sort_view (hwithin : WithinArrays scheduler) {queueId : UInt32}
    {outOfOrder : IORequest → IORequest → Bool}
    {seenOutOfOrder : IoScheduling.IORequest → IoScheduling.IORequest → Bool}
    (horder : ∀ first second, outOfOrder first second = seenOutOfOrder first.view second.view)
    (hqueue : queueId < scheduler.queueCount) :
    (scheduler.sort queueId outOfOrder).map (fun result ↦ result.1.view) =
      scheduler.view.sort queueId.toNat seenOutOfOrder := by
  obtain ⟨i, hid⟩ : ∃ i : Fin maxIoQueues, queueId.toNat = i.val :=
    ⟨⟨queueId.toNat, (UInt32.lt_iff_toNat_lt.mp hqueue).trans_le hwithin.queueCount⟩, rfl⟩
  rw [sort_of_lt hid hqueue, IoScheduling.IOScheduler.sort, hid]
  by_cases hempty : (scheduler.queues i).requestCount.toNat = 0
  · have hcount : (scheduler.queues i).requestCount = 0 := UInt32.toNat_inj.mp hempty
    have hnone : i.val ≠ 0 ∨ scheduler.view.queue.requestCount = 0 := by
      refine or_iff_not_imp_left.mpr fun hzero ↦ ?_
      obtain rfl : i = 0 := Fin.ext (not_not.mp hzero)
      exact hempty
    rw [hcount, sortRequests_zero, if_pos hnone]
    rfl
  · obtain rfl : i = 0 := by_contra fun hne ↦ hempty (hwithin.empty i hne)
    have hsome : ¬ ((0 : Fin maxIoQueues).val ≠ 0 ∨ scheduler.view.queue.requestCount = 0) :=
      not_or_intro (not_not_intro rfl) hempty
    obtain ⟨houter, hinner⟩ := sortBounds (Nat.one_le_iff_ne_zero.mpr hempty)
    obtain ⟨sorted, hsorted, hseen⟩ := exchangeSort_eq_bubbleSort clearedRequest horder
      (hwithin.requestCount 0) hinner (scheduler.queues 0).requests
    rw [sortRequests, houter, hsorted, if_neg hsome, Option.map_some, Option.map_some]
    have hview := view_setFirstQueue scheduler { scheduler.queues 0 with requests := sorted }
    rw [IOQueue.view, seenRequests, hseen] at hview
    exact congrArg some hview

theorem scheduleRequests_view (hwithin : WithinArrays scheduler) (queueId : UInt32) :
    (ioScheduleRequests scheduler queueId).map (fun result ↦ result.1.view) =
      IoScheduling.ioScheduleRequests scheduler.view queueId.toNat := by
  have hle : scheduler.queueCount ≤ queueId ↔ scheduler.view.queueCount ≤ queueId.toNat :=
    UInt32.le_iff_toNat_le
  rw [ioScheduleRequests, IoScheduling.ioScheduleRequests]
  by_cases hcounted : scheduler.queueCount ≤ queueId
  · rw [if_pos hcounted, if_pos (hle.mp hcounted)]
    rfl
  · rw [if_neg hcounted, if_neg (mt hle.mpr hcounted)]
    have hqueue := UInt32.not_le.mp hcounted
    have halgorithm : scheduler.view.algorithm = scheduler.algorithm := rfl
    rw [halgorithm]
    cases scheduler.algorithm with
    | elevator => exact sort_view hwithin (fun _ _ ↦ rfl) hqueue
    | deadline => exact sort_view hwithin (fun _ _ ↦ rfl) hqueue
    | fifo => rfl
    | cfq => rfl
    | noop => rfl

/-! ### Runs -/

/-- Assumes: the bounds of the arrays hold, and the counter of request ids does not wrap around. A
call leaves what the same call leaves of what is seen. -/
theorem ioCall_view (hwithin : WithinArrays scheduler)
    (hid : scheduler.nextRequestId.toNat + 1 < 2 ^ 32) {call : IOCall}
    {seenCall : IoScheduling.IOCall} (hcall : call.view = some seenCall) :
    (ioCall scheduler call).map IOScheduler.view =
      IoScheduling.ioCall scheduler.view seenCall := by
  cases call with
  | submitRequest operation sector count malloc =>
    obtain rfl := Option.some.inj hcall
    rw [ioCall, Option.map_map]
    exact submitRequest_view hwithin hid operation sector count malloc
  | cancelRequest requestId =>
    obtain rfl := Option.some.inj hcall
    have hseen := congrArg (Option.map Prod.fst) (cancelRequest_view hwithin requestId)
    rw [Option.map_map] at hseen
    rw [ioCall, Option.map_map]
    exact hseen
  | scheduleRequests queueId =>
    obtain rfl := Option.some.inj hcall
    rw [ioCall, Option.map_map]
    exact scheduleRequests_view hwithin queueId
  | completeRequest requestId =>
    obtain rfl := Option.some.inj hcall
    have hseen := congrArg (Option.map Prod.fst) (completeRequest_view hwithin requestId)
    rw [Option.map_map] at hseen
    rw [ioCall, Option.map_map]
    exact hseen
  | getNextRequest queueId =>
    obtain rfl := Option.some.inj hcall
    rw [ioCall, Option.map_map]
    exact getNextRequest_view hwithin queueId
  | elevatorSort queueId currentHeadPosition => exact nomatch hcall
  | deadlineSort queueId => exact nomatch hcall
  | executeRequest queue slot => exact nomatch hcall

/-- The counter of request ids does not wrap around in the call. -/
def IdsLeft (running : Option IOScheduler) (_call : IOCall) : Prop :=
  ∀ scheduler, running = some scheduler → scheduler.nextRequestId.toNat + 1 < 2 ^ 32

theorem ioStep_view {running : Option IOScheduler} (hwithin : RunningWithin running)
    {call : IOCall} (hid : IdsLeft running call) {seenCall : IoScheduling.IOCall}
    (hcall : call.view = some seenCall) :
    (ioStep running call).map IOScheduler.view =
      IoScheduling.ioStep (running.map IOScheduler.view) seenCall := by
  cases running with
  | none => rfl
  | some scheduler => exact ioCall_view (hwithin scheduler rfl) (hid scheduler rfl) hcall

/-- A run is seen as the run of the calls as they are seen. -/
theorem runFrom_view {running : Option IOScheduler} {calls : List IOCall}
    {seenCalls : List IoScheduling.IOCall} (hwithin : RunningWithin running)
    (hids : EveryStep ioStep IdsLeft running calls)
    (hcalls : List.Forall₂ (fun call seenCall ↦ call.view = some seenCall) calls seenCalls) :
    (runFrom ioStep running calls).map IOScheduler.view =
      runFrom IoScheduling.ioStep (running.map IOScheduler.view) seenCalls := by
  induction hcalls generalizing running with
  | nil => rfl
  | cons hcall _ ih =>
    obtain ⟨hid, hrest⟩ := everyStep_cons.mp hids
    rw [runFrom_cons, runFrom_cons, ih (runningWithin_step hwithin _) hrest,
      ioStep_view hwithin hid hcall]

/-- A new scheduler is seen as one. -/
theorem view_init (algorithm : IOSchedulingAlgorithm) (queueCount nextRequestId : UInt32)
    (hid : 0 < nextRequestId.toNat) :
    (ioSchedulerInit algorithm queueCount nextRequestId).view =
      IoScheduling.ioSchedulerInit algorithm queueCount (nextRequestId.toNat - 1) := by
  have hcount : (ioSchedulerInit algorithm queueCount nextRequestId).queueCount.toNat =
      min queueCount.toNat maxIoQueues := by
    rw [ioSchedulerInit]
    dsimp only
    split_ifs with hlarge
    · exact (Nat.min_eq_right hlarge.le).symm
    · exact (Nat.min_eq_left (Nat.not_lt.mp hlarge)).symm
  have hrequests : seenRequests (fun _ ↦ zeroRequest) = fun _ ↦ clearedRequest := by
    funext slot
    rw [seenRequests, slotsOf]
    split_ifs <;> rfl
  rw [IOScheduler.view, hcount, IoScheduling.ioSchedulerInit, Nat.sub_add_cancel hid]
  simp only [ioSchedulerInit, IOQueue.view, hrequests, UInt32.toNat_zero]

/-- Every run of a new scheduler, with all its arrays, is seen as a run of the scheduler with queue
0 only. Assumes: the ids start above 0 and do not wrap around. -/
theorem ioRun_view (algorithm : IOSchedulingAlgorithm) (queueCount nextRequestId : UInt32)
    (hid : 0 < nextRequestId.toNat) {calls : List IOCall} {seenCalls : List IoScheduling.IOCall}
    (hids : EveryStep ioStep IdsLeft
      (some (ioSchedulerInit algorithm queueCount nextRequestId)) calls)
    (hcalls : List.Forall₂ (fun call seenCall ↦ call.view = some seenCall) calls seenCalls) :
    (runFrom ioStep (some (ioSchedulerInit algorithm queueCount nextRequestId)) calls).map
        IOScheduler.view =
      runFrom IoScheduling.ioStep
        (some (IoScheduling.ioSchedulerInit algorithm queueCount (nextRequestId.toNat - 1)))
        seenCalls := by
  have hwithin : RunningWithin (some (ioSchedulerInit algorithm queueCount nextRequestId)) :=
    fun scheduler hscheduler ↦ Option.some.inj hscheduler ▸
      withinArrays_init algorithm queueCount nextRequestId
  rw [runFrom_view hwithin hids hcalls, Option.map_some, view_init _ _ _ hid]

end OneOS.IoScheduling.QueueArrays
