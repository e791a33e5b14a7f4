import OneOS.IoScheduling.SortedQueues

/-!
# The bounds of the arrays of the I/O scheduler

Which calls to `io-filesystem/io_scheduler.c` leave its arrays. In every state that a run reaches,
no queue counts more requests than its array has slots, the slot that is filled next is one of them,
and only queue 0 counts any (`WithinArrays`). So all loops stay in the arrays but those of the
sorts, whose bounds wrap around for a queue that counts no request. That is every queue before the
first submission and after as many cancellations, and all queues but queue 0 always.

`ioArrays_safe_iff` gives both directions for single states and for whole runs.
-/

set_option autoImplicit false
set_option relaxedAutoImplicit false

namespace OneOS.IoScheduling.QueueArrays

open Foundation

/-! ### Bounds -/

/-- The counts and indices stay in the arrays, and only queue 0 has requests. -/
structure WithinArrays (scheduler : IOScheduler) : Prop where
  queueCount : scheduler.queueCount.toNat ≤ maxIoQueues
  requestCount : ∀ i, (scheduler.queues i).requestCount.toNat ≤ queueSlots
  rearIndex : ∀ i, (scheduler.queues i).rearIndex.toNat < queueSlots
  empty : ∀ i, i ≠ 0 → (scheduler.queues i).requestCount.toNat = 0

/-- The algorithm is one of the two that sort. -/
def IOScheduler.Sorting (scheduler : IOScheduler) : Prop :=
  scheduler.algorithm = .elevator ∨ scheduler.algorithm = .deadline

/-- The queue has a request, if it is one of those that the scheduler counts. -/
def QueueFilled (scheduler : IOScheduler) (queueId : UInt32) : Prop :=
  ∀ i : Fin maxIoQueues, queueId.toNat = i.val → queueId < scheduler.queueCount →
    1 ≤ (scheduler.queues i).requestCount

/-- A queue that the call sorts has a request. -/
def SortsFilledQueue (scheduler : IOScheduler) : IOCall → Prop
  | .scheduleRequests queueId => scheduler.Sorting → QueueFilled scheduler queueId
  | .elevatorSort queueId _ => QueueFilled scheduler queueId
  | .deadlineSort queueId => QueueFilled scheduler queueId
  | _ => True

variable {scheduler next : IOScheduler} {queueId : UInt32} {test : IORequest → Bool}

/-- What is asked of a queue. -/
structure QueueWithin (i : Fin maxIoQueues) (queue : IOQueue) : Prop where
  requestCount : queue.requestCount.toNat ≤ queueSlots
  rearIndex : queue.rearIndex.toNat < queueSlots
  empty : i ≠ 0 → queue.requestCount.toNat = 0

theorem WithinArrays.queue (hwithin : WithinArrays scheduler) (i : Fin maxIoQueues) :
    QueueWithin i (scheduler.queues i) :=
  ⟨hwithin.requestCount i, hwithin.rearIndex i, hwithin.empty i⟩

/-- The bounds hold after one queue is changed to one that is within them. -/
theorem WithinArrays.update (hwithin : WithinArrays scheduler) {i : Fin maxIoQueues}
    {queue : IOQueue} (hqueue : QueueWithin i queue)
    (hcount : next.queueCount = scheduler.queueCount)
    (hqueues : next.queues = Function.update scheduler.queues i queue) : WithinArrays next := by
  have hall (k : Fin maxIoQueues) : QueueWithin k (next.queues k) := by
    rw [hqueues]
    by_cases hsame : k = i
    · rw [hsame, Function.update_self]
      exact hqueue
    · rw [Function.update_of_ne hsame]
      exact hwithin.queue k
  refine ⟨?_, fun k ↦ (hall k).requestCount, fun k ↦ (hall k).rearIndex, fun k ↦ (hall k).empty⟩
  rw [hcount]
  exact hwithin.queueCount

/-- The loops over the requests of a queue stay in its array, and find one that is counted. -/
theorem IOQueue.find_spec {queue : IOQueue} (hcount : queue.requestCount.toNat ≤ queueSlots)
    (test : IORequest → Bool) :
    ∃ found, queue.find test = some found ∧ ∀ j, found = some j → j < queue.requestCount.toNat := by
  refine countedLoop_spec
    (fun _ found ↦ ∀ j, found = some j → j < queue.requestCount.toNat)
    (fun j found _ hj hinvariant ↦ ?_) (fun j hnone ↦ absurd hnone (by simp))
  cases found with
  | some earlier => exact ⟨some earlier, rfl, hinvariant⟩
  | none =>
    rw [Nat.zero_add] at hj
    refine ⟨_, by rw [rowAt_of_lt (hj.trans_le hcount), Option.map_some], fun k hk ↦ ?_⟩
    split_ifs at hk
    exact Option.some.inj hk ▸ hj

/-- The loops over all queues stay in the arrays, and find a request that is counted. -/
theorem WithinArrays.find_spec (hwithin : WithinArrays scheduler) (test : IORequest → Bool) :
    ∃ found, scheduler.find test = some found ∧ ∀ pointer, found = some pointer →
      ∃ i : Fin maxIoQueues, pointer.1 = i.val ∧
        pointer.2 < (scheduler.queues i).requestCount.toNat := by
  refine countedLoop_spec
    (fun _ (found : Option RequestPtr) ↦ ∀ pointer, found = some pointer →
      ∃ i : Fin maxIoQueues, pointer.1 = i.val ∧
        pointer.2 < (scheduler.queues i).requestCount.toNat)
    (fun i found _ hi hinvariant ↦ ?_) (fun j hnone ↦ absurd hnone (by simp))
  cases found with
  | some earlier => exact ⟨some earlier, rfl, hinvariant⟩
  | none =>
    rw [Nat.zero_add] at hi
    have hlt := hi.trans_le hwithin.queueCount
    obtain ⟨slot, hslot, hcounted⟩ := IOQueue.find_spec (hwithin.requestCount ⟨i, hlt⟩) test
    refine ⟨_, by rw [rowAt_of_lt hlt, Option.bind_some, hslot, Option.map_some],
      fun pointer hpointer ↦ ?_⟩
    obtain ⟨j, hj, rfl⟩ := Option.map_eq_some_iff.mp hpointer
    exact ⟨⟨i, hlt⟩, rfl, hcounted j hj⟩

/-- A change of a queue that is within the array of queues. -/
theorem onQueue_of_lt (scheduler : IOScheduler) (i : Fin maxIoQueues)
    (change : IOQueue → Option IOQueue) :
    scheduler.onQueue i.val change = (change (scheduler.queues i)).map fun queue ↦
      { scheduler with queues := Function.update scheduler.queues i queue } := by
  rw [IOScheduler.onQueue, rowAt_of_lt i.isLt, Option.bind_some]
  cases change (scheduler.queues i) with
  | none => rfl
  | some queue => rw [Option.bind_some, putRow_of_lt i.isLt]; rfl

/-! ### Single calls -/

/-- The call does not leave the arrays, and the bounds hold after it. -/
def StaysWithin (outcome : Option IOScheduler) : Prop :=
  ∃ next, outcome = some next ∧ WithinArrays next

theorem staysWithin_some (hwithin : WithinArrays next) : StaysWithin (some next) :=
  ⟨next, rfl, hwithin⟩

theorem StaysWithin.map {Answer : Type*} {outcome : Option IOScheduler}
    {answer : IOScheduler → IOScheduler × Answer} (hstays : StaysWithin outcome)
    (hanswer : ∀ next, WithinArrays next → WithinArrays (answer next).1) :
    StaysWithin ((outcome.map answer).map Prod.fst) := by
  obtain ⟨next, rfl, hwithin⟩ := hstays
  exact staysWithin_some (hanswer next hwithin)

/-- A request is written to a slot that is in the array, and the queue stays within its bounds. -/
theorem WithinArrays.putRequest (hwithin : WithinArrays scheduler) (i : Fin maxIoQueues)
    {slot : IOQueue → ℕ} {request : IOQueue → IORequest} {result : IOQueue → Requests → IOQueue}
    (hslot : slot (scheduler.queues i) < queueSlots)
    (hresult : ∀ requests, QueueWithin i (result (scheduler.queues i) requests)) :
    StaysWithin (scheduler.onQueue i.val fun queue ↦
      (putRow queue.requests (slot queue) (request queue)).map (result queue)) := by
  rw [onQueue_of_lt, putRow_of_lt hslot]
  exact staysWithin_some (hwithin.update (hresult _) rfl rfl)

/-- The same for a request that is read first. -/
theorem WithinArrays.changeRequest (hwithin : WithinArrays scheduler) (i : Fin maxIoQueues) {j : ℕ}
    (change : IORequest → IORequest) {result : IOQueue → IORequest → Requests → IOQueue}
    (hslot : j < queueSlots)
    (hresult : ∀ request requests, QueueWithin i (result (scheduler.queues i) request requests)) :
    StaysWithin (scheduler.onQueue i.val fun queue ↦
      (rowAt queue.requests j).bind fun request ↦
        (putRow queue.requests j (change request)).map (result queue request)) := by
  rw [onQueue_of_lt, rowAt_of_lt hslot, Option.bind_some, putRow_of_lt hslot]
  exact staysWithin_some (hwithin.update (hresult _ _) rfl rfl)

/-- The queue after a submission is within its bounds when there was room for one more request. -/
theorem queueWithin_submitted {queue : IOQueue} (hroom : queue.requestCount.toNat < queueSlots)
    (requests : Requests) (operation : IOOperationType) (count : UInt32) :
    QueueWithin 0 (queue.submitted requests operation count) := by
  have hslots : queueSlots = 1024 := rfl
  refine ⟨?_, ?_, fun hzero ↦ absurd rfl hzero⟩
  · show (queue.requestCount + 1).toNat ≤ queueSlots
    rw [UInt32.toNat_add, show (1 : UInt32).toNat = 1 from rfl]
    omega
  · show ((queue.rearIndex + 1) % 1024).toNat < queueSlots
    rw [UInt32.toNat_mod]
    exact Nat.mod_lt _ (by decide)

theorem staysWithin_submitRequest (hwithin : WithinArrays scheduler) (operation : IOOperationType)
    (sector : UInt64) (count : UInt32) (malloc : Option ℕ) :
    StaysWithin ((ioSubmitRequest scheduler operation sector count malloc).map Prod.fst) := by
  unfold ioSubmitRequest
  split
  · exact staysWithin_some hwithin
  · have hqueue := hwithin.queue 0
    have hnumbered : WithinArrays { scheduler with nextRequestId := scheduler.nextRequestId + 1 } :=
      ⟨hwithin.queueCount, hwithin.requestCount, hwithin.rearIndex, hwithin.empty⟩
    rw [rowAt_of_lt (show 0 < maxIoQueues by decide), Option.bind_some]
    split
    · exact staysWithin_some hwithin
    · next hfull =>
      cases malloc with
      | none =>
        refine StaysWithin.map (hnumbered.putRequest 0 hqueue.rearIndex fun requests ↦ ?_)
          fun _ hnext ↦ hnext
        exact ⟨hqueue.requestCount, hqueue.rearIndex, hqueue.empty⟩
      | some buffer =>
        have hroom : (scheduler.queues 0).requestCount.toNat < queueSlots :=
          UInt32.lt_iff_toNat_lt.mp (UInt32.not_le.mp hfull)
        refine StaysWithin.map (hnumbered.putRequest 0 hqueue.rearIndex fun requests ↦ ?_)
          fun next hnext ↦ ⟨hnext.queueCount, hnext.requestCount, hnext.rearIndex, hnext.empty⟩
        exact queueWithin_submitted hroom requests operation count

theorem staysWithin_cancelRequest (hwithin : WithinArrays scheduler) (requestId : UInt32) :
    StaysWithin ((ioCancelRequest scheduler requestId).map Prod.fst) := by
  obtain ⟨found, hfound, hcounted⟩ := hwithin.find_spec (IORequest.cancellable requestId)
  rw [ioCancelRequest, hfound, Option.bind_some]
  cases found with
  | none => exact staysWithin_some hwithin
  | some pointer =>
    obtain ⟨i, hi, hj⟩ := hcounted pointer rfl
    have hqueue := hwithin.queue i
    dsimp only
    rw [hi]
    refine StaysWithin.map (hwithin.putRequest i (hj.trans_le hqueue.requestCount)
      fun requests ↦ ⟨?_, hqueue.rearIndex, fun hne ↦ ?_⟩) fun _ hnext ↦ hnext
    · -- the queue counts the request that is found, so that the count does not wrap
      have hone : (1 : UInt32) ≤ (scheduler.queues i).requestCount :=
        UInt32.le_iff_toNat_le.mpr (show 1 ≤ (scheduler.queues i).requestCount.toNat by omega)
      show ((scheduler.queues i).requestCount - 1).toNat ≤ queueSlots
      rw [UInt32.toNat_sub_of_le _ _ hone]
      exact (Nat.sub_le _ _).trans hqueue.requestCount
    · have hempty := hqueue.empty hne
      omega

theorem staysWithin_completeRequest (hwithin : WithinArrays scheduler) (requestId : UInt32) :
    StaysWithin ((ioCompleteRequest scheduler requestId).map Prod.fst) := by
  obtain ⟨found, hfound, hcounted⟩ :=
    hwithin.find_spec fun request ↦ request.requestId = requestId
  rw [ioCompleteRequest, hfound, Option.bind_some]
  cases found with
  | none => exact staysWithin_some hwithin
  | some pointer =>
    obtain ⟨i, hi, hj⟩ := hcounted pointer rfl
    have hqueue := hwithin.queue i
    dsimp only
    rw [hi]
    refine StaysWithin.map (hwithin.changeRequest i (fun _ ↦ zeroRequest)
      (hj.trans_le hqueue.requestCount) fun _ _ ↦ ?_) fun _ hnext ↦ hnext
    exact ⟨hqueue.requestCount, hqueue.rearIndex, hqueue.empty⟩

theorem staysWithin_getNextRequest (hwithin : WithinArrays scheduler) (queueId : UInt32) :
    StaysWithin ((ioGetNextRequest scheduler queueId).map Prod.fst) := by
  unfold ioGetNextRequest
  split
  · exact staysWithin_some hwithin
  · next hcounted =>
    have hid : queueId.toNat < maxIoQueues :=
      (UInt32.lt_iff_toNat_lt.mp (UInt32.not_le.mp hcounted)).trans_le hwithin.queueCount
    have hqueue := hwithin.queue ⟨queueId.toNat, hid⟩
    obtain ⟨found, hfound, hslot⟩ :=
      IOQueue.find_spec hqueue.requestCount fun request ↦ request.status = .pending
    rw [rowAt_of_lt hid, Option.bind_some, hfound, Option.bind_some]
    cases found with
    | none => exact staysWithin_some hwithin
    | some j =>
      refine StaysWithin.map (hwithin.changeRequest ⟨queueId.toNat, hid⟩ _
        ((hslot j rfl).trans_le hqueue.requestCount) fun _ _ ↦ ?_) fun _ hnext ↦ hnext
      exact ⟨hqueue.requestCount, hqueue.rearIndex, hqueue.empty⟩

theorem staysWithin_executeRequest (hwithin : WithinArrays scheduler) (i : Fin maxIoQueues)
    (j : Fin queueSlots) : StaysWithin (ioExecuteRequest scheduler (i.val, j.val)) := by
  have hqueue := hwithin.queue i
  refine hwithin.changeRequest i IORequest.executed j.isLt fun _ _ ↦ ?_
  exact ⟨hqueue.requestCount, hqueue.rearIndex, hqueue.empty⟩

/-! ### Sorts -/

/-- What a call should come to: it leaves the arrays exactly when a condition fails, and the bounds
hold after it. -/
def SafeExactly (condition : Prop) (outcome : Option IOScheduler) : Prop :=
  (outcome ≠ none ↔ condition) ∧ ∀ next, outcome = some next → WithinArrays next

theorem StaysWithin.safeExactly {outcome : Option IOScheduler} {condition : Prop}
    (hstays : StaysWithin outcome) (hcondition : condition) : SafeExactly condition outcome := by
  obtain ⟨next, rfl, hwithin⟩ := hstays
  exact ⟨iff_of_true (Option.some_ne_none next) hcondition,
    fun _ hnext ↦ Option.some.inj hnext ▸ hwithin⟩

/-- A sort leaves the array exactly when it is given a queue without a request. -/
theorem safeExactly_sort {Key : Type*} [LinearOrder Key] {key : IORequest → Key}
    {outOfOrder : IORequest → IORequest → Bool} (hwithin : WithinArrays scheduler)
    (hkey : ∀ first second, outOfOrder first second = true ↔ key second < key first)
    (queueId : UInt32) :
    SafeExactly (QueueFilled scheduler queueId)
      ((scheduler.sort queueId outOfOrder).map Prod.fst) := by
  by_cases hcounted : scheduler.queueCount ≤ queueId
  · rw [IOScheduler.sort, if_pos hcounted]
    exact (staysWithin_some hwithin).safeExactly fun _ _ hlt ↦
      absurd hcounted (UInt32.not_le.mpr hlt)
  · have hqueue : queueId < scheduler.queueCount := UInt32.not_le.mp hcounted
    obtain ⟨i, hid⟩ : ∃ i : Fin maxIoQueues, queueId.toNat = i.val :=
      ⟨⟨queueId.toNat, (UInt32.lt_iff_toNat_lt.mp hqueue).trans_le hwithin.queueCount⟩, rfl⟩
    have hslots := hwithin.requestCount i
    have hfilled : QueueFilled scheduler queueId ↔
        (scheduler.queues i).requestCount.toNat ≠ 0 := by
      rw [← Nat.one_le_iff_ne_zero]
      refine ⟨fun hall ↦ UInt32.le_iff_toNat_le.mp (hall i hid hqueue), fun hsome k hk _ ↦ ?_⟩
      obtain rfl : i = k := Fin.ext (hid.symm.trans hk)
      exact UInt32.le_iff_toNat_le.mpr hsome
    rw [sort_of_lt hid hqueue, hfilled]
    cases hsorted : sortRequests outOfOrder (scheduler.queues i).requestCount
        (scheduler.queues i).requests with
    | none =>
      have hempty := ((sortRequests_eq_none_iff hkey).mp hsorted).resolve_right
        (Nat.not_lt.mpr hslots)
      exact ⟨iff_of_false (fun hsome ↦ hsome rfl) (not_not_intro hempty),
        fun next hnext ↦ absurd hnext.symm (Option.some_ne_none next)⟩
    | some sorted =>
      refine StaysWithin.safeExactly (staysWithin_some (hwithin.update ?_ rfl rfl)) fun hempty ↦ ?_
      · exact ⟨hslots, hwithin.rearIndex i, hwithin.empty i⟩
      · rw [(sortRequests_eq_none_iff hkey).mpr (Or.inl hempty)] at hsorted
        exact absurd hsorted.symm (Option.some_ne_none sorted)

theorem safeExactly_scheduleRequests (hwithin : WithinArrays scheduler) (queueId : UInt32) :
    SafeExactly (scheduler.Sorting → QueueFilled scheduler queueId)
      ((ioScheduleRequests scheduler queueId).map Prod.fst) := by
  unfold ioScheduleRequests
  split
  · next hcounted =>
    exact (staysWithin_some hwithin).safeExactly fun _ _ _ hlt ↦
      absurd hcounted (UInt32.not_le.mpr hlt)
  · split
    · next halgorithm =>
      rw [imp_iff_right (show scheduler.Sorting from Or.inl halgorithm)]
      exact safeExactly_sort hwithin elevatorOrder_iff queueId
    · next halgorithm =>
      rw [imp_iff_right (show scheduler.Sorting from Or.inr halgorithm)]
      exact safeExactly_sort hwithin deadlineOrder_iff queueId
    · next helevator hdeadline =>
      exact (staysWithin_some hwithin).safeExactly fun hsorting ↦
        hsorting.elim (fun hsame ↦ absurd hsame helevator) fun hsame ↦ absurd hsame hdeadline

/-! ### Runs -/

/-- Assumes: the bounds hold. A call leaves the arrays exactly when it sorts a queue without a
request, and otherwise the bounds hold after it. -/
theorem safeExactly_ioCall (hwithin : WithinArrays scheduler) (call : IOCall) :
    SafeExactly (SortsFilledQueue scheduler call) (ioCall scheduler call) := by
  cases call with
  | submitRequest operation sector count malloc =>
    exact (staysWithin_submitRequest hwithin operation sector count malloc).safeExactly trivial
  | cancelRequest requestId =>
    exact (staysWithin_cancelRequest hwithin requestId).safeExactly trivial
  | scheduleRequests queueId => exact safeExactly_scheduleRequests hwithin queueId
  | elevatorSort queueId currentHeadPosition =>
    exact safeExactly_sort hwithin elevatorOrder_iff queueId
  | deadlineSort queueId => exact safeExactly_sort hwithin deadlineOrder_iff queueId
  | executeRequest queue slot =>
    exact (staysWithin_executeRequest hwithin queue slot).safeExactly trivial
  | completeRequest requestId =>
    exact (staysWithin_completeRequest hwithin requestId).safeExactly trivial
  | getNextRequest queueId =>
    exact (staysWithin_getNextRequest hwithin queueId).safeExactly trivial

/-- The bounds hold of a new scheduler. -/
theorem withinArrays_init (algorithm : IOSchedulingAlgorithm) (queueCount nextRequestId : UInt32) :
    WithinArrays (ioSchedulerInit algorithm queueCount nextRequestId) := by
  refine ⟨?_, fun _ ↦ Nat.zero_le _, fun _ ↦ show 0 < queueSlots by decide, fun _ _ ↦ rfl⟩
  rw [ioSchedulerInit]
  dsimp only
  split_ifs with hlarge
  · decide
  · exact Nat.not_lt.mp hlarge

/-- The bounds hold of the scheduler, as long as the program has not left an array. -/
def RunningWithin (running : Option IOScheduler) : Prop :=
  ∀ scheduler, running = some scheduler → WithinArrays scheduler

theorem runningWithin_step {running : Option IOScheduler} (hwithin : RunningWithin running)
    (call : IOCall) : RunningWithin (ioStep running call) := by
  intro next hnext
  obtain ⟨scheduler, hscheduler, hcall⟩ := Option.bind_eq_some_iff.mp hnext
  exact (safeExactly_ioCall (hwithin scheduler hscheduler) call).2 next hcall

/-- The arrays over every run. In every state that a run of a new scheduler reaches and for every
queue id, `io_schedule_requests` stays in the arrays exactly when the algorithm does not sort or the
queue has a request; and the whole run stays in the arrays exactly when every queue that it sorts
has one. -/
theorem ioArrays_safe_iff (algorithm : IOSchedulingAlgorithm) (queueCount nextRequestId : UInt32)
    (calls : List IOCall) :
    AlongRun ioStep
        (fun running ↦ ∀ scheduler, running = some scheduler → ∀ queueId,
          queueId < scheduler.queueCount → (ioScheduleRequests scheduler queueId ≠ none ↔
            (scheduler.Sorting → QueueFilled scheduler queueId)))
        (some (ioSchedulerInit algorithm queueCount nextRequestId)) calls ∧
      (AlongRun ioStep (fun running ↦ running ≠ none)
          (some (ioSchedulerInit algorithm queueCount nextRequestId)) calls ↔
        EveryStep ioStep
          (fun running call ↦ ∀ scheduler, running = some scheduler →
            SortsFilledQueue scheduler call)
          (some (ioSchedulerInit algorithm queueCount nextRequestId)) calls) := by
  have hinit : RunningWithin (some (ioSchedulerInit algorithm queueCount nextRequestId)) :=
    fun scheduler hscheduler ↦ Option.some.inj hscheduler ▸
      withinArrays_init algorithm queueCount nextRequestId
  constructor
  · have hwithin : AlongRun ioStep RunningWithin
        (some (ioSchedulerInit algorithm queueCount nextRequestId)) calls :=
      alongRun_invariant RunningWithin (fun _ _ ↦ True)
        (fun _ call hbefore _ ↦ runningWithin_step hbefore call) hinit fun _ _ _ ↦ trivial
    refine hwithin.imp fun running hreached scheduler hscheduler queueId _ ↦ ?_
    rw [← (safeExactly_scheduleRequests (hreached scheduler hscheduler) queueId).1, ne_eq, ne_eq,
      Option.map_eq_none_iff]
  · refine alongRun_iff_everyStep RunningWithin (fun _ _ ↦ True)
      (fun _ call hbefore _ ↦ runningWithin_step hbefore call)
      (fun running call hbefore _ hrunning ↦ ?_) hinit (Option.some_ne_none _) (fun _ _ _ ↦ trivial)
    obtain ⟨scheduler, rfl⟩ := Option.ne_none_iff_exists'.mp hrunning
    rw [ioStep, Option.bind_some, (safeExactly_ioCall (hbefore scheduler rfl) call).1]
    simp only [Option.some.injEq, forall_eq']

/-- A new scheduler with an elevator and one queue: sorting it leaves the array. -/
theorem not_ioArrays_safe_empty :
    ¬ AlongRun ioStep
      (fun running ↦ ∀ scheduler, running = some scheduler → ∀ queueId,
        queueId < scheduler.queueCount → ioScheduleRequests scheduler queueId ≠ none)
      (some (ioSchedulerInit .elevator 1 1)) [] := by
  intro halong
  have hone : (0 : UInt32) < 1 := by decide
  have hstays := halong [] (List.prefix_refl _) _ rfl 0 hone
  have hsafe := (safeExactly_scheduleRequests (withinArrays_init .elevator 1 1) 0).1
  rw [ne_eq, Option.map_eq_none_iff] at hsafe
  have hfilled := hsafe.mp hstays (Or.inl rfl) 0 rfl hone
  exact absurd hfilled (show ¬ (1 : UInt32) ≤ 0 by decide)

end OneOS.IoScheduling.QueueArrays
