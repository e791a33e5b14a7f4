import OneOS.Foundation.Counters
import OneOS.Foundation.Runs
import OneOS.IoScheduling.IoScheduler

/-!
# Requests are handed out once

What was submitted, handed out and withdrawn is recorded over a run (`recordDispatch`). A request
waits when it was submitted and neither handed out, cancelled nor completed, and
`io_get_next_request` is to hand out waiting requests only, and one whenever there is one
(`DispatchSound`).

As long as the counted slots are those that were filled, from the first on, this holds
(`QueueIntact`). A request that is cancelled or completed leaves a cleared slot, which reads as a
pending request with id 0, and submission does not fill it again. `dispatchSound_iff` says that
nothing else can go wrong, and that this always does: a run can be continued soundly by any
submissions and hand-outs exactly when no call has cleared a slot and none has sorted an empty
queue.
-/

set_option autoImplicit false
set_option relaxedAutoImplicit false

namespace OneOS.IoScheduling

open Foundation

/-! ### What is handed out -/

/-- The ids that were submitted, handed out, and cancelled or completed. -/
structure DispatchRecord where
  submitted : List ℕ
  handedOut : List ℕ
  withdrawn : List ℕ
  deriving DecidableEq, Repr

/-- The record at the start. -/
def noDispatches : DispatchRecord where
  submitted := []
  handedOut := []
  withdrawn := []

/-- The record after a call. -/
def recordCall (scheduler : IOScheduler) (record : DispatchRecord) : IOCall → DispatchRecord
  | .submitRequest operation sector count malloc =>
    { record with
      submitted := (ioSubmitRequest scheduler operation sector count malloc).2.toList ++
        record.submitted }
  | .cancelRequest requestId =>
    if (ioCancelRequest scheduler requestId).2 = 0 then
      { record with withdrawn := requestId :: record.withdrawn }
    else record
  | .scheduleRequests _ => record
  | .getNextRequest queueId =>
    { record with
      handedOut := (ioGetNextRequest scheduler queueId).2.toList ++ record.handedOut }
  | .completeRequest requestId =>
    if (ioCompleteRequest scheduler requestId).2 = 0 then
      { record with withdrawn := requestId :: record.withdrawn }
    else record

/-- The record after a step of the program. -/
def recordDispatch (running : Option IOScheduler) (call : IOCall) (record : DispatchRecord) :
    DispatchRecord :=
  match running with
  | none => record
  | some scheduler => recordCall scheduler record call

/-- The request was submitted and neither handed out nor cancelled or completed. -/
def DispatchRecord.Waiting (record : DispatchRecord) (requestId : ℕ) : Prop :=
  requestId ∈ record.submitted ∧ requestId ∉ record.handedOut ∧ requestId ∉ record.withdrawn

instance (record : DispatchRecord) (requestId : ℕ) : Decidable (record.Waiting requestId) :=
  inferInstanceAs (Decidable (_ ∧ _ ∧ _))

/-- What is asked of a call of `io_get_next_request` for queue 0: the program has not failed, the
request that is handed out waits, and one is handed out when some request waits. -/
def DispatchSound (traced : Option IOScheduler × DispatchRecord) : IOCall → Prop
  | .getNextRequest queueId =>
    queueId = 0 → ∃ scheduler, traced.1 = some scheduler ∧
      (∀ requestId, (ioGetNextRequest scheduler 0).2 = some requestId →
        traced.2.Waiting requestId) ∧
      ((∃ requestId, traced.2.Waiting requestId) → (ioGetNextRequest scheduler 0).2 ≠ none)
  | _ => True

/-- The condition on a call: what is cancelled is no pending or scheduled request among the counted
slots, what is completed is no request among them, and what is sorted is queue 0 with a request in
it. -/
def IOCall.ClearsNothing (scheduler : IOScheduler) : IOCall → Prop
  | .cancelRequest requestId =>
    ∀ slot < scheduler.queue.requestCount,
      IORequest.cancellable requestId (scheduler.queue.requests slot) = false
  | .scheduleRequests queueId =>
    queueId < scheduler.queueCount →
      scheduler.algorithm = .elevator ∨ scheduler.algorithm = .deadline →
        queueId = 0 ∧ scheduler.queue.requestCount ≠ 0
  | .completeRequest requestId =>
    ∀ slot < scheduler.queue.requestCount,
      IORequest.hasId requestId (scheduler.queue.requests slot) = false
  | _ => True

/-- Submissions and calls of `io_get_next_request` for queue 0. -/
def IOCall.Serves : IOCall → Prop
  | .submitRequest _ _ _ _ => True
  | .getNextRequest queueId => queueId = 0
  | _ => False

/-! ### Slots without holes -/

/-- The counted slots hold requests with distinct ids, all given out before, and the pending ones
among them are those that wait. -/
structure SlotsIntact (count : ℕ) (requests : ℕ → IORequest) (nextRequestId : ℕ)
    (record : DispatchRecord) : Prop where
  next_pos : 0 < nextRequestId
  id_lt : ∀ slot < count, (requests slot).requestId < nextRequestId
  distinct : ∀ slot < count, ∀ other < count,
    (requests slot).requestId = (requests other).requestId → slot = other
  waiting_iff : ∀ requestId, record.Waiting requestId ↔
    ∃ slot < count, (requests slot).isPending = true ∧ (requests slot).requestId = requestId
  zero_notMem : 0 ∉ record.submitted
  handedOut_lt : ∀ requestId ∈ record.handedOut, requestId < nextRequestId
  withdrawn_lt : ∀ requestId ∈ record.withdrawn, requestId < nextRequestId

variable {count nextRequestId requestId slot queueId : ℕ} {requests after : ℕ → IORequest}
variable {record : DispatchRecord} {scheduler : IOScheduler}

/-- A slot that is not counted may be written, and an id used up. -/
theorem SlotsIntact.discard (hintact : SlotsIntact count requests nextRequestId record)
    (request : IORequest) :
    SlotsIntact count (Function.update requests count request) (nextRequestId + 1) record := by
  have hslots : ∀ slot < count, Function.update requests count request slot = requests slot :=
    fun slot hslot ↦ Function.update_of_ne hslot.ne request requests
  refine ⟨Nat.succ_pos _, fun slot hslot ↦ ?_, fun slot hslot other hother hequal ↦ ?_,
    fun requestId ↦ ?_, hintact.zero_notMem, fun requestId hmem ↦ ?_, fun requestId hmem ↦ ?_⟩
  · rw [hslots slot hslot]
    exact Nat.lt_succ_of_lt (hintact.id_lt slot hslot)
  · rw [hslots slot hslot, hslots other hother] at hequal
    exact hintact.distinct slot hslot other hother hequal
  · rw [hintact.waiting_iff requestId]
    refine exists_congr fun slot ↦ and_congr_right fun hslot ↦ ?_
    rw [hslots slot hslot]
  · exact Nat.lt_succ_of_lt (hintact.handedOut_lt requestId hmem)
  · exact Nat.lt_succ_of_lt (hintact.withdrawn_lt requestId hmem)

/-- A submitted id that is new waits, beside those that waited. -/
theorem SlotsIntact.waiting_submitted_iff
    (hintact : SlotsIntact count requests nextRequestId record) :
    { record with submitted := nextRequestId :: record.submitted }.Waiting requestId ↔
      record.Waiting requestId ∨ nextRequestId = requestId := by
  rw [DispatchRecord.Waiting, List.mem_cons]
  constructor
  · rintro ⟨rfl | hsubmitted, hrest⟩
    · exact Or.inr rfl
    · exact Or.inl ⟨hsubmitted, hrest⟩
  · rintro (⟨hsubmitted, hrest⟩ | rfl)
    · exact ⟨Or.inr hsubmitted, hrest⟩
    · exact ⟨Or.inl rfl, fun hmem ↦ (hintact.handedOut_lt _ hmem).false,
        fun hmem ↦ (hintact.withdrawn_lt _ hmem).false⟩

/-- A pending request with the next id is written behind the counted slots and counted. -/
theorem SlotsIntact.append (hintact : SlotsIntact count requests nextRequestId record)
    {request : IORequest} (hpending : request.isPending = true)
    (hid : request.requestId = nextRequestId) :
    SlotsIntact (count + 1) (Function.update requests count request) (nextRequestId + 1)
      { record with submitted := nextRequestId :: record.submitted } := by
  have hwritten := hintact.discard request
  have hlast : (Function.update requests count request count).requestId = nextRequestId := by
    rw [Function.update_self, hid]
  have hdiffer : ∀ slot < count,
      (Function.update requests count request slot).requestId ≠ nextRequestId := by
    intro slot hslot
    rw [Function.update_of_ne hslot.ne]
    exact (hintact.id_lt slot hslot).ne
  refine ⟨hwritten.next_pos, ?_, ?_, fun requestId ↦ ?_, ?_, hwritten.handedOut_lt,
    hwritten.withdrawn_lt⟩
  · exact Nat.forall_lt_succ_right.mpr ⟨hwritten.id_lt, hlast ▸ Nat.lt_succ_self _⟩
  · refine Nat.forall_lt_succ_right.mpr ⟨fun slot hslot ↦ ?_, ?_⟩
    · refine Nat.forall_lt_succ_right.mpr ⟨hwritten.distinct slot hslot, fun hequal ↦ ?_⟩
      exact absurd (hequal.trans hlast) (hdiffer slot hslot)
    · refine Nat.forall_lt_succ_right.mpr ⟨fun other hother hequal ↦ ?_, fun _ ↦ rfl⟩
      exact absurd (hequal.symm.trans hlast) (hdiffer other hother)
  · rw [hintact.waiting_submitted_iff, hwritten.waiting_iff, Nat.exists_lt_succ_right, hlast,
      Function.update_self, and_iff_right hpending]
  · rw [List.mem_cons, not_or]
    exact ⟨hintact.next_pos.ne, hintact.zero_notMem⟩

/-- The order of the counted slots does not matter. -/
theorem SlotsIntact.rearranged (hintact : SlotsIntact count requests nextRequestId record)
    (hrearranged : Rearranged count requests after) :
    SlotsIntact count after nextRequestId record where
  next_pos := hintact.next_pos
  id_lt := hrearranged.forall_of (fun request ↦ request.requestId < nextRequestId) hintact.id_lt
  distinct := hrearranged.distinct hintact.distinct
  waiting_iff := fun requestId ↦ (hintact.waiting_iff requestId).trans
    (hrearranged.exists_iff fun request ↦
      request.isPending = true ∧ request.requestId = requestId).symm
  zero_notMem := hintact.zero_notMem
  handedOut_lt := hintact.handedOut_lt
  withdrawn_lt := hintact.withdrawn_lt

/-- A pending request in a counted slot is handed out, and waits no longer. -/
theorem SlotsIntact.handOut (hintact : SlotsIntact count requests nextRequestId record)
    (hslot : slot < count) :
    SlotsIntact count (Function.update requests slot (requests slot).handOut) nextRequestId
      { record with handedOut := (requests slot).requestId :: record.handedOut } := by
  have hids : ∀ other, (Function.update requests slot (requests slot).handOut other).requestId =
      (requests other).requestId := by
    intro other
    by_cases hsame : other = slot
    · rw [hsame, Function.update_self]
      rfl
    · rw [Function.update_of_ne hsame]
  refine ⟨hintact.next_pos, fun other hother ↦ ?_, fun other hother third hthird hequal ↦ ?_,
    fun requestId ↦ ?_, hintact.zero_notMem, fun requestId hmem ↦ ?_, hintact.withdrawn_lt⟩
  · rw [hids]
    exact hintact.id_lt other hother
  · rw [hids, hids] at hequal
    exact hintact.distinct other hother third hthird hequal
  · have hwaits : { record with
        handedOut := (requests slot).requestId :: record.handedOut }.Waiting requestId ↔
        record.Waiting requestId ∧ requestId ≠ (requests slot).requestId := by
      simp only [DispatchRecord.Waiting, List.mem_cons, not_or]
      tauto
    rw [hwaits, hintact.waiting_iff]
    constructor
    · rintro ⟨⟨other, hother, hpending, rfl⟩, hdiffers⟩
      have hne : other ≠ slot := fun hsame ↦ hdiffers (hsame ▸ rfl)
      refine ⟨other, hother, ?_, hids other⟩
      rw [Function.update_of_ne hne]
      exact hpending
    · rintro ⟨other, hother, hpending, rfl⟩
      have hne : other ≠ slot := by
        rintro rfl
        rw [Function.update_self] at hpending
        exact Bool.false_ne_true hpending
      rw [Function.update_of_ne hne] at hpending ⊢
      exact ⟨⟨other, hother, hpending, rfl⟩, fun hequal ↦
        hne (hintact.distinct other hother slot hslot hequal)⟩
  · rcases List.mem_cons.mp hmem with rfl | hmem
    · exact hintact.id_lt slot hslot
    · exact hintact.handedOut_lt requestId hmem

/-! ### Queues without holes -/

/-- The counted slots are intact, and the rear is the slot behind them. -/
structure QueueIntact (scheduler : IOScheduler) (record : DispatchRecord) : Prop where
  queueCount_ne_zero : scheduler.queueCount ≠ 0
  count_le : scheduler.queue.requestCount ≤ queueSlots
  rear_eq : scheduler.queue.rearIndex = scheduler.queue.requestCount % queueSlots
  slots : SlotsIntact scheduler.queue.requestCount scheduler.queue.requests
    scheduler.nextRequestId record

/-- A scheduler with a queue starts intact. -/
theorem queueIntact_init {queueCount : UInt32} (hqueue : queueCount ≠ 0)
    (algorithm : IOSchedulingAlgorithm) (earlierRequests : ℕ) :
    QueueIntact (ioSchedulerInit algorithm queueCount earlierRequests) noDispatches where
  queueCount_ne_zero := by
    have hpos := toNat_pos hqueue
    simp only [ioSchedulerInit, maxIoQueues]
    omega
  count_le := Nat.zero_le _
  rear_eq := rfl
  slots :=
    { next_pos := Nat.succ_pos earlierRequests
      id_lt := fun _ hslot ↦ absurd hslot (Nat.not_lt_zero _)
      distinct := fun _ hslot ↦ absurd hslot (Nat.not_lt_zero _)
      waiting_iff := fun requestId ↦ by
        simp [DispatchRecord.Waiting, noDispatches, ioSchedulerInit]
      zero_notMem := List.not_mem_nil
      handedOut_lt := fun _ hmem ↦ absurd hmem List.not_mem_nil
      withdrawn_lt := fun _ hmem ↦ absurd hmem List.not_mem_nil }

/-- Every search goes over the counted slots of queue 0. -/
theorem slotOf_eq_firstSlot (hqueue : scheduler.queueCount ≠ 0) (test : IORequest → Bool) :
    scheduler.slotOf test =
      firstSlot test scheduler.queue.requestCount scheduler.queue.requests := by
  rw [IOScheduler.slotOf, if_neg hqueue]

/-- A submission keeps the queue intact, whether it is served or not. -/
theorem QueueIntact.submitRequest (hintact : QueueIntact scheduler record)
    (operation : IOOperationType) (sector : UInt64) (count : UInt32) (malloc : Bool) :
    QueueIntact (ioSubmitRequest scheduler operation sector count malloc).1
      (recordCall scheduler record (.submitRequest operation sector count malloc)) := by
  simp only [recordCall, ioSubmitRequest]
  split_ifs with hrefused hmalloc
  · exact hintact
  all_goals
    have hroom : scheduler.queue.requestCount < queueSlots := by omega
    have hrear : scheduler.queue.rearIndex = scheduler.queue.requestCount := by
      rw [hintact.rear_eq, Nat.mod_eq_of_lt hroom]
    rw [hrear]
  · exact ⟨hintact.queueCount_ne_zero, hroom, rfl, hintact.slots.append rfl rfl⟩
  · exact ⟨hintact.queueCount_ne_zero, hintact.count_le, hrear ▸ hintact.rear_eq,
      hintact.slots.discard _⟩

/-- Handing out keeps the queue intact. -/
theorem QueueIntact.getNextRequest (hintact : QueueIntact scheduler record) (queueId : ℕ) :
    QueueIntact (ioGetNextRequest scheduler queueId).1
      (recordCall scheduler record (.getNextRequest queueId)) := by
  simp only [recordCall, ioGetNextRequest, slotOf_eq_firstSlot hintact.queueCount_ne_zero]
  split_ifs with hother
  · exact hintact
  · split
    next hnone => exact hintact
    next slot hfind =>
      exact ⟨hintact.queueCount_ne_zero, hintact.count_le, hintact.rear_eq,
        hintact.slots.handOut (firstSlot_spec hfind).1⟩

/-- Sorting keeps the queue intact. -/
theorem QueueIntact.sort (hintact : QueueIntact scheduler record)
    {outOfOrder : IORequest → IORequest → Bool} {sorted : IOScheduler}
    (hsort : scheduler.sort queueId outOfOrder = some sorted) : QueueIntact sorted record := by
  rw [IOScheduler.sort] at hsort
  split_ifs at hsort
  rw [← Option.some.inj hsort]
  exact ⟨hintact.queueCount_ne_zero, hintact.count_le, hintact.rear_eq,
    hintact.slots.rearranged (rearranged_bubbleSort outOfOrder _ _)⟩

/-- Scheduling keeps the queue intact when it does not leave the array. -/
theorem QueueIntact.scheduleRequests (hintact : QueueIntact scheduler record)
    {scheduled : IOScheduler} (hschedule : ioScheduleRequests scheduler queueId = some scheduled) :
    QueueIntact scheduled record := by
  rw [ioScheduleRequests] at hschedule
  split_ifs at hschedule
  · exact Option.some.inj hschedule ▸ hintact
  · split at hschedule
    · exact hintact.sort hschedule
    · exact hintact.sort hschedule
    · exact Option.some.inj hschedule ▸ hintact

/-- Scheduling leaves the array exactly when a queue without requests is sorted. -/
theorem exists_ioScheduleRequests_iff :
    (∃ after, ioScheduleRequests scheduler queueId = some after) ↔
      IOCall.ClearsNothing scheduler (.scheduleRequests queueId) := by
  have hsort : ∀ outOfOrder, (∃ after, scheduler.sort queueId outOfOrder = some after) ↔
      queueId = 0 ∧ scheduler.queue.requestCount ≠ 0 := by
    intro outOfOrder
    rw [IOScheduler.sort]
    split_ifs with hempty
    · refine iff_of_false (fun ⟨_, hfailed⟩ ↦ hfailed) ?_
      rintro ⟨hzero, hcount⟩
      exact hempty.elim (absurd hzero) hcount
    · rw [not_or, not_not] at hempty
      exact iff_of_true ⟨_, rfl⟩ hempty
  rw [ioScheduleRequests, IOCall.ClearsNothing]
  split_ifs with hbound
  · exact iff_of_true ⟨scheduler, rfl⟩ fun hlt ↦ absurd hlt (Nat.not_lt.mpr hbound)
  · rw [forall_prop_of_true (Nat.lt_of_not_le hbound)]
    split
    next helevator => exact (hsort _).trans (by simp [helevator])
    next hdeadline => exact (hsort _).trans (by simp [hdeadline])
    next helevator hdeadline =>
      refine iff_of_true ⟨scheduler, rfl⟩ ?_
      rintro (hsorts | hsorts)
      · exact absurd hsorts helevator
      · exact absurd hsorts hdeadline

/-- A call with the condition does not fail and keeps the queue intact. -/
theorem QueueIntact.ioCall (hintact : QueueIntact scheduler record) {call : IOCall}
    (hclears : call.ClearsNothing scheduler) :
    ∃ after, ioCall scheduler call = some after ∧
      QueueIntact after (recordCall scheduler record call) := by
  have hsearch : ∀ test : IORequest → Bool,
      (∀ slot < scheduler.queue.requestCount, test (scheduler.queue.requests slot) = false) →
        scheduler.slotOf test = none := by
    intro test hall
    rw [slotOf_eq_firstSlot hintact.queueCount_ne_zero]
    exact firstSlot_eq_none_iff.mpr hall
  cases call with
  | submitRequest operation sector count malloc =>
    exact ⟨_, rfl, hintact.submitRequest operation sector count malloc⟩
  | cancelRequest requestId =>
    refine ⟨_, rfl, ?_⟩
    simp only [recordCall, ioCancelRequest, hsearch _ hclears]
    exact hintact
  | scheduleRequests queueId =>
    obtain ⟨after, hschedule⟩ := exists_ioScheduleRequests_iff.mpr hclears
    exact ⟨after, hschedule, hintact.scheduleRequests hschedule⟩
  | getNextRequest queueId => exact ⟨_, rfl, hintact.getNextRequest queueId⟩
  | completeRequest requestId =>
    refine ⟨_, rfl, ?_⟩
    simp only [recordCall, ioCompleteRequest, hsearch _ hclears]
    exact hintact

/-- What is handed out from queue 0 is the request in the first slot that is pending. -/
theorem ioGetNextRequest_zero (hqueue : scheduler.queueCount ≠ 0) :
    ioGetNextRequest scheduler 0 =
      match firstSlot IORequest.isPending scheduler.queue.requestCount scheduler.queue.requests with
      | none => (scheduler, none)
      | some slot =>
        ({ scheduler with
          queue := scheduler.queue.put slot (scheduler.queue.requests slot).handOut },
          some (scheduler.queue.requests slot).requestId) := by
  have hfirst : ¬ (scheduler.queueCount ≤ 0 ∨ (0 : ℕ) ≠ 0) := by omega
  rw [← slotOf_eq_firstSlot hqueue]
  exact if_neg hfirst

/-- An intact queue hands out what waits. -/
theorem QueueIntact.dispatchSound (hintact : QueueIntact scheduler record) (call : IOCall) :
    DispatchSound (some scheduler, record) call := by
  cases call with
  | getNextRequest queueId =>
    intro _
    refine ⟨scheduler, rfl, ?_⟩
    rw [ioGetNextRequest_zero hintact.queueCount_ne_zero]
    cases hfind : firstSlot IORequest.isPending scheduler.queue.requestCount
      scheduler.queue.requests with
    | none =>
      refine ⟨fun requestId hnext ↦ absurd hnext.symm (Option.some_ne_none requestId), ?_⟩
      rintro ⟨requestId, hwaiting⟩
      obtain ⟨slot, hslot, hpending, -⟩ := (hintact.slots.waiting_iff requestId).mp hwaiting
      rw [firstSlot_eq_none_iff.mp hfind slot hslot] at hpending
      exact absurd hpending Bool.false_ne_true
    | some slot =>
      refine ⟨fun requestId hnext ↦ ?_, fun _ ↦ Option.some_ne_none _⟩
      obtain ⟨hslot, hpending⟩ := firstSlot_spec hfind
      exact (hintact.slots.waiting_iff requestId).mpr
        ⟨slot, hslot, hpending, Option.some.inj hnext⟩
  | _ => exact trivial

/-! ### Queues with a hole -/

/-- A cleared slot is counted. -/
structure HasHole (scheduler : IOScheduler) (record : DispatchRecord) : Prop where
  queueCount_ne_zero : scheduler.queueCount ≠ 0
  cleared : ∃ slot < scheduler.queue.requestCount,
    scheduler.queue.requests slot = clearedRequest
  zero_notMem : 0 ∉ record.submitted

/-- The number of counted requests that are pending. -/
def IOScheduler.pendingCount (scheduler : IOScheduler) : ℕ :=
  countSlots IORequest.isPending scheduler.queue.requestCount scheduler.queue.requests

theorem clearedRequest_isPending (hcleared : requests slot = clearedRequest) :
    (requests slot).isPending = true := by
  rw [hcleared]
  rfl

/-- As long as only waiting requests are handed out from a queue with a hole, the hole stays, and
each time one less is pending. -/
theorem HasHole.getNextRequest (hhole : HasHole scheduler record)
    (hsound : DispatchSound (some scheduler, record) (.getNextRequest 0)) :
    HasHole (ioGetNextRequest scheduler 0).1 (recordCall scheduler record (.getNextRequest 0)) ∧
      (ioGetNextRequest scheduler 0).1.pendingCount < scheduler.pendingCount := by
  obtain ⟨hqueue, ⟨hole, hcounted, hcleared⟩, hzero⟩ := hhole
  obtain ⟨same, hsame, hwaits, -⟩ := hsound rfl
  obtain rfl := Option.some.inj hsame
  obtain ⟨slot, hfind⟩ := exists_firstSlot hcounted (clearedRequest_isPending hcleared)
  obtain ⟨hslot, hpending⟩ := firstSlot_spec hfind
  have hnext := ioGetNextRequest_zero hqueue
  rw [hfind] at hnext
  rw [hnext] at hwaits ⊢
  -- the request that is handed out was submitted, so it is not the hole
  have hne : hole ≠ slot := by
    rintro rfl
    have hsubmitted := (hwaits _ rfl).1
    rw [hcleared] at hsubmitted
    exact hzero hsubmitted
  refine ⟨⟨hqueue, ⟨hole, hcounted, ?_⟩, hzero⟩, countSlots_update_lt hslot hpending rfl⟩
  exact (Function.update_of_ne hne _ _).trans hcleared

/-- A queue with a hole does not hand out soundly as many times as requests are pending. -/
theorem HasHole.not_everyStep {rounds : ℕ} (hhole : HasHole scheduler record)
    (hrounds : scheduler.pendingCount ≤ rounds) :
    ¬ EveryStep (withTrace ioStep recordDispatch) DispatchSound (some scheduler, record)
      (List.replicate rounds (.getNextRequest 0)) := by
  induction rounds generalizing scheduler record with
  | zero =>
    obtain ⟨-, ⟨hole, hcounted, hcleared⟩, -⟩ := hhole
    have hpos := countSlots_pos hcounted (clearedRequest_isPending hcleared)
    exact absurd (lt_of_lt_of_le hpos hrounds) (Nat.lt_irrefl 0)
  | succ rounds ih =>
    intro hevery
    rw [List.replicate_succ, everyStep_cons] at hevery
    obtain ⟨hsound, hlater⟩ := hevery
    obtain ⟨hstill, hfewer⟩ := hhole.getNextRequest hsound
    exact ih hstill (by omega) hlater

/-- Some submissions and hand-outs from here on are not all sound. -/
def CanMisdispatch (traced : Option IOScheduler × DispatchRecord) : Prop :=
  ∃ more : List IOCall, (∀ call ∈ more, call.Serves) ∧
    ¬ EveryStep (withTrace ioStep recordDispatch) DispatchSound traced more

theorem HasHole.canMisdispatch (hhole : HasHole scheduler record) :
    CanMisdispatch (some scheduler, record) := by
  refine ⟨_, fun call hcall ↦ ?_, hhole.not_everyStep le_rfl⟩
  rw [List.eq_of_mem_replicate hcall]
  exact rfl

/-- A step that serves may come before. -/
theorem CanMisdispatch.cons {traced : Option IOScheduler × DispatchRecord} (call : IOCall)
    (hserves : call.Serves)
    (hcan : CanMisdispatch (withTrace ioStep recordDispatch traced call)) :
    CanMisdispatch traced := by
  obtain ⟨more, hmore, hunsound⟩ := hcan
  refine ⟨call :: more, List.forall_mem_cons.mpr ⟨hserves, hmore⟩, fun hevery ↦ ?_⟩
  exact hunsound (everyStep_cons.mp hevery).2

/-- A program that has failed hands out nothing. -/
theorem canMisdispatch_none : CanMisdispatch (none, record) := by
  refine ⟨[.getNextRequest 0], by simp [IOCall.Serves], fun hevery ↦ ?_⟩
  obtain ⟨scheduler, hrunning, -⟩ := (everyStep_cons.mp hevery).1 rfl
  exact Option.some_ne_none scheduler hrunning.symm

/-- A completed request leaves a hole. -/
theorem QueueIntact.hasHole_completeRequest (hintact : QueueIntact scheduler record)
    (hfind : firstSlot (IORequest.hasId requestId) scheduler.queue.requestCount
      scheduler.queue.requests = some slot) :
    HasHole (ioCompleteRequest scheduler requestId).1
      (recordCall scheduler record (.completeRequest requestId)) := by
  simp only [recordCall, ioCompleteRequest, slotOf_eq_firstSlot hintact.queueCount_ne_zero, hfind]
  exact ⟨hintact.queueCount_ne_zero, ⟨slot, (firstSlot_spec hfind).1, Function.update_self ..⟩,
    hintact.slots.zero_notMem⟩

/-- A cancelled request leaves a hole, at the latest when the next request is submitted: the slot
behind the last one is then counted and the request is written further on. -/
theorem QueueIntact.canMisdispatch_cancelRequest (hintact : QueueIntact scheduler record)
    (hfind : firstSlot (IORequest.cancellable requestId) scheduler.queue.requestCount
      scheduler.queue.requests = some slot) :
    CanMisdispatch (some (ioCancelRequest scheduler requestId).1,
      recordCall scheduler record (.cancelRequest requestId)) := by
  have hslot := (firstSlot_spec hfind).1
  simp only [recordCall, ioCancelRequest, slotOf_eq_firstSlot hintact.queueCount_ne_zero, hfind]
  by_cases hlast : slot + 1 < scheduler.queue.requestCount
  · have hcounted : slot < scheduler.queue.requestCount - 1 := by omega
    exact HasHole.canMisdispatch ⟨hintact.queueCount_ne_zero,
      ⟨slot, hcounted, Function.update_self ..⟩, hintact.slots.zero_notMem⟩
  · refine CanMisdispatch.cons (.submitRequest .read 0 1 true) trivial (HasHole.canMisdispatch ?_)
    have hroom : scheduler.queue.requestCount - 1 < queueSlots := by
      have hcount := hintact.count_le
      omega
    have hrear : slot ≠ scheduler.queue.rearIndex := by
      rw [hintact.rear_eq]
      have hcount := hintact.count_le
      rw [queueSlots] at hcount ⊢
      omega
    have haccepted : ¬ ((1 : UInt32) = 0 ∨ queueSlots ≤ scheduler.queue.requestCount - 1) := by
      rw [not_or]
      exact ⟨by decide, Nat.not_le.mpr hroom⟩
    simp only [recordDispatch, recordCall, ioSubmitRequest, IOQueue.put, if_neg haccepted, if_true]
    refine ⟨hintact.queueCount_ne_zero, ⟨slot, ?_, ?_⟩, ?_⟩
    · dsimp only
      omega
    · exact (Function.update_of_ne hrear _ _).trans (Function.update_self ..)
    · refine List.not_mem_cons_of_ne_of_not_mem ?_ hintact.slots.zero_notMem
      exact hintact.slots.next_pos.ne

/-- A call without the condition makes an unsound hand-out possible. -/
theorem QueueIntact.canMisdispatch (hintact : QueueIntact scheduler record) {call : IOCall}
    (hclears : ¬ call.ClearsNothing scheduler) :
    CanMisdispatch (withTrace ioStep recordDispatch (some scheduler, record) call) := by
  have hsearch : ∀ test : IORequest → Bool,
      (¬ ∀ slot < scheduler.queue.requestCount, test (scheduler.queue.requests slot) = false) →
        ∃ slot, firstSlot test scheduler.queue.requestCount scheduler.queue.requests =
          some slot := by
    intro test hsome
    rwa [← firstSlot_eq_none_iff, ← Ne, Option.ne_none_iff_exists'] at hsome
  cases call with
  | submitRequest operation sector count malloc => exact absurd trivial hclears
  | cancelRequest requestId =>
    obtain ⟨slot, hfind⟩ := hsearch _ hclears
    exact hintact.canMisdispatch_cancelRequest hfind
  | scheduleRequests queueId =>
    rw [← exists_ioScheduleRequests_iff, ← Option.ne_none_iff_exists', not_not] at hclears
    have hfailed : withTrace ioStep recordDispatch (some scheduler, record)
        (.scheduleRequests queueId) = (none, record) :=
      Prod.ext hclears rfl
    rw [hfailed]
    exact canMisdispatch_none
  | getNextRequest queueId => exact absurd trivial hclears
  | completeRequest requestId =>
    obtain ⟨slot, hfind⟩ := hsearch _ hclears
    exact (hintact.hasHole_completeRequest hfind).canMisdispatch

/-! ### Exactly when requests are handed out once -/

/-- A call meets the condition in a program that has not failed. -/
def ClearsNothingIn (running : Option IOScheduler) (call : IOCall) : Prop :=
  ∀ scheduler, running = some scheduler → call.ClearsNothing scheduler

/-- A run of the scheduler may be stopped at any point and continued by any submissions and
hand-outs, and every call of `io_get_next_request` for queue 0 hands out a request that waits, or
none if none waits, exactly when no call of the run clears a counted slot or sorts a queue without
requests. -/
theorem dispatchSound_iff (algorithm : IOSchedulingAlgorithm) {queueCount : UInt32}
    (hqueue : queueCount ≠ 0) (earlierRequests : ℕ) (calls : List IOCall) :
    EveryStep ioStep ClearsNothingIn
        (some (ioSchedulerInit algorithm queueCount earlierRequests)) calls ↔
      ∀ taken more, taken <+: calls → (∀ call ∈ more, call.Serves) →
        EveryStep (withTrace ioStep recordDispatch) DispatchSound
          (some (ioSchedulerInit algorithm queueCount earlierRequests), noDispatches)
          (taken ++ more) := by
  refine everyStep_withTrace.symm.trans (everyStep_iff_sound_continued
    (fun traced ↦ ∃ scheduler, traced.1 = some scheduler ∧ QueueIntact scheduler traced.2)
    IOCall.Serves ?_ ?_ ?_ ?_ ⟨_, rfl, queueIntact_init hqueue algorithm earlierRequests⟩)
  · rintro ⟨running, record⟩ call ⟨scheduler, rfl, hintact⟩ hclears
    exact hintact.ioCall (hclears scheduler rfl)
  · intro traced call hserves scheduler _
    cases call with
    | submitRequest operation sector count malloc => exact trivial
    | getNextRequest queueId => exact trivial
    | _ => exact hserves.elim
  · rintro ⟨running, record⟩ call ⟨scheduler, rfl, hintact⟩ -
    exact hintact.dispatchSound call
  · rintro ⟨running, record⟩ call ⟨scheduler, rfl, hintact⟩ hviolated
    refine hintact.canMisdispatch fun hclears ↦ hviolated fun same hsame ↦ ?_
    exact Option.some.inj hsame ▸ hclears

/-- Two requests are submitted and handed out, and none is withdrawn. -/
theorem dispatchSound_two_requests :
    (2 : UInt32) ≠ 0 ∧
      EveryStep (withTrace ioStep recordDispatch) DispatchSound
        (some (ioSchedulerInit .elevator 2 0), noDispatches)
        [.submitRequest .read 8 1 true, .submitRequest .write 3 1 true, .scheduleRequests 0,
          .getNextRequest 0, .getNextRequest 0] := by
  refine ⟨by decide, ?_⟩
  refine (dispatchSound_iff .elevator (by decide) 0
    [.submitRequest .read 8 1 true, .submitRequest .write 3 1 true, .scheduleRequests 0]).mp
    ?_ _ [.getNextRequest 0, .getNextRequest 0] (List.prefix_refl _) (by simp [IOCall.Serves])
  simp only [everyStep_cons, everyStep_nil, and_true]
  refine ⟨fun _ _ ↦ trivial, fun _ _ ↦ trivial, fun scheduler hrunning _ _ ↦ ⟨rfl, ?_⟩⟩
  rw [← Option.some.inj hrunning]
  decide

/-- A request is submitted, handed out and completed. Its cleared slot is handed out next. -/
theorem not_dispatchSound_completed :
    ¬ EveryStep (withTrace ioStep recordDispatch) DispatchSound
      (some (ioSchedulerInit .fifo 1 0), noDispatches)
      [.submitRequest .read 0 1 true, .getNextRequest 0, .completeRequest 1,
        .getNextRequest 0] := by
  intro hevery
  simp only [everyStep_cons, everyStep_nil, and_true] at hevery
  obtain ⟨-, -, -, hlast⟩ := hevery
  obtain ⟨scheduler, hrunning, hwaits, -⟩ := hlast rfl
  have hghost : (ioGetNextRequest scheduler 0).2 = some 0 := by
    rw [← Option.some.inj hrunning]
    decide
  exact absurd (hwaits 0 hghost) (by decide)

end OneOS.IoScheduling
