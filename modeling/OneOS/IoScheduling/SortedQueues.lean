import Mathlib.Order.OrderDual
import OneOS.IoScheduling.QueueArrays

/-!
# Sorted queues

What the two sorts of `io-filesystem/io_scheduler.c` do to a queue. For every queue with a request
that has no more than its array holds, `io_elevator_sort` leaves the requests in the order of their
sectors and `io_deadline_sort` in the reverse order of their priorities; requests that compare
equal keep their order, and all else is unchanged (`SortsQueue`, `ioSorts_stable`). For an empty
queue the bounds of the loops wrap around, and the sorts leave the array
(`sortRequests_eq_none_iff`).
-/

set_option autoImplicit false
set_option relaxedAutoImplicit false

namespace OneOS.IoScheduling.QueueArrays

open Foundation

variable {Key : Type*} [LinearOrder Key] {key : IORequest → Key}
variable {outOfOrder : IORequest → IORequest → Bool} {count : UInt32} {requests : Requests}
variable {scheduler : IOScheduler} {queueId : UInt32} {queue : IOQueue}

/-! ### Bounds of the loops -/

/-- The bounds of the loops over a queue that is not empty. -/
theorem sortBounds (hpos : 1 ≤ count.toNat) :
    (count - 1).toNat = count.toNat - 1 ∧ ∀ i < count.toNat - 1,
      (count - i.toUInt32 - 1).toNat = count.toNat - i - 1 := by
  have hlast : (1 : UInt32) ≤ count := UInt32.le_iff_toNat_le.mpr hpos
  refine ⟨UInt32.toNat_sub_of_le _ _ hlast, fun i hi ↦ ?_⟩
  have hbound := count.toNat_lt
  have hround : i.toUInt32.toNat = i := Nat.mod_eq_of_lt (show i < 2 ^ 32 by omega)
  have hless : i.toUInt32 ≤ count := UInt32.le_iff_toNat_le.mpr (by omega)
  have hrest : (count - i.toUInt32).toNat = count.toNat - i := by
    rw [UInt32.toNat_sub_of_le _ _ hless, hround]
  rw [UInt32.toNat_sub_of_le, hrest]
  · rfl
  · rw [UInt32.le_iff_toNat_le, hrest]
    exact show 1 ≤ count.toNat - i by omega

/-- The sort of a queue with a request that has no more than its array holds. -/
theorem sortRequests_spec (requests : Requests)
    (hkey : ∀ first second, outOfOrder first second = true ↔ key second < key first)
    (hpos : 1 ≤ count.toNat) (hcount : count.toNat ≤ queueSlots) :
    ∃ sorted, sortRequests outOfOrder count requests = some sorted ∧
      StablyRearranged key count.toNat requests sorted ∧
        SortedByKey key count.toNat sorted := by
  obtain ⟨houter, hinner⟩ := sortBounds hpos
  rw [sortRequests, houter]
  exact exchangeSort_spec hkey hpos hcount hinner

/-- The sorts of an empty queue leave the array: the bounds of the loops wrap around. -/
theorem sortRequests_zero (outOfOrder : IORequest → IORequest → Bool) (requests : Requests) :
    sortRequests outOfOrder 0 requests = none :=
  exchangeSort_eq_none (show 0 < ((0 : UInt32) - 1).toNat by decide)
    (show 0 < queueSlots by decide)
    (show queueSlots ≤ ((0 : UInt32) - (0 : ℕ).toUInt32 - 1).toNat by decide)

/-- The sorts leave the array exactly when the queue is empty or has more requests than the array
holds. -/
theorem sortRequests_eq_none_iff
    (hkey : ∀ first second, outOfOrder first second = true ↔ key second < key first) :
    sortRequests outOfOrder count requests = none ↔
      count.toNat = 0 ∨ queueSlots < count.toNat := by
  by_cases hempty : count.toNat = 0
  · refine iff_of_true ?_ (Or.inl hempty)
    obtain rfl : count = 0 := UInt32.toNat_inj.mp hempty
    exact sortRequests_zero outOfOrder requests
  · have hpos : 1 ≤ count.toNat := Nat.one_le_iff_ne_zero.mpr hempty
    obtain ⟨houter, hinner⟩ := sortBounds hpos
    by_cases hlarge : queueSlots < count.toNat
    · refine iff_of_true ?_ (Or.inr hlarge)
      have hslots : queueSlots = 1024 := rfl
      refine exchangeSort_eq_none (by omega) (show 0 < queueSlots by decide) ?_
      rw [hinner 0 (by omega)]
      omega
    · refine iff_of_false ?_ (by omega)
      obtain ⟨sorted, hsorted, -⟩ := sortRequests_spec requests hkey hpos (Nat.not_lt.mp hlarge)
      rw [hsorted]
      exact Option.some_ne_none sorted

/-! ### The two sorts -/

/-- The request that is out of order has the smaller sector. -/
theorem elevatorOrder_iff (first second : IORequest) :
    decide (second.diskSector < first.diskSector) = true ↔
      second.diskSector.toNat < first.diskSector.toNat := by
  rw [decide_eq_true_eq, UInt64.lt_iff_toNat_lt]

/-- The request that is out of order has the greater priority. -/
theorem deadlineOrder_iff (first second : IORequest) :
    decide (first.priority < second.priority) = true ↔
      OrderDual.toDual second.priority.toNat < OrderDual.toDual first.priority.toNat := by
  rw [decide_eq_true_eq, UInt32.lt_iff_toNat_lt]
  exact Iff.rfl

/-- The outcome of a sort of a queue by a key. If its array has all its requests, they are put in
the order of their keys by a stable rearrangement, and nothing else is changed. -/
def SortsQueue (key : IORequest → Key) (scheduler : IOScheduler) (i : Fin maxIoQueues)
    (outcome : Option (IOScheduler × Int)) : Prop :=
  queueSlots < (scheduler.queues i).requestCount.toNat ∧ outcome = none ∨
    ∃ sorted,
      outcome = some
        ({ scheduler with
          queues := Function.update scheduler.queues i
            { scheduler.queues i with requests := sorted } },
          (scheduler.queues i).requestCount.toInt32.toInt) ∧
      StablyRearranged key (scheduler.queues i).requestCount.toNat (scheduler.queues i).requests
        sorted ∧
      SortedByKey key (scheduler.queues i).requestCount.toNat sorted

/-- A sort of a queue that the scheduler counts. -/
theorem sort_of_lt {i : Fin maxIoQueues} (hid : queueId.toNat = i.val)
    (hqueue : queueId < scheduler.queueCount) :
    scheduler.sort queueId outOfOrder =
      (sortRequests outOfOrder (scheduler.queues i).requestCount
        (scheduler.queues i).requests).map fun sorted ↦
          ({ scheduler with
            queues := Function.update scheduler.queues i
              { scheduler.queues i with requests := sorted } },
            (scheduler.queues i).requestCount.toInt32.toInt) := by
  have hrow : rowAt scheduler.queues queueId.toNat = some (scheduler.queues i) := by
    rw [hid, rowAt_of_lt i.isLt]
  have hput (queue : IOQueue) : putRow scheduler.queues queueId.toNat queue =
      some (Function.update scheduler.queues i queue) := by
    rw [hid, putRow_of_lt i.isLt]
  rw [IOScheduler.sort, if_neg (UInt32.not_le.mpr hqueue), hrow, Option.bind_some,
    IOScheduler.onQueue, hrow, Option.bind_some]
  cases sortRequests outOfOrder (scheduler.queues i).requestCount (scheduler.queues i).requests with
  | none => rfl
  | some sorted => rw [Option.map_some, Option.bind_some, hput]; rfl

theorem sortsQueue_sort {i : Fin maxIoQueues}
    (hkey : ∀ first second, outOfOrder first second = true ↔ key second < key first)
    (hid : queueId.toNat = i.val) (hqueue : queueId < scheduler.queueCount)
    (hcount : 1 ≤ (scheduler.queues i).requestCount) :
    SortsQueue key scheduler i (scheduler.sort queueId outOfOrder) := by
  have hpos : 1 ≤ (scheduler.queues i).requestCount.toNat := UInt32.le_iff_toNat_le.mp hcount
  rw [sort_of_lt hid hqueue]
  by_cases hlarge : queueSlots < (scheduler.queues i).requestCount.toNat
  · refine Or.inl ⟨hlarge, ?_⟩
    rw [(sortRequests_eq_none_iff hkey).mpr (Or.inr hlarge), Option.map_none]
  · obtain ⟨sorted, hsorted, hrearranged, hordered⟩ := sortRequests_spec
      (scheduler.queues i).requests hkey hpos (Nat.not_lt.mp hlarge)
    exact Or.inr ⟨sorted, by rw [hsorted, Option.map_some], hrearranged, hordered⟩

/-- The sorts of the I/O scheduler. For every queue with a request, whatever it holds,
`io_elevator_sort` puts the requests in the order of their sectors and `io_deadline_sort` in the
reverse order of their priorities, requests that compare equal keep their order, and all other
slots, indices and counters are left. -/
theorem ioSorts_stable (scheduler : IOScheduler) (queueId : UInt32) (i : Fin maxIoQueues)
    (currentHeadPosition : UInt64) (hid : queueId.toNat = i.val)
    (hqueue : queueId < scheduler.queueCount) (hcount : 1 ≤ (scheduler.queues i).requestCount) :
    SortsQueue (fun request ↦ request.diskSector.toNat) scheduler i
        (ioElevatorSort scheduler queueId currentHeadPosition) ∧
      SortsQueue (fun request ↦ OrderDual.toDual request.priority.toNat) scheduler i
        (ioDeadlineSort scheduler queueId) :=
  ⟨sortsQueue_sort elevatorOrder_iff hid hqueue hcount,
    sortsQueue_sort deadlineOrder_iff hid hqueue hcount⟩

/-- Queue 0 with requests at the sectors 9 and 4. -/
theorem ioSorts_stable_two_requests :
    ∃ scheduler : IOScheduler, (scheduler.queues 0).requestCount = 2 ∧
      ((scheduler.queues 0).requests 0).diskSector = 9 ∧
      ((scheduler.queues 0).requests 1).diskSector = 4 ∧
      SortsQueue (fun request ↦ request.diskSector.toNat) scheduler 0
        (ioElevatorSort scheduler 0 0) ∧
      SortsQueue (fun request ↦ OrderDual.toDual request.priority.toNat) scheduler 0
        (ioDeadlineSort scheduler 0) := by
  refine ⟨{ ioSchedulerInit .elevator 1 1 with
    queues := fun i ↦
      { (ioSchedulerInit .elevator 1 1).queues i with
        requestCount := 2
        requests := fun j ↦ { zeroRequest with diskSector := if j.val = 0 then 9 else 4 } } },
    rfl, rfl, rfl, ?_⟩
  exact ioSorts_stable _ 0 0 0 rfl (show (0 : UInt32) < 1 by decide)
    (show (1 : UInt32) ≤ 2 by decide)

end OneOS.IoScheduling.QueueArrays
