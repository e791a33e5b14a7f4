import OneOS.Foundation.PartialRuns
import OneOS.Foundation.Runs
import OneOS.Foundation.Table

/-!
# The CPU scheduler

`resource-scheduling/cpu_scheduler.c`: a table of threads, and for every cpu a run queue that holds
copies of the entries of the table. The check of the pointer to the scheduler, the domains, of which
there are never any, the idle time, which stays 0, and the metrics are left out; a cpu is given by a
natural number.

An enqueued thread stays in the table for good. Charging, putting to sleep and waking change the
entry of the table, running a thread changes its copy in a run queue.

Enqueuing a thread divides by the number of run queues, and a run of the program (`cpuProgram`) ends
where there is none.
-/

set_option autoImplicit false
set_option relaxedAutoImplicit false

namespace OneOS.Scheduling.Cpu

open Foundation

/-! ### Threads and run queues -/

/-- `MAX_SCHEDULABLE_THREADS`, the size of the table of threads and of every run queue. -/
def maxSchedulableThreads : ℕ := 4096

/-- `MAX_RUNQUEUES`. -/
def maxRunqueues : ℕ := 256

/-- `SchedulingPolicy`. -/
inductive SchedulingPolicy
  | fifo
  | roundRobin
  | cfs
  | rt
  | deadline
  deriving DecidableEq, Repr

/-- `ThreadState`. -/
inductive ThreadState
  | runnable
  | running
  | waiting
  | blocked
  | sleeping
  deriving DecidableEq, Repr

/-- `ScheduleEntry`. -/
structure ScheduleEntry where
  threadId : UInt32
  processId : UInt32
  priority : Int
  state : ThreadState
  cpuTimeNs : UInt64
  vruntimeNs : UInt64
  timeSliceMs : UInt32
  cpuAffinity : UInt32
  contextSwitches : UInt32
  totalSchedules : UInt32
  deriving DecidableEq, Repr

/-- `RunQueue`, with the used slots of the queue as a list. -/
structure RunQueue where
  cpuId : ℕ
  load : UInt32
  queue : List ScheduleEntry
  totalContextSwitches : UInt64
  activeTimeNs : UInt64
  deriving DecidableEq, Repr

/-- `CPUScheduler`, with the used rows of the tables as lists. -/
structure CPUScheduler where
  policy : SchedulingPolicy
  runqueues : List RunQueue
  threads : List ScheduleEntry
  totalThreadsScheduled : UInt32
  totalMigrations : UInt32
  deriving DecidableEq, Repr

/-! ### Run queues of a scheduler -/

/-- `cpu_scheduler_add_runqueue`. -/
def cpuSchedulerAddRunqueue (sched : CPUScheduler) (cpuId : ℕ) : CPUScheduler × Int :=
  if maxRunqueues ≤ sched.runqueues.length then (sched, -1)
  else
    ({ sched with
      runqueues := sched.runqueues ++ [{
        cpuId := cpuId
        load := 0
        queue := []
        totalContextSwitches := 0
        activeTimeNs := 0 }] }, 0)

/-- `cpu_scheduler_remove_runqueue`. -/
def cpuSchedulerRemoveRunqueue (sched : CPUScheduler) (cpuId : ℕ) : CPUScheduler × Int :=
  if sched.runqueues.length ≤ cpuId then (sched, -1)
  else ({ sched with runqueues := sched.runqueues.eraseIdx cpuId }, 0)

/-- `cpu_scheduler_init`. -/
def cpuSchedulerInit (policy : SchedulingPolicy) (cpuCount : UInt32) : CPUScheduler :=
  (List.range (min cpuCount.toNat maxRunqueues)).foldl
    (fun sched i ↦ (cpuSchedulerAddRunqueue sched i).1)
    { policy := policy
      runqueues := []
      threads := []
      totalThreadsScheduled := 0
      totalMigrations := 0 }

/-- `queue_length` of a run queue. -/
def CPUScheduler.queueLength (sched : CPUScheduler) (cpuId : ℕ) : ℕ :=
  (sched.runqueues[cpuId]?.map fun runqueue ↦ runqueue.queue.length).getD 0

/-- Append an entry to a run queue. -/
def RunQueue.push (runqueue : RunQueue) (entry : ScheduleEntry) : RunQueue :=
  { runqueue with queue := runqueue.queue ++ [entry], load := runqueue.load + 1 }

/-- Take the first entry of a thread off a run queue. -/
def RunQueue.drop (runqueue : RunQueue) (threadId : UInt32) : RunQueue :=
  { runqueue with
    queue := runqueue.queue.eraseP (·.threadId = threadId)
    load := runqueue.load - 1 }

/-- The run queue has an entry of the thread. -/
def RunQueue.has (runqueue : RunQueue) (threadId : UInt32) : Bool :=
  runqueue.queue.any (·.threadId = threadId)

/-- The entry of a thread that is enqueued. -/
def freshEntry (threadId processId : UInt32) (priority : Int) (cpuAffinity : UInt32) :
    ScheduleEntry where
  threadId := threadId
  processId := processId
  priority := priority
  state := .runnable
  cpuTimeNs := 0
  vruntimeNs := 0
  timeSliceMs := 10
  cpuAffinity := cpuAffinity
  contextSwitches := 0
  totalSchedules := 0

/-- `cpu_scheduler_enqueue_thread`. The remainder by the number of run queues is only defined when
there is one; without any, the program ends (`CpuCall.dividesByZero`). -/
def cpuSchedulerEnqueueThread (sched : CPUScheduler) (threadId processId : UInt32) (priority : Int)
    (cpuAffinity : UInt32) : CPUScheduler × UInt32 :=
  if maxSchedulableThreads ≤ sched.threads.length then (sched, 0)
  else
    let entry := freshEntry threadId processId priority cpuAffinity
    let targetCpu := cpuAffinity.toNat % sched.runqueues.length
    ({ sched with
      threads := sched.threads ++ [entry]
      totalThreadsScheduled := sched.totalThreadsScheduled + 1
      runqueues :=
        if targetCpu < sched.runqueues.length ∧
            sched.queueLength targetCpu < maxSchedulableThreads then
          sched.runqueues.modify targetCpu (·.push entry)
        else sched.runqueues }, threadId)

/-- `cpu_scheduler_dequeue_thread`. -/
def cpuSchedulerDequeueThread (sched : CPUScheduler) (cpuId : ℕ) (threadId : UInt32) :
    CPUScheduler × Int :=
  if sched.runqueues.length ≤ cpuId ∨ threadId = 0 then (sched, -1)
  else if sched.runqueues[cpuId]?.any (·.has threadId) then
    ({ sched with runqueues := sched.runqueues.modify cpuId (·.drop threadId) }, 0)
  else (sched, -1)

/-- `cpu_scheduler_migrate_thread`. -/
def cpuSchedulerMigrateThread (sched : CPUScheduler) (threadId : UInt32) (targetCpu : ℕ) :
    CPUScheduler × Int :=
  if threadId = 0 ∨ sched.runqueues.length ≤ targetCpu then (sched, -1)
  else
    let source := sched.runqueues.findIdx (·.has threadId)
    match sched.runqueues[source]?.bind (·.queue.find? (·.threadId = threadId)) with
    | none => (sched, -1)
    | some thread =>
      let dequeued := (cpuSchedulerDequeueThread sched source threadId).1
      if dequeued.queueLength targetCpu < maxSchedulableThreads then
        ({ dequeued with
          runqueues := dequeued.runqueues.modify targetCpu (·.push thread)
          totalMigrations := dequeued.totalMigrations + 1 }, 0)
      else (dequeued, -1)

/-- `cpu_scheduler_update_runqueue_loads`. -/
def cpuSchedulerUpdateRunqueueLoads (sched : CPUScheduler) : CPUScheduler × Int :=
  ({ sched with
    runqueues := sched.runqueues.map fun runqueue ↦
      { runqueue with load := runqueue.queue.length.toUInt32 } }, 0)

/-! ### Running threads -/

/-- The first of the best elements of a nonempty list, as a loop finds it. -/
def firstBest {Item : Type} (better : Item → Item → Bool) (first : Item) (rest : List Item) :
    Item :=
  rest.foldl (fun best item ↦ if better item best then item else best) first

/-- `cpu_scheduler_select_next_thread`. -/
def cpuSchedulerSelectNextThread (sched : CPUScheduler) (cpuId : ℕ) : UInt32 :=
  match sched.runqueues[cpuId]? with
  | none => 0
  | some runqueue =>
    match runqueue.queue with
    | [] => 0
    | first :: rest =>
      match sched.policy with
      | .cfs =>
        (firstBest (fun entry best ↦ entry.vruntimeNs < best.vruntimeNs) first rest).threadId
      | .rt => (firstBest (fun entry best ↦ best.priority < entry.priority) first rest).threadId
      | _ => first.threadId

/-- `cpu_scheduler_run_thread`. -/
def cpuSchedulerRunThread (sched : CPUScheduler) (cpuId : ℕ) (threadId : UInt32) :
    CPUScheduler × Int :=
  if sched.runqueues.length ≤ cpuId ∨ threadId = 0 then (sched, -1)
  else if sched.runqueues[cpuId]?.any (·.has threadId) then
    ({ sched with
      runqueues := sched.runqueues.modify cpuId fun runqueue ↦
        { runqueue with
          queue := updateFirst (·.threadId = threadId)
            (fun entry ↦
              { entry with state := .running, totalSchedules := entry.totalSchedules + 1 })
            runqueue.queue
          totalContextSwitches := runqueue.totalContextSwitches + 1
          activeTimeNs := runqueue.activeTimeNs + 1000000 } }, 0)
  else (sched, -1)

/-! ### Operations on the table of threads -/

/-- The operations that change the first entry of the table that they look for, which is one of a
thread whose id is not 0. -/
def onThread (sched : CPUScheduler) (threadId : UInt32) (test : ScheduleEntry → Bool)
    (change : ScheduleEntry → ScheduleEntry) : CPUScheduler × Int :=
  if threadId = 0 then (sched, -1)
  else if sched.threads.any fun entry ↦ entry.threadId = threadId && test entry then
    ({ sched with
      threads := updateFirst (fun entry ↦ entry.threadId = threadId && test entry) change
        sched.threads }, 0)
  else (sched, -1)

/-- `cpu_scheduler_update_vruntime`. -/
def cpuSchedulerUpdateVruntime (sched : CPUScheduler) (threadId : UInt32) (runtimeNs : UInt64) :
    CPUScheduler × Int :=
  onThread sched threadId (fun _ ↦ true) fun entry ↦
    { entry with
      vruntimeNs := entry.vruntimeNs + runtimeNs
      cpuTimeNs := entry.cpuTimeNs + runtimeNs }

/-- `cpu_scheduler_wake_up_thread`. -/
def cpuSchedulerWakeUpThread (sched : CPUScheduler) (threadId : UInt32) : CPUScheduler × Int :=
  onThread sched threadId (fun entry ↦ entry.state = .sleeping || entry.state = .blocked)
    fun entry ↦ { entry with state := .runnable }

/-- `cpu_scheduler_sleep_thread`. -/
def cpuSchedulerSleepThread (sched : CPUScheduler) (threadId : UInt32) : CPUScheduler × Int :=
  onThread sched threadId (·.state = .runnable) fun entry ↦ { entry with state := .sleeping }

/-! ### Calls -/

/-- A call on the scheduler. -/
inductive CpuCall
  | addRunqueue (cpuId : ℕ)
  | removeRunqueue (cpuId : ℕ)
  | enqueueThread (threadId processId : UInt32) (priority : Int) (cpuAffinity : UInt32)
  | dequeueThread (cpuId : ℕ) (threadId : UInt32)
  | migrateThread (threadId : UInt32) (targetCpu : ℕ)
  | updateRunqueueLoads
  | runThread (cpuId : ℕ) (threadId : UInt32)
  | updateVruntime (threadId : UInt32) (runtimeNs : UInt64)
  | wakeUpThread (threadId : UInt32)
  | sleepThread (threadId : UInt32)
  deriving DecidableEq, Repr

/-- The scheduler after a call. -/
def cpuStep (sched : CPUScheduler) : CpuCall → CPUScheduler
  | .addRunqueue cpuId => (cpuSchedulerAddRunqueue sched cpuId).1
  | .removeRunqueue cpuId => (cpuSchedulerRemoveRunqueue sched cpuId).1
  | .enqueueThread threadId processId priority cpuAffinity =>
    (cpuSchedulerEnqueueThread sched threadId processId priority cpuAffinity).1
  | .dequeueThread cpuId threadId => (cpuSchedulerDequeueThread sched cpuId threadId).1
  | .migrateThread threadId targetCpu => (cpuSchedulerMigrateThread sched threadId targetCpu).1
  | .updateRunqueueLoads => (cpuSchedulerUpdateRunqueueLoads sched).1
  | .runThread cpuId threadId => (cpuSchedulerRunThread sched cpuId threadId).1
  | .updateVruntime threadId runtimeNs => (cpuSchedulerUpdateVruntime sched threadId runtimeNs).1
  | .wakeUpThread threadId => (cpuSchedulerWakeUpThread sched threadId).1
  | .sleepThread threadId => (cpuSchedulerSleepThread sched threadId).1

/-- The call takes a remainder by zero: it enqueues a thread when there is no run queue. -/
def CpuCall.dividesByZero (sched : CPUScheduler) : CpuCall → Bool
  | .enqueueThread _ _ _ _ =>
    sched.threads.length < maxSchedulableThreads && sched.runqueues.isEmpty
  | _ => false

/-- What a call does in the program, which ends where a call divides by zero. -/
def cpuProgram : Option CPUScheduler → CpuCall → Option CPUScheduler :=
  endingStep (fun sched call ↦ call.dividesByZero sched) cpuStep

end OneOS.Scheduling.Cpu
