import OneOS.Foundation.Runs
import OneOS.Foundation.Table

/-!
# The task scheduler

`advanced-scheduling/task_scheduler.c`: a table of tasks and a run queue for every core, whose slots
are pointers to tasks. A slot is modelled by the position of the task in the table, since tasks are
never removed from it. The name and the priority of a task, the times that are always 0, the policy,
which no operation reads, the metrics and the check of the pointer to the scheduler are left out.

There are always 128 run queues, of which the first `core_count` belong to a core. An operation that
takes a task id acts on the first task with that id.
-/

set_option autoImplicit false
set_option relaxedAutoImplicit false

namespace OneOS.Scheduling

open Foundation

/-! ### Tasks and run queues -/

/-- `MAX_TASKS`, the size of the table of tasks and of every run queue. -/
def maxTasks : ℕ := 4096

/-- `MAX_CPU_CORES`. -/
def maxCpuCores : ℕ := 128

/-- `TaskState`. -/
inductive TaskState
  | created
  | ready
  | running
  | waiting
  | blocked
  | suspended
  | terminated
  deriving DecidableEq, Repr

/-- `Task`. -/
structure Task where
  taskId : UInt32
  state : TaskState
  cpuAffinity : UInt32
  cpuTimeMs : UInt64
  contextSwitches : UInt32
  deriving DecidableEq, Repr

/-- `RunQueue`, with the used slots as a list. -/
structure RunQueue where
  tasks : List ℕ
  currentTaskIndex : UInt32
  timeSliceMs : UInt64
  deriving DecidableEq, Repr

/-- `TaskScheduler`, with the used rows of the table of tasks as a list, and the counter that
numbers tasks. -/
structure TaskScheduler where
  coreCount : UInt32
  runqueues : List RunQueue
  tasks : List Task
  totalSchedulingDecisions : UInt64
  totalPreemptions : UInt64
  nextTaskId : UInt32
  deriving DecidableEq, Repr

/-- `scheduler_init`. The counter that numbers tasks is shared by all schedulers of a process and
keeps its value. -/
def schedulerInit (coreCount nextTaskId : UInt32) : TaskScheduler where
  coreCount := if 128 < coreCount then 128 else coreCount
  runqueues := (List.range maxCpuCores).map fun i ↦
    { tasks := [], currentTaskIndex := 0, timeSliceMs := if i < coreCount.toNat then 10 else 0 }
  tasks := []
  totalSchedulingDecisions := 0
  totalPreemptions := 0
  nextTaskId := nextTaskId

/-- The affinity of a task that may run on all cores. -/
def allCores : UInt32 := 0xFFFFFFFF

/-- `scheduler_create_task`, which answers with the position of the task. `named` says whether the
call comes with a name. -/
def schedulerCreateTask (sched : TaskScheduler) (named : Bool) : TaskScheduler × Option ℕ :=
  if maxTasks ≤ sched.tasks.length ∨ named = false then (sched, none)
  else
    ({ sched with
      tasks := sched.tasks ++ [{
        taskId := sched.nextTaskId
        state := .created
        cpuAffinity := allCores
        cpuTimeMs := 0
        contextSwitches := 0 }]
      nextTaskId := sched.nextTaskId + 1 }, some sched.tasks.length)

/-! ### Operations on the first task with an id -/

/-- The operations that change the first task with an id, and fail when there is none. -/
def onTask (sched : TaskScheduler) (taskId : UInt32) (change : Task → Task) :
    TaskScheduler × Int :=
  if sched.tasks.any (·.taskId = taskId) then
    ({ sched with tasks := updateFirst (·.taskId = taskId) change sched.tasks }, 0)
  else (sched, -1)

/-- `scheduler_set_cpu_affinity`. -/
def schedulerSetCpuAffinity (sched : TaskScheduler) (taskId cpuMask : UInt32) :
    TaskScheduler × Int :=
  onTask sched taskId fun task ↦ { task with cpuAffinity := cpuMask }

/-- `scheduler_suspend_task`. -/
def schedulerSuspendTask (sched : TaskScheduler) (taskId : UInt32) : TaskScheduler × Int :=
  onTask sched taskId fun task ↦ { task with state := .suspended }

/-- `scheduler_terminate_task`. -/
def schedulerTerminateTask (sched : TaskScheduler) (taskId : UInt32) : TaskScheduler × Int :=
  onTask sched taskId fun task ↦ { task with state := .terminated }

/-! ### Run queues -/

/-- `task_count` of a run queue. -/
def TaskScheduler.taskCount (sched : TaskScheduler) (queue : ℕ) : ℕ :=
  (sched.runqueues[queue]?.map fun runqueue ↦ runqueue.tasks.length).getD 0

/-- The run queue for a task: the first core of its affinity, or queue 0 if there is none, and the
shorter one of queues 0 and 1 for a task that may run on all cores. -/
def TaskScheduler.targetQueue (sched : TaskScheduler) (cpuAffinity : UInt32) : ℕ :=
  if cpuAffinity ≠ allCores then
    ((List.range sched.coreCount.toNat).find? fun i ↦ cpuAffinity.toNat.testBit i).getD 0
  else if sched.taskCount 0 < sched.taskCount 1 then 0 else 1

/-- `scheduler_enqueue_task`. -/
def schedulerEnqueueTask (sched : TaskScheduler) (taskId : UInt32) : TaskScheduler × Int :=
  match sched.tasks.find? (·.taskId = taskId) with
  | none => (sched, -1)
  | some task =>
    let position := sched.tasks.findIdx (·.taskId = taskId)
    let target := sched.targetQueue task.cpuAffinity
    let tasks := updateFirst (·.taskId = taskId) (fun task ↦ { task with state := .ready })
      sched.tasks
    if sched.taskCount target < maxTasks then
      ({ sched with
        tasks := tasks
        runqueues := sched.runqueues.modify target fun runqueue ↦
          { runqueue with tasks := runqueue.tasks ++ [position] } }, 0)
    else ({ sched with tasks := tasks }, -1)

/-- `scheduler_resume_task`. The task that is resumed is the first one with the id that is
suspended; the task that is put on a run queue is the first one with the id. -/
def schedulerResumeTask (sched : TaskScheduler) (taskId : UInt32) : TaskScheduler × Int :=
  if sched.tasks.any fun task ↦ task.taskId = taskId ∧ task.state = .suspended then
    schedulerEnqueueTask
      { sched with
        tasks := updateFirst (fun task ↦ task.taskId = taskId ∧ task.state = .suspended)
          (fun task ↦ { task with state := .ready }) sched.tasks } taskId
  else (sched, -1)

/-- `scheduler_dequeue_task`, which takes nothing off the run queue but goes on to its next slot. -/
def schedulerDequeueTask (sched : TaskScheduler) (runqueueId : UInt32) : TaskScheduler × Int :=
  if sched.coreCount ≤ runqueueId then (sched, -1)
  else if sched.taskCount runqueueId.toNat = 0 then (sched, -1)
  else
    ({ sched with
      runqueues := sched.runqueues.modify runqueueId.toNat fun runqueue ↦
        { runqueue with
          currentTaskIndex :=
            (runqueue.currentTaskIndex + 1) % runqueue.tasks.length.toUInt32 } }, 0)

/-- `scheduler_select_next_task`. -/
def schedulerSelectNextTask (sched : TaskScheduler) (cpuCore : UInt32) : Option ℕ :=
  if sched.coreCount ≤ cpuCore then none
  else
    match sched.runqueues[cpuCore.toNat]? with
    | none => none
    | some runqueue =>
      if runqueue.tasks.length = 0 then none
      else runqueue.tasks[runqueue.currentTaskIndex.toNat]?

/-! ### Switching -/

/-- `scheduler_context_switch`. All tasks with one of the two ids are switched. -/
def schedulerContextSwitch (sched : TaskScheduler) (fromTaskId toTaskId : UInt32) :
    TaskScheduler × Int :=
  let switchFrom (task : Task) : Task :=
    if task.taskId = fromTaskId then
      { task with state := .ready, contextSwitches := task.contextSwitches + 1 }
    else task
  let switchTo (task : Task) : Task :=
    if task.taskId = toTaskId then
      { task with state := .running, contextSwitches := task.contextSwitches + 1 }
    else task
  ({ sched with
    tasks := sched.tasks.map fun task ↦ switchTo (switchFrom task)
    totalPreemptions := sched.totalPreemptions + 1 }, 0)

/-- One round of the loop of `scheduler_run_scheduling_cycle`: the current task of a run queue, if
it is ready, runs for the time slice of the queue. -/
def runCore (runqueues : List RunQueue) (tasks : List Task) (core : ℕ) : List Task :=
  match runqueues[core]? with
  | none => tasks
  | some runqueue =>
    match runqueue.tasks[runqueue.currentTaskIndex.toNat]? with
    | none => tasks
    | some position => tasks.modify position fun task ↦
        if task.state = .ready then
          { task with state := .running, cpuTimeMs := task.cpuTimeMs + runqueue.timeSliceMs }
        else task

/-- `scheduler_run_scheduling_cycle`. -/
def schedulerRunSchedulingCycle (sched : TaskScheduler) : TaskScheduler × Int :=
  ({ sched with
    totalSchedulingDecisions := sched.totalSchedulingDecisions + 1
    tasks := (List.range sched.coreCount.toNat).foldl (runCore sched.runqueues) sched.tasks }, 0)

/-! ### Calls -/

/-- A call on the scheduler. -/
inductive SchedulerCall
  | createTask (named : Bool)
  | enqueueTask (taskId : UInt32)
  | dequeueTask (runqueueId : UInt32)
  | suspendTask (taskId : UInt32)
  | resumeTask (taskId : UInt32)
  | terminateTask (taskId : UInt32)
  | setCpuAffinity (taskId cpuMask : UInt32)
  | contextSwitch (fromTaskId toTaskId : UInt32)
  | runSchedulingCycle
  deriving DecidableEq, Repr

/-- The scheduler after a call. -/
def schedulerStep (sched : TaskScheduler) : SchedulerCall → TaskScheduler
  | .createTask named => (schedulerCreateTask sched named).1
  | .enqueueTask taskId => (schedulerEnqueueTask sched taskId).1
  | .dequeueTask runqueueId => (schedulerDequeueTask sched runqueueId).1
  | .suspendTask taskId => (schedulerSuspendTask sched taskId).1
  | .resumeTask taskId => (schedulerResumeTask sched taskId).1
  | .terminateTask taskId => (schedulerTerminateTask sched taskId).1
  | .setCpuAffinity taskId cpuMask => (schedulerSetCpuAffinity sched taskId cpuMask).1
  | .contextSwitch fromTaskId toTaskId => (schedulerContextSwitch sched fromTaskId toTaskId).1
  | .runSchedulingCycle => (schedulerRunSchedulingCycle sched).1

end OneOS.Scheduling
