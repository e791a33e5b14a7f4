import Mathlib.Algebra.Order.Field.Rat
import OneOS.Foundation.Runs
import OneOS.Foundation.Table

/-!
# The real-time manager

`kernel/realtime.c`: a table of real-time tasks and the percentage of the processor that is reserved
for the hard ones. A task is admitted when there is enough of the processor left for it.

The percentage, which the source computes with floating-point numbers, is rational here. Left out
are the checks of pointers, the times at which tasks were created, the runtimes and the deadlines
that were missed, and the timers.
-/

set_option autoImplicit false
set_option relaxedAutoImplicit false

namespace OneOS.Realtime

open Foundation

/-! ### Tasks -/

/-- `MAX_RT_TASKS`. -/
def maxRtTasks : ℕ := 512

/-- `RTClass`. -/
inductive RtClass
  | hard
  | soft
  | firm
  deriving DecidableEq, Repr

/-- `RTTaskState`. -/
inductive RtTaskState
  | pending
  | ready
  | running
  | waiting
  | completed
  | missed
  deriving DecidableEq, Repr

/-- `RTTask`. -/
structure RtTask where
  taskId : UInt32
  rtClass : RtClass
  state : RtTaskState
  periodUs : ℤ
  deadlineUs : ℤ
  worstCaseTimeUs : ℤ
  priority : ℤ
  isPreemptible : Bool
  deriving DecidableEq, Repr

/-- The share of the processor that a task uses when it always runs as long as it can. -/
def RtTask.utilization (task : RtTask) : ℚ :=
  (task.worstCaseTimeUs : ℚ) / task.periodUs

/-- `RealtimeManager`, with the used rows of the table of tasks as a list. -/
structure RealtimeManager where
  tasks : List RtTask
  cpuReservationPercent : ℚ
  deriving DecidableEq, Repr

/-- `rt_init`. -/
def rtInit : RealtimeManager where
  tasks := []
  cpuReservationPercent := 0

/-- `rt_get_task`. -/
def rtGetTask (manager : RealtimeManager) (taskId : UInt32) : Option RtTask :=
  manager.tasks.find? (·.taskId = taskId)

/-! ### Operations -/

/-- The task that `rt_create_task` makes. -/
def newTask (taskId : UInt32) (rtClass : RtClass) (periodUs deadlineUs worstCaseUs : ℤ) :
    RtTask where
  taskId := taskId
  rtClass := rtClass
  state := .pending
  periodUs := periodUs
  deadlineUs := deadlineUs
  worstCaseTimeUs := worstCaseUs
  priority := if rtClass = .hard then 99 else 50
  isPreemptible := rtClass ≠ .hard

/-- `rt_create_task`. -/
def rtCreateTask (manager : RealtimeManager) (taskId : UInt32) (rtClass : RtClass)
    (periodUs deadlineUs worstCaseUs : ℤ) : RealtimeManager × UInt32 :=
  if maxRtTasks ≤ manager.tasks.length then (manager, 0)
  else if deadlineUs ≤ 0 ∨ worstCaseUs ≤ 0 then (manager, 0)
  else if manager.tasks.any (·.taskId = taskId) then (manager, 0)
  else
    let task := newTask taskId rtClass periodUs deadlineUs worstCaseUs
    ({ tasks := manager.tasks ++ [task]
       cpuReservationPercent :=
        if rtClass = .hard then manager.cpuReservationPercent + task.utilization * 100
        else manager.cpuReservationPercent }, taskId)

/-- `rt_delete_task`. -/
def rtDeleteTask (manager : RealtimeManager) (taskId : UInt32) : RealtimeManager × Int :=
  match rtGetTask manager taskId with
  | none => (manager, -1)
  | some task =>
    ({ tasks := manager.tasks.eraseP (·.taskId = taskId)
       cpuReservationPercent :=
        if task.rtClass = .hard then manager.cpuReservationPercent - task.utilization * 100
        else manager.cpuReservationPercent }, 0)

/-- The manager whose first task with an id is in a state. -/
def RealtimeManager.setState (manager : RealtimeManager) (taskId : UInt32) (state : RtTaskState) :
    RealtimeManager :=
  { manager with
    tasks := updateFirst (·.taskId = taskId) (fun task ↦ { task with state := state })
      manager.tasks }

/-- `rt_task_start`. -/
def rtTaskStart (manager : RealtimeManager) (taskId : UInt32) : RealtimeManager × Int :=
  match rtGetTask manager taskId with
  | none => (manager, -1)
  | some task =>
    if task.state = .pending then (manager.setState taskId .ready, 0) else (manager, -1)

/-- `rt_task_complete`. A hard task is ready again. -/
def rtTaskComplete (manager : RealtimeManager) (taskId : UInt32) : RealtimeManager × Int :=
  match rtGetTask manager taskId with
  | none => (manager, -1)
  | some task =>
    if task.state = .running then
      (manager.setState taskId (if task.rtClass = .hard then .ready else .completed), 0)
    else (manager, -1)

/-- `rt_admit_task`. -/
def rtAdmitTask (manager : RealtimeManager) (taskId : UInt32) : RealtimeManager × Int :=
  match rtGetTask manager taskId with
  | none => (manager, -1)
  | some task =>
    if task.rtClass = .hard ∧ 100 < manager.cpuReservationPercent + task.utilization * 100 then
      (manager, -1)
    else (manager.setState taskId .ready, 0)

/-! ### Calls -/

/-- A call to the manager. -/
inductive RtCall
  | createTask (taskId : UInt32) (rtClass : RtClass) (periodUs deadlineUs worstCaseUs : ℤ)
  | deleteTask (taskId : UInt32)
  | taskStart (taskId : UInt32)
  | taskComplete (taskId : UInt32)
  | admitTask (taskId : UInt32)
  deriving DecidableEq, Repr

/-- The manager after a call. -/
def rtStep (manager : RealtimeManager) : RtCall → RealtimeManager
  | .createTask taskId rtClass periodUs deadlineUs worstCaseUs =>
    (rtCreateTask manager taskId rtClass periodUs deadlineUs worstCaseUs).1
  | .deleteTask taskId => (rtDeleteTask manager taskId).1
  | .taskStart taskId => (rtTaskStart manager taskId).1
  | .taskComplete taskId => (rtTaskComplete manager taskId).1
  | .admitTask taskId => (rtAdmitTask manager taskId).1

end OneOS.Realtime
