import OneOS.Scheduling.TaskStates

/-!
# Affinity

A task that is enqueued should be put on the run queue of a core that its affinity allows, and if
there is no such core, it should be refused and nothing be changed (`HonoursAffinity`).

`scheduler_enqueue_task` chooses queue 0 when the affinity allows no core, and puts the task there;
when that queue is full, it has already marked the task as ready. For a task that may run on all
cores it chooses between the queues 0 and 1 whatever the number of cores, so that with one core the
task may be put on a queue that belongs to none.

`affinity_iff`: these are the only ways to go wrong (`AffinityFits`).
-/

set_option autoImplicit false
set_option relaxedAutoImplicit false

namespace OneOS.Scheduling

open Foundation

/-! ### Cores that a task may run on -/

/-- The affinity of a task allows a core of the scheduler. -/
def TaskScheduler.MayRunOn (sched : TaskScheduler) (task : Task) (core : ℕ) : Prop :=
  core < sched.coreCount.toNat ∧ task.cpuAffinity.toNat.testBit core = true

/-- The task at a position is appended to the run queue of a core, and the other run queues stay. -/
def AppendedTo (before after : TaskScheduler) (position core : ℕ) : Prop :=
  ∃ runqueue, before.runqueues[core]? = some runqueue ∧
    after.runqueues =
      before.runqueues.set core { runqueue with tasks := runqueue.tasks ++ [position] }

/-- What is claimed of the first task with an id when it is enqueued. -/
structure HonoursAffinity (sched : TaskScheduler) (taskId : UInt32) (task : Task) : Prop where
  allowed : (schedulerEnqueueTask sched taskId).2 = 0 →
    ∃ core, sched.MayRunOn task core ∧
      AppendedTo sched (schedulerEnqueueTask sched taskId).1 (sched.firstWith taskId) core
  nowhere : (¬ ∃ core, sched.MayRunOn task core) → schedulerEnqueueTask sched taskId = (sched, -1)

/-- The condition on a task. If it may run on all cores and there is only one, queue 0 is shorter
than queue 1 or queue 1 is full; if it may run on no core, it is ready already and queue 0 is
full. -/
structure AffinityFits (sched : TaskScheduler) (task : Task) : Prop where
  single : task.cpuAffinity = allCores → sched.coreCount = 1 →
    sched.taskCount 0 < sched.taskCount 1 ∨ maxTasks ≤ sched.taskCount 1
  nowhere : (¬ ∃ core, sched.MayRunOn task core) →
    task.state = .ready ∧ maxTasks ≤ sched.taskCount 0

variable {sched : TaskScheduler} {task : Task} {taskId : UInt32} {core : ℕ}

/-- An affinity for all cores has the bits of the first 32 cores. -/
theorem testBit_allCores (hcore : core < 32) : allCores.toNat.testBit core = true := by
  have hbits : ∀ core < 32, allCores.toNat.testBit core = true := by decide
  exact hbits core hcore

/-- Assumes: there is a core. A task that may run on all cores may run on core 0. -/
theorem mayRunOn_zero (hcores : 1 ≤ sched.coreCount) (hall : task.cpuAffinity = allCores) :
    sched.MayRunOn task 0 :=
  ⟨UInt32.le_iff_toNat_le.mp hcores, hall ▸ testBit_allCores (by decide)⟩

/-- A task with an affinity of its own that allows a core is meant for such a core. -/
theorem mayRunOn_targetQueue (hown : task.cpuAffinity ≠ allCores)
    (hsome : ∃ core, sched.MayRunOn task core) :
    sched.MayRunOn task (sched.targetQueue task.cpuAffinity) := by
  obtain ⟨core, hcore, hbit⟩ := hsome
  rw [TaskScheduler.targetQueue, if_pos hown]
  cases hfind : (List.range sched.coreCount.toNat).find?
      fun i ↦ task.cpuAffinity.toNat.testBit i with
  | none => exact absurd hbit (List.find?_eq_none.mp hfind core (List.mem_range.mpr hcore))
  | some first =>
    exact ⟨List.mem_range.mp (List.mem_of_find?_eq_some hfind), List.find?_some hfind⟩

/-- A task that may run on no core is meant for queue 0. -/
theorem targetQueue_of_none (hown : task.cpuAffinity ≠ allCores)
    (hnone : ¬ ∃ core, sched.MayRunOn task core) : sched.targetQueue task.cpuAffinity = 0 := by
  have hfind : (List.range sched.coreCount.toNat).find?
      (fun i ↦ task.cpuAffinity.toNat.testBit i) = none :=
    List.find?_eq_none.mpr fun core hcore hbit ↦ hnone ⟨core, List.mem_range.mp hcore, hbit⟩
  rw [TaskScheduler.targetQueue, if_pos hown, hfind, Option.getD_none]

/-! ### What enqueuing a task does -/

/-- A task that is enqueued is marked as ready, and it is put on the queue that it is meant for if
there is room. -/
theorem schedulerEnqueueTask_eq
    (hfind : sched.tasks.find? (·.taskId = taskId) = some task) :
    schedulerEnqueueTask sched taskId =
      if sched.taskCount (sched.targetQueue task.cpuAffinity) < maxTasks then
        ({ sched.setState taskId .ready with
          runqueues := sched.runqueues.modify (sched.targetQueue task.cpuAffinity) fun runqueue ↦
            { runqueue with tasks := runqueue.tasks ++ [sched.firstWith taskId] } }, 0)
      else (sched.setState taskId .ready, -1) := by
  rw [schedulerEnqueueTask, hfind]
  rfl

/-- Assumes: a task is put on the queue that it is meant for. It is appended to that queue and to no
other. -/
theorem appendedTo_iff (hplace : QueuesInPlace sched)
    (hfind : sched.tasks.find? (·.taskId = taskId) = some task)
    (hroom : sched.taskCount (sched.targetQueue task.cpuAffinity) < maxTasks) :
    AppendedTo sched (schedulerEnqueueTask sched taskId).1 (sched.firstWith taskId) core ↔
      core = sched.targetQueue task.cpuAffinity := by
  have htarget := List.getElem?_eq_getElem (targetQueue_lt hplace task.cpuAffinity)
  rw [schedulerEnqueueTask_eq hfind, if_pos hroom, AppendedTo]
  dsimp only
  rw [List.modify_eq_set_getElem?, htarget]
  constructor
  · rintro ⟨runqueue, -, hsame⟩
    by_contra hother
    -- a queue that is not the one of the core would have to stay
    have hat := congrArg (·[sched.targetQueue task.cpuAffinity]?) hsame
    rw [List.getElem?_set_ne hother, htarget, Option.map_eq_map, Option.map_some, Option.getD_some,
      List.getElem?_set_self (targetQueue_lt hplace task.cpuAffinity), Option.some.injEq] at hat
    have hlength := congrArg (fun runqueue ↦ runqueue.tasks.length) hat
    rw [List.length_append, List.length_singleton] at hlength
    exact Nat.succ_ne_self _ hlength
  · rintro rfl
    exact ⟨_, htarget, rfl⟩

/-- Marking a task as ready leaves the scheduler exactly when the task is ready already. -/
theorem setState_ready_eq_self_iff
    (hfind : sched.tasks.find? (·.taskId = taskId) = some task) :
    sched.setState taskId .ready = sched ↔ task.state = .ready := by
  constructor
  · intro hsame
    obtain ⟨i, hbefore, hafter⟩ : ∃ i : ℕ, sched.tasks[i]? = some task ∧
        (sched.setState taskId .ready).tasks[i]? = some { task with state := .ready } :=
      getElem?_updateFirst_of_find? hfind
    rw [hsame, hbefore, Option.some.injEq] at hafter
    exact congrArg Task.state hafter
  · intro hready
    rw [TaskScheduler.setState, updateFirst_eq_self hfind]
    rw [← hready]

/-- Assumes: the affinity of a task allows a core. It is honoured exactly when the queue that the
task is meant for is full or that of such a core. -/
theorem honoursAffinity_iff_of_some (hplace : QueuesInPlace sched)
    (hfind : sched.tasks.find? (·.taskId = taskId) = some task)
    (hsome : ∃ core, sched.MayRunOn task core) :
    HonoursAffinity sched taskId task ↔
      (sched.taskCount (sched.targetQueue task.cpuAffinity) < maxTasks →
        sched.MayRunOn task (sched.targetQueue task.cpuAffinity)) := by
  constructor
  · intro hhonours hroom
    obtain ⟨core, hmay, happended⟩ := hhonours.allowed (by
      rw [schedulerEnqueueTask_eq hfind, if_pos hroom])
    rwa [(appendedTo_iff hplace hfind hroom).mp happended] at hmay
  · intro hmeant
    refine ⟨fun haccepted ↦ ?_, fun hnone ↦ absurd hsome hnone⟩
    have hroom : sched.taskCount (sched.targetQueue task.cpuAffinity) < maxTasks := by
      by_contra hfull
      rw [schedulerEnqueueTask_eq hfind, if_neg hfull] at haccepted
      exact absurd haccepted (show (-1 : Int) ≠ 0 by decide)
    exact ⟨_, hmeant hroom, (appendedTo_iff hplace hfind hroom).mpr rfl⟩

/-- Assumes: the affinity of a task allows no core, and it is not the one for all cores. It is
honoured exactly when the task is ready already and queue 0 is full. -/
theorem honoursAffinity_iff_of_none (hfind : sched.tasks.find? (·.taskId = taskId) = some task)
    (hown : task.cpuAffinity ≠ allCores) (hnone : ¬ ∃ core, sched.MayRunOn task core) :
    HonoursAffinity sched taskId task ↔ task.state = .ready ∧ maxTasks ≤ sched.taskCount 0 := by
  have htarget := targetQueue_of_none hown hnone
  have hqueued := schedulerEnqueueTask_eq hfind
  rw [htarget] at hqueued
  constructor
  · intro hhonours
    have hrefused := hhonours.nowhere hnone
    rw [hqueued] at hrefused
    split_ifs at hrefused with hroom
    · exact absurd (congrArg Prod.snd hrefused) (show (0 : Int) ≠ -1 by decide)
    · exact ⟨(setState_ready_eq_self_iff hfind).mp (congrArg Prod.fst hrefused),
        Nat.not_lt.mp hroom⟩
  · rintro ⟨hready, hfull⟩
    rw [if_neg (Nat.not_lt.mpr hfull), (setState_ready_eq_self_iff hfind).mpr hready] at hqueued
    refine ⟨fun haccepted ↦ ?_, fun _ ↦ hqueued⟩
    rw [hqueued] at haccepted
    exact absurd haccepted (show (-1 : Int) ≠ 0 by decide)

/-- Assumes: there is a core. The affinity of a task is honoured exactly when the task meets the
condition. -/
theorem honoursAffinity_iff (hplace : QueuesInPlace sched) (hcores : 1 ≤ sched.coreCount)
    (hfind : sched.tasks.find? (·.taskId = taskId) = some task) :
    HonoursAffinity sched taskId task ↔ AffinityFits sched task := by
  by_cases hall : task.cpuAffinity = allCores
  · have hzero := mayRunOn_zero hcores hall
    have hone : sched.MayRunOn task 1 ↔ ¬ sched.coreCount = 1 := by
      rw [TaskScheduler.MayRunOn, hall, and_iff_left (testBit_allCores (by decide)),
        ← UInt32.toNat_inj]
      have hpos : 1 ≤ sched.coreCount.toNat := UInt32.le_iff_toNat_le.mp hcores
      show 1 < sched.coreCount.toNat ↔ ¬ sched.coreCount.toNat = 1
      omega
    rw [honoursAffinity_iff_of_some hplace hfind ⟨0, hzero⟩, TaskScheduler.targetQueue,
      if_neg (not_not.mpr hall)]
    constructor
    · intro hmeant
      refine ⟨fun _ hsingle ↦ ?_, fun hnone ↦ absurd ⟨0, hzero⟩ hnone⟩
      by_cases hshorter : sched.taskCount 0 < sched.taskCount 1
      · exact Or.inl hshorter
      · refine Or.inr (Nat.not_lt.mp fun hroom ↦ ?_)
        rw [if_neg hshorter] at hmeant
        exact hone.mp (hmeant hroom) hsingle
    · intro hfits
      split_ifs with hshorter
      · exact fun _ ↦ hzero
      · intro hroom
        refine hone.mpr fun hsingle ↦ ?_
        rcases hfits.single hall hsingle with hless | hfull
        · exact hshorter hless
        · exact Nat.not_lt.mpr hfull hroom
  · by_cases hsome : ∃ core, sched.MayRunOn task core
    · rw [honoursAffinity_iff_of_some hplace hfind hsome]
      exact iff_of_true (fun _ ↦ mayRunOn_targetQueue hall hsome)
        ⟨fun hmask ↦ absurd hmask hall, fun hnone ↦ absurd hsome hnone⟩
    · rw [honoursAffinity_iff_of_none hfind hall hsome]
      exact ⟨fun hfull ↦ ⟨fun hmask ↦ absurd hmask hall, fun _ ↦ hfull⟩,
        fun hfits ↦ hfits.nowhere hsome⟩

/-! ### Runs -/

/-- Enqueuing a task keeps the number of cores. -/
theorem coreCount_schedulerEnqueueTask (sched : TaskScheduler) (taskId : UInt32) :
    (schedulerEnqueueTask sched taskId).1.coreCount = sched.coreCount := by
  rw [schedulerEnqueueTask]
  cases sched.tasks.find? (·.taskId = taskId) with
  | none => rfl
  | some task =>
    dsimp only
    split_ifs <;> rfl

/-- Every operation keeps the number of cores. -/
theorem coreCount_operationStep (sched : TaskScheduler) (operation : SchedulerOperation) :
    (operationStep sched operation).coreCount = sched.coreCount := by
  have honTask (taskId : UInt32) (change : Task → Task) :
      (onTask sched taskId change).1.coreCount = sched.coreCount := by
    unfold onTask
    split_ifs <;> rfl
  cases operation with
  | call call =>
    rw [operationStep]
    cases call with
    | createTask named =>
      rw [schedulerStep, schedulerCreateTask]
      split_ifs <;> rfl
    | enqueueTask taskId => exact coreCount_schedulerEnqueueTask sched taskId
    | dequeueTask runqueueId =>
      rw [schedulerStep, schedulerDequeueTask]
      split_ifs <;> rfl
    | suspendTask taskId => exact honTask taskId _
    | resumeTask taskId =>
      rw [schedulerStep, schedulerResumeTask]
      split_ifs
      · exact coreCount_schedulerEnqueueTask _ taskId
      · rfl
    | terminateTask taskId => exact honTask taskId _
    | setCpuAffinity taskId cpuMask => exact honTask taskId _
    | contextSwitch fromTaskId toTaskId => rfl
    | runSchedulingCycle => rfl
  | destroyTask taskId => exact honTask taskId _
  | setTimeSlice timeSliceMs =>
    rw [operationStep, schedulerSetTimeSlice]
    split_ifs <;> rfl

/-- Every operation keeps the run queues in place. -/
theorem queuesInPlace_operationStep (hplace : QueuesInPlace sched)
    (operation : SchedulerOperation) : QueuesInPlace (operationStep sched operation) := by
  cases operation with
  | call call => exact queuesInPlace_step hplace call
  | destroyTask taskId => exact queuesInPlace_step hplace (.terminateTask taskId)
  | setTimeSlice timeSliceMs =>
    rw [operationStep, schedulerSetTimeSlice]
    split_ifs
    · exact hplace
    · exact ⟨List.length_mapIdx.trans hplace.queues, hplace.cores⟩

/-- In every state that a run of a fresh scheduler with a core reaches, enqueuing the first task
with an id honours its affinity exactly when the task meets the condition. -/
theorem affinity_iff (coreCount nextTaskId : UInt32) (hcores : 1 ≤ coreCount)
    (operations : List SchedulerOperation) (taskId : UInt32) (task : Task)
    (hfind : (runFrom operationStep (schedulerInit coreCount nextTaskId) operations).tasks.find?
      (·.taskId = taskId) = some task) :
    HonoursAffinity (runFrom operationStep (schedulerInit coreCount nextTaskId) operations)
        taskId task ↔
      AffinityFits (runFrom operationStep (schedulerInit coreCount nextTaskId) operations)
        task := by
  have hstart : QueuesInPlace (schedulerInit coreCount nextTaskId) ∧
      1 ≤ (schedulerInit coreCount nextTaskId).coreCount := by
    refine ⟨(queuesInPlace_schedulerInit coreCount nextTaskId).1, ?_⟩
    unfold schedulerInit
    dsimp only
    split_ifs
    · decide
    · exact hcores
  obtain ⟨hplace, hkept⟩ :=
    runFrom_invariant (fun sched ↦ QueuesInPlace sched ∧ 1 ≤ sched.coreCount) (fun _ _ ↦ True)
      (fun sched operation hbefore _ ↦
        ⟨queuesInPlace_operationStep hbefore.1 operation,
          (coreCount_operationStep sched operation).symm ▸ hbefore.2⟩)
      hstart (everyStep_of_forall_mem fun _ _ ↦ trivial : EveryStep operationStep _ _ operations)
  exact honoursAffinity_iff hplace hkept hfind

/-- The first task that a scheduler creates, when its id is 1. -/
def firstTask : Task where
  taskId := 1
  state := .created
  cpuAffinity := allCores
  cpuTimeMs := 0
  contextSwitches := 0

/-- The first task of a scheduler with two cores is enqueued. -/
theorem affinity_two_cores :
    (runFrom operationStep (schedulerInit 2 1) [.call (.createTask true)]).tasks.find?
        (·.taskId = 1) = some firstTask ∧
      (HonoursAffinity (runFrom operationStep (schedulerInit 2 1) [.call (.createTask true)]) 1
          firstTask ↔
        AffinityFits (runFrom operationStep (schedulerInit 2 1) [.call (.createTask true)])
          firstTask) :=
  ⟨by decide +kernel, affinity_iff 2 1 (by decide) _ 1 _ (by decide +kernel)⟩

/-- A task that may run on all cores of a scheduler with one core is put on queue 1. -/
theorem not_honoursAffinity_single_core :
    ¬ HonoursAffinity (runFrom operationStep (schedulerInit 1 1) [.call (.createTask true)]) 1
      firstTask := by
  intro hhonours
  obtain ⟨core, ⟨hcore, -⟩, runqueue, hqueue, hafter⟩ := hhonours.allowed (by decide +kernel)
  have hzero : core = 0 := Nat.lt_one_iff.mp hcore
  subst hzero
  -- queue 1 would have to be as before
  have hat := congrArg (fun queues ↦ queues[1]?.map fun runqueue ↦ runqueue.tasks.length) hafter
  rw [List.getElem?_set_ne (by decide)] at hat
  revert hat
  decide +kernel

end OneOS.Scheduling
