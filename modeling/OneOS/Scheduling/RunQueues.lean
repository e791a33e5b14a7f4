import Mathlib.Data.List.Nodup
import OneOS.Scheduling.TaskScheduler

/-!
# Slots of the run queues

A task should have at most one slot in all run queues together, so that no two cores select it
(`OneSlotEach`, `SelectsApart`). `scheduler_enqueue_task` adds a slot without looking whether the
task has one, and nothing ever removes a slot: `scheduler_dequeue_task` goes on to the next one, and
a task that is suspended keeps its slot and gets another one when it is resumed.

`oneSlot_iff` says that these two operations are all that can go wrong: a run is as it should be
exactly when every task that is put on a run queue has no slot yet.
-/

set_option autoImplicit false
set_option relaxedAutoImplicit false

namespace OneOS.Scheduling

open Foundation

/-! ### Slots -/

/-- The tasks in the slots of all run queues. -/
def TaskScheduler.slots (sched : TaskScheduler) : List ℕ :=
  sched.runqueues.flatMap RunQueue.tasks

/-- Two cores for which the same task is selected are the same. -/
def SelectsApart (sched : TaskScheduler) : Prop :=
  ∀ first second task, schedulerSelectNextTask sched first = some task →
    schedulerSelectNextTask sched second = some task → first = second

/-- Every task has at most one slot, and no two cores select the same task. -/
structure OneSlotEach (sched : TaskScheduler) : Prop where
  distinct : sched.slots.Nodup
  apart : SelectsApart sched

/-- The first task with the id, if it is put on a run queue with room, has no slot. -/
def NoSlotYet (sched : TaskScheduler) (taskId : UInt32) : Prop :=
  ∀ task, sched.tasks.find? (·.taskId = taskId) = some task →
    sched.taskCount (sched.targetQueue task.cpuAffinity) < maxTasks →
      sched.tasks.findIdx (·.taskId = taskId) ∉ sched.slots

/-- The condition on a call: a task that is enqueued, or resumed while it is suspended, has no slot
yet. -/
def EnqueuesFresh (sched : TaskScheduler) : SchedulerCall → Prop
  | .enqueueTask taskId => NoSlotYet sched taskId
  | .resumeTask taskId =>
    (∃ task ∈ sched.tasks, task.taskId = taskId ∧ task.state = .suspended) → NoSlotYet sched taskId
  | _ => True

variable {sched : TaskScheduler} {call : SchedulerCall} {taskId : UInt32}

/-! ### Cores that select a task -/

/-- A task that is selected for a core is in the run queue of that core. -/
theorem schedulerSelectNextTask_mem {cpuCore : UInt32} {task : ℕ}
    (hselect : schedulerSelectNextTask sched cpuCore = some task) :
    ∃ runqueue, sched.runqueues[cpuCore.toNat]? = some runqueue ∧ task ∈ runqueue.tasks := by
  unfold schedulerSelectNextTask at hselect
  split_ifs at hselect
  cases hqueue : sched.runqueues[cpuCore.toNat]? with
  | none => simp [hqueue] at hselect
  | some runqueue =>
    simp only [hqueue] at hselect
    split_ifs at hselect
    exact ⟨runqueue, rfl, List.mem_of_getElem? hselect⟩

/-- When every task has at most one slot, no two cores select the same task. -/
theorem selectsApart_of_nodup (hdistinct : sched.slots.Nodup) : SelectsApart sched := by
  intro first second task hfirst hsecond
  obtain ⟨firstQueue, hfirstAt, hfirstMem⟩ := schedulerSelectNextTask_mem hfirst
  obtain ⟨secondQueue, hsecondAt, hsecondMem⟩ := schedulerSelectNextTask_mem hsecond
  have hsame := getElem?_inj_of_nodup_flatMap hdistinct hfirstAt hsecondAt hfirstMem hsecondMem
  exact UInt32.toNat_inj.mp hsame

/-- All that is asked of the slots is that no task has two. -/
theorem oneSlotEach_iff : OneSlotEach sched ↔ sched.slots.Nodup :=
  ⟨fun hone ↦ hone.distinct, fun hdistinct ↦ ⟨hdistinct, selectsApart_of_nodup hdistinct⟩⟩

/-! ### What one call does to the slots -/

/-- There is a run queue for every core. -/
structure QueuesInPlace (sched : TaskScheduler) : Prop where
  queues : sched.runqueues.length = maxCpuCores
  cores : sched.coreCount.toNat ≤ maxCpuCores

theorem QueuesInPlace.with_tasks (hplace : QueuesInPlace sched) (tasks : List Task) :
    QueuesInPlace { sched with tasks := tasks } :=
  ⟨hplace.queues, hplace.cores⟩

/-- The run queue for a task is one of the table. -/
theorem targetQueue_lt (hplace : QueuesInPlace sched) (cpuAffinity : UInt32) :
    sched.targetQueue cpuAffinity < sched.runqueues.length := by
  have hcores := hplace.cores
  rw [hplace.queues, TaskScheduler.targetQueue]
  split_ifs
  · cases hfind : (List.range sched.coreCount.toNat).find? fun i ↦ cpuAffinity.toNat.testBit i with
    | none => decide
    | some core =>
      have hcore := List.mem_range.mp (List.mem_of_find?_eq_some hfind)
      exact hcore.trans_le hcores
  · decide
  · decide

/-- Assumes: no task has two slots. The same is true after a task has been enqueued exactly when it
had no slot yet. -/
theorem nodup_slots_schedulerEnqueueTask (hplace : QueuesInPlace sched)
    (hdistinct : sched.slots.Nodup) :
    (schedulerEnqueueTask sched taskId).1.slots.Nodup ↔ NoSlotYet sched taskId := by
  rw [NoSlotYet, schedulerEnqueueTask]
  cases hfind : sched.tasks.find? (·.taskId = taskId) with
  | none => exact iff_of_true hdistinct (by simp)
  | some task =>
    simp only [Option.some.injEq, forall_eq']
    split_ifs with hroom
    · have hperm : (sched.runqueues.modify (sched.targetQueue task.cpuAffinity) fun runqueue ↦
          { runqueue with
            tasks := runqueue.tasks ++ [sched.tasks.findIdx (·.taskId = taskId)] }).flatMap
          RunQueue.tasks |>.Perm (sched.tasks.findIdx (·.taskId = taskId) :: sched.slots) :=
        flatMap_modify_perm (fun _ ↦ rfl) (targetQueue_lt hplace task.cpuAffinity)
      rw [TaskScheduler.slots, hperm.nodup_iff, List.nodup_cons, and_iff_left hdistinct]
      exact ⟨fun hfresh _ ↦ hfresh, fun hfresh ↦ hfresh hroom⟩
    · exact iff_of_true hdistinct fun hfits ↦ absurd hfits hroom

/-- Whether a task gets a second slot depends only on the run queues and on the ids and the
affinities of the tasks. -/
theorem NoSlotYet.of_same {other : TaskScheduler} (hnew : NoSlotYet sched taskId)
    (hqueues : other.runqueues = sched.runqueues) (hcores : other.coreCount = sched.coreCount)
    (htasks : other.tasks.map (fun task ↦ (task.taskId, task.cpuAffinity)) =
      sched.tasks.map fun task ↦ (task.taskId, task.cpuAffinity)) : NoSlotYet other taskId := by
  have hfind (tasks : List Task) :
      (tasks.find? (·.taskId = taskId)).map (fun task ↦ (task.taskId, task.cpuAffinity)) =
        (tasks.map fun task ↦ (task.taskId, task.cpuAffinity)).find? (·.1 = taskId) := by
    rw [List.find?_map]
    rfl
  have hposition (tasks : List Task) : tasks.findIdx (·.taskId = taskId) =
      (tasks.map fun task ↦ (task.taskId, task.cpuAffinity)).findIdx (·.1 = taskId) := by
    rw [List.findIdx_map]
    rfl
  intro task htask hroom
  have hback := hfind sched.tasks
  rw [← htasks, ← hfind, htask, Option.map_some] at hback
  obtain ⟨old, hold, hsame⟩ := Option.map_eq_some_iff.mp hback
  have haffinity : old.cpuAffinity = task.cpuAffinity := congrArg Prod.snd hsame
  have hfresh := hnew old hold
  rw [haffinity, hposition, ← htasks, ← hposition] at hfresh
  simp only [TaskScheduler.slots, TaskScheduler.taskCount, TaskScheduler.targetQueue, hqueues,
    hcores] at hfresh hroom ⊢
  exact hfresh hroom

/-- A call other than `scheduler_enqueue_task` and `scheduler_resume_task` leaves all slots. -/
theorem slots_schedulerStep (henqueue : ∀ taskId, call ≠ .enqueueTask taskId)
    (hresume : ∀ taskId, call ≠ .resumeTask taskId) :
    (schedulerStep sched call).slots = sched.slots := by
  have honTask (taskId : UInt32) (change : Task → Task) :
      (onTask sched taskId change).1.slots = sched.slots := by
    unfold onTask
    split_ifs
    · rfl
    · rfl
  cases call with
  | createTask named =>
    rw [schedulerStep, schedulerCreateTask]
    split_ifs
    · rfl
    · rfl
  | enqueueTask taskId => exact absurd rfl (henqueue taskId)
  | dequeueTask runqueueId =>
    rw [schedulerStep, schedulerDequeueTask]
    split_ifs
    · rfl
    · rfl
    · rw [TaskScheduler.slots, TaskScheduler.slots, List.flatMap_def, List.flatMap_def]
      exact congrArg List.flatten (map_modify_of_keep (by intro; rfl) runqueueId.toNat)
  | suspendTask taskId => exact honTask taskId _
  | resumeTask taskId => exact absurd rfl (hresume taskId)
  | terminateTask taskId => exact honTask taskId _
  | setCpuAffinity taskId cpuMask => exact honTask taskId _
  | contextSwitch fromTaskId toTaskId => rfl
  | runSchedulingCycle => rfl

/-- Enqueuing a task keeps the run queues in place. -/
theorem QueuesInPlace.schedulerEnqueueTask (hplace : QueuesInPlace sched) (taskId : UInt32) :
    QueuesInPlace (schedulerEnqueueTask sched taskId).1 := by
  rw [Scheduling.schedulerEnqueueTask]
  cases sched.tasks.find? (·.taskId = taskId) with
  | none => exact hplace
  | some task =>
    simp only
    split_ifs
    · exact ⟨(List.length_modify _ _ _).trans hplace.queues, hplace.cores⟩
    · exact hplace.with_tasks _

/-- Every call keeps the run queues in place. -/
theorem queuesInPlace_step (hplace : QueuesInPlace sched) (call : SchedulerCall) :
    QueuesInPlace (schedulerStep sched call) := by
  have honTask (taskId : UInt32) (change : Task → Task) :
      QueuesInPlace (onTask sched taskId change).1 := by
    unfold onTask
    split_ifs
    · exact hplace.with_tasks _
    · exact hplace
  cases call with
  | createTask named =>
    rw [schedulerStep, schedulerCreateTask]
    split_ifs
    · exact hplace
    · exact ⟨hplace.queues, hplace.cores⟩
  | enqueueTask taskId => exact hplace.schedulerEnqueueTask taskId
  | dequeueTask runqueueId =>
    rw [schedulerStep, schedulerDequeueTask]
    split_ifs
    · exact hplace
    · exact hplace
    · exact ⟨(List.length_modify _ _ _).trans hplace.queues, hplace.cores⟩
  | suspendTask taskId => exact honTask taskId _
  | resumeTask taskId =>
    rw [schedulerStep, schedulerResumeTask]
    split_ifs
    · exact (hplace.with_tasks _).schedulerEnqueueTask taskId
    · exact hplace
  | terminateTask taskId => exact honTask taskId _
  | setCpuAffinity taskId cpuMask => exact honTask taskId _
  | contextSwitch fromTaskId toTaskId => exact ⟨hplace.queues, hplace.cores⟩
  | runSchedulingCycle => exact ⟨hplace.queues, hplace.cores⟩

/-- A call from slots of which no task has two leads to such slots exactly when a task that it puts
on a run queue has no slot yet. -/
theorem oneSlotEach_step_iff (hplace : QueuesInPlace sched) (hone : OneSlotEach sched)
    (call : SchedulerCall) :
    OneSlotEach (schedulerStep sched call) ↔ EnqueuesFresh sched call := by
  rw [oneSlotEach_iff] at hone ⊢
  cases call with
  | enqueueTask taskId => exact nodup_slots_schedulerEnqueueTask hplace hone
  | resumeTask taskId =>
    have hexists : (sched.tasks.any fun task ↦ task.taskId = taskId ∧ task.state = .suspended) ↔
        ∃ task ∈ sched.tasks, task.taskId = taskId ∧ task.state = .suspended := by
      simp [List.any_eq_true]
    rw [schedulerStep, schedulerResumeTask]
    split_ifs with hsuspended
    · -- the task is marked as ready first, which the run queues do not depend on
      have htasks : (updateFirst (fun task ↦ task.taskId = taskId ∧ task.state = .suspended)
          (fun task ↦ { task with state := .ready }) sched.tasks).map
            (fun task ↦ (task.taskId, task.cpuAffinity)) =
          sched.tasks.map fun task ↦ (task.taskId, task.cpuAffinity) :=
        map_updateFirst fun _ _ ↦ rfl
      rw [nodup_slots_schedulerEnqueueTask]
      · constructor
        · intro hnew _
          exact hnew.of_same rfl rfl htasks.symm
        · intro hfresh
          exact (hfresh (hexists.mp hsuspended)).of_same rfl rfl htasks
      · exact hplace.with_tasks _
      · exact hone
    · exact iff_of_true hone fun htask ↦ absurd (hexists.mpr htask) hsuspended
  | _ =>
    rw [slots_schedulerStep (by simp) (by simp)]
    exact iff_of_true hone trivial

/-! ### Runs -/

/-- A fresh scheduler has its run queues in place and no slots. -/
theorem queuesInPlace_schedulerInit (coreCount nextTaskId : UInt32) :
    QueuesInPlace (schedulerInit coreCount nextTaskId) ∧
      (schedulerInit coreCount nextTaskId).slots = [] := by
  refine ⟨⟨?_, ?_⟩, ?_⟩
  · rw [schedulerInit, List.length_map, List.length_range]
  · unfold schedulerInit
    split_ifs with hmany
    · show (128 : UInt32).toNat ≤ 128
      decide
    · exact UInt32.le_iff_toNat_le.mp (UInt32.not_lt.mp hmany)
  · simp [TaskScheduler.slots, schedulerInit]

/-- In a run of a fresh scheduler every task has at most one slot in all run queues, and no two
cores select the same task, exactly when every task that is enqueued, or resumed while it is
suspended, has no slot yet. -/
theorem oneSlot_iff (coreCount nextTaskId : UInt32) (calls : List SchedulerCall) :
    AlongRun schedulerStep OneSlotEach (schedulerInit coreCount nextTaskId) calls ↔
      EveryStep schedulerStep EnqueuesFresh (schedulerInit coreCount nextTaskId) calls := by
  obtain ⟨hplace, hslots⟩ := queuesInPlace_schedulerInit coreCount nextTaskId
  refine alongRun_iff_everyStep QueuesInPlace (fun _ _ ↦ True)
    (fun _ call hbefore _ ↦ queuesInPlace_step hbefore call)
    (fun _ call hbefore _ hone ↦ oneSlotEach_step_iff hbefore hone call) hplace ?_
    (fun _ _ _ ↦ trivial)
  rw [oneSlotEach_iff, hslots]
  exact List.nodup_nil

/-- A task that is enqueued twice on a scheduler with two cores is selected for both. -/
theorem oneSlot_enqueued_twice :
    ¬ AlongRun schedulerStep OneSlotEach (schedulerInit 2 1)
      [.createTask true, .enqueueTask 1, .enqueueTask 1] := by
  intro halong
  have hsame := (halong _ (List.prefix_refl _)).apart 0 1 0 (by decide +kernel)
    (by decide +kernel)
  revert hsame
  decide

end OneOS.Scheduling
