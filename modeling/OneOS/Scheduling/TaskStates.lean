import OneOS.Scheduling.RunQueues

/-!
# Which tasks are scheduled

A core should only be given a task that is ready or running, and a task that has been terminated
should stay so (`SelectsRunnable`, `TerminatedKept`). `scheduler_select_next_task` answers with the
current slot of a run queue and does not look at the state of the task, which
`scheduler_run_scheduling_cycle` does; suspending or terminating a task leaves its slots; and
`scheduler_enqueue_task` and `scheduler_context_switch` write the state of a task whatever it was.

`runnable_iff` is the exact condition, one for each operation that can go wrong. The two operations
that write a task or a run queue and are not among the calls of the run queues, `destroy` and
`set_time_slice`, are added here.
-/

set_option autoImplicit false
set_option relaxedAutoImplicit false

namespace OneOS.Scheduling

open Foundation

/-! ### Operations -/

/-- `scheduler_destroy_task`. -/
def schedulerDestroyTask (sched : TaskScheduler) (taskId : UInt32) : TaskScheduler × Int :=
  onTask sched taskId fun task ↦ { task with state := .terminated }

/-- `scheduler_set_time_slice`. -/
def schedulerSetTimeSlice (sched : TaskScheduler) (timeSliceMs : UInt64) : TaskScheduler × Int :=
  if timeSliceMs = 0 then (sched, -1)
  else
    ({ sched with
      runqueues := sched.runqueues.mapIdx fun i runqueue ↦
        if i < sched.coreCount.toNat then { runqueue with timeSliceMs := timeSliceMs }
        else runqueue }, 0)

/-- An operation of the scheduler. -/
inductive SchedulerOperation
  | call (call : SchedulerCall)
  | destroyTask (taskId : UInt32)
  | setTimeSlice (timeSliceMs : UInt64)
  deriving DecidableEq, Repr

/-- The scheduler after an operation. -/
def operationStep (sched : TaskScheduler) : SchedulerOperation → TaskScheduler
  | .call call => schedulerStep sched call
  | .destroyTask taskId => (schedulerDestroyTask sched taskId).1
  | .setTimeSlice timeSliceMs => (schedulerSetTimeSlice sched timeSliceMs).1

/-! ### States of tasks -/

/-- The state of the task at a position of the table. -/
def TaskScheduler.stateOf (sched : TaskScheduler) (position : ℕ) : Option TaskState :=
  sched.tasks[position]?.map Task.state

/-- The position of the first task with the id, the length of the table if there is none. -/
def TaskScheduler.firstWith (sched : TaskScheduler) (taskId : UInt32) : ℕ :=
  sched.tasks.findIdx (·.taskId = taskId)

/-- A task in the state may be given to a core. -/
def Runnable (state : Option TaskState) : Prop :=
  state = some .ready ∨ state = some .running

/-- Every task that is selected for a core is ready or running. -/
def SelectsRunnable (sched : TaskScheduler) : Prop :=
  ∀ cpuCore position, schedulerSelectNextTask sched cpuCore = some position →
    Runnable (sched.stateOf position)

/-- Every task that was terminated still is. -/
def TerminatedKept (before after : TaskScheduler) : Prop :=
  ∀ position, before.stateOf position = some .terminated →
    after.stateOf position = some .terminated

/-- The first task with the id is not selected for a core. -/
def NotCurrent (sched : TaskScheduler) (taskId : UInt32) : Prop :=
  ∀ cpuCore, schedulerSelectNextTask sched cpuCore ≠ some (sched.firstWith taskId)

/-- The first task with the id is not terminated. -/
def NotTerminated (sched : TaskScheduler) (taskId : UInt32) : Prop :=
  sched.stateOf (sched.firstWith taskId) ≠ some .terminated

/-- The condition on a call. -/
def CallsRunnable (sched : TaskScheduler) : SchedulerCall → Prop
  | .enqueueTask taskId => NotTerminated sched taskId
  | .dequeueTask runqueueId =>
    runqueueId < sched.coreCount →
      ∀ runqueue, sched.runqueues[runqueueId.toNat]? = some runqueue →
        ∀ position, runqueue.tasks[((runqueue.currentTaskIndex + 1) %
          runqueue.tasks.length.toUInt32).toNat]? = some position →
            Runnable (sched.stateOf position)
  | .suspendTask taskId => NotCurrent sched taskId ∧ NotTerminated sched taskId
  | .resumeTask taskId =>
    (∃ task ∈ sched.tasks, task.taskId = taskId ∧ task.state = .suspended) →
      NotTerminated sched taskId
  | .terminateTask taskId => NotCurrent sched taskId
  | .contextSwitch fromTaskId toTaskId =>
    ∀ task ∈ sched.tasks, task.taskId = fromTaskId ∨ task.taskId = toTaskId →
      task.state ≠ .terminated
  | _ => True

/-- The condition on an operation: a task that is suspended, terminated or destroyed is not the
current one of a core; a task that is suspended, enqueued, resumed or switched is not terminated;
and a run queue goes on to a task that is ready or running. -/
def OperatesRunnable (sched : TaskScheduler) : SchedulerOperation → Prop
  | .call call => CallsRunnable sched call
  | .destroyTask taskId => NotCurrent sched taskId
  | .setTimeSlice _ => True

variable {sched after : TaskScheduler} {taskId : UInt32} {state : TaskState} {position : ℕ}

/-! ### Writing the state of the first task with an id -/

/-- The scheduler whose first task with the id is in the state. -/
def TaskScheduler.setState (sched : TaskScheduler) (taskId : UInt32) (state : TaskState) :
    TaskScheduler :=
  { sched with
    tasks := updateFirst (·.taskId = taskId) (fun task ↦ { task with state := state })
      sched.tasks }

theorem stateOf_setState (position : ℕ) :
    (sched.setState taskId state).stateOf position =
      if sched.firstWith taskId = position then (sched.stateOf position).map fun _ ↦ state
      else sched.stateOf position := by
  rw [TaskScheduler.stateOf, TaskScheduler.setState, updateFirst, List.getElem?_modify,
    TaskScheduler.firstWith]
  split_ifs with hfirst
  · simp [TaskScheduler.stateOf, Function.comp_def]
  · simp [TaskScheduler.stateOf]

/-- A call that writes the state of the first task with an id, if there is one. -/
theorem onTask_setState :
    (onTask sched taskId fun task ↦ { task with state := state }).1 =
      sched.setState taskId state := by
  unfold onTask
  split_ifs with hany
  · rfl
  · have hnone : sched.tasks.find? (·.taskId = taskId) = none := by
      simpa [List.find?_eq_none] using hany
    rw [TaskScheduler.setState, updateFirst_of_find?_eq_none hnone]

/-- Terminated tasks are kept when a state is written, unless it is another state written to a task
that was terminated. -/
theorem terminatedKept_setState :
    TerminatedKept sched (sched.setState taskId state) ↔
      (state ≠ .terminated → NotTerminated sched taskId) := by
  constructor
  · intro hkept hstate hterminated
    have hafter := hkept _ hterminated
    rw [stateOf_setState, if_pos rfl, hterminated, Option.map_some, Option.some.injEq] at hafter
    exact hstate hafter
  · intro hnot position hterminated
    rw [stateOf_setState]
    split_ifs with hfirst
    · rw [hterminated, Option.map_some]
      by_contra hother
      refine hnot (fun heq ↦ hother (congrArg some heq)) ?_
      rw [hfirst, hterminated]
    · exact hterminated

/-- Assumes: the selected tasks are ready or running. The same is true after another state has been
written to the first task with an id exactly when it is not selected. -/
theorem selectsRunnable_setState (hrunnable : SelectsRunnable sched)
    (hstate : ¬ Runnable (some state)) :
    SelectsRunnable (sched.setState taskId state) ↔ NotCurrent sched taskId := by
  constructor
  · intro hafter cpuCore hselect
    have hfirst := hafter cpuCore _ hselect
    rw [stateOf_setState, if_pos rfl] at hfirst
    rcases hrunnable cpuCore _ hselect with hready | hrunning
    · rw [hready] at hfirst
      exact hstate hfirst
    · rw [hrunning] at hfirst
      exact hstate hfirst
  · intro hnot cpuCore position hselect
    have hother : sched.firstWith taskId ≠ position := by
      intro hfirst
      exact hnot cpuCore (hfirst ▸ hselect)
    rw [stateOf_setState, if_neg hother]
    exact hrunnable cpuCore position hselect

/-- The selected tasks stay ready or running when such a state is written. -/
theorem SelectsRunnable.setState (hrunnable : SelectsRunnable sched)
    (hstate : Runnable (some state)) : SelectsRunnable (sched.setState taskId state) := by
  intro cpuCore position hselect
  have hbefore := hrunnable cpuCore position hselect
  rw [stateOf_setState]
  split_ifs with hfirst
  · rcases hbefore with hready | hrunning
    · rw [hready]
      exact hstate
    · rw [hrunning]
      exact hstate
  · exact hbefore

/-! ### Selection -/

/-- What is selected for a core is in the current slot of its run queue. -/
theorem schedulerSelectNextTask_eq_some {cpuCore : UInt32} :
    schedulerSelectNextTask sched cpuCore = some position ↔
      cpuCore < sched.coreCount ∧ ∃ runqueue, sched.runqueues[cpuCore.toNat]? = some runqueue ∧
        runqueue.tasks[runqueue.currentTaskIndex.toNat]? = some position := by
  unfold schedulerSelectNextTask
  split_ifs with hcore
  · simp [UInt32.not_lt.mpr hcore]
  · cases hqueue : sched.runqueues[cpuCore.toNat]? with
    | none => simp
    | some runqueue =>
      cases htasks : runqueue.tasks with
      | nil => simp [htasks]
      | cons first rest => simp [htasks, UInt32.not_le.mp hcore]

/-- A task that is enqueued is marked as ready, whether or not there is room for it. -/
theorem stateOf_schedulerEnqueueTask :
    (schedulerEnqueueTask sched taskId).1.stateOf = (sched.setState taskId .ready).stateOf := by
  unfold schedulerEnqueueTask
  cases hfind : sched.tasks.find? (·.taskId = taskId) with
  | none => rw [TaskScheduler.setState, updateFirst_of_find?_eq_none hfind]
  | some task =>
    simp only
    split_ifs
    · rfl
    · rfl

/-- What is selected after a task has been enqueued was selected before, or is that task. -/
theorem select_schedulerEnqueueTask {cpuCore : UInt32}
    (hselect : schedulerSelectNextTask (schedulerEnqueueTask sched taskId).1 cpuCore =
      some position) :
    schedulerSelectNextTask sched cpuCore = some position ∨
      position = sched.firstWith taskId ∧ (sched.stateOf position).isSome := by
  unfold schedulerEnqueueTask at hselect
  cases hfind : sched.tasks.find? (·.taskId = taskId) with
  | none =>
    rw [hfind] at hselect
    exact Or.inl hselect
  | some task =>
    simp only [hfind] at hselect
    split_ifs at hselect
    · rw [schedulerSelectNextTask_eq_some] at hselect
      obtain ⟨hcore, runqueue, hqueue, hslot⟩ := hselect
      simp only [List.getElem?_modify, Option.map_eq_map, Option.map_eq_some_iff] at hqueue
      obtain ⟨old, hold, rfl⟩ := hqueue
      split_ifs at hslot
      · -- the new slot is behind all slots that there were
        rw [List.getElem?_append] at hslot
        split_ifs at hslot
        · exact Or.inl (schedulerSelectNextTask_eq_some.mpr ⟨hcore, old, hold, hslot⟩)
        · rw [List.getElem?_singleton] at hslot
          split_ifs at hslot
          obtain rfl := Option.some.inj hslot
          rw [List.find?_eq_getElem?_findIdx] at hfind
          exact Or.inr ⟨rfl, by simp [TaskScheduler.stateOf, hfind]⟩
      · exact Or.inl (schedulerSelectNextTask_eq_some.mpr ⟨hcore, old, hold, hslot⟩)
    · exact Or.inl hselect

/-- Enqueuing a task keeps the selected tasks ready or running. -/
theorem SelectsRunnable.schedulerEnqueueTask (hrunnable : SelectsRunnable sched)
    (taskId : UInt32) : SelectsRunnable (schedulerEnqueueTask sched taskId).1 := by
  intro cpuCore position hselect
  rw [stateOf_schedulerEnqueueTask]
  rcases select_schedulerEnqueueTask hselect with hbefore | ⟨rfl, hsome⟩
  · exact hrunnable.setState (Or.inl rfl) cpuCore position hbefore
  · rw [stateOf_setState, if_pos rfl]
    obtain ⟨state, hstate⟩ := Option.isSome_iff_exists.mp hsome
    rw [hstate]
    exact Or.inl rfl

/-- Enqueuing a task keeps terminated tasks exactly when that task was not terminated. -/
theorem terminatedKept_schedulerEnqueueTask (sched : TaskScheduler) (taskId : UInt32) :
    TerminatedKept sched (schedulerEnqueueTask sched taskId).1 ↔ NotTerminated sched taskId := by
  rw [TerminatedKept, stateOf_schedulerEnqueueTask]
  exact terminatedKept_setState.trans ⟨fun hnot ↦ hnot (by simp), fun hnot _ ↦ hnot⟩

/-! ### Tasks that move on -/

/-- Every task keeps its state or, if it was not terminated, becomes ready or running. -/
def MovesOn (before after : TaskScheduler) : Prop :=
  ∀ position, before.stateOf position ≠ none →
    after.stateOf position = before.stateOf position ∨
      before.stateOf position ≠ some .terminated ∧ Runnable (after.stateOf position)

/-- Nothing is asked of tasks whose states are as they were. -/
theorem MovesOn.of_eq (hstates : after.stateOf = sched.stateOf) : MovesOn sched after :=
  fun position _ ↦ Or.inl (congrFun hstates position)

/-- Tasks that move on twice move on. -/
theorem MovesOn.trans {last : TaskScheduler} (hfirst : MovesOn sched after)
    (hsecond : MovesOn after last) : MovesOn sched last := by
  intro position hbefore
  rcases hfirst position hbefore with hsame | ⟨hlive, hrunnable⟩
  · have hagain := hsecond position (hsame.trans_ne hbefore)
    rwa [hsame] at hagain
  · refine Or.inr ⟨hlive, ?_⟩
    have hsome : after.stateOf position ≠ none := by
      rcases hrunnable with hready | hrunning
      · simp [hready]
      · simp [hrunning]
    rcases hsecond position hsome with hsame | ⟨-, hagain⟩
    · rwa [hsame]
    · exact hagain

/-- A terminated task does not move on. -/
theorem MovesOn.terminatedKept (hmoves : MovesOn sched after) : TerminatedKept sched after := by
  intro position hterminated
  rcases hmoves position (by simp [hterminated]) with hsame | ⟨hlive, -⟩
  · rw [hsame, hterminated]
  · exact absurd hterminated hlive

/-- Tasks that move on while the slots stay as they are keep the selected tasks ready or running. -/
theorem SelectsRunnable.of_movesOn (hrunnable : SelectsRunnable sched)
    (hmoves : MovesOn sched after)
    (hselects : ∀ cpuCore position, schedulerSelectNextTask after cpuCore = some position →
      schedulerSelectNextTask sched cpuCore = some position) : SelectsRunnable after := by
  intro cpuCore position hselect
  have hbefore := hrunnable cpuCore position (hselects cpuCore position hselect)
  have hsome : sched.stateOf position ≠ none := by
    rcases hbefore with hready | hrunning
    · simp [hready]
    · simp [hrunning]
  rcases hmoves position hsome with hsame | ⟨-, hafter⟩
  · rwa [hsame]
  · exact hafter

/-- A task that was suspended moves on to ready. -/
theorem movesOn_resumed (sched : TaskScheduler) (taskId : UInt32) :
    MovesOn sched { sched with
      tasks := updateFirst (fun task ↦ task.taskId = taskId ∧ task.state = .suspended)
        (fun task ↦ { task with state := .ready }) sched.tasks } := by
  intro position hsome
  obtain ⟨task, htask⟩ : ∃ task, sched.tasks[position]? = some task := by
    rw [← Option.ne_none_iff_exists']
    intro hnone
    exact hsome (by rw [TaskScheduler.stateOf, hnone, Option.map_none])
  simp only [TaskScheduler.stateOf]
  rcases getElem?_updateFirst htask with hsame | ⟨hfind, hchanged⟩
  · exact Or.inl (by rw [hsame, htask])
  · have hmatch := List.find?_some hfind
    simp only [decide_eq_true_eq] at hmatch
    rw [hchanged, htask, Option.map_some, Option.map_some, hmatch.2]
    exact Or.inr ⟨by simp, Or.inl rfl⟩

/-- A core that runs its current task moves it on to running. -/
theorem movesOn_runCore (sched : TaskScheduler) (core : ℕ) :
    MovesOn sched { sched with tasks := runCore sched.runqueues sched.tasks core } := by
  intro position hsome
  unfold runCore
  split
  · exact Or.inl rfl
  · split
    · exact Or.inl rfl
    · simp only [TaskScheduler.stateOf, List.getElem?_modify, Option.map_eq_map, Option.map_map]
      cases htask : sched.tasks[position]? with
      | none => exact Or.inl rfl
      | some task =>
        simp only [Option.map_some, Function.comp_apply]
        split_ifs with hslot hready
        · rw [hready]
          exact Or.inr ⟨by simp, Or.inr rfl⟩
        · exact Or.inl rfl
        · exact Or.inl rfl

/-- The tasks move on in a scheduling cycle. -/
theorem movesOn_schedulerRunSchedulingCycle :
    MovesOn sched (schedulerRunSchedulingCycle sched).1 := by
  -- induction over the cores, the run queues being those at the start of the cycle
  have hcores (cores : List ℕ) (tasks : List Task) :
      MovesOn { sched with tasks := tasks }
        { sched with tasks := cores.foldl (runCore sched.runqueues) tasks } := by
    induction cores generalizing tasks with
    | nil => exact MovesOn.of_eq rfl
    | cons core cores ih =>
      have hcore : MovesOn { sched with tasks := tasks }
          { sched with tasks := runCore sched.runqueues tasks core } :=
        movesOn_runCore { sched with tasks := tasks } core
      exact hcore.trans (ih (runCore sched.runqueues tasks core))
  exact hcores (List.range sched.coreCount.toNat) sched.tasks

/-- The state that a switch leaves a task in. -/
theorem stateOf_schedulerContextSwitch (fromTaskId toTaskId : UInt32) :
    (schedulerContextSwitch sched fromTaskId toTaskId).1.stateOf position =
      sched.tasks[position]?.map fun task ↦
        if task.taskId = toTaskId then .running
        else if task.taskId = fromTaskId then .ready else task.state := by
  simp only [schedulerContextSwitch, TaskScheduler.stateOf, List.getElem?_map, Option.map_map]
  congr 1
  funext task
  simp only [Function.comp_apply]
  split_ifs <;> simp_all

/-- A switch keeps terminated tasks exactly when no task with one of the two ids is terminated, and
then all tasks move on. -/
theorem terminatedKept_schedulerContextSwitch {fromTaskId toTaskId : UInt32} :
    TerminatedKept sched (schedulerContextSwitch sched fromTaskId toTaskId).1 ↔
      CallsRunnable sched (.contextSwitch fromTaskId toTaskId) := by
  constructor
  · intro hkept task htask hid hterminated
    obtain ⟨position, hposition⟩ := List.mem_iff_getElem?.mp htask
    have hafter := hkept position (by simp [TaskScheduler.stateOf, hposition, hterminated])
    rw [stateOf_schedulerContextSwitch, hposition, Option.map_some, Option.some.injEq] at hafter
    split_ifs at hafter with hto hfrom
    exact hid.elim hfrom hto
  · intro hlive position hterminated
    rw [stateOf_schedulerContextSwitch]
    obtain ⟨task, htask, hstate⟩ := Option.map_eq_some_iff.mp hterminated
    have hid := mt (hlive task (List.mem_of_getElem? htask)) (not_not.mpr hstate)
    rw [not_or] at hid
    rw [htask, Option.map_some, if_neg hid.2, if_neg hid.1, hstate]

/-- A switch keeps the selected tasks ready or running. -/
theorem SelectsRunnable.schedulerContextSwitch (hrunnable : SelectsRunnable sched)
    (fromTaskId toTaskId : UInt32) :
    SelectsRunnable (schedulerContextSwitch sched fromTaskId toTaskId).1 := by
  intro cpuCore position hselect
  have hbefore := hrunnable cpuCore position hselect
  rw [stateOf_schedulerContextSwitch]
  cases htask : sched.tasks[position]? with
  | none => simp [Runnable, TaskScheduler.stateOf, htask] at hbefore
  | some task =>
    rw [Option.map_some]
    split_ifs
    · exact Or.inr rfl
    · exact Or.inl rfl
    · rwa [TaskScheduler.stateOf, htask] at hbefore

/-- Assumes: the selected tasks are ready or running. The same is true after a run queue has gone on
to its next slot exactly when the task in that slot is ready or running. -/
theorem selectsRunnable_schedulerDequeueTask (hrunnable : SelectsRunnable sched)
    {runqueueId : UInt32} :
    SelectsRunnable (schedulerDequeueTask sched runqueueId).1 ↔
      CallsRunnable sched (.dequeueTask runqueueId) := by
  unfold schedulerDequeueTask
  split_ifs with hcore hempty
  · exact iff_of_true hrunnable fun hlt ↦ absurd hlt (UInt32.not_lt.mpr hcore)
  · refine iff_of_true hrunnable fun _ runqueue hqueue position hslot ↦ ?_
    simp only [TaskScheduler.taskCount, hqueue, Option.map_some, Option.getD_some,
      List.length_eq_zero_iff] at hempty
    simp [hempty] at hslot
  · constructor
    · intro hafter hlt runqueue hqueue position hslot
      refine hafter runqueueId position (schedulerSelectNextTask_eq_some.mpr ⟨hlt, ?_⟩)
      exact ⟨_, by rw [List.getElem?_modify_eq, hqueue]; rfl, hslot⟩
    · intro hnext cpuCore position hselect
      obtain ⟨hlt, runqueue, hqueue, hslot⟩ := schedulerSelectNextTask_eq_some.mp hselect
      simp only [List.getElem?_modify, Option.map_eq_map, Option.map_eq_some_iff] at hqueue
      obtain ⟨old, hold, rfl⟩ := hqueue
      split_ifs at hslot with hsame
      · obtain rfl := UInt32.toNat_inj.mp hsame
        exact hnext hlt old hold position hslot
      · exact hrunnable cpuCore position
          (schedulerSelectNextTask_eq_some.mpr ⟨hlt, old, hold, hslot⟩)

/-- Time slices do not matter to what is selected. -/
theorem select_schedulerSetTimeSlice {timeSliceMs : UInt64} {cpuCore : UInt32}
    (hselect : schedulerSelectNextTask (schedulerSetTimeSlice sched timeSliceMs).1 cpuCore =
      some position) : schedulerSelectNextTask sched cpuCore = some position := by
  unfold schedulerSetTimeSlice at hselect
  split_ifs at hselect
  · exact hselect
  · obtain ⟨hlt, runqueue, hqueue, hslot⟩ := schedulerSelectNextTask_eq_some.mp hselect
    simp only [List.getElem?_mapIdx, Option.map_eq_some_iff] at hqueue
    obtain ⟨old, hold, rfl⟩ := hqueue
    refine schedulerSelectNextTask_eq_some.mpr ⟨hlt, old, hold, ?_⟩
    split_ifs at hslot
    · exact hslot
    · exact hslot

/-- Resuming keeps terminated tasks exactly when, if a suspended task has the id, the first task
with the id is not terminated. -/
theorem terminatedKept_schedulerResumeTask :
    TerminatedKept sched (schedulerResumeTask sched taskId).1 ↔
      CallsRunnable sched (.resumeTask taskId) := by
  have hexists : (sched.tasks.any fun task ↦ task.taskId = taskId ∧ task.state = .suspended) ↔
      ∃ task ∈ sched.tasks, task.taskId = taskId ∧ task.state = .suspended := by
    simp [List.any_eq_true]
  unfold schedulerResumeTask
  split_ifs with hsuspended
  · have hmoves := movesOn_resumed sched taskId
    set resumed : TaskScheduler := { sched with
      tasks := updateFirst (fun task ↦ task.taskId = taskId ∧ task.state = .suspended)
        (fun task ↦ { task with state := .ready }) sched.tasks } with hresumed
    have hsame (position : ℕ) :
        resumed.stateOf position = some .terminated ↔
          sched.stateOf position = some .terminated := by
      refine ⟨fun hterminated ↦ ?_, hmoves.terminatedKept position⟩
      have hsome : sched.stateOf position ≠ none := by
        intro hnone
        rw [TaskScheduler.stateOf, Option.map_eq_none_iff] at hnone
        simp [hresumed, TaskScheduler.stateOf, updateFirst, List.getElem?_modify, hnone]
          at hterminated
      rcases hmoves position hsome with hstate | ⟨-, hrunnable⟩
      · rwa [hstate] at hterminated
      · simp [Runnable, hterminated] at hrunnable
    have hfirst : resumed.firstWith taskId = sched.firstWith taskId := by
      have hids : resumed.tasks.map Task.taskId = sched.tasks.map Task.taskId :=
        map_updateFirst fun _ _ ↦ rfl
      have hfind (tasks : List Task) : tasks.findIdx (·.taskId = taskId) =
          (tasks.map Task.taskId).findIdx (· = taskId) := by
        rw [List.findIdx_map]
        rfl
      rw [TaskScheduler.firstWith, TaskScheduler.firstWith, hfind, hids, ← hfind]
    have hkept := terminatedKept_schedulerEnqueueTask resumed taskId
    simp only [TerminatedKept, NotTerminated, ne_eq, hsame, hfirst] at hkept
    rw [TerminatedKept, hkept]
    exact ⟨fun hnot _ ↦ hnot, fun hnot ↦ hnot (hexists.mp hsuspended)⟩
  · exact iff_of_true (fun _ hterminated ↦ hterminated) fun htask ↦
      absurd (hexists.mpr htask) hsuspended

/-! ### Runs -/

/-- Assumes: the selected tasks are ready or running. A call leads to such tasks and keeps all
terminated tasks exactly when it meets its condition. -/
theorem callsRunnable_iff (hrunnable : SelectsRunnable sched) (call : SchedulerCall) :
    SelectsRunnable (schedulerStep sched call) ∧ TerminatedKept sched (schedulerStep sched call) ↔
      CallsRunnable sched call := by
  have hquiet (hmoves : MovesOn sched (schedulerStep sched call))
      (hselects : ∀ cpuCore, schedulerSelectNextTask (schedulerStep sched call) cpuCore =
        schedulerSelectNextTask sched cpuCore) :
      SelectsRunnable (schedulerStep sched call) ∧
        TerminatedKept sched (schedulerStep sched call) :=
    ⟨hrunnable.of_movesOn hmoves fun cpuCore _ hselect ↦ (hselects cpuCore).symm.trans hselect,
      hmoves.terminatedKept⟩
  cases call with
  | createTask named =>
    refine iff_of_true (hquiet ?_ ?_) trivial
    · intro position hsome
      refine Or.inl ?_
      rw [schedulerStep, schedulerCreateTask]
      split_ifs
      · rfl
      · have hlt : position < sched.tasks.length := by
          by_contra hge
          exact hsome (by simp [TaskScheduler.stateOf, Nat.le_of_not_lt hge])
        simp only [TaskScheduler.stateOf, List.getElem?_append_left hlt]
    · intro cpuCore
      rw [schedulerStep, schedulerCreateTask]
      split_ifs
      · rfl
      · rfl
  | enqueueTask taskId =>
    exact (and_iff_right (hrunnable.schedulerEnqueueTask taskId)).trans
      (terminatedKept_schedulerEnqueueTask sched taskId)
  | dequeueTask runqueueId =>
    have hstates : (schedulerDequeueTask sched runqueueId).1.stateOf = sched.stateOf := by
      unfold schedulerDequeueTask
      split_ifs
      · rfl
      · rfl
      · rfl
    exact (and_iff_left (MovesOn.of_eq hstates).terminatedKept).trans
      (selectsRunnable_schedulerDequeueTask hrunnable)
  | suspendTask taskId =>
    rw [schedulerStep, schedulerSuspendTask, onTask_setState,
      selectsRunnable_setState hrunnable (by simp [Runnable]), terminatedKept_setState]
    exact and_congr_right fun _ ↦ ⟨fun hnot ↦ hnot (by simp), fun hnot _ ↦ hnot⟩
  | resumeTask taskId =>
    have hresumed : SelectsRunnable (schedulerResumeTask sched taskId).1 := by
      unfold schedulerResumeTask
      split_ifs
      · have hready := hrunnable.of_movesOn (movesOn_resumed sched taskId)
          fun _ _ hselect ↦ hselect
        exact hready.schedulerEnqueueTask taskId
      · exact hrunnable
    exact (and_iff_right hresumed).trans terminatedKept_schedulerResumeTask
  | terminateTask taskId =>
    rw [schedulerStep, schedulerTerminateTask, onTask_setState,
      selectsRunnable_setState hrunnable (by simp [Runnable]), terminatedKept_setState]
    exact and_iff_left fun hother ↦ absurd rfl hother
  | setCpuAffinity taskId cpuMask =>
    refine iff_of_true (hquiet (MovesOn.of_eq ?_) ?_) trivial
    · funext position
      rw [schedulerStep, schedulerSetCpuAffinity, onTask]
      split_ifs
      · simp only [TaskScheduler.stateOf, ← List.getElem?_map]
        rw [map_updateFirst (by intros; rfl)]
      · rfl
    · intro cpuCore
      rw [schedulerStep, schedulerSetCpuAffinity, onTask]
      split_ifs
      · rfl
      · rfl
  | contextSwitch fromTaskId toTaskId =>
    exact (and_iff_right (hrunnable.schedulerContextSwitch fromTaskId toTaskId)).trans
      terminatedKept_schedulerContextSwitch
  | runSchedulingCycle =>
    exact iff_of_true (hquiet movesOn_schedulerRunSchedulingCycle fun _ ↦ rfl) trivial

/-- Assumes: the selected tasks are ready or running. The same for every operation. -/
theorem operatesRunnable_iff (hrunnable : SelectsRunnable sched)
    (operation : SchedulerOperation) :
    SelectsRunnable (operationStep sched operation) ∧
        TerminatedKept sched (operationStep sched operation) ↔
      OperatesRunnable sched operation := by
  cases operation with
  | call call => exact callsRunnable_iff hrunnable call
  | destroyTask taskId => exact callsRunnable_iff hrunnable (.terminateTask taskId)
  | setTimeSlice timeSliceMs =>
    have hmoves : MovesOn sched (schedulerSetTimeSlice sched timeSliceMs).1 := by
      refine MovesOn.of_eq ?_
      unfold schedulerSetTimeSlice
      split_ifs
      · rfl
      · rfl
    exact iff_of_true ⟨hrunnable.of_movesOn hmoves fun _ _ ↦ select_schedulerSetTimeSlice,
      hmoves.terminatedKept⟩ trivial

/-- In a run of a fresh scheduler every task that is selected for a core is ready or running, and
every task that has been terminated stays so, exactly when every operation meets its condition. -/
theorem runnable_iff (coreCount nextTaskId : UInt32) (operations : List SchedulerOperation) :
    AlongRun operationStep SelectsRunnable (schedulerInit coreCount nextTaskId) operations ∧
        EveryStep operationStep
          (fun sched operation ↦ TerminatedKept sched (operationStep sched operation))
          (schedulerInit coreCount nextTaskId) operations ↔
      EveryStep operationStep OperatesRunnable (schedulerInit coreCount nextTaskId)
        operations := by
  refine alongRun_and_everyStep_iff (fun _ ↦ True) (fun _ _ ↦ True) (fun _ _ _ _ ↦ trivial)
    (fun _ operation _ _ hrunnable ↦ operatesRunnable_iff hrunnable operation) trivial ?_
    (fun _ _ _ ↦ trivial)
  intro cpuCore position hselect
  obtain ⟨runqueue, hqueue, hmem⟩ := schedulerSelectNextTask_mem hselect
  have hslot : position ∈ (schedulerInit coreCount nextTaskId).slots :=
    List.mem_flatMap.mpr ⟨runqueue, List.mem_of_getElem? hqueue, hmem⟩
  rw [(queuesInPlace_schedulerInit coreCount nextTaskId).2] at hslot
  exact absurd hslot List.not_mem_nil

/-- A task that is suspended after it has been enqueued is still selected for its core. -/
theorem runnable_suspended :
    ¬ AlongRun operationStep SelectsRunnable (schedulerInit 2 1)
      [.call (.createTask true), .call (.enqueueTask 1), .call (.suspendTask 1)] := by
  intro halong
  have hstate := halong _ (List.prefix_refl _) 1 0 (by decide +kernel)
  have hsuspended : (runFrom operationStep (schedulerInit 2 1) [.call (.createTask true),
      .call (.enqueueTask 1), .call (.suspendTask 1)]).stateOf 0 = some .suspended := by
    decide +kernel
  rw [hsuspended] at hstate
  simp [Runnable] at hstate

end OneOS.Scheduling
