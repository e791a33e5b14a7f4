import Mathlib.Algebra.BigOperators.Group.List.Basic
import Mathlib.Tactic.Linarith
import Mathlib.Tactic.Ring
import OneOS.Foundation.NestedTables
import OneOS.Realtime.RealtimeManager

/-!
# Admission control

The percentage of the processor that is reserved should be that of the hard tasks together, and a
hard task should be admitted exactly when all of them together use no more than the whole processor
(`AdmitsBySum`).

`rt_create_task` reserves what a hard task uses as soon as the task is created, and `rt_admit_task`
adds it once more, so that a task is counted twice when it is admitted.

`admission_iff`: in every state the percentage is right, and a hard task is admitted as it should be
exactly when there would be room for it twice, or there is not even room for all tasks once.
-/

set_option autoImplicit false
set_option relaxedAutoImplicit false

namespace OneOS.Realtime

open Foundation

/-! ### What hard tasks use -/

/-- What the hard tasks among some tasks use of the processor together. -/
def hardLoad (tasks : List RtTask) : ℚ :=
  ((tasks.filter fun task ↦ task.rtClass = .hard).map RtTask.utilization).sum

/-- What is claimed of the admission of a hard task with an id. -/
def AdmitsBySum (manager : RealtimeManager) (taskId : UInt32) : Prop :=
  (rtAdmitTask manager taskId).2 = 0 ↔ hardLoad manager.tasks ≤ 1

/-- A task that is created has a positive period. -/
def RtCall.PositivePeriod : RtCall → Prop
  | .createTask _ _ periodUs _ _ => 0 < periodUs
  | _ => True

/-- What a task adds to the hard load. -/
def RtTask.hardShare (task : RtTask) : ℚ :=
  if task.rtClass = .hard then task.utilization else 0

variable {manager : RealtimeManager} {task : RtTask} {tasks : List RtTask} {taskId : UInt32}

/-- The hard load is a sum over all tasks. -/
theorem hardLoad_eq_sum : hardLoad tasks = (tasks.map RtTask.hardShare).sum := by
  induction tasks with
  | nil => rfl
  | cons task tasks ih =>
    rw [List.map_cons, List.sum_cons, ← ih, hardLoad, hardLoad, RtTask.hardShare]
    split_ifs with hhard
    · rw [List.filter_cons, if_pos (decide_eq_true hhard), List.map_cons, List.sum_cons]
    · rw [List.filter_cons, if_neg fun htrue ↦ hhard (of_decide_eq_true htrue), zero_add]

/-- A task that is added adds its share. -/
theorem hardLoad_concat : hardLoad (tasks ++ [task]) = hardLoad tasks + task.hardShare := by
  rw [hardLoad_eq_sum, hardLoad_eq_sum, List.map_append, List.sum_append, List.map_singleton,
    List.sum_singleton]

/-- A task that is removed takes its share away. -/
theorem hardLoad_eraseP (hfind : tasks.find? (·.taskId = taskId) = some task) :
    hardLoad (tasks.eraseP (·.taskId = taskId)) = hardLoad tasks - task.hardShare := by
  obtain ⟨before, after, rfl, htask, hbefore, -⟩ := updateFirst_split hfind
  rw [eraseP_split hbefore htask, hardLoad_eq_sum, hardLoad_eq_sum, List.map_append,
    List.map_append, List.sum_append, List.sum_append, List.map_cons, List.sum_cons]
  ring

/-- The state of a task does not matter to the hard load. -/
theorem hardLoad_setState (state : RtTaskState) :
    hardLoad (manager.setState taskId state).tasks = hardLoad manager.tasks := by
  rw [hardLoad_eq_sum, hardLoad_eq_sum, RealtimeManager.setState]
  exact congrArg List.sum (map_updateFirst fun _ _ ↦ rfl)

/-! ### Every state -/

/-- How the manager always is: the percentage is that of the hard tasks, and periods and times of
tasks are positive. -/
structure Reserved (manager : RealtimeManager) : Prop where
  percent : manager.cpuReservationPercent = 100 * hardLoad manager.tasks
  positive : ∀ task ∈ manager.tasks, 0 < task.periodUs ∧ 0 < task.worstCaseTimeUs

/-- Setting the state of a task keeps the percentage right. -/
theorem Reserved.setState (hreserved : Reserved manager) (taskId : UInt32) (state : RtTaskState) :
    Reserved (manager.setState taskId state) := by
  refine ⟨hreserved.percent.trans ?_, ?_⟩
  · rw [hardLoad_setState]
  · refine (forall_mem_updateFirst_iff hreserved.positive).mpr fun task hfind ↦ ?_
    exact hreserved.positive task (List.mem_of_find?_eq_some hfind)

/-- Assumes: a positive period. A task that is created is counted if it is hard. -/
theorem Reserved.rtCreateTask (hreserved : Reserved manager) (taskId : UInt32) (rtClass : RtClass)
    {periodUs : ℤ} (deadlineUs worstCaseUs : ℤ) (hperiod : 0 < periodUs) :
    Reserved (rtCreateTask manager taskId rtClass periodUs deadlineUs worstCaseUs).1 := by
  have hclass : (newTask taskId rtClass periodUs deadlineUs worstCaseUs).rtClass = rtClass := rfl
  rw [Realtime.rtCreateTask]
  split_ifs with hfull hnegative hused hhard
  · exact hreserved
  · exact hreserved
  · exact hreserved
  all_goals
    have htimes : 0 < worstCaseUs := Int.not_le.mp fun hle ↦ hnegative (Or.inr hle)
    refine ⟨?_, List.forall_mem_append.mpr ⟨hreserved.positive,
      List.forall_mem_singleton.mpr ⟨hperiod, htimes⟩⟩⟩
    dsimp only
    rw [hardLoad_concat, hreserved.percent, RtTask.hardShare, hclass]
  · rw [if_pos hhard]
    ring
  · rw [if_neg hhard, add_zero]

/-- A hard task that is deleted is not counted any more. -/
theorem Reserved.rtDeleteTask (hreserved : Reserved manager) (taskId : UInt32) :
    Reserved (rtDeleteTask manager taskId).1 := by
  rw [Realtime.rtDeleteTask]
  cases hfind : rtGetTask manager taskId with
  | none => exact hreserved
  | some task =>
    refine ⟨?_, fun other hother ↦ hreserved.positive other (List.mem_of_mem_eraseP hother)⟩
    dsimp only
    rw [hardLoad_eraseP hfind, hreserved.percent, RtTask.hardShare]
    split_ifs
    · ring
    · rw [sub_zero]

/-- Assumes: a task that is created has a positive period. Every call keeps the percentage right. -/
theorem reserved_rtStep (hreserved : Reserved manager) {call : RtCall}
    (hcall : call.PositivePeriod) : Reserved (rtStep manager call) := by
  cases call with
  | createTask taskId rtClass periodUs deadlineUs worstCaseUs =>
    exact hreserved.rtCreateTask taskId rtClass deadlineUs worstCaseUs hcall
  | deleteTask taskId => exact hreserved.rtDeleteTask taskId
  | taskStart taskId =>
    rw [rtStep, rtTaskStart]
    cases rtGetTask manager taskId with
    | none => exact hreserved
    | some task =>
      dsimp only
      split_ifs
      · exact hreserved.setState taskId _
      · exact hreserved
  | taskComplete taskId =>
    rw [rtStep, rtTaskComplete]
    cases rtGetTask manager taskId with
    | none => exact hreserved
    | some task =>
      dsimp only
      split_ifs
      · exact hreserved.setState taskId _
      · exact hreserved.setState taskId _
      · exact hreserved
  | admitTask taskId =>
    rw [rtStep, rtAdmitTask]
    cases rtGetTask manager taskId with
    | none => exact hreserved
    | some task =>
      dsimp only
      split_ifs
      · exact hreserved
      · exact hreserved.setState taskId _

/-- A hard task is admitted when there would be room for it twice. -/
theorem rtAdmitTask_eq_zero_iff (hreserved : Reserved manager)
    (hfind : rtGetTask manager taskId = some task) (hhard : task.rtClass = .hard) :
    (rtAdmitTask manager taskId).2 = 0 ↔ hardLoad manager.tasks + task.utilization ≤ 1 := by
  rw [rtAdmitTask, hfind]
  dsimp only
  rw [hreserved.percent]
  split_ifs with hmore
  · refine iff_of_false (show (-1 : Int) ≠ 0 by decide) fun hfits ↦ ?_
    linarith [hmore.2]
  · refine iff_of_true rfl ?_
    have hfits := not_lt.mp fun hlt ↦ hmore ⟨hhard, hlt⟩
    linarith

/-- After every run whose tasks have positive periods, the percentage is 100 times what the hard
tasks use, and a hard task is admitted exactly when they use no more than the whole processor, if
and only if there would be room for that task twice or there is no room for all of them once. -/
theorem admission_iff (calls : List RtCall) (hperiods : ∀ call ∈ calls, call.PositivePeriod) :
    (runFrom rtStep rtInit calls).cpuReservationPercent =
        100 * hardLoad (runFrom rtStep rtInit calls).tasks ∧
      ∀ taskId task, rtGetTask (runFrom rtStep rtInit calls) taskId = some task →
        task.rtClass = .hard →
          (AdmitsBySum (runFrom rtStep rtInit calls) taskId ↔
            hardLoad (runFrom rtStep rtInit calls).tasks + task.utilization ≤ 1 ∨
              1 < hardLoad (runFrom rtStep rtInit calls).tasks) := by
  have hreserved : Reserved (runFrom rtStep rtInit calls) := by
    refine runFrom_invariant Reserved (fun _ call ↦ call.PositivePeriod)
      (fun _ _ hbefore hcall ↦ reserved_rtStep hbefore hcall) ⟨?_, ?_⟩
      (everyStep_of_forall_mem hperiods)
    · exact (mul_zero (100 : ℚ)).symm
    · exact fun _ hmem ↦ absurd hmem List.not_mem_nil
  refine ⟨hreserved.percent, fun taskId task hfind hhard ↦ ?_⟩
  obtain ⟨hperiod, hworst⟩ := hreserved.positive task (List.mem_of_find?_eq_some hfind)
  have hshare : 0 < task.utilization :=
    div_pos (Int.cast_pos.mpr hworst) (Int.cast_pos.mpr hperiod)
  rw [AdmitsBySum, rtAdmitTask_eq_zero_iff hreserved hfind hhard]
  constructor
  · intro hadmits
    by_cases hall : hardLoad (runFrom rtStep rtInit calls).tasks ≤ 1
    · exact Or.inl (hadmits.mpr hall)
    · exact Or.inr (not_le.mp hall)
  · rintro (htwice | hover)
    · exact iff_of_true htwice (by linarith)
    · exact iff_of_false (by linarith) (not_le.mpr hover)

/-- Two hard tasks that use 3 and 4 of 10: with its own share counted twice the first one fits, and
the second one does not. -/
theorem admission_two_tasks :
    (∀ call ∈ [RtCall.createTask 1 .hard 10 10 3, .createTask 2 .hard 10 10 4],
      call.PositivePeriod) ∧
      (let manager := runFrom rtStep rtInit
        [.createTask 1 .hard 10 10 3, .createTask 2 .hard 10 10 4]
      AdmitsBySum manager 1 ∧ ¬ AdmitsBySum manager 2 ∧
        manager.cpuReservationPercent = 100 * hardLoad manager.tasks ∧
        ∀ taskId task, rtGetTask manager taskId = some task → task.rtClass = .hard →
          (AdmitsBySum manager taskId ↔ hardLoad manager.tasks + task.utilization ≤ 1 ∨
            1 < hardLoad manager.tasks)) := by
  have hperiods : ∀ call ∈ [RtCall.createTask 1 .hard 10 10 3, .createTask 2 .hard 10 10 4],
      call.PositivePeriod := by
    simp [RtCall.PositivePeriod]
  refine ⟨hperiods, ?_, ?_, admission_iff _ hperiods⟩
  · unfold AdmitsBySum
    decide +kernel
  · unfold AdmitsBySum
    decide +kernel

/-- A hard task that uses 6 of 10, and is alone, is not admitted. -/
theorem not_admitsBySum_alone :
    ¬ AdmitsBySum (runFrom rtStep rtInit [.createTask 1 .hard 10 10 6]) 1 := by
  unfold AdmitsBySum
  decide +kernel

end OneOS.Realtime
