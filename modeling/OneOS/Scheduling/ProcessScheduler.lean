import OneOS.Foundation.Runs
import OneOS.Foundation.StoredTables

/-!
# The round-robin scheduler of processes

`core-services/process_scheduler.c`: an array of processes, a count of those that are listed, and a
cursor that goes around them. A process that is added takes the slot behind the listed ones and gets
its number as its pid; one that is removed is overwritten by those behind it, which move down. The
cursor is left where it stands, and `scheduler_get_current_process` reads the slot at the cursor
whether it is listed or not.

The name of a process is copied into 256 bytes without a check. What a longer name overwrites is not
defined by the language, so it is a parameter `overrun` of the model, an arbitrary change of the
scheduler, and `NameFits` says that a call does not come to it. Left out are the time slice, which
no function reads, and the checks of pointers other than that of the name.
-/

set_option autoImplicit false
set_option relaxedAutoImplicit false

namespace OneOS.Scheduling.RoundRobin

open Foundation

/-! ### The scheduler -/

/-- `MAX_SCHEDULED_PROCESSES`. -/
def maxScheduledProcesses : ℕ := 512

/-- The number of bytes for the name of a process. -/
def nameSize : ℕ := 256

/-- `ProcessPriority`. -/
inductive ProcessPriority
  | realtime
  | high
  | normal
  | low
  | idle
  deriving DecidableEq, Repr

/-- `ProcessState`. -/
inductive ProcessState
  | new
  | ready
  | running
  | waiting
  | terminated
  deriving DecidableEq, Repr

/-- `ScheduledProcess`. -/
structure ScheduledProcess where
  pid : UInt32
  name : List UInt8
  state : ProcessState
  priority : ProcessPriority
  cpuTime : UInt32
  memoryUsage : UInt32
  contextSwitches : UInt32
  creationTime : UInt64
  deriving DecidableEq, Repr

/-- A process whose bytes are 0. -/
def ScheduledProcess.zero : ScheduledProcess where
  pid := 0
  name := []
  state := .new
  priority := .realtime
  cpuTime := 0
  memoryUsage := 0
  contextSwitches := 0
  creationTime := 0

/-- `ProcessScheduler`. -/
structure ProcessScheduler where
  processes : ℕ → ScheduledProcess
  processCount : ℕ
  currentProcessIdx : ℕ

/-- `scheduler_create`. -/
def schedulerCreate : ProcessScheduler where
  processes := fun _ ↦ ScheduledProcess.zero
  processCount := 0
  currentProcessIdx := 0

/-- The processes that are listed. -/
def ProcessScheduler.listed (scheduler : ProcessScheduler) : List ScheduledProcess :=
  firstOf scheduler.processes scheduler.processCount

/-! ### The calls -/

/-- The process that `scheduler_add_process` writes. -/
def ProcessScheduler.newProcess (scheduler : ProcessScheduler) (name : List UInt8)
    (priority : ProcessPriority) (now : UInt64) : ScheduledProcess where
  pid := UInt32.ofNat (scheduler.processCount + 1)
  name := name
  state := .new
  priority := priority
  cpuTime := 0
  memoryUsage := 0
  contextSwitches := 0
  creationTime := now

/-- `scheduler_add_process`, with the bytes of the name before its end, if the pointer is not
`NULL`. -/
def schedulerAddProcess (overrun : ProcessScheduler → ProcessScheduler)
    (scheduler : ProcessScheduler) (name : Option (List UInt8)) (priority : ProcessPriority)
    (now : UInt64) : ProcessScheduler × UInt32 :=
  if maxScheduledProcesses ≤ scheduler.processCount then (scheduler, 0)
  else
    match name with
    | none => (scheduler, 0)
    | some name =>
      let process := scheduler.newProcess name priority now
      let added := { scheduler with
        processes := Function.update scheduler.processes scheduler.processCount process
        processCount := scheduler.processCount + 1 }
      (if name.length < nameSize then added else overrun added, process.pid)

/-- The test of the loops that look for a pid. -/
def hasPid (pid : UInt32) (process : ScheduledProcess) : Bool :=
  process.pid == pid

/-- The slot of the first listed process with a pid. -/
def ProcessScheduler.slotOf (scheduler : ProcessScheduler) (pid : UInt32) : Option ℕ :=
  firstSlot (hasPid pid) scheduler.processCount scheduler.processes

/-- `scheduler_remove_process`. -/
def schedulerRemoveProcess (scheduler : ProcessScheduler) (pid : UInt32) : ProcessScheduler :=
  match scheduler.slotOf pid with
  | none => scheduler
  | some slot =>
    { scheduler with
      processes := closeGap slot scheduler.processCount scheduler.processes
      processCount := scheduler.processCount - 1 }

/-- `scheduler_schedule_next`. -/
def schedulerScheduleNext (scheduler : ProcessScheduler) : ProcessScheduler :=
  if scheduler.processCount = 0 then scheduler
  else
    { scheduler with
      currentProcessIdx := (scheduler.currentProcessIdx + 1) % scheduler.processCount }

/-- `scheduler_get_current_process`, with the returned pointer as the process it points to. -/
def schedulerGetCurrentProcess (scheduler : ProcessScheduler) : Option ScheduledProcess :=
  if scheduler.processCount = 0 then none
  else some (scheduler.processes scheduler.currentProcessIdx)

/-- `scheduler_update_process_state`. -/
def schedulerUpdateProcessState (scheduler : ProcessScheduler) (pid : UInt32)
    (state : ProcessState) : ProcessScheduler :=
  { scheduler with
    processes := updateSlot (hasPid pid) (fun process ↦ { process with state := state })
      scheduler.processCount scheduler.processes }

/-- A call of the scheduler. -/
inductive SchedulerCall
  | addProcess (name : Option (List UInt8)) (priority : ProcessPriority) (now : UInt64)
  | removeProcess (pid : UInt32)
  | scheduleNext
  | updateProcessState (pid : UInt32) (state : ProcessState)
  deriving DecidableEq, Repr

/-- The scheduler after a call. -/
def schedulerStep (overrun : ProcessScheduler → ProcessScheduler) (scheduler : ProcessScheduler) :
    SchedulerCall → ProcessScheduler
  | .addProcess name priority now => (schedulerAddProcess overrun scheduler name priority now).1
  | .removeProcess pid => schedulerRemoveProcess scheduler pid
  | .scheduleNext => schedulerScheduleNext scheduler
  | .updateProcessState pid state => schedulerUpdateProcessState scheduler pid state

/-- The name of a process that is added fits in its bytes. -/
def NameFits : SchedulerCall → Prop
  | .addProcess (some name) _ _ => name.length < nameSize
  | _ => True

/-- What so many calls of `scheduler_schedule_next` in a row select. -/
def selections : ℕ → ProcessScheduler → List (Option ScheduledProcess)
  | 0, _ => []
  | rounds + 1, scheduler =>
    schedulerGetCurrentProcess (schedulerScheduleNext scheduler) ::
      selections rounds (schedulerScheduleNext scheduler)

/-! ### Safety of the cursor -/

/-- Pids are distinct, the cursor is on a listed process, which is the one that is returned as the
current one, and as many calls in a row as there are processes select each of them once. -/
structure SchedulesSafely (scheduler : ProcessScheduler) : Prop where
  distinct : (scheduler.listed.map ScheduledProcess.pid).Nodup
  cursor : 0 < scheduler.processCount → scheduler.currentProcessIdx < scheduler.processCount
  current : ∀ process ∈ schedulerGetCurrentProcess scheduler, process ∈ scheduler.listed
  round : (selections scheduler.processCount scheduler).Perm (scheduler.listed.map some)

/-- The condition on a call, in the state before it. No listed process has the pid of one that is
added, and a listed process is removed only while the cursor is not on the last one, unless that is
the only one. -/
def SchedulerCall.KeepsCursor (scheduler : ProcessScheduler) : SchedulerCall → Prop
  | .addProcess name _ _ => name ≠ none → scheduler.processCount < maxScheduledProcesses →
      scheduler.slotOf (UInt32.ofNat (scheduler.processCount + 1)) = none
  | .removeProcess pid => scheduler.slotOf pid ≠ none →
      scheduler.currentProcessIdx + 1 < scheduler.processCount ∨ scheduler.processCount = 1
  | .scheduleNext | .updateProcessState _ _ => True

variable {overrun : ProcessScheduler → ProcessScheduler} {scheduler : ProcessScheduler}
  {call : SchedulerCall}

/-- What so many calls in a row select is what a walk around the listed processes meets, from the
one behind the cursor on. -/
theorem selections_eq (rounds : ℕ) (hsome : scheduler.processCount ≠ 0) :
    selections rounds scheduler = (ringOf scheduler.processes scheduler.processCount
      (scheduler.currentProcessIdx + 1) rounds).map some := by
  induction rounds generalizing scheduler with
  | zero => rfl
  | succ rounds ih =>
    have hnext : schedulerScheduleNext scheduler = { scheduler with
        currentProcessIdx := (scheduler.currentProcessIdx + 1) % scheduler.processCount } :=
      if_neg hsome
    have hrest : selections rounds (schedulerScheduleNext scheduler) =
        (ringOf scheduler.processes scheduler.processCount
          ((scheduler.currentProcessIdx + 1) % scheduler.processCount + 1) rounds).map some := by
      rw [hnext]
      exact ih hsome
    rw [selections, hrest, ringOf_pop, List.map_cons]
    congr 1
    · rw [hnext]
      exact if_neg hsome
    · rw [← ringOf_mod, Nat.mod_add_mod]

/-- As many calls in a row as there are processes select each of them once, wherever the cursor
stands. -/
theorem selections_perm (scheduler : ProcessScheduler) :
    (selections scheduler.processCount scheduler).Perm (scheduler.listed.map some) := by
  by_cases hnone : scheduler.processCount = 0
  · rw [ProcessScheduler.listed, hnone]
    exact List.Perm.refl _
  · rw [selections_eq _ hnone]
    exact (ringOf_perm_firstOf _).map some

/-- What is asked of a scheduler comes down to the pids and the cursor. -/
theorem schedulesSafely_iff :
    SchedulesSafely scheduler ↔ (scheduler.listed.map ScheduledProcess.pid).Nodup ∧
      (0 < scheduler.processCount → scheduler.currentProcessIdx < scheduler.processCount) := by
  refine ⟨fun hsafe ↦ ⟨hsafe.distinct, hsafe.cursor⟩, ?_⟩
  rintro ⟨hdistinct, hcursor⟩
  refine ⟨hdistinct, hcursor, fun process hprocess ↦ ?_, selections_perm scheduler⟩
  rw [schedulerGetCurrentProcess] at hprocess
  split_ifs at hprocess with hnone
  · exact absurd hprocess (Option.not_mem_none process)
  · obtain rfl := Option.mem_some_iff.mp hprocess
    exact mem_firstOf.mpr ⟨_, hcursor (Nat.pos_of_ne_zero hnone), rfl⟩

/-- What holds along a run: besides, the cursor is at the start when nothing is listed. -/
structure CursorHolds (scheduler : ProcessScheduler) : Prop where
  distinct : (scheduler.listed.map ScheduledProcess.pid).Nodup
  cursor : 0 < scheduler.processCount → scheduler.currentProcessIdx < scheduler.processCount
  emptied : scheduler.processCount = 0 → scheduler.currentProcessIdx = 0

theorem CursorHolds.safely (hholds : CursorHolds scheduler) : SchedulesSafely scheduler :=
  schedulesSafely_iff.mpr ⟨hholds.distinct, hholds.cursor⟩

/-- No slot has a pid exactly when no listed process does. -/
theorem slotOf_eq_none_iff {pid : UInt32} :
    scheduler.slotOf pid = none ↔ ∀ process ∈ scheduler.listed, process.pid ≠ pid := by
  rw [ProcessScheduler.slotOf, firstSlot_eq_none_iff]
  constructor
  · intro hnone process hprocess
    obtain ⟨slot, hslot, rfl⟩ := mem_firstOf.mp hprocess
    exact beq_eq_false_iff_ne.mp (hnone slot hslot)
  · intro hother slot hslot
    exact beq_eq_false_iff_ne.mpr (hother _ (mem_firstOf.mpr ⟨slot, hslot, rfl⟩))

/-! ### One call -/

/-- A call in a state with the invariant keeps what is asked exactly under its condition, and under
it the invariant. -/
structure KeepsExactly (overrun : ProcessScheduler → ProcessScheduler)
    (scheduler : ProcessScheduler) (call : SchedulerCall) : Prop where
  safely_iff : SchedulesSafely (schedulerStep overrun scheduler call) ↔ call.KeepsCursor scheduler
  holds : call.KeepsCursor scheduler → CursorHolds (schedulerStep overrun scheduler call)

/-- A call that changes nothing that is asked for. -/
theorem CursorHolds.kept (hkept : CursorHolds (schedulerStep overrun scheduler call))
    (hcondition : call.KeepsCursor scheduler) : KeepsExactly overrun scheduler call :=
  ⟨iff_of_true hkept.safely hcondition, fun _ ↦ hkept⟩

/-- Assumes: the name fits. A process that is listed behind the others has their distinct pids when
its own is new. -/
theorem CursorHolds.addProcess (hholds : CursorHolds scheduler) {name : Option (List UInt8)}
    {priority : ProcessPriority} {now : UInt64} (hfits : NameFits (.addProcess name priority now)) :
    KeepsExactly overrun scheduler (.addProcess name priority now) := by
  by_cases hroom : maxScheduledProcesses ≤ scheduler.processCount
  · have hstep : schedulerStep overrun scheduler (.addProcess name priority now) = scheduler := by
      exact congrArg Prod.fst (if_pos hroom)
    refine CursorHolds.kept (by rwa [hstep]) fun _ hless ↦ ?_
    exact absurd hroom (Nat.not_le.mpr hless)
  · cases name with
    | none =>
      have hstep : schedulerStep overrun scheduler (.addProcess none priority now) = scheduler := by
        rw [schedulerStep, schedulerAddProcess, if_neg hroom]
      exact CursorHolds.kept (by rwa [hstep]) fun hname ↦ absurd rfl hname
    | some name =>
      have hstep : schedulerStep overrun scheduler (.addProcess (some name) priority now) =
          { scheduler with
            processes := Function.update scheduler.processes scheduler.processCount
              (scheduler.newProcess name priority now)
            processCount := scheduler.processCount + 1 } := by
        rw [schedulerStep, schedulerAddProcess, if_neg hroom]
        exact if_pos hfits
      have hlisted : (schedulerStep overrun scheduler
          (.addProcess (some name) priority now)).listed =
            scheduler.listed ++ [scheduler.newProcess name priority now] := by
        rw [hstep]
        exact firstOf_update_succ _
      have hpids : ((schedulerStep overrun scheduler
          (.addProcess (some name) priority now)).listed.map ScheduledProcess.pid).Nodup ↔
            SchedulerCall.KeepsCursor scheduler (.addProcess (some name) priority now) := by
        have hroom' : scheduler.processCount < maxScheduledProcesses := Nat.not_le.mp hroom
        rw [hlisted, nodup_map_concat_iff hholds.distinct, SchedulerCall.KeepsCursor,
          slotOf_eq_none_iff]
        exact ⟨fun hnew _ _ ↦ hnew, fun hnew ↦ hnew (Option.some_ne_none name) hroom'⟩
      have hcursor : scheduler.currentProcessIdx < scheduler.processCount + 1 := by
        have hused := hholds.cursor
        have hempty := hholds.emptied
        omega
      have hafter : (schedulerStep overrun scheduler
          (.addProcess (some name) priority now)).currentProcessIdx <
            (schedulerStep overrun scheduler
              (.addProcess (some name) priority now)).processCount := by
        rw [hstep]
        exact hcursor
      constructor
      · rw [schedulesSafely_iff, hpids]
        exact and_iff_left fun _ ↦ hafter
      · intro hcondition
        exact ⟨hpids.mpr hcondition, fun _ ↦ hafter, fun hzero ↦ by omega⟩

/-- Assumes: a process with the pid is listed. The cursor stays on a listed process when it was not
on the last one. -/
theorem CursorHolds.removeProcess (hholds : CursorHolds scheduler) (pid : UInt32) :
    KeepsExactly overrun scheduler (.removeProcess pid) := by
  cases hslot : scheduler.slotOf pid with
  | none =>
    have hstep : schedulerStep overrun scheduler (.removeProcess pid) = scheduler := by
      rw [schedulerStep, schedulerRemoveProcess, hslot]
    exact CursorHolds.kept (by rwa [hstep]) fun hfound ↦ absurd hslot hfound
  | some slot =>
    have hused := (firstSlot_spec hslot).1
    have hstep : schedulerStep overrun scheduler (.removeProcess pid) =
        { scheduler with
          processes := closeGap slot scheduler.processCount scheduler.processes
          processCount := scheduler.processCount - 1 } := by
      rw [schedulerStep, schedulerRemoveProcess, hslot]
    have hlisted : (schedulerStep overrun scheduler (.removeProcess pid)).listed =
        scheduler.listed.eraseIdx slot := by
      rw [hstep]
      exact firstOf_closeGap hused
    have hdistinct : ((schedulerStep overrun scheduler (.removeProcess pid)).listed.map
        ScheduledProcess.pid).Nodup := by
      rw [hlisted]
      exact hholds.distinct.sublist ((List.eraseIdx_sublist _ _).map _)
    have hcursor := hholds.cursor (by omega)
    have hcondition : SchedulerCall.KeepsCursor scheduler (.removeProcess pid) ↔
        scheduler.currentProcessIdx + 1 < scheduler.processCount ∨ scheduler.processCount = 1 := by
      rw [SchedulerCall.KeepsCursor, hslot]
      exact ⟨fun himp ↦ himp (Option.some_ne_none slot), fun hplace _ ↦ hplace⟩
    constructor
    · rw [schedulesSafely_iff, and_iff_right hdistinct, hcondition, hstep]
      dsimp only
      omega
    · rw [hcondition]
      intro hplace
      refine ⟨hdistinct, ?_, ?_⟩
      · rw [hstep]
        dsimp only
        omega
      · rw [hstep]
        dsimp only
        omega

/-- The cursor moves to a listed process. -/
theorem CursorHolds.scheduleNext (hholds : CursorHolds scheduler) :
    KeepsExactly overrun scheduler .scheduleNext := by
  refine CursorHolds.kept ?_ trivial
  rw [schedulerStep, schedulerScheduleNext]
  split_ifs with hnone
  · exact hholds
  · refine ⟨hholds.distinct, fun hsome ↦ Nat.mod_lt _ hsome, fun hzero ↦ absurd hzero hnone⟩

/-- A change of the state of a process keeps its pid. -/
theorem CursorHolds.updateProcessState (hholds : CursorHolds scheduler) (pid : UInt32)
    (state : ProcessState) : KeepsExactly overrun scheduler (.updateProcessState pid state) := by
  have hpids : (schedulerStep overrun scheduler (.updateProcessState pid state)).listed.map
      ScheduledProcess.pid = scheduler.listed.map ScheduledProcess.pid := by
    rw [schedulerStep, schedulerUpdateProcessState, ProcessScheduler.listed, firstOf_updateSlot]
    exact map_updateFirst fun _ _ ↦ rfl
  refine CursorHolds.kept ⟨?_, hholds.cursor, hholds.emptied⟩ trivial
  rw [hpids]
  exact hholds.distinct

/-- Assumes: the name of a process that is added fits. -/
theorem CursorHolds.step (hholds : CursorHolds scheduler) (hfits : NameFits call) :
    KeepsExactly overrun scheduler call := by
  cases call with
  | addProcess name priority now => exact hholds.addProcess hfits
  | removeProcess pid => exact hholds.removeProcess pid
  | scheduleNext => exact hholds.scheduleNext
  | updateProcessState pid state => exact hholds.updateProcessState pid state

/-! ### Runs -/

theorem cursorHolds_create : CursorHolds schedulerCreate where
  distinct := List.nodup_nil
  cursor := fun hsome ↦ absurd hsome (Nat.lt_irrefl 0)
  emptied := fun _ ↦ rfl

/-- Assumes: the names of the processes that are added fit in their bytes. Over every run, pids are
distinct, the cursor is on a listed process and a round selects each process once, exactly when
every call meets its condition. -/
theorem schedulesSafely_alongRun_iff (overrun : ProcessScheduler → ProcessScheduler)
    (calls : List SchedulerCall) (hfits : ∀ call ∈ calls, NameFits call) :
    AlongRun (schedulerStep overrun) SchedulesSafely schedulerCreate calls ↔
      EveryStep (schedulerStep overrun) (fun scheduler call ↦ call.KeepsCursor scheduler)
        schedulerCreate calls := by
  refine alongRun_iff_everyStep_of_kept CursorHolds (fun _ call ↦ NameFits call) ?_
    (fun _ hholds ↦ hholds.safely) ?_ cursorHolds_create (everyStep_of_forall_mem hfits)
  · intro scheduler call hholds hname hcondition
    exact (hholds.step hname).holds hcondition
  · intro scheduler call hholds hname
    exact (hholds.step hname).safely_iff

/-- Three processes, of which the first is removed while the cursor is on the second. -/
theorem schedulesSafely_three_processes :
    AlongRun (schedulerStep id) SchedulesSafely schedulerCreate
      [.addProcess (some [97]) .normal 0, .addProcess (some [98]) .high 1,
        .addProcess (some [99]) .low 2, .scheduleNext, .removeProcess 1, .scheduleNext] := by
  refine (schedulesSafely_alongRun_iff id _ (by simp [NameFits, nameSize])).mpr ?_
  simp only [everyStep_cons, everyStep_nil, SchedulerCall.KeepsCursor, and_true]
  decide

/-- Two processes, of which the second is removed while the cursor is on it: the cursor is behind
the one that is left. -/
theorem not_schedulesSafely_removed_last :
    ¬ AlongRun (schedulerStep id) SchedulesSafely schedulerCreate
      [.addProcess (some [97]) .normal 0, .addProcess (some [98]) .normal 1, .scheduleNext,
        .removeProcess 2] := by
  intro halong
  have hcursor := (halong _ (List.prefix_refl _)).cursor (by decide)
  exact absurd hcursor (by decide)

end OneOS.Scheduling.RoundRobin
