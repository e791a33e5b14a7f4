import OneOS.Scheduling.CpuScheduler

/-!
# Fairness of selection

Under `SCHED_POLICY_CFS` the thread that is selected for a cpu should be one of its run queue that
is not asleep and that has been charged no more than the others there (`SelectsFairly`).
`cpu_scheduler_update_vruntime` and `cpu_scheduler_sleep_thread` write the entry of the table, but
`cpu_scheduler_select_next_thread` reads the copy in the run queue, whose runtime is still the 0 it
was enqueued with, and does not look at its state. So the first thread of the run queue is selected
whatever has been charged to it, and `fairSelection_iff` says when that is the right one.
-/

set_option autoImplicit false
set_option relaxedAutoImplicit false

namespace OneOS.Scheduling.Cpu

open Foundation

/-! ### Fair selection -/

/-- The queue of a cpu. -/
def CPUScheduler.queueOf (sched : CPUScheduler) (cpuId : ℕ) : List ScheduleEntry :=
  (sched.runqueues[cpuId]?.map RunQueue.queue).getD []

/-- The thread has been put to sleep and has not been woken. -/
def Asleep (sched : CPUScheduler) (threadId : UInt32) : Prop :=
  ∃ entry ∈ sched.threads, entry.threadId = threadId ∧ entry.state = .sleeping

/-- What a call charges to a thread. -/
def chargeTo (threadId : UInt32) (sched : CPUScheduler) : CpuCall → ℕ
  | .updateVruntime charged runtimeNs =>
    if charged = threadId ∧ (cpuSchedulerUpdateVruntime sched charged runtimeNs).2 = 0 then
      runtimeNs.toNat
    else 0
  | _ => 0

/-- The total runtime that a run of a fresh scheduler charges to a thread. -/
def totalCharged (cpuCount : UInt32) (calls : List CpuCall) (threadId : UInt32) : ℕ :=
  tally cpuStep (chargeTo threadId) (cpuSchedulerInit .cfs cpuCount) calls

/-- No thread of the queue of a cpu that is awake has been charged less than the thread. -/
def LeastCharged (sched : CPUScheduler) (charged : UInt32 → ℕ) (cpuId : ℕ) (threadId : UInt32) :
    Prop :=
  ∀ other ∈ sched.queueOf cpuId, ¬ Asleep sched other.threadId →
    charged threadId ≤ charged other.threadId

/-- The thread that is selected for a cpu is queued there and awake, and no thread there that is
awake has been charged less; no thread is selected when all are asleep. -/
def SelectsFairly (sched : CPUScheduler) (charged : UInt32 → ℕ) (cpuId : ℕ) : Prop :=
  (cpuSchedulerSelectNextThread sched cpuId = 0 ∧
    ∀ entry ∈ sched.queueOf cpuId, Asleep sched entry.threadId) ∨
  ∃ entry ∈ sched.queueOf cpuId, cpuSchedulerSelectNextThread sched cpuId = entry.threadId ∧
    ¬ Asleep sched entry.threadId ∧ LeastCharged sched charged cpuId entry.threadId

/-- The condition on a scheduler: the first thread of the queue, if there is one, is awake and has
been charged least. -/
def FirstIsFair (sched : CPUScheduler) (charged : UInt32 → ℕ) (cpuId : ℕ) : Prop :=
  ∀ first, (sched.queueOf cpuId).head? = some first →
    ¬ Asleep sched first.threadId ∧ LeastCharged sched charged cpuId first.threadId

variable {sched : CPUScheduler} {call : CpuCall} {threadId : UInt32} {cpuId : ℕ}

/-! ### Copies in the run queues -/

/-- The policy is `SCHED_POLICY_CFS`, the copies in the run queues have no runtime, and no thread
with id 0 is asleep. -/
structure CopiesUncharged (sched : CPUScheduler) : Prop where
  policy : sched.policy = .cfs
  copies : ∀ runqueue ∈ sched.runqueues, ∀ entry ∈ runqueue.queue, entry.vruntimeNs = 0
  named : ∀ entry ∈ sched.threads, entry.threadId = 0 → entry.state ≠ .sleeping

/-- Nothing is charged to the copies when run queues are changed so that their copies are old ones
or have no runtime either. -/
theorem CopiesUncharged.with_runqueues (huncharged : CopiesUncharged sched)
    {runqueues : List RunQueue}
    (hcopies : ∀ runqueue ∈ runqueues, ∀ entry ∈ runqueue.queue, entry.vruntimeNs = 0) :
    CopiesUncharged { sched with runqueues := runqueues } :=
  ⟨huncharged.policy, hcopies, huncharged.named⟩

/-- A change of an entry of the table is not seen by the copies. -/
theorem CopiesUncharged.onThread (huncharged : CopiesUncharged sched) (threadId : UInt32)
    (test : ScheduleEntry → Bool) {change : ScheduleEntry → ScheduleEntry}
    (hkeep : ∀ entry, (change entry).threadId = entry.threadId) :
    CopiesUncharged (onThread sched threadId test change).1 := by
  unfold Cpu.onThread
  split_ifs with hzero
  · exact huncharged
  · refine ⟨huncharged.policy, huncharged.copies, fun entry hentry hid ↦ ?_⟩
    rcases mem_updateFirst hentry with hold | ⟨old, hfind, rfl⟩
    · exact huncharged.named entry hold hid
    · have hmatch := List.find?_some hfind
      simp only [Bool.and_eq_true, decide_eq_true_eq] at hmatch
      rw [hkeep, hmatch.1] at hid
      exact absurd hid hzero
  · exact huncharged

/-- Nothing is charged to the copies when a thread is dequeued. -/
theorem CopiesUncharged.dequeueThread (huncharged : CopiesUncharged sched) (cpuId : ℕ)
    (threadId : UInt32) : CopiesUncharged (cpuSchedulerDequeueThread sched cpuId threadId).1 := by
  unfold cpuSchedulerDequeueThread
  split_ifs
  · exact huncharged
  · refine huncharged.with_runqueues (forall_mem_modify huncharged.copies ?_ cpuId)
    intro runqueue hqueue entry hentry
    exact hqueue entry (List.mem_of_mem_eraseP hentry)
  · exact huncharged

/-- Nothing is charged to the copies when an entry without runtime is put on a run queue. -/
theorem CopiesUncharged.push (huncharged : CopiesUncharged sched) {entry : ScheduleEntry}
    (hentry : entry.vruntimeNs = 0) (cpuId : ℕ) :
    ∀ runqueue ∈ sched.runqueues.modify cpuId (·.push entry),
      ∀ entry ∈ runqueue.queue, entry.vruntimeNs = 0 := by
  refine forall_mem_modify huncharged.copies ?_ cpuId
  intro runqueue hqueue other hother
  rcases List.mem_append.mp hother with hold | hnew
  · exact hqueue other hold
  · rw [List.mem_singleton.mp hnew]
    exact hentry

/-- Every call keeps the copies without runtime. -/
theorem CopiesUncharged.step (huncharged : CopiesUncharged sched) (call : CpuCall) :
    CopiesUncharged (cpuStep sched call) := by
  cases call with
  | addRunqueue cpuId =>
    rw [cpuStep, cpuSchedulerAddRunqueue]
    split_ifs
    · exact huncharged
    · refine huncharged.with_runqueues fun runqueue hqueue ↦ ?_
      rcases List.mem_append.mp hqueue with hold | hnew
      · exact huncharged.copies runqueue hold
      · simp [List.mem_singleton.mp hnew]
  | removeRunqueue cpuId =>
    rw [cpuStep, cpuSchedulerRemoveRunqueue]
    split_ifs
    · exact huncharged
    · exact huncharged.with_runqueues fun runqueue hqueue ↦
        huncharged.copies runqueue (List.mem_of_mem_eraseIdx hqueue)
  | enqueueThread threadId processId priority cpuAffinity =>
    simp only [cpuStep, cpuSchedulerEnqueueThread]
    split
    · exact huncharged
    · refine ⟨huncharged.policy, ?_, fun entry hentry ↦ ?_⟩
      · split
        · exact huncharged.push rfl _
        · exact huncharged.copies
      · rcases List.mem_append.mp hentry with hold | hnew
        · exact huncharged.named entry hold
        · simp [List.mem_singleton.mp hnew, freshEntry]
  | dequeueThread cpuId threadId => exact huncharged.dequeueThread cpuId threadId
  | migrateThread threadId targetCpu =>
    simp only [cpuStep, cpuSchedulerMigrateThread]
    split
    · exact huncharged
    · split
      · exact huncharged
      · rename_i thread hthread
        obtain ⟨runqueue, hqueue, hfind⟩ := Option.bind_eq_some_iff.mp hthread
        have hcopy := huncharged.copies runqueue (List.mem_of_getElem? hqueue) thread
          (List.mem_of_find?_eq_some hfind)
        have hdequeued := huncharged.dequeueThread
          (sched.runqueues.findIdx (·.has threadId)) threadId
        split
        · exact ⟨hdequeued.policy, hdequeued.push hcopy targetCpu, hdequeued.named⟩
        · exact hdequeued
  | updateRunqueueLoads =>
    refine huncharged.with_runqueues fun runqueue hqueue ↦ ?_
    obtain ⟨old, hold, rfl⟩ := List.mem_map.mp hqueue
    exact huncharged.copies old hold
  | runThread cpuId threadId =>
    rw [cpuStep, cpuSchedulerRunThread]
    split_ifs
    · exact huncharged
    · refine huncharged.with_runqueues (forall_mem_modify huncharged.copies ?_ cpuId)
      intro runqueue hqueue entry hentry
      rcases mem_updateFirst hentry with hold | ⟨old, hfind, rfl⟩
      · exact hqueue entry hold
      · exact hqueue old (List.mem_of_find?_eq_some hfind)
    · exact huncharged
  | updateVruntime threadId runtimeNs => exact huncharged.onThread threadId _ fun _ ↦ rfl
  | wakeUpThread threadId => exact huncharged.onThread threadId _ fun _ ↦ rfl
  | sleepThread threadId => exact huncharged.onThread threadId _ fun _ ↦ rfl

/-! ### What is selected -/

/-- A loop that finds nothing better than the first element keeps it. -/
theorem firstBest_eq_first {Item : Type} {better : Item → Item → Bool} {first : Item}
    {rest : List Item} (hnone : ∀ item ∈ rest, better item first = false) :
    firstBest better first rest = first := by
  unfold firstBest
  induction rest with
  | nil => rfl
  | cons item rest ih =>
    rw [List.foldl_cons, hnone item List.mem_cons_self, if_neg Bool.false_ne_true]
    exact ih fun other hother ↦ hnone other (List.mem_cons_of_mem _ hother)

/-- The first thread of the queue of a cpu is selected, and 0 if there is none. -/
theorem CopiesUncharged.select (huncharged : CopiesUncharged sched) (cpuId : ℕ) :
    cpuSchedulerSelectNextThread sched cpuId =
      ((sched.queueOf cpuId).head?.map ScheduleEntry.threadId).getD 0 := by
  unfold cpuSchedulerSelectNextThread CPUScheduler.queueOf
  cases hqueue : sched.runqueues[cpuId]? with
  | none => rfl
  | some runqueue =>
    have hcopies := huncharged.copies runqueue (List.mem_of_getElem? hqueue)
    cases hentries : runqueue.queue with
    | nil => simp [hentries]
    | cons first rest =>
      rw [hentries] at hcopies
      have hfirst := hcopies first List.mem_cons_self
      simp only [huncharged.policy, hentries, Option.map_some, Option.getD_some, List.head?_cons]
      rw [firstBest_eq_first]
      intro entry hentry
      simp [hcopies entry (List.mem_cons_of_mem _ hentry), hfirst]

/-- The selection is fair exactly when it is fair to select the first thread of the queue. -/
theorem CopiesUncharged.selectsFairly_iff (huncharged : CopiesUncharged sched)
    (charged : UInt32 → ℕ) (cpuId : ℕ) :
    SelectsFairly sched charged cpuId ↔ FirstIsFair sched charged cpuId := by
  unfold SelectsFairly FirstIsFair
  rw [huncharged.select cpuId]
  cases hqueue : sched.queueOf cpuId with
  | nil => simp
  | cons first rest =>
    simp only [List.head?_cons, Option.map_some, Option.getD_some, Option.some.injEq, forall_eq']
    constructor
    · rintro (⟨hzero, hasleep⟩ | ⟨entry, -, hsame, hawake, hleast⟩)
      · -- a thread with id 0 is never put to sleep
        obtain ⟨entry, hentry, hid, hstate⟩ := hasleep first List.mem_cons_self
        exact absurd hstate (huncharged.named entry hentry (hid.trans hzero))
      · rw [hsame]
        exact ⟨hawake, hleast⟩
    · rintro ⟨hawake, hleast⟩
      exact Or.inr ⟨first, List.mem_cons_self, rfl, hawake, hleast⟩

/-! ### Runs -/

/-- Nothing has been charged to the copies of a fresh scheduler. -/
theorem copiesUncharged_cpuSchedulerInit (cpuCount : UInt32) :
    CopiesUncharged (cpuSchedulerInit .cfs cpuCount) := by
  unfold cpuSchedulerInit
  generalize List.range (min cpuCount.toNat maxRunqueues) = cpus
  induction cpus using List.reverseRecOn with
  | nil => exact ⟨rfl, by simp, by simp⟩
  | append_singleton cpus cpuId ih =>
    rw [List.foldl_append]
    exact ih.step (.addRunqueue cpuId)

/-- After every run of a fresh scheduler under `SCHED_POLICY_CFS` that has not divided by zero, the
selection for a cpu is fair exactly when the first thread of its queue, if there is one, is awake
and no other thread there that is awake has been charged less. -/
theorem fairSelection_iff {sched : CPUScheduler} (cpuCount : UInt32) (calls : List CpuCall)
    (hreached : runFrom cpuProgram (some (cpuSchedulerInit .cfs cpuCount)) calls = some sched)
    (cpuId : ℕ) :
    SelectsFairly sched (totalCharged cpuCount calls) cpuId ↔
      FirstIsFair sched (totalCharged cpuCount calls) cpuId := by
  have huncharged : CopiesUncharged (runFrom cpuStep (cpuSchedulerInit .cfs cpuCount) calls) :=
    runFrom_invariant CopiesUncharged (fun _ _ ↦ True) (fun _ call hbefore _ ↦ hbefore.step call)
      (copiesUncharged_cpuSchedulerInit cpuCount) (fun _ _ _ ↦ trivial)
  rw [of_runFrom_endingStep hreached] at huncharged
  exact huncharged.selectsFairly_iff (totalCharged cpuCount calls) cpuId

/-- Two threads are enqueued on cpu 0 and the second one is charged. -/
theorem fairSelection_iff_second_charged :
    ∃ sched, runFrom cpuProgram (some (cpuSchedulerInit .cfs 1))
        [.enqueueThread 1 1 0 0, .enqueueThread 2 1 0 0, .updateVruntime 2 5] = some sched ∧
      (SelectsFairly sched
          (totalCharged 1
            [.enqueueThread 1 1 0 0, .enqueueThread 2 1 0 0, .updateVruntime 2 5]) 0 ↔
        FirstIsFair sched
          (totalCharged 1
            [.enqueueThread 1 1 0 0, .enqueueThread 2 1 0 0, .updateVruntime 2 5]) 0) :=
  ⟨_, rfl, fairSelection_iff 1
    [.enqueueThread 1 1 0 0, .enqueueThread 2 1 0 0, .updateVruntime 2 5] rfl 0⟩

/-- Two threads are enqueued on cpu 0 and the first one is charged; it is still selected. -/
theorem fairSelection_charged :
    ∃ sched, runFrom cpuProgram (some (cpuSchedulerInit .cfs 1))
        [.enqueueThread 1 1 0 0, .enqueueThread 2 1 0 0, .updateVruntime 1 5] = some sched ∧
      ¬ SelectsFairly sched
        (totalCharged 1
          [.enqueueThread 1 1 0 0, .enqueueThread 2 1 0 0, .updateVruntime 1 5]) 0 := by
  refine ⟨_, rfl, ?_⟩
  rintro (⟨hzero, -⟩ | ⟨entry, -, hsame, -, hleast⟩)
  · revert hzero
    decide +kernel
  · have hless := hleast (freshEntry 2 1 0 0) (by decide +kernel) (by
      rintro ⟨other, hother, hid, hstate⟩
      revert other
      decide +kernel)
    rw [← hsame] at hless
    revert hless
    decide +kernel

end OneOS.Scheduling.Cpu
