import OneOS.Scheduling.CpuScheduler

/-!
# Entries in the run queues of the CPU scheduler

The run queues together never hold more entries than there are threads in the table, so a run queue
always has room for one more as long as the table has (`QueuesConserved`). This is what keeps
`cpu_scheduler_migrate_thread` from losing an entry: it takes the entry off its run queue before it
looks whether the target has room.
-/

set_option autoImplicit false
set_option relaxedAutoImplicit false

namespace OneOS.Scheduling.Cpu

open Foundation

/-! ### What is conserved -/

/-- The entries in all run queues. -/
def CPUScheduler.entries (sched : CPUScheduler) : List ScheduleEntry :=
  sched.runqueues.flatMap RunQueue.queue

/-- The load of every run queue is its length, and all lengths together are at most the number of
threads, for which there is room in the table. -/
structure QueuesConserved (sched : CPUScheduler) : Prop where
  load : ∀ runqueue ∈ sched.runqueues, runqueue.load.toNat = runqueue.queue.length
  queued : (sched.runqueues.map fun runqueue ↦ runqueue.queue.length).sum ≤ sched.threads.length
  room : sched.threads.length ≤ maxSchedulableThreads

/-- What a call should do with the entries: a thread that is accepted is put on exactly one run
queue, and a queued thread that is migrated to a run queue that exists is moved there, its first
entry being taken off the first run queue that has one and no entry being lost. -/
def MovesEntry (sched : CPUScheduler) : CpuCall → Prop
  | .enqueueThread threadId processId priority cpuAffinity =>
    sched.threads.length < maxSchedulableThreads →
      ∃ targetCpu < sched.runqueues.length,
        (cpuSchedulerEnqueueThread sched threadId processId priority cpuAffinity).1.runqueues =
          sched.runqueues.modify targetCpu
            (·.push (freshEntry threadId processId priority cpuAffinity))
  | .migrateThread threadId targetCpu =>
    threadId ≠ 0 → targetCpu < sched.runqueues.length →
      (∃ runqueue ∈ sched.runqueues, runqueue.has threadId) →
        (cpuSchedulerMigrateThread sched threadId targetCpu).2 = 0 ∧
          (∃ source runqueue entry, sched.runqueues[source]? = some runqueue ∧
            runqueue.queue.find? (·.threadId = threadId) = some entry ∧
              (cpuSchedulerMigrateThread sched threadId targetCpu).1.runqueues =
                (sched.runqueues.modify source (·.drop threadId)).modify targetCpu
                  (·.push entry)) ∧
            (cpuSchedulerMigrateThread sched threadId targetCpu).1.entries.Perm sched.entries
  | _ => True

/-- The call does not remove a run queue. -/
def KeepsRunqueues : CpuCall → Prop
  | .removeRunqueue _ => False
  | _ => True

variable {sched : CPUScheduler} {threadId : UInt32} {cpuId : ℕ} {runqueue : RunQueue}
variable {entry : ScheduleEntry}

/-! ### Lengths of run queues -/

/-- The entries of all run queues are as many as their lengths add up to. -/
theorem length_entries :
    sched.entries.length = (sched.runqueues.map fun runqueue ↦ runqueue.queue.length).sum :=
  List.length_flatMap

/-- A run queue has at most as many entries as all of them. -/
theorem queue_length_le {runqueues : List RunQueue} (hqueue : runqueue ∈ runqueues) :
    runqueue.queue.length ≤ (runqueues.flatMap RunQueue.queue).length := by
  rw [List.flatMap_def]
  exact (List.sublist_flatten_of_mem (List.mem_map_of_mem hqueue)).length_le

/-- The length of a run queue is at most the number of all entries. -/
theorem queueLength_le : sched.queueLength cpuId ≤ sched.entries.length := by
  unfold CPUScheduler.queueLength
  cases hqueue : sched.runqueues[cpuId]? with
  | none => exact Nat.zero_le _
  | some runqueue => exact queue_length_le (List.mem_of_getElem? hqueue)

/-- A run queue has an entry of a thread when a first one is found. -/
theorem has_iff :
    runqueue.has threadId ↔
      ∃ entry, runqueue.queue.find? (·.threadId = threadId) = some entry := by
  rw [← Option.isSome_iff_exists, List.find?_isSome, RunQueue.has, List.any_eq_true]

/-- A run queue that is given an entry has one more load and one more entry. -/
theorem load_push (hload : runqueue.load.toNat = runqueue.queue.length)
    (hroom : runqueue.queue.length < maxSchedulableThreads) :
    (runqueue.push entry).load.toNat = (runqueue.push entry).queue.length := by
  have hbound : runqueue.queue.length < 4096 := hroom
  rw [RunQueue.push, List.length_append, UInt32.toNat_add, hload]
  exact Nat.mod_eq_of_lt (by simp; omega)

/-- A run queue that has an entry taken off has one less load and one less entry. -/
theorem load_drop (hload : runqueue.load.toNat = runqueue.queue.length)
    (hhas : runqueue.has threadId) :
    (runqueue.drop threadId).load.toNat = (runqueue.drop threadId).queue.length := by
  have hpos : 0 < runqueue.queue.length := by
    rw [List.length_pos_iff_ne_nil]
    rintro hnil
    simp [RunQueue.has, hnil] at hhas
  have hle : (1 : UInt32) ≤ runqueue.load := by
    rw [UInt32.le_iff_toNat_le, hload]
    exact hpos
  simp only [RunQueue.has] at hhas
  rw [RunQueue.drop, List.length_eraseP, if_pos hhas, UInt32.toNat_sub_of_le _ _ hle, hload]
  rfl

/-- Giving an entry to a run queue adds it to the entries. -/
theorem entries_push {runqueues : List RunQueue} (htarget : cpuId < runqueues.length) :
    ((runqueues.modify cpuId (·.push entry)).flatMap RunQueue.queue).Perm
      (entry :: runqueues.flatMap RunQueue.queue) :=
  flatMap_modify_perm (fun _ ↦ rfl) htarget

/-- Taking an entry off a run queue takes it from the entries. -/
theorem entries_drop (hqueue : sched.runqueues[cpuId]? = some runqueue)
    (hfind : runqueue.queue.find? (·.threadId = threadId) = some entry) :
    sched.entries.Perm
      (entry :: (sched.runqueues.modify cpuId (·.drop threadId)).flatMap RunQueue.queue) := by
  have hdrop : runqueue.queue.Perm (entry :: (runqueue.drop threadId).queue) :=
    perm_cons_eraseP_of_find? hfind
  have hmodify := flatMap_modify_perm_append RunQueue.queue hqueue (·.drop threadId)
  have hmoved : (entry :: (sched.runqueues.modify cpuId (·.drop threadId)).flatMap RunQueue.queue ++
      (runqueue.drop threadId).queue).Perm
        (sched.entries ++ (runqueue.drop threadId).queue) := by
    refine List.Perm.trans ?_ hmodify
    rw [List.cons_append]
    exact List.perm_middle.symm.trans (hdrop.symm.append_left _)
  exact ((List.perm_append_right_iff _).mp hmoved).symm

/-! ### What one call does to the entries -/

/-- All entries together are at most as many as there is room for in one run queue. -/
theorem QueuesConserved.entries_le (hconserved : QueuesConserved sched) :
    sched.entries.length ≤ sched.threads.length :=
  length_entries ▸ hconserved.queued

/-- The run queues are conserved by a change of the table of threads that keeps their number. -/
theorem QueuesConserved.onThread (hconserved : QueuesConserved sched) (threadId : UInt32)
    (test : ScheduleEntry → Bool) (change : ScheduleEntry → ScheduleEntry) :
    QueuesConserved (onThread sched threadId test change).1 := by
  unfold Cpu.onThread
  split_ifs
  · exact hconserved
  · have hlength (test : ScheduleEntry → Bool) :
        (updateFirst test change sched.threads).length = sched.threads.length :=
      List.length_modify _ _ _
    exact ⟨hconserved.load, (hlength _).symm ▸ hconserved.queued,
      (hlength _).symm ▸ hconserved.room⟩
  · exact hconserved

/-- The run queues are conserved when one of them is changed in a way that keeps its load and its
length. -/
theorem QueuesConserved.modify (hconserved : QueuesConserved sched)
    {change : RunQueue → RunQueue} (hload : ∀ runqueue, (change runqueue).load = runqueue.load)
    (hlength : ∀ runqueue, (change runqueue).queue.length = runqueue.queue.length) (cpuId : ℕ) :
    QueuesConserved { sched with runqueues := sched.runqueues.modify cpuId change } := by
  refine ⟨forall_mem_modify hconserved.load ?_ cpuId, ?_, hconserved.room⟩
  · intro runqueue hkept
    rw [hload, hlength, hkept]
  · rw [map_modify_of_keep hlength]
    exact hconserved.queued

/-- A thread that is accepted is put on the run queue of its affinity, which has room for it. -/
theorem runqueues_cpuSchedulerEnqueueThread (hconserved : QueuesConserved sched)
    (hqueues : sched.runqueues ≠ []) (hroom : sched.threads.length < maxSchedulableThreads)
    (threadId processId : UInt32) (priority : Int) (cpuAffinity : UInt32) :
    cpuAffinity.toNat % sched.runqueues.length < sched.runqueues.length ∧
      (cpuSchedulerEnqueueThread sched threadId processId priority cpuAffinity).1.runqueues =
        sched.runqueues.modify (cpuAffinity.toNat % sched.runqueues.length)
          (·.push (freshEntry threadId processId priority cpuAffinity)) := by
  have htarget : cpuAffinity.toNat % sched.runqueues.length < sched.runqueues.length :=
    Nat.mod_lt _ (List.length_pos_iff_ne_nil.mpr hqueues)
  have hfits : sched.queueLength (cpuAffinity.toNat % sched.runqueues.length) <
      maxSchedulableThreads :=
    (queueLength_le.trans hconserved.entries_le).trans_lt hroom
  refine ⟨htarget, ?_⟩
  simp only [cpuSchedulerEnqueueThread]
  rw [if_neg (Nat.not_le.mpr hroom)]
  exact if_pos ⟨htarget, hfits⟩

/-- Enqueuing a thread conserves the run queues. -/
theorem QueuesConserved.enqueueThread (hconserved : QueuesConserved sched)
    (hqueues : sched.runqueues ≠ []) (threadId processId : UInt32) (priority : Int)
    (cpuAffinity : UInt32) :
    QueuesConserved
      (cpuSchedulerEnqueueThread sched threadId processId priority cpuAffinity).1 := by
  by_cases hroom : sched.threads.length < maxSchedulableThreads
  · obtain ⟨htarget, hafter⟩ := runqueues_cpuSchedulerEnqueueThread hconserved hqueues
      hroom threadId processId priority cpuAffinity
    have hthreads :
        (cpuSchedulerEnqueueThread sched threadId processId priority cpuAffinity).1.threads.length =
          sched.threads.length + 1 := by
      simp only [cpuSchedulerEnqueueThread]
      rw [if_neg (Nat.not_le.mpr hroom), List.length_append]
      rfl
    have hqueue := List.getElem?_eq_getElem htarget
    have hshort : sched.runqueues[cpuAffinity.toNat % sched.runqueues.length].queue.length <
        maxSchedulableThreads :=
      ((queue_length_le (List.getElem_mem htarget)).trans hconserved.entries_le).trans_lt hroom
    refine ⟨?_, ?_, ?_⟩
    · rw [hafter, forall_mem_modify_iff hconserved.load hqueue]
      exact load_push (hconserved.load _ (List.getElem_mem htarget)) hshort
    · rw [← length_entries, CPUScheduler.entries, hafter, (entries_push htarget).length_eq,
        List.length_cons, hthreads]
      exact Nat.succ_le_succ hconserved.entries_le
    · rw [hthreads]
      exact hroom
  · rw [cpuSchedulerEnqueueThread, if_pos (Nat.le_of_not_lt hroom)]
    exact hconserved

/-- A thread that a run queue has is taken off it. -/
theorem cpuSchedulerDequeueThread_of_has (hthread : threadId ≠ 0)
    (hqueue : sched.runqueues[cpuId]? = some runqueue) (hhas : runqueue.has threadId) :
    (cpuSchedulerDequeueThread sched cpuId threadId).1 =
      { sched with runqueues := sched.runqueues.modify cpuId (·.drop threadId) } := by
  have hcpu : cpuId < sched.runqueues.length := (List.getElem?_eq_some_iff.mp hqueue).1
  rw [cpuSchedulerDequeueThread, if_neg (not_or.mpr ⟨Nat.not_le.mpr hcpu, hthread⟩), hqueue,
    Option.any_some, if_pos hhas]

/-- The run queues are conserved, with one entry less, when a thread is taken off. -/
theorem QueuesConserved.drop (hconserved : QueuesConserved sched)
    (hqueue : sched.runqueues[cpuId]? = some runqueue) (hhas : runqueue.has threadId) :
    QueuesConserved { sched with runqueues := sched.runqueues.modify cpuId (·.drop threadId) } ∧
      ((sched.runqueues.modify cpuId (·.drop threadId)).flatMap RunQueue.queue).length <
        sched.threads.length := by
  obtain ⟨entry, hfind⟩ := has_iff.mp hhas
  have hless : ((sched.runqueues.modify cpuId (·.drop threadId)).flatMap RunQueue.queue).length <
      sched.threads.length := by
    have hlength := (entries_drop hqueue hfind).length_eq
    have hle := hconserved.entries_le
    rw [List.length_cons] at hlength
    omega
  refine ⟨⟨?_, ?_, hconserved.room⟩, hless⟩
  · rw [forall_mem_modify_iff hconserved.load hqueue]
    exact load_drop (hconserved.load _ (List.mem_of_getElem? hqueue)) hhas
  · rw [← length_entries]
    exact hless.le

/-- Dequeuing a thread conserves the run queues. -/
theorem QueuesConserved.dequeueThread (hconserved : QueuesConserved sched) (cpuId : ℕ)
    (threadId : UInt32) : QueuesConserved (cpuSchedulerDequeueThread sched cpuId threadId).1 := by
  unfold cpuSchedulerDequeueThread
  split_ifs with hrefused hhas
  · exact hconserved
  · obtain ⟨runqueue, hqueue, hqueued⟩ := (Option.any_eq_true _ _).mp hhas
    exact (hconserved.drop hqueue hqueued).1
  · exact hconserved

/-- A queued thread that is migrated to a run queue that exists is moved there: once it is off its
run queue, the target has room. -/
theorem cpuSchedulerMigrateThread_of_queued (hconserved : QueuesConserved sched) {targetCpu : ℕ}
    (hthread : threadId ≠ 0) (htarget : targetCpu < sched.runqueues.length)
    (hqueued : ∃ runqueue ∈ sched.runqueues, runqueue.has threadId) :
    ∃ source runqueue entry, sched.runqueues[source]? = some runqueue ∧
      runqueue.queue.find? (·.threadId = threadId) = some entry ∧
        cpuSchedulerMigrateThread sched threadId targetCpu =
          ({ sched with
            runqueues :=
              (sched.runqueues.modify source (·.drop threadId)).modify targetCpu (·.push entry)
            totalMigrations := sched.totalMigrations + 1 }, 0) := by
  have hsource := List.findIdx_lt_length.mpr hqueued
  have hqueue := List.getElem?_eq_getElem hsource
  have hhas := List.findIdx_getElem (w := hsource)
  obtain ⟨entry, hfind⟩ := has_iff.mp hhas
  refine ⟨_, _, entry, hqueue, hfind, ?_⟩
  have hroom : CPUScheduler.queueLength
      { sched with
        runqueues := sched.runqueues.modify (sched.runqueues.findIdx (·.has threadId))
          (·.drop threadId) } targetCpu < maxSchedulableThreads :=
    (queueLength_le.trans_lt (hconserved.drop hqueue hhas).2).trans_le hconserved.room
  simp only [cpuSchedulerMigrateThread]
  rw [if_neg (not_or.mpr ⟨hthread, Nat.not_le.mpr htarget⟩), hqueue, Option.bind_some, hfind]
  simp only
  rw [cpuSchedulerDequeueThread_of_has hthread hqueue hhas, if_pos hroom]

/-- A migrated thread neither adds an entry nor loses one. -/
theorem entries_cpuSchedulerMigrateThread {source targetCpu : ℕ}
    (htarget : targetCpu < sched.runqueues.length)
    (hqueue : sched.runqueues[source]? = some runqueue)
    (hfind : runqueue.queue.find? (·.threadId = threadId) = some entry) :
    (((sched.runqueues.modify source (·.drop threadId)).modify targetCpu (·.push entry)).flatMap
      RunQueue.queue).Perm sched.entries := by
  have hlength : targetCpu < (sched.runqueues.modify source (·.drop threadId)).length := by
    rwa [List.length_modify]
  exact (entries_push hlength).trans (entries_drop hqueue hfind).symm

/-- Migrating a thread conserves the run queues. -/
theorem QueuesConserved.migrateThread (hconserved : QueuesConserved sched) (threadId : UInt32)
    (targetCpu : ℕ) : QueuesConserved (cpuSchedulerMigrateThread sched threadId targetCpu).1 := by
  by_cases hrefused : threadId = 0 ∨ sched.runqueues.length ≤ targetCpu
  · rw [cpuSchedulerMigrateThread, if_pos hrefused]
    exact hconserved
  rw [not_or, Nat.not_le] at hrefused
  by_cases hqueued : ∃ runqueue ∈ sched.runqueues, runqueue.has threadId
  · obtain ⟨source, runqueue, entry, hqueue, hfind, hafter⟩ :=
      cpuSchedulerMigrateThread_of_queued hconserved hrefused.1 hrefused.2 hqueued
    obtain ⟨hdropped, hless⟩ := hconserved.drop hqueue (has_iff.mpr ⟨entry, hfind⟩)
    have hlength : targetCpu < (sched.runqueues.modify source (·.drop threadId)).length := by
      rw [List.length_modify]
      exact hrefused.2
    have htarget := List.getElem?_eq_getElem hlength
    rw [hafter]
    refine ⟨?_, ?_, hconserved.room⟩
    · rw [forall_mem_modify_iff hdropped.load htarget]
      have hshort := queue_length_le (List.getElem_mem hlength)
      exact load_push (hdropped.load _ (List.getElem_mem hlength))
        ((hshort.trans_lt hless).trans_le hconserved.room)
    · rw [← length_entries, CPUScheduler.entries,
        (entries_cpuSchedulerMigrateThread hrefused.2 hqueue hfind).length_eq]
      exact hconserved.entries_le
  · have hnone : sched.runqueues[sched.runqueues.findIdx (·.has threadId)]? = none := by
      rw [List.getElem?_eq_none_iff, List.findIdx_eq_length_of_false]
      simpa using hqueued
    simp only [cpuSchedulerMigrateThread]
    rw [if_neg (not_or.mpr ⟨hrefused.1, Nat.not_le.mpr hrefused.2⟩), hnone]
    exact hconserved

/-- Every call conserves the run queues. -/
theorem QueuesConserved.step (hconserved : QueuesConserved sched) (hqueues : sched.runqueues ≠ [])
    {call : CpuCall} (hkeeps : KeepsRunqueues call) : QueuesConserved (cpuStep sched call) := by
  cases call with
  | addRunqueue cpuId =>
    rw [cpuStep, cpuSchedulerAddRunqueue]
    split_ifs
    · exact hconserved
    · refine ⟨?_, ?_, hconserved.room⟩
      · intro runqueue hqueue
        rcases List.mem_append.mp hqueue with hold | hnew
        · exact hconserved.load runqueue hold
        · rw [List.mem_singleton.mp hnew]
          rfl
      · simpa using hconserved.queued
  | removeRunqueue cpuId => exact hkeeps.elim
  | enqueueThread threadId processId priority cpuAffinity =>
    exact hconserved.enqueueThread hqueues threadId processId priority cpuAffinity
  | dequeueThread cpuId threadId => exact hconserved.dequeueThread cpuId threadId
  | migrateThread threadId targetCpu => exact hconserved.migrateThread threadId targetCpu
  | updateRunqueueLoads =>
    refine ⟨?_, ?_, hconserved.room⟩
    · intro runqueue hqueue
      obtain ⟨old, hold, rfl⟩ := List.mem_map.mp hqueue
      have hshort : old.queue.length ≤ 4096 :=
        ((queue_length_le hold).trans hconserved.entries_le).trans hconserved.room
      exact Nat.mod_eq_of_lt (by omega)
    · simpa [cpuStep, cpuSchedulerUpdateRunqueueLoads, Function.comp_def] using hconserved.queued
  | runThread cpuId threadId =>
    rw [cpuStep, cpuSchedulerRunThread]
    split_ifs
    · exact hconserved
    · exact hconserved.modify (by intro; rfl) (by intro; exact List.length_modify _ _ _) cpuId
    · exact hconserved
  | updateVruntime threadId runtimeNs => exact hconserved.onThread threadId _ _
  | wakeUpThread threadId => exact hconserved.onThread threadId _ _
  | sleepThread threadId => exact hconserved.onThread threadId _ _

/-- A call that removes no run queue leaves one if there is one. -/
theorem runqueues_ne_nil_step (hqueues : sched.runqueues ≠ []) {call : CpuCall}
    (hkeeps : KeepsRunqueues call) : (cpuStep sched call).runqueues ≠ [] := by
  have hmodify (change : RunQueue → RunQueue) (cpuId : ℕ) (runqueues : List RunQueue)
      (hsome : runqueues ≠ []) : runqueues.modify cpuId change ≠ [] := by
    rwa [ne_eq, ← List.length_eq_zero_iff, List.length_modify, List.length_eq_zero_iff]
  have honThread (threadId : UInt32) (test : ScheduleEntry → Bool)
      (change : ScheduleEntry → ScheduleEntry) :
      (onThread sched threadId test change).1.runqueues ≠ [] := by
    unfold onThread
    split_ifs
    · exact hqueues
    · exact hqueues
    · exact hqueues
  have hdequeue (cpuId : ℕ) (threadId : UInt32) :
      (cpuSchedulerDequeueThread sched cpuId threadId).1.runqueues ≠ [] := by
    unfold cpuSchedulerDequeueThread
    split_ifs
    · exact hqueues
    · exact hmodify _ _ _ hqueues
    · exact hqueues
  cases call with
  | addRunqueue cpuId =>
    rw [cpuStep, cpuSchedulerAddRunqueue]
    split_ifs
    · exact hqueues
    · exact List.append_ne_nil_of_left_ne_nil hqueues _
  | removeRunqueue cpuId => exact hkeeps.elim
  | enqueueThread threadId processId priority cpuAffinity =>
    simp only [cpuStep, cpuSchedulerEnqueueThread]
    split_ifs
    · exact hqueues
    · exact hmodify _ _ _ hqueues
    · exact hqueues
  | dequeueThread cpuId threadId => exact hdequeue cpuId threadId
  | migrateThread threadId targetCpu =>
    simp only [cpuStep, cpuSchedulerMigrateThread]
    split
    · exact hqueues
    · split
      · exact hqueues
      · split
        · exact hmodify _ _ _ (hdequeue _ threadId)
        · exact hdequeue _ threadId
  | updateRunqueueLoads => exact mt List.map_eq_nil_iff.mp hqueues
  | runThread cpuId threadId =>
    rw [cpuStep, cpuSchedulerRunThread]
    split_ifs
    · exact hqueues
    · exact hmodify _ _ _ hqueues
    · exact hqueues
  | updateVruntime threadId runtimeNs => exact honThread threadId _ _
  | wakeUpThread threadId => exact honThread threadId _ _
  | sleepThread threadId => exact honThread threadId _ _

/-- A call does with the entries what it should. -/
theorem QueuesConserved.movesEntry (hconserved : QueuesConserved sched)
    (hqueues : sched.runqueues ≠ []) (call : CpuCall) : MovesEntry sched call := by
  cases call with
  | enqueueThread threadId processId priority cpuAffinity =>
    intro hroom
    exact ⟨_, runqueues_cpuSchedulerEnqueueThread hconserved hqueues hroom _ _ _ _⟩
  | migrateThread threadId targetCpu =>
    intro hthread htarget hqueued
    obtain ⟨source, runqueue, entry, hqueue, hfind, hafter⟩ :=
      cpuSchedulerMigrateThread_of_queued hconserved hthread htarget hqueued
    refine ⟨by rw [hafter], ⟨source, runqueue, entry, hqueue, hfind, by rw [hafter]⟩, ?_⟩
    rw [hafter]
    exact entries_cpuSchedulerMigrateThread htarget hqueue hfind
  | _ => trivial

/-! ### Runs -/

/-- The run queues of a fresh scheduler are empty, and there is one for every cpu up to
`MAX_RUNQUEUES`. -/
theorem cpuSchedulerInit_eq (policy : SchedulingPolicy) (cpuCount : UInt32) :
    cpuSchedulerInit policy cpuCount =
      { policy := policy
        runqueues := (List.range (min cpuCount.toNat maxRunqueues)).map fun i ↦
          { cpuId := i, load := 0, queue := [], totalContextSwitches := 0, activeTimeNs := 0 }
        threads := []
        totalThreadsScheduled := 0
        totalMigrations := 0 } := by
  have hle : min cpuCount.toNat maxRunqueues ≤ maxRunqueues := Nat.min_le_right _ _
  unfold cpuSchedulerInit
  generalize min cpuCount.toNat maxRunqueues = count at hle ⊢
  -- induction over the run queues added so far
  induction count with
  | zero => rfl
  | succ added ih =>
    rw [List.range_succ, List.foldl_append, ih (Nat.le_of_succ_le hle), List.foldl_cons,
      List.foldl_nil, cpuSchedulerAddRunqueue, if_neg (by simpa using Nat.lt_of_succ_le hle),
      List.map_append]
    rfl

/-- In every run of a CPU scheduler with at least one run queue, in which none is removed, the load
of every run queue is its length, all lengths together are at most the number of threads, every
thread that is accepted is put on exactly one run queue, and every queued thread that is migrated to
a run queue that exists is moved there. -/
theorem cpuQueues_conserved (policy : SchedulingPolicy) (cpuCount : UInt32) (calls : List CpuCall)
    (hcpu : 0 < cpuCount) (hkeeps : ∀ call ∈ calls, KeepsRunqueues call) :
    AlongRun cpuStep QueuesConserved (cpuSchedulerInit policy cpuCount) calls ∧
      EveryStep cpuStep MovesEntry (cpuSchedulerInit policy cpuCount) calls := by
  have hstart : QueuesConserved (cpuSchedulerInit policy cpuCount) ∧
      (cpuSchedulerInit policy cpuCount).runqueues ≠ [] := by
    have hpos : 0 < cpuCount.toNat := UInt32.lt_iff_toNat_lt.mp hcpu
    rw [cpuSchedulerInit_eq]
    refine ⟨⟨fun runqueue hmem ↦ ?_, by simp [Function.comp_def], Nat.zero_le _⟩, ?_⟩
    · obtain ⟨i, -, rfl⟩ := List.mem_map.mp hmem
      rfl
    · simp only [ne_eq, List.map_eq_nil_iff, List.range_eq_nil, maxRunqueues]
      omega
  have halong := alongRun_invariant
    (fun sched ↦ QueuesConserved sched ∧ sched.runqueues ≠ []) (fun _ call ↦ KeepsRunqueues call)
    (fun _ _ hbefore hcall ↦
      ⟨hbefore.1.step hbefore.2 hcall, runqueues_ne_nil_step hbefore.2 hcall⟩)
    hstart (everyStep_of_forall_mem hkeeps)
  exact ⟨halong.imp fun _ hconserved ↦ hconserved.1,
    halong.everyStep fun _ call hconserved ↦ hconserved.1.movesEntry hconserved.2 call⟩

/-- Two threads with one id are enqueued on two run queues and the first one is migrated. -/
theorem cpuQueues_conserved_migrated :
    AlongRun cpuStep QueuesConserved (cpuSchedulerInit .cfs 2)
        [.enqueueThread 1 1 0 0, .enqueueThread 1 1 0 1, .migrateThread 1 1] ∧
      EveryStep cpuStep MovesEntry (cpuSchedulerInit .cfs 2)
        [.enqueueThread 1 1 0 0, .enqueueThread 1 1 0 1, .migrateThread 1 1] :=
  cpuQueues_conserved .cfs 2 _ (by decide) (by simp [KeepsRunqueues])

end OneOS.Scheduling.Cpu
