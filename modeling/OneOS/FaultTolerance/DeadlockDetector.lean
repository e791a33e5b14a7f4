import Mathlib.Logic.Relation
import OneOS.Foundation.Runs

/-!
# Deadlock detection

The lock dependencies of `fault-tolerance/watchdog_deadlock_detector.c` and the search for
deadlocks among them. A dependency says that one process waits for a lock that another one holds;
its times, which are always 0, are left out, and so is the supervision of processes.

Processes are deadlocked when the waits-for relation has a cycle. `deadlock_detect_cycles` looks for
two dependencies that are each other's reverse, that is for two processes that wait for each other,
or a process that waits for itself. Although the record of a cycle has room for 16 processes, a
cycle of three or more is never followed. `detects_iff` says when the answer is right: exactly when
the relation has no cycle or has one of at most two processes.
-/

set_option autoImplicit false
set_option relaxedAutoImplicit false

namespace OneOS.FaultTolerance.DeadlockDetector

open Foundation

/-! ### The detector -/

/-- `MAX_LOCK_DEPENDENCIES`. -/
def maxLockDependencies : ℕ := 4096

/-- `MAX_DEADLOCK_CYCLES`. -/
def maxDeadlockCycles : ℕ := 256

/-- `LockDependency`. -/
structure LockDependency where
  lockId : UInt32
  holderProcessId : UInt32
  waiterProcessId : UInt32
  deriving DecidableEq, Repr

/-- `DeadlockCycle`, with the used part of `process_ids` as a list. -/
structure DeadlockCycle where
  cycleId : UInt32
  processIds : List UInt32
  isResolved : Bool
  deriving DecidableEq, Repr

/-- `WatchdogDeadlockDetector`, with the used rows of the two tables as lists. -/
structure WatchdogDeadlockDetector where
  lockDeps : List LockDependency
  deadlockCycles : List DeadlockCycle
  totalDeadlocksDetected : UInt64
  deriving DecidableEq, Repr

/-- `watchdog_init`. -/
def watchdogInit : WatchdogDeadlockDetector where
  lockDeps := []
  deadlockCycles := []
  totalDeadlocksDetected := 0

/-- `lock_dependency_add`. -/
def lockDependencyAdd (detector : WatchdogDeadlockDetector) (lockId holderId waiterId : UInt32) :
    WatchdogDeadlockDetector × Int :=
  if maxLockDependencies ≤ detector.lockDeps.length then (detector, -1)
  else ({ detector with lockDeps := detector.lockDeps ++ [⟨lockId, holderId, waiterId⟩] }, 0)

/-- `lock_dependency_remove`. -/
def lockDependencyRemove (detector : WatchdogDeadlockDetector) (lockId : UInt32) :
    WatchdogDeadlockDetector × Int :=
  if lockId = 0 then (detector, -1)
  else if detector.lockDeps.any (·.lockId = lockId) then
    ({ detector with lockDeps := detector.lockDeps.eraseP (·.lockId = lockId) }, 0)
  else (detector, -1)

/-- The test of the inner loop: the other dependency is the reverse of this one. -/
def LockDependency.reversedBy (dep other : LockDependency) : Bool :=
  other.holderProcessId = dep.waiterProcessId ∧ other.waiterProcessId = dep.holderProcessId

/-- The outer loop over the dependencies that are left, with the cycles found so far. It ends early
when the table of cycles is full; the inner loop ends at the first match. -/
def detectLoop (lockDeps : List LockDependency) :
    List LockDependency → List DeadlockCycle → List DeadlockCycle
  | [], cycles => cycles
  | dep :: rest, cycles =>
    if cycles.length < maxDeadlockCycles then
      detectLoop lockDeps rest (if lockDeps.any dep.reversedBy then
        cycles ++ [{
          cycleId := (cycles.length + 1).toUInt32
          processIds := [dep.holderProcessId, dep.waiterProcessId]
          isResolved := false }]
      else cycles)
    else cycles

/-- `deadlock_detect_cycles`. -/
def deadlockDetectCycles (detector : WatchdogDeadlockDetector) : WatchdogDeadlockDetector × Int :=
  let cycles := detectLoop detector.lockDeps detector.lockDeps []
  ({ detector with
    deadlockCycles := cycles
    totalDeadlocksDetected := detector.totalDeadlocksDetected + cycles.length.toUInt64 },
    cycles.length)

/-- A call on the detector. -/
inductive DetectorCall
  | lockDependencyAdd (lockId holderId waiterId : UInt32)
  | lockDependencyRemove (lockId : UInt32)
  | deadlockDetectCycles
  deriving DecidableEq, Repr

/-- The detector after a call. -/
def detectorStep (detector : WatchdogDeadlockDetector) : DetectorCall → WatchdogDeadlockDetector
  | .lockDependencyAdd lockId holderId waiterId =>
    (lockDependencyAdd detector lockId holderId waiterId).1
  | .lockDependencyRemove lockId => (lockDependencyRemove detector lockId).1
  | .deadlockDetectCycles => (deadlockDetectCycles detector).1

/-! ### Who waits for whom -/

/-- The first process waits for a lock that the second one holds. -/
def WaitsFor (lockDeps : List LockDependency) (waiter holder : UInt32) : Prop :=
  ∃ dep ∈ lockDeps, dep.waiterProcessId = waiter ∧ dep.holderProcessId = holder

/-- A process waits, directly or through others, for itself. -/
def Deadlocked (lockDeps : List LockDependency) : Prop :=
  ∃ process, Relation.TransGen (WaitsFor lockDeps) process process

/-- Two processes wait for each other, or one for itself. -/
def MutuallyWaiting (lockDeps : List LockDependency) : Prop :=
  ∃ first second, WaitsFor lockDeps first second ∧ WaitsFor lockDeps second first

variable {lockDeps : List LockDependency}

theorem MutuallyWaiting.deadlocked (hmutual : MutuallyWaiting lockDeps) : Deadlocked lockDeps := by
  obtain ⟨first, second, hforth, hback⟩ := hmutual
  exact ⟨first, (Relation.TransGen.single hforth).tail hback⟩

/-- Two dependencies that are each other's reverse are two processes that wait for each other. -/
theorem mutuallyWaiting_iff :
    MutuallyWaiting lockDeps ↔ ∃ dep ∈ lockDeps, lockDeps.any dep.reversedBy = true := by
  constructor
  · rintro ⟨first, second, ⟨dep, hdep, hwaiter, hholder⟩, other, hother, hwaiter', hholder'⟩
    refine ⟨dep, hdep, List.any_eq_true.mpr ⟨other, hother, decide_eq_true ⟨?_, ?_⟩⟩⟩
    · exact hholder'.trans hwaiter.symm
    · exact hwaiter'.trans hholder.symm
  · rintro ⟨dep, hdep, hany⟩
    obtain ⟨other, hother, hreversed⟩ := List.any_eq_true.mp hany
    obtain ⟨hholder, hwaiter⟩ := of_decide_eq_true hreversed
    exact ⟨dep.waiterProcessId, dep.holderProcessId, ⟨dep, hdep, rfl, rfl⟩, other, hother, hwaiter,
      hholder⟩

/-! ### What the search finds -/

/-- The loop has found a cycle at its end exactly when it had found one before or one of the
dependencies left is reversed by another one. -/
theorem detectLoop_ne_nil_iff (rest : List LockDependency) (cycles : List DeadlockCycle) :
    detectLoop lockDeps rest cycles ≠ [] ↔
      cycles ≠ [] ∨ ∃ dep ∈ rest, lockDeps.any dep.reversedBy = true := by
  induction rest generalizing cycles with
  | nil => simp [detectLoop]
  | cons dep rest ih =>
    unfold detectLoop
    split_ifs with hroom hreversed
    · rw [ih]
      exact iff_of_true (Or.inl (by simp)) (Or.inr ⟨dep, List.mem_cons_self, hreversed⟩)
    · rw [ih, List.exists_mem_cons_iff]
      simp [hreversed]
    · have hsome : cycles ≠ [] := by
        rintro rfl
        exact hroom (by decide)
      exact iff_of_true hsome (Or.inl hsome)

/-- The answer is positive exactly when two processes wait for each other. -/
theorem deadlockDetectCycles_pos_iff (detector : WatchdogDeadlockDetector) :
    0 < (deadlockDetectCycles detector).2 ↔ MutuallyWaiting detector.lockDeps := by
  rw [mutuallyWaiting_iff]
  simp only [deadlockDetectCycles]
  rw [Int.natCast_pos, List.length_pos_iff, detectLoop_ne_nil_iff]
  simp

/-- After every sequence of calls the search answers with a positive number exactly for a deadlock,
if and only if there is no deadlock or one of at most two processes. -/
theorem detects_iff (calls : List DetectorCall) :
    (0 < (deadlockDetectCycles (runFrom detectorStep watchdogInit calls)).2 ↔
        Deadlocked (runFrom detectorStep watchdogInit calls).lockDeps) ↔
      (¬ Deadlocked (runFrom detectorStep watchdogInit calls).lockDeps ∨
        MutuallyWaiting (runFrom detectorStep watchdogInit calls).lockDeps) := by
  rw [deadlockDetectCycles_pos_iff]
  constructor
  · intro hright
    by_cases hdeadlocked : Deadlocked (runFrom detectorStep watchdogInit calls).lockDeps
    · exact Or.inr (hright.mpr hdeadlocked)
    · exact Or.inl hdeadlocked
  · rintro (hfree | hmutual)
    · exact iff_of_false (fun hmutual ↦ hfree hmutual.deadlocked) hfree
    · exact iff_of_true hmutual hmutual.deadlocked

/-- Process 1 waits for 2, 2 for 3, and 3 for 1. -/
theorem detects_three_processes :
    ¬ (0 < (deadlockDetectCycles (runFrom detectorStep watchdogInit [.lockDependencyAdd 1 2 1,
          .lockDependencyAdd 2 3 2, .lockDependencyAdd 3 1 3])).2 ↔
      Deadlocked (runFrom detectorStep watchdogInit [.lockDependencyAdd 1 2 1,
        .lockDependencyAdd 2 3 2, .lockDependencyAdd 3 1 3]).lockDeps) := by
  have hdeps : (runFrom detectorStep watchdogInit [.lockDependencyAdd 1 2 1,
      .lockDependencyAdd 2 3 2, .lockDependencyAdd 3 1 3]).lockDeps =
      [⟨1, 2, 1⟩, ⟨2, 3, 2⟩, ⟨3, 1, 3⟩] := by decide
  intro hright
  have hcycle : Deadlocked [⟨1, 2, 1⟩, ⟨2, 3, 2⟩, ⟨3, 1, 3⟩] := by
    refine ⟨1, .tail (.tail (.single (b := 2) ?_) (c := 3) ?_) ?_⟩
    · exact ⟨⟨1, 2, 1⟩, by decide, rfl, rfl⟩
    · exact ⟨⟨2, 3, 2⟩, by decide, rfl, rfl⟩
    · exact ⟨⟨3, 1, 3⟩, by decide, rfl, rfl⟩
  have hpositive := hright.mpr (hdeps ▸ hcycle)
  revert hpositive
  decide

end OneOS.FaultTolerance.DeadlockDetector
