import OneOS.Threads.ThreadManager

/-!
# Units of semaphores

The count of a semaphore should be what it was created with, plus the units that were posted since,
less those that were taken by waits; it should stay between 0 and the maximum; and a post should
fail only at the maximum (`CountsUnits`).

`semaphore_post` does not go beyond the maximum, but `semaphore_create` does not compare the count
that it is given with it. `semaphoreCounting_iff`: this is all that can go wrong.
-/

set_option autoImplicit false
set_option relaxedAutoImplicit false

namespace OneOS.Threads

open Foundation

/-! ### Waits and posts that succeed -/

/-- 1 for a wait for the semaphore that succeeds. -/
def waited (semId : UInt32) (manager : ThreadManager) : ThreadCall → ℕ
  | .semaphoreWait called threadId =>
    if called = semId ∧ (semaphoreWait manager called threadId).2 = 0 then 1 else 0
  | _ => 0

/-- 1 for a post to the semaphore that succeeds. -/
def posted (semId : UInt32) (manager : ThreadManager) : ThreadCall → ℕ
  | .semaphorePost called => if called = semId ∧ (semaphorePost manager called).2 = 0 then 1 else 0
  | _ => 0

/-- The id that the next semaphore gets. -/
def ThreadManager.nextSemaphore (manager : ThreadManager) : UInt32 :=
  (manager.semaphores.length + 1).toUInt32

/-- What is claimed of a semaphore that is created, after some calls of any threads. -/
def CountsUnits (manager : ThreadManager) (initialCount maxCount : UInt32)
    (taken : List ThreadCall) : Prop :=
  let created := threadStep manager (.semaphoreCreate initialCount maxCount)
  let semId := manager.nextSemaphore
  ∃ semaphore, rowOf (runFrom threadStep created taken).semaphores semId = some semaphore ∧
    semaphore.count.toNat + tally threadStep (waited semId) created taken =
      initialCount.toNat + tally threadStep (posted semId) created taken ∧
    semaphore.count ≤ maxCount ∧
    ((semaphorePost (runFrom threadStep created taken) semId).2 ≠ 0 → semaphore.count = maxCount)

/-! ### One semaphore -/

variable {manager : ThreadManager} {semaphore : Semaphore} {semId : UInt32}

/-- A wait takes a unit if there is one, and succeeds only then. -/
theorem Semaphore.wait_cases (semaphore : Semaphore) (threadId : UInt32) :
    (semaphore.wait threadId).1.maxCount = semaphore.maxCount ∧
      (semaphore.wait threadId).1.count ≤ semaphore.count ∧
      (semaphore.wait threadId).1.count.toNat + (if (semaphore.wait threadId).2 = 0 then 1 else 0) =
        semaphore.count.toNat := by
  unfold Semaphore.wait
  split_ifs with hunit hzero hfailed
  · have hpos : 0 < semaphore.count.toNat := UInt32.lt_iff_toNat_lt.mp hunit
    have hone : (semaphore.count - 1).toNat = semaphore.count.toNat - 1 :=
      UInt32.toNat_sub_of_le _ _ (UInt32.le_iff_toNat_le.mpr hpos)
    refine ⟨rfl, UInt32.le_iff_toNat_le.mpr ?_, ?_⟩
    · exact hone.trans_le (Nat.sub_le _ _)
    · exact (congrArg (· + 1) hone).trans (Nat.sub_add_cancel hpos)
  · exact absurd rfl hzero
  · exact absurd hfailed (show (-1 : Int) ≠ 0 by decide)
  · exact ⟨rfl, UInt32.le_refl _, rfl⟩

/-- A post adds a unit below the maximum, and succeeds only then. -/
theorem Semaphore.post_cases (semaphore : Semaphore) :
    semaphore.post.1.maxCount = semaphore.maxCount ∧
      (semaphore.count ≤ semaphore.maxCount → semaphore.post.1.count ≤ semaphore.maxCount) ∧
      semaphore.post.1.count.toNat =
        semaphore.count.toNat + (if semaphore.post.2 = 0 then 1 else 0) := by
  unfold Semaphore.post
  split_ifs with hmax hfailed hzero
  · exact absurd hfailed (show (-1 : Int) ≠ 0 by decide)
  · exact ⟨rfl, id, rfl⟩
  · have hlt : semaphore.count.toNat < semaphore.maxCount.toNat :=
      UInt32.lt_iff_toNat_lt.mp (UInt32.not_le.mp hmax)
    have hone : (semaphore.count + 1).toNat = semaphore.count.toNat + 1 := by
      rw [UInt32.toNat_add]
      exact Nat.mod_eq_of_lt (Nat.lt_of_le_of_lt hlt semaphore.maxCount.toNat_lt)
    exact ⟨rfl, fun _ ↦ UInt32.le_iff_toNat_le.mpr (hone.trans_le hlt), hone⟩
  · exact absurd rfl hzero

/-- A post fails only when the count has reached the maximum. -/
theorem Semaphore.le_count_of_post_failed (hfailed : semaphore.post.2 ≠ 0) :
    semaphore.maxCount ≤ semaphore.count := by
  unfold Semaphore.post at hfailed
  split_ifs at hfailed with hmax
  · exact hmax
  · exact absurd rfl hfailed

/-- Destroying a semaphore leaves its units. -/
theorem Semaphore.units_destroy (semaphore : Semaphore) :
    semaphore.destroy.1.maxCount = semaphore.maxCount ∧
      semaphore.destroy.1.count = semaphore.count := by
  unfold Semaphore.destroy
  split_ifs <;> exact ⟨rfl, rfl⟩

/-! ### Calls -/

/-- What a call does to a semaphore: it stays, its maximum stays, its count changes by the units
that are posted and taken, and it does not go beyond the maximum. -/
structure UnitsKept (semId : UInt32) (manager : ThreadManager) (call : ThreadCall)
    (semaphore next : Semaphore) : Prop where
  row : rowOf (threadStep manager call).semaphores semId = some next
  most : next.maxCount = semaphore.maxCount
  units : next.count.toNat + waited semId manager call =
    semaphore.count.toNat + posted semId manager call
  below : semaphore.count ≤ semaphore.maxCount → next.count ≤ next.maxCount

/-- A call that leaves a semaphore keeps its units. -/
theorem unitsKept_of_same {call : ThreadCall}
    (hrow : rowOf (threadStep manager call).semaphores semId = some semaphore)
    (hwaited : waited semId manager call = 0) (hposted : posted semId manager call = 0) :
    UnitsKept semId manager call semaphore semaphore :=
  ⟨hrow, rfl, by rw [hwaited, hposted], id⟩

/-- Every call keeps the units of every semaphore. -/
theorem unitsKept_step (hrow : rowOf manager.semaphores semId = some semaphore)
    (call : ThreadCall) : ∃ next, UnitsKept semId manager call semaphore next := by
  -- a call on another semaphore
  have hother : ∀ {called : UInt32} {act : Semaphore → Semaphore × Int}, ¬ called = semId →
      rowOf (callOn manager.semaphores called act).1 semId = some semaphore :=
    fun hcalled ↦ (rowOf_callOn_ne (Ne.symm hcalled)).trans hrow
  -- a call on the semaphore
  have hself : ∀ act : Semaphore → Semaphore × Int,
      rowOf (callOn manager.semaphores semId act).1 semId = some (act semaphore).1 ∧
        (callOn manager.semaphores semId act).2 = (act semaphore).2 := by
    intro act
    rw [rowOf_callOn_self, hrow, callOn_of_some hrow]
    exact ⟨rfl, rfl⟩
  cases call with
  | semaphoreWait called threadId =>
    by_cases hcalled : called = semId
    · subst hcalled
      obtain ⟨hafter, hanswer⟩ := hself fun semaphore ↦ semaphore.wait threadId
      obtain ⟨hmost, hle, hunits⟩ := semaphore.wait_cases threadId
      refine ⟨_, hafter, hmost, ?_, fun hbelow ↦ ?_⟩
      · simp only [waited, posted, semaphoreWait, onSemaphore, hanswer, true_and, Nat.add_zero]
        exact hunits
      · rw [hmost]
        exact UInt32.le_trans hle hbelow
    · exact ⟨semaphore, unitsKept_of_same (hother hcalled) (by simp [waited, hcalled]) rfl⟩
  | semaphorePost called =>
    by_cases hcalled : called = semId
    · subst hcalled
      obtain ⟨hafter, hanswer⟩ := hself Semaphore.post
      obtain ⟨hmost, hbelow, hunits⟩ := semaphore.post_cases
      refine ⟨_, hafter, hmost, ?_, fun hle ↦ hmost.symm ▸ hbelow hle⟩
      simp only [waited, posted, semaphorePost, onSemaphore, hanswer, true_and, Nat.add_zero]
      exact hunits
    · exact ⟨semaphore, unitsKept_of_same (hother hcalled) rfl (by simp [posted, hcalled])⟩
  | semaphoreDestroy called =>
    by_cases hcalled : called = semId
    · subst hcalled
      obtain ⟨hmost, hcount⟩ := semaphore.units_destroy
      refine ⟨_, (hself Semaphore.destroy).1, hmost, congrArg UInt32.toNat hcount, fun hle ↦ ?_⟩
      rw [hmost, hcount]
      exact hle
    · exact ⟨semaphore, unitsKept_of_same (hother hcalled) rfl rfl⟩
  | semaphoreCreate initialCount maxCount =>
    refine ⟨semaphore, unitsKept_of_same ?_ rfl rfl⟩
    rw [threadStep, perform, semaphoreCreate]
    split_ifs
    · exact hrow
    · exact rowOf_concat_of_some hrow
  | mutexCreate =>
    refine ⟨semaphore, unitsKept_of_same ?_ rfl rfl⟩
    rw [threadStep, perform, mutexCreate]
    split_ifs <;> exact hrow
  | _ => exact ⟨semaphore, unitsKept_of_same hrow rfl rfl⟩

/-! ### Runs -/

/-- Along every run the count of a semaphore is what it was at first, plus the units that were
posted less those that were taken, and it does not go beyond the maximum once it is not beyond it.
-/
theorem unitsKept_runFrom (hrow : rowOf manager.semaphores semId = some semaphore)
    (calls : List ThreadCall) :
    ∃ next, rowOf (runFrom threadStep manager calls).semaphores semId = some next ∧
      next.maxCount = semaphore.maxCount ∧
      next.count.toNat + tally threadStep (waited semId) manager calls =
        semaphore.count.toNat + tally threadStep (posted semId) manager calls ∧
      (semaphore.count ≤ semaphore.maxCount → next.count ≤ next.maxCount) := by
  induction calls using List.reverseRecOn with
  | nil => exact ⟨semaphore, hrow, rfl, rfl, id⟩
  | append_singleton calls call ih =>
    obtain ⟨before, hbefore, hmost, hunits, hbelow⟩ := ih
    obtain ⟨next, hkept⟩ := unitsKept_step hbefore call
    refine ⟨next, ?_, hkept.most.trans hmost, ?_, fun hle ↦ hkept.below (hbelow hle)⟩
    · rw [runFrom_append]
      exact hkept.row
    · have hstep := hkept.units
      rw [tally_concat, tally_concat]
      omega

/-- A semaphore that is created has its id, its count and its maximum. -/
theorem rowOf_semaphoreCreate (hroom : manager.semaphores.length < maxSemaphores)
    (initialCount maxCount : UInt32) :
    ∃ created, rowOf (threadStep manager (.semaphoreCreate initialCount maxCount)).semaphores
        manager.nextSemaphore = some created ∧
      created.count = initialCount ∧ created.maxCount = maxCount := by
  have hsmall : manager.semaphores.length < 2048 := hroom
  have hnext : manager.nextSemaphore.toNat = manager.semaphores.length + 1 :=
    UInt32.toNat_ofNat_of_lt' (show manager.semaphores.length + 1 < 2 ^ 32 by omega)
  rw [threadStep, perform, semaphoreCreate, if_neg (Nat.not_le.mpr hroom)]
  let created : Semaphore := {
    semaphoreId := manager.nextSemaphore
    count := initialCount
    maxCount := maxCount
    waitingThreads := [] }
  exact ⟨created, rowOf_concat_eq.trans (if_pos hnext), rfl, rfl⟩

/-- A semaphore that is created with any counts, in a manager that has room for it, counts its units
right after all calls that follow, by any threads and in any order, exactly when the count that it
is created with is at most the maximum. -/
theorem semaphoreCounting_iff (manager : ThreadManager) (initialCount maxCount : UInt32)
    (hroom : manager.semaphores.length < maxSemaphores) (since : List ThreadCall) :
    (∀ taken, taken <+: since → CountsUnits manager initialCount maxCount taken) ↔
      initialCount ≤ maxCount := by
  obtain ⟨created, hcreated, hcount, hmax⟩ := rowOf_semaphoreCreate hroom initialCount maxCount
  constructor
  · intro hright
    obtain ⟨semaphore, hrow, -, hle, -⟩ := hright [] List.nil_prefix
    rw [runFrom_nil, hcreated, Option.some.injEq] at hrow
    rwa [← hrow, hcount] at hle
  · intro hle taken _
    obtain ⟨next, hrow, hmost, hunits, hbelow⟩ := unitsKept_runFrom hcreated taken
    rw [hcount] at hunits
    rw [hcount, hmost, hmax] at hbelow
    refine ⟨next, hrow, hunits, hbelow hle, fun hfailed ↦ ?_⟩
    rw [semaphorePost, onSemaphore, callOn_of_some hrow] at hfailed
    refine UInt32.le_antisymm (hbelow hle) ?_
    rw [← hmax, ← hmost]
    exact next.le_count_of_post_failed hfailed

/-- A semaphore with 1 of 2 units, which two threads take from. -/
theorem semaphoreCounting_two_threads :
    threadInit.semaphores.length < maxSemaphores ∧
      ((∀ taken, taken <+: [.semaphoreWait 1 7, .semaphoreWait 1 8, .semaphorePost 1] →
          CountsUnits threadInit 1 2 taken) ↔ (1 : UInt32) ≤ 2) :=
  ⟨by decide, semaphoreCounting_iff threadInit 1 2 (by decide) _⟩

/-- A semaphore that is created with 5 units and a maximum of 3. -/
theorem not_countsUnits_above_maximum : ¬ CountsUnits threadInit 5 3 [] := by
  rintro ⟨semaphore, hrow, -, hle, -⟩
  obtain rfl := Option.some.inj hrow
  exact absurd hle (by decide)

end OneOS.Threads
