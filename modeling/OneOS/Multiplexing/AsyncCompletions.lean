import OneOS.Multiplexing.AsyncIoManager

/-!
# Completions of asynchronous operations

Between two calls every operation is queued, completed or cancelled, and no completed operation
stands behind a queued one, because polling completes what is queued from the front. So the
completed operations in the order of the array are the operations in the order in which they were
completed, and all that a run is to be compared with can be read off the array.

`Polled` says what the loop of `async_poll_completions` does, wherever the number of completions
stops it; what is kept by polling is proved by induction on it.
-/

set_option autoImplicit false
set_option relaxedAutoImplicit false

namespace OneOS.Multiplexing

open Foundation

/-! ### Polling -/

/-- An operation that was completed or cancelled. -/
def AsyncOperation.Settled (op : AsyncOperation) : Prop :=
  op.state = .completed ∨ op.state = .cancelled

/-- What polling makes of some operations, and the operations it completes: from the front on, those
that are queued, until it stops. -/
inductive Polled : List AsyncOperation → List AsyncOperation → List AsyncOperation → Prop
  | stop (ops : List AsyncOperation) : Polled ops ops []
  | finish {op : AsyncOperation} {ops rest done : List AsyncOperation}
      (hqueued : op.state = .queued) (hrest : Polled ops rest done) :
      Polled (op :: ops) (op.complete :: rest) (op.complete :: done)
  | pass {op : AsyncOperation} {ops rest done : List AsyncOperation}
      (hsettled : op.Settled) (hrest : Polled ops rest done) : Polled (op :: ops) (op :: rest) done

/-- Every operation is queued or settled. -/
def NoneRunning (ops : List AsyncOperation) : Prop :=
  ∀ op ∈ ops, op.state = .queued ∨ op.Settled

/-- No completed operation stands behind a queued one. -/
def CompletedFirst (ops : List AsyncOperation) : Prop :=
  ops.Pairwise fun earlier later ↦ later.state = .completed → earlier.state ≠ .queued

variable {op : AsyncOperation} {ops rest done : List AsyncOperation} {counts : AsyncCounts}

theorem AsyncOperation.complete_state (op : AsyncOperation) : op.complete.state = .completed := rfl

theorem pollOperations_queued (room : ℕ) (hqueued : op.state = .queued) :
    pollOperations (room + 1) counts (op :: ops) =
      let polled := pollOperations room
        { counts with
          queuedOps := counts.queuedOps - 1
          completedOps := counts.completedOps + 1 } ops
      (polled.1, op.complete :: polled.2.1, op.complete :: polled.2.2) := by
  have hstart : op.start counts = ({ op with state := .inProgress },
      { counts with
        queuedOps := counts.queuedOps - 1
        inProgressOps := counts.inProgressOps + 1 }) := if_pos hqueued
  have hcounts : AsyncCounts.complete
      { counts with
        queuedOps := counts.queuedOps - 1
        inProgressOps := counts.inProgressOps + 1 } =
      { counts with
        queuedOps := counts.queuedOps - 1
        completedOps := counts.completedOps + 1 } := by
    rw [AsyncCounts.complete, UInt32.add_sub_cancel]
  rw [pollOperations, hstart]
  dsimp only
  rw [if_pos rfl, hcounts]
  rfl

theorem pollOperations_settled (room : ℕ) (hsettled : op.Settled) :
    pollOperations (room + 1) counts (op :: ops) =
      let polled := pollOperations (room + 1) counts ops
      (polled.1, op :: polled.2.1, polled.2.2) := by
  have hstate : op.state ≠ .queued ∧ op.state ≠ .inProgress := by
    rcases hsettled with hstate | hstate <;> rw [hstate] <;> decide
  have hstart : op.start counts = (op, counts) := if_neg hstate.1
  rw [pollOperations, hstart]
  dsimp only
  rw [if_neg hstate.2]

/-- The loop of `async_poll_completions` polls. -/
theorem polled_pollOperations (room : ℕ) (counts : AsyncCounts) (hnone : NoneRunning ops) :
    Polled ops (pollOperations room counts ops).2.1 (pollOperations room counts ops).2.2 := by
  induction ops generalizing room counts with
  | nil =>
    cases room with
    | zero => exact Polled.stop []
    | succ room => exact Polled.stop []
  | cons op ops ih =>
    cases room with
    | zero => exact Polled.stop (op :: ops)
    | succ room =>
      obtain ⟨hop, hops⟩ := List.forall_mem_cons.mp hnone
      rcases hop with hqueued | hsettled
      · rw [pollOperations_queued room hqueued]
        exact Polled.finish hqueued (ih _ _ hops)
      · rw [pollOperations_settled room hsettled]
        exact Polled.pass hsettled (ih _ _ hops)

/-- The counts follow the operations that are completed. Assumes: the count of queued operations is
large enough, and that of completed ones does not wrap. -/
theorem toNat_pollOperations (room : ℕ) (hnone : NoneRunning ops)
    (hqueued : (ops.countP fun op ↦ op.state = .queued) ≤ counts.queuedOps.toNat)
    (hcompleted : counts.completedOps.toNat + ops.length < 2 ^ 32) :
    (pollOperations room counts ops).1.queuedOps.toNat +
          (pollOperations room counts ops).2.2.length = counts.queuedOps.toNat ∧
      (pollOperations room counts ops).1.inProgressOps = counts.inProgressOps ∧
        (pollOperations room counts ops).1.completedOps.toNat =
          counts.completedOps.toNat + (pollOperations room counts ops).2.2.length := by
  induction ops generalizing room counts with
  | nil =>
    cases room with
    | zero => exact ⟨rfl, rfl, rfl⟩
    | succ room => exact ⟨rfl, rfl, rfl⟩
  | cons op ops ih =>
    cases room with
    | zero => exact ⟨rfl, rfl, rfl⟩
    | succ room =>
      obtain ⟨hop, hops⟩ := List.forall_mem_cons.mp hnone
      rw [List.length_cons] at hcompleted
      rw [List.countP_cons] at hqueued
      rcases hop with hop | hsettled
      · rw [if_pos (decide_eq_true hop)] at hqueued
        have hsome : counts.queuedOps ≠ 0 := by
          intro hzero
          rw [hzero, UInt32.toNat_zero] at hqueued
          omega
        have hless := toNat_pred_add_one hsome
        have hmore : (counts.completedOps + 1).toNat = counts.completedOps.toNat + 1 :=
          toNat_succ (by omega)
        obtain ⟨hlater, hsame, hdone⟩ := @ih
          { counts with
            queuedOps := counts.queuedOps - 1
            completedOps := counts.completedOps + 1 } room hops (by dsimp only; omega)
            (by dsimp only; omega)
        rw [pollOperations_queued room hop]
        dsimp only [List.length_cons] at hlater hsame hdone ⊢
        exact ⟨by omega, hsame, by omega⟩
      · rw [pollOperations_settled room hsettled]
        exact ih (room + 1) hops (Nat.le_trans (Nat.le_add_right _ _) hqueued) (by omega)

/-! ### What polling keeps -/

theorem Polled.map_of_keep {Reading : Type*} {reading : AsyncOperation → Reading}
    (hkeep : ∀ op : AsyncOperation, reading op.complete = reading op)
    (hpolled : Polled ops rest done) : rest.map reading = ops.map reading := by
  induction hpolled with
  | stop ops => rfl
  | finish hqueued hrest ih => rw [List.map_cons, List.map_cons, ih, hkeep]
  | pass hsettled hrest ih => rw [List.map_cons, List.map_cons, ih]

theorem Polled.noneRunning (hpolled : Polled ops rest done) (hnone : NoneRunning ops) :
    NoneRunning rest := by
  induction hpolled with
  | stop ops => exact hnone
  | finish hqueued hrest ih =>
    refine List.forall_mem_cons.mpr ⟨Or.inr (Or.inl rfl), ih fun op hop ↦ ?_⟩
    exact hnone op (List.mem_cons_of_mem _ hop)
  | pass hsettled hrest ih =>
    refine List.forall_mem_cons.mpr ⟨Or.inr hsettled, ih fun op hop ↦ ?_⟩
    exact hnone op (List.mem_cons_of_mem _ hop)

theorem AsyncOperation.Settled.ne_queued (hsettled : op.Settled) : op.state ≠ .queued := by
  rcases hsettled with hstate | hstate <;> rw [hstate] <;> decide

theorem Polled.completedFirst (hpolled : Polled ops rest done) (hfirst : CompletedFirst ops) :
    CompletedFirst rest := by
  induction hpolled with
  | stop ops => exact hfirst
  | finish hqueued hrest ih =>
    refine List.pairwise_cons.mpr ⟨fun later _ _ ↦ ?_, ih (List.pairwise_cons.mp hfirst).2⟩
    exact show ¬ AsyncOpState.completed = AsyncOpState.queued by decide
  | pass hsettled hrest ih =>
    refine List.pairwise_cons.mpr ⟨fun later _ _ ↦ ?_, ih (List.pairwise_cons.mp hfirst).2⟩
    exact hsettled.ne_queued

/-- The completed operations after polling are those before and those that polling completed. -/
theorem Polled.filter_completed (hpolled : Polled ops rest done) (hfirst : CompletedFirst ops) :
    (rest.filter fun op ↦ op.state = .completed) =
      (ops.filter fun op ↦ op.state = .completed) ++ done := by
  induction hpolled with
  | stop ops => exact (List.append_nil _).symm
  | @finish op ops rest done hqueued hrest ih =>
    -- behind a queued operation none was completed
    obtain ⟨hlater, hordered⟩ := List.pairwise_cons.mp hfirst
    have hnone : (ops.filter fun op ↦ op.state = .completed) = [] := by
      refine List.filter_eq_nil_iff.mpr fun later hmem hcompleted ↦ ?_
      exact hlater later hmem (of_decide_eq_true hcompleted) hqueued
    rw [List.filter_cons, if_pos (decide_eq_true op.complete_state),
      List.filter_cons_of_neg (by rw [hqueued]; decide), ih hordered, hnone]
    rfl
  | @pass op ops rest done hsettled hrest ih =>
    rw [List.filter_cons, List.filter_cons, ih (List.pairwise_cons.mp hfirst).2]
    split_ifs
    · rfl
    · rfl

/-- As many operations are no longer queued as were completed. -/
theorem Polled.countP_queued (hpolled : Polled ops rest done) :
    (rest.countP fun op ↦ op.state = .queued) + done.length =
      ops.countP fun op ↦ op.state = .queued := by
  induction hpolled with
  | stop ops => rfl
  | @finish op ops rest done hqueued hrest ih =>
    rw [List.countP_cons, List.countP_cons, op.complete_state, if_neg (by decide),
      if_pos (decide_eq_true hqueued), List.length_cons]
    omega
  | @pass op ops rest done hsettled hrest ih =>
    rw [List.countP_cons, List.countP_cons]
    omega

/-- An operation that is settled stays as it is. -/
theorem Polled.getElem?_of_settled (hpolled : Polled ops rest done) {i : ℕ}
    (hop : ops[i]? = some op) (hsettled : op.Settled) : rest[i]? = some op := by
  induction hpolled generalizing i with
  | stop ops => exact hop
  | finish hqueued hrest ih =>
    cases i with
    | zero =>
      rw [List.getElem?_cons_zero, Option.some.injEq] at hop
      exact absurd hqueued (hop ▸ hsettled.ne_queued)
    | succ i => exact ih hop
  | pass _ hrest ih =>
    cases i with
    | zero => exact hop
    | succ i => exact ih hop

/-! ### What holds between two calls -/

/-- What is asked of the operations and the record: the counts are right, what was completed was
completed in the order of submission among the operations that are not cancelled, and the callback
of an operation was called once when it is completed, and not at all otherwise. -/
structure Accounted (manager : AsyncIoManager) (log : AsyncLog) : Prop where
  queued : manager.queuedOps.toNat = manager.operations.countP fun op ↦ op.state = .queued
  inProgress :
    manager.inProgressOps.toNat = manager.operations.countP fun op ↦ op.state = .inProgress
  completed : manager.completedOps.toNat = manager.operations.countP fun op ↦ op.state = .completed
  completions : log.completions =
    (manager.operations.filter fun op ↦ op.state = .completed).map AsyncOperation.asyncOpId
  inOrder : log.completions <+:
    (manager.operations.filter fun op ↦ op.state ≠ .cancelled).map AsyncOperation.asyncOpId
  callbacks : ∀ op ∈ manager.operations,
    (log.callbacks.filter fun call ↦ call.opId = op.asyncOpId) =
      if op.state = .completed then op.callbackCall.toList else []

/-- An operation that was completed or cancelled stays as it is. -/
def KeepsSettled (manager : AsyncIoManager) (call : AsyncCall) : Prop :=
  ∀ (i : ℕ) (op : AsyncOperation), manager.operations[i]? = some op → op.Settled →
    (asyncStep manager call).operations[i]? = some op

/-- The ids that are given from a first one on. -/
def idsFrom (first : UInt32) (count : ℕ) : List UInt32 :=
  (List.range count).map fun i ↦ first + UInt32.ofNat i

/-- The invariant of the operations and the record, with the first id that was given. -/
structure OperationsHold (first : UInt32) (manager : AsyncIoManager) (log : AsyncLog) : Prop where
  room : manager.operations.length ≤ maxAsyncOperations
  ids : manager.operations.map AsyncOperation.asyncOpId = idsFrom first manager.operations.length
  next : manager.nextAsyncOpId = first + UInt32.ofNat manager.operations.length
  noneRunning : NoneRunning manager.operations
  completedFirst : CompletedFirst manager.operations
  queued : manager.queuedOps.toNat = manager.operations.countP fun op ↦ op.state = .queued
  inProgress : manager.inProgressOps = 0
  completed : manager.completedOps.toNat = manager.operations.countP fun op ↦ op.state = .completed
  completions : log.completions =
    (manager.operations.filter fun op ↦ op.state = .completed).map AsyncOperation.asyncOpId
  callbacks : log.callbacks =
    (manager.operations.filter fun op ↦ op.state = .completed).filterMap AsyncOperation.callbackCall

variable {manager : AsyncIoManager} {log : AsyncLog} {first : UInt32}

theorem nodup_idsFrom (first : UInt32) {count : ℕ} (hcount : count ≤ 2 ^ 32) :
    (idsFrom first count).Nodup := by
  refine List.Nodup.map_on (fun i hi j hj hsame ↦ ?_) List.nodup_range
  have hi' : i < 2 ^ 32 := Nat.lt_of_lt_of_le (List.mem_range.mp hi) hcount
  have hj' : j < 2 ^ 32 := Nat.lt_of_lt_of_le (List.mem_range.mp hj) hcount
  have hnat := congrArg UInt32.toNat ((UInt32.add_right_inj first).mp hsame)
  rwa [UInt32.toNat_ofNat_of_lt' hi', UInt32.toNat_ofNat_of_lt' hj'] at hnat

/-- The completed operations come first among those that are not cancelled. -/
theorem filter_completed_front (hnone : NoneRunning ops) (hfirst : CompletedFirst ops) :
    (ops.filter fun op ↦ op.state = .completed) <+:
      ops.filter fun op ↦ op.state ≠ .cancelled := by
  induction ops with
  | nil => exact List.prefix_refl []
  | cons op ops ih =>
    obtain ⟨hop, hops⟩ := List.forall_mem_cons.mp hnone
    obtain ⟨hlater, hordered⟩ := List.pairwise_cons.mp hfirst
    rcases hop with hqueued | hcompleted | hcancelled
    · have hempty : ((op :: ops).filter fun op ↦ op.state = .completed) = [] := by
        refine List.filter_eq_nil_iff.mpr (List.forall_mem_cons.mpr ⟨?_, fun later hmem htest ↦ ?_⟩)
        · rw [hqueued]
          decide
        · exact hlater later hmem (of_decide_eq_true htest) hqueued
      rw [hempty]
      exact List.nil_prefix
    · rw [List.filter_cons, if_pos (decide_eq_true hcompleted), List.filter_cons,
        if_pos (by rw [hcompleted]; decide)]
      exact List.cons_prefix_cons.mpr ⟨rfl, ih hops hordered⟩
    · rw [List.filter_cons_of_neg (by rw [hcancelled]; decide),
        List.filter_cons_of_neg (by rw [hcancelled]; decide)]
      exact ih hops hordered

theorem AsyncOperation.opId_of_callbackCall {call : CallbackCall}
    (hcall : op.callbackCall = some call) : call.opId = op.asyncOpId := by
  rw [AsyncOperation.callbackCall] at hcall
  split_ifs at hcall
  rw [← Option.some.inj hcall]

/-- Operations with other ids call no callback under an id. -/
theorem filter_callbacks_of_ne {id : UInt32} (hother : ∀ other ∈ ops, other.asyncOpId ≠ id) :
    ((ops.filter fun op ↦ op.state = .completed).filterMap AsyncOperation.callbackCall).filter
      (fun call ↦ call.opId = id) = [] := by
  refine List.filter_eq_nil_iff.mpr fun call hcall hid ↦ ?_
  obtain ⟨other, hmem, hcallback⟩ := List.mem_filterMap.mp hcall
  refine hother other (List.mem_of_mem_filter hmem) ?_
  rw [← other.opId_of_callbackCall hcallback]
  exact of_decide_eq_true hid

/-- The calls of callbacks of distinct operations, taken apart by id. -/
theorem filter_callbacks (hids : (ops.map AsyncOperation.asyncOpId).Nodup) (hop : op ∈ ops) :
    ((ops.filter fun op ↦ op.state = .completed).filterMap AsyncOperation.callbackCall).filter
        (fun call ↦ call.opId = op.asyncOpId) =
      if op.state = .completed then op.callbackCall.toList else [] := by
  obtain ⟨before, after, rfl⟩ := List.append_of_mem hop
  rw [List.map_append, List.map_cons, List.nodup_append] at hids
  obtain ⟨-, hself, hapart⟩ := hids
  have hbefore : ∀ other ∈ before, other.asyncOpId ≠ op.asyncOpId := fun other hother ↦
    hapart _ (List.mem_map_of_mem hother) _ List.mem_cons_self
  have hafter : ∀ other ∈ after, other.asyncOpId ≠ op.asyncOpId := fun other hother hsame ↦
    (List.nodup_cons.mp hself).1 (hsame ▸ List.mem_map_of_mem hother)
  rw [List.filter_append, List.filterMap_append, List.filter_append,
    filter_callbacks_of_ne hbefore, List.nil_append, List.filter_cons]
  simp only [decide_eq_true_eq]
  split_ifs with hcompleted
  · rw [List.filterMap_cons]
    cases hcall : op.callbackCall with
    | none => exact filter_callbacks_of_ne hafter
    | some call =>
      dsimp only
      rw [List.filter_cons, if_pos (decide_eq_true (op.opId_of_callbackCall hcall)),
        filter_callbacks_of_ne hafter]
      rfl
  · exact filter_callbacks_of_ne hafter

theorem OperationsHold.accounted (hholds : OperationsHold first manager log) :
    Accounted manager log := by
  have hids : (manager.operations.map AsyncOperation.asyncOpId).Nodup := by
    have hroom := hholds.room
    rw [maxAsyncOperations] at hroom
    rw [hholds.ids]
    exact nodup_idsFrom first (by omega)
  refine ⟨hholds.queued, ?_, hholds.completed, hholds.completions, ?_, fun op hop ↦ ?_⟩
  · rw [hholds.inProgress, UInt32.toNat_zero, eq_comm, List.countP_eq_zero]
    intro op hop hrunning
    rcases hholds.noneRunning op hop with hstate | hstate | hstate <;>
      exact absurd ((of_decide_eq_true hrunning).symm.trans hstate) (by decide)
  · rw [hholds.completions]
    exact (filter_completed_front hholds.noneRunning hholds.completedFirst).map _
  · rw [hholds.callbacks]
    exact filter_callbacks hids hop

/-! ### What the calls keep -/

theorem OperationsHold.submit (hholds : OperationsHold first manager log) (fd : ℤ) (length : UInt32)
    (callback userData : ℕ) :
    OperationsHold first (asyncSubmitOperation manager fd length callback userData).1 log := by
  rw [asyncSubmitOperation]
  split_ifs with hrefused hfull
  · exact hholds
  · exact hholds
  · have hroom : manager.operations.length < maxAsyncOperations := Nat.lt_of_not_le hfull
    have hcount : (manager.operations.countP fun op ↦ op.state = .queued) ≤
        manager.operations.length := List.countP_le_length
    have hqueued : (manager.queuedOps + 1).toNat = manager.queuedOps.toNat + 1 := by
      rw [maxAsyncOperations] at hroom
      exact toNat_succ (by rw [hholds.queued]; omega)
    refine ⟨?_, ?_, ?_, ?_, ?_, ?_, hholds.inProgress, ?_, ?_, ?_⟩
    · rw [List.length_append]
      exact hroom
    · rw [List.map_append, hholds.ids, List.length_append, hholds.next, idsFrom, idsFrom,
        List.length_singleton, List.range_succ, List.map_append]
      rfl
    · dsimp only
      rw [hholds.next, List.length_append, List.length_singleton, UInt32.ofNat_add,
        ← UInt32.add_assoc]
      rfl
    · refine List.forall_mem_append.mpr ⟨hholds.noneRunning, List.forall_mem_singleton.mpr ?_⟩
      exact Or.inl rfl
    · refine List.pairwise_append.mpr
        ⟨hholds.completedFirst, List.pairwise_singleton _ _, fun earlier _ later hlater ↦ ?_⟩
      rw [List.mem_singleton.mp hlater]
      exact fun hcompleted ↦ absurd hcompleted
        (show ¬ AsyncOpState.queued = AsyncOpState.completed by decide)
    · rw [List.countP_append, ← hholds.queued]
      exact hqueued
    · rw [List.countP_append]
      exact hholds.completed
    · rw [List.filter_append]
      exact hholds.completions.trans (congrArg _ (List.append_nil _).symm)
    · rw [List.filter_append]
      exact hholds.callbacks.trans (congrArg _ (List.append_nil _).symm)

theorem OperationsHold.cancel (hholds : OperationsHold first manager log) (opId : UInt32) :
    OperationsHold first (asyncCancelOperation manager opId).1 log := by
  rw [asyncCancelOperation]
  split_ifs with hzero
  · exact hholds
  cases hfind : manager.operations.find? (AsyncOperation.cancellable opId) with
  | none => exact hholds
  | some op =>
    obtain ⟨before, after, hsplit, htest, -, hupdate⟩ := updateFirst_split hfind
    have hqueued : op.state = .queued := by
      have hstate := (of_decide_eq_true htest).2
      rcases hholds.noneRunning op (List.mem_of_find?_eq_some hfind) with hop | hop | hop
      · exact hop
      · exact absurd hstate (by rw [hop]; decide)
      · exact absurd hstate (by rw [hop]; decide)
    dsimp only
    rw [hupdate, if_pos hqueued, if_pos hqueued]
    obtain ⟨hroom, hids, hnext, hnone, hfirst, hcount, hidle, hcompleted, hcompletions,
      hcallbacks⟩ := hholds
    rw [hsplit] at hroom hids hnext hnone hfirst hcount hcompleted hcompletions hcallbacks
    have hlength : (before ++ { op with state := .cancelled } :: after).length =
        (before ++ op :: after).length := by
      rw [List.length_append, List.length_append, List.length_cons, List.length_cons]
    have hmap : (before ++ { op with state := .cancelled } :: after).map AsyncOperation.asyncOpId =
        (before ++ op :: after).map AsyncOperation.asyncOpId := by
      rw [List.map_append, List.map_append, List.map_cons, List.map_cons]
    have hfilter : ((before ++ { op with state := .cancelled } :: after).filter fun op ↦
        op.state = .completed) = (before ++ op :: after).filter fun op ↦ op.state = .completed := by
      rw [List.filter_append, List.filter_append, List.filter_cons, List.filter_cons, hqueued]
      rfl
    refine ⟨hlength ▸ hroom, ?_, ?_, ?_, ?_, ?_, hidle, ?_, ?_, ?_⟩
    · rw [hmap, hlength]
      exact hids
    · rw [hlength]
      exact hnext
    · obtain ⟨hbefore, hafter⟩ := List.forall_mem_append.mp hnone
      refine List.forall_mem_append.mpr ⟨hbefore, List.forall_mem_cons.mpr ⟨?_, ?_⟩⟩
      · exact Or.inr (Or.inr rfl)
      · exact (List.forall_mem_cons.mp hafter).2
    · obtain ⟨hbefore, hafter, hbetween⟩ := List.pairwise_append.mp hfirst
      obtain ⟨-, hafter⟩ := List.pairwise_cons.mp hafter
      refine List.pairwise_append.mpr ⟨hbefore, List.pairwise_cons.mpr ⟨?_, hafter⟩, ?_⟩
      · exact fun later _ _ ↦ show ¬ AsyncOpState.cancelled = AsyncOpState.queued by decide
      · intro earlier hearlier
        refine List.forall_mem_cons.mpr ⟨fun hcancelled ↦ ?_, fun later hlater ↦ ?_⟩
        · exact absurd hcancelled (show ¬ AsyncOpState.cancelled = AsyncOpState.completed by decide)
        · exact hbetween earlier hearlier later (List.mem_cons_of_mem _ hlater)
    · rw [List.countP_append, List.countP_cons, if_pos (decide_eq_true hqueued)] at hcount
      have hsome : manager.queuedOps ≠ 0 := by
        intro hzero
        rw [hzero, UInt32.toNat_zero] at hcount
        omega
      have hless := toNat_pred_add_one hsome
      rw [List.countP_append, List.countP_cons, if_neg
        (show ¬ decide (AsyncOpState.cancelled = AsyncOpState.queued) = true by decide)]
      dsimp only
      omega
    · rw [List.countP_eq_length_filter, hfilter, ← List.countP_eq_length_filter]
      exact hcompleted
    · rw [hfilter]
      exact hcompletions
    · rw [hfilter]
      exact hcallbacks

theorem OperationsHold.poll (hholds : OperationsHold first manager log) (maxCompletions : UInt32) :
    OperationsHold first (asyncStep manager (.poll maxCompletions))
      (asyncLogAfter manager (.poll maxCompletions) log) := by
  rw [asyncStep, asyncLogAfter, completedBy, asyncPollCompletions]
  split_ifs with hzero
  · have hnone : (pollOperations maxCompletions.toNat manager.toAsyncCounts
        manager.operations).2.2 = [] := by
      rw [hzero, UInt32.toNat_zero, pollOperations]
    rw [hnone, List.map_nil, List.append_nil, List.append_nil]
    exact hholds
  have hpolled := polled_pollOperations maxCompletions.toNat manager.toAsyncCounts
    hholds.noneRunning
  have hfilter := hpolled.filter_completed hholds.completedFirst
  have hids := hpolled.map_of_keep fun op ↦ (rfl : op.complete.asyncOpId = op.asyncOpId)
  have hlength := congrArg List.length hids
  rw [List.length_map, List.length_map] at hlength
  have hcount : (manager.operations.countP fun op ↦ op.state = .completed) ≤
      manager.operations.length := List.countP_le_length
  have hroom := hholds.room
  rw [maxAsyncOperations] at hroom
  obtain ⟨hqueued, hidle, hcompleted⟩ := toNat_pollOperations maxCompletions.toNat
    hholds.noneRunning (Nat.le_of_eq hholds.queued.symm) (by rw [hholds.completed]; omega)
  refine ⟨hlength ▸ hholds.room, ?_, ?_, hpolled.noneRunning hholds.noneRunning,
    hpolled.completedFirst hholds.completedFirst, ?_, hidle.trans hholds.inProgress, ?_, ?_, ?_⟩
  · dsimp only
    rw [hlength]
    exact hids.trans hholds.ids
  · dsimp only
    rw [hlength]
    exact hholds.next
  · have hleft := hpolled.countP_queued
    rw [← hholds.queued, ← hqueued] at hleft
    exact (Nat.add_right_cancel hleft).symm
  · dsimp only
    rw [hcompleted, hholds.completed, List.countP_eq_length_filter, List.countP_eq_length_filter,
      hfilter, List.length_append]
  · dsimp only
    rw [hfilter, List.map_append, hholds.completions]
  · dsimp only
    rw [hfilter, List.filterMap_append, hholds.callbacks]

theorem operationsHold_step (hholds : OperationsHold first manager log) (call : AsyncCall) :
    OperationsHold first (asyncStep manager call) (asyncLogAfter manager call log) := by
  cases call with
  | submit fd length callback userData => exact hholds.submit fd length callback userData
  | cancel opId => exact hholds.cancel opId
  | poll maxCompletions => exact hholds.poll maxCompletions

theorem OperationsHold.keepsSettled (hholds : OperationsHold first manager log) (call : AsyncCall) :
    KeepsSettled manager call := by
  intro i op hop hsettled
  cases call with
  | submit fd length callback userData =>
    rw [asyncStep, asyncSubmitOperation]
    split_ifs
    · exact hop
    · exact hop
    · obtain ⟨hlt, -⟩ := List.getElem?_eq_some_iff.mp hop
      rw [← hop]
      exact List.getElem?_append_left hlt
  | cancel opId =>
    rw [asyncStep, asyncCancelOperation]
    split_ifs
    · exact hop
    cases hfind : manager.operations.find? (AsyncOperation.cancellable opId) with
    | none => exact hop
    | some cancelled =>
      rcases getElem?_updateFirst hop with hsame | ⟨hself, -⟩
      · exact hsame
      · have htest := List.find?_some hself
        rcases (of_decide_eq_true htest).2, hsettled with ⟨hstate | hstate, hstate' | hstate'⟩ <;>
          exact absurd (hstate.symm.trans hstate') (by decide)
  | poll maxCompletions =>
    rw [asyncStep, asyncPollCompletions]
    split_ifs
    · exact hop
    · exact (polled_pollOperations _ _ hholds.noneRunning).getElem?_of_settled hop hsettled

/-! ### Every run -/

/-- Over every run the counts are right, operations complete in the order of submission, callbacks
are called once for completed operations and never for others, and an operation that was completed
or cancelled stays as it is. -/
theorem operationsAccounted (nextAsyncOpId : UInt32) (calls : List AsyncCall) :
    AlongRun (withTrace asyncStep asyncLogAfter) (fun traced ↦ Accounted traced.1 traced.2)
        (asyncIoInit nextAsyncOpId, ⟨[], []⟩) calls ∧
      EveryStep asyncStep KeepsSettled (asyncIoInit nextAsyncOpId) calls := by
  have hstart : OperationsHold nextAsyncOpId (asyncIoInit nextAsyncOpId) ⟨[], []⟩ :=
    ⟨Nat.zero_le _, rfl, (UInt32.add_zero _).symm, List.forall_mem_nil _, List.Pairwise.nil, rfl,
      rfl, rfl, rfl, rfl⟩
  have halong : AlongRun (withTrace asyncStep asyncLogAfter)
      (fun traced ↦ OperationsHold nextAsyncOpId traced.1 traced.2)
      (asyncIoInit nextAsyncOpId, ⟨[], []⟩) calls :=
    alongRun_invariant _ (fun _ _ ↦ True)
      (fun traced call hholds _ ↦ operationsHold_step hholds call) hstart fun _ _ _ ↦ trivial
  refine ⟨halong.imp fun traced hholds ↦ hholds.accounted, ?_⟩
  rw [← everyStep_withTrace]
  exact halong.everyStep fun traced call hholds ↦ hholds.keepsSettled call

/-- Three operations are submitted, the first is cancelled and one is polled: the second is
completed and its callback is called. -/
example :
    (runFrom (withTrace asyncStep asyncLogAfter) (asyncIoInit 1, ⟨[], []⟩)
        [.submit 3 8 10 0, .submit 3 8 11 0, .submit 3 8 12 0, .cancel 1, .poll 1]).2 =
      ⟨[2], [⟨11, 2, .completed, 0, 0⟩]⟩ := by
  decide

end OneOS.Multiplexing
