import OneOS.FaultTolerance.CheckpointRecovery
import OneOS.Foundation.RowRecords
import OneOS.Foundation.Runs

/-!
# What recovery points lead back to

A recovery is to succeed only when the checkpoint that the recovery point names is still there, is
`COMPLETED`, and holds the state that it held when it was finalized; and
`last_successful_checkpoint` is to name a checkpoint that is still there and `COMPLETED`. The state
of every checkpoint at its last finalization is recorded beside the checkpoints (`finalizedAfter`).

`recovery_restore` looks at the recovery point only. `recoversValid_iff` says exactly which runs
recover what they should: a recovery point is made only for a checkpoint to which it can lead back,
what is saved to such a checkpoint afterwards is what it holds, and pruning keeps the checkpoints
that are named.
-/

set_option autoImplicit false
set_option relaxedAutoImplicit false

namespace OneOS.FaultTolerance.CheckpointRecovery

open Foundation

/-! ### Finalized states -/

/-- A checkpoint with the state that it held when it was finalized last. -/
abbrev CheckpointRow := Checkpoint × Option (List UInt8)

/-- For every checkpoint, the state that it held when it was finalized last, after a call. -/
def finalizedAfter (manager : CheckpointManager) (call : CheckpointCall)
    (finals : List (Option (List UInt8))) : List (Option (List UInt8)) :=
  match call with
  | .create _ _ malloc =>
    if maxCheckpoints ≤ manager.checkpoints.length then finals
    else if malloc then finals ++ [none] else finals
  | .finalize checkpointId =>
    if checkpointId = 0 then finals
    else
      recordFirst (fun checkpoint ↦ checkpoint.checkpointId = checkpointId)
        (fun checkpoint _ ↦ some checkpoint.stateData) manager.checkpoints finals
  | .pruneOldCheckpoints keepCount => finals.drop (manager.toRemove keepCount)
  | _ => finals

/-- The checkpoints, each with its record. -/
def rows (traced : CheckpointManager × List (Option (List UInt8))) : List CheckpointRow :=
  traced.1.checkpoints.zip traced.2

/-- The id of the checkpoint of a row. -/
def CheckpointRow.id (row : CheckpointRow) : UInt32 := row.1.checkpointId

/-- The checkpoint is `COMPLETED`. -/
def CheckpointRow.Completed (row : CheckpointRow) : Prop :=
  row.1.state = .completed

/-- The checkpoint is `COMPLETED` and holds the state that it held when it was finalized. -/
def CheckpointRow.Restorable (row : CheckpointRow) : Prop :=
  row.1.state = .completed ∧ row.2 = some row.1.stateData

/-- There is a record for every checkpoint; a recovery succeeds only when the checkpoint that the
recovery point names is there and restorable; and the last successful checkpoint is there and
`COMPLETED`. -/
structure RecoversValid (traced : CheckpointManager × List (Option (List UInt8))) : Prop where
  recorded : traced.1.checkpoints.length = traced.2.length
  restores : ∀ point ∈ traced.1.recoveryPoints,
    (recoveryRestore traced.1 point.recoveryPointId).2 = 0 →
      Finds CheckpointRow.id CheckpointRow.Restorable (rows traced) point.checkpointId
  latest : traced.1.lastSuccessfulCheckpoint ≠ 0 →
    Finds CheckpointRow.id CheckpointRow.Completed (rows traced)
      traced.1.lastSuccessfulCheckpoint

/-- Every recovery point that can be used names a checkpoint that is there and restorable. -/
def PointsValid (rows : List CheckpointRow) (points : List RecoveryPoint) : Prop :=
  ∀ point ∈ points, point.recoveryPointId ≠ 0 →
    Finds CheckpointRow.id CheckpointRow.Restorable rows point.checkpointId

/-- The last successful checkpoint, if there is one, is there and `COMPLETED`. -/
def LatestValid (rows : List CheckpointRow) (last : UInt32) : Prop :=
  last ≠ 0 → Finds CheckpointRow.id CheckpointRow.Completed rows last

/-- The condition on a call. A recovery point that can be used is made for a checkpoint that is
there and restorable. What is saved to a checkpoint that such a recovery point names is what it
holds. No checkpoint that is pruned has an id that such a recovery point, or the last successful
checkpoint, names, unless the first one with that id that is kept is restorable, or `COMPLETED`. -/
def CheckpointCall.KeepsNamed (traced : CheckpointManager × List (Option (List UInt8))) :
    CheckpointCall → Prop
  | .saveState checkpointId stateData =>
    checkpointId ≠ 0 → stateData ≠ [] → stateData.length ≤ maxProcessStateSnapshot →
      (∃ point ∈ traced.1.recoveryPoints,
        point.recoveryPointId ≠ 0 ∧ point.checkpointId = checkpointId) →
      ∀ checkpoint, traced.1.checkpoints.find? (fun checkpoint ↦
        checkpoint.checkpointId = checkpointId) = some checkpoint →
      stateData = checkpoint.stateData
  | .createPoint checkpointId _ =>
    checkpointId ≠ 0 → traced.1.recoveryPoints.length < maxRecoveryPoints →
      traced.1.nextRecoveryPointId ≠ 0 →
      Finds CheckpointRow.id CheckpointRow.Restorable (rows traced) checkpointId
  | .pruneOldCheckpoints keepCount =>
    ∀ removed ∈ (rows traced).take (traced.1.toRemove keepCount),
      (∀ point ∈ traced.1.recoveryPoints, point.recoveryPointId ≠ 0 →
        removed.id = point.checkpointId →
          Finds CheckpointRow.id CheckpointRow.Restorable
            ((rows traced).drop (traced.1.toRemove keepCount)) point.checkpointId) ∧
      (traced.1.lastSuccessfulCheckpoint ≠ 0 → removed.id = traced.1.lastSuccessfulCheckpoint →
        Finds CheckpointRow.id CheckpointRow.Completed
          ((rows traced).drop (traced.1.toRemove keepCount)) traced.1.lastSuccessfulCheckpoint)
  | _ => True

variable {manager : CheckpointManager} {finals : List (Option (List UInt8))}
variable {traced : CheckpointManager × List (Option (List UInt8))} {checkpointId : UInt32}
variable {table : List CheckpointRow}

/-- A recovery with the id of a recovery point succeeds unless the id is 0. -/
theorem recoveryRestore_eq_zero_iff {point : RecoveryPoint}
    (hpoint : point ∈ manager.recoveryPoints) :
    (recoveryRestore manager point.recoveryPointId).2 = 0 ↔ point.recoveryPointId ≠ 0 := by
  have hany : (manager.recoveryPoints.any fun other ↦
      other.recoveryPointId = point.recoveryPointId) = true :=
    List.any_eq_true.mpr ⟨point, hpoint, decide_eq_true rfl⟩
  rw [recoveryRestore, if_pos hany]
  split_ifs with hzero
  · simp [hzero]
  · simp [hzero]

theorem recoversValid_iff_rows :
    RecoversValid traced ↔
      traced.1.checkpoints.length = traced.2.length ∧
        PointsValid (rows traced) traced.1.recoveryPoints ∧
          LatestValid (rows traced) traced.1.lastSuccessfulCheckpoint := by
  constructor
  · rintro ⟨hrecorded, hrestores, hlatest⟩
    refine ⟨hrecorded, fun point hpoint hid ↦ ?_, hlatest⟩
    exact hrestores point hpoint ((recoveryRestore_eq_zero_iff hpoint).mpr hid)
  · rintro ⟨hrecorded, hpoints, hlatest⟩
    refine ⟨hrecorded, fun point hpoint hrestored ↦ ?_, hlatest⟩
    exact hpoints point hpoint ((recoveryRestore_eq_zero_iff hpoint).mp hrestored)

/-! ### Calls on a checkpoint -/

theorem checkpoints_onCheckpoint (change : Checkpoint → Checkpoint) :
    (manager.onCheckpoint checkpointId change).1.checkpoints =
      if checkpointId = 0 then manager.checkpoints
      else updateFirst (fun checkpoint ↦ checkpoint.checkpointId = checkpointId) change
        manager.checkpoints := by
  rw [CheckpointManager.onCheckpoint]
  split_ifs with hzero hany
  · rfl
  · rfl
  · refine (updateFirst_of_find?_eq_none (List.find?_eq_none.mpr ?_)).symm
    simpa using hany

theorem points_onCheckpoint (manager : CheckpointManager) (checkpointId : UInt32)
    (change : Checkpoint → Checkpoint) :
    (manager.onCheckpoint checkpointId change).1.recoveryPoints = manager.recoveryPoints ∧
      (manager.onCheckpoint checkpointId change).1.lastSuccessfulCheckpoint =
        manager.lastSuccessfulCheckpoint := by
  rw [CheckpointManager.onCheckpoint]
  split_ifs <;> exact ⟨rfl, rfl⟩

theorem length_onCheckpoint (change : Checkpoint → Checkpoint) :
    (manager.onCheckpoint checkpointId change).1.checkpoints.length =
      manager.checkpoints.length := by
  rw [checkpoints_onCheckpoint]
  split_ifs
  · rfl
  · rw [updateFirst, List.length_modify]

theorem checkpointFinalize_of_zero (hzero : checkpointId = 0) :
    (checkpointFinalize manager checkpointId).1 = manager := by
  rw [checkpointFinalize, CheckpointManager.onCheckpoint, if_pos hzero]
  rfl

theorem checkpointFinalize_of_none (hnone : (manager.checkpoints.find? fun checkpoint ↦
    checkpoint.checkpointId = checkpointId) = none) :
    (checkpointFinalize manager checkpointId).1 = manager := by
  have hany : ¬ (manager.checkpoints.any fun checkpoint ↦
      checkpoint.checkpointId = checkpointId) = true := by
    rw [Bool.not_eq_true, List.any_eq_false]
    exact List.find?_eq_none.mp hnone
  rw [checkpointFinalize, CheckpointManager.onCheckpoint, if_neg hany, ite_self]
  rfl

theorem checkpointFinalize_of_some {checkpoint : Checkpoint} (hzero : checkpointId ≠ 0)
    (hfind : (manager.checkpoints.find? fun checkpoint ↦
      checkpoint.checkpointId = checkpointId) = some checkpoint) :
    (checkpointFinalize manager checkpointId).1 =
      { manager with
        checkpoints := updateFirst (fun checkpoint ↦ checkpoint.checkpointId = checkpointId)
          Checkpoint.complete manager.checkpoints
        lastSuccessfulCheckpoint := checkpointId
        totalCheckpointTimeUs := manager.totalCheckpointTimeUs + 1000000 } := by
  have hid : checkpoint.checkpointId = checkpointId := key_of_find? hfind
  have hany : (manager.checkpoints.any fun checkpoint ↦
      checkpoint.checkpointId = checkpointId) = true :=
    List.any_eq_true.mpr ⟨checkpoint, List.mem_of_find?_eq_some hfind, decide_eq_true hid⟩
  rw [checkpointFinalize, CheckpointManager.onCheckpoint, if_neg hzero, if_pos hany]
  rfl

/-- A call on a checkpoint changes its row. -/
theorem zip_onCheckpoint (change : Checkpoint → Checkpoint) (hid : checkpointId ≠ 0) :
    (manager.onCheckpoint checkpointId change).1.checkpoints.zip finals =
      updateFirst (fun row ↦ CheckpointRow.id row = checkpointId)
        (fun row ↦ (change row.1, row.2)) (rows (manager, finals)) := by
  have hsame : recordFirst (fun checkpoint ↦ checkpoint.checkpointId = checkpointId)
      (fun _ final ↦ final) manager.checkpoints finals = finals := recordFirst_same
  rw [checkpoints_onCheckpoint, if_neg hid]
  conv_lhs => rw [← hsame]
  exact zip_recordFirst

/-- A call that changes neither the state nor the data of its checkpoint. -/
theorem recoversValid_onCheckpoint (hvalid : RecoversValid (manager, finals))
    (change : Checkpoint → Checkpoint)
    (hkeep : ∀ checkpoint, (change checkpoint).checkpointId = checkpoint.checkpointId)
    (hstate : ∀ checkpoint, (change checkpoint).state = checkpoint.state)
    (hdata : ∀ checkpoint, (change checkpoint).stateData = checkpoint.stateData) :
    RecoversValid ((manager.onCheckpoint checkpointId change).1, finals) := by
  obtain ⟨hrecorded, hpoints, hlatest⟩ := recoversValid_iff_rows.mp hvalid
  obtain ⟨hsame, hlast⟩ := points_onCheckpoint manager checkpointId change
  refine recoversValid_iff_rows.mpr ⟨(length_onCheckpoint change).trans hrecorded, ?_⟩
  show PointsValid ((manager.onCheckpoint checkpointId change).1.checkpoints.zip finals)
      (manager.onCheckpoint checkpointId change).1.recoveryPoints ∧
    LatestValid ((manager.onCheckpoint checkpointId change).1.checkpoints.zip finals)
      (manager.onCheckpoint checkpointId change).1.lastSuccessfulCheckpoint
  rw [hsame, hlast]
  by_cases hzero : checkpointId = 0
  · rw [checkpoints_onCheckpoint, if_pos hzero]
    exact ⟨hpoints, hlatest⟩
  · rw [zip_onCheckpoint change hzero]
    refine ⟨fun point hpoint hid ↦ ?_, fun hid ↦ ?_⟩
    · refine (hpoints point hpoint hid).updateFirst (fun row ↦ hkeep row.1) fun row hrow ↦ ?_
      exact ⟨(hstate row.1).trans hrow.1, hrow.2.trans (congrArg some (hdata row.1).symm)⟩
    · refine (hlatest hid).updateFirst (fun row ↦ hkeep row.1) fun row hrow ↦ ?_
      exact (hstate row.1).trans hrow

/-! ### What one call does -/

section Calls

variable (hvalid : RecoversValid (manager, finals))
include hvalid

theorem recoversValid_create (type : CheckpointType) (processId : UInt32) (malloc : Bool) :
    RecoversValid (checkpointStep manager (.create type processId malloc),
      finalizedAfter manager (.create type processId malloc) finals) := by
  obtain ⟨hrecorded, hpoints, hlatest⟩ := recoversValid_iff_rows.mp hvalid
  rw [checkpointStep, checkpointCreate, finalizedAfter]
  split_ifs with hroom
  · exact hvalid
  · refine recoversValid_iff_rows.mpr ⟨?_, ?_, ?_⟩
    · rw [List.length_append, List.length_append]
      exact congrArg (· + 1) hrecorded
    · intro point hpoint hid
      rw [rows, List.zip_append hrecorded]
      exact (hpoints point hpoint hid).concat
    · intro hid
      rw [rows, List.zip_append hrecorded]
      exact (hlatest hid).concat
  · exact recoversValid_iff_rows.mpr ⟨hrecorded, hpoints, hlatest⟩

/-- What is saved to a checkpoint that a recovery point names is to be what it holds. -/
theorem recoversValid_saveState_iff (checkpointId : UInt32) (stateData : List UInt8) :
    RecoversValid (checkpointStep manager (.saveState checkpointId stateData), finals) ↔
      (CheckpointCall.saveState checkpointId stateData).KeepsNamed (manager, finals) := by
  obtain ⟨hrecorded, hpoints, hlatest⟩ := recoversValid_iff_rows.mp hvalid
  rw [checkpointStep, checkpointSaveState, CheckpointCall.KeepsNamed]
  by_cases hrefused : stateData = [] ∨ maxProcessStateSnapshot < stateData.length
  · rw [if_pos hrefused]
    refine iff_of_true hvalid fun _ hsome hfits ↦ ?_
    exact absurd hrefused (not_or.mpr ⟨hsome, Nat.not_lt.mpr hfits⟩)
  obtain ⟨hsome, hfits⟩ := not_or.mp hrefused
  rw [if_neg hrefused, forall_prop_of_true hsome, forall_prop_of_true (Nat.not_lt.mp hfits)]
  by_cases hzero : checkpointId = 0
  · rw [CheckpointManager.onCheckpoint, if_pos hzero]
    exact iff_of_true hvalid fun hid ↦ absurd hzero hid
  obtain ⟨hsame, hlast⟩ := points_onCheckpoint manager checkpointId (Checkpoint.save stateData)
  have hsaves : ∀ other, Finds CheckpointRow.id CheckpointRow.Restorable
      (updateFirst (fun row ↦ CheckpointRow.id row = checkpointId)
        (fun row ↦ (row.1.save stateData, row.2)) (rows (manager, finals))) other ↔
      if other = checkpointId then
        Finds CheckpointRow.id (fun row ↦ CheckpointRow.Restorable (row.1.save stateData, row.2))
          (rows (manager, finals)) other
      else Finds CheckpointRow.id CheckpointRow.Restorable (rows (manager, finals)) other :=
    fun other ↦ finds_updateFirst_iff fun _ ↦ rfl
  rw [forall_prop_of_true hzero, recoversValid_iff_rows, rows, hsame, hlast,
    zip_onCheckpoint _ hzero, length_onCheckpoint, and_iff_right hrecorded, and_iff_left]
  · constructor
    · rintro hafter ⟨point, hpoint, hid, hnamed⟩ checkpoint hfind
      have hsaved := hafter point hpoint hid
      rw [hsaves, if_pos hnamed, hnamed] at hsaved
      obtain ⟨row, hrow, -, hfinal⟩ := hsaved
      obtain ⟨other, hother, -, hheld⟩ := hpoints point hpoint hid
      rw [hnamed, hrow, Option.some.injEq] at hother
      have hcheckpoint : manager.checkpoints.find?
          (fun checkpoint ↦ checkpoint.checkpointId = checkpointId) = some row.1 :=
        find?_of_find?_zip hrow
      rw [hfind, Option.some.injEq] at hcheckpoint
      rw [hcheckpoint]
      exact Option.some.inj (hfinal.symm.trans (hother ▸ hheld))
    · intro hcondition point hpoint hid
      have hbefore := hpoints point hpoint hid
      rw [hsaves]
      split_ifs with hnamed
      · obtain ⟨row, hrow, hcompleted, hheld⟩ := hbefore
        refine ⟨row, hrow, hcompleted, hheld.trans (congrArg some ?_)⟩
        refine (hcondition ⟨point, hpoint, hid, hnamed⟩ row.1 ?_).symm
        rw [hnamed] at hrow
        exact find?_of_find?_zip hrow
      · exact hbefore
  · intro hid
    exact (hlatest hid).updateFirst (fun _ ↦ rfl) fun _ hrow ↦ hrow

theorem recoversValid_finalize (checkpointId : UInt32) :
    RecoversValid (checkpointStep manager (.finalize checkpointId),
      finalizedAfter manager (.finalize checkpointId) finals) := by
  obtain ⟨hrecorded, hpoints, hlatest⟩ := recoversValid_iff_rows.mp hvalid
  rw [checkpointStep, finalizedAfter]
  by_cases hzero : checkpointId = 0
  · rw [if_pos hzero, checkpointFinalize_of_zero hzero]
    exact hvalid
  rw [if_neg hzero]
  cases hfind : manager.checkpoints.find? fun checkpoint ↦
      checkpoint.checkpointId = checkpointId with
  | none =>
    rw [checkpointFinalize_of_none hfind, recordFirst_of_find?_eq_none hfind]
    exact hvalid
  | some checkpoint =>
    rw [checkpointFinalize_of_some hzero hfind]
    refine recoversValid_iff_rows.mpr ⟨(length_recordFirst hrecorded.symm).symm, ?_, ?_⟩
    · intro point hpoint hid
      rw [rows, zip_recordFirst]
      refine (hpoints point hpoint hid).updateFirst (fun _ ↦ rfl) fun row _ ↦ ?_
      exact ⟨rfl, rfl⟩
    · intro _
      obtain ⟨final, hrow⟩ := exists_find?_zip hrecorded hfind
      rw [rows, zip_recordFirst]
      exact finds_updateFirst_of_find? (fun _ ↦ rfl) hrow rfl

theorem recoversValid_createPoint_iff (checkpointId processId : UInt32) :
    RecoversValid (checkpointStep manager (.createPoint checkpointId processId), finals) ↔
      (CheckpointCall.createPoint checkpointId processId).KeepsNamed (manager, finals) := by
  obtain ⟨hrecorded, hpoints, hlatest⟩ := recoversValid_iff_rows.mp hvalid
  rw [checkpointStep, recoveryCreatePoint, CheckpointCall.KeepsNamed]
  by_cases hrefused : checkpointId = 0 ∨ maxRecoveryPoints ≤ manager.recoveryPoints.length
  · rw [if_pos hrefused]
    refine iff_of_true hvalid fun hid hroom ↦ ?_
    exact absurd hrefused (not_or.mpr ⟨hid, Nat.not_le.mpr hroom⟩)
  · obtain ⟨hid, hroom⟩ := not_or.mp hrefused
    rw [if_neg hrefused, forall_prop_of_true hid, forall_prop_of_true (Nat.not_le.mp hroom),
      recoversValid_iff_rows, and_iff_right, and_iff_left]
    · rw [PointsValid, List.forall_mem_append, List.forall_mem_singleton]
      exact and_iff_right hpoints
    · exact hlatest
    · exact hrecorded

theorem recoversValid_restore (recoveryPointId : UInt32) :
    RecoversValid (checkpointStep manager (.restore recoveryPointId), finals) := by
  obtain ⟨hrecorded, hpoints, hlatest⟩ := recoversValid_iff_rows.mp hvalid
  rw [checkpointStep, recoveryRestore]
  split_ifs
  · exact hvalid
  · refine recoversValid_iff_rows.mpr ⟨hrecorded, ?_, hlatest⟩
    refine (forall_mem_updateFirst_iff hpoints).mpr fun point hpoint ↦ ?_
    exact hpoints point (List.mem_of_find?_eq_some hpoint)
  · exact recoversValid_iff_rows.mpr ⟨hrecorded, hpoints, hlatest⟩

theorem recoversValid_rollbackToCheckpoint (checkpointId : UInt32) :
    RecoversValid (checkpointStep manager (.rollbackToCheckpoint checkpointId), finals) := by
  have hrows := recoversValid_iff_rows.mp hvalid
  rw [checkpointStep, recoveryRollbackToCheckpoint]
  split_ifs
  · exact hvalid
  · exact recoversValid_iff_rows.mpr hrows
  · exact recoversValid_iff_rows.mpr hrows

theorem recoversValid_pruneOldCheckpoints_iff (keepCount : UInt32) :
    RecoversValid (checkpointStep manager (.pruneOldCheckpoints keepCount),
        finalizedAfter manager (.pruneOldCheckpoints keepCount) finals) ↔
      (CheckpointCall.pruneOldCheckpoints keepCount).KeepsNamed (manager, finals) := by
  obtain ⟨hrecorded, hpoints, hlatest⟩ := recoversValid_iff_rows.mp hvalid
  rw [checkpointStep, recoveryPruneOldCheckpoints, finalizedAfter]
  by_cases hzero : keepCount = 0
  · rw [CheckpointCall.KeepsNamed, CheckpointManager.toRemove, if_pos hzero, if_pos hzero]
    exact iff_of_true hvalid (List.forall_mem_nil _)
  -- what is named is still found after the others are removed
  have hkept : PointsValid ((rows (manager, finals)).drop (manager.toRemove keepCount))
        manager.recoveryPoints ∧
      LatestValid ((rows (manager, finals)).drop (manager.toRemove keepCount))
        manager.lastSuccessfulCheckpoint ↔
      (CheckpointCall.pruneOldCheckpoints keepCount).KeepsNamed (manager, finals) := by
    constructor
    · rintro ⟨hpointsKept, hlatestKept⟩ removed -
      exact ⟨fun point hpoint husable _ ↦ hpointsKept point hpoint husable,
        fun hlast _ ↦ hlatestKept hlast⟩
    · intro hremoved
      refine ⟨fun point hpoint husable ↦ ?_, fun hlast ↦ ?_⟩
      · exact (finds_drop_iff (hpoints point hpoint husable) _).mpr
          fun removed hmem hid ↦ (hremoved removed hmem).1 point hpoint husable hid
      · exact (finds_drop_iff (hlatest hlast) _).mpr
          fun removed hmem hid ↦ (hremoved removed hmem).2 hlast hid
  have hlengths : (manager.checkpoints.drop (manager.toRemove keepCount)).length =
      (finals.drop (manager.toRemove keepCount)).length := by
    rw [List.length_drop, List.length_drop]
    exact congrArg (· - _) hrecorded
  have hrows : rows ({ manager with
        checkpoints := manager.checkpoints.drop (manager.toRemove keepCount) },
      finals.drop (manager.toRemove keepCount)) =
        (rows (manager, finals)).drop (manager.toRemove keepCount) := by
    rw [rows, rows, List.zip_eq_zipWith, List.zip_eq_zipWith, List.drop_zipWith]
  rw [if_neg hzero, recoversValid_iff_rows, and_iff_right hlengths, hrows]
  exact hkept

end Calls

/-- From a state from which recoveries are valid, a call leads to one exactly when it meets the
condition. -/
theorem recoversValid_step_iff (hvalid : RecoversValid (manager, finals)) (call : CheckpointCall) :
    RecoversValid (checkpointStep manager call, finalizedAfter manager call finals) ↔
      call.KeepsNamed (manager, finals) := by
  cases call with
  | create type processId malloc =>
    exact iff_of_true (recoversValid_create hvalid type processId malloc) trivial
  | saveState checkpointId stateData =>
    exact recoversValid_saveState_iff hvalid checkpointId stateData
  | finalize checkpointId => exact iff_of_true (recoversValid_finalize hvalid checkpointId) trivial
  | compress checkpointId =>
    exact iff_of_true (recoversValid_onCheckpoint hvalid _ (fun _ ↦ rfl) (fun _ ↦ rfl) fun _ ↦ rfl)
      trivial
  | decompress checkpointId =>
    exact iff_of_true (recoversValid_onCheckpoint hvalid _ (fun _ ↦ rfl) (fun _ ↦ rfl) fun _ ↦ rfl)
      trivial
  | createPoint checkpointId processId =>
    exact recoversValid_createPoint_iff hvalid checkpointId processId
  | restore recoveryPointId =>
    exact iff_of_true (recoversValid_restore hvalid recoveryPointId) trivial
  | rollbackToCheckpoint checkpointId =>
    exact iff_of_true (recoversValid_rollbackToCheckpoint hvalid checkpointId) trivial
  | pruneOldCheckpoints keepCount => exact recoversValid_pruneOldCheckpoints_iff hvalid keepCount

/-! ### Every run -/

/-- In every run, recoveries are valid in every state exactly when every call meets the condition:
recovery points are made for checkpoints that are restorable, what is saved to a checkpoint that a
recovery point names is what it holds, and pruning keeps what is named. -/
theorem recoversValid_iff (nextCheckpointId nextRecoveryPointId : UInt32)
    (calls : List CheckpointCall) :
    AlongRun (withTrace checkpointStep finalizedAfter) RecoversValid
        (checkpointManagerInit nextCheckpointId nextRecoveryPointId, []) calls ↔
      EveryStep (withTrace checkpointStep finalizedAfter) (fun traced call ↦ call.KeepsNamed traced)
        (checkpointManagerInit nextCheckpointId nextRecoveryPointId, []) calls := by
  refine alongRun_iff_everyStep (fun _ ↦ True) (fun _ _ ↦ True) (fun _ _ _ _ ↦ trivial) ?_ trivial
    ?_ fun _ _ _ ↦ trivial
  · rintro ⟨manager, finals⟩ call - - hvalid
    exact recoversValid_step_iff hvalid call
  · refine recoversValid_iff_rows.mpr ⟨rfl, ?_, fun hzero ↦ absurd rfl hzero⟩
    exact List.forall_mem_nil _

/-- A checkpoint is saved, finalized and made the target of a recovery point. Then other data is
saved to it: the recovery succeeds, and the finalized state is lost. -/
theorem not_recoversValid_save_after_finalize :
    ¬ AlongRun (withTrace checkpointStep finalizedAfter) RecoversValid
      (checkpointManagerInit 1 1, [])
      [.create .full 7 true, .saveState 1 [1], .finalize 1, .createPoint 1 7,
        .saveState 1 [2]] := by
  intro halong
  have hrestores := (halong _ (List.prefix_refl _)).restores ⟨1, 1, 7, 0⟩ (by decide) (by decide)
  obtain ⟨row, hfind, -, hheld⟩ := hrestores
  have hrow : row = (⟨1, .full, .completed, 7, [2], 0, 0, false⟩, some [1]) :=
    Option.some.inj (hfind.symm.trans (by decide))
  rw [hrow] at hheld
  exact absurd hheld (by decide)

end OneOS.FaultTolerance.CheckpointRecovery
