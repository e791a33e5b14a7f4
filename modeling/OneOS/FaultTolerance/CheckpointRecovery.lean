import OneOS.Foundation.Table

/-!
# Checkpoints and recovery points

`fault-tolerance/checkpoint_recovery.c`: checkpoints of the state of a process, which are saved and
finalized, and recovery points, which refer to a checkpoint by its id. Old checkpoints are pruned
from the front of the table.

Of the buffer of a checkpoint only the first `state_size` bytes are ever written, so it is modelled
by the list of these. Left out are the checks of pointers, times that are all 0, the hashes of a
recovery point and the counts that are only written, the listing, the check of a checkpoint and the
metrics, which change nothing.
-/

set_option autoImplicit false
set_option relaxedAutoImplicit false

namespace OneOS.FaultTolerance.CheckpointRecovery

open Foundation

/-! ### Checkpoints -/

/-- `MAX_CHECKPOINTS`. -/
def maxCheckpoints : ℕ := 256

/-- `MAX_RECOVERY_POINTS`. -/
def maxRecoveryPoints : ℕ := 512

/-- `MAX_PROCESS_STATE_SNAPSHOT`, the `state_capacity` of every checkpoint. -/
def maxProcessStateSnapshot : ℕ := 1048576

/-- `CheckpointType`. -/
inductive CheckpointType
  | full
  | incremental
  | differential
  deriving DecidableEq, Repr

/-- `CheckpointState`. -/
inductive CheckpointState
  | idle
  | inProgress
  | completed
  | failed
  deriving DecidableEq, Repr

/-- `Checkpoint`. -/
structure Checkpoint where
  checkpointId : UInt32
  type : CheckpointType
  state : CheckpointState
  processId : UInt32
  stateData : List UInt8
  pageCount : UInt32
  compressionRatio : UInt64
  isCompressed : Bool
  deriving DecidableEq, Repr

/-- `RecoveryPoint`. -/
structure RecoveryPoint where
  recoveryPointId : UInt32
  checkpointId : UInt32
  processId : UInt32
  recoverySuccessCount : UInt32
  deriving DecidableEq, Repr

/-- `CheckpointManager`, with the counters that number checkpoints and recovery points. -/
structure CheckpointManager where
  checkpoints : List Checkpoint
  recoveryPoints : List RecoveryPoint
  lastSuccessfulCheckpoint : UInt32
  totalCheckpointTimeUs : UInt64
  totalCheckpoints : UInt32
  successfulRecoveries : UInt32
  failedRecoveries : UInt32
  nextCheckpointId : UInt32
  nextRecoveryPointId : UInt32
  deriving DecidableEq, Repr

/-- `checkpoint_manager_init`. The counters are shared by all managers of a process and keep their
values. -/
def checkpointManagerInit (nextCheckpointId nextRecoveryPointId : UInt32) : CheckpointManager where
  checkpoints := []
  recoveryPoints := []
  lastSuccessfulCheckpoint := 0
  totalCheckpointTimeUs := 0
  totalCheckpoints := 0
  successfulRecoveries := 0
  failedRecoveries := 0
  nextCheckpointId := nextCheckpointId
  nextRecoveryPointId := nextRecoveryPointId

/-- `checkpoint_create`, returning the id or 0. When `malloc` fails the id is used up. -/
def checkpointCreate (manager : CheckpointManager) (type : CheckpointType) (processId : UInt32)
    (malloc : Bool) : CheckpointManager × UInt32 :=
  if maxCheckpoints ≤ manager.checkpoints.length then (manager, 0)
  else if malloc then
    ({ manager with
      checkpoints := manager.checkpoints ++
        [{ checkpointId := manager.nextCheckpointId
           type := type
           state := .inProgress
           processId := processId
           stateData := []
           pageCount := 0
           compressionRatio := 0
           isCompressed := false }]
      totalCheckpoints := manager.totalCheckpoints + 1
      nextCheckpointId := manager.nextCheckpointId + 1 }, manager.nextCheckpointId)
  else ({ manager with nextCheckpointId := manager.nextCheckpointId + 1 }, 0)

/-- A change of the first checkpoint with an id. Without such a checkpoint the answer is -1. -/
def CheckpointManager.onCheckpoint (manager : CheckpointManager) (checkpointId : UInt32)
    (change : Checkpoint → Checkpoint) : CheckpointManager × Int :=
  if checkpointId = 0 then (manager, -1)
  else if manager.checkpoints.any fun checkpoint ↦ checkpoint.checkpointId = checkpointId then
    ({ manager with
      checkpoints := updateFirst (fun checkpoint ↦ checkpoint.checkpointId = checkpointId) change
        manager.checkpoints }, 0)
  else (manager, -1)

/-- What `checkpoint_save_state` does to its checkpoint. -/
def Checkpoint.save (stateData : List UInt8) (checkpoint : Checkpoint) : Checkpoint :=
  { checkpoint with
    stateData := stateData
    pageCount := UInt32.ofNat (stateData.length / 4096) }

/-- `checkpoint_save_state`. -/
def checkpointSaveState (manager : CheckpointManager) (checkpointId : UInt32)
    (stateData : List UInt8) : CheckpointManager × Int :=
  if stateData = [] ∨ maxProcessStateSnapshot < stateData.length then (manager, -1)
  else manager.onCheckpoint checkpointId (Checkpoint.save stateData)

/-- What `checkpoint_finalize` does to its checkpoint. -/
def Checkpoint.complete (checkpoint : Checkpoint) : Checkpoint :=
  { checkpoint with state := .completed }

/-- `checkpoint_finalize`. -/
def checkpointFinalize (manager : CheckpointManager) (checkpointId : UInt32) :
    CheckpointManager × Int :=
  let called := manager.onCheckpoint checkpointId Checkpoint.complete
  if called.2 = 0 then
    ({ called.1 with
      lastSuccessfulCheckpoint := checkpointId
      totalCheckpointTimeUs := manager.totalCheckpointTimeUs + 1000000 }, 0)
  else called

/-- `checkpoint_compress`. -/
def checkpointCompress (manager : CheckpointManager) (checkpointId : UInt32) :
    CheckpointManager × Int :=
  manager.onCheckpoint checkpointId fun checkpoint ↦
    { checkpoint with isCompressed := true, compressionRatio := 65 }

/-- `checkpoint_decompress`. -/
def checkpointDecompress (manager : CheckpointManager) (checkpointId : UInt32) :
    CheckpointManager × Int :=
  manager.onCheckpoint checkpointId fun checkpoint ↦ { checkpoint with isCompressed := false }

/-! ### Recovery -/

/-- `recovery_create_point`, returning the id or 0. -/
def recoveryCreatePoint (manager : CheckpointManager) (checkpointId processId : UInt32) :
    CheckpointManager × UInt32 :=
  if checkpointId = 0 ∨ maxRecoveryPoints ≤ manager.recoveryPoints.length then (manager, 0)
  else
    ({ manager with
      recoveryPoints := manager.recoveryPoints ++
        [{ recoveryPointId := manager.nextRecoveryPointId
           checkpointId := checkpointId
           processId := processId
           recoverySuccessCount := 0 }]
      nextRecoveryPointId := manager.nextRecoveryPointId + 1 }, manager.nextRecoveryPointId)

/-- `recovery_restore`. -/
def recoveryRestore (manager : CheckpointManager) (recoveryPointId : UInt32) :
    CheckpointManager × Int :=
  if recoveryPointId = 0 then (manager, -1)
  else if manager.recoveryPoints.any fun point ↦ point.recoveryPointId = recoveryPointId then
    ({ manager with
      recoveryPoints := updateFirst (fun point ↦ point.recoveryPointId = recoveryPointId)
        (fun point ↦ { point with recoverySuccessCount := point.recoverySuccessCount + 1 })
        manager.recoveryPoints
      successfulRecoveries := manager.successfulRecoveries + 1 }, 0)
  else ({ manager with failedRecoveries := manager.failedRecoveries + 1 }, -1)

/-- `recovery_rollback_to_checkpoint`. -/
def recoveryRollbackToCheckpoint (manager : CheckpointManager) (checkpointId : UInt32) :
    CheckpointManager × Int :=
  if checkpointId = 0 then (manager, -1)
  else if manager.checkpoints.any fun checkpoint ↦
      checkpoint.checkpointId = checkpointId && checkpoint.state = .completed then
    ({ manager with successfulRecoveries := manager.successfulRecoveries + 1 }, 0)
  else ({ manager with failedRecoveries := manager.failedRecoveries + 1 }, -1)

/-- The number of checkpoints that are removed when `keepCount` are kept. -/
def CheckpointManager.toRemove (manager : CheckpointManager) (keepCount : UInt32) : ℕ :=
  if keepCount = 0 then 0 else manager.checkpoints.length - keepCount.toNat

/-- `recovery_prune_old_checkpoints`. -/
def recoveryPruneOldCheckpoints (manager : CheckpointManager) (keepCount : UInt32) :
    CheckpointManager × Int :=
  if keepCount = 0 then (manager, -1)
  else
    ({ manager with checkpoints := manager.checkpoints.drop (manager.toRemove keepCount) },
      manager.toRemove keepCount)

/-! ### Calls -/

/-- A call to the manager. -/
inductive CheckpointCall
  | create (type : CheckpointType) (processId : UInt32) (malloc : Bool)
  | saveState (checkpointId : UInt32) (stateData : List UInt8)
  | finalize (checkpointId : UInt32)
  | compress (checkpointId : UInt32)
  | decompress (checkpointId : UInt32)
  | createPoint (checkpointId processId : UInt32)
  | restore (recoveryPointId : UInt32)
  | rollbackToCheckpoint (checkpointId : UInt32)
  | pruneOldCheckpoints (keepCount : UInt32)
  deriving DecidableEq, Repr

/-- What a call does to the manager. -/
def checkpointStep (manager : CheckpointManager) : CheckpointCall → CheckpointManager
  | .create type processId malloc => (checkpointCreate manager type processId malloc).1
  | .saveState checkpointId stateData => (checkpointSaveState manager checkpointId stateData).1
  | .finalize checkpointId => (checkpointFinalize manager checkpointId).1
  | .compress checkpointId => (checkpointCompress manager checkpointId).1
  | .decompress checkpointId => (checkpointDecompress manager checkpointId).1
  | .createPoint checkpointId processId => (recoveryCreatePoint manager checkpointId processId).1
  | .restore recoveryPointId => (recoveryRestore manager recoveryPointId).1
  | .rollbackToCheckpoint checkpointId => (recoveryRollbackToCheckpoint manager checkpointId).1
  | .pruneOldCheckpoints keepCount => (recoveryPruneOldCheckpoints manager keepCount).1

end OneOS.FaultTolerance.CheckpointRecovery
