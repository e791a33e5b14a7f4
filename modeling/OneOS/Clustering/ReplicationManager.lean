import OneOS.Foundation.Table

/-!
# The replication manager

`clustering-replication/replication_manager.c`: sessions with replicas and a log of what is to be
replicated. A session is found by its id, and the first one that has it is taken. What is done to a
replica is done in the first session with the id that has the replica: the search goes on behind a
session that has it not.

Entries are added at the tail of the log and never taken out, so the log is a list that grows. Left
out are the checks of pointers, times, which are all 0, rates, and what is counted but never read.
-/

set_option autoImplicit false
set_option relaxedAutoImplicit false

namespace OneOS.Clustering.Replication

open Foundation

/-! ### Sessions -/

/-- `MAX_REPLICAS`. -/
def maxReplicas : ℕ := 32

/-- `MAX_REPLICATION_LOG`. -/
def maxReplicationLog : ℕ := 8192

/-- `MAX_REPLICATION_SESSIONS`. -/
def maxReplicationSessions : ℕ := 256

/-- The size of the data of a log entry. -/
def maxEntryData : ℕ := 256

/-- `ReplicationStrategy`. -/
inductive ReplicationStrategy
  | synchronous
  | asynchronous
  | semiSynchronous
  deriving DecidableEq, Repr

/-- `ConsistencyModel`. -/
inductive ConsistencyModel
  | strong
  | eventual
  | causal
  deriving DecidableEq, Repr

/-- `ReplicaState`. -/
inductive ReplicaState
  | synced
  | syncing
  | outOfSync
  | failed
  deriving DecidableEq, Repr

/-- `ReplicaInfo`. -/
structure ReplicaInfo where
  replicaId : UInt32
  nodeId : UInt32
  state : ReplicaState
  syncLagMs : UInt32
  successfulSyncs : UInt32
  deriving DecidableEq, Repr

/-- `ReplicationLogEntry`. The length of the data is its `data_size`. -/
structure ReplicationLogEntry where
  logEntryId : UInt32
  data : List UInt8
  sourceNodeId : UInt32
  replicationCount : UInt32
  deriving DecidableEq, Repr

/-- `ReplicationSession`. -/
structure ReplicationSession where
  sessionId : UInt32
  sourceNodeId : UInt32
  replicas : List ReplicaInfo
  log : List ReplicationLogEntry
  strategy : ReplicationStrategy
  consistency : ConsistencyModel
  totalBytesReplicated : UInt64
  totalReplicationEvents : UInt32
  deriving DecidableEq, Repr

/-- `ReplicationManager`, with the counters that number sessions and log entries. -/
structure ReplicationManager where
  sessions : List ReplicationSession
  totalReplicatedData : UInt64
  totalReplicationOperations : UInt32
  nextSessionId : UInt32
  nextLogEntryId : UInt32
  deriving DecidableEq, Repr

/-- `replication_manager_init`. The counters are shared by all managers of a process and keep their
values. -/
def replicationManagerInit (nextSessionId nextLogEntryId : UInt32) : ReplicationManager where
  sessions := []
  totalReplicatedData := 0
  totalReplicationOperations := 0
  nextSessionId := nextSessionId
  nextLogEntryId := nextLogEntryId

/-- `replication_create_session`, returning the id or 0. -/
def replicationCreateSession (manager : ReplicationManager) (sourceNodeId : UInt32)
    (strategy : ReplicationStrategy) (consistency : ConsistencyModel) :
    ReplicationManager × UInt32 :=
  if maxReplicationSessions ≤ manager.sessions.length then (manager, 0)
  else
    ({ manager with
      sessions := manager.sessions ++
        [{ sessionId := manager.nextSessionId
           sourceNodeId := sourceNodeId
           replicas := []
           log := []
           strategy := strategy
           consistency := consistency
           totalBytesReplicated := 0
           totalReplicationEvents := 0 }]
      nextSessionId := manager.nextSessionId + 1 }, manager.nextSessionId)

/-- `replication_destroy_session`. -/
def replicationDestroySession (manager : ReplicationManager) (sessionId : UInt32) :
    ReplicationManager × Int :=
  if sessionId = 0 then (manager, -1)
  else if manager.sessions.any fun session ↦ session.sessionId = sessionId then
    ({ manager with
      sessions := manager.sessions.eraseP fun session ↦ session.sessionId = sessionId }, 0)
  else (manager, -1)

/-! ### Calls on a session -/

/-- A call on the first session with an id. Without such a session the answer is -1. -/
def ReplicationManager.onSession (manager : ReplicationManager) (sessionId : UInt32)
    (act : ReplicationSession → ReplicationSession × Int) : ReplicationManager × Int :=
  if sessionId = 0 then (manager, -1)
  else
    match manager.sessions.find? fun session ↦ session.sessionId = sessionId with
    | none => (manager, -1)
    | some session =>
      ({ manager with
        sessions := updateFirst (fun session ↦ session.sessionId = sessionId)
          (fun session ↦ (act session).1) manager.sessions }, (act session).2)

/-- What `replication_add_replica` does to its session. -/
def ReplicationSession.addReplica (session : ReplicationSession) (replicaId nodeId : UInt32) :
    ReplicationSession × Int :=
  if maxReplicas ≤ session.replicas.length then (session, -1)
  else
    ({ session with
      replicas := session.replicas ++
        [{ replicaId := replicaId
           nodeId := nodeId
           state := .outOfSync
           syncLagMs := 0
           successfulSyncs := 0 }] }, 0)

/-- `replication_add_replica`. -/
def replicationAddReplica (manager : ReplicationManager) (sessionId replicaId nodeId : UInt32) :
    ReplicationManager × Int :=
  manager.onSession sessionId fun session ↦ session.addReplica replicaId nodeId

/-- What `replication_log_entry_add` does to its session. -/
def ReplicationSession.logEntryAdd (session : ReplicationSession) (logEntryId : UInt32)
    (data : List UInt8) (sourceNodeId : UInt32) : ReplicationSession × Int :=
  if maxReplicationLog ≤ session.log.length then (session, -1)
  else
    let stored := data.take maxEntryData
    ({ session with
      log := session.log ++
        [{ logEntryId := logEntryId
           data := stored
           sourceNodeId := sourceNodeId
           replicationCount := 0 }]
      totalBytesReplicated := session.totalBytesReplicated + UInt64.ofNat stored.length
      totalReplicationEvents := session.totalReplicationEvents + 1 }, logEntryId.toInt32.toInt)

/-- The first session with the id has room in its log. -/
def ReplicationManager.takesEntry (manager : ReplicationManager) (sessionId : UInt32) : Bool :=
  (manager.sessions.find? fun session ↦ session.sessionId = sessionId).any fun session ↦
    session.log.length < maxReplicationLog

/-- `replication_log_entry_add`. The data is not empty if the call is not refused. -/
def replicationLogEntryAdd (manager : ReplicationManager) (sessionId : UInt32) (data : List UInt8)
    (sourceNodeId : UInt32) : ReplicationManager × Int :=
  if data = [] then (manager, -1)
  else
    let called := manager.onSession sessionId fun session ↦
      session.logEntryAdd manager.nextLogEntryId data sourceNodeId
    if sessionId ≠ 0 ∧ manager.takesEntry sessionId = true then
      ({ called.1 with
        totalReplicatedData := manager.totalReplicatedData +
          UInt64.ofNat (data.take maxEntryData).length
        totalReplicationOperations := manager.totalReplicationOperations + 1
        nextLogEntryId := manager.nextLogEntryId + 1 }, called.2)
    else called

/-- The log of the session has the entry. -/
def ReplicationSession.hasEntry (logId : UInt32) (session : ReplicationSession) : Bool :=
  session.log.any fun entry ↦ entry.logEntryId = logId

/-- `replication_apply_log_entry`: in the first session with the id whose log has the entry. -/
def replicationApplyLogEntry (manager : ReplicationManager) (sessionId logId : UInt32) :
    ReplicationManager × Int :=
  if sessionId = 0 ∨ logId = 0 then (manager, -1)
  else if manager.sessions.any fun session ↦
      session.sessionId = sessionId && session.hasEntry logId then
    ({ manager with
      sessions := updateFirst
        (fun session ↦ session.sessionId = sessionId && session.hasEntry logId)
        (fun session ↦
          { session with
            log := updateFirst (fun entry ↦ entry.logEntryId = logId)
              (fun entry ↦ { entry with replicationCount := entry.replicationCount + 1 })
              session.log })
        manager.sessions }, 0)
  else (manager, -1)

/-- `replication_start_sync`. -/
def replicationStartSync (manager : ReplicationManager) (sessionId : UInt32) : Int :=
  if sessionId ≠ 0 ∧ manager.sessions.any (fun session ↦ session.sessionId = sessionId) = true
    then 0 else -1

/-- `replication_complete_sync`. -/
def replicationCompleteSync (manager : ReplicationManager) (sessionId : UInt32) :
    ReplicationManager × Int :=
  manager.onSession sessionId fun session ↦
    ({ session with
      replicas := session.replicas.map fun replica ↦ { replica with state := .synced } }, 0)

/-- `replication_check_consistency`. -/
def replicationCheckConsistency (manager : ReplicationManager) (sessionId : UInt32) : Int :=
  if sessionId = 0 then -1
  else
    match manager.sessions.find? fun session ↦ session.sessionId = sessionId with
    | none => -1
    | some session =>
      if (session.replicas.countP fun replica ↦ replica.state = .synced) = session.replicas.length
        then 1 else 0

/-- `replication_resolve_conflict`. -/
def replicationResolveConflict (sessionId : UInt32) : Int :=
  if sessionId = 0 then -1 else 0

/-! ### Calls on a replica -/

/-- The session has the replica. -/
def ReplicationSession.has (replicaId : UInt32) (session : ReplicationSession) : Bool :=
  session.replicas.any fun replica ↦ replica.replicaId = replicaId

/-- A call on the replicas of the first session with an id that has a replica. -/
def ReplicationManager.onReplicas (manager : ReplicationManager) (sessionId replicaId : UInt32)
    (change : List ReplicaInfo → List ReplicaInfo) : ReplicationManager × Int :=
  if sessionId = 0 ∨ replicaId = 0 then (manager, -1)
  else if manager.sessions.any fun session ↦
      session.sessionId = sessionId && session.has replicaId then
    ({ manager with
      sessions := updateFirst
        (fun session ↦ session.sessionId = sessionId && session.has replicaId)
        (fun session ↦ { session with replicas := change session.replicas })
        manager.sessions }, 0)
  else (manager, -1)

/-- A call on the first replica with an id, in the first session with an id that has one. -/
def ReplicationManager.onReplica (manager : ReplicationManager) (sessionId replicaId : UInt32)
    (change : ReplicaInfo → ReplicaInfo) : ReplicationManager × Int :=
  manager.onReplicas sessionId replicaId
    (updateFirst (fun replica ↦ replica.replicaId = replicaId) change)

/-- `replication_remove_replica`. -/
def replicationRemoveReplica (manager : ReplicationManager) (sessionId replicaId : UInt32) :
    ReplicationManager × Int :=
  manager.onReplicas sessionId replicaId
    (List.eraseP fun replica ↦ replica.replicaId = replicaId)

/-- `replication_sync_replica`. -/
def replicationSyncReplica (manager : ReplicationManager) (sessionId replicaId : UInt32) :
    ReplicationManager × Int :=
  manager.onReplica sessionId replicaId fun replica ↦
    { replica with
      state := .synced
      syncLagMs := 0
      successfulSyncs := replica.successfulSyncs + 1 }

/-- `replication_detect_out_of_sync`. -/
def replicationDetectOutOfSync (manager : ReplicationManager) (sessionId replicaId : UInt32) :
    ReplicationManager × Int :=
  manager.onReplica sessionId replicaId fun replica ↦
    { replica with state := .outOfSync, syncLagMs := 1000 }

/-- `replication_update_replica_state`. -/
def replicationUpdateReplicaState (manager : ReplicationManager) (sessionId replicaId : UInt32)
    (state : ReplicaState) : ReplicationManager × Int :=
  manager.onReplica sessionId replicaId fun replica ↦ { replica with state := state }

/-! ### Calls -/

/-- A call to the manager. -/
inductive ReplicationCall
  | createSession (sourceNodeId : UInt32) (strategy : ReplicationStrategy)
    (consistency : ConsistencyModel)
  | destroySession (sessionId : UInt32)
  | addReplica (sessionId replicaId nodeId : UInt32)
  | removeReplica (sessionId replicaId : UInt32)
  | syncReplica (sessionId replicaId : UInt32)
  | detectOutOfSync (sessionId replicaId : UInt32)
  | logEntryAdd (sessionId : UInt32) (data : List UInt8) (sourceNodeId : UInt32)
  | applyLogEntry (sessionId logId : UInt32)
  | startSync (sessionId : UInt32)
  | completeSync (sessionId : UInt32)
  | checkConsistency (sessionId : UInt32)
  | resolveConflict (sessionId : UInt32)
  | updateReplicaState (sessionId replicaId : UInt32) (state : ReplicaState)
  deriving DecidableEq, Repr

/-- What a call does to the manager. -/
def replicationStep (manager : ReplicationManager) : ReplicationCall → ReplicationManager
  | .createSession sourceNodeId strategy consistency =>
    (replicationCreateSession manager sourceNodeId strategy consistency).1
  | .destroySession sessionId => (replicationDestroySession manager sessionId).1
  | .addReplica sessionId replicaId nodeId =>
    (replicationAddReplica manager sessionId replicaId nodeId).1
  | .removeReplica sessionId replicaId => (replicationRemoveReplica manager sessionId replicaId).1
  | .syncReplica sessionId replicaId => (replicationSyncReplica manager sessionId replicaId).1
  | .detectOutOfSync sessionId replicaId =>
    (replicationDetectOutOfSync manager sessionId replicaId).1
  | .logEntryAdd sessionId data sourceNodeId =>
    (replicationLogEntryAdd manager sessionId data sourceNodeId).1
  | .applyLogEntry sessionId logId => (replicationApplyLogEntry manager sessionId logId).1
  | .completeSync sessionId => (replicationCompleteSync manager sessionId).1
  | .updateReplicaState sessionId replicaId state =>
    (replicationUpdateReplicaState manager sessionId replicaId state).1
  | .startSync _ | .checkConsistency _ | .resolveConflict _ => manager

end OneOS.Clustering.Replication
