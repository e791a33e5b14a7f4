import OneOS.Clustering.ReplicationManager
import OneOS.Foundation.RowRecords
import OneOS.Foundation.Runs

/-!
# Consistency of replicas

`replication_check_consistency` is to report a session as consistent only when every replica was
synced after the last entry was added to the log of the session. Which replicas were is recorded
beside the sessions, one flag for each replica (`syncedAfter`).

`replication_log_entry_add` leaves the replicas `SYNCED`, and `replication_update_replica_state`
sets any replica `SYNCED`. `reportsSound_iff` says exactly which runs report soundly: those in which
no entry is added to a session that is reported as consistent and has replicas, and no replica is
synced, set `SYNCED` or removed so that the session is reported as consistent while another one was
not synced since the last entry.
-/

set_option autoImplicit false
set_option relaxedAutoImplicit false

namespace OneOS.Clustering.Replication

open Foundation

/-! ### Which replicas are synced -/

/-- For every session, which of its replicas were synced since the last entry was added to its log,
after a call. -/
def syncedAfter (manager : ReplicationManager) (call : ReplicationCall)
    (records : List (List Bool)) : List (List Bool) :=
  match call with
  | .createSession _ _ _ =>
    if maxReplicationSessions ≤ manager.sessions.length then records else records ++ [[]]
  | .destroySession sessionId =>
    if sessionId = 0 then records
    else eraseBeside (fun session ↦ session.sessionId = sessionId) manager.sessions records
  | .addReplica sessionId _ _ =>
    if sessionId = 0 then records
    else
      recordFirst (fun session ↦ session.sessionId = sessionId)
        (fun session synced ↦
          if maxReplicas ≤ session.replicas.length then synced else synced ++ [false])
        manager.sessions records
  | .removeReplica sessionId replicaId =>
    if sessionId = 0 ∨ replicaId = 0 then records
    else
      recordFirst (fun session ↦ session.sessionId = sessionId && session.has replicaId)
        (fun session synced ↦
          eraseBeside (fun replica ↦ replica.replicaId = replicaId) session.replicas synced)
        manager.sessions records
  | .syncReplica sessionId replicaId =>
    if sessionId = 0 ∨ replicaId = 0 then records
    else
      recordFirst (fun session ↦ session.sessionId = sessionId && session.has replicaId)
        (fun session synced ↦
          recordFirst (fun replica ↦ replica.replicaId = replicaId) (fun _ _ ↦ true)
            session.replicas synced)
        manager.sessions records
  | .logEntryAdd sessionId data _ =>
    if sessionId = 0 ∨ data = [] then records
    else
      recordFirst (fun session ↦ session.sessionId = sessionId)
        (fun session synced ↦
          if maxReplicationLog ≤ session.log.length then synced else synced.map fun _ ↦ false)
        manager.sessions records
  | .completeSync sessionId =>
    if sessionId = 0 then records
    else
      recordFirst (fun session ↦ session.sessionId = sessionId)
        (fun _ synced ↦ synced.map fun _ ↦ true) manager.sessions records
  | _ => records

/-- The sessions, each with its record. -/
def rows (traced : ReplicationManager × List (List Bool)) :
    List (ReplicationSession × List Bool) :=
  traced.1.sessions.zip traced.2

/-- The first session with an id, with its record. -/
def found (traced : ReplicationManager × List (List Bool)) (sessionId : UInt32) :
    Option (ReplicationSession × List Bool) :=
  (rows traced).find? fun row ↦ row.1.sessionId = sessionId

/-- There is a flag for every replica of every session. -/
def Recorded (traced : ReplicationManager × List (List Bool)) : Prop :=
  List.Forall₂ (fun session synced ↦ synced.length = session.replicas.length)
    traced.1.sessions traced.2

/-- There is a flag for every replica, and a session is reported as consistent only when all of its
replicas were synced since the last entry. -/
structure ReportsSound (traced : ReplicationManager × List (List Bool)) : Prop where
  recorded : Recorded traced
  sound : ∀ sessionId session synced, found traced sessionId = some (session, synced) →
    replicationCheckConsistency traced.1 sessionId = 1 → ∀ flag ∈ synced, flag = true

/-- All replicas are `SYNCED`. -/
def AllSynced (replicas : List ReplicaInfo) : Prop :=
  ∀ replica ∈ replicas, replica.state = .synced

/-- What a session that can be found is asked for: if all of its replicas are `SYNCED`, all were
synced since the last entry. -/
def SoundRow (row : ReplicationSession × List Bool) : Prop :=
  row.1.sessionId ≠ 0 → AllSynced row.1.replicas → ∀ flag ∈ row.2, flag = true

/-- The condition on a call. No entry is added to the log of a session with replicas that are all
`SYNCED`. When a replica is removed, synced or set `SYNCED` while all others are `SYNCED`, all
others were synced since the last entry, and so was one that is set `SYNCED`. When a session is
destroyed, another one with its id is as asked. -/
def ReplicationCall.LeavesSound (traced : ReplicationManager × List (List Bool)) :
    ReplicationCall → Prop
  | .destroySession sessionId => sessionId ≠ 0 → ∀ row,
      ((rows traced).eraseP fun row ↦ row.1.sessionId = sessionId).find?
        (fun row ↦ row.1.sessionId = sessionId) = some row → SoundRow row
  | .removeReplica sessionId replicaId | .syncReplica sessionId replicaId =>
    sessionId ≠ 0 → replicaId ≠ 0 → ∀ session synced,
      found traced sessionId = some (session, synced) →
      session.has replicaId = true →
      AllSynced (session.replicas.eraseP fun replica ↦ replica.replicaId = replicaId) →
      ∀ flag ∈ eraseBeside (fun replica ↦ replica.replicaId = replicaId) session.replicas synced,
        flag = true
  | .updateReplicaState sessionId replicaId state =>
    sessionId ≠ 0 → replicaId ≠ 0 → state = .synced → ∀ session synced,
      found traced sessionId = some (session, synced) →
      session.has replicaId = true →
      AllSynced (session.replicas.eraseP fun replica ↦ replica.replicaId = replicaId) →
      ∀ flag ∈ synced, flag = true
  | .logEntryAdd sessionId data _ => sessionId ≠ 0 → data ≠ [] → ∀ session synced,
      found traced sessionId = some (session, synced) →
      session.log.length < maxReplicationLog → AllSynced session.replicas →
      session.replicas = []
  | _ => True

variable {manager : ReplicationManager} {records : List (List Bool)}
variable {traced : ReplicationManager × List (List Bool)} {sessionId replicaId : UInt32}

/-! ### What is reported -/

/-- A session that is found is reported as consistent exactly when all of its replicas are
`SYNCED`. -/
theorem checkConsistency_iff {session : ReplicationSession} {synced : List Bool}
    (hfound : found traced sessionId = some (session, synced)) :
    replicationCheckConsistency traced.1 sessionId = 1 ↔
      sessionId ≠ 0 ∧ AllSynced session.replicas := by
  have hfind : traced.1.sessions.find? (fun session ↦ session.sessionId = sessionId) =
      some session := find?_of_find?_zip hfound
  rw [replicationCheckConsistency]
  split_ifs with hzero
  · simp [hzero]
  · simp [hfind, hzero, AllSynced, List.countP_eq_length]

/-- There is a flag for every replica of every session, and every session that can be found is as
asked. -/
def SoundTable (sessions : List ReplicationSession) (records : List (List Bool)) : Prop :=
  List.Forall₂ (fun session synced ↦ synced.length = session.replicas.length) sessions records ∧
    FirstRows (fun row : ReplicationSession × List Bool ↦ row.1.sessionId) SoundRow
      (sessions.zip records)

/-- The reports are sound exactly when every session that can be found is as asked. -/
theorem reportsSound_iff_soundTable :
    ReportsSound traced ↔ SoundTable traced.1.sessions traced.2 := by
  constructor
  · rintro ⟨hrecorded, hsound⟩
    refine ⟨hrecorded, fun sessionId row hfound hzero hall ↦ ?_⟩
    have hid := key_of_find? hfound
    exact hsound sessionId row.1 row.2 hfound
      ((checkConsistency_iff hfound).mpr ⟨hid ▸ hzero, hall⟩)
  · rintro ⟨hrecorded, hfirst⟩
    refine ⟨hrecorded, fun sessionId session synced hfound hreported ↦ ?_⟩
    obtain ⟨hzero, hall⟩ := (checkConsistency_iff hfound).mp hreported
    have hid := key_of_find? hfound
    exact hfirst sessionId (session, synced) hfound (hid.symm ▸ hzero) hall

/-! ### Calls on a session and on a replica -/

theorem sessions_onSession (manager : ReplicationManager) (sessionId : UInt32)
    (act : ReplicationSession → ReplicationSession × Int) :
    (manager.onSession sessionId act).1.sessions =
      if sessionId = 0 then manager.sessions
      else updateFirst (fun session ↦ session.sessionId = sessionId)
        (fun session ↦ (act session).1) manager.sessions := by
  rw [ReplicationManager.onSession]
  split_ifs with hzero
  · rfl
  · cases hfind : manager.sessions.find? fun session ↦ session.sessionId = sessionId with
    | none => exact (updateFirst_of_find?_eq_none hfind).symm
    | some session => rfl

theorem sessions_onReplicas (change : List ReplicaInfo → List ReplicaInfo) :
    (manager.onReplicas sessionId replicaId change).1.sessions =
      if sessionId = 0 ∨ replicaId = 0 then manager.sessions
      else updateFirst (fun session ↦ session.sessionId = sessionId && session.has replicaId)
        (fun session ↦ { session with replicas := change session.replicas })
        manager.sessions := by
  rw [ReplicationManager.onReplicas]
  split_ifs with hzero hany
  · rfl
  · rfl
  · refine (updateFirst_of_find?_eq_none (List.find?_eq_none.mpr ?_)).symm
    simpa using hany

theorem sessions_logEntryAdd (data : List UInt8) (sourceNodeId : UInt32) :
    (replicationLogEntryAdd manager sessionId data sourceNodeId).1.sessions =
      if sessionId = 0 ∨ data = [] then manager.sessions
      else updateFirst (fun session ↦ session.sessionId = sessionId)
        (fun session ↦ (session.logEntryAdd manager.nextLogEntryId data sourceNodeId).1)
        manager.sessions := by
  rw [replicationLogEntryAdd]
  by_cases hdata : data = []
  · rw [if_pos hdata, if_pos (Or.inr hdata)]
  · have hcalled := sessions_onSession manager sessionId
      fun session ↦ session.logEntryAdd manager.nextLogEntryId data sourceNodeId
    rw [if_neg hdata]
    simp only [hdata, or_false]
    split_ifs at hcalled ⊢ <;> exact hcalled

section Update

variable {change : ReplicationSession → ReplicationSession}
variable {extend : ReplicationSession → List Bool → List Bool}

/-- Assumes: every session that can be found is as asked. After the first session with an id that
passes a test is changed, and its record, they are exactly when that one is. -/
theorem soundTable_sessionWith_iff (hsound : SoundTable manager.sessions records)
    (sessionId : UInt32) (also : ReplicationSession → Bool)
    (hkeep : ∀ session, (change session).sessionId = session.sessionId)
    (hlength : ∀ session synced, synced.length = session.replicas.length →
      (extend session synced).length = (change session).replicas.length) :
    SoundTable
        (updateFirst (fun session ↦ session.sessionId = sessionId && also session) change
          manager.sessions)
        (recordFirst (fun session ↦ session.sessionId = sessionId && also session) extend
          manager.sessions records) ↔
      ∀ session synced, found (manager, records) sessionId = some (session, synced) →
        also session = true → SoundRow (change session, extend session synced) := by
  rw [SoundTable, and_iff_right (forall₂_recordFirst hsound.1 fun session synced _ hflags ↦
    hlength session synced hflags), zip_recordFirst]
  exact (hsound.2.updateFirst_iff (fun row ↦ also row.1) fun row ↦ hkeep row.1).trans Prod.forall

/-- The same for the first session with an id. -/
theorem soundTable_session_iff (hsound : SoundTable manager.sessions records)
    (hkeep : ∀ session, (change session).sessionId = session.sessionId)
    (hlength : ∀ session synced, synced.length = session.replicas.length →
      (extend session synced).length = (change session).replicas.length) :
    SoundTable
        (updateFirst (fun session ↦ session.sessionId = sessionId) change manager.sessions)
        (recordFirst (fun session ↦ session.sessionId = sessionId) extend manager.sessions
          records) ↔
      ∀ session synced, found (manager, records) sessionId = some (session, synced) →
        SoundRow (change session, extend session synced) := by
  simpa using soundTable_sessionWith_iff hsound sessionId (fun _ ↦ true) hkeep hlength

end Update

/-! ### What one call does -/

/-- The replicas are all `SYNCED` after one of them is changed exactly when all others are, and that
one. -/
theorem allSynced_updateFirst_iff {replicas : List ReplicaInfo} {change : ReplicaInfo → ReplicaInfo}
    (state : ReplicaState) (hstate : ∀ replica, (change replica).state = state)
    (hhas : (replicas.any fun replica ↦ replica.replicaId = replicaId) = true) :
    AllSynced (updateFirst (fun replica ↦ replica.replicaId = replicaId) change replicas) ↔
      AllSynced (replicas.eraseP fun replica ↦ replica.replicaId = replicaId) ∧
        state = .synced := by
  rw [AllSynced, forall_mem_updateFirst_iff_eraseP]
  refine and_congr_right fun _ ↦ ⟨fun hall ↦ ?_, fun hsynced replica _ ↦ ?_⟩
  · obtain ⟨replica, hreplica⟩ := Option.isSome_iff_exists.mp (List.find?_isSome.mpr
      (List.any_eq_true.mp hhas))
    rw [← hstate replica]
    exact hall replica hreplica
  · rw [hstate]
    exact hsynced

section Calls

variable (hsound : SoundTable manager.sessions records)
include hsound

/-- A session that is found is as asked. -/
theorem soundRow_of_found {session : ReplicationSession} {synced : List Bool}
    (hfound : found (manager, records) sessionId = some (session, synced)) :
    SoundRow (session, synced) :=
  hsound.2 sessionId (session, synced) hfound

/-- There is a flag for every replica of a session that is found. -/
theorem length_of_found {session : ReplicationSession} {synced : List Bool}
    (hfound : found (manager, records) sessionId = some (session, synced)) :
    synced.length = session.replicas.length := by
  have hmem : (session, synced) ∈ manager.sessions.zip records := List.mem_of_find?_eq_some hfound
  exact List.forall₂_zip hsound.1 hmem

theorem soundTable_createSession (sourceNodeId : UInt32) (strategy : ReplicationStrategy)
    (consistency : ConsistencyModel) :
    SoundTable (replicationCreateSession manager sourceNodeId strategy consistency).1.sessions
      (syncedAfter manager (.createSession sourceNodeId strategy consistency) records) := by
  rw [replicationCreateSession, syncedAfter]
  split_ifs
  · exact hsound
  · refine ⟨List.rel_append hsound.1 (.cons rfl .nil), ?_⟩
    rw [List.zip_append hsound.1.length_eq]
    exact hsound.2.concat fun _ _ _ hnone ↦ absurd hnone List.not_mem_nil

theorem soundTable_destroySession_iff (sessionId : UInt32) :
    SoundTable (replicationDestroySession manager sessionId).1.sessions
        (syncedAfter manager (.destroySession sessionId) records) ↔
      (ReplicationCall.destroySession sessionId).LeavesSound (manager, records) := by
  rw [syncedAfter, ReplicationCall.LeavesSound]
  by_cases hzero : sessionId = 0
  · rw [replicationDestroySession, if_pos hzero, if_pos hzero]
    exact iff_of_true hsound fun hid ↦ absurd hzero hid
  · have hsessions : (replicationDestroySession manager sessionId).1.sessions =
        manager.sessions.eraseP fun session ↦ session.sessionId = sessionId := by
      rw [replicationDestroySession, if_neg hzero]
      split_ifs with hany
      · rfl
      · exact (List.eraseP_of_forall_not (by simpa using hany)).symm
    rw [hsessions, if_neg hzero, SoundTable, and_iff_right (forall₂_eraseBeside hsound.1),
      zip_eraseBeside, forall_prop_of_true hzero]
    exact hsound.2.eraseP_iff

theorem soundTable_addReplica (sessionId replicaId nodeId : UInt32) :
    SoundTable (replicationAddReplica manager sessionId replicaId nodeId).1.sessions
      (syncedAfter manager (.addReplica sessionId replicaId nodeId) records) := by
  rw [replicationAddReplica, sessions_onSession, syncedAfter]
  split_ifs with hzero
  · exact hsound
  · refine (soundTable_session_iff hsound ?_ ?_).mpr fun session synced hfound ↦ ?_
    · intro session
      rw [ReplicationSession.addReplica]
      split_ifs <;> rfl
    · intro session synced hlength
      rw [ReplicationSession.addReplica]
      split_ifs
      · exact hlength
      · rw [List.length_append, List.length_append, hlength]
        rfl
    · rw [ReplicationSession.addReplica]
      split_ifs
      · exact soundRow_of_found hsound hfound
      · -- the new replica is not `SYNCED`
        intro _ hall
        have hnew := hall _ (List.mem_append_right _ (List.mem_singleton_self _))
        exact absurd hnew (by simp)

/-- Assumes: a call on the replicas of a session keeps a flag for every replica. It leaves all
sessions that can be found as asked exactly when it does the one that it is on. -/
theorem soundTable_onReplicas_iff (sessionId replicaId : UInt32)
    (change : List ReplicaInfo → List ReplicaInfo)
    (extend : ReplicationSession → List Bool → List Bool)
    (hlength : ∀ session synced, synced.length = session.replicas.length →
      (extend session synced).length = (change session.replicas).length) :
    SoundTable (manager.onReplicas sessionId replicaId change).1.sessions
        (if sessionId = 0 ∨ replicaId = 0 then records
        else recordFirst (fun session ↦ session.sessionId = sessionId && session.has replicaId)
          extend manager.sessions records) ↔
      (sessionId ≠ 0 → replicaId ≠ 0 → ∀ session synced,
        found (manager, records) sessionId = some (session, synced) →
        session.has replicaId = true → AllSynced (change session.replicas) →
        ∀ flag ∈ extend session synced, flag = true) := by
  rw [sessions_onReplicas]
  by_cases hzero : sessionId = 0 ∨ replicaId = 0
  · rw [if_pos hzero, if_pos hzero]
    exact iff_of_true hsound fun hsession hreplica ↦ absurd hzero (not_or.mpr ⟨hsession, hreplica⟩)
  · obtain ⟨hsession, hreplica⟩ := not_or.mp hzero
    rw [if_neg hzero, if_neg hzero, forall_prop_of_true hsession, forall_prop_of_true hreplica,
      soundTable_sessionWith_iff hsound]
    · refine forall₂_congr fun session synced ↦ forall₂_congr fun hfound _ ↦ ?_
      have hid := key_of_find? hfound
      exact forall_prop_of_true (hid.symm ▸ hsession)
    · exact fun _ ↦ rfl
    · exact hlength

theorem soundTable_removeReplica_iff (sessionId replicaId : UInt32) :
    SoundTable (replicationRemoveReplica manager sessionId replicaId).1.sessions
        (syncedAfter manager (.removeReplica sessionId replicaId) records) ↔
      (ReplicationCall.removeReplica sessionId replicaId).LeavesSound (manager, records) :=
  soundTable_onReplicas_iff hsound sessionId replicaId _ _ fun _ _ ↦ length_eraseBeside

theorem soundTable_syncReplica_iff (sessionId replicaId : UInt32) :
    SoundTable (replicationSyncReplica manager sessionId replicaId).1.sessions
        (syncedAfter manager (.syncReplica sessionId replicaId) records) ↔
      (ReplicationCall.syncReplica sessionId replicaId).LeavesSound (manager, records) := by
  refine (soundTable_onReplicas_iff hsound sessionId replicaId _ _
    fun _ _ ↦ length_recordFirst).trans ?_
  refine forall₂_congr fun _ _ ↦ forall₂_congr fun session synced ↦ forall₂_congr fun _ hhas ↦ ?_
  refine imp_congr ?_ (forall_mem_recordFirst_iff fun _ _ ↦ rfl)
  exact (allSynced_updateFirst_iff .synced (fun _ ↦ rfl) hhas).trans (and_iff_left rfl)

/-- A call that changes one replica and nothing of the record. -/
theorem soundTable_onReplica_iff (sessionId replicaId : UInt32)
    (change : ReplicaInfo → ReplicaInfo) (state : ReplicaState)
    (hstate : ∀ replica, (change replica).state = state) :
    SoundTable (manager.onReplica sessionId replicaId change).1.sessions records ↔
      (sessionId ≠ 0 → replicaId ≠ 0 → state = .synced → ∀ session synced,
        found (manager, records) sessionId = some (session, synced) →
        session.has replicaId = true →
        AllSynced (session.replicas.eraseP fun replica ↦ replica.replicaId = replicaId) →
        ∀ flag ∈ synced, flag = true) := by
  have hcalled := soundTable_onReplicas_iff hsound sessionId replicaId
    (updateFirst (fun replica ↦ replica.replicaId = replicaId) change) (fun _ synced ↦ synced)
    fun session synced hlength ↦ by rw [hlength, updateFirst, List.length_modify]
  rw [recordFirst_same, ite_self] at hcalled
  rw [ReplicationManager.onReplica, hcalled]
  refine forall₂_congr fun _ _ ↦ ?_
  constructor
  · intro hafter hsynced session synced hfound hhas hothers
    exact hafter session synced hfound hhas
      ((allSynced_updateFirst_iff state hstate hhas).mpr ⟨hothers, hsynced⟩)
  · intro hcondition session synced hfound hhas hall
    obtain ⟨hothers, hsynced⟩ := (allSynced_updateFirst_iff state hstate hhas).mp hall
    exact hcondition hsynced session synced hfound hhas hothers

theorem soundTable_logEntryAdd_iff (sessionId : UInt32) (data : List UInt8)
    (sourceNodeId : UInt32) :
    SoundTable (replicationLogEntryAdd manager sessionId data sourceNodeId).1.sessions
        (syncedAfter manager (.logEntryAdd sessionId data sourceNodeId) records) ↔
      (ReplicationCall.logEntryAdd sessionId data sourceNodeId).LeavesSound (manager, records) := by
  rw [sessions_logEntryAdd, syncedAfter, ReplicationCall.LeavesSound]
  by_cases hnone : sessionId = 0 ∨ data = []
  · rw [if_pos hnone, if_pos hnone]
    exact iff_of_true hsound fun hsession hdata ↦ absurd hnone (not_or.mpr ⟨hsession, hdata⟩)
  · obtain ⟨hsession, hdata⟩ := not_or.mp hnone
    rw [if_neg hnone, if_neg hnone, forall_prop_of_true hsession, forall_prop_of_true hdata,
      soundTable_session_iff hsound]
    · refine forall₂_congr fun session synced ↦ forall_congr' fun hfound ↦ ?_
      have hid := key_of_find? hfound
      have hlength := length_of_found hsound hfound
      have hold := soundRow_of_found hsound hfound
      rw [ReplicationSession.logEntryAdd]
      by_cases hfull : maxReplicationLog ≤ session.log.length
      · rw [if_pos hfull, if_pos hfull]
        exact iff_of_true hold fun hroom ↦ absurd hroom (Nat.not_lt.mpr hfull)
      · rw [if_neg hfull, if_neg hfull, forall_prop_of_true (Nat.not_le.mp hfull), SoundRow,
          forall_prop_of_true (hid.symm ▸ hsession)]
        refine imp_congr_right fun _ ↦ ?_
        -- no flag is left exactly when there was none
        rw [← List.length_eq_zero_iff, ← hlength, List.length_eq_zero_iff]
        cases synced <;> simp
    · intro session
      rw [ReplicationSession.logEntryAdd]
      split_ifs <;> rfl
    · intro session synced hlength
      rw [ReplicationSession.logEntryAdd]
      split_ifs
      · exact hlength
      · rw [List.length_map, hlength]

theorem soundTable_completeSync (sessionId : UInt32) :
    SoundTable (replicationCompleteSync manager sessionId).1.sessions
      (syncedAfter manager (.completeSync sessionId) records) := by
  rw [replicationCompleteSync, sessions_onSession, syncedAfter]
  split_ifs with hzero
  · exact hsound
  · refine (soundTable_session_iff hsound ?_ ?_).mpr fun session synced _ _ _ flag hflag ↦ ?_
    · exact fun _ ↦ rfl
    · intro session synced hlength
      rw [List.length_map, List.length_map, hlength]
    · obtain ⟨_, -, rfl⟩ := List.mem_map.mp hflag
      rfl

theorem soundTable_applyLogEntry (sessionId logId : UInt32) :
    SoundTable (replicationApplyLogEntry manager sessionId logId).1.sessions records := by
  rw [replicationApplyLogEntry]
  split_ifs with hzero hany
  · exact hsound
  · have hsame : recordFirst
        (fun session ↦ session.sessionId = sessionId && session.hasEntry logId)
        (fun _ synced ↦ synced) manager.sessions records = records := recordFirst_same
    rw [← hsame]
    refine (soundTable_sessionWith_iff hsound sessionId _ ?_ ?_).mpr
      fun session synced hfound _ ↦ ?_
    · exact fun _ ↦ rfl
    · exact fun _ _ hlength ↦ hlength
    · have hold := soundRow_of_found hsound hfound
      exact hold
  · exact hsound

theorem soundTable_detectOutOfSync (sessionId replicaId : UInt32) :
    SoundTable (replicationDetectOutOfSync manager sessionId replicaId).1.sessions records := by
  refine (soundTable_onReplica_iff hsound sessionId replicaId _ .outOfSync fun _ ↦ rfl).mpr
    fun _ _ hsynced ↦ ?_
  exact absurd hsynced (by simp)

end Calls

/-- From a state in which the reports are sound, a call leads to one exactly when it meets the
condition. -/
theorem reportsSound_step_iff (hreports : ReportsSound (manager, records))
    (call : ReplicationCall) :
    ReportsSound (replicationStep manager call, syncedAfter manager call records) ↔
      call.LeavesSound (manager, records) := by
  have hsound := reportsSound_iff_soundTable.mp hreports
  rw [reportsSound_iff_soundTable]
  cases call with
  | createSession sourceNodeId strategy consistency =>
    exact iff_of_true (soundTable_createSession hsound sourceNodeId strategy consistency) trivial
  | destroySession sessionId => exact soundTable_destroySession_iff hsound sessionId
  | addReplica sessionId replicaId nodeId =>
    exact iff_of_true (soundTable_addReplica hsound sessionId replicaId nodeId) trivial
  | removeReplica sessionId replicaId =>
    exact soundTable_removeReplica_iff hsound sessionId replicaId
  | syncReplica sessionId replicaId => exact soundTable_syncReplica_iff hsound sessionId replicaId
  | detectOutOfSync sessionId replicaId =>
    exact iff_of_true (soundTable_detectOutOfSync hsound sessionId replicaId) trivial
  | logEntryAdd sessionId data sourceNodeId =>
    exact soundTable_logEntryAdd_iff hsound sessionId data sourceNodeId
  | applyLogEntry sessionId logId =>
    exact iff_of_true (soundTable_applyLogEntry hsound sessionId logId) trivial
  | completeSync sessionId => exact iff_of_true (soundTable_completeSync hsound sessionId) trivial
  | updateReplicaState sessionId replicaId state =>
    exact soundTable_onReplica_iff hsound sessionId replicaId _ state fun _ ↦ rfl
  | startSync sessionId => exact iff_of_true hsound trivial
  | checkConsistency sessionId => exact iff_of_true hsound trivial
  | resolveConflict sessionId => exact iff_of_true hsound trivial

/-! ### Runs -/

/-- Along a run from a manager without sessions the reports are sound exactly when every call meets
the condition. -/
theorem reportsSound_iff (nextSessionId nextLogEntryId : UInt32) (calls : List ReplicationCall) :
    AlongRun (withTrace replicationStep syncedAfter) ReportsSound
        (replicationManagerInit nextSessionId nextLogEntryId, []) calls ↔
      EveryStep (withTrace replicationStep syncedAfter) (fun traced call ↦ call.LeavesSound traced)
        (replicationManagerInit nextSessionId nextLogEntryId, []) calls := by
  refine alongRun_iff_everyStep (fun _ ↦ True) (fun _ _ ↦ True) (fun _ _ _ _ ↦ trivial)
    (fun traced call _ _ hreports ↦ reportsSound_step_iff hreports call) trivial ?_
    fun _ _ _ ↦ trivial
  exact reportsSound_iff_soundTable.mpr ⟨.nil, firstRows_nil⟩

/-- An entry is added after the only replica was synced, and the session is still reported as
consistent. -/
theorem not_reportsSound_entry_after_sync :
    ¬ AlongRun (withTrace replicationStep syncedAfter) ReportsSound
      (replicationManagerInit 1 1, [])
      [.createSession 7 .synchronous .strong, .addReplica 1 5 8, .syncReplica 1 5,
        .logEntryAdd 1 [9] 7] := by
  intro halong
  have hreached := (halong _ (List.prefix_refl _)).sound 1 _ [false] rfl (by decide)
  exact absurd (hreached false (by simp)) (by decide)

end OneOS.Clustering.Replication
