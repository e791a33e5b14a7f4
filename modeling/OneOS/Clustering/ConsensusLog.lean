import OneOS.Clustering.SingleVote
import OneOS.Foundation.Table

/-!
# The log of the consensus engine

The rest of `clustering-replication/consensus_engine.c`: the log with its commit index and the index
of the last entry applied, the peers, and the quorum operations. `ReplicationEngine` adds these
fields to the election part of the engine.

An applied entry should stay committed: `last_applied` is at most `commit_index`, which is at most
`log_size`, and neither index falls. `consensus_commit_entry` checks its argument against the log
only and not against `commit_index`, so a call may move the index back, below what has been applied.
`committedPrefix_iff` says that nothing else goes wrong: a run is as it should be exactly when no
accepted commit names an index below `commit_index`.
-/

set_option autoImplicit false
set_option relaxedAutoImplicit false

namespace OneOS.Clustering.Consensus

open Foundation

/-! ### The engine -/

/-- `MAX_LOG_ENTRIES`. -/
def maxLogEntries : UInt64 := 16384

/-- `MAX_QUORUM_OPERATIONS`. -/
def maxQuorumOperations : ℕ := 512

/-- `ConsensusOperationType`. -/
inductive ConsensusOperationType
  | append
  | commit
  | snapshot
  | configChange
  deriving DecidableEq, Repr

/-- `LogEntry`. An entry without data has the empty list. -/
structure LogEntry where
  logIndex : UInt32
  term : UInt32
  opType : ConsensusOperationType
  data : List UInt8
  timestamp : UInt64
  deriving DecidableEq, Repr

/-- `QuorumOperation`, with the used rows of `peers` as a list. -/
structure QuorumOperation where
  quorumOpId : UInt32
  opType : ConsensusOperationType
  peers : List PeerState
  commitCount : UInt32
  requiredCommits : UInt32
  timestamp : UInt64
  isCommitted : Bool
  deriving DecidableEq, Repr

/-- The whole of the source's `ConsensusEngine`, and the counter that numbers quorum operations. -/
structure ReplicationEngine extends ConsensusEngine where
  log : List LogEntry
  commitIndex : UInt64
  lastApplied : UInt64
  quorumOps : List QuorumOperation
  totalLogEntries : UInt64
  totalCommits : UInt32
  nextQuorumOpId : UInt32
  deriving DecidableEq, Repr

/-- `consensus_engine_init`, in a process that has made no quorum operation yet. -/
def replicationEngineInit (nodeId : UInt32) : ReplicationEngine where
  toConsensusEngine := consensusEngineInit nodeId
  log := []
  commitIndex := 0
  lastApplied := 0
  quorumOps := []
  totalLogEntries := 0
  totalCommits := 0
  nextQuorumOpId := 1

/-! ### Peers -/

/-- `consensus_remove_peer`. -/
def consensusRemovePeer (engine : ConsensusEngine) (peerId : UInt32) : ConsensusEngine × Int :=
  if peerId = 0 then (engine, -1)
  else if engine.peers.any (·.peerId = peerId) then
    ({ engine with peers := engine.peers.eraseP (·.peerId = peerId) }, 0)
  else (engine, -1)

/-- `consensus_accept_entries`. -/
def consensusAcceptEntries (engine : ConsensusEngine) (fromPeerId : UInt32) :
    ConsensusEngine × Int :=
  if fromPeerId = 0 then (engine, -1)
  else if engine.peers.any (·.peerId = fromPeerId) then
    ({ engine with
      peers := updateFirst (·.peerId = fromPeerId)
        (fun peer ↦ { peer with matchIndex := engine.logSize }) engine.peers }, 0)
  else (engine, -1)

/-! ### The log -/

/-- `consensus_append_log_entry`. Without data nothing is allocated; `malloced` says whether the
allocation succeeds otherwise. A row that a failed call leaves behind is beyond `log_size`. -/
def consensusAppendLogEntry (engine : ReplicationEngine) (opType : ConsensusOperationType)
    (data : List UInt8) (malloced : Bool) : ReplicationEngine × Int :=
  if maxLogEntries ≤ engine.logSize then (engine, -1)
  else if data ≠ [] ∧ malloced = false then (engine, -1)
  else
    let entry : LogEntry := {
      logIndex := (engine.logSize + 1).toUInt32
      term := engine.currentTerm
      opType := opType
      data := data
      timestamp := 0 }
    ({ engine with
      log := engine.log ++ [entry]
      logSize := engine.logSize + 1
      totalLogEntries := engine.totalLogEntries + 1 }, entry.logIndex.toNat)

/-- `consensus_commit_entry`. -/
def consensusCommitEntry (engine : ReplicationEngine) (logIndex : UInt64) :
    ReplicationEngine × Int :=
  if logIndex = 0 ∨ engine.logSize < logIndex then (engine, -1)
  else ({ engine with commitIndex := logIndex, totalCommits := engine.totalCommits + 1 }, 0)

/-- The loop of `consensus_apply_committed_entries`, which goes round at most `rounds` times, from
the last entry applied and the number of entries applied so far. -/
def applyLoop (commitIndex logSize : UInt64) : ℕ → UInt64 × UInt32 → UInt64 × UInt32
  | 0, applied => applied
  | rounds + 1, (lastApplied, appliedCount) =>
    if lastApplied < commitIndex ∧ lastApplied < logSize then
      applyLoop commitIndex logSize rounds (lastApplied + 1, appliedCount + 1)
    else (lastApplied, appliedCount)

/-- `consensus_apply_committed_entries`. The loop goes round at most once for every entry of the
log. -/
def consensusApplyCommittedEntries (engine : ReplicationEngine) : ReplicationEngine × Int :=
  let applied := applyLoop engine.commitIndex engine.logSize engine.logSize.toNat
    (engine.lastApplied, 0)
  ({ engine with lastApplied := applied.1 }, applied.2.toNat)

/-! ### Quorum operations -/

/-- `consensus_create_quorum_operation`. The data that comes with the call is not read. -/
def consensusCreateQuorumOperation (engine : ReplicationEngine) (opType : ConsensusOperationType) :
    ReplicationEngine × Int :=
  if maxQuorumOperations ≤ engine.quorumOps.length then (engine, -1)
  else if engine.state ≠ .leader then (engine, -1)
  else
    let operation : QuorumOperation := {
      quorumOpId := engine.nextQuorumOpId
      opType := opType
      peers := engine.peers
      commitCount := 1
      requiredCommits := ((engine.peers.length + 1) / 2 + 1).toUInt32
      timestamp := 0
      isCommitted := false }
    ({ engine with
      quorumOps := engine.quorumOps ++ [operation]
      nextQuorumOpId := engine.nextQuorumOpId + 1 }, operation.quorumOpId.toNat)

/-- `consensus_quorum_operation_complete`. -/
def consensusQuorumOperationComplete (engine : ReplicationEngine) (quorumOpId : UInt32) :
    ReplicationEngine × Int :=
  if quorumOpId = 0 then (engine, -1)
  else if engine.quorumOps.any (·.quorumOpId = quorumOpId) then
    ({ engine with
      quorumOps := updateFirst (·.quorumOpId = quorumOpId)
        (fun operation ↦ { operation with isCommitted := true }) engine.quorumOps }, 0)
  else (engine, -1)

/-! ### Calls -/

/-- A call on an engine. `election` is a call of the election part; `consensus_grant_vote` only
looks a peer up. -/
inductive ReplicationCall
  | election (call : EngineCall)
  | becomeLeader
  | addPeer (peerId nodeId : UInt32)
  | removePeer (peerId : UInt32)
  | grantVote (fromPeerId : UInt32)
  | acceptEntries (fromPeerId : UInt32)
  | appendLogEntry (opType : ConsensusOperationType) (data : List UInt8) (malloced : Bool)
  | commitEntry (logIndex : UInt64)
  | applyCommittedEntries
  | createQuorumOperation (opType : ConsensusOperationType)
  | quorumOperationComplete (quorumOpId : UInt32)
  deriving DecidableEq, Repr

/-- The engine after a call. -/
def replicationStep (engine : ReplicationEngine) : ReplicationCall → ReplicationEngine
  | .election call => { engine with toConsensusEngine := engineStep engine.toConsensusEngine call }
  | .becomeLeader =>
    { engine with toConsensusEngine := (consensusBecomeLeader engine.toConsensusEngine).1 }
  | .addPeer peerId nodeId =>
    { engine with toConsensusEngine := (consensusAddPeer engine.toConsensusEngine peerId nodeId).1 }
  | .removePeer peerId =>
    { engine with toConsensusEngine := (consensusRemovePeer engine.toConsensusEngine peerId).1 }
  | .grantVote _ => engine
  | .acceptEntries fromPeerId =>
    { engine with
      toConsensusEngine := (consensusAcceptEntries engine.toConsensusEngine fromPeerId).1 }
  | .appendLogEntry opType data malloced => (consensusAppendLogEntry engine opType data malloced).1
  | .commitEntry logIndex => (consensusCommitEntry engine logIndex).1
  | .applyCommittedEntries => (consensusApplyCommittedEntries engine).1
  | .createQuorumOperation opType => (consensusCreateQuorumOperation engine opType).1
  | .quorumOperationComplete quorumOpId => (consensusQuorumOperationComplete engine quorumOpId).1

/-! ### What one call does to the indices -/

/-- The part of the log that is applied is committed, and what is committed is in the log. -/
def CommittedPrefix (engine : ReplicationEngine) : Prop :=
  engine.lastApplied.toNat ≤ engine.commitIndex.toNat ∧
    engine.commitIndex.toNat ≤ engine.logSize.toNat

/-- The condition on a call: a commit that is accepted does not move the commit index back. -/
def CommitsForward (engine : ReplicationEngine) : ReplicationCall → Prop
  | .commitEntry logIndex => logIndex ≠ 0 → logIndex ≤ engine.logSize →
      engine.commitIndex ≤ logIndex
  | _ => True

variable {engine : ReplicationEngine} {call : ReplicationCall}

/-- Taking over a term leaves the log and the peers. -/
theorem adoptTerm_keeps (engine : ConsensusEngine) (term : UInt32) :
    (engine.adoptTerm term).logSize = engine.logSize ∧
      (engine.adoptTerm term).peers.length = engine.peers.length := by
  unfold ConsensusEngine.adoptTerm
  split_ifs
  · exact ⟨rfl, rfl⟩
  · exact ⟨rfl, rfl⟩

/-- The election part leaves the size of the log and the number of peers. -/
theorem engineStep_keeps (engine : ConsensusEngine) (call : EngineCall) :
    (engineStep engine call).logSize = engine.logSize ∧
      (engineStep engine call).peers.length = engine.peers.length := by
  cases call with
  | requestVote term candidateId =>
    rw [engineStep]
    rcases consensusRequestVote_cases engine term candidateId with
      ⟨-, hsame | hadopted⟩ | ⟨-, -, -, -, hgranted⟩
    · rw [hsame]
      exact ⟨rfl, rfl⟩
    · rw [hadopted]
      exact adoptTerm_keeps engine term
    · rw [hgranted]
      exact adoptTerm_keeps engine term
  | appendEntries term leaderId prevLogIndex prevLogTerm =>
    rw [engineStep, consensusAppendEntries]
    split_ifs
    · exact ⟨rfl, rfl⟩
    · exact ⟨rfl, rfl⟩
    · exact ⟨rfl, rfl⟩
  | startElection => exact ⟨rfl, rfl⟩
  | winElection =>
    rw [engineStep, consensusWinElection]
    split_ifs
    · exact ⟨rfl, List.length_map _⟩
    · exact ⟨rfl, rfl⟩

/-- Assumes: there are rounds for all entries not yet applied. The loop goes on until everything
that is committed and in the log is applied. -/
theorem applyLoop_lastApplied {commitIndex logSize lastApplied : UInt64} {appliedCount : UInt32}
    {rounds : ℕ} (hrounds : logSize.toNat ≤ lastApplied.toNat + rounds) :
    (applyLoop commitIndex logSize rounds (lastApplied, appliedCount)).1.toNat =
      max lastApplied.toNat (min commitIndex.toNat logSize.toNat) := by
  induction rounds generalizing lastApplied appliedCount with
  | zero =>
    show lastApplied.toNat = _
    omega
  | succ rounds ih =>
    unfold applyLoop
    split_ifs with hguard
    · rw [UInt64.lt_iff_toNat_lt, UInt64.lt_iff_toNat_lt] at hguard
      have hbound := logSize.toNat_lt
      have hnext : (lastApplied + 1).toNat = lastApplied.toNat + 1 := by
        rw [UInt64.toNat_add, UInt64.toNat_one, Nat.mod_eq_of_lt (by omega)]
      rw [ih (by omega), hnext]
      omega
    · rw [UInt64.lt_iff_toNat_lt, UInt64.lt_iff_toNat_lt] at hguard
      show lastApplied.toNat = _
      omega

/-- A call leaves the three indices, or appends one entry to a log with room, or commits an entry of
the log, or applies what is committed. -/
theorem replicationStep_indices (engine : ReplicationEngine) (call : ReplicationCall) :
    ((replicationStep engine call).logSize = engine.logSize ∧
      (replicationStep engine call).commitIndex = engine.commitIndex ∧
      (replicationStep engine call).lastApplied = engine.lastApplied) ∨
    (engine.logSize < maxLogEntries ∧
      (replicationStep engine call).logSize = engine.logSize + 1 ∧
      (replicationStep engine call).commitIndex = engine.commitIndex ∧
      (replicationStep engine call).lastApplied = engine.lastApplied) ∨
    (∃ logIndex, call = .commitEntry logIndex ∧ logIndex ≠ 0 ∧ logIndex ≤ engine.logSize ∧
      (replicationStep engine call).logSize = engine.logSize ∧
      (replicationStep engine call).commitIndex = logIndex ∧
      (replicationStep engine call).lastApplied = engine.lastApplied) ∨
    ((replicationStep engine call).logSize = engine.logSize ∧
      (replicationStep engine call).commitIndex = engine.commitIndex ∧
      (replicationStep engine call).lastApplied.toNat =
        max engine.lastApplied.toNat (min engine.commitIndex.toNat engine.logSize.toNat)) := by
  cases call with
  | election call => exact Or.inl ⟨(engineStep_keeps engine.toConsensusEngine call).1, rfl, rfl⟩
  | becomeLeader => exact Or.inl ⟨rfl, rfl, rfl⟩
  | addPeer peerId nodeId =>
    refine Or.inl ⟨?_, rfl, rfl⟩
    rw [replicationStep, consensusAddPeer]
    split_ifs
    · rfl
    · rfl
  | removePeer peerId =>
    refine Or.inl ⟨?_, rfl, rfl⟩
    rw [replicationStep, consensusRemovePeer]
    split_ifs
    · rfl
    · rfl
    · rfl
  | grantVote fromPeerId => exact Or.inl ⟨rfl, rfl, rfl⟩
  | acceptEntries fromPeerId =>
    refine Or.inl ⟨?_, rfl, rfl⟩
    rw [replicationStep, consensusAcceptEntries]
    split_ifs
    · rfl
    · rfl
    · rfl
  | appendLogEntry opType data malloced =>
    simp only [replicationStep, consensusAppendLogEntry]
    split_ifs with hfull hmalloc
    · exact Or.inl ⟨rfl, rfl, rfl⟩
    · exact Or.inl ⟨rfl, rfl, rfl⟩
    · exact Or.inr (Or.inl ⟨UInt64.not_le.mp hfull, rfl, rfl, rfl⟩)
  | commitEntry logIndex =>
    simp only [replicationStep, consensusCommitEntry]
    split_ifs with hrefused
    · exact Or.inl ⟨rfl, rfl, rfl⟩
    · obtain ⟨hzero, hlarge⟩ := not_or.mp hrefused
      exact Or.inr (Or.inr (Or.inl ⟨logIndex, rfl, hzero, UInt64.not_lt.mp hlarge, rfl, rfl, rfl⟩))
  | applyCommittedEntries =>
    refine Or.inr (Or.inr (Or.inr ⟨rfl, rfl, ?_⟩))
    exact applyLoop_lastApplied (Nat.le_add_left _ _)
  | createQuorumOperation opType =>
    simp only [replicationStep, consensusCreateQuorumOperation]
    split_ifs
    · exact Or.inl ⟨rfl, rfl, rfl⟩
    · exact Or.inl ⟨rfl, rfl, rfl⟩
    · exact Or.inl ⟨rfl, rfl, rfl⟩
  | quorumOperationComplete quorumOpId =>
    simp only [replicationStep, consensusQuorumOperationComplete]
    split_ifs
    · exact Or.inl ⟨rfl, rfl, rfl⟩
    · exact Or.inl ⟨rfl, rfl, rfl⟩
    · exact Or.inl ⟨rfl, rfl, rfl⟩

/-- A call that does not move the commit index back keeps the bounds and lowers neither index. -/
theorem committedPrefix_step (hforward : CommitsForward engine call)
    (hwithin : CommittedPrefix engine) :
    CommittedPrefix (replicationStep engine call) ∧
      engine.commitIndex.toNat ≤ (replicationStep engine call).commitIndex.toNat ∧
      engine.lastApplied.toNat ≤ (replicationStep engine call).lastApplied.toNat := by
  obtain ⟨happlied, hcommitted⟩ := hwithin
  rw [CommittedPrefix]
  rcases replicationStep_indices engine call with
    ⟨hsize, hcommit, hlast⟩ | ⟨hroom, hsize, hcommit, hlast⟩ |
    ⟨logIndex, rfl, hzero, hlog, hsize, hcommit, hlast⟩ | ⟨hsize, hcommit, hlast⟩
  · rw [hsize, hcommit, hlast]
    exact ⟨⟨happlied, hcommitted⟩, le_refl _, le_refl _⟩
  · have hgrown : (engine.logSize + 1).toNat = engine.logSize.toNat + 1 := by
      have hbound : engine.logSize.toNat < 16384 := UInt64.lt_iff_toNat_lt.mp hroom
      rw [UInt64.toNat_add, UInt64.toNat_one, Nat.mod_eq_of_lt (by omega)]
    rw [hsize, hcommit, hlast, hgrown]
    exact ⟨⟨happlied, Nat.le_succ_of_le hcommitted⟩, le_refl _, le_refl _⟩
  · have hnotBack := UInt64.le_iff_toNat_le.mp (hforward hzero hlog)
    rw [hsize, hcommit, hlast]
    exact ⟨⟨happlied.trans hnotBack, UInt64.le_iff_toNat_le.mp hlog⟩, hnotBack, le_refl _⟩
  · rw [hsize, hcommit, hlast]
    omega

/-- A call from a state with the bounds keeps them and lowers neither index exactly when it does not
move the commit index back. -/
theorem committedPrefix_step_iff (hwithin : CommittedPrefix engine) :
    CommittedPrefix (replicationStep engine call) ∧
      engine.commitIndex.toNat ≤ (replicationStep engine call).commitIndex.toNat ∧
      engine.lastApplied.toNat ≤ (replicationStep engine call).lastApplied.toNat ↔
    CommitsForward engine call := by
  refine ⟨?_, fun hforward ↦ committedPrefix_step hforward hwithin⟩
  rintro ⟨-, hcommit, -⟩
  cases call with
  | commitEntry logIndex =>
    intro hzero hlog
    rw [replicationStep, consensusCommitEntry,
      if_neg (not_or.mpr ⟨hzero, UInt64.not_lt.mpr hlog⟩)] at hcommit
    exact UInt64.le_iff_toNat_le.mpr hcommit
  | _ => trivial

/-! ### Runs -/

/-- In a run of a fresh engine the applied part of the log is always committed, and neither the
commit index nor the index of the last applied entry ever falls, exactly when no commit that is
accepted names an entry below the commit index. -/
theorem committedPrefix_iff (nodeId : UInt32) (calls : List ReplicationCall) :
    (AlongRun replicationStep CommittedPrefix (replicationEngineInit nodeId) calls ∧
      NeverFalls replicationStep (fun engine ↦ engine.commitIndex.toNat)
        (replicationEngineInit nodeId) calls ∧
      NeverFalls replicationStep (fun engine ↦ engine.lastApplied.toNat)
        (replicationEngineInit nodeId) calls) ↔
    EveryStep replicationStep CommitsForward (replicationEngineInit nodeId) calls := by
  rw [neverFalls_iff_everyStep, neverFalls_iff_everyStep, ← everyStep_and_iff]
  exact alongRun_and_everyStep_iff (fun _ ↦ True) (fun _ _ ↦ True) (fun _ _ _ _ ↦ trivial)
    (fun _ _ _ _ hwithin ↦ committedPrefix_step_iff hwithin) trivial ⟨le_refl _, le_refl _⟩
    (fun _ _ _ ↦ trivial)

/-- Two entries are appended, committed and applied; then the first one is committed again. -/
theorem committedPrefix_recommit :
    ¬ (AlongRun replicationStep CommittedPrefix (replicationEngineInit 1)
        [.appendLogEntry .append [] true, .appendLogEntry .append [] true, .commitEntry 2,
          .applyCommittedEntries, .commitEntry 1] ∧
      NeverFalls replicationStep (fun engine ↦ engine.commitIndex.toNat) (replicationEngineInit 1)
        [.appendLogEntry .append [] true, .appendLogEntry .append [] true, .commitEntry 2,
          .applyCommittedEntries, .commitEntry 1] ∧
      NeverFalls replicationStep (fun engine ↦ engine.lastApplied.toNat) (replicationEngineInit 1)
        [.appendLogEntry .append [] true, .appendLogEntry .append [] true, .commitEntry 2,
          .applyCommittedEntries, .commitEntry 1]) := by
  rintro ⟨halong, -, -⟩
  have hlast := (halong _ (List.prefix_refl _)).1
  revert hlast
  decide

end OneOS.Clustering.Consensus
