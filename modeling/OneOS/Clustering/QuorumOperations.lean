import OneOS.Clustering.ConsensusLog

/-!
# Quorum operations

A quorum operation is created by a leader with one commit, its own, and with the number of commits
it requires: a majority of the peers of that moment and the leader itself. It should count as
committed only when the commits recorded for it have reached that number (`QuorumSound`).

`consensus_quorum_operation_complete` sets the flag without looking at the count, and no operation
of the engine raises the count. So the flag is right only where one commit is a majority:
`quorumSound_iff` says that a run is sound exactly when every operation that is completed was
created while the engine had no peers.
-/

set_option autoImplicit false
set_option relaxedAutoImplicit false

namespace OneOS.Clustering.Consensus

open Foundation

/-- The operation has the commits it requires, and these are more than half of the peers it was
created with and the engine itself. -/
structure QuorumOperation.Reached (operation : QuorumOperation) : Prop where
  enough : operation.requiredCommits ≤ operation.commitCount
  majority : operation.peers.length + 1 < 2 * operation.requiredCommits.toNat

/-- Every operation that is committed has reached its quorum. -/
def QuorumSound (engine : ReplicationEngine) : Prop :=
  ∀ operation ∈ engine.quorumOps, operation.isCommitted = true → operation.Reached

/-- The condition on a call: the operation that it completes, if there is one, was created while the
engine had no peers. -/
def CompletesAlone (engine : ReplicationEngine) : ReplicationCall → Prop
  | .quorumOperationComplete quorumOpId => ∀ operation, quorumOpId ≠ 0 →
      engine.quorumOps.find? (·.quorumOpId = quorumOpId) = some operation → operation.peers = []
  | _ => True

variable {engine : ReplicationEngine} {call : ReplicationCall} {operation : QuorumOperation}

/-! ### Operations as they are created -/

/-- What `consensus_create_quorum_operation` writes: one commit, and the majority of the peers and
the engine itself, of which there are at most 65. -/
structure QuorumOperation.AsCreated (operation : QuorumOperation) : Prop where
  peers : operation.peers.length ≤ maxConsensusPeers
  commits : operation.commitCount = 1
  required : operation.requiredCommits = ((operation.peers.length + 1) / 2 + 1).toUInt32

theorem QuorumOperation.AsCreated.requiredCommits_toNat (hcreated : operation.AsCreated) :
    operation.requiredCommits.toNat = (operation.peers.length + 1) / 2 + 1 := by
  have hpeers : operation.peers.length ≤ 64 := hcreated.peers
  rw [hcreated.required]
  exact Nat.mod_eq_of_lt (by omega)

/-- One commit is a quorum exactly when there are no peers. -/
theorem QuorumOperation.AsCreated.reached_iff (hcreated : operation.AsCreated) :
    operation.Reached ↔ operation.peers = [] := by
  have hrequired := hcreated.requiredCommits_toNat
  constructor
  · intro hreached
    have henough := UInt32.le_iff_toNat_le.mp hreached.enough
    rw [hcreated.commits, hrequired, UInt32.toNat_one] at henough
    rw [← List.length_eq_zero_iff]
    omega
  · intro hnone
    rw [hnone, List.length_nil] at hrequired
    refine ⟨?_, ?_⟩
    · rw [UInt32.le_iff_toNat_le, hcreated.commits, hrequired, UInt32.toNat_one]
    · rw [hnone, List.length_nil, hrequired]
      decide

/-- There are at most as many peers as the table holds, and all operations are as they were
created. -/
structure QuorumTable (engine : ReplicationEngine) : Prop where
  peers : engine.peers.length ≤ maxConsensusPeers
  created : ∀ operation ∈ engine.quorumOps, operation.AsCreated

/-! ### What one call does -/

/-- Assumes: the engine has at most as many peers as the table holds. A call keeps that bound, and
leaves the operations, or adds one as it is created, or completes the first one with an id. -/
theorem replicationStep_quorumOps (hpeers : engine.peers.length ≤ maxConsensusPeers)
    (call : ReplicationCall) :
    (replicationStep engine call).peers.length ≤ maxConsensusPeers ∧
      ((replicationStep engine call).quorumOps = engine.quorumOps ∧ CompletesAlone engine call ∨
        (∃ new : QuorumOperation, new.AsCreated ∧ new.isCommitted = false ∧
          CompletesAlone engine call ∧
          (replicationStep engine call).quorumOps = engine.quorumOps ++ [new]) ∨
        ∃ quorumOpId, call = .quorumOperationComplete quorumOpId ∧ quorumOpId ≠ 0 ∧
          (replicationStep engine call).quorumOps = updateFirst (·.quorumOpId = quorumOpId)
            (fun operation ↦ { operation with isCommitted := true }) engine.quorumOps) := by
  cases call with
  | election call =>
    have hkept := (engineStep_keeps engine.toConsensusEngine call).2
    exact ⟨hkept.trans_le hpeers, Or.inl ⟨rfl, trivial⟩⟩
  | becomeLeader => exact ⟨(List.length_map _).trans_le hpeers, Or.inl ⟨rfl, trivial⟩⟩
  | addPeer peerId nodeId =>
    refine ⟨?_, Or.inl ⟨rfl, trivial⟩⟩
    simp only [replicationStep, consensusAddPeer]
    split_ifs with hfull
    · exact hpeers
    · rw [List.length_append]
      exact Nat.lt_of_not_le hfull
  | removePeer peerId =>
    refine ⟨?_, Or.inl ⟨rfl, trivial⟩⟩
    simp only [replicationStep, consensusRemovePeer]
    split_ifs
    · exact hpeers
    · exact (List.length_eraseP_le).trans hpeers
    · exact hpeers
  | grantVote fromPeerId => exact ⟨hpeers, Or.inl ⟨rfl, trivial⟩⟩
  | acceptEntries fromPeerId =>
    refine ⟨?_, Or.inl ⟨rfl, trivial⟩⟩
    simp only [replicationStep, consensusAcceptEntries]
    split_ifs
    · exact hpeers
    · exact (List.length_modify _ _ _).trans_le hpeers
    · exact hpeers
  | appendLogEntry opType data malloced =>
    simp only [replicationStep, consensusAppendLogEntry]
    split_ifs
    · exact ⟨hpeers, Or.inl ⟨rfl, trivial⟩⟩
    · exact ⟨hpeers, Or.inl ⟨rfl, trivial⟩⟩
    · exact ⟨hpeers, Or.inl ⟨rfl, trivial⟩⟩
  | commitEntry logIndex =>
    simp only [replicationStep, consensusCommitEntry]
    split_ifs
    · exact ⟨hpeers, Or.inl ⟨rfl, trivial⟩⟩
    · exact ⟨hpeers, Or.inl ⟨rfl, trivial⟩⟩
  | applyCommittedEntries => exact ⟨hpeers, Or.inl ⟨rfl, trivial⟩⟩
  | createQuorumOperation opType =>
    simp only [replicationStep, consensusCreateQuorumOperation]
    split_ifs
    · exact ⟨hpeers, Or.inl ⟨rfl, trivial⟩⟩
    · exact ⟨hpeers, Or.inl ⟨rfl, trivial⟩⟩
    · exact ⟨hpeers, Or.inr (Or.inl ⟨_, ⟨hpeers, rfl, rfl⟩, rfl, trivial, rfl⟩)⟩
  | quorumOperationComplete quorumOpId =>
    simp only [replicationStep, consensusQuorumOperationComplete]
    split_ifs with hzero hany
    · exact ⟨hpeers, Or.inl ⟨rfl, fun _ hnonzero ↦ absurd hzero hnonzero⟩⟩
    · exact ⟨hpeers, Or.inr (Or.inr ⟨quorumOpId, rfl, hzero, rfl⟩)⟩
    · refine ⟨hpeers, Or.inl ⟨rfl, fun operation _ hfind ↦ absurd ?_ hany⟩⟩
      have hmem := List.mem_of_find?_eq_some hfind
      have htest := List.find?_some hfind
      exact List.any_eq_true.mpr ⟨operation, hmem, htest⟩

/-- Every call keeps the operations as they were created. -/
theorem quorumTable_step (htable : QuorumTable engine) (call : ReplicationCall) :
    QuorumTable (replicationStep engine call) := by
  obtain ⟨hpeers, ⟨hsame, -⟩ | ⟨new, hnew, -, -, hadded⟩ | ⟨quorumOpId, -, -, hcompleted⟩⟩ :=
    replicationStep_quorumOps htable.peers call
  · exact ⟨hpeers, hsame ▸ htable.created⟩
  · refine ⟨hpeers, fun operation hoperation ↦ ?_⟩
    rw [hadded, List.mem_append, List.mem_singleton] at hoperation
    rcases hoperation with hold | rfl
    · exact htable.created operation hold
    · exact hnew
  · refine ⟨hpeers, ?_⟩
    rw [hcompleted, forall_mem_updateFirst_iff htable.created]
    intro operation hfind
    have hcreated := htable.created operation (List.mem_of_find?_eq_some hfind)
    exact ⟨hcreated.peers, hcreated.commits, hcreated.required⟩

/-- A call from a sound engine leads to a sound engine exactly when it completes no operation that
was created with peers. -/
theorem quorumSound_step_iff (htable : QuorumTable engine) (hsound : QuorumSound engine) :
    QuorumSound (replicationStep engine call) ↔ CompletesAlone engine call := by
  obtain ⟨-, ⟨hsame, halone⟩ | ⟨new, -, hopen, halone, hadded⟩ |
    ⟨quorumOpId, rfl, hnonzero, hcompleted⟩⟩ := replicationStep_quorumOps htable.peers call
  · rw [QuorumSound, hsame]
    exact iff_of_true hsound halone
  · refine iff_of_true (fun operation hoperation hcommitted ↦ ?_) halone
    rw [hadded, List.mem_append, List.mem_singleton] at hoperation
    rcases hoperation with hold | rfl
    · exact hsound operation hold hcommitted
    · rw [hopen] at hcommitted
      cases hcommitted
  · rw [QuorumSound, hcompleted, forall_mem_updateFirst_iff hsound]
    refine forall_congr' fun operation ↦ ?_
    constructor
    · intro hreached _ hfind
      have hcreated := htable.created operation (List.mem_of_find?_eq_some hfind)
      obtain ⟨henough, hmajority⟩ := hreached hfind rfl
      exact hcreated.reached_iff.mp ⟨henough, hmajority⟩
    · intro halone hfind _
      have hcreated := htable.created operation (List.mem_of_find?_eq_some hfind)
      obtain ⟨henough, hmajority⟩ := hcreated.reached_iff.mpr (halone hnonzero hfind)
      exact ⟨henough, hmajority⟩

/-! ### Runs -/

/-- In a run of a fresh engine every committed quorum operation has reached its quorum, exactly when
every operation that is completed was created while the engine had no peers. -/
theorem quorumSound_iff (nodeId : UInt32) (calls : List ReplicationCall) :
    AlongRun replicationStep QuorumSound (replicationEngineInit nodeId) calls ↔
      EveryStep replicationStep CompletesAlone (replicationEngineInit nodeId) calls := by
  refine alongRun_iff_everyStep QuorumTable (fun _ _ ↦ True)
    (fun _ call htable _ ↦ quorumTable_step htable call)
    (fun _ _ htable _ hsound ↦ quorumSound_step_iff htable hsound) ⟨Nat.zero_le _, ?_⟩ ?_
    (fun _ _ _ ↦ trivial)
  · simp [replicationEngineInit]
  · simp [QuorumSound, replicationEngineInit]

/-- A leader with two peers creates a quorum operation, and it is completed with one commit of the
two that it requires. -/
theorem quorumSound_two_peers :
    ¬ AlongRun replicationStep QuorumSound (replicationEngineInit 1)
      [.addPeer 2 2, .addPeer 3 3, .becomeLeader, .createQuorumOperation .append,
        .quorumOperationComplete 1] := by
  intro halong
  have hsound := halong _ (List.prefix_refl _)
  have hreached := hsound _ List.mem_cons_self rfl
  exact absurd hreached.enough (by decide)

end OneOS.Clustering.Consensus
