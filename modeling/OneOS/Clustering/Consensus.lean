import Mathlib.Data.Finset.Card
import Mathlib.Data.List.Nodup
import OneOS.Foundation.Quorum
import OneOS.Foundation.Runs

/-!
# The consensus engine

The election part of `clustering-replication/consensus_engine.c`: an engine with its term, its vote
and its count of votes, and a cluster of such engines that list each other as peers. Of the log only
its size is read here. Time outs, the table `votes`, which no operation uses, and the checks of the
engine pointer are left out.

An engine is called directly; what passes between engines are vote requests. `Cluster` keeps the
requests that elections have sent, so that a request can be delivered to any engine at any later
time, any number of times, and records every vote that is cast. The record is not part of the
program: it says what the votes were, where `vote_count` says what an engine made of them.
-/

set_option autoImplicit false
set_option relaxedAutoImplicit false

namespace OneOS.Clustering.Consensus

open Foundation

/-! ### An engine -/

/-- `MAX_CONSENSUS_PEERS`. -/
def maxConsensusPeers : ℕ := 64

/-- `RaftState`. -/
inductive RaftState
  | follower
  | candidate
  | leader
  deriving DecidableEq, Repr

/-- `PeerState`. -/
structure PeerState where
  peerId : UInt32
  nodeId : UInt32
  nextIndex : UInt64
  matchIndex : UInt64
  isActive : Bool
  failedRequestCount : UInt32
  deriving DecidableEq, Repr

/-- `ConsensusEngine`, with the used rows of `peers` as a list. -/
structure ConsensusEngine where
  nodeId : UInt32
  state : RaftState
  currentTerm : UInt32
  votedFor : UInt32
  logSize : UInt64
  peers : List PeerState
  voteCount : UInt32
  totalElections : UInt32
  deriving DecidableEq, Repr

/-- `consensus_engine_init`. -/
def consensusEngineInit (nodeId : UInt32) : ConsensusEngine where
  nodeId := nodeId
  state := .follower
  currentTerm := 0
  votedFor := 0
  logSize := 0
  peers := []
  voteCount := 0
  totalElections := 0

/-- `consensus_add_peer`. -/
def consensusAddPeer (engine : ConsensusEngine) (peerId nodeId : UInt32) : ConsensusEngine × Int :=
  if maxConsensusPeers ≤ engine.peers.length then (engine, -1)
  else
    ({ engine with
      peers := engine.peers ++ [{
        peerId := peerId
        nodeId := nodeId
        nextIndex := engine.logSize + 1
        matchIndex := 0
        isActive := true
        failedRequestCount := 0 }] }, 0)

/-- The first writes of `consensus_request_vote`: a higher term is taken over and the vote is
free again. The state is left as it is. -/
def ConsensusEngine.adoptTerm (engine : ConsensusEngine) (term : UInt32) : ConsensusEngine :=
  if engine.currentTerm < term then { engine with currentTerm := term, votedFor := 0 } else engine

/-- `consensus_request_vote`. -/
def consensusRequestVote (engine : ConsensusEngine) (term candidateId : UInt32) :
    ConsensusEngine × Int :=
  if term = 0 ∨ candidateId = 0 then (engine, -1)
  else
    let engine := engine.adoptTerm term
    if (engine.votedFor = 0 ∨ engine.votedFor = candidateId) ∧ engine.currentTerm ≤ term then
      ({ engine with votedFor := candidateId, voteCount := engine.voteCount + 1 }, 0)
    else (engine, -1)

/-- `consensus_append_entries`. The position in the log that comes with the request is not read. -/
def consensusAppendEntries (engine : ConsensusEngine) (term leaderId : UInt32)
    (_prevLogIndex : UInt64) (_prevLogTerm : UInt32) : ConsensusEngine × Int :=
  if term = 0 ∨ leaderId = 0 then (engine, -1)
  else if engine.currentTerm < term then
    ({ engine with currentTerm := term, votedFor := 0, state := .follower }, 0)
  else (engine, 0)

/-- `consensus_start_election`. -/
def consensusStartElection (engine : ConsensusEngine) : ConsensusEngine × Int :=
  ({ engine with
    currentTerm := engine.currentTerm + 1
    votedFor := engine.nodeId
    state := .candidate
    voteCount := 1
    totalElections := engine.totalElections + 1 }, 0)

/-- `consensus_become_leader`. -/
def consensusBecomeLeader (engine : ConsensusEngine) : ConsensusEngine × Int :=
  ({ engine with
    state := .leader
    peers := engine.peers.map fun peer ↦
      { peer with nextIndex := engine.logSize + 1, matchIndex := 0 } }, 0)

/-- The majority that `consensus_win_election` computes: of the peers and the engine itself. -/
def ConsensusEngine.majority (engine : ConsensusEngine) : ℕ :=
  (engine.peers.length + 1) / 2 + 1

/-- `consensus_win_election`. -/
def consensusWinElection (engine : ConsensusEngine) : ConsensusEngine × Int :=
  if engine.majority ≤ engine.voteCount.toNat then consensusBecomeLeader engine else (engine, -1)

/-! ### A cluster -/

/-- The arguments of a call of `consensus_request_vote` on behalf of a candidate. -/
structure VoteRequest where
  term : UInt32
  candidateId : UInt32
  deriving DecidableEq, Repr

/-- Engines, the vote requests that elections have sent, and a record of the votes cast, in which an
engine is named by its position. -/
structure Cluster where
  engines : List ConsensusEngine
  requests : List VoteRequest
  votes : Finset (Vote ℕ UInt32 UInt32)

/-- An engine that lists the other nodes as its peers. -/
def engineWithPeers (nodeIds : List UInt32) (nodeId : UInt32) : ConsensusEngine :=
  (nodeIds.filter (· ≠ nodeId)).foldl
    (fun engine peer ↦ (consensusAddPeer engine peer peer).1) (consensusEngineInit nodeId)

/-- Freshly initialised engines that list each other as peers. -/
def clusterInit (nodeIds : List UInt32) : Cluster where
  engines := nodeIds.map (engineWithPeers nodeIds)
  requests := []
  votes := ∅

/-- A step of the cluster: one call on the engine at a position. A vote request is named by its
position among those sent. -/
inductive ClusterStep
  | startElection (i : ℕ)
  | requestVote (i request : ℕ)
  | appendEntries (i : ℕ) (term leaderId : UInt32) (prevLogIndex : UInt64) (prevLogTerm : UInt32)
  | winElection (i : ℕ)
  deriving DecidableEq, Repr

/-- The cluster after a step. A step that names no engine or no request changes nothing. -/
def clusterStep (cluster : Cluster) : ClusterStep → Cluster
  | .startElection i =>
    match cluster.engines[i]? with
    | none => cluster
    | some engine =>
      let next := (consensusStartElection engine).1
      { engines := cluster.engines.set i next
        requests := cluster.requests ++ [⟨next.currentTerm, next.nodeId⟩]
        -- the candidate votes for itself
        votes := insert ⟨i, next.currentTerm, next.votedFor⟩ cluster.votes }
  | .requestVote i request =>
    match cluster.engines[i]?, cluster.requests[request]? with
    | some engine, some ⟨term, candidateId⟩ =>
      let answer := consensusRequestVote engine term candidateId
      { cluster with
        engines := cluster.engines.set i answer.1
        votes := if answer.2 = 0 then insert ⟨i, term, candidateId⟩ cluster.votes
          else cluster.votes }
    | _, _ => cluster
  | .appendEntries i term leaderId prevLogIndex prevLogTerm =>
    match cluster.engines[i]? with
    | none => cluster
    | some engine =>
      { cluster with
        engines := cluster.engines.set i
          (consensusAppendEntries engine term leaderId prevLogIndex prevLogTerm).1 }
  | .winElection i =>
    match cluster.engines[i]? with
    | none => cluster
    | some engine =>
      { cluster with engines := cluster.engines.set i (consensusWinElection engine).1 }

end OneOS.Clustering.Consensus
