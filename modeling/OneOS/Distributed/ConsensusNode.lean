import Mathlib.Algebra.Group.Nat.Defs
import OneOS.Foundation.Runs

/-!
# The distributed consensus node

A node of `distributed-systems/distributed_consensus.c` with the handlers of the two requests that
reach it from the network, elections and appends. Of the log the node keeps only its size: the
source never stores an entry. The address of a node, its time out and `last_applied`, which nothing
changes, are left out, and so are the checks of the pointers that the calls are given.

Whatever the requests contain, `current_term`, `commit_index` and `log_size` never fall, and the
commit index stays within the log and the log within its bound (`nodeStep_monotone`).

Requests may be delivered twice, and `prev_log_index` is there to say where their entries belong.
The handler compares it with the size of the log and then appends after the last entry all the same,
so a request that is delivered again appends again. `redeliverySafe_iff` lists the requests that do
no harm.
-/

set_option autoImplicit false
set_option relaxedAutoImplicit false

namespace OneOS.Distributed.Consensus

open Foundation

/-! ### A node -/

/-- `MAX_LOG_ENTRIES`. -/
def maxLogEntries : UInt64 := 10000

/-- `ConsensusState`. -/
inductive ConsensusState
  | follower
  | candidate
  | leader
  | dead
  deriving DecidableEq, Repr

/-- `ConsensusNode`. The two arrays of a leader are lists, empty while they are not allocated. -/
structure ConsensusNode where
  nodeId : UInt32
  currentTerm : UInt64
  votedFor : UInt32
  logSize : UInt64
  commitIndex : UInt64
  nextIndex : List UInt64
  matchIndex : List UInt64
  state : ConsensusState
  lastHeartbeat : UInt32
  deriving DecidableEq, Repr

/-- A node as `consensus_manager_init` and `consensus_add_node` set it up. The term of the manager,
which the second one copies, is always 0. -/
def consensusNodeInit (nodeId : UInt32) : ConsensusNode where
  nodeId := nodeId
  currentTerm := 0
  votedFor := 0
  logSize := 0
  commitIndex := 0
  nextIndex := []
  matchIndex := []
  state := .follower
  lastHeartbeat := 0

/-- `consensus_become_follower`. -/
def consensusBecomeFollower (node : ConsensusNode) (term : UInt64) : ConsensusNode :=
  { node with state := .follower, currentTerm := term, votedFor := 0 }

/-- `consensus_become_candidate`. -/
def consensusBecomeCandidate (node : ConsensusNode) : ConsensusNode :=
  { node with
    state := .candidate
    currentTerm := node.currentTerm + 1
    votedFor := node.nodeId }

/-- `consensus_become_leader`. -/
def consensusBecomeLeader (node : ConsensusNode) : ConsensusNode :=
  { node with
    state := .leader
    nextIndex := List.replicate 256 (node.logSize + 1)
    matchIndex := List.replicate 256 0 }

/-- `consensus_start_election`. -/
def consensusStartElection (node : ConsensusNode) : ConsensusNode :=
  consensusBecomeCandidate node

/-- `consensus_append_entry`. The entry is not read. -/
def consensusAppendEntry (node : ConsensusNode) : ConsensusNode × Int :=
  if maxLogEntries ≤ node.logSize then (node, -1)
  else ({ node with logSize := node.logSize + 1 }, 0)

/-- What both handlers do first: a newer term makes the node a follower in that term. -/
def ConsensusNode.adoptTerm (node : ConsensusNode) (term : UInt64) : ConsensusNode :=
  if node.currentTerm < term then consensusBecomeFollower node term else node

/-! ### Append entries -/

/-- `AppendEntriesRequest`, without the entries, which are not read. -/
structure AppendEntriesRequest where
  term : UInt64
  leaderId : UInt32
  prevLogIndex : UInt64
  prevLogTerm : UInt64
  leaderCommit : UInt64
  entryCount : UInt64
  deriving DecidableEq, Repr

/-- `AppendEntriesResponse`. -/
structure AppendEntriesResponse where
  term : UInt64
  success : Bool
  matchIndex : UInt64
  deriving DecidableEq, Repr

/-- The loop over the entries of a request: the log grows by one for every entry while there is
room. -/
def appendLoop : ℕ → UInt64 → UInt64
  | 0, logSize => logSize
  | entries + 1, logSize =>
    appendLoop entries (if logSize < maxLogEntries then logSize + 1 else logSize)

/-- The commit index after a request: a higher one of the leader is taken over as far as the log
goes. -/
def commitUpTo (commitIndex leaderCommit logSize : UInt64) : UInt64 :=
  if commitIndex < leaderCommit then (if leaderCommit < logSize then leaderCommit else logSize)
  else commitIndex

/-- The node after the entries of a request have been appended. -/
def ConsensusNode.appendEntries (node : ConsensusNode) (request : AppendEntriesRequest) :
    ConsensusNode :=
  let logSize := appendLoop request.entryCount.toNat node.logSize
  { node with
    logSize := logSize
    commitIndex := commitUpTo node.commitIndex request.leaderCommit logSize
    lastHeartbeat := 0 }

/-- `consensus_append_entries_handler`. -/
def consensusAppendEntriesHandler (node : ConsensusNode) (request : AppendEntriesRequest) :
    ConsensusNode × AppendEntriesResponse × Int :=
  let adopted := node.adoptTerm request.term
  if request.term < adopted.currentTerm then (adopted, ⟨node.currentTerm, false, 0⟩, -1)
  else if 0 < request.prevLogIndex ∧ adopted.logSize < request.prevLogIndex then
    ({ adopted with lastHeartbeat := 0 }, ⟨node.currentTerm, false, adopted.logSize⟩, 0)
  else
    let next := adopted.appendEntries request
    (next, ⟨node.currentTerm, true, next.logSize⟩, 0)

/-! ### Request vote -/

/-- `RequestVoteRequest`. It does not say who the candidate is. -/
structure RequestVoteRequest where
  term : UInt64
  lastLogIndex : UInt64
  lastLogTerm : UInt64
  deriving DecidableEq, Repr

/-- `RequestVoteResponse`. -/
structure RequestVoteResponse where
  term : UInt64
  voteGranted : Bool
  deriving DecidableEq, Repr

/-- The term of the response to a vote request: that of the node, or a newer one of the request. -/
def ConsensusNode.responseTerm (node : ConsensusNode) (request : RequestVoteRequest) : UInt64 :=
  if node.currentTerm < request.term then request.term else node.currentTerm

/-- `consensus_request_vote_handler`. -/
def consensusRequestVoteHandler (node : ConsensusNode) (request : RequestVoteRequest) :
    ConsensusNode × RequestVoteResponse × Int :=
  let adopted := node.adoptTerm request.term
  if request.term < adopted.currentTerm then (adopted, ⟨node.responseTerm request, false⟩, 0)
  else if (adopted.votedFor = 0 ∨ adopted.votedFor = adopted.nodeId) ∧
      adopted.logSize ≤ request.lastLogIndex then
    ({ adopted with votedFor := adopted.nodeId }, ⟨node.responseTerm request, true⟩, 0)
  else (adopted, ⟨node.responseTerm request, false⟩, 0)

/-! ### Steps -/

/-- What can happen at a node. -/
inductive NodeStep
  | appendEntries (request : AppendEntriesRequest)
  | requestVote (request : RequestVoteRequest)
  | startElection
  | becomeLeader
  | appendEntry
  deriving DecidableEq, Repr

/-- The node after a step. -/
def nodeStep (node : ConsensusNode) : NodeStep → ConsensusNode
  | .appendEntries request => (consensusAppendEntriesHandler node request).1
  | .requestVote request => (consensusRequestVoteHandler node request).1
  | .startElection => consensusStartElection node
  | .becomeLeader => consensusBecomeLeader node
  | .appendEntry => (consensusAppendEntry node).1

/-- An election does not wrap the term. -/
def TermKept (node : ConsensusNode) (step : NodeStep) : Prop :=
  step = .startElection → node.currentTerm.toNat + 1 < 2 ^ 64

variable {node : ConsensusNode}

/-! ### The loop over the entries -/

/-- Assumes: there is room in the log. -/
theorem toNat_logSize_succ {logSize : UInt64} (hroom : logSize < maxLogEntries) :
    (logSize + 1).toNat = logSize.toNat + 1 := by
  have hbound : logSize.toNat < 10000 := UInt64.lt_iff_toNat_lt.mp hroom
  rw [UInt64.toNat_add, UInt64.toNat_one, Nat.mod_eq_of_lt (by omega)]

/-- The loop appends all entries that there is room for. -/
theorem toNat_appendLoop (entries : ℕ) (logSize : UInt64) :
    (appendLoop entries logSize).toNat =
      max logSize.toNat (min 10000 (logSize.toNat + entries)) := by
  induction entries generalizing logSize with
  | zero =>
    show logSize.toNat = _
    omega
  | succ entries ih =>
    rw [appendLoop, ih]
    split_ifs with hroom
    · have hbound : logSize.toNat < 10000 := UInt64.lt_iff_toNat_lt.mp hroom
      rw [toNat_logSize_succ hroom]
      omega
    · have hfull : 10000 ≤ logSize.toNat := UInt64.le_iff_toNat_le.mp (UInt64.not_lt.mp hroom)
      omega

theorem toNat_logSize_appendEntries (node : ConsensusNode) (request : AppendEntriesRequest) :
    (node.appendEntries request).logSize.toNat = max node.logSize.toNat
      (min 10000 (node.logSize.toNat + request.entryCount.toNat)) :=
  toNat_appendLoop request.entryCount.toNat node.logSize

/-- A higher commit index of the leader is cut off at the size that the log then has. -/
theorem toNat_commitIndex_appendEntries (node : ConsensusNode) (request : AppendEntriesRequest) :
    (node.appendEntries request).commitIndex.toNat =
      if node.commitIndex.toNat < request.leaderCommit.toNat then
        min request.leaderCommit.toNat (node.appendEntries request).logSize.toNat
      else node.commitIndex.toNat := by
  simp only [ConsensusNode.appendEntries, commitUpTo, UInt64.lt_iff_toNat_lt]
  split_ifs with hhigher hwithin
  · exact (Nat.min_eq_left hwithin.le).symm
  · exact (Nat.min_eq_right (Nat.le_of_not_lt hwithin)).symm
  · rfl

/-! ### What one step does -/

/-- The commit index is within the log and the log within its bound. -/
def Bounded (node : ConsensusNode) : Prop :=
  node.commitIndex.toNat ≤ node.logSize.toNat ∧ node.logSize.toNat ≤ 10000

/-- Neither index falls, and the bounds hold afterwards. -/
structure Grows (node next : ConsensusNode) : Prop where
  commit : node.commitIndex.toNat ≤ next.commitIndex.toNat
  log : node.logSize.toNat ≤ next.logSize.toNat
  bounded : Bounded next

theorem Grows.refl (hbounded : Bounded node) : Grows node node :=
  ⟨le_refl _, le_refl _, hbounded⟩

theorem grows_appendEntries (hbounded : Bounded node) (request : AppendEntriesRequest) :
    Grows node (node.appendEntries request) := by
  obtain ⟨hcommit, hlog⟩ := hbounded
  have hsize := toNat_logSize_appendEntries node request
  have hindex := toNat_commitIndex_appendEntries node request
  refine ⟨?_, ?_, ?_, ?_⟩
  · rw [hindex]
    split_ifs
    · omega
    · exact le_refl _
  · omega
  · rw [hindex]
    split_ifs
    · exact Nat.min_le_right _ _
    · omega
  · omega

/-- Taking over a term leaves the node its id and its log, and the term does not fall. -/
theorem adoptTerm_keeps (node : ConsensusNode) (term : UInt64) :
    (node.adoptTerm term).nodeId = node.nodeId ∧ (node.adoptTerm term).logSize = node.logSize ∧
      (node.adoptTerm term).commitIndex = node.commitIndex ∧
      node.currentTerm ≤ (node.adoptTerm term).currentTerm := by
  unfold ConsensusNode.adoptTerm
  split_ifs with hnewer
  · exact ⟨rfl, rfl, rfl, UInt64.le_of_lt hnewer⟩
  · exact ⟨rfl, rfl, rfl, UInt64.le_refl _⟩

theorem grows_adoptTerm (hbounded : Bounded node) (term : UInt64) :
    Grows node (node.adoptTerm term) := by
  obtain ⟨-, hlog, hcommit, -⟩ := adoptTerm_keeps node term
  refine ⟨hcommit ▸ le_refl _, hlog ▸ le_refl _, ?_⟩
  rw [Bounded, hlog, hcommit]
  exact hbounded

theorem grows_nodeStep (hbounded : Bounded node) (step : NodeStep) :
    Grows node (nodeStep node step) := by
  cases step with
  | appendEntries request =>
    have hadopted := grows_adoptTerm hbounded request.term
    simp only [nodeStep, consensusAppendEntriesHandler]
    split_ifs
    · exact hadopted
    · exact ⟨hadopted.commit, hadopted.log, hadopted.bounded⟩
    · have happended := grows_appendEntries hadopted.bounded request
      exact ⟨hadopted.commit.trans happended.commit, hadopted.log.trans happended.log,
        happended.bounded⟩
  | requestVote request =>
    have hadopted := grows_adoptTerm hbounded request.term
    simp only [nodeStep, consensusRequestVoteHandler]
    split_ifs
    · exact hadopted
    · exact ⟨hadopted.commit, hadopted.log, hadopted.bounded⟩
    · exact hadopted
  | startElection => exact ⟨le_refl _, le_refl _, hbounded⟩
  | becomeLeader => exact ⟨le_refl _, le_refl _, hbounded⟩
  | appendEntry =>
    rw [nodeStep, consensusAppendEntry]
    split_ifs with hfull
    · exact Grows.refl hbounded
    · have hroom := UInt64.not_le.mp hfull
      have hbound : node.logSize.toNat < 10000 := UInt64.lt_iff_toNat_lt.mp hroom
      have hsize := toNat_logSize_succ hroom
      refine ⟨le_refl _, hsize ▸ Nat.le_succ _, ?_, ?_⟩
      · exact hsize ▸ Nat.le_succ_of_le hbounded.1
      · exact hsize ▸ hbound

/-- Assumes: the term does not wrap. -/
theorem toNat_currentTerm_startElection (hterm : node.currentTerm.toNat + 1 < 2 ^ 64) :
    (consensusStartElection node).currentTerm.toNat = node.currentTerm.toNat + 1 := by
  show (node.currentTerm + 1).toNat = _
  rw [UInt64.toNat_add, UInt64.toNat_one, Nat.mod_eq_of_lt hterm]

/-- Assumes: the term does not wrap. A step leaves the node its id, and the term does not fall. -/
theorem nodeStep_term {step : NodeStep} (hkept : TermKept node step) :
    (nodeStep node step).nodeId = node.nodeId ∧
      node.currentTerm ≤ (nodeStep node step).currentTerm := by
  cases step with
  | appendEntries request =>
    obtain ⟨hid, -, -, hterm⟩ := adoptTerm_keeps node request.term
    simp only [nodeStep, consensusAppendEntriesHandler]
    split_ifs
    · exact ⟨hid, hterm⟩
    · exact ⟨hid, hterm⟩
    · exact ⟨hid, hterm⟩
  | requestVote request =>
    obtain ⟨hid, -, -, hterm⟩ := adoptTerm_keeps node request.term
    simp only [nodeStep, consensusRequestVoteHandler]
    split_ifs
    · exact ⟨hid, hterm⟩
    · exact ⟨hid, hterm⟩
    · exact ⟨hid, hterm⟩
  | startElection =>
    refine ⟨rfl, UInt64.le_iff_toNat_le.mpr ?_⟩
    rw [nodeStep, toNat_currentTerm_startElection (hkept rfl)]
    exact Nat.le_succ _
  | becomeLeader => exact ⟨rfl, UInt64.le_refl _⟩
  | appendEntry =>
    rw [nodeStep, consensusAppendEntry]
    split_ifs
    · exact ⟨rfl, UInt64.le_refl _⟩
    · exact ⟨rfl, UInt64.le_refl _⟩

/-! ### Runs -/

/-- Assumes: no election wraps the term. In every run of a fresh node the term, the commit index and
the size of the log never fall, and the commit index is within the log and the log within its
bound. -/
theorem nodeStep_monotone (nodeId : UInt32) (steps : List NodeStep)
    (hkept : EveryStep nodeStep TermKept (consensusNodeInit nodeId) steps) :
    AlongRun nodeStep (fun node ↦ node.commitIndex.toNat ≤ node.logSize.toNat ∧
      node.logSize.toNat ≤ 10000) (consensusNodeInit nodeId) steps ∧
    NeverFalls nodeStep (fun node ↦ node.currentTerm.toNat) (consensusNodeInit nodeId) steps ∧
    NeverFalls nodeStep (fun node ↦ node.commitIndex.toNat) (consensusNodeInit nodeId) steps ∧
    NeverFalls nodeStep (fun node ↦ node.logSize.toNat) (consensusNodeInit nodeId) steps := by
  have hbounded : AlongRun nodeStep Bounded (consensusNodeInit nodeId) steps :=
    alongRun_invariant Bounded TermKept
      (fun _ step hbefore _ ↦ (grows_nodeStep hbefore step).bounded)
      ⟨le_refl _, Nat.zero_le _⟩ hkept
  have hgrows : EveryStep nodeStep (fun node step ↦ Grows node (nodeStep node step))
      (consensusNodeInit nodeId) steps := by
    intro taken step htaken
    have hbefore := hbounded taken ((List.prefix_append taken [step]).trans htaken)
    exact grows_nodeStep hbefore step
  refine ⟨hbounded, ?_, ?_, ?_⟩
  · apply neverFalls_iff_everyStep.mpr
    intro taken step htaken
    exact UInt64.le_iff_toNat_le.mp (nodeStep_term (hkept taken step htaken)).2
  · exact neverFalls_iff_everyStep.mpr fun taken step htaken ↦ (hgrows taken step htaken).commit
  · exact neverFalls_iff_everyStep.mpr fun taken step htaken ↦ (hgrows taken step htaken).log

/-- Three entries with a commit index beyond them, an election in the term reached, and a stale
request. -/
theorem nodeStep_monotone_stale :
    (runFrom nodeStep (consensusNodeInit 1) [.appendEntries ⟨5, 2, 0, 0, 99, 3⟩, .startElection,
      .requestVote ⟨3, 0, 0⟩]).currentTerm = 6 ∧
    AlongRun nodeStep (fun node ↦ node.commitIndex.toNat ≤ node.logSize.toNat ∧
      node.logSize.toNat ≤ 10000) (consensusNodeInit 1)
      [.appendEntries ⟨5, 2, 0, 0, 99, 3⟩, .startElection, .requestVote ⟨3, 0, 0⟩] := by
  refine ⟨by decide, (nodeStep_monotone 1 _ ?_).1⟩
  simp only [everyStep_cons, everyStep_nil, and_true, TermKept]
  decide

/-! ### Requests that are delivered twice -/

/-- After a successful delivery the log reaches as far as before or as the request says, whichever
is further, and a second delivery changes neither the node nor the answer. -/
def RedeliverySafe (node : ConsensusNode) (request : AppendEntriesRequest) : Prop :=
  let first := consensusAppendEntriesHandler node request
  let second := consensusAppendEntriesHandler first.1 request
  (first.2.1.success = true →
    first.1.logSize.toNat = max node.logSize.toNat
      (request.prevLogIndex.toNat + request.entryCount.toNat) ∧
    first.2.1.matchIndex.toNat = max node.logSize.toNat
      (request.prevLogIndex.toNat + request.entryCount.toNat)) ∧
  second.1.logSize = first.1.logSize ∧ second.1.commitIndex = first.1.commitIndex ∧
  second.1.currentTerm = first.1.currentTerm ∧ second.2.1.matchIndex = first.2.1.matchIndex

variable {request : AppendEntriesRequest}

/-- A request of an older term is refused. -/
theorem consensusAppendEntriesHandler_of_stale (hstale : request.term < node.currentTerm) :
    consensusAppendEntriesHandler node request = (node, ⟨node.currentTerm, false, 0⟩, -1) := by
  have hadopted : node.adoptTerm request.term = node :=
    if_neg (UInt64.not_lt.mpr (UInt64.le_of_lt hstale))
  simp only [consensusAppendEntriesHandler, hadopted, if_pos hstale]

/-- A term that is not older is the term of the node after it has been taken over. -/
theorem currentTerm_adoptTerm {term : UInt64} (hterm : node.currentTerm ≤ term) :
    (node.adoptTerm term).currentTerm = term := by
  unfold ConsensusNode.adoptTerm
  split_ifs with hnewer
  · rfl
  · exact UInt64.le_antisymm hterm (UInt64.not_lt.mp hnewer)

/-- A request of a term that is not older, with a position within the log, is accepted. -/
theorem consensusAppendEntriesHandler_of_accepted (hterm : node.currentTerm ≤ request.term)
    (hprev : request.prevLogIndex ≤ node.logSize) :
    consensusAppendEntriesHandler node request =
      ((node.adoptTerm request.term).appendEntries request,
        ⟨node.currentTerm, true, ((node.adoptTerm request.term).appendEntries request).logSize⟩,
        0) := by
  have hreached := currentTerm_adoptTerm hterm
  have hlog := (adoptTerm_keeps node request.term).2.1
  have hfresh : ¬ request.term < (node.adoptTerm request.term).currentTerm := by
    rw [hreached]
    exact UInt64.lt_irrefl _
  have hwithin : ¬ (0 < request.prevLogIndex ∧
      (node.adoptTerm request.term).logSize < request.prevLogIndex) :=
    fun hgap ↦ UInt64.not_lt.mpr hprev (hlog ▸ hgap.2)
  simp only [consensusAppendEntriesHandler, if_neg hfresh, if_neg hwithin]

/-- Assumes: the request is of a term that is not older and has a position within the log. A second
delivery appends to the node that the first one has left. -/
theorem redeliverySafe_of_accepted (hterm : node.currentTerm ≤ request.term)
    (hprev : request.prevLogIndex ≤ node.logSize) {first : ConsensusNode}
    (hfirst : first = (node.adoptTerm request.term).appendEntries request) :
    RedeliverySafe node request ↔
      first.logSize.toNat = max node.logSize.toNat
        (request.prevLogIndex.toNat + request.entryCount.toNat) ∧
      (first.appendEntries request).logSize = first.logSize ∧
      (first.appendEntries request).commitIndex = first.commitIndex := by
  have hreached := currentTerm_adoptTerm hterm
  have hlog := (adoptTerm_keeps node request.term).2.1
  have hfirstTerm : first.currentTerm = request.term := hfirst ▸ hreached
  have hfirstPrev : request.prevLogIndex ≤ first.logSize := by
    rw [UInt64.le_iff_toNat_le] at hprev ⊢
    rw [hfirst, toNat_logSize_appendEntries, hlog]
    omega
  have hagain : first.adoptTerm request.term = first :=
    if_neg (hfirstTerm ▸ UInt64.lt_irrefl _)
  have hsecond := consensusAppendEntriesHandler_of_accepted
    (UInt64.le_of_eq hfirstTerm) hfirstPrev
  rw [hagain] at hsecond
  have hfirstTerm' : (first.appendEntries request).currentTerm = first.currentTerm := rfl
  simp only [RedeliverySafe, consensusAppendEntriesHandler_of_accepted hterm hprev, ← hfirst,
    hsecond, hfirstTerm', true_implies, and_self]
  tauto

/-- Assumes: the position of the request is within the log, and the entries after it fit. A request
may be delivered twice exactly when it is refused for its term, has no entries, finds the log full,
or ends exactly where the log must end. -/
theorem redeliverySafe_iff (node : ConsensusNode) (request : AppendEntriesRequest)
    (hprev : request.prevLogIndex ≤ node.logSize)
    (hfits : request.prevLogIndex.toNat + request.entryCount.toNat ≤ 10000) :
    RedeliverySafe node request ↔
      request.term < node.currentTerm ∨ request.entryCount = 0 ∨ maxLogEntries ≤ node.logSize ∨
        request.prevLogIndex.toNat + request.entryCount.toNat = 10000 := by
  by_cases hstale : request.term < node.currentTerm
  · refine iff_of_true ?_ (Or.inl hstale)
    simp [RedeliverySafe, consensusAppendEntriesHandler_of_stale hstale]
  · have hterm := UInt64.not_lt.mp hstale
    have hlog := (adoptTerm_keeps node request.term).2.1
    obtain ⟨first, hfirst⟩ : ∃ first, first = (node.adoptTerm request.term).appendEntries request :=
      ⟨_, rfl⟩
    have hsize : first.logSize.toNat = max node.logSize.toNat
        (min 10000 (node.logSize.toNat + request.entryCount.toNat)) := by
      rw [hfirst, toNat_logSize_appendEntries, hlog]
    have hagain := toNat_logSize_appendEntries first request
    have hindex := toNat_commitIndex_appendEntries (node.adoptTerm request.term) request
    rw [← hfirst] at hindex
    rw [redeliverySafe_of_accepted hterm hprev hfirst, ← UInt64.toNat_inj, ← UInt64.toNat_inj,
      ← UInt64.toNat_inj, UInt64.le_iff_toNat_le, UInt64.toNat_zero,
      toNat_commitIndex_appendEntries first request, or_iff_right hstale]
    rw [UInt64.le_iff_toNat_le] at hprev
    have hmax : maxLogEntries.toNat = 10000 := rfl
    constructor
    · rintro ⟨hreach, hsame, -⟩
      omega
    · intro hharmless
      have hsame : (first.appendEntries request).logSize.toNat = first.logSize.toNat := by omega
      refine ⟨by omega, hsame, ?_⟩
      -- the first delivery has taken over what there is to take over
      rw [hsame]
      split_ifs at hindex ⊢
      · omega
      · omega
      · rfl
      · rfl

/-- Two entries that end exactly where a full log ends are harmless. -/
theorem redeliverySafe_iff_full :
    RedeliverySafe { consensusNodeInit 1 with logSize := 9998 } ⟨1, 2, 9998, 0, 0, 2⟩ :=
  (redeliverySafe_iff _ _ (by decide) (by decide)).mpr (Or.inr (Or.inr (Or.inr (by decide))))

/-- One entry for an empty log, delivered twice, is appended twice. -/
theorem redeliverySafe_empty_log :
    ∃ request : AppendEntriesRequest, request.prevLogIndex ≤ (consensusNodeInit 1).logSize ∧
      request.prevLogIndex.toNat + request.entryCount.toNat ≤ 10000 ∧
        ¬ RedeliverySafe (consensusNodeInit 1) request := by
  refine ⟨⟨1, 2, 0, 0, 0, 1⟩, by decide, by decide, ?_⟩
  rintro ⟨-, hsame, -⟩
  revert hsame
  decide

end OneOS.Distributed.Consensus
