import OneOS.Distributed.ConsensusNode
import OneOS.Foundation.Quorum

/-!
# The votes of a distributed consensus node

A node should vote for one candidate in a term. A vote request of
`distributed-systems/distributed_consensus.c` does not name its candidate, and
`consensus_request_vote_handler`, which grants a vote to a node that has not voted or has voted for
this candidate, compares `voted_for` with the id of the voter and writes that id as well. So every
candidate whose log is up to date gets the vote.

The sender of a request is not part of the program; `Delivery` names it, and `VotingNode` records
for whom the votes were. `oneVotePerTerm_iff` says when the record is as it should be: exactly when
no candidate with an up to date log asks in the current term after the node has voted for another
one. A new term, whether heard of or started by the node itself, does no harm as long as the term
does not wrap.
-/

set_option autoImplicit false
set_option relaxedAutoImplicit false

namespace OneOS.Distributed.Consensus

open Foundation

/-! ### Votes on record -/

/-- A step with the id of the node that a request comes from. -/
structure Delivery where
  sender : UInt32
  step : NodeStep
  deriving DecidableEq, Repr

/-- A node and the votes it has cast. -/
structure VotingNode where
  node : ConsensusNode
  votes : Finset (Vote UInt32 UInt64 UInt32)

/-- The record of a node in any state: a candidate has voted for itself. -/
def votingStart (node : ConsensusNode) : VotingNode where
  node := node
  votes := if node.state = .candidate then {⟨node.nodeId, node.currentTerm, node.nodeId⟩} else ∅

/-- The vote that a step casts: a response that grants one casts it for the sender, and an election
for the node itself. -/
def castVote (node : ConsensusNode) (delivery : Delivery) : Option (Vote UInt32 UInt64 UInt32) :=
  match delivery.step with
  | .requestVote request =>
    if (consensusRequestVoteHandler node request).2.1.voteGranted = true then
      some ⟨node.nodeId, request.term, delivery.sender⟩
    else none
  | .startElection =>
    some ⟨node.nodeId, (consensusStartElection node).currentTerm, node.nodeId⟩
  | _ => none

/-- The node after a step, with the vote that the step casts on record. -/
def votingStep (state : VotingNode) (delivery : Delivery) : VotingNode where
  node := nodeStep state.node delivery.step
  votes := match castVote state.node delivery with
    | some vote => insert vote state.votes
    | none => state.votes

/-- The condition on a step: when a vote request of the current term finds the node's own id or
nothing in `voted_for` and has an up to date log, the votes of this term are for its sender. -/
def Uncontested (state : VotingNode) (delivery : Delivery) : Prop :=
  match delivery.step with
  | .requestVote request =>
    request.term = state.node.currentTerm → state.node.logSize ≤ request.lastLogIndex →
      state.node.votedFor = 0 ∨ state.node.votedFor = state.node.nodeId →
        ∀ vote ∈ state.votes, vote.term = state.node.currentTerm → vote.candidate = delivery.sender
  | _ => True

variable {state : VotingNode} {delivery : Delivery}

/-! ### What one step records -/

/-- The recorded votes are those of the node, in terms that it has reached. -/
def VotesReached (state : VotingNode) : Prop :=
  ∀ vote ∈ state.votes, vote.voter = state.node.nodeId ∧ vote.term ≤ state.node.currentTerm

/-- A vote is granted when the term of the request is not older, the log of the request is up to
date, and `voted_for` does not stand in the way, which a newer term clears. -/
theorem voteGranted_iff (node : ConsensusNode) (request : RequestVoteRequest) :
    (consensusRequestVoteHandler node request).2.1.voteGranted = true ↔
      node.currentTerm ≤ request.term ∧ node.logSize ≤ request.lastLogIndex ∧
        (request.term = node.currentTerm → node.votedFor = 0 ∨ node.votedFor = node.nodeId) := by
  by_cases hnewer : node.currentTerm < request.term
  · have hadopted : node.adoptTerm request.term = consensusBecomeFollower node request.term :=
      if_pos hnewer
    have hother : request.term ≠ node.currentTerm := (UInt64.ne_of_lt hnewer).symm
    by_cases hlog : node.logSize ≤ request.lastLogIndex
    · simp [consensusRequestVoteHandler, hadopted, consensusBecomeFollower, hother, hlog,
        UInt64.le_of_lt hnewer]
    · simp [consensusRequestVoteHandler, hadopted, consensusBecomeFollower, hlog]
  · have hadopted : node.adoptTerm request.term = node := if_neg hnewer
    simp only [consensusRequestVoteHandler, hadopted]
    split_ifs with hstale hgrant
    · simp [hstale]
    · simp [hgrant, UInt64.not_lt.mp hstale]
    · have hterm : request.term = node.currentTerm :=
        UInt64.le_antisymm (UInt64.not_lt.mp hnewer) (UInt64.not_lt.mp hstale)
      rw [false_iff]
      rintro ⟨-, hlog, hfree⟩
      exact hgrant ⟨hfree hterm, hlog⟩

/-- A vote that a step casts is the node's own, in the term that the node then has. -/
theorem castVote_reached {node : ConsensusNode} {vote : Vote UInt32 UInt64 UInt32}
    (hcast : castVote node delivery = some vote) :
    vote.voter = node.nodeId ∧ vote.term = (nodeStep node delivery.step).currentTerm := by
  obtain ⟨sender, step⟩ := delivery
  cases step with
  | requestVote request =>
    by_cases hgranted : (consensusRequestVoteHandler node request).2.1.voteGranted = true
    · have hterm := currentTerm_adoptTerm ((voteGranted_iff node request).mp hgranted).1
      simp only [castVote, if_pos hgranted] at hcast
      cases hcast
      refine ⟨rfl, ?_⟩
      simp only [nodeStep, consensusRequestVoteHandler]
      split_ifs
      · exact hterm.symm
      · exact hterm.symm
      · exact hterm.symm
    · simp only [castVote, if_neg hgranted] at hcast
      cases hcast
  | startElection =>
    cases hcast
    exact ⟨rfl, rfl⟩
  | _ => cases hcast

/-- Assumes: the term does not wrap. -/
theorem votesReached_step (hreached : VotesReached state)
    (hkept : TermKept state.node delivery.step) : VotesReached (votingStep state delivery) := by
  obtain ⟨hid, hterm⟩ := nodeStep_term hkept
  have hold : ∀ vote ∈ state.votes, vote.voter = (votingStep state delivery).node.nodeId ∧
      vote.term ≤ (votingStep state delivery).node.currentTerm := by
    intro vote hvote
    obtain ⟨hvoter, hvoteTerm⟩ := hreached vote hvote
    exact ⟨hvoter.trans hid.symm, UInt64.le_trans hvoteTerm hterm⟩
  intro vote hvote
  cases hcast : castVote state.node delivery with
  | none =>
    simp only [votingStep, hcast] at hvote
    exact hold vote hvote
  | some new =>
    simp only [votingStep, hcast] at hvote
    rcases Finset.mem_insert.mp hvote with rfl | hvote
    · obtain ⟨hvoter, hnewTerm⟩ := castVote_reached hcast
      exact ⟨hvoter.trans hid.symm, UInt64.le_of_eq hnewTerm⟩
    · exact hold vote hvote

/-- Assumes: the term does not wrap. A step from a record with one vote in every term leads to such
a record exactly when it is not contested. -/
theorem oneVotePerTerm_step_iff (hreached : VotesReached state)
    (hkept : TermKept state.node delivery.step) (honce : OneVotePerTerm state.votes) :
    OneVotePerTerm (votingStep state delivery).votes ↔ Uncontested state delivery := by
  obtain ⟨sender, step⟩ := delivery
  cases step with
  | appendEntries request => exact iff_of_true honce trivial
  | requestVote request =>
    have hgrants := voteGranted_iff state.node request
    by_cases hgranted : (consensusRequestVoteHandler state.node request).2.1.voteGranted = true
    · obtain ⟨hnotOlder, -, -⟩ := hgrants.mp hgranted
      simp only [votingStep, castVote, if_pos hgranted]
      constructor
      · intro hafter hterm _ _ vote hvote hvoteTerm
        exact hafter vote (Finset.mem_insert_of_mem hvote) _ (Finset.mem_insert_self _ _)
          (hreached vote hvote).1 (hvoteTerm.trans hterm.symm)
      · intro huncontested
        refine honce.insert fun old hold _ hsame ↦ ?_
        have hsame : old.term = request.term := hsame
        have hterm : request.term = state.node.currentTerm :=
          UInt64.le_antisymm (hsame ▸ (hreached old hold).2) hnotOlder
        obtain ⟨-, hlog, hfree⟩ := hgrants.mp hgranted
        exact huncontested hterm hlog (hfree hterm) old hold (hsame.trans hterm)
    · simp only [votingStep, castVote, if_neg hgranted]
      refine iff_of_true honce fun hterm hlog hfree ↦ absurd ?_ hgranted
      exact hgrants.mpr ⟨UInt64.le_of_eq hterm.symm, hlog, fun _ ↦ hfree⟩
  | startElection =>
    refine iff_of_true (honce.insert fun old hold _ hsame ↦ ?_) trivial
    -- the term of the election is newer than every term on record
    have hterm := toNat_currentTerm_startElection (hkept rfl)
    have hle := UInt64.le_iff_toNat_le.mp (hreached old hold).2
    have heq := congrArg UInt64.toNat hsame
    simp only at heq
    omega
  | becomeLeader => exact iff_of_true honce trivial
  | appendEntry => exact iff_of_true honce trivial

/-! ### Runs -/

/-- Assumes: no election wraps the term. A node casts at most one vote in every term, from any state
and for every sequence of steps, exactly when no step is contested. -/
theorem oneVotePerTerm_iff (node : ConsensusNode) (deliveries : List Delivery)
    (hkept : EveryStep votingStep (fun state delivery ↦ TermKept state.node delivery.step)
      (votingStart node) deliveries) :
    AlongRun votingStep (fun state ↦ OneVotePerTerm state.votes) (votingStart node) deliveries ↔
      EveryStep votingStep Uncontested (votingStart node) deliveries := by
  refine alongRun_iff_everyStep VotesReached
    (fun state delivery ↦ TermKept state.node delivery.step)
    (fun _ _ hreached hstep ↦ votesReached_step hreached hstep)
    (fun _ _ hreached hstep honce ↦ oneVotePerTerm_step_iff hreached hstep honce) ?_ ?_ hkept
  · intro vote hvote
    simp only [votingStart] at hvote ⊢
    split_ifs at hvote
    · rw [Finset.mem_singleton] at hvote
      rw [hvote]
      exact ⟨rfl, UInt64.le_refl _⟩
    · simp at hvote
  · intro first hfirst second hsecond _ _
    simp only [votingStart] at hfirst hsecond
    split_ifs at hfirst hsecond
    · rw [Finset.mem_singleton] at hfirst hsecond
      rw [hfirst, hsecond]
    · simp at hfirst

/-- Node 1 votes for node 2, is asked by node 2 again, and starts an election in the next term. -/
theorem oneVotePerTerm_iff_repeated :
    AlongRun votingStep (fun state ↦ OneVotePerTerm state.votes) (votingStart (consensusNodeInit 1))
      [⟨2, .requestVote ⟨1, 0, 0⟩⟩, ⟨2, .requestVote ⟨1, 0, 0⟩⟩, ⟨1, .startElection⟩] := by
  refine (oneVotePerTerm_iff (consensusNodeInit 1) _ ?_).mpr ?_
  · simp only [everyStep_cons, everyStep_nil, and_true, TermKept]
    decide
  · simp only [everyStep_cons, everyStep_nil, and_true]
    refine ⟨fun _ _ _ ↦ ?_, fun _ _ _ ↦ ?_, trivial⟩
    · decide
    · decide

/-- Node 1 votes for nodes 2 and 3 in term 1. -/
theorem oneVotePerTerm_two_candidates :
    ¬ AlongRun votingStep (fun state ↦ OneVotePerTerm state.votes)
      (votingStart (consensusNodeInit 1))
      [⟨2, .requestVote ⟨1, 0, 0⟩⟩, ⟨3, .requestVote ⟨1, 0, 0⟩⟩] := by
  intro halong
  have honce := halong _ (List.prefix_refl _)
  have hsame := honce ⟨1, 1, 2⟩ (by decide) ⟨1, 1, 3⟩ (by decide) rfl rfl
  revert hsame
  decide

end OneOS.Distributed.Consensus
