import OneOS.Clustering.ElectionSafety

/-!
# One vote in a term

An engine casts a vote when `consensus_request_vote` grants one and when `consensus_start_election`
votes for the engine itself. What it remembers of its votes is one field, `voted_for`, which every
higher term clears. `castVotes` lists the votes of a whole sequence of calls, and
`castVotes_one_per_term` shows that no two of them are for different candidates in one term, from
any state of the engine on.

The link between the history and the field is `Holds`: a vote is of a term that the engine has
reached, and while the engine is in that term `voted_for` is its candidate.
-/

set_option autoImplicit false
set_option relaxedAutoImplicit false

namespace OneOS.Clustering.Consensus

open Foundation

/-! ### Calls on an engine -/

/-- A call that takes part in an election. -/
inductive EngineCall
  | requestVote (term candidateId : UInt32)
  | appendEntries (term leaderId : UInt32) (prevLogIndex : UInt64) (prevLogTerm : UInt32)
  | startElection
  | winElection
  deriving DecidableEq, Repr

/-- The engine after a call. -/
def engineStep (engine : ConsensusEngine) : EngineCall → ConsensusEngine
  | .requestVote term candidateId => (consensusRequestVote engine term candidateId).1
  | .appendEntries term leaderId prevLogIndex prevLogTerm =>
    (consensusAppendEntries engine term leaderId prevLogIndex prevLogTerm).1
  | .startElection => (consensusStartElection engine).1
  | .winElection => (consensusWinElection engine).1

/-- The vote that a call casts: a request that is answered with 0 casts one for its candidate, and
an election one for the engine itself. -/
def castVote (engine : ConsensusEngine) : EngineCall → Option (Vote UInt32 UInt32 UInt32)
  | .requestVote term candidateId =>
    if (consensusRequestVote engine term candidateId).2 = 0 then
      some ⟨engine.nodeId, term, candidateId⟩
    else none
  | .appendEntries _ _ _ _ => none
  | .startElection =>
    some ⟨engine.nodeId, (consensusStartElection engine).1.currentTerm, engine.nodeId⟩
  | .winElection => none

/-- The votes that a sequence of calls casts, in order. -/
def castVotes (engine : ConsensusEngine) : List EngineCall → List (Vote UInt32 UInt32 UInt32)
  | [] => []
  | call :: calls => (castVote engine call).toList ++ castVotes (engineStep engine call) calls

/-- An election does not wrap the term. -/
def TermKept (engine : ConsensusEngine) (call : EngineCall) : Prop :=
  call = .startElection → engine.currentTerm.toNat + 1 < 2 ^ 32

variable {engine : ConsensusEngine} {call : EngineCall} {calls : List EngineCall}
variable {vote : Vote UInt32 UInt32 UInt32}

/-! ### Votes that an engine holds -/

/-- The engine has reached the term of the vote, and in that term it is the engine's vote. -/
structure Holds (engine : ConsensusEngine) (vote : Vote UInt32 UInt32 UInt32) : Prop where
  candidate : vote.candidate ≠ 0
  term : vote.term ≤ engine.currentTerm
  voted : vote.term = engine.currentTerm → engine.votedFor = vote.candidate

/-- Assumes: the term does not wrap. -/
theorem advances_engineStep (hkept : TermKept engine call) :
    Advances engine (engineStep engine call) := by
  cases call with
  | requestVote term candidateId => exact advances_consensusRequestVote engine term candidateId
  | appendEntries term leaderId prevLogIndex prevLogTerm =>
    exact advances_consensusAppendEntries engine term leaderId prevLogIndex prevLogTerm
  | startElection => exact advances_consensusStartElection (hkept rfl)
  | winElection => exact advances_consensusWinElection engine

/-- Assumes: the term does not wrap. A node id other than 0 stays so. -/
theorem nodeId_engineStep_ne_zero (hnode : engine.nodeId ≠ 0) (hkept : TermKept engine call) :
    (engineStep engine call).nodeId ≠ 0 := by
  rw [(advances_engineStep hkept).node]
  exact hnode

/-- Assumes: the term does not wrap. -/
theorem Holds.step (hholds : Holds engine vote) (hkept : TermKept engine call) :
    Holds (engineStep engine call) vote := by
  obtain ⟨hterm, hvoted⟩ :=
    (advances_engineStep hkept).held hholds.candidate hholds.term hholds.voted
  exact ⟨hholds.candidate, hterm, hvoted⟩

/-- Assumes: the node id is not 0. A vote that a call casts is in the term that the engine then has,
and the engine holds it. -/
theorem castVote_holds (hnode : engine.nodeId ≠ 0) (hcast : castVote engine call = some vote) :
    vote.term = (engineStep engine call).currentTerm ∧ Holds (engineStep engine call) vote := by
  cases call with
  | requestVote term candidateId =>
    rcases consensusRequestVote_cases engine term candidateId with
      ⟨hrefused, -⟩ | ⟨hanswer, hcandidate, hterm, -, hgranted⟩
    · rw [castVote, if_neg hrefused] at hcast
      cases hcast
    · rw [castVote, if_pos hanswer] at hcast
      cases hcast
      have hreached : (engineStep engine (.requestVote term candidateId)).currentTerm = term := by
        rw [engineStep, hgranted]
        exact hterm
      refine ⟨hreached.symm, hcandidate, UInt32.le_of_eq hreached.symm, fun _ ↦ ?_⟩
      rw [engineStep, hgranted]
  | appendEntries term leaderId prevLogIndex prevLogTerm => cases hcast
  | startElection =>
    cases hcast
    exact ⟨rfl, hnode, UInt32.le_refl _, fun _ ↦ rfl⟩
  | winElection => cases hcast

/-- Assumes: the node id is not 0 and the term does not wrap. A vote that is cast later in the term
of a vote that the engine holds is for the same candidate. -/
theorem Holds.candidate_eq (hnode : engine.nodeId ≠ 0) (hholds : Holds engine vote)
    (hkept : EveryStep engineStep TermKept engine calls) :
    ∀ new ∈ castVotes engine calls, new.term = vote.term → new.candidate = vote.candidate := by
  induction calls generalizing engine with
  | nil => simp [castVotes]
  | cons call calls ih =>
    obtain ⟨hfirst, hrest⟩ := everyStep_cons.mp hkept
    have hnext := hholds.step hfirst
    intro new hnew hterm
    rcases List.mem_append.mp hnew with hcast | hlater
    · obtain ⟨hreached, hnewHolds⟩ := castVote_holds hnode (Option.mem_toList.mp hcast)
      rw [← hnewHolds.voted hreached]
      exact hnext.voted (hterm.symm.trans hreached)
    · exact ih (nodeId_engineStep_ne_zero hnode hfirst) hnext hrest new hlater hterm

/-- Assumes: the node id is not 0 and the term does not wrap. Of the votes that a sequence of calls
casts, two in one term are for the same candidate. -/
theorem castVotes_unique (hnode : engine.nodeId ≠ 0)
    (hkept : EveryStep engineStep TermKept engine calls) :
    ∀ first ∈ castVotes engine calls, ∀ second ∈ castVotes engine calls,
      first.term = second.term → first.candidate = second.candidate := by
  induction calls generalizing engine with
  | nil => simp [castVotes]
  | cons call calls ih =>
    obtain ⟨hfirstKept, hrest⟩ := everyStep_cons.mp hkept
    have hnode' := nodeId_engineStep_ne_zero hnode hfirstKept
    intro first hfirst second hsecond hterm
    rcases List.mem_append.mp hfirst with hfirst | hfirst
    · have hcast := Option.mem_toList.mp hfirst
      rcases List.mem_append.mp hsecond with hsecond | hsecond
      · rw [Option.some.inj (hcast.symm.trans (Option.mem_toList.mp hsecond))]
      · have hholds := (castVote_holds hnode hcast).2
        exact (hholds.candidate_eq hnode' hrest second hsecond hterm.symm).symm
    · rcases List.mem_append.mp hsecond with hsecond | hsecond
      · have hholds := (castVote_holds hnode (Option.mem_toList.mp hsecond)).2
        exact hholds.candidate_eq hnode' hrest first hfirst hterm
      · exact ih hnode' hrest first hfirst second hsecond hterm

/-! ### Runs -/

/-- Assumes: the node id is not 0 and no election wraps the term. From any state of an engine and
for every sequence of calls, two votes that the engine casts in one term are for the same candidate,
and the term never falls. -/
theorem castVotes_one_per_term (engine : ConsensusEngine) (hnode : engine.nodeId ≠ 0)
    (calls : List EngineCall) (hkept : EveryStep engineStep TermKept engine calls) :
    (∀ first ∈ castVotes engine calls, ∀ second ∈ castVotes engine calls,
      first.term = second.term → first.candidate = second.candidate) ∧
    NeverFalls engineStep (fun engine ↦ engine.currentTerm.toNat) engine calls := by
  refine ⟨castVotes_unique hnode hkept, neverFalls_iff_everyStep.mpr ?_⟩
  intro taken call htaken
  exact UInt32.le_iff_toNat_le.mp (advances_engineStep (hkept taken call htaken)).term

/-- Node 3 votes for node 5 in term 1, refuses node 7, votes for node 5 again, and votes for itself
in term 2. -/
theorem castVotes_one_per_term_three :
    castVotes (consensusEngineInit 3)
        [.requestVote 1 5, .requestVote 1 7, .requestVote 1 5, .startElection] =
      [⟨3, 1, 5⟩, ⟨3, 1, 5⟩, ⟨3, 2, 3⟩] ∧
    NeverFalls engineStep (fun engine ↦ engine.currentTerm.toNat) (consensusEngineInit 3)
      [.requestVote 1 5, .requestVote 1 7, .requestVote 1 5, .startElection] := by
  refine ⟨by decide, (castVotes_one_per_term (consensusEngineInit 3) (by decide) _ ?_).2⟩
  simp only [everyStep_cons, everyStep_nil, and_true, TermKept]
  decide

end OneOS.Clustering.Consensus
