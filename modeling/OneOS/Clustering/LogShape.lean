import Mathlib.Data.List.Pairwise
import OneOS.Clustering.ConsensusLog

/-!
# The shape of the log

Terms are raised by requests for votes, by requests to append entries and by elections, in any order
with the appends to the log. All the same the log of an engine keeps its shape (`LogShaped`): the
entry in row `i` has the index `i + 1`, terms do not fall along the log and none is above the term
of the engine, and both counts of entries are the number of rows. No call writes to a row that is in
use, so what has been appended stays as it is.

All this is derived from one description of what a call does to the log (`replicationStep_log`). It
takes that no election wraps the term; an allocation may fail.
-/

set_option autoImplicit false
set_option relaxedAutoImplicit false

namespace OneOS.Clustering.Consensus

open Foundation

variable {engine : ReplicationEngine} {call : ReplicationCall}

/-- The shape of the log of an engine. -/
structure LogShaped (engine : ReplicationEngine) : Prop where
  log_index : ∀ i entry, engine.log[i]? = some entry → entry.logIndex.toNat = i + 1
  nondecreasing : engine.log.Pairwise fun earlier later ↦ earlier.term ≤ later.term
  reached : ∀ entry ∈ engine.log, entry.term ≤ engine.currentTerm
  size : engine.logSize.toNat = engine.log.length
  total : engine.totalLogEntries = engine.logSize
  room : engine.log.length ≤ maxLogEntries.toNat

/-- An election does not wrap the term. -/
def KeepsTerm (engine : ReplicationEngine) : ReplicationCall → Prop
  | .election call => TermKept engine.toConsensusEngine call
  | _ => True

/-! ### What one call does to the log -/

/-- The log, both counts and the bound of its terms are kept, up to a higher term. -/
structure KeepsLog (engine next : ReplicationEngine) : Prop where
  log : next.log = engine.log
  size : next.logSize = engine.logSize
  total : next.totalLogEntries = engine.totalLogEntries
  term : engine.currentTerm ≤ next.currentTerm

/-- One entry of the term of the engine is behind the others. -/
structure AppendsOne (engine next : ReplicationEngine) : Prop where
  room : engine.logSize < maxLogEntries
  log : ∃ entry, next.log = engine.log ++ [entry] ∧
    entry.logIndex = (engine.logSize + 1).toUInt32 ∧ entry.term = engine.currentTerm
  size : next.logSize = engine.logSize + 1
  total : next.totalLogEntries = engine.totalLogEntries + 1
  term : next.currentTerm = engine.currentTerm

theorem KeepsLog.refl (engine : ReplicationEngine) : KeepsLog engine engine :=
  ⟨rfl, rfl, rfl, UInt32.le_refl _⟩

/-- An append with room and memory, or nothing. -/
theorem consensusAppendLogEntry_cases (engine : ReplicationEngine)
    (opType : ConsensusOperationType) (data : List UInt8) (malloced : Bool) :
    KeepsLog engine (consensusAppendLogEntry engine opType data malloced).1 ∨
      AppendsOne engine (consensusAppendLogEntry engine opType data malloced).1 := by
  rw [consensusAppendLogEntry]
  split_ifs with hfull hmalloc
  · exact Or.inl (KeepsLog.refl engine)
  · exact Or.inl (KeepsLog.refl engine)
  · exact Or.inr ⟨UInt64.not_le.mp hfull, ⟨_, rfl, rfl, rfl⟩, rfl, rfl, rfl⟩

/-- Assumes: the term does not wrap. A call keeps the log or appends one entry to it. -/
theorem replicationStep_log (hterm : KeepsTerm engine call) :
    KeepsLog engine (replicationStep engine call) ∨
      AppendsOne engine (replicationStep engine call) := by
  cases call with
  | election call =>
    exact Or.inl ⟨rfl, (engineStep_keeps engine.toConsensusEngine call).1, rfl,
      (advances_engineStep hterm).term⟩
  | becomeLeader => exact Or.inl ⟨rfl, rfl, rfl, UInt32.le_refl _⟩
  | addPeer peerId nodeId =>
    refine Or.inl ?_
    rw [replicationStep, consensusAddPeer]
    split_ifs <;> exact ⟨rfl, rfl, rfl, UInt32.le_refl _⟩
  | removePeer peerId =>
    refine Or.inl ?_
    rw [replicationStep, consensusRemovePeer]
    split_ifs <;> exact ⟨rfl, rfl, rfl, UInt32.le_refl _⟩
  | grantVote fromPeerId => exact Or.inl (KeepsLog.refl engine)
  | acceptEntries fromPeerId =>
    refine Or.inl ?_
    rw [replicationStep, consensusAcceptEntries]
    split_ifs <;> exact ⟨rfl, rfl, rfl, UInt32.le_refl _⟩
  | appendLogEntry opType data malloced =>
    exact consensusAppendLogEntry_cases engine opType data malloced
  | commitEntry logIndex =>
    refine Or.inl ?_
    rw [replicationStep, consensusCommitEntry]
    split_ifs <;> exact ⟨rfl, rfl, rfl, UInt32.le_refl _⟩
  | applyCommittedEntries => exact Or.inl ⟨rfl, rfl, rfl, UInt32.le_refl _⟩
  | createQuorumOperation opType =>
    refine Or.inl ?_
    rw [replicationStep, consensusCreateQuorumOperation]
    split_ifs <;> exact ⟨rfl, rfl, rfl, UInt32.le_refl _⟩
  | quorumOperationComplete quorumOpId =>
    refine Or.inl ?_
    rw [replicationStep, consensusQuorumOperationComplete]
    split_ifs <;> exact ⟨rfl, rfl, rfl, UInt32.le_refl _⟩

/-! ### The shape is kept -/

theorem LogShaped.of_keepsLog {next : ReplicationEngine} (hshaped : LogShaped engine)
    (hkeeps : KeepsLog engine next) : LogShaped next where
  log_index := by
    rw [hkeeps.log]
    exact hshaped.log_index
  nondecreasing := by
    rw [hkeeps.log]
    exact hshaped.nondecreasing
  reached := by
    rw [hkeeps.log]
    exact fun entry hentry ↦ UInt32.le_trans (hshaped.reached entry hentry) hkeeps.term
  size := by
    rw [hkeeps.size, hkeeps.log]
    exact hshaped.size
  total := by
    rw [hkeeps.total, hkeeps.size]
    exact hshaped.total
  room := by
    rw [hkeeps.log]
    exact hshaped.room

theorem LogShaped.of_appendsOne {next : ReplicationEngine} (hshaped : LogShaped engine)
    (happends : AppendsOne engine next) : LogShaped next := by
  obtain ⟨entry, hlog, hindex, hterm⟩ := happends.log
  have hmax : maxLogEntries.toNat = 16384 := rfl
  have hsize := hshaped.size
  have hroom : engine.log.length < maxLogEntries.toNat := by
    rw [← hsize]
    exact UInt64.lt_iff_toNat_lt.mp happends.room
  have hnext : (engine.logSize + 1).toNat = engine.log.length + 1 := by
    rw [UInt64.toNat_add, UInt64.toNat_one, hsize]
    exact Nat.mod_eq_of_lt (by omega)
  refine ⟨?_, ?_, ?_, ?_, ?_, ?_⟩
  · intro i row hrow
    rw [hlog] at hrow
    rcases getElem?_concat_cases hrow with ⟨-, hold⟩ | ⟨rfl, rfl⟩
    · exact hshaped.log_index i row hold
    · rw [hindex, UInt64.toNat_toUInt32, hnext]
      exact Nat.mod_eq_of_lt (by omega)
  · rw [hlog, List.pairwise_append]
    refine ⟨hshaped.nondecreasing, List.pairwise_singleton _ _, fun old hold new hnew ↦ ?_⟩
    rw [List.mem_singleton.mp hnew, hterm]
    exact hshaped.reached old hold
  · rw [hlog, happends.term, List.forall_mem_append]
    refine ⟨hshaped.reached, fun new hnew ↦ ?_⟩
    rw [List.mem_singleton.mp hnew, hterm]
    exact UInt32.le_refl _
  · rw [happends.size, hnext, hlog, List.length_append, List.length_singleton]
  · rw [happends.total, happends.size, hshaped.total]
  · rw [hlog, List.length_append, List.length_singleton]
    exact hroom

/-- Assumes: the term does not wrap. A call keeps the shape of the log. -/
theorem LogShaped.step (hshaped : LogShaped engine) (hterm : KeepsTerm engine call) :
    LogShaped (replicationStep engine call) := by
  rcases replicationStep_log hterm with hkeeps | happends
  · exact hshaped.of_keepsLog hkeeps
  · exact hshaped.of_appendsOne happends

/-- Assumes: the term does not wrap. A call leaves the entries of the log. -/
theorem log_prefix_step (hterm : KeepsTerm engine call) :
    engine.log <+: (replicationStep engine call).log := by
  rcases replicationStep_log hterm with hkeeps | happends
  · rw [hkeeps.log]
  · obtain ⟨entry, hlog, -, -⟩ := happends.log
    rw [hlog]
    exact List.prefix_append _ _

/-- Assumes: the term does not wrap. A run leaves the entries that the log had before it. -/
theorem log_prefix_runFrom {calls : List ReplicationCall}
    (hkept : EveryStep replicationStep KeepsTerm engine calls) :
    engine.log <+: (runFrom replicationStep engine calls).log := by
  induction calls generalizing engine with
  | nil => exact List.prefix_refl _
  | cons call calls ih =>
    obtain ⟨hfirst, hrest⟩ := everyStep_cons.mp hkept
    exact (log_prefix_step hfirst).trans (ih hrest)

/-! ### Every run -/

theorem logShaped_init (nodeId : UInt32) : LogShaped (replicationEngineInit nodeId) where
  log_index := by simp [replicationEngineInit]
  nondecreasing := List.Pairwise.nil
  reached := by simp [replicationEngineInit]
  size := rfl
  total := rfl
  room := Nat.zero_le _

/-- Assumes: no election wraps the term. In every state of a run of a new engine the log has its
shape, and all its entries are, unchanged, the first ones of the log in every later state. -/
theorem logShaped_alongRun (nodeId : UInt32) (calls : List ReplicationCall)
    (hkept : EveryStep replicationStep KeepsTerm (replicationEngineInit nodeId) calls) :
    AlongRun replicationStep LogShaped (replicationEngineInit nodeId) calls ∧
      ∀ earlier later, earlier <+: later → later <+: calls →
        (runFrom replicationStep (replicationEngineInit nodeId) earlier).log <+:
          (runFrom replicationStep (replicationEngineInit nodeId) later).log := by
  refine ⟨alongRun_invariant LogShaped KeepsTerm (fun _ _ hshaped hterm ↦ hshaped.step hterm)
    (logShaped_init nodeId) hkept, ?_⟩
  rintro earlier later ⟨rest, rfl⟩ hlater
  rw [runFrom_append]
  exact log_prefix_runFrom (everyStep_append.mp (hkept.of_prefix hlater)).2

/-- Entries are appended before and after the term is raised by an election, by a request for a vote
and by a request to append entries. -/
theorem logShaped_three_terms :
    AlongRun replicationStep LogShaped (replicationEngineInit 1)
        [.appendLogEntry .append [65] true, .election .startElection,
          .appendLogEntry .append [66] true, .election (.requestVote 4 2),
          .election (.appendEntries 6 2 0 0), .appendLogEntry .commit [67] true] ∧
      ∀ earlier later, earlier <+: later →
        later <+: [.appendLogEntry .append [65] true, .election .startElection,
          .appendLogEntry .append [66] true, .election (.requestVote 4 2),
          .election (.appendEntries 6 2 0 0), .appendLogEntry .commit [67] true] →
        (runFrom replicationStep (replicationEngineInit 1) earlier).log <+:
          (runFrom replicationStep (replicationEngineInit 1) later).log := by
  refine logShaped_alongRun 1 _ ?_
  simp only [everyStep_cons, everyStep_nil, KeepsTerm, TermKept, and_true, true_and]
  decide

end OneOS.Clustering.Consensus
