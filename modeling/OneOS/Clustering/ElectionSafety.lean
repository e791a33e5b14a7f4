import Mathlib.Algebra.Group.Nat.Defs
import OneOS.Clustering.Consensus
import OneOS.Foundation.Counters

/-!
# Election safety

No two engines of a cluster may lead the same term (`ElectionSafe`). The engine of
`clustering-replication/consensus_engine.c` does not ensure it. `consensus_request_vote` counts a
vote that is granted in the `vote_count` of the voter, so an engine that has voted for others can
win, and an engine that others have voted for has nothing to count; a higher term does not reset the
count; and a leader that hears of a higher term from a vote request stays leader in that term.

`ElectionSound` is what is missing: an engine wins only when a majority has voted for it in its
term, no leader takes over a term from a vote request, and the term does not wrap.
`electionSafe_alongRun` shows that this is enough for every interleaving. The argument is in
`Advances`, what one call may do to the term and the vote of an engine: within a term a vote is
kept, so no engine votes twice in a term, and two majorities share a voter.
-/

set_option autoImplicit false
set_option relaxedAutoImplicit false

namespace OneOS.Clustering.Consensus

open Foundation

variable {cluster : Cluster} {engine next : ConsensusEngine}

/-- No two engines are leaders in the same term. -/
def ElectionSafe (cluster : Cluster) : Prop :=
  ∀ (i j : ℕ) (first second : ConsensusEngine), cluster.engines[i]? = some first →
    cluster.engines[j]? = some second → first.state = .leader → second.state = .leader →
      first.currentTerm = second.currentTerm → i = j

/-- The engines that vote, by position. -/
def Cluster.electorate (cluster : Cluster) : Finset ℕ :=
  Finset.range cluster.engines.length

/-- The condition on a step: an engine that wins has the votes of a majority in its term, no vote
request brings a leader to a higher term, and no election wraps the term. -/
def ElectionSound (cluster : Cluster) : ClusterStep → Prop
  | .startElection i => ∀ engine, cluster.engines[i]? = some engine →
      engine.currentTerm.toNat + 1 < 2 ^ 32
  | .requestVote i request => ∀ engine sent, cluster.engines[i]? = some engine →
      cluster.requests[request]? = some sent → engine.state = .leader →
        sent.term ≤ engine.currentTerm
  | .appendEntries _ _ _ _ _ => True
  | .winElection i => ∀ engine, cluster.engines[i]? = some engine →
      engine.majority ≤ engine.voteCount.toNat →
        Elected cluster.electorate cluster.votes engine.currentTerm engine.nodeId

/-! ### What one call does to an engine -/

/-- The term does not fall, and within a term a vote that was given is kept. -/
structure Advances (engine next : ConsensusEngine) : Prop where
  node : next.nodeId = engine.nodeId
  term : engine.currentTerm ≤ next.currentTerm
  vote : next.currentTerm = engine.currentTerm → engine.votedFor ≠ 0 →
    next.votedFor = engine.votedFor

theorem Advances.refl (engine : ConsensusEngine) : Advances engine engine :=
  ⟨rfl, UInt32.le_refl _, fun _ _ ↦ rfl⟩

/-- Assumes: the term does not wrap. -/
theorem advances_consensusStartElection (hterm : engine.currentTerm.toNat + 1 < 2 ^ 32) :
    Advances engine (consensusStartElection engine).1 := by
  have hnext := toNat_succ hterm
  refine ⟨rfl, ?_, fun heq ↦ ?_⟩
  · rw [UInt32.le_iff_toNat_le]
    exact hnext ▸ Nat.le_succ _
  · have habsurd := congrArg UInt32.toNat heq
    exact absurd (hnext.symm.trans habsurd) (Nat.succ_ne_self _)

/-- Taking over a term leaves the state and, within a term, the vote. -/
theorem advances_adoptTerm (engine : ConsensusEngine) (term : UInt32) :
    Advances engine (engine.adoptTerm term) := by
  unfold ConsensusEngine.adoptTerm
  split_ifs with hhigher
  · exact ⟨rfl, UInt32.le_of_lt hhigher, fun heq ↦ absurd heq (UInt32.ne_of_lt hhigher).symm⟩
  · exact Advances.refl engine

/-- A vote request is refused, with at most a new term, or granted: then the term is that of the
request and the vote is for its candidate. -/
theorem consensusRequestVote_cases (engine : ConsensusEngine) (term candidateId : UInt32) :
    ((consensusRequestVote engine term candidateId).2 ≠ 0 ∧
      ((consensusRequestVote engine term candidateId).1 = engine ∨
        (consensusRequestVote engine term candidateId).1 = engine.adoptTerm term)) ∨
    ((consensusRequestVote engine term candidateId).2 = 0 ∧ candidateId ≠ 0 ∧
      (engine.adoptTerm term).currentTerm = term ∧
      ((engine.adoptTerm term).votedFor = 0 ∨ (engine.adoptTerm term).votedFor = candidateId) ∧
      (consensusRequestVote engine term candidateId).1 = { engine.adoptTerm term with
        votedFor := candidateId, voteCount := (engine.adoptTerm term).voteCount + 1 }) := by
  simp only [consensusRequestVote]
  split_ifs with hzero hgrant
  · exact Or.inl ⟨by simp, Or.inl rfl⟩
  · have hterm : term ≤ (engine.adoptTerm term).currentTerm := by
      unfold ConsensusEngine.adoptTerm
      split_ifs with hhigher
      · exact UInt32.le_refl _
      · exact UInt32.not_lt.mp hhigher
    exact Or.inr ⟨rfl, (not_or.mp hzero).2, UInt32.le_antisymm hgrant.2 hterm, hgrant.1, rfl⟩
  · exact Or.inl ⟨by simp, Or.inr rfl⟩

theorem advances_consensusRequestVote (engine : ConsensusEngine) (term candidateId : UInt32) :
    Advances engine (consensusRequestVote engine term candidateId).1 := by
  have hadopt := advances_adoptTerm engine term
  rcases consensusRequestVote_cases engine term candidateId with
    ⟨-, hsame | hadopted⟩ | ⟨-, hcandidate, -, hfree, hgranted⟩
  · rw [hsame]
    exact Advances.refl engine
  · rw [hadopted]
    exact hadopt
  · rw [hgranted]
    refine ⟨hadopt.node, hadopt.term, fun heq hvoted ↦ ?_⟩
    have hkept := hadopt.vote heq hvoted
    rcases hfree with hnone | hsame
    · exact absurd (hkept.symm.trans hnone) hvoted
    · exact hsame.symm.trans hkept

/-- A vote request leaves the state of an engine. -/
theorem state_consensusRequestVote (engine : ConsensusEngine) (term candidateId : UInt32) :
    (consensusRequestVote engine term candidateId).1.state = engine.state := by
  have hadopt : (engine.adoptTerm term).state = engine.state := by
    unfold ConsensusEngine.adoptTerm
    split_ifs
    · rfl
    · rfl
  rcases consensusRequestVote_cases engine term candidateId with
    ⟨-, hsame | hadopted⟩ | ⟨-, -, -, -, hgranted⟩
  · rw [hsame]
  · rw [hadopted, hadopt]
  · rw [hgranted]
    exact hadopt

/-- A vote request of a term that is not higher leaves the term of an engine. -/
theorem currentTerm_consensusRequestVote {term candidateId : UInt32}
    (hterm : term ≤ engine.currentTerm) :
    (consensusRequestVote engine term candidateId).1.currentTerm = engine.currentTerm := by
  have hadopt : engine.adoptTerm term = engine := if_neg (UInt32.not_lt.mpr hterm)
  rcases consensusRequestVote_cases engine term candidateId with
    ⟨-, hsame | hadopted⟩ | ⟨-, -, -, -, hgranted⟩
  · rw [hsame]
  · rw [hadopted, hadopt]
  · rw [hgranted, hadopt]

theorem advances_consensusAppendEntries (engine : ConsensusEngine) (term leaderId : UInt32)
    (prevLogIndex : UInt64) (prevLogTerm : UInt32) :
    Advances engine (consensusAppendEntries engine term leaderId prevLogIndex prevLogTerm).1 := by
  unfold consensusAppendEntries
  split_ifs with hzero hhigher
  · exact Advances.refl engine
  · exact ⟨rfl, UInt32.le_of_lt hhigher, fun heq ↦ absurd heq (UInt32.ne_of_lt hhigher).symm⟩
  · exact Advances.refl engine

theorem advances_consensusWinElection (engine : ConsensusEngine) :
    Advances engine (consensusWinElection engine).1 := by
  unfold consensusWinElection
  split_ifs
  · exact ⟨rfl, UInt32.le_refl _, fun _ _ ↦ rfl⟩
  · exact Advances.refl engine

/-! ### What one step does to the cluster -/

/-- Assumes: node ids are not 0, and the step is sound. A step changes nothing, or one engine
advances. A vote that is recorded is the one the engine then has, and an engine that leads after the
step led the same term before it or has been elected. -/
theorem clusterStep_cases (hnonzero : ∀ engine ∈ cluster.engines, engine.nodeId ≠ 0)
    {step : ClusterStep} (hsound : ElectionSound cluster step) :
    clusterStep cluster step = cluster ∨
      ∃ i engine next, cluster.engines[i]? = some engine ∧ Advances engine next ∧
        (clusterStep cluster step).engines = cluster.engines.set i next ∧
        ((clusterStep cluster step).votes = cluster.votes ∨
          (next.votedFor ≠ 0 ∧ (clusterStep cluster step).votes =
            insert ⟨i, next.currentTerm, next.votedFor⟩ cluster.votes)) ∧
        (next.state = .leader →
          (engine.state = .leader ∧ next.currentTerm = engine.currentTerm) ∨
            Elected cluster.electorate cluster.votes next.currentTerm next.nodeId) := by
  cases step with
  | startElection i =>
    cases hengine : cluster.engines[i]? with
    | none => exact Or.inl (by simp only [clusterStep, hengine])
    | some engine =>
      refine Or.inr ⟨i, engine, (consensusStartElection engine).1, hengine,
        advances_consensusStartElection (hsound engine hengine), ?_, Or.inr ⟨?_, ?_⟩, ?_⟩
      · simp only [clusterStep, hengine]
      · exact hnonzero engine (List.mem_of_getElem? hengine)
      · simp only [clusterStep, hengine]
      · intro hleader
        cases hleader
  | requestVote i request =>
    cases hengine : cluster.engines[i]? with
    | none => exact Or.inl (by simp only [clusterStep, hengine])
    | some engine =>
      cases hrequest : cluster.requests[request]? with
      | none => exact Or.inl (by simp only [clusterStep, hengine, hrequest])
      | some sent =>
        obtain ⟨term, candidateId⟩ := sent
        refine Or.inr ⟨i, engine, (consensusRequestVote engine term candidateId).1, hengine,
          advances_consensusRequestVote engine term candidateId, ?_, ?_, ?_⟩
        · simp only [clusterStep, hengine, hrequest]
        · simp only [clusterStep, hengine, hrequest]
          rcases consensusRequestVote_cases engine term candidateId with
            ⟨hrefused, -⟩ | ⟨hanswer, hcandidate, hterm, -, hgranted⟩
          · exact Or.inl (if_neg hrefused)
          · refine Or.inr ⟨?_, ?_⟩
            · rw [hgranted]
              exact hcandidate
            · rw [if_pos hanswer, hgranted]
              simp only [hterm]
        · intro hleader
          rw [state_consensusRequestVote] at hleader
          have hterm := hsound engine ⟨term, candidateId⟩ hengine hrequest hleader
          refine Or.inl ⟨hleader, ?_⟩
          rw [currentTerm_consensusRequestVote hterm]
  | appendEntries i term leaderId prevLogIndex prevLogTerm =>
    cases hengine : cluster.engines[i]? with
    | none => exact Or.inl (by simp only [clusterStep, hengine])
    | some engine =>
      refine Or.inr ⟨i, engine,
        (consensusAppendEntries engine term leaderId prevLogIndex prevLogTerm).1, hengine,
        advances_consensusAppendEntries engine term leaderId prevLogIndex prevLogTerm, ?_,
        Or.inl ?_, ?_⟩
      · simp only [clusterStep, hengine]
      · simp only [clusterStep, hengine]
      · intro hleader
        rw [consensusAppendEntries] at hleader ⊢
        -- with a higher term the engine is a follower
        split_ifs at hleader ⊢ with hzero hhigher
        · exact Or.inl ⟨hleader, rfl⟩
        · exact Or.inl ⟨hleader, rfl⟩
  | winElection i =>
    cases hengine : cluster.engines[i]? with
    | none => exact Or.inl (by simp only [clusterStep, hengine])
    | some engine =>
      refine Or.inr ⟨i, engine, (consensusWinElection engine).1, hengine,
        advances_consensusWinElection engine, ?_, Or.inl ?_, ?_⟩
      · simp only [clusterStep, hengine]
      · simp only [clusterStep, hengine]
      · intro hleader
        rw [consensusWinElection] at hleader ⊢
        split_ifs at hleader ⊢ with hmajority
        · exact Or.inr (hsound engine hengine hmajority)
        · exact Or.inl ⟨hleader, rfl⟩

/-! ### The invariant -/

/-- Node ids are distinct and not 0; every recorded vote is for a candidate other than 0, of a term
that the voter has reached, and still the voter's vote if it is in that term; nobody votes twice in
a term; and every leader has been elected. -/
structure VotesSound (cluster : Cluster) : Prop where
  distinct : (cluster.engines.map ConsensusEngine.nodeId).Nodup
  nonzero : ∀ engine ∈ cluster.engines, engine.nodeId ≠ 0
  held : ∀ vote ∈ cluster.votes, vote.candidate ≠ 0 ∧
    ∃ engine, cluster.engines[vote.voter]? = some engine ∧ vote.term ≤ engine.currentTerm ∧
      (vote.term = engine.currentTerm → engine.votedFor = vote.candidate)
  once : OneVotePerTerm cluster.votes
  elected : ∀ (i : ℕ) (engine : ConsensusEngine), cluster.engines[i]? = some engine →
    engine.state = .leader →
      Elected cluster.electorate cluster.votes engine.currentTerm engine.nodeId

/-- Adding peers leaves everything but the peers. -/
theorem foldl_consensusAddPeer (peers : List UInt32) (engine : ConsensusEngine) :
    (peers.foldl (fun engine peer ↦ (consensusAddPeer engine peer peer).1) engine).nodeId =
      engine.nodeId ∧
    (peers.foldl (fun engine peer ↦ (consensusAddPeer engine peer peer).1) engine).state =
      engine.state := by
  induction peers generalizing engine with
  | nil => exact ⟨rfl, rfl⟩
  | cons peer peers ih =>
    have hfirst : (consensusAddPeer engine peer peer).1.nodeId = engine.nodeId ∧
        (consensusAddPeer engine peer peer).1.state = engine.state := by
      unfold consensusAddPeer
      split_ifs
      · exact ⟨rfl, rfl⟩
      · exact ⟨rfl, rfl⟩
    rw [List.foldl_cons]
    exact ⟨(ih _).1.trans hfirst.1, (ih _).2.trans hfirst.2⟩

/-- Assumes: distinct node ids, none of them 0. -/
theorem votesSound_clusterInit {nodeIds : List UInt32} (hdistinct : nodeIds.Nodup)
    (hnonzero : 0 ∉ nodeIds) : VotesSound (clusterInit nodeIds) where
  distinct := by
    have hids : ConsensusEngine.nodeId ∘ engineWithPeers nodeIds = id :=
      funext fun nodeId ↦ (foldl_consensusAddPeer _ (consensusEngineInit nodeId)).1
    rw [clusterInit, List.map_map, hids, List.map_id]
    exact hdistinct
  nonzero := by
    intro engine hengine hzero
    obtain ⟨nodeId, hnodeId, rfl⟩ := List.mem_map.mp hengine
    rw [engineWithPeers, (foldl_consensusAddPeer _ _).1] at hzero
    exact hnonzero (hzero ▸ hnodeId)
  held := by simp [clusterInit]
  once := by simp [clusterInit, OneVotePerTerm]
  elected := by
    intro i engine hengine hleader
    obtain ⟨nodeId, -, rfl⟩ := List.mem_map.mp (List.mem_of_getElem? hengine)
    rw [engineWithPeers, (foldl_consensusAddPeer _ _).2] at hleader
    cases hleader

/-- A vote that an engine holds is held after the engine has advanced. -/
theorem Advances.held {Voter : Type*} (hadvances : Advances engine next)
    {vote : Vote Voter UInt32 UInt32} (hcandidate : vote.candidate ≠ 0)
    (hterm : vote.term ≤ engine.currentTerm)
    (hvote : vote.term = engine.currentTerm → engine.votedFor = vote.candidate) :
    vote.term ≤ next.currentTerm ∧
      (vote.term = next.currentTerm → next.votedFor = vote.candidate) := by
  refine ⟨UInt32.le_trans hterm hadvances.term, fun hsame ↦ ?_⟩
  have hback : next.currentTerm = engine.currentTerm :=
    UInt32.le_antisymm (hsame ▸ hterm) hadvances.term
  have hvoted := hvote (hsame.trans hback)
  rw [hadvances.vote hback (hvoted ▸ hcandidate), hvoted]

/-- The votes recorded before an engine advances are held after it. -/
theorem VotesSound.held_set (hvotes : VotesSound cluster) {i : ℕ}
    (hengine : cluster.engines[i]? = some engine) (hadvances : Advances engine next)
    {vote : Vote ℕ UInt32 UInt32} (hvote : vote ∈ cluster.votes) :
    vote.candidate ≠ 0 ∧ ∃ holder, (cluster.engines.set i next)[vote.voter]? = some holder ∧
      vote.term ≤ holder.currentTerm ∧
        (vote.term = holder.currentTerm → holder.votedFor = vote.candidate) := by
  obtain ⟨hcandidate, holder, hholder, hterm, hvoted⟩ := hvotes.held vote hvote
  refine ⟨hcandidate, ?_⟩
  by_cases hvoter : i = vote.voter
  · obtain rfl : engine = holder := Option.some.inj (hengine.symm.trans (hvoter ▸ hholder))
    have hlt : vote.voter < cluster.engines.length := (List.getElem?_eq_some_iff.mp hholder).1
    refine ⟨next, ?_, hadvances.held hcandidate hterm hvoted⟩
    rw [hvoter, List.getElem?_set_self hlt]
  · rw [List.getElem?_set_ne hvoter]
    exact ⟨holder, hholder, hterm, hvoted⟩

/-- The node ids of the engines when one of them advances. -/
theorem map_nodeId_set {i : ℕ} (hengine : cluster.engines[i]? = some engine)
    (hadvances : Advances engine next) :
    (cluster.engines.set i next).map ConsensusEngine.nodeId =
      cluster.engines.map ConsensusEngine.nodeId := by
  obtain ⟨hlt, rfl⟩ := List.getElem?_eq_some_iff.mp hengine
  rw [List.map_set, hadvances.node, ← List.getElem_map ConsensusEngine.nodeId]
  · exact List.set_getElem_self _
  · rw [List.length_map]
    exact hlt

/-- A sound step keeps the invariant. -/
theorem votesSound_step {step : ClusterStep} (hvotes : VotesSound cluster)
    (hsound : ElectionSound cluster step) : VotesSound (clusterStep cluster step) := by
  rcases clusterStep_cases hvotes.nonzero hsound with
    hsame | ⟨i, engine, next, hengine, hadvances, hengines, hrecord, hleader⟩
  · rwa [hsame]
  · have hlt : i < cluster.engines.length := (List.getElem?_eq_some_iff.mp hengine).1
    have hnext : (cluster.engines.set i next)[i]? = some next := List.getElem?_set_self hlt
    have hmore : cluster.votes ⊆ (clusterStep cluster step).votes := by
      rcases hrecord with hkept | ⟨-, hinsert⟩
      · rw [hkept]
      · rw [hinsert]
        exact Finset.subset_insert _ _
    have helectorate : (clusterStep cluster step).electorate = cluster.electorate := by
      rw [Cluster.electorate, Cluster.electorate, hengines, List.length_set]
    have hids : (clusterStep cluster step).engines.map ConsensusEngine.nodeId =
        cluster.engines.map ConsensusEngine.nodeId := by
      rw [hengines]
      exact map_nodeId_set hengine hadvances
    constructor
    · exact hids ▸ hvotes.distinct
    · intro other hother
      have hmem : other.nodeId ∈ cluster.engines.map ConsensusEngine.nodeId :=
        hids ▸ List.mem_map_of_mem hother
      obtain ⟨old, hold, heq⟩ := List.mem_map.mp hmem
      exact heq ▸ hvotes.nonzero old hold
    · rw [hengines]
      rcases hrecord with hkept | ⟨hnonzero, hinsert⟩
      · rw [hkept]
        exact fun vote hvote ↦ hvotes.held_set hengine hadvances hvote
      · rw [hinsert]
        intro vote hvote
        rcases Finset.mem_insert.mp hvote with rfl | hvote
        · exact ⟨hnonzero, next, hnext, UInt32.le_refl _, fun _ ↦ rfl⟩
        · exact hvotes.held_set hengine hadvances hvote
    · rcases hrecord with hkept | ⟨-, hinsert⟩
      · rw [hkept]
        exact hvotes.once
      · -- an older vote of this engine in the same term is the vote it has now
        rw [hinsert]
        refine hvotes.once.insert fun vote hvote hvoter hterm ↦ ?_
        obtain ⟨-, holder, hholder, -, hvoted⟩ := hvotes.held_set hengine hadvances hvote
        rw [hvoter, hnext] at hholder
        obtain rfl := Option.some.inj hholder
        exact (hvoted hterm).symm
    · intro j leader hleaderAt hstate
      rw [helectorate]
      rw [hengines] at hleaderAt
      by_cases hsame : i = j
      · rw [← hsame, hnext] at hleaderAt
        obtain rfl := Option.some.inj hleaderAt
        rcases hleader hstate with ⟨hled, hterm⟩ | helected
        · rw [hterm, hadvances.node]
          exact (hvotes.elected i engine hengine hled).mono hmore
        · exact helected.mono hmore
      · rw [List.getElem?_set_ne hsame] at hleaderAt
        exact (hvotes.elected j leader hleaderAt hstate).mono hmore

/-- Leaders that have been elected by votes of which nobody casts two in a term are safe. -/
theorem VotesSound.electionSafe (hvotes : VotesSound cluster) : ElectionSafe cluster := by
  intro i j first second hfirst hsecond hfirstLeads hsecondLeads hterm
  have helected := hvotes.elected i first hfirst hfirstLeads
  rw [hterm] at helected
  have hid : first.nodeId = second.nodeId :=
    Elected.unique hvotes.once helected (hvotes.elected j second hsecond hsecondLeads)
  have hlt : i < (cluster.engines.map ConsensusEngine.nodeId).length := by
    rw [List.length_map]
    exact (List.getElem?_eq_some_iff.mp hfirst).1
  refine (List.getElem?_inj hlt hvotes.distinct).mp ?_
  rw [List.getElem?_map, List.getElem?_map, hfirst, hsecond, Option.map_some, Option.map_some, hid]

/-! ### Runs -/

/-- Assumes: distinct node ids, none of them 0. In every run of sound steps no two engines lead the
same term. -/
theorem electionSafe_alongRun (nodeIds : List UInt32) (hdistinct : nodeIds.Nodup)
    (hnonzero : 0 ∉ nodeIds) (steps : List ClusterStep)
    (hsound : EveryStep clusterStep ElectionSound (clusterInit nodeIds) steps) :
    AlongRun clusterStep ElectionSafe (clusterInit nodeIds) steps := by
  have hvotes : AlongRun clusterStep VotesSound (clusterInit nodeIds) steps :=
    alongRun_invariant VotesSound ElectionSound (fun _ _ hkept ↦ votesSound_step hkept)
      (votesSound_clusterInit hdistinct hnonzero) hsound
  exact hvotes.imp fun _ ↦ VotesSound.electionSafe

/-- Three engines: the first is elected by its own vote and that of the second, and wins. -/
theorem electionSafe_first_elected :
    AlongRun clusterStep ElectionSafe (clusterInit [1, 2, 3])
      [.startElection 0, .requestVote 0 0, .requestVote 1 0, .winElection 0,
        .appendEntries 2 1 1 0 0] := by
  refine electionSafe_alongRun [1, 2, 3] (by decide) (by decide) _ ?_
  simp only [everyStep_cons, everyStep_nil, ElectionSound, and_true]
  refine ⟨?_, ?_, ?_, ?_⟩
  · intro engine hengine
    cases hengine
    decide
  · intro engine sent hengine hsent hleader
    cases hengine
    cases hleader
  · intro engine sent hengine hsent hleader
    cases hengine
    cases hleader
  · intro engine hengine _
    cases hengine
    unfold Elected
    decide

/-- The first of three engines holds two elections and the others vote for it each time. Each of the
others has then counted two votes, the ones it gave, and both win the second term. -/
theorem voters_both_lead :
    ¬ AlongRun clusterStep ElectionSafe (clusterInit [1, 2, 3])
      [.startElection 0, .requestVote 1 0, .requestVote 2 0, .startElection 0, .requestVote 1 1,
        .requestVote 2 1, .winElection 1, .winElection 2] := by
  intro halong
  have hsame := halong _ (List.prefix_refl _) 1 2 _ _ rfl rfl rfl rfl rfl
  exact absurd hsame (by decide)

end OneOS.Clustering.Consensus
