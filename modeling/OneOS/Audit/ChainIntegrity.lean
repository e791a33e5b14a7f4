import OneOS.Audit.TamperEvidence

/-!
# Chain integrity

The chain that nobody touched is to verify after it is mined. Only the newest block can be mined,
and an event or transaction opens a new block when the newest one is full, mined or not. A block
that was never mined has no hash, and then it cannot get one any more.

A block that was mined once does verify, also when transactions were added to it since: its hash is
taken of the Merkle root that it keeps, which is the one of the last mining (`Hashed`). So a chain
verifies after a mining exactly when no block was opened behind one that was never mined
(`verifies_iff`).
-/

set_option autoImplicit false
set_option relaxedAutoImplicit false

namespace OneOS.Audit

open Foundation

/-! ### Blocks that were mined -/

/-- Every block of the chain but the last one was mined: it has a hash. -/
def BlockchainAudit.EarlierMined (audit : BlockchainAudit) : Prop :=
  ∀ block ∈ audit.blocks.dropLast, block.blockHash ≠ []

/-- The condition on a call on a chain. A call that opens a new block finds the last one mined. -/
def ChainCall.OpensAfterMining (audit : BlockchainAudit) (call : ChainCall) : Prop :=
  call.adds = true → audit.needsBlock = true → audit.hasRoom = true →
    ∀ last ∈ audit.blocks.getLast?, last.blockHash ≠ []

/-- The condition on a call, for one chain. -/
def AuditCall.OpensAfterMining (auditId : UInt32) (state : Audits) : AuditCall → Prop
  | .createBlockchain _ => True
  | .onChain other call =>
    other = auditId → ∀ audit, rowOf state.audits auditId = some audit →
      call.OpensAfterMining audit

/-- Mining is enabled, and every block that was mined has the hash of what it keeps. -/
structure Hashed (hash : CString → CString) (audit : BlockchainAudit) : Prop where
  enabled : audit.miningEnabled = true
  hashes : ∀ block ∈ audit.blocks, block.blockHash ≠ [] → hash block.data = block.blockHash

variable {hash : CString → CString} {audit : BlockchainAudit}

/-! ### What a call does to the blocks -/

/-- A call is refused, puts a transaction into the last block or into a new one, or mines the last
block. -/
theorem blocks_act_cases (hash : CString → CString) (counter : UInt64) (audit : BlockchainAudit)
    (call : ChainCall) :
    (call.act hash counter audit).1.miningEnabled = audit.miningEnabled ∧
      ((call.act hash counter audit).1.blocks = audit.blocks ∧
          (call.adds = true → audit.hasRoom = false) ∨
        call.adds = true ∧ audit.hasRoom = true ∧
          (∃ opened transaction,
            (call.act hash counter audit).1.blocks = audit.store opened transaction) ∨
        call = .mineBlock ∧
          (call.act hash counter audit).1.blocks =
            audit.blocks.modifyLast (AuditBlock.mine hash)) := by
  cases call with
  | addEvent event opened now =>
    rw [ChainCall.act, BlockchainAudit.addEvent]
    by_cases hroom : audit.hasRoom = true
    · rw [if_pos hroom]
      exact ⟨rfl, Or.inr (Or.inl ⟨rfl, hroom, opened, _, rfl⟩)⟩
    · rw [if_neg hroom]
      exact ⟨rfl, Or.inl ⟨rfl, fun _ ↦ Bool.not_eq_true _ ▸ hroom⟩⟩
  | addTransaction transaction opened now =>
    rw [ChainCall.act, BlockchainAudit.addTransaction]
    by_cases hroom : audit.hasRoom = true
    · rw [if_pos hroom]
      exact ⟨rfl, Or.inr (Or.inl ⟨rfl, hroom, opened, _, rfl⟩)⟩
    · rw [if_neg hroom]
      exact ⟨rfl, Or.inl ⟨rfl, fun _ ↦ Bool.not_eq_true _ ▸ hroom⟩⟩
  | mineBlock =>
    rw [ChainCall.act, BlockchainAudit.mineBlock]
    split_ifs
    · exact ⟨rfl, Or.inl ⟨rfl, fun hadds ↦ absurd hadds Bool.false_ne_true⟩⟩
    · exact ⟨rfl, Or.inr (Or.inr ⟨rfl, rfl⟩)⟩

/-- Every call on a chain keeps the hashes of mined blocks right. -/
theorem Hashed.act (hhashed : Hashed hash audit) (counter : UInt64) (call : ChainCall) :
    Hashed hash (call.act hash counter audit).1 := by
  obtain ⟨henabled, hblocks⟩ := blocks_act_cases hash counter audit call
  refine ⟨henabled.trans hhashed.enabled, ?_⟩
  rcases hblocks with ⟨hsame, -⟩ | ⟨-, -, opened, transaction, hstored⟩ | ⟨-, hmined⟩
  · rw [hsame]
    exact hhashed.hashes
  · rw [hstored]
    refine forall_mem_modifyLast ?_ fun block hblock ↦ hblock
    split_ifs
    · refine List.forall_mem_append.mpr ⟨hhashed.hashes, List.forall_mem_singleton.mpr ?_⟩
      exact fun hnone ↦ absurd rfl hnone
    · exact hhashed.hashes
  · rw [hmined]
    exact forall_mem_modifyLast hhashed.hashes fun _ _ _ ↦ rfl

/-- After a call all blocks but the last one are mined exactly when they were before and the call
meets the condition. -/
theorem earlierMined_act_iff (hash : CString → CString) (counter : UInt64)
    (audit : BlockchainAudit) (call : ChainCall) :
    (call.act hash counter audit).1.EarlierMined ↔
      audit.EarlierMined ∧ call.OpensAfterMining audit := by
  obtain ⟨-, hblocks⟩ := blocks_act_cases hash counter audit call
  unfold BlockchainAudit.EarlierMined ChainCall.OpensAfterMining
  rcases hblocks with ⟨hsame, hroom⟩ | ⟨hadds, hroom, opened, transaction, hstored⟩ |
    ⟨rfl, hmined⟩
  · rw [hsame]
    refine (and_iff_left fun hadds _ hroom' ↦ ?_).symm
    exact absurd ((hroom hadds).symm.trans hroom') Bool.false_ne_true
  · rw [hstored, BlockchainAudit.store, dropLast_modifyLast]
    by_cases hneeds : audit.needsBlock = true
    · rw [if_pos hneeds, List.dropLast_concat]
      -- the blocks before the new one are the earlier ones and the one that was the last
      rcases List.eq_nil_or_concat audit.blocks with hnil | ⟨init, last, hconcat⟩
      · simp [hnil]
      · rw [hconcat, List.concat_eq_append, List.dropLast_concat, List.getLast?_concat,
          List.forall_mem_append, List.forall_mem_singleton]
        simp [hadds, hneeds, hroom]
    · rw [if_neg hneeds]
      exact (and_iff_left fun _ hneeds' _ ↦ absurd hneeds' hneeds).symm
  · rw [hmined, dropLast_modifyLast]
    exact (and_iff_left fun hadds ↦ absurd hadds Bool.false_ne_true).symm

/-! ### Verification -/

/-- The integrity of a chain is confirmed exactly when all of its blocks verify. -/
theorem verifyChainIntegrity_eq_zero_iff (hlength : audit.blocks.length ≤ maxAuditBlocks) :
    audit.verifyChainIntegrity hash = 0 ↔
      ∀ blockId ∈ audit.blockIds, audit.verifyBlock hash blockId = 0 := by
  rw [BlockchainAudit.verifyChainIntegrity]
  cases hfind : audit.blockIds.find? fun blockId ↦ audit.verifyBlock hash blockId ≠ 0 with
  | none =>
    refine iff_of_true rfl fun blockId hid ↦ ?_
    simpa using List.find?_eq_none.mp hfind blockId hid
  | some blockId =>
    have hid := List.mem_of_find?_eq_some hfind
    have hfails : audit.verifyBlock hash blockId ≠ 0 := by simpa using List.find?_some hfind
    refine iff_of_false (fun hzero ↦ ?_) fun hall ↦ hfails (hall blockId hid)
    obtain ⟨i, hi, rfl⟩ := List.mem_map.mp hid
    have hbound : audit.blocks.length ≤ 4096 := hlength
    rw [List.mem_range] at hi
    have hsmall : i + 1 < 2 ^ 31 := by omega
    rw [Option.map_some, Option.getD_some, UInt32.toInt32_ofNat', Int32.toInt_ofNat_of_lt hsmall]
      at hzero
    omega

/-- Assumes: no hash is empty. The integrity of a chain is confirmed exactly when all of its blocks
were mined. -/
theorem Hashed.verifyChainIntegrity_iff (hhashed : Hashed hash audit)
    (hlinked : Linked AuditBlock.blockHash AuditBlock.previousHash audit.blocks)
    (hlength : audit.blocks.length ≤ maxAuditBlocks) (hsome : ∀ data, hash data ≠ []) :
    audit.verifyChainIntegrity hash = 0 ↔ ∀ block ∈ audit.blocks, block.blockHash ≠ [] := by
  constructor
  · intro hzero block hblock hnone
    obtain ⟨i, hi, rfl⟩ := List.getElem_of_mem hblock
    have hmem : UInt32.ofNat (i + 1) ∈ audit.blockIds :=
      List.mem_map.mpr ⟨i, List.mem_range.mpr hi, rfl⟩
    have hverify := (verifyChainIntegrity_eq_zero_iff hlength).mp hzero _ hmem
    have hbound : audit.blocks.length ≤ 4096 := hlength
    have htoNat : (UInt32.ofNat (i + 1)).toNat = i + 1 :=
      UInt32.toNat_ofNat_of_lt' (show i + 1 < 2 ^ 32 by omega)
    have hrow : rowOf audit.blocks (UInt32.ofNat (i + 1)) = some audit.blocks[i] := by
      refine rowOf_eq_some_iff.mpr ⟨fun hid ↦ ?_, ?_⟩
      · rw [hid] at htoNat
        exact absurd htoNat (Nat.succ_ne_zero i).symm
      · rw [htoNat, Nat.add_sub_cancel]
        exact List.getElem?_eq_getElem hi
    rw [BlockchainAudit.verifyBlock, hrow] at hverify
    dsimp only at hverify
    rw [if_pos] at hverify
    · exact absurd hverify (by decide)
    · rw [hnone]
      exact hsome _
  · intro hmined
    refine Verified.verifyChainIntegrity ⟨fun block hblock ↦ ?_, hlinked, hlength⟩
    exact hhashed.hashes block hblock (hmined block hblock)

/-- Assumes: no hash is empty. After a mining all blocks were mined exactly when the earlier ones
were. -/
theorem Hashed.mined_mineBlock_iff (hhashed : Hashed hash audit) (hsome : ∀ data, hash data ≠ []) :
    (∀ block ∈ (audit.mineBlock hash).1.blocks, block.blockHash ≠ []) ↔ audit.EarlierMined := by
  rw [BlockchainAudit.mineBlock, BlockchainAudit.EarlierMined]
  rcases List.eq_nil_or_concat audit.blocks with hnil | ⟨init, last, hconcat⟩
  · rw [if_pos (Or.inl (by rw [hnil, List.length_nil])), hnil]
    rfl
  · rw [List.concat_eq_append] at hconcat
    rw [if_neg]
    · dsimp only
      rw [hconcat, List.modifyLast_concat, List.dropLast_concat, List.forall_mem_append,
        List.forall_mem_singleton]
      exact and_iff_left (hsome _)
    · rw [hhashed.enabled, hconcat, List.length_append]
      simp

/-- The hash of the source is never empty. -/
theorem computeSha256_ne_nil (data : CString) : computeSha256 data ≠ [] :=
  List.append_ne_nil_of_right_ne_nil _ (hexadecimal_ne_nil _ 8)

/-! ### Runs -/

theorem hashed_alongRun (hash : CString → CString) (calls : List AuditCall) :
    AlongRun (auditStep hash) (fun state ↦ ∀ audit ∈ state.audits, Hashed hash audit) noAudits
      calls := by
  refine alongRun_invariant _ (fun _ _ ↦ True) (fun state call hbefore _ ↦ ?_)
    (fun _ hnone ↦ absurd hnone List.not_mem_nil) fun _ _ _ ↦ trivial
  cases call with
  | createBlockchain name =>
    show ∀ audit ∈ (auditCreateBlockchain state.audits name).1, Hashed hash audit
    rw [auditCreateBlockchain]
    split_ifs
    · exact hbefore
    · refine List.forall_mem_append.mpr ⟨hbefore, List.forall_mem_singleton.mpr ⟨rfl, ?_⟩⟩
      exact fun _ hnone ↦ absurd hnone List.not_mem_nil
  | onChain auditId call =>
    refine (forall_mem_callOn_iff hbefore).mpr fun audit haudit ↦ ?_
    exact (hbefore audit (mem_of_rowOf haudit)).act _ call

/-- After a step all blocks of a chain but the last one are mined exactly when they were before and
the step meets the condition. -/
theorem earlierMined_step_iff (hash : CString → CString) (auditId : UInt32) (state : Audits)
    (call : AuditCall) :
    (∀ audit, rowOf (auditStep hash state call).audits auditId = some audit →
        audit.EarlierMined) ↔
      (∀ audit, rowOf state.audits auditId = some audit → audit.EarlierMined) ∧
        call.OpensAfterMining auditId state := by
  cases call with
  | createBlockchain name =>
    show (∀ audit, rowOf (auditCreateBlockchain state.audits name).1 auditId = some audit →
      audit.EarlierMined) ↔ _ ∧ True
    rw [and_true, auditCreateBlockchain]
    split_ifs
    · exact Iff.rfl
    · constructor
      · exact fun hafter audit haudit ↦ hafter audit (rowOf_concat_of_some haudit)
      · intro hbefore audit haudit
        rcases rowOf_concat haudit with hold | ⟨-, rfl⟩
        · exact hbefore audit hold
        · exact fun _ hnone ↦ absurd hnone List.not_mem_nil
  | onChain other call =>
    show (∀ audit, rowOf (callOn state.audits other fun audit ↦
        call.act hash state.transactionIdCounter audit).1 auditId = some audit →
      audit.EarlierMined) ↔ _ ∧ (other = auditId → _)
    by_cases hother : other = auditId
    · subst hother
      rw [rowOf_callOn_self]
      cases haudit : rowOf state.audits other with
      | none => simp
      | some audit => simp [earlierMined_act_iff]
    · rw [rowOf_callOn_ne (Ne.symm hother)]
      exact (and_iff_left fun hsame ↦ absurd hsame hother).symm

/-- After a run all blocks of a chain but the last one are mined exactly when every call of the run
meets the condition. -/
theorem earlierMined_run_iff (hash : CString → CString) (auditId : UInt32)
    (calls : List AuditCall) :
    (∀ audit, rowOf (runFrom (auditStep hash) noAudits calls).audits auditId = some audit →
        audit.EarlierMined) ↔
      EveryStep (auditStep hash) (AuditCall.OpensAfterMining auditId) noAudits calls := by
  have hstart : ∀ audit, rowOf noAudits.audits auditId = some audit → audit.EarlierMined :=
    fun _ hnone ↦ absurd (mem_of_rowOf hnone) List.not_mem_nil
  exact (runFrom_iff_everyStep
    (fun state : Audits ↦ ∀ audit, rowOf state.audits auditId = some audit → audit.EarlierMined)
    (earlierMined_step_iff hash auditId)).trans (and_iff_right hstart)

/-- After every run, the integrity of a chain whose last call is a mining is confirmed exactly when
no call of the run opened a block of the chain behind one that was never mined. -/
theorem verifies_iff (calls : List AuditCall) (auditId : UInt32) (audit : BlockchainAudit)
    (haudit : rowOf (runFrom (auditStep computeSha256) noAudits calls).audits auditId =
      some audit) :
    auditVerifyChainIntegrity computeSha256
        (runFrom (auditStep computeSha256) noAudits
          (calls ++ [.onChain auditId .mineBlock])).audits auditId = 0 ↔
      EveryStep (auditStep computeSha256) (AuditCall.OpensAfterMining auditId) noAudits calls := by
  have hhashed := hashed_alongRun computeSha256 calls calls (List.prefix_refl calls) audit
    (mem_of_rowOf haudit)
  have hstate : (runFrom (withTrace (auditStep computeSha256) minedBlocksAfter)
      (noAudits, fun _ ↦ []) calls).1 = runFrom (auditStep computeSha256) noAudits calls :=
    runFrom_withTrace_fst
  have hmined := mined_alongRun computeSha256 calls calls (List.prefix_refl calls)
  have hchain := (hmined.related auditId audit (hstate ▸ haudit)).act 0 .mineBlock
  have hafter : rowOf (runFrom (auditStep computeSha256) noAudits
      (calls ++ [.onChain auditId .mineBlock])).audits auditId =
        some (audit.mineBlock computeSha256).1 := by
    rw [runFrom_append]
    show rowOf (callOn (runFrom (auditStep computeSha256) noAudits calls).audits auditId _).1
      auditId = _
    rw [rowOf_callOn_self, haudit, Option.map_some]
    rfl
  rw [auditVerifyChainIntegrity, hafter, ← earlierMined_run_iff, haudit]
  calc (audit.mineBlock computeSha256).1.verifyChainIntegrity computeSha256 = 0
      ↔ ∀ block ∈ (audit.mineBlock computeSha256).1.blocks, block.blockHash ≠ [] :=
        (hhashed.act 0 .mineBlock).verifyChainIntegrity_iff hchain.linked hchain.bounded
          computeSha256_ne_nil
    _ ↔ audit.EarlierMined := hhashed.mined_mineBlock_iff computeSha256_ne_nil
    _ ↔ ∀ found, some audit = some found → found.EarlierMined := by simp

/-- A block that is mined twice verifies. -/
theorem verifies_mined_twice :
    auditVerifyChainIntegrity computeSha256
      (runFrom (auditStep computeSha256) noAudits
        (mineOneEvent ++ [.onChain 1 .mineBlock])).audits 1 = 0 := by
  refine (verifies_iff mineOneEvent 1 _ rfl).mpr ?_
  simp [mineOneEvent, AuditCall.OpensAfterMining, ChainCall.OpensAfterMining, ChainCall.adds,
    noAudits, auditStep, auditCreateBlockchain, maxAudits, rowOf]

/-- The calls that make a chain, store as many events as a block holds and one more, and mine the
block. -/
def mineLastBlock : List AuditCall :=
  .createBlockchain [] ::
    (List.replicate (maxTransactionsPerBlock + 1)
      (.onChain 1 (.addEvent
        { userId := 7
          eventType := .fileAccess
          severity := .info
          eventData := []
          resource := []
          ipAddress := none } 5 5)) ++
      [.onChain 1 .mineBlock])

/-- The first block was full before it was mined, and it is reported. -/
theorem not_verifies_full_block :
    auditVerifyChainIntegrity computeSha256
      (runFrom (auditStep computeSha256) noAudits mineLastBlock).audits 1 = 1 := by
  decide +kernel

end OneOS.Audit
