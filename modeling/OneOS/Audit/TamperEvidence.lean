import OneOS.Audit.BlockchainAudit
import OneOS.Foundation.Counters
import OneOS.Foundation.LinkedBlocks

/-!
# Tamper evidence

A chain is to show when a transaction that it stores is changed. Which blocks were mined after
their last transaction is recorded by `minedBlocksAfter`.

`detectTampering_tampered`: whatever the hash function, and whatever is changed in the transactions
of a chain whose blocks were all mined after their last transaction, `audit_detect_tampering` lists
no block. The hash of a block is taken of the Merkle root that the block keeps, and no verification
computes the root again from the transactions; a block that was mined has the right hash, and keeps
the hash of the block before it (`Mined`), and a change of transactions leaves all that
(`Verified.tamper`).
-/

set_option autoImplicit false
set_option relaxedAutoImplicit false

namespace OneOS.Audit

open Foundation

/-! ### Which blocks are mined -/

/-- Which blocks of a chain were mined after their last transaction, after a call. -/
def BlockchainAudit.minedAfter (audit : BlockchainAudit) (call : ChainCall) (mined : List Bool) :
    List Bool :=
  match call with
  | .mineBlock =>
    if audit.blocks.length = 0 ∨ audit.miningEnabled = false then mined
    else mined.modifyLast fun _ ↦ true
  | .addEvent _ _ _ | .addTransaction _ _ _ =>
    if audit.hasRoom then
      (if audit.needsBlock then mined ++ [false] else mined).modifyLast fun _ ↦ false
    else mined

/-- Which blocks of the chains were mined after their last transaction, after a call. -/
def minedBlocksAfter (state : Audits) (call : AuditCall) (mined : UInt32 → List Bool) :
    UInt32 → List Bool :=
  match call with
  | .createBlockchain _ => mined
  | .onChain auditId call =>
    recordAfter state.audits auditId (fun audit mined ↦ audit.minedAfter call mined) mined

/-! ### Changes of stored transactions -/

/-- A change of a stored transaction: in which block it is, where in the block, and what becomes of
it. -/
structure Tampering where
  block : ℕ
  transaction : ℕ
  change : AuditTransaction → AuditTransaction

/-- Change a stored transaction. -/
def BlockchainAudit.tamper (audit : BlockchainAudit) (tampering : Tampering) : BlockchainAudit :=
  { audit with
    blocks := audit.blocks.modify tampering.block fun block ↦
      { block with
        transactions := block.transactions.modify tampering.transaction tampering.change } }

/-! ### Verification -/

variable {hash : CString → CString} {audit : BlockchainAudit} {mined : List Bool}

/-- Every block has the hash of what it keeps, and keeps the hash of the block before it. -/
structure Verified (hash : CString → CString) (audit : BlockchainAudit) : Prop where
  hashes : ∀ block ∈ audit.blocks, hash block.data = block.blockHash
  linked : Linked AuditBlock.blockHash AuditBlock.previousHash audit.blocks
  bounded : audit.blocks.length ≤ maxAuditBlocks

/-- The blocks that were mined after their last transaction have the hash of what they keep, and
every block keeps the hash of the block before it. -/
structure Mined (hash : CString → CString) (audit : BlockchainAudit) (mined : List Bool) :
    Prop where
  hashes : List.Forall₂ (fun block flag ↦ flag = true → hash block.data = block.blockHash)
    audit.blocks mined
  linked : Linked AuditBlock.blockHash AuditBlock.previousHash audit.blocks
  bounded : audit.blocks.length ≤ maxAuditBlocks

/-- Every block of a chain that is verified verifies. -/
theorem Verified.verifyBlock (hverified : Verified hash audit) {blockId : UInt32}
    {block : AuditBlock} (hblock : rowOf audit.blocks blockId = some block) :
    audit.verifyBlock hash blockId = 0 := by
  rw [BlockchainAudit.verifyBlock, hblock]
  dsimp only
  rw [if_neg (not_not.mpr (hverified.hashes block (mem_of_rowOf hblock)))]
  cases hprevious : rowOf audit.blocks (blockId - 1) with
  | none => rfl
  | some previous =>
    obtain ⟨hzero, hat⟩ := rowOf_eq_some_iff.mp hblock
    obtain ⟨hfirst, hbefore⟩ := rowOf_eq_some_iff.mp hprevious
    have hthis := toNat_pred_add_one hzero
    have hbeforeThis := toNat_pred_add_one hfirst
    have hnext : blockId.toNat - 1 = (blockId - 1).toNat - 1 + 1 := by omega
    rw [hnext] at hat
    exact if_neg (not_not.mpr (hverified.linked.getElem? hbefore hat).symm)

/-- The ids of the blocks name blocks, as long as there are not too many. -/
theorem exists_rowOf_of_mem_blockIds (hlength : audit.blocks.length ≤ maxAuditBlocks)
    {blockId : UInt32} (hid : blockId ∈ audit.blockIds) :
    ∃ block, rowOf audit.blocks blockId = some block := by
  obtain ⟨i, hi, rfl⟩ := List.mem_map.mp hid
  rw [List.mem_range] at hi
  have hbound : audit.blocks.length ≤ 4096 := hlength
  have htoNat : (UInt32.ofNat (i + 1)).toNat = i + 1 :=
    UInt32.toNat_ofNat_of_lt' (show i + 1 < 2 ^ 32 by omega)
  refine ⟨audit.blocks.get ⟨i, hi⟩, rowOf_eq_some_iff.mpr ⟨fun hzero ↦ ?_, ?_⟩⟩
  · rw [hzero] at htoNat
    exact absurd htoNat (Nat.succ_ne_zero i).symm
  · rw [htoNat, Nat.add_sub_cancel]
    exact List.getElem?_eq_getElem hi

/-- No block of a chain that is verified fails to verify. -/
theorem Verified.verifyBlock_of_mem (hverified : Verified hash audit) :
    ∀ blockId ∈ audit.blockIds, audit.verifyBlock hash blockId = 0 := by
  intro blockId hid
  obtain ⟨block, hblock⟩ := exists_rowOf_of_mem_blockIds hverified.bounded hid
  exact hverified.verifyBlock hblock

/-- Nothing is listed of a chain that is verified. -/
theorem Verified.detectTampering (hverified : Verified hash audit) (count : UInt32) :
    audit.detectTampering hash count = [] := by
  rw [BlockchainAudit.detectTampering, List.filter_eq_nil_iff.mpr, List.take_nil]
  intro blockId hid
  simp [hverified.verifyBlock_of_mem blockId hid]

/-- The integrity of a chain that is verified is confirmed. -/
theorem Verified.verifyChainIntegrity (hverified : Verified hash audit) :
    audit.verifyChainIntegrity hash = 0 := by
  rw [BlockchainAudit.verifyChainIntegrity, List.find?_eq_none.mpr]
  · rfl
  · intro blockId hid
    simp [hverified.verifyBlock_of_mem blockId hid]

/-- A change of a stored transaction leaves a chain verified. -/
theorem Verified.tamper (hverified : Verified hash audit) (tampering : Tampering) :
    Verified hash (audit.tamper tampering) := by
  refine ⟨forall_mem_modify hverified.hashes (fun block hblock ↦ ?_) _, ?_, ?_⟩
  · exact hblock
  · refine hverified.linked.modify ?_ ?_ _
    · exact fun _ ↦ rfl
    · exact fun _ ↦ rfl
  · rw [BlockchainAudit.tamper, List.length_modify]
    exact hverified.bounded

/-! ### Calls on a chain -/

/-- A chain whose blocks were all mined after their last transaction is verified. -/
theorem Mined.verified (hmined : Mined hash audit mined) (hall : ∀ flag ∈ mined, flag = true) :
    Verified hash audit := by
  refine ⟨fun block hblock ↦ ?_, hmined.linked, hmined.bounded⟩
  obtain ⟨i, hlt, rfl⟩ := List.getElem_of_mem hblock
  have hflag : i < mined.length := by
    rw [← hmined.hashes.length_eq]
    exact hlt
  exact (List.forall₂_iff_get.mp hmined.hashes).2 i hlt hflag (hall _ (List.getElem_mem hflag))

/-- Storing a transaction, if there is room, keeps what is asked of mined blocks: the block that it
is put into is not mined after it. -/
theorem Mined.store (hmined : Mined hash audit mined) (opened : UInt64)
    (transaction : AuditTransaction) {stored : BlockchainAudit}
    (hstored : stored.blocks = audit.store opened transaction) :
    Mined hash (if audit.hasRoom then (stored, (0 : Int)) else (audit, -1)).1
      (if audit.hasRoom then
        (if audit.needsBlock then mined ++ [false] else mined).modifyLast fun _ ↦ false
      else mined) := by
  by_cases hroom : audit.hasRoom = true
  case neg =>
    rw [if_neg hroom, if_neg hroom]
    exact hmined
  rw [if_pos hroom, if_pos hroom]
  -- a block that is made keeps the hash of the last one
  have hopened : Mined hash
      { audit with
        blocks := if audit.needsBlock then audit.blocks ++ [audit.newBlock opened]
          else audit.blocks }
      (if audit.needsBlock then mined ++ [false] else mined) := by
    by_cases hneeds : audit.needsBlock = true
    · rw [if_pos hneeds, if_pos hneeds]
      have hless : audit.blocks.length < maxAuditBlocks := by
        simpa [BlockchainAudit.hasRoom, hneeds] using hroom
      refine ⟨List.rel_append hmined.hashes (.cons (by simp) .nil),
        hmined.linked.concat fun last hlast ↦ ?_, ?_⟩
      · rw [BlockchainAudit.newBlock, Option.mem_def.mp hlast]
        rfl
      · rw [List.length_append, List.length_singleton]
        exact hless
    · rw [if_neg hneeds, if_neg hneeds]
      exact hmined
  refine ⟨?_, ?_, ?_⟩
  · rw [hstored]
    exact forall₂_modifyLast hopened.hashes (by simp)
  · rw [hstored]
    refine hopened.linked.modifyLast ?_
    exact fun _ ↦ rfl
  · rw [hstored, BlockchainAudit.store, length_modifyLast]
    exact hopened.bounded

/-- Every call on a chain keeps what is asked of mined blocks. -/
theorem Mined.act (hmined : Mined hash audit mined) (counter : UInt64) (call : ChainCall) :
    Mined hash (call.act hash counter audit).1 (audit.minedAfter call mined) := by
  cases call with
  | addEvent event opened now => exact hmined.store opened _ rfl
  | addTransaction transaction opened now => exact hmined.store opened _ rfl
  | mineBlock =>
    rw [ChainCall.act, BlockchainAudit.mineBlock, BlockchainAudit.minedAfter]
    by_cases hnone : audit.blocks.length = 0 ∨ audit.miningEnabled = false
    · rw [if_pos hnone, if_pos hnone]
      exact hmined
    · rw [if_neg hnone, if_neg hnone]
      refine ⟨forall₂_modifyLast hmined.hashes fun _ _ _ _ ↦ rfl, ?_, ?_⟩
      · refine hmined.linked.modifyLast ?_
        exact fun _ ↦ rfl
      · rw [length_modifyLast]
        exact hmined.bounded

/-! ### Runs -/

/-- After every run the blocks that were mined after their last transaction have the hash of what
they keep, and every block keeps the hash of the block before it. -/
theorem mined_alongRun (hash : CString → CString) (calls : List AuditCall) :
    AlongRun (withTrace (auditStep hash) minedBlocksAfter)
      (fun traced ↦ RowsMatch (Mined hash) [] traced.1.audits traced.2) (noAudits, fun _ ↦ [])
      calls := by
  refine alongRun_invariant _ (fun _ _ ↦ True) (fun traced call hbefore _ ↦ ?_) rowsMatch_nil
    fun _ _ _ ↦ trivial
  cases call with
  | createBlockchain name =>
    show RowsMatch (Mined hash) [] (auditCreateBlockchain traced.1.audits name).1 traced.2
    rw [auditCreateBlockchain]
    split_ifs
    · exact hbefore
    · exact hbefore.concat ⟨.nil, List.isChain_nil, Nat.zero_le _⟩
  | onChain auditId call =>
    refine (hbefore.recordAfter_iff _).mpr fun audit haudit ↦ ?_
    exact (hbefore.related auditId audit haudit).act _ call

/-- Whatever the hash function is, and however the chains were built: if the blocks of a chain were
all mined after their last transaction, and then any of its transactions are changed in any way,
`audit_detect_tampering` lists no block, however large the array is. -/
theorem detectTampering_tampered (hash : CString → CString) (calls : List AuditCall)
    (auditId : UInt32) (audit : BlockchainAudit)
    (haudit : rowOf (runFrom (withTrace (auditStep hash) minedBlocksAfter) (noAudits, fun _ ↦ [])
      calls).1.audits auditId = some audit)
    (hmined : ∀ flag ∈ (runFrom (withTrace (auditStep hash) minedBlocksAfter)
      (noAudits, fun _ ↦ []) calls).2 auditId, flag = true)
    (tamperings : List Tampering) (count : UInt32) :
    auditDetectTampering hash
      (callOn (runFrom (withTrace (auditStep hash) minedBlocksAfter) (noAudits, fun _ ↦ [])
        calls).1.audits auditId fun audit ↦ (runFrom BlockchainAudit.tamper audit tamperings, 0)).1
      auditId count = some [] := by
  have hreached := mined_alongRun hash calls calls (List.prefix_refl calls)
  have hverified := (hreached.related auditId audit haudit).verified hmined
  have htampered : Verified hash (runFrom BlockchainAudit.tamper audit tamperings) :=
    runFrom_invariant (Verified hash) (fun _ _ ↦ True)
      (fun _ tampering hbefore _ ↦ hbefore.tamper tampering) hverified fun _ _ _ ↦ trivial
  rw [auditDetectTampering, rowOf_callOn_self, haudit, Option.map_some, Option.map_some,
    htampered.detectTampering]

/-- The calls that make a chain, store an event and mine the block. -/
def mineOneEvent : List AuditCall :=
  [.createBlockchain [],
    .onChain 1 (.addEvent
      { userId := 7
        eventType := .fileDelete
        severity := .critical
        eventData := ofChars ['r', 'm']
        resource := ofChars ['/', 'a']
        ipAddress := none } 5 5),
    .onChain 1 .mineBlock]

/-- Write other data into the first transaction. -/
def rewriteData : Tampering where
  block := 0
  transaction := 0
  change transaction := { transaction with eventData := ofChars ['l', 's'] }

/-- With the hash of the source, the data of an event is changed and nothing is listed. -/
theorem detectTampering_tampered_computeSha256 :
    auditDetectTampering computeSha256
      (callOn (runFrom (withTrace (auditStep computeSha256) minedBlocksAfter)
        (noAudits, fun _ ↦ []) mineOneEvent).1.audits 1 fun audit ↦
          (runFrom BlockchainAudit.tamper audit [rewriteData], 0)).1 1 16 = some [] :=
  detectTampering_tampered computeSha256 mineOneEvent 1 _ rfl (by decide +kernel) [rewriteData] 16

/-- With a hash that is injective, the data of an event in a block that was mined after it is
changed and nothing is listed. -/
theorem not_detected_rewriteData :
    Function.Injective (id : CString → CString) ∧
      (runFrom (withTrace (auditStep id) minedBlocksAfter) (noAudits, fun _ ↦ [])
        mineOneEvent).2 1 = [true] ∧
      (callOn (runFrom (withTrace (auditStep id) minedBlocksAfter) (noAudits, fun _ ↦ [])
          mineOneEvent).1.audits 1 fun audit ↦ (audit.tamper rewriteData, 0)).1 ≠
        (runFrom (withTrace (auditStep id) minedBlocksAfter) (noAudits, fun _ ↦ [])
          mineOneEvent).1.audits ∧
      auditDetectTampering id
        (callOn (runFrom (withTrace (auditStep id) minedBlocksAfter) (noAudits, fun _ ↦ [])
          mineOneEvent).1.audits 1 fun audit ↦ (audit.tamper rewriteData, 0)).1 1 16 = some [] := by
  refine ⟨Function.injective_id, ?_, ?_, ?_⟩
  · decide +kernel
  · decide +kernel
  · decide +kernel

end OneOS.Audit
