import Mathlib.Data.List.ModifyLast
import OneOS.Foundation.CStrings
import OneOS.Foundation.NumberedTable
import OneOS.Foundation.Runs

/-!
# The audit chain

`services/blockchain_audit.c`: chains of blocks of transactions. A transaction is added to the last
block, or to a new one when the last block is full, and `audit_mine_block` computes the Merkle root
and the hash of the last block. `audit_verify_block` computes the hash of a block again and compares
the hash that the block keeps of the one before it, and `audit_detect_tampering` lists the blocks
that do not verify.

The hash function is a parameter. The one of the source, which is not the function its name says, is
`computeSha256`.

Left out are the checks of pointers, the deletion of chains, the rules, the queries, and the fields
of a block that are only written. The times are inputs.
-/

set_option autoImplicit false
set_option relaxedAutoImplicit false

namespace OneOS.Audit

open Foundation

/-! ### Blocks -/

/-- The number of chains that there is room for. -/
def maxAudits : ℕ := 16

/-- `MAX_AUDIT_BLOCKS`. -/
def maxAuditBlocks : ℕ := 4096

/-- `MAX_TRANSACTIONS_PER_BLOCK`. -/
def maxTransactionsPerBlock : ℕ := 256

/-- `MAX_SIGNATURE_SIZE`. -/
def maxSignatureSize : ℕ := 256

/-- `MAX_EVENT_DATA`. -/
def maxEventData : ℕ := 512

/-- The size of an `AuditTransaction` in bytes. -/
def sizeofAuditTransaction : UInt64 := 1056

/-- `AuditEventType`. -/
inductive AuditEventType
  | userLogin
  | fileAccess
  | fileModify
  | fileDelete
  | permissionChange
  | systemConfig
  | securityAlert
  | resourceAllocation
  | transaction
  | deployment
  | backup
  deriving DecidableEq, Repr

/-- The number of an event type. -/
def AuditEventType.toNat : AuditEventType → ℕ
  | .userLogin => 1
  | .fileAccess => 2
  | .fileModify => 3
  | .fileDelete => 4
  | .permissionChange => 5
  | .systemConfig => 6
  | .securityAlert => 7
  | .resourceAllocation => 8
  | .transaction => 9
  | .deployment => 10
  | .backup => 11

/-- `EventSeverity`. -/
inductive EventSeverity
  | info
  | warning
  | critical
  | compliance
  deriving DecidableEq, Repr

/-- `AuditTransaction`. -/
structure AuditTransaction where
  transactionId : UInt64
  timestamp : UInt64
  userId : UInt32
  eventType : AuditEventType
  severity : EventSeverity
  eventData : CString
  userAction : CString
  resource : CString
  result : CString
  ipAddress : CString
  deriving DecidableEq, Repr

/-- `AuditBlock`. -/
structure AuditBlock where
  blockId : UInt32
  timestamp : UInt64
  previousHash : CString
  merkleRoot : CString
  blockHash : CString
  blockSignature : CString
  transactions : List AuditTransaction
  deriving DecidableEq, Repr

/-- `BlockchainAudit`. -/
structure BlockchainAudit where
  auditId : UInt32
  name : CString
  blocks : List AuditBlock
  miningEnabled : Bool
  totalEvents : UInt64
  totalTransactions : UInt64
  bytesStored : UInt64
  deriving DecidableEq, Repr

/-- The chains, with the counter that numbers transactions. -/
structure Audits where
  audits : List BlockchainAudit
  transactionIdCounter : UInt64
  deriving DecidableEq, Repr

/-- There are no chains yet. -/
def noAudits : Audits where
  audits := []
  transactionIdCounter := 1

/-! ### Hashes -/

/-- `compute_sha256`. -/
def computeSha256 (data : CString) : CString :=
  let sum : UInt32 := data.foldl (fun sum char ↦ (sum * 31 + char.toUInt32) % 0xFFFFFFFF) 0
  let h0 := (0x6a09e667 : UInt32) ^^^ sum
  let h1 := (0xbb67ae85 : UInt32) ^^^ (h0 <<< 7)
  let h2 := (0x3c6ef372 : UInt32) ^^^ (h1 >>> 5)
  let h3 := (0xa54ff53a : UInt32) ^^^ (h2 <<< 11)
  hexadecimal h0.toNat 8 ++ hexadecimal h1.toNat 8 ++ hexadecimal h2.toNat 8 ++
    hexadecimal h3.toNat 8

/-- `compute_merkle_root`. It covers the numbers of the first 16 transactions. -/
def computeMerkleRoot (hash : CString → CString) (transactions : List AuditTransaction) : CString :=
  if transactions = [] then ofChars (List.replicate 16 '0')
  else
    hash ((transactions.take 16).flatMap fun transaction ↦
      (hexadecimal transaction.transactionId.toNat 0).take 63)

/-- What the hash of a block is taken of. -/
def AuditBlock.data (block : AuditBlock) : CString :=
  (decimal block.blockId.toNat ++ decimal block.timestamp.toNat ++ block.previousHash ++
    block.merkleRoot).take 1022

/-! ### Transactions -/

/-- `audit_create_blockchain`. -/
def auditCreateBlockchain (audits : List BlockchainAudit) (name : CString) :
    List BlockchainAudit × Int :=
  if maxAudits ≤ audits.length then (audits, -1)
  else
    let auditId := UInt32.ofNat (audits.length + 1)
    (audits ++
      [{ auditId := auditId
         name := name.take 63
         blocks := []
         miningEnabled := true
         totalEvents := 0
         totalTransactions := 0
         bytesStored := 0 }], auditId.toInt32.toInt)

/-- The chain needs a new block for the next transaction. -/
def BlockchainAudit.needsBlock (audit : BlockchainAudit) : Bool :=
  audit.blocks.getLast?.all fun block ↦ maxTransactionsPerBlock ≤ block.transactions.length

/-- The chain has room for another transaction. -/
def BlockchainAudit.hasRoom (audit : BlockchainAudit) : Bool :=
  !audit.needsBlock || audit.blocks.length < maxAuditBlocks

/-- The block that is made when one is needed. Its memory is 0. -/
def BlockchainAudit.newBlock (audit : BlockchainAudit) (now : UInt64) : AuditBlock where
  blockId := UInt32.ofNat (audit.blocks.length + 1)
  timestamp := now
  previousHash := (audit.blocks.getLast?.map AuditBlock.blockHash).getD
    (ofChars ['g', 'e', 'n', 'e', 's', 'i', 's'])
  merkleRoot := []
  blockHash := []
  blockSignature := []
  transactions := []

/-- Put a transaction into the last block, after a new one is made if it is needed. -/
def BlockchainAudit.store (audit : BlockchainAudit) (opened : UInt64)
    (transaction : AuditTransaction) : List AuditBlock :=
  (if audit.needsBlock then audit.blocks ++ [audit.newBlock opened] else audit.blocks).modifyLast
    fun block ↦ { block with transactions := block.transactions ++ [transaction] }

/-- What an event is reported with. -/
structure Event where
  userId : UInt32
  eventType : AuditEventType
  severity : EventSeverity
  eventData : CString
  resource : CString
  ipAddress : Option CString
  deriving DecidableEq, Repr

/-- `audit_add_event`, on its chain, with the number of the next transaction. -/
def BlockchainAudit.addEvent (audit : BlockchainAudit) (counter : UInt64) (event : Event)
    (opened now : UInt64) : BlockchainAudit × Int :=
  if audit.hasRoom then
    ({ audit with
      blocks := audit.store opened
        { transactionId := counter
          timestamp := now
          userId := event.userId
          eventType := event.eventType
          severity := event.severity
          eventData := event.eventData.take (maxEventData - 1)
          userAction := (ofChars ['a', 'c', 't', 'i', 'o', 'n', '_'] ++
            decimal event.eventType.toNat).take 126
          resource := event.resource.take 255
          result := ofChars ['s', 'u', 'c', 'c', 'e', 's', 's']
          ipAddress := (event.ipAddress.getD
            (ofChars ['0', '.', '0', '.', '0', '.', '0'])).take 63 }
      totalEvents := audit.totalEvents + 1
      totalTransactions := audit.totalTransactions + 1
      bytesStored := audit.bytesStored + sizeofAuditTransaction }, 0)
  else (audit, -1)

/-- `audit_add_transaction`, on its chain, with the number of the next transaction. Other than an
event it is not counted as one, and the bytes that are stored are not counted. -/
def BlockchainAudit.addTransaction (audit : BlockchainAudit) (counter : UInt64)
    (transaction : AuditTransaction) (opened now : UInt64) : BlockchainAudit × Int :=
  if audit.hasRoom then
    ({ audit with
      blocks := audit.store opened
        { transaction with transactionId := counter, timestamp := now }
      totalTransactions := audit.totalTransactions + 1 }, 0)
  else (audit, -1)

/-! ### Mining and verification -/

/-- What `audit_mine_block` does to a block. -/
def AuditBlock.mine (hash : CString → CString) (block : AuditBlock) : AuditBlock :=
  let rooted := { block with merkleRoot := computeMerkleRoot hash block.transactions }
  { rooted with
    blockHash := hash rooted.data
    blockSignature :=
      (ofChars ['s', 'i', 'g', '_'] ++ hash rooted.data).take (maxSignatureSize - 2) }

/-- `audit_mine_block`, on its chain. -/
def BlockchainAudit.mineBlock (hash : CString → CString) (audit : BlockchainAudit) :
    BlockchainAudit × Int :=
  if audit.blocks.length = 0 ∨ audit.miningEnabled = false then (audit, -1)
  else ({ audit with blocks := audit.blocks.modifyLast (AuditBlock.mine hash) }, 0)

/-- `audit_verify_block`, on its chain. -/
def BlockchainAudit.verifyBlock (hash : CString → CString) (audit : BlockchainAudit)
    (blockId : UInt32) : Int :=
  match rowOf audit.blocks blockId with
  | none => -1
  | some block =>
    if hash block.data ≠ block.blockHash then -1
    else
      match rowOf audit.blocks (blockId - 1) with
      | none => 0
      | some previous => if previous.blockHash ≠ block.previousHash then -1 else 0

/-- The ids of the blocks of a chain. -/
def BlockchainAudit.blockIds (audit : BlockchainAudit) : List UInt32 :=
  (List.range audit.blocks.length).map fun i ↦ UInt32.ofNat (i + 1)

/-- `audit_verify_chain_integrity`, on its chain: the first block that does not verify, or 0. -/
def BlockchainAudit.verifyChainIntegrity (hash : CString → CString) (audit : BlockchainAudit) :
    Int :=
  ((audit.blockIds.find? fun blockId ↦ audit.verifyBlock hash blockId ≠ 0).map fun blockId ↦
    blockId.toInt32.toInt).getD 0

/-- `audit_verify_chain_integrity`. -/
def auditVerifyChainIntegrity (hash : CString → CString) (audits : List BlockchainAudit)
    (auditId : UInt32) : Int :=
  match rowOf audits auditId with
  | none => -1
  | some audit => audit.verifyChainIntegrity hash

/-- `audit_detect_tampering`, on its chain, with the size of the array: the blocks that are
listed. -/
def BlockchainAudit.detectTampering (hash : CString → CString) (audit : BlockchainAudit)
    (count : UInt32) : List UInt32 :=
  (audit.blockIds.filter fun blockId ↦ audit.verifyBlock hash blockId ≠ 0).take count.toNat

/-- `audit_detect_tampering`. Without the chain the call fails. -/
def auditDetectTampering (hash : CString → CString) (audits : List BlockchainAudit)
    (auditId count : UInt32) : Option (List UInt32) :=
  (rowOf audits auditId).map fun audit ↦ audit.detectTampering hash count

/-! ### Calls -/

/-- A call on a chain. -/
inductive ChainCall
  | addEvent (event : Event) (opened now : UInt64)
  | addTransaction (transaction : AuditTransaction) (opened now : UInt64)
  | mineBlock
  deriving DecidableEq, Repr

/-- A call to the chains. -/
inductive AuditCall
  | createBlockchain (name : CString)
  | onChain (auditId : UInt32) (call : ChainCall)
  deriving DecidableEq, Repr

/-- What a call on a chain does to it, and what it returns. -/
def ChainCall.act (hash : CString → CString) (counter : UInt64) (audit : BlockchainAudit) :
    ChainCall → BlockchainAudit × Int
  | .addEvent event opened now => audit.addEvent counter event opened now
  | .addTransaction transaction opened now => audit.addTransaction counter transaction opened now
  | .mineBlock => audit.mineBlock hash

/-- A call that adds a transaction, for which a number is taken. -/
def ChainCall.adds : ChainCall → Bool
  | .addEvent _ _ _ => true
  | .addTransaction _ _ _ => true
  | .mineBlock => false

/-- What a call does to the chains. -/
def auditStep (hash : CString → CString) (state : Audits) : AuditCall → Audits
  | .createBlockchain name =>
    { state with audits := (auditCreateBlockchain state.audits name).1 }
  | .onChain auditId call =>
    let called := callOn state.audits auditId fun audit ↦
      call.act hash state.transactionIdCounter audit
    { audits := called.1
      transactionIdCounter :=
        if call.adds = true ∧ called.2 = 0 then state.transactionIdCounter + 1
        else state.transactionIdCounter }

end OneOS.Audit
