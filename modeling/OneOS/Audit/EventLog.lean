import Mathlib.Algebra.Group.Action.Defs
import Mathlib.Algebra.Order.BigOperators.Group.List
import OneOS.Audit.ChainIntegrity
import OneOS.Foundation.BufferedLines

/-!
# The chains as one log

The transactions that are accepted are recorded beside the chains, in order, each with the chain
that it was added to (`entriesAfter`). After every run they are numbered 1, 2, 3, …, whatever chain
they are in, and each chain holds its own (`logOf`), cut into blocks of 256: every block but the
last one is full, and no transaction is lost, moved or changed by what comes after it, mining
included. A transaction is refused exactly when the chain holds 2^20 of them (`audit_log_run`).

The queries `audit_query_events` and `audit_query_by_user` therefore return the first transactions
of the log with the type or the user, as many as there is room for, and `audit_check_compliance`
counts the pairs of a transaction of the log and a rule that it violates.
-/

set_option autoImplicit false
set_option relaxedAutoImplicit false

namespace OneOS.Audit

open Foundation

/-! ### Queries -/

/-- The inner loop of a query: the transactions of a block that pass the test are found while there
is room. -/
def queryTransactions (test : AuditTransaction → Bool) (count : ℕ) :
    List AuditTransaction → List AuditTransaction → List AuditTransaction
  | found, [] => found
  | found, transaction :: rest =>
    if found.length < count then
      queryTransactions test count
        (if test transaction then found ++ [transaction] else found) rest
    else found

/-- A query of a chain, with the number of transactions that there is room for. -/
def BlockchainAudit.query (audit : BlockchainAudit) (test : AuditTransaction → Bool)
    (count : UInt32) : List AuditTransaction :=
  audit.blocks.foldl
    (fun found block ↦ queryTransactions test count.toNat found block.transactions) []

/-- The number of a severity. -/
def EventSeverity.toNat : EventSeverity → ℕ
  | .info => 1
  | .warning => 2
  | .critical => 3
  | .compliance => 4

/-- A transaction and the chain that it was added to. -/
abbrev LogEntry := UInt32 × AuditTransaction

/-- The transaction that an event is stored as. -/
def Event.transaction (event : Event) (counter now : UInt64) : AuditTransaction where
  transactionId := counter
  timestamp := now
  userId := event.userId
  eventType := event.eventType
  severity := event.severity
  eventData := event.eventData.take (maxEventData - 1)
  userAction := (ofChars ['a', 'c', 't', 'i', 'o', 'n', '_'] ++
    decimal event.eventType.toNat).take 126
  resource := event.resource.take 255
  result := ofChars ['s', 'u', 'c', 'c', 'e', 's', 's']
  ipAddress := (event.ipAddress.getD (ofChars ['0', '.', '0', '.', '0', '.', '0'])).take 63

/-- The transaction that a call adds to its chain, with the number that it gets. -/
def ChainCall.added (counter : UInt64) : ChainCall → Option AuditTransaction
  | .addEvent event _ now => some (event.transaction counter now)
  | .addTransaction transaction _ now =>
    some { transaction with transactionId := counter, timestamp := now }
  | .mineBlock => none

/-- The transactions that a chain accepts from a call: at most one. -/
def BlockchainAudit.accepted (audit : BlockchainAudit) (counter : UInt64) (call : ChainCall) :
    List AuditTransaction :=
  if audit.hasRoom then (call.added counter).toList else []

/-- The log of one chain. -/
def logOf (auditId : UInt32) (entries : List LogEntry) : List AuditTransaction :=
  (entries.filter fun entry ↦ entry.1 = auditId).map Prod.snd

/-- The number of transactions that a chain has room for. -/
def maxLog : ℕ := maxAuditBlocks * maxTransactionsPerBlock

/-- The blocks of a chain are its log, cut into parts of 256. -/
structure KeepsLog (audit : BlockchainAudit) (log : List AuditTransaction) : Prop where
  blocks : audit.blocks.map AuditBlock.transactions = cutLine maxTransactionsPerBlock log
  fits : log.length ≤ maxLog
  total : audit.totalTransactions = UInt64.ofNat log.length

variable {audit : BlockchainAudit} {log : List AuditTransaction} {hash : CString → CString}

theorem KeepsLog.flatMap_eq (hkeeps : KeepsLog audit log) :
    audit.blocks.flatMap AuditBlock.transactions = log := by
  rw [List.flatMap_def, hkeeps.blocks, flatten_cutLine (by decide)]

/-! ### One chain -/

/-- A chain needs a new block when there is none, or when the last one is full. -/
theorem KeepsLog.needsBlock_eq (hkeeps : KeepsLog audit log) :
    audit.needsBlock = (cutLine maxTransactionsPerBlock log).getLast?.all fun part ↦
      maxTransactionsPerBlock ≤ part.length := by
  rw [BlockchainAudit.needsBlock, ← hkeeps.blocks, List.getLast?_map]
  cases audit.blocks.getLast? <;> rfl

/-- A chain has room for another transaction exactly when its log is not full. -/
theorem KeepsLog.hasRoom_iff (hkeeps : KeepsLog audit log) :
    audit.hasRoom = true ↔ log.length < maxLog := by
  have hlength := congrArg List.length hkeeps.blocks
  rw [List.length_map, length_cutLine] at hlength
  have hfits := hkeeps.fits
  have hneeds := @last_cutLine_full_iff _ maxTransactionsPerBlock (by decide) log
  rw [← hkeeps.needsBlock_eq] at hneeds
  rw [BlockchainAudit.hasRoom, Bool.or_eq_true, Bool.not_eq_true', decide_eq_true_iff, hlength,
    ← Bool.not_eq_true, hneeds]
  rw [maxLog] at hfits ⊢
  simp only [maxAuditBlocks, maxTransactionsPerBlock] at hfits ⊢
  omega

/-- A transaction that is stored is added to the log. -/
theorem KeepsLog.store (hkeeps : KeepsLog audit log) (opened : UInt64)
    (transaction : AuditTransaction) :
    (audit.store opened transaction).map AuditBlock.transactions =
      cutLine maxTransactionsPerBlock (log ++ [transaction]) := by
  have hmap : ∀ blocks : List AuditBlock,
      (blocks.modifyLast fun block ↦
        { block with transactions := block.transactions ++ [transaction] }).map
          AuditBlock.transactions =
        (blocks.map AuditBlock.transactions).modifyLast (· ++ [transaction]) := by
    intro blocks
    rcases List.eq_nil_or_concat blocks with rfl | ⟨earlier, last, rfl⟩
    · rfl
    · rw [List.concat_eq_append, List.modifyLast_concat, List.map_append, List.map_append,
        List.map_singleton, List.map_singleton, List.modifyLast_concat]
  rw [BlockchainAudit.store, hmap, cutLine_concat (by decide), ← hkeeps.needsBlock_eq,
    ← hkeeps.blocks]
  split_ifs
  · rw [List.map_append, List.map_singleton]
    rfl
  · rfl

/-- A call on a chain adds the transaction that it is made with, if there is room for it. -/
theorem KeepsLog.act (hkeeps : KeepsLog audit log) (counter : UInt64) (call : ChainCall) :
    KeepsLog (call.act hash counter audit).1 (log ++ audit.accepted counter call) := by
  rw [BlockchainAudit.accepted]
  have hstored : ∀ opened transaction, audit.hasRoom = true → ∀ later : BlockchainAudit,
      later.blocks = audit.store opened transaction →
      later.totalTransactions = audit.totalTransactions + 1 →
      KeepsLog later (log ++ [transaction]) := by
    intro opened transaction hroom later hblocks htotal
    refine ⟨hblocks ▸ hkeeps.store opened transaction, ?_, ?_⟩
    · rw [List.length_append]
      exact hkeeps.hasRoom_iff.mp hroom
    · rw [htotal, hkeeps.total, List.length_append, UInt64.ofNat_add]
      rfl
  cases call with
  | addEvent event opened now =>
    rw [ChainCall.act, BlockchainAudit.addEvent]
    split_ifs with hroom
    · exact hstored opened _ hroom _ rfl rfl
    · rwa [List.append_nil]
  | addTransaction transaction opened now =>
    rw [ChainCall.act, BlockchainAudit.addTransaction]
    split_ifs with hroom
    · exact hstored opened _ hroom _ rfl rfl
    · rwa [List.append_nil]
  | mineBlock =>
    rw [ChainCall.added, Option.toList_none, ite_self, List.append_nil]
    rw [ChainCall.act, BlockchainAudit.mineBlock]
    split_ifs
    · exact hkeeps
    · refine ⟨?_, hkeeps.fits, hkeeps.total⟩
      rw [← hkeeps.blocks]
      rcases List.eq_nil_or_concat audit.blocks with hnil | ⟨earlier, last, hconcat⟩
      · rw [hnil]
        rfl
      · rw [hconcat, List.concat_eq_append, List.modifyLast_concat, List.map_append,
          List.map_append]
        rfl

/-- The number of transactions that a chain holds. -/
def BlockchainAudit.held (audit : BlockchainAudit) : ℕ :=
  (audit.blocks.flatMap AuditBlock.transactions).length

/-- Every chain holds its log, and the transactions that were accepted are numbered in order. -/
structure LogsMatch (traced : Audits × List LogEntry) : Prop where
  rows : RowsMatch KeepsLog [] traced.1.audits fun auditId ↦ logOf auditId traced.2
  audits_fit : traced.1.audits.length ≤ maxAudits
  counter : traced.1.transactionIdCounter = UInt64.ofNat (traced.2.length + 1)
  numbers : traced.2.map (fun entry ↦ entry.2.transactionId) =
    (List.range traced.2.length).map fun i ↦ UInt64.ofNat (i + 1)
  held_le : ∀ audit ∈ traced.1.audits, audit.held ≤ maxLog
  all_held : (traced.1.audits.map BlockchainAudit.held).sum = traced.2.length

/-- A chain holds no more than there is room for, and there is room for 16 chains. So all that was
accepted could be numbered without an overflow. -/
theorem LogsMatch.length_le {traced : Audits × List LogEntry} (hlogs : LogsMatch traced) :
    traced.2.length ≤ maxAudits * maxLog := by
  have hheld : ∀ held ∈ traced.1.audits.map BlockchainAudit.held, held ≤ maxLog := by
    intro held hmem
    obtain ⟨audit, haudit, rfl⟩ := List.mem_map.mp hmem
    exact hlogs.held_le audit haudit
  rw [← hlogs.all_held]
  refine (List.sum_le_card_nsmul _ _ hheld).trans ?_
  rw [List.length_map, smul_eq_mul]
  exact Nat.mul_le_mul_right _ hlogs.audits_fit

theorem KeepsLog.held_eq (hkeeps : KeepsLog audit log) : audit.held = log.length := by
  rw [BlockchainAudit.held, hkeeps.flatMap_eq]

end OneOS.Audit
