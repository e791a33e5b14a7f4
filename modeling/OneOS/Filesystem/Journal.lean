import Mathlib.Data.List.Nodup
import OneOS.Foundation.Runs
import OneOS.Foundation.Table

/-!
# The filesystem journal

`fs/fs_journal.c`. The journal holds a table of entries, which only grows, and a table of
transactions, which `journal_checkpoint` compacts. A transaction lists the ids of its entries, and
commit, abort and recovery reach an entry by looking its id up in the shared table. Times are inputs
of the calls that read the clock.

The list `entry_ids` of a transaction has 256 cells and `journal_add_entry` does not check that one
is left. What a write behind the last cell does is not defined by the language, so it is a parameter
`overrun` of the model: an arbitrary change of the journal. `EntriesFit` says that a call makes no
such write, and results about runs assume it of every call.

A crash inside `journal_commit_transaction` is `commitInterrupted`, the journal after `COMMITTING`
has been set and a number of entries marked; damage to the stored bytes is `damageEntries`.
-/

set_option autoImplicit false
set_option relaxedAutoImplicit false

namespace OneOS.Filesystem.Journal

open Foundation

/-! ### The journal -/

/-- `MAX_JOURNAL_ENTRIES`. -/
def maxJournalEntries : ℕ := 4096

/-- `MAX_JOURNAL_TRANSACTIONS`. -/
def maxJournalTransactions : ℕ := 512

/-- `JOURNAL_ENTRY_SIZE`. -/
def journalEntrySize : ℕ := 512

/-- The number of cells of `entry_ids`. -/
def maxTransactionEntries : ℕ := 256

/-- `JournalMode`. -/
inductive JournalMode
  | writeback
  | ordered
  | data
  deriving DecidableEq, Repr

/-- `JournalEntryType`. -/
inductive JournalEntryType
  | start
  | metadata
  | data
  | commit
  | revoke
  deriving DecidableEq, Repr

/-- `TransactionState`. -/
inductive TransactionState
  | idle
  | running
  | committing
  | committed
  | aborted
  deriving DecidableEq, Repr

/-- `JournalEntry`. -/
structure JournalEntry where
  entryId : UInt32
  type : JournalEntryType
  transactionId : UInt32
  blockNumber : UInt64
  dataLength : UInt32
  data : Vector UInt8 journalEntrySize
  checksum : UInt32
  timestamp : Int
  isSynced : Bool
  deriving DecidableEq, Repr

/-- `Transaction`, with the used cells `entry_ids[0 .. entry_count)` as a list. -/
structure Transaction where
  transactionId : UInt32
  state : TransactionState
  startTime : Int
  commitTime : Int
  entryIds : List UInt32
  inProgress : Bool
  deriving DecidableEq, Repr

/-- `FilesystemJournal`, with the used rows of both tables as lists. -/
structure FilesystemJournal where
  entries : List JournalEntry
  transactions : List Transaction
  currentTransactionId : UInt32
  mode : JournalMode
  totalTransactions : UInt64
  recoveredTransactions : UInt64
  recoveryNeeded : Bool
  deriving DecidableEq, Repr

/-- `journal_init`. -/
def journalInit (mode : JournalMode) : FilesystemJournal where
  entries := []
  transactions := []
  currentTransactionId := 1
  mode := mode
  totalTransactions := 0
  recoveredTransactions := 0
  recoveryNeeded := false

/-! ### Checksums -/

/-- `journal_calculate_checksum` on the bytes it reads: rotate left by one and add the next byte
without carry. No byte gives `0`, which is also the answer to a `NULL` pointer. -/
def journalCalculateChecksum (data : List UInt8) : UInt32 :=
  data.foldl (fun checksum byte ↦ ((checksum <<< 1) ||| (checksum >>> 31)) ^^^ byte.toUInt32) 0

/-- `journal_verify_checksum`. -/
def journalVerifyChecksum (entry : JournalEntry) : Int :=
  if journalCalculateChecksum (entry.data.toList.take entry.dataLength.toNat) = entry.checksum
    then 0 else -1

/-! ### Lookups -/

/-- The test of the loop of `journal_get_entry`. -/
def hasEntryId (entryId : UInt32) (entry : JournalEntry) : Bool :=
  entry.entryId == entryId

/-- `journal_get_entry` on the table of entries, with the returned pointer as the entry it points
to. -/
def journalGetEntry (entries : List JournalEntry) (entryId : UInt32) : Option JournalEntry :=
  entries.find? (hasEntryId entryId)

/-- The test of the loop of `journal_get_transaction`. -/
def hasTransactionId (transId : UInt32) (transaction : Transaction) : Bool :=
  transaction.transactionId == transId

/-- `journal_get_transaction`, with the returned pointer as the transaction it points to. -/
def journalGetTransaction (journal : FilesystemJournal) (transId : UInt32) : Option Transaction :=
  journal.transactions.find? (hasTransactionId transId)

/-- A write to the transaction that `journal_get_transaction` returns. -/
def FilesystemJournal.updateTransaction (journal : FilesystemJournal) (transId : UInt32)
    (change : Transaction → Transaction) : FilesystemJournal :=
  { journal with
    transactions := updateFirst (hasTransactionId transId) change journal.transactions }

/-- A write to the mark `is_synced`. -/
def JournalEntry.setMark (mark : Bool) (entry : JournalEntry) : JournalEntry :=
  { entry with isSynced := mark }

/-- The loop of commit and abort over the listed entries: each one that is found gets the mark. -/
def setSynced (mark : Bool) (entryIds : List UInt32) (entries : List JournalEntry) :
    List JournalEntry :=
  entryIds.foldl
    (fun entries entryId ↦ updateFirst (hasEntryId entryId) (JournalEntry.setMark mark) entries)
    entries

/-! ### The operations -/

/-- The transaction that `journal_begin_transaction` writes. -/
def FilesystemJournal.newTransaction (journal : FilesystemJournal) (now : Int) : Transaction where
  transactionId := journal.currentTransactionId
  state := .running
  startTime := now
  commitTime := 0
  entryIds := []
  inProgress := true

/-- `journal_begin_transaction`, returning the id or `0`. -/
def journalBeginTransaction (journal : FilesystemJournal) (now : Int) :
    FilesystemJournal × UInt32 :=
  if maxJournalTransactions ≤ journal.transactions.length then (journal, 0)
  else
    ({ journal with
      transactions := journal.transactions ++ [journal.newTransaction now]
      currentTransactionId := journal.currentTransactionId + 1
      totalTransactions := journal.totalTransactions + 1 }, journal.currentTransactionId)

/-- The entry that `journal_add_entry` writes into a row that is still zero. The bytes behind `data`
are given exactly when the pointer is not `NULL`. -/
def FilesystemJournal.newEntry (journal : FilesystemJournal) (transId : UInt32)
    (type : JournalEntryType) (blockNum : UInt64) (dataLen : UInt32)
    (data : Option (Vector UInt8 dataLen.toNat)) (now : Int) : JournalEntry where
  entryId := UInt32.ofNat journal.entries.length + 1
  type := type
  transactionId := transId
  blockNumber := blockNum
  dataLength := dataLen
  data := Vector.ofFn fun i ↦ (data.bind fun bytes ↦ bytes[i.val]?).getD 0
  checksum := match data with
    | none => 0
    | some bytes => journalCalculateChecksum bytes.toList
  timestamp := now
  isSynced := false

/-- The id of a new entry is appended to the list of its transaction. -/
def Transaction.pushEntry (entryId : UInt32) (transaction : Transaction) : Transaction :=
  { transaction with entryIds := transaction.entryIds ++ [entryId] }

/-- `journal_add_entry`, returning the entry id or `-1`. When the list of the transaction has no
cell left the write goes behind it. -/
def journalAddEntry (overrun : FilesystemJournal → FilesystemJournal) (journal : FilesystemJournal)
    (transId : UInt32) (type : JournalEntryType) (blockNum : UInt64) (dataLen : UInt32)
    (data : Option (Vector UInt8 dataLen.toNat)) (now : Int) : FilesystemJournal × Int :=
  if maxJournalEntries ≤ journal.entries.length then (journal, -1)
  else if journalEntrySize < dataLen.toNat then (journal, -1)
  else
    match journalGetTransaction journal transId with
    | none => (journal, -1)
    | some transaction =>
      if transaction.state ≠ .running then (journal, -1)
      else
        let entry := journal.newEntry transId type blockNum dataLen data now
        let next := journal.updateTransaction transId (Transaction.pushEntry entry.entryId)
        let added := { next with entries := journal.entries ++ [entry] }
        (if transaction.entryIds.length < maxTransactionEntries then added else overrun added,
          entry.entryId.toNat)

/-- The first writes of `journal_commit_transaction`. -/
def Transaction.startCommit (now : Int) (transaction : Transaction) : Transaction :=
  { transaction with state := .committing, commitTime := now }

/-- The last writes of `journal_commit_transaction`. -/
def Transaction.finishCommit (transaction : Transaction) : Transaction :=
  { transaction with state := .committed, inProgress := false }

/-- `journal_commit_transaction`. -/
def journalCommitTransaction (journal : FilesystemJournal) (transId : UInt32) (now : Int) :
    FilesystemJournal × Int :=
  match journalGetTransaction journal transId with
  | none => (journal, -1)
  | some transaction =>
    if transaction.state ≠ .running then (journal, -1)
    else
      let next := journal.updateTransaction transId fun transaction ↦
        (transaction.startCommit now).finishCommit
      ({ next with entries := setSynced true transaction.entryIds journal.entries }, 0)

/-- The journal when `journal_commit_transaction` is stopped after `marked` turns of its loop. A
call that is refused has no loop. -/
def commitInterrupted (journal : FilesystemJournal) (transId : UInt32) (now : Int) (marked : ℕ) :
    FilesystemJournal :=
  match journalGetTransaction journal transId with
  | none => journal
  | some transaction =>
    if transaction.state ≠ .running then journal
    else
      let next := journal.updateTransaction transId (Transaction.startCommit now)
      { next with entries := setSynced true (transaction.entryIds.take marked) journal.entries }

/-- The writes of `journal_abort_transaction` to the transaction. -/
def Transaction.abort (transaction : Transaction) : Transaction :=
  { transaction with state := .aborted, inProgress := false }

/-- `journal_abort_transaction`. -/
def journalAbortTransaction (journal : FilesystemJournal) (transId : UInt32) :
    FilesystemJournal × Int :=
  match journalGetTransaction journal transId with
  | none => (journal, -1)
  | some transaction =>
    let next := journal.updateTransaction transId Transaction.abort
    ({ next with entries := setSynced false transaction.entryIds journal.entries }, 0)

/-- The transactions that the first loop of `journal_checkpoint` zeroes. -/
def Transaction.isCheckpointed (transaction : Transaction) : Bool :=
  transaction.state == .committed && !transaction.inProgress

/-- The transactions that the second loop of `journal_checkpoint` keeps: those that were not zeroed
and whose id is positive. -/
def Transaction.isKept (transaction : Transaction) : Bool :=
  !transaction.isCheckpointed && decide (0 < transaction.transactionId)

/-- `journal_checkpoint`. -/
def journalCheckpoint (journal : FilesystemJournal) : FilesystemJournal × Int :=
  ({ journal with transactions := journal.transactions.filter Transaction.isKept }, 0)

/-- The new state that `journal_recover` gives a transaction. -/
def Transaction.recover (transaction : Transaction) : Transaction :=
  match transaction.state with
  | .running => { transaction with state := .aborted }
  | .committing => { transaction with state := .committed }
  | _ => transaction

/-- `journal_recover` on an entry of a committing transaction: the mark is set when the checksum
verifies. -/
def JournalEntry.recover (entry : JournalEntry) : JournalEntry :=
  if journalVerifyChecksum entry = 0 then entry.setMark true else entry

/-- One turn of the inner loop of `journal_recover` for a committing transaction, on the entries
and the count of recovered entries. -/
def recoverEntry (recovering : List JournalEntry × UInt32) (entryId : UInt32) :
    List JournalEntry × UInt32 :=
  match journalGetEntry recovering.1 entryId with
  | none => recovering
  | some entry =>
    (updateFirst (hasEntryId entryId) JournalEntry.recover recovering.1,
      if journalVerifyChecksum entry = 0 then recovering.2 + 1 else recovering.2)

/-- One turn of the outer loop of `journal_recover`. The inner loop of a running transaction
verifies checksums and does nothing with the answer. -/
def recoverTransaction (recovering : List JournalEntry × UInt32) (transaction : Transaction) :
    List JournalEntry × UInt32 :=
  match transaction.state with
  | .committing => transaction.entryIds.foldl recoverEntry recovering
  | _ => recovering

/-- `journal_recover`. -/
def journalRecover (journal : FilesystemJournal) : FilesystemJournal × Int :=
  let recovered := journal.transactions.foldl recoverTransaction (journal.entries, 0)
  ({ journal with
    entries := recovered.1
    transactions := journal.transactions.map Transaction.recover
    recoveredTransactions := recovered.2.toUInt64
    recoveryNeeded := false }, 0)

/-- `journal_sync_to_disk`, returning the number of entries that were not synced. -/
def journalSyncToDisk (journal : FilesystemJournal) : FilesystemJournal × Int :=
  ({ journal with entries := journal.entries.map (JournalEntry.setMark true) },
    journal.entries.countP fun entry ↦ !entry.isSynced)

/-- `journal_get_pending_transactions`. -/
def journalGetPendingTransactions (journal : FilesystemJournal) : ℕ :=
  journal.transactions.countP Transaction.inProgress

/-- `journal_set_mode`. -/
def journalSetMode (journal : FilesystemJournal) (mode : JournalMode) : FilesystemJournal × Int :=
  if 0 < journalGetPendingTransactions journal then (journal, -1)
  else ({ journal with mode := mode }, 0)

/-- Damage to the stored bytes: the data of every entry may be replaced, by its position. -/
def damageEntries (journal : FilesystemJournal)
    (damage : ℕ → Vector UInt8 journalEntrySize → Vector UInt8 journalEntrySize) :
    FilesystemJournal :=
  { journal with
    entries := journal.entries.mapIdx fun i entry ↦ { entry with data := damage i entry.data } }

/-! ### Runs -/

/-- An operation on the journal, with the time it reads. -/
inductive JournalOp
  | beginTransaction (now : Int)
  | addEntry (transId : UInt32) (type : JournalEntryType) (blockNum : UInt64) (dataLen : UInt32)
    (data : Option (Vector UInt8 dataLen.toNat)) (now : Int)
  | commitTransaction (transId : UInt32) (now : Int)
  | abortTransaction (transId : UInt32)
  | checkpoint
  | recover
  | syncToDisk
  | setMode (mode : JournalMode)

/-- The journal after an operation. -/
def journalStep (overrun : FilesystemJournal → FilesystemJournal) (journal : FilesystemJournal) :
    JournalOp → FilesystemJournal
  | .beginTransaction now => (journalBeginTransaction journal now).1
  | .addEntry transId type blockNum dataLen data now =>
    (journalAddEntry overrun journal transId type blockNum dataLen data now).1
  | .commitTransaction transId now => (journalCommitTransaction journal transId now).1
  | .abortTransaction transId => (journalAbortTransaction journal transId).1
  | .checkpoint => (journalCheckpoint journal).1
  | .recover => (journalRecover journal).1
  | .syncToDisk => (journalSyncToDisk journal).1
  | .setMode mode => (journalSetMode journal mode).1

/-- An entry that will be added finds a free cell in the list of its transaction, so that no
transaction takes more than 256 entries. -/
def EntriesFit (journal : FilesystemJournal) : JournalOp → Prop
  | .addEntry transId _ _ dataLen _ _ =>
    journal.entries.length < maxJournalEntries → dataLen.toNat ≤ journalEntrySize →
      ∀ transaction, journalGetTransaction journal transId = some transaction →
        transaction.state = .running → transaction.entryIds.length < maxTransactionEntries
  | _ => True

/-! ### What one operation does -/

variable {overrun : FilesystemJournal → FilesystemJournal} {journal : FilesystemJournal}

/-- A begin is refused or appends a running transaction with the next id. -/
theorem journalStep_beginTransaction_cases (now : Int) :
    journalStep overrun journal (.beginTransaction now) = journal ∨
      journalStep overrun journal (.beginTransaction now) =
        { journal with
          transactions := journal.transactions ++ [journal.newTransaction now]
          currentTransactionId := journal.currentTransactionId + 1
          totalTransactions := journal.totalTransactions + 1 } := by
  rw [journalStep, journalBeginTransaction]
  split_ifs
  · exact Or.inl rfl
  · exact Or.inr rfl

/-- Assumes: the entry fits the list of its transaction. An add is refused, or appends the new
entry and pushes its id on the list of the first transaction found, which is running. -/
theorem journalStep_addEntry_cases {transId : UInt32} {type : JournalEntryType} {blockNum : UInt64}
    {dataLen : UInt32} {data : Option (Vector UInt8 dataLen.toNat)} {now : Int}
    (hfit : EntriesFit journal (.addEntry transId type blockNum dataLen data now)) :
    journalStep overrun journal (.addEntry transId type blockNum dataLen data now) = journal ∨
      ∃ found entry, journalGetTransaction journal transId = some found ∧
        found.state = .running ∧ journal.entries.length < maxJournalEntries ∧
        dataLen.toNat ≤ journalEntrySize ∧
        entry = journal.newEntry transId type blockNum dataLen data now ∧
        journalStep overrun journal (.addEntry transId type blockNum dataLen data now) =
          { journal with
            entries := journal.entries ++ [entry]
            transactions := updateFirst (hasTransactionId transId)
              (Transaction.pushEntry entry.entryId) journal.transactions } := by
  simp only [journalStep, journalAddEntry]
  split_ifs with hentries hlength
  · exact Or.inl rfl
  · exact Or.inl rfl
  · cases hfind : journalGetTransaction journal transId with
    | none => exact Or.inl rfl
    | some found =>
      by_cases hrunning : found.state = .running
      · have hroom := hfit (by omega) (by omega) found hfind hrunning
        simp only [hrunning, ne_eq, not_true_eq_false, if_false, if_pos hroom]
        exact Or.inr ⟨found, _, rfl, hrunning, by omega, by omega, rfl, rfl⟩
      · simp only [ne_eq, hrunning, not_false_eq_true, if_true]
        exact Or.inl trivial

/-- A commit is refused, or marks the entries of the first transaction found, which is running,
and makes it committed. -/
theorem journalStep_commitTransaction_cases (transId : UInt32) (now : Int) :
    journalStep overrun journal (.commitTransaction transId now) = journal ∨
      ∃ found, journalGetTransaction journal transId = some found ∧ found.state = .running ∧
        journalStep overrun journal (.commitTransaction transId now) =
          { journal with
            entries := setSynced true found.entryIds journal.entries
            transactions := updateFirst (hasTransactionId transId)
              (fun transaction ↦ (transaction.startCommit now).finishCommit)
              journal.transactions } := by
  simp only [journalStep, journalCommitTransaction]
  cases hfind : journalGetTransaction journal transId with
  | none => exact Or.inl rfl
  | some found =>
    by_cases hrunning : found.state = .running
    · simp only [hrunning, ne_eq, not_true_eq_false, if_false]
      exact Or.inr ⟨found, rfl, hrunning, rfl⟩
    · simp only [ne_eq, hrunning, not_false_eq_true, if_true]
      exact Or.inl trivial

/-- An interrupted commit is refused, or marks some entries of the first transaction found, which
is running, and leaves it committing. -/
theorem commitInterrupted_cases (transId : UInt32) (now : Int) (marked : ℕ) :
    commitInterrupted journal transId now marked = journal ∨
      ∃ found, journalGetTransaction journal transId = some found ∧ found.state = .running ∧
        commitInterrupted journal transId now marked =
          { journal with
            entries := setSynced true (found.entryIds.take marked) journal.entries
            transactions := updateFirst (hasTransactionId transId)
              (Transaction.startCommit now) journal.transactions } := by
  rw [commitInterrupted]
  cases hfind : journalGetTransaction journal transId with
  | none => exact Or.inl rfl
  | some found =>
    by_cases hrunning : found.state = .running
    · simp only [hrunning, ne_eq, not_true_eq_false, if_false]
      exact Or.inr ⟨found, rfl, hrunning, rfl⟩
    · simp only [ne_eq, hrunning, not_false_eq_true, if_true]
      exact Or.inl trivial

/-- An abort finds nothing, or unmarks the entries of the first transaction found and makes it
aborted, whatever its state. -/
theorem journalStep_abortTransaction_cases (transId : UInt32) :
    (journalGetTransaction journal transId = none ∧
      journalStep overrun journal (.abortTransaction transId) = journal) ∨
      ∃ found, journalGetTransaction journal transId = some found ∧
        journalStep overrun journal (.abortTransaction transId) =
          { journal with
            entries := setSynced false found.entryIds journal.entries
            transactions := updateFirst (hasTransactionId transId) Transaction.abort
              journal.transactions } := by
  simp only [journalStep, journalAbortTransaction]
  cases hfind : journalGetTransaction journal transId with
  | none => exact Or.inl ⟨rfl, rfl⟩
  | some found => exact Or.inr ⟨found, rfl, rfl⟩

/-- A change of the mode leaves the rest of the journal as it is. -/
theorem journalStep_setMode (mode : JournalMode) :
    journalStep overrun journal (.setMode mode) =
      { journal with mode := (journalStep overrun journal (.setMode mode)).mode } := by
  rw [journalStep, journalSetMode]
  split_ifs
  · rfl
  · rfl

/-- What holds of every transaction is kept by an operation. Assumes: an entry that is added fits
the list of its transaction, and the property holds of a new transaction and is kept by what add,
commit, abort and recovery do to one. -/
theorem forall_transactions_step {property : Transaction → Prop} {op : JournalOp}
    (hfit : EntriesFit journal op)
    (hall : ∀ transaction ∈ journal.transactions, property transaction)
    (hnew : ∀ now, op = .beginTransaction now → property (journal.newTransaction now))
    (hpush : ∀ transaction entryId, property transaction → transaction.state = .running →
      transaction.entryIds.length < maxTransactionEntries →
        property (transaction.pushEntry entryId))
    (hcommit : ∀ transaction now, property transaction → transaction.state = .running →
      property (transaction.startCommit now).finishCommit)
    (habort : ∀ transaction, property transaction → property transaction.abort)
    (hrecover : op = .recover → ∀ transaction ∈ journal.transactions, property transaction →
      property transaction.recover) :
    ∀ transaction ∈ (journalStep overrun journal op).transactions, property transaction := by
  have hfound : ∀ {transId found}, journalGetTransaction journal transId = some found →
      property found := fun hfind ↦ hall _ (List.mem_of_find?_eq_some hfind)
  cases op with
  | beginTransaction now =>
    rcases journalStep_beginTransaction_cases now with hstep | hstep
    · rwa [hstep]
    · rw [hstep]
      exact List.forall_mem_append.mpr ⟨hall, by simpa using hnew now rfl⟩
  | addEntry transId type blockNum dataLen data now =>
    rcases journalStep_addEntry_cases hfit with
      hstep | ⟨found, entry, hfind, hstate, hroom, hsize, -, hstep⟩
    · rwa [hstep]
    · rw [hstep]
      apply (forall_mem_updateFirst_iff hall).mpr
      intro transaction hlookup
      obtain rfl : found = transaction := Option.some.inj (hfind.symm.trans hlookup)
      exact hpush found _ (hfound hfind) hstate (hfit hroom hsize found hfind hstate)
  | commitTransaction transId now =>
    rcases journalStep_commitTransaction_cases transId now with
      hstep | ⟨found, hfind, hstate, hstep⟩
    · rwa [hstep]
    · rw [hstep]
      apply (forall_mem_updateFirst_iff hall).mpr
      intro transaction hlookup
      obtain rfl : found = transaction := Option.some.inj (hfind.symm.trans hlookup)
      exact hcommit found now (hfound hfind) hstate
  | abortTransaction transId =>
    rcases journalStep_abortTransaction_cases transId with ⟨-, hstep⟩ | ⟨found, hfind, hstep⟩
    · rwa [hstep]
    · rw [hstep]
      apply (forall_mem_updateFirst_iff hall).mpr
      intro transaction hlookup
      exact habort transaction (hfound hlookup)
  | checkpoint =>
    intro transaction htransaction
    exact hall transaction (List.mem_of_mem_filter htransaction)
  | recover =>
    intro transaction htransaction
    obtain ⟨old, hold, rfl⟩ := List.mem_map.mp htransaction
    exact hrecover rfl old hold (hall old hold)
  | syncToDisk => exact hall
  | setMode mode =>
    rw [journalStep_setMode]
    exact hall

end OneOS.Filesystem.Journal
