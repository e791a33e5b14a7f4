import OneOS.Filesystem.JournalOwnership
import OneOS.Foundation.StoredTables

/-!
# The journal as it is stored

`fs/fs_journal.c` keeps both tables of the journal in arrays that `journal_init` zeroes. An entry is
written over the row behind those in use, of which only the first `data_len` bytes of the data are
overwritten and none when there are no data. `journal_checkpoint` zeroes rows of the array of
transactions, takes a row with the id 0 for one that was zeroed, and moves the others to the front.

`StoredJournal` is the journal with its arrays, and `storedStep` the operations as loops on them.
`StoredJournal.view` reads the rows in use as the two lists of `FilesystemJournal`. The rows behind
them hold no data (`NoDataBehind`), which every operation keeps, and then an operation on the arrays
is the operation of the same name on the lists (`view_storedStep`).
-/

set_option autoImplicit false
set_option relaxedAutoImplicit false

namespace OneOS.Filesystem.Journal

open Foundation

/-! ### The arrays -/

/-- `FilesystemJournal`, with its arrays and the numbers of rows in use. -/
structure StoredJournal where
  entries : ℕ → JournalEntry
  entryCount : ℕ
  transactions : ℕ → Transaction
  transactionCount : ℕ
  currentTransactionId : UInt32
  mode : JournalMode
  totalTransactions : UInt64
  recoveredTransactions : UInt64
  recoveryNeeded : Bool

/-- Data whose bytes are 0. -/
def noData : Vector UInt8 journalEntrySize := Vector.ofFn fun _ ↦ 0

/-- An entry whose bytes are 0. -/
def JournalEntry.zero : JournalEntry where
  entryId := 0
  type := .start
  transactionId := 0
  blockNumber := 0
  dataLength := 0
  data := noData
  checksum := 0
  timestamp := 0
  isSynced := false

/-- A transaction whose bytes are 0. -/
def Transaction.zero : Transaction where
  transactionId := 0
  state := .idle
  startTime := 0
  commitTime := 0
  entryIds := []
  inProgress := false

/-- `journal_init`. -/
def storedInit (mode : JournalMode) : StoredJournal where
  entries := fun _ ↦ JournalEntry.zero
  entryCount := 0
  transactions := fun _ ↦ Transaction.zero
  transactionCount := 0
  currentTransactionId := 1
  mode := mode
  totalTransactions := 0
  recoveredTransactions := 0
  recoveryNeeded := false

/-- The rows in use, as lists. -/
def StoredJournal.view (journal : StoredJournal) : FilesystemJournal where
  entries := firstOf journal.entries journal.entryCount
  transactions := firstOf journal.transactions journal.transactionCount
  currentTransactionId := journal.currentTransactionId
  mode := journal.mode
  totalTransactions := journal.totalTransactions
  recoveredTransactions := journal.recoveredTransactions
  recoveryNeeded := journal.recoveryNeeded

/-! ### The operations -/

/-- `journal_get_transaction`, with the returned pointer as the row it points to. -/
def StoredJournal.transactionRow (journal : StoredJournal) (transId : UInt32) : Option ℕ :=
  firstSlot (hasTransactionId transId) journal.transactionCount journal.transactions

/-- A write to the entry that `journal_get_entry` returns, if there is one. -/
def StoredJournal.changeEntry (journal : StoredJournal) (change : JournalEntry → JournalEntry)
    (entryId : UInt32) : StoredJournal :=
  { journal with
    entries := updateSlot (hasEntryId entryId) change journal.entryCount journal.entries }

/-- A write to a transaction. -/
def StoredJournal.changeTransaction (journal : StoredJournal) (row : ℕ)
    (change : Transaction → Transaction) : StoredJournal :=
  { journal with
    transactions :=
      Function.update journal.transactions row (change (journal.transactions row)) }

/-- `journal_begin_transaction`. -/
def storedBeginTransaction (journal : StoredJournal) (now : Int) : StoredJournal :=
  if maxJournalTransactions ≤ journal.transactionCount then journal
  else
    { journal with
      transactions := Function.update journal.transactions journal.transactionCount
        { transactionId := journal.currentTransactionId
          state := .running
          startTime := now
          commitTime := 0
          entryIds := []
          inProgress := true }
      transactionCount := journal.transactionCount + 1
      currentTransactionId := journal.currentTransactionId + 1
      totalTransactions := journal.totalTransactions + 1 }

/-- The data of a row and their checksum after `journal_add_entry`: without data, or with a length
of 0, the bytes of the row stay. -/
def JournalEntry.fill (row : JournalEntry) (dataLen : UInt32)
    (data : Option (Vector UInt8 dataLen.toNat)) : JournalEntry :=
  match data with
  | none => { row with checksum := 0 }
  | some bytes =>
    if dataLen = 0 then { row with checksum := 0 }
    else
      { row with
        data := Vector.ofFn fun i ↦ bytes[i.val]?.getD (row.data.get i)
        checksum := journalCalculateChecksum bytes.toList }

/-- `journal_add_entry`. When the list of the transaction has no cell left the write goes behind
it. -/
def storedAddEntry (overrun : StoredJournal → StoredJournal) (journal : StoredJournal)
    (transId : UInt32) (type : JournalEntryType) (blockNum : UInt64) (dataLen : UInt32)
    (data : Option (Vector UInt8 dataLen.toNat)) (now : Int) : StoredJournal :=
  if maxJournalEntries ≤ journal.entryCount then journal
  else if journalEntrySize < dataLen.toNat then journal
  else
    match journal.transactionRow transId with
    | none => journal
    | some row =>
      if (journal.transactions row).state ≠ .running then journal
      else
        let entryId := UInt32.ofNat journal.entryCount + 1
        let entry := { journal.entries journal.entryCount with
          entryId := entryId
          type := type
          transactionId := transId
          blockNumber := blockNum
          dataLength := dataLen
          timestamp := now
          isSynced := false }
        let written := { journal with
          entries := Function.update journal.entries journal.entryCount (entry.fill dataLen data) }
        let listed := written.changeTransaction row (Transaction.pushEntry entryId)
        let added := { listed with entryCount := journal.entryCount + 1 }
        if (journal.transactions row).entryIds.length < maxTransactionEntries then added
        else overrun added

/-- The loop of commit and abort over the entries that a transaction lists. -/
def StoredJournal.setMarks (journal : StoredJournal) (mark : Bool) (entryIds : List UInt32) :
    StoredJournal :=
  entryIds.foldl (fun journal ↦ journal.changeEntry (JournalEntry.setMark mark)) journal

/-- `journal_commit_transaction`. -/
def storedCommitTransaction (journal : StoredJournal) (transId : UInt32) (now : Int) :
    StoredJournal :=
  match journal.transactionRow transId with
  | none => journal
  | some row =>
    if (journal.transactions row).state ≠ .running then journal
    else
      let started := journal.changeTransaction row (Transaction.startCommit now)
      let marked := started.setMarks true (journal.transactions row).entryIds
      marked.changeTransaction row Transaction.finishCommit

/-- `journal_abort_transaction`. -/
def storedAbortTransaction (journal : StoredJournal) (transId : UInt32) : StoredJournal :=
  match journal.transactionRow transId with
  | none => journal
  | some row =>
    (journal.changeTransaction row Transaction.abort).setMarks false
      (journal.transactions row).entryIds

/-- The first loop of `journal_checkpoint` on a transaction. -/
def Transaction.clear (transaction : Transaction) : Transaction :=
  if transaction.isCheckpointed then Transaction.zero else transaction

/-- The test of the second loop of `journal_checkpoint`. -/
def Transaction.hasId (transaction : Transaction) : Bool :=
  decide (0 < transaction.transactionId)

/-- `journal_checkpoint`. -/
def storedCheckpoint (journal : StoredJournal) : StoredJournal :=
  let cleared := mapSlots Transaction.clear journal.transactionCount journal.transactions
  let moved := compact Transaction.hasId journal.transactionCount cleared
  { journal with
    transactions := moved.1
    transactionCount := moved.2 }

/-- One turn of the inner loop of `journal_recover` for a committing transaction, with the count of
recovered entries. -/
def storedRecoverEntry (recovering : StoredJournal × UInt32) (entryId : UInt32) :
    StoredJournal × UInt32 :=
  match firstSlot (hasEntryId entryId) recovering.1.entryCount recovering.1.entries with
  | none => recovering
  | some row =>
    (recovering.1.changeEntry JournalEntry.recover entryId,
      if journalVerifyChecksum (recovering.1.entries row) = 0 then recovering.2 + 1
      else recovering.2)

/-- One turn of the outer loop of `journal_recover`. -/
def storedRecoverTransaction (recovering : StoredJournal × UInt32) (row : ℕ) :
    StoredJournal × UInt32 :=
  let transaction := recovering.1.transactions row
  let looked := match transaction.state with
    | .committing => transaction.entryIds.foldl storedRecoverEntry recovering
    | _ => recovering
  (looked.1.changeTransaction row Transaction.recover, looked.2)

/-- `journal_recover`. -/
def storedRecover (journal : StoredJournal) : StoredJournal :=
  let recovered := (List.range journal.transactionCount).foldl storedRecoverTransaction (journal, 0)
  { recovered.1 with
    recoveredTransactions := recovered.2.toUInt64
    recoveryNeeded := false }

/-- `journal_sync_to_disk`. -/
def storedSyncToDisk (journal : StoredJournal) : StoredJournal :=
  { journal with
    entries := mapSlots (JournalEntry.setMark true) journal.entryCount journal.entries }

/-- `journal_set_mode`. -/
def storedSetMode (journal : StoredJournal) (mode : JournalMode) : StoredJournal :=
  if 0 < journalGetPendingTransactions journal.view then journal
  else { journal with mode := mode }

/-- The journal after an operation. -/
def storedStep (overrun : StoredJournal → StoredJournal) (journal : StoredJournal) :
    JournalOp → StoredJournal
  | .beginTransaction now => storedBeginTransaction journal now
  | .addEntry transId type blockNum dataLen data now =>
    storedAddEntry overrun journal transId type blockNum dataLen data now
  | .commitTransaction transId now => storedCommitTransaction journal transId now
  | .abortTransaction transId => storedAbortTransaction journal transId
  | .checkpoint => storedCheckpoint journal
  | .recover => storedRecover journal
  | .syncToDisk => storedSyncToDisk journal
  | .setMode mode => storedSetMode journal mode

/-! ### The loops -/

variable {overrun : StoredJournal → StoredJournal} {other : FilesystemJournal → FilesystemJournal}
  {journal : StoredJournal} {transId : UInt32} {row : ℕ}

/-- The rows of entries behind those in use hold no data. -/
def NoDataBehind (journal : StoredJournal) : Prop :=
  ∀ i, journal.entryCount ≤ i → (journal.entries i).data = noData

/-- The row of a transaction is that of the first one in the list with its id. -/
theorem journalGetTransaction_view :
    journalGetTransaction journal.view transId =
      (journal.transactionRow transId).map journal.transactions :=
  find?_firstOf

/-- A write to the transaction that was found is a write to the first one in the list. -/
theorem firstOf_update_transactionRow (hrow : journal.transactionRow transId = some row)
    (change : Transaction → Transaction) :
    firstOf (Function.update journal.transactions row (change (journal.transactions row)))
        journal.transactionCount =
      updateFirst (hasTransactionId transId) change
        (firstOf journal.transactions journal.transactionCount) := by
  have hupdate : updateSlot (hasTransactionId transId) change journal.transactionCount
      journal.transactions =
        Function.update journal.transactions row (change (journal.transactions row)) := by
    rw [StoredJournal.transactionRow] at hrow
    rw [updateSlot, hrow]
  rw [← hupdate, firstOf_updateSlot]

/-- The rows of entries after the loop of commit and abort. -/
def markRows (mark : Bool) (count : ℕ) (entryIds : List UInt32) (rows : ℕ → JournalEntry) :
    ℕ → JournalEntry :=
  entryIds.foldl
    (fun rows entryId ↦ updateSlot (hasEntryId entryId) (JournalEntry.setMark mark) count rows) rows

/-- The loop of commit and abort writes to entries only. -/
theorem setMarks_eq (mark : Bool) (entryIds : List UInt32) :
    journal.setMarks mark entryIds =
      { journal with
        entries := markRows mark journal.entryCount entryIds journal.entries } := by
  induction entryIds generalizing journal with
  | nil => rfl
  | cons entryId entryIds ih =>
    rw [StoredJournal.setMarks, List.foldl_cons, ← StoredJournal.setMarks, ih]
    rfl

theorem firstOf_markRows (mark : Bool) (count : ℕ) (entryIds : List UInt32)
    (rows : ℕ → JournalEntry) :
    firstOf (markRows mark count entryIds rows) count =
      setSynced mark entryIds (firstOf rows count) := by
  induction entryIds generalizing rows with
  | nil => rfl
  | cons entryId entryIds ih =>
    rw [markRows, List.foldl_cons, ← markRows, ih, firstOf_updateSlot, setSynced, setSynced,
      List.foldl_cons]

theorem markRows_of_le (mark : Bool) {count i : ℕ} (hbehind : count ≤ i)
    (entryIds : List UInt32) (rows : ℕ → JournalEntry) :
    markRows mark count entryIds rows i = rows i := by
  induction entryIds generalizing rows with
  | nil => rfl
  | cons entryId entryIds ih =>
    rw [markRows, List.foldl_cons, ← markRows, ih, updateSlot_of_le hbehind]

/-- What the loops of `journal_recover` have done to the entries, on the arrays and on the lists:
the entries in use and the count agree, and nothing else was written. -/
structure Recovering (before : StoredJournal) (stored : StoredJournal × UInt32)
    (listed : List JournalEntry × UInt32) : Prop where
  frame : stored.1 = { before with entries := stored.1.entries }
  entries : firstOf stored.1.entries before.entryCount = listed.1
  count : stored.2 = listed.2
  behind : ∀ i, before.entryCount ≤ i → stored.1.entries i = before.entries i

variable {before : StoredJournal} {stored : StoredJournal × UInt32}
  {listed : List JournalEntry × UInt32}

theorem Recovering.entryCount (hrecovering : Recovering before stored listed) :
    stored.1.entryCount = before.entryCount := by
  rw [hrecovering.frame]

/-- One turn of the inner loop. -/
theorem Recovering.recoverEntry (hrecovering : Recovering before stored listed)
    (entryId : UInt32) :
    Recovering before (storedRecoverEntry stored entryId) (recoverEntry listed entryId) := by
  obtain ⟨hframe, hentries, hcount, hbehind⟩ := hrecovering
  have hused : stored.1.entryCount = before.entryCount := by rw [hframe]
  have hfind : journalGetEntry listed.1 entryId =
      (firstSlot (hasEntryId entryId) stored.1.entryCount stored.1.entries).map
        stored.1.entries := by
    rw [← hentries, hused]
    exact find?_firstOf
  rw [storedRecoverEntry, Journal.recoverEntry, hfind]
  cases hslot : firstSlot (hasEntryId entryId) stored.1.entryCount stored.1.entries with
  | none => exact ⟨hframe, hentries, hcount, hbehind⟩
  | some found =>
    refine ⟨?_, ?_, ?_, fun i hi ↦ ?_⟩
    · rw [StoredJournal.changeEntry]
      dsimp only
      rw [hframe]
    · rw [StoredJournal.changeEntry]
      dsimp only
      rw [hused, firstOf_updateSlot, hentries]
      rfl
    · dsimp only [Option.map_some]
      rw [hcount]
    · rw [StoredJournal.changeEntry]
      dsimp only
      rw [hused, updateSlot_of_le hi]
      exact hbehind i hi

theorem Recovering.foldl_recoverEntry (hrecovering : Recovering before stored listed)
    (entryIds : List UInt32) :
    Recovering before (entryIds.foldl storedRecoverEntry stored)
      (entryIds.foldl Journal.recoverEntry listed) := by
  induction entryIds generalizing stored listed with
  | nil => exact hrecovering
  | cons entryId entryIds ih => exact ih (hrecovering.recoverEntry entryId)

/-- The outer loop: after so many turns that many transactions have their new state. -/
theorem recovering_foldl_recoverTransaction (journal : StoredJournal) (turns : ℕ) :
    Recovering
      { journal with transactions := mapSlots Transaction.recover turns journal.transactions }
      ((List.range turns).foldl storedRecoverTransaction (journal, 0))
      ((firstOf journal.transactions turns).foldl recoverTransaction
        (firstOf journal.entries journal.entryCount, 0)) := by
  induction turns with
  | zero => exact ⟨rfl, rfl, rfl, fun _ _ ↦ rfl⟩
  | succ turns ih =>
    rw [List.range_succ, List.foldl_append, firstOf_succ, List.foldl_append, List.foldl_cons,
      List.foldl_nil, List.foldl_cons, List.foldl_nil]
    generalize (List.range turns).foldl storedRecoverTransaction (journal, 0) = stored at ih ⊢
    generalize (firstOf journal.transactions turns).foldl recoverTransaction
      (firstOf journal.entries journal.entryCount, 0) = listed at ih ⊢
    have hrow : stored.1.transactions turns = journal.transactions turns := by
      rw [ih.frame]
      exact mapSlots_of_le (Nat.le_refl turns)
    have hinner : Recovering
        { journal with transactions := mapSlots Transaction.recover turns journal.transactions }
        (match (journal.transactions turns).state with
          | .committing => (journal.transactions turns).entryIds.foldl storedRecoverEntry stored
          | _ => stored)
        (recoverTransaction listed (journal.transactions turns)) := by
      rw [recoverTransaction]
      cases (journal.transactions turns).state with
      | committing => exact ih.foldl_recoverEntry _
      | _ => exact ih
    obtain ⟨hframe, hentries, hcount, hbehind⟩ := hinner
    rw [storedRecoverTransaction, hrow]
    refine ⟨?_, hentries, hcount, hbehind⟩
    rw [StoredJournal.changeTransaction, hframe]
    dsimp only
    -- the row of this turn is the first one that has not had its new state yet
    rw [mapSlots_of_le (Nat.le_refl turns), update_mapSlots]

/-! ### Each operation on the arrays is the one on the lists -/

theorem view_storedBeginTransaction (now : Int) :
    (storedBeginTransaction journal now).view = (journalBeginTransaction journal.view now).1 := by
  have hlength : journal.view.transactions.length = journal.transactionCount := length_firstOf
  rw [storedBeginTransaction, journalBeginTransaction, hlength]
  split_ifs
  · rfl
  · simp only [StoredJournal.view, firstOf_update_succ]
    rfl

@[simp] theorem get_noData (i : Fin journalEntrySize) : noData.get i = 0 := by
  simp [noData, Vector.get]

/-- Assumes: no data behind the entries in use. The row that is filled is the new entry. -/
theorem fill_eq_newEntry (hbehind : NoDataBehind journal) (transId : UInt32)
    (type : JournalEntryType) (blockNum : UInt64) (dataLen : UInt32)
    (data : Option (Vector UInt8 dataLen.toNat)) (now : Int) :
    JournalEntry.fill { journal.entries journal.entryCount with
        entryId := UInt32.ofNat journal.entryCount + 1
        type := type
        transactionId := transId
        blockNumber := blockNum
        dataLength := dataLen
        timestamp := now
        isSynced := false } dataLen data =
      journal.view.newEntry transId type blockNum dataLen data now := by
  have hlength : journal.view.entries.length = journal.entryCount := length_firstOf
  have hdata := hbehind journal.entryCount (Nat.le_refl _)
  cases data with
  | none =>
    simp only [FilesystemJournal.newEntry, hlength, JournalEntry.fill, hdata]
    rfl
  | some bytes =>
    by_cases hzero : dataLen = 0
    · subst hzero
      have hbytes : bytes.toList = [] := List.length_eq_zero_iff.mp (by simp)
      have hkept : noData =
          Vector.ofFn fun i ↦ ((some bytes).bind fun bytes ↦ bytes[i.val]?).getD 0 :=
        congrArg Vector.ofFn (funext fun i ↦ by simp)
      simp only [FilesystemJournal.newEntry, hlength, JournalEntry.fill, hdata, if_true, hbytes,
        ← hkept]
      rfl
    · simp only [FilesystemJournal.newEntry, hlength, JournalEntry.fill, hdata, if_neg hzero,
        get_noData, Option.bind_some]

/-- Assumes: no data behind the entries in use, and the entry fits the list of its transaction. -/
theorem view_storedAddEntry (hbehind : NoDataBehind journal) {type : JournalEntryType}
    {blockNum : UInt64} {dataLen : UInt32} {data : Option (Vector UInt8 dataLen.toNat)} {now : Int}
    (hfit : EntriesFit journal.view (.addEntry transId type blockNum dataLen data now)) :
    (storedAddEntry overrun journal transId type blockNum dataLen data now).view =
      (journalAddEntry other journal.view transId type blockNum dataLen data now).1 := by
  have hlength : journal.view.entries.length = journal.entryCount := length_firstOf
  rw [EntriesFit, hlength, journalGetTransaction_view] at hfit
  rw [storedAddEntry, journalAddEntry, hlength, journalGetTransaction_view]
  split_ifs with hroom hsize
  · rfl
  · rfl
  · cases hrow : journal.transactionRow transId with
    | none => rfl
    | some row =>
      rw [hrow] at hfit
      dsimp only [Option.map_some]
      by_cases hrunning : (journal.transactions row).state = .running
      · have hfits := hfit (by omega) (by omega) _ rfl hrunning
        rw [if_neg (not_not_intro hrunning), if_neg (not_not_intro hrunning), if_pos hfits,
          if_pos hfits]
        have hnew := fill_eq_newEntry hbehind transId type blockNum dataLen data now
        have hid : (journal.view.newEntry transId type blockNum dataLen data now).entryId =
            UInt32.ofNat journal.entryCount + 1 :=
          congrArg (fun count ↦ UInt32.ofNat count + 1) hlength
        simp only [StoredJournal.view, StoredJournal.changeTransaction, firstOf_update_succ, hnew,
          FilesystemJournal.updateTransaction, firstOf_update_transactionRow hrow]
        rw [← hid]
        rfl
      · rw [if_pos hrunning, if_pos hrunning]

theorem view_storedCommitTransaction (now : Int) :
    (storedCommitTransaction journal transId now).view =
      (journalCommitTransaction journal.view transId now).1 := by
  rw [storedCommitTransaction, journalCommitTransaction, journalGetTransaction_view]
  cases hrow : journal.transactionRow transId with
  | none => rfl
  | some row =>
    dsimp only [Option.map_some]
    by_cases hrunning : (journal.transactions row).state = .running
    · have htwice := firstOf_update_transactionRow hrow fun transaction ↦
        (transaction.startCommit now).finishCommit
      rw [if_neg (not_not_intro hrunning), if_neg (not_not_intro hrunning), setMarks_eq]
      simp only [StoredJournal.view, StoredJournal.changeTransaction, Function.update_self,
        Function.update_idem, firstOf_markRows, FilesystemJournal.updateTransaction, htwice]
    · rw [if_pos hrunning, if_pos hrunning]

theorem view_storedAbortTransaction :
    (storedAbortTransaction journal transId).view =
      (journalAbortTransaction journal.view transId).1 := by
  rw [storedAbortTransaction, journalAbortTransaction, journalGetTransaction_view]
  cases hrow : journal.transactionRow transId with
  | none => rfl
  | some row =>
    dsimp only [Option.map_some]
    rw [setMarks_eq]
    simp only [StoredJournal.view, StoredJournal.changeTransaction, firstOf_markRows,
      FilesystemJournal.updateTransaction, firstOf_update_transactionRow hrow]

/-- Zeroing rows and keeping those with an id is keeping what is not zeroed and has an id. -/
theorem filter_map_clear (transactions : List Transaction) :
    (transactions.map Transaction.clear).filter Transaction.hasId =
      transactions.filter Transaction.isKept := by
  induction transactions with
  | nil => rfl
  | cons transaction transactions ih =>
    rw [List.map_cons, List.filter_cons, List.filter_cons, ih, Transaction.clear,
      Transaction.isKept]
    cases transaction.isCheckpointed with
    | true => rfl
    | false => rfl

theorem view_storedCheckpoint :
    (storedCheckpoint journal).view = (journalCheckpoint journal.view).1 := by
  simp only [storedCheckpoint, journalCheckpoint, StoredJournal.view, firstOf_compact,
    firstOf_mapSlots, filter_map_clear]

theorem view_storedRecover : (storedRecover journal).view = (journalRecover journal.view).1 := by
  obtain ⟨hframe, hentries, hcount, -⟩ :=
    recovering_foldl_recoverTransaction journal journal.transactionCount
  rw [storedRecover, journalRecover]
  simp only [StoredJournal.view] at hentries hcount ⊢
  rw [← hentries, ← hcount, hframe]
  simp only [firstOf_mapSlots]

theorem view_storedSyncToDisk :
    (storedSyncToDisk journal).view = (journalSyncToDisk journal.view).1 := by
  simp only [storedSyncToDisk, journalSyncToDisk, StoredJournal.view, firstOf_mapSlots]

theorem view_storedSetMode (mode : JournalMode) :
    (storedSetMode journal mode).view = (journalSetMode journal.view mode).1 := by
  rw [storedSetMode, journalSetMode]
  split_ifs
  · rfl
  · rfl

/-- Assumes: no data behind the entries in use, and an entry that is added fits the list of its
transaction. An operation on the arrays is the operation on the lists, whatever a write behind a
list would do. -/
theorem view_storedStep {op : JournalOp} (hbehind : NoDataBehind journal)
    (hfit : EntriesFit journal.view op) :
    (storedStep overrun journal op).view = journalStep other journal.view op := by
  cases op with
  | beginTransaction now => exact view_storedBeginTransaction now
  | addEntry transId type blockNum dataLen data now => exact view_storedAddEntry hbehind hfit
  | commitTransaction transId now => exact view_storedCommitTransaction now
  | abortTransaction transId => exact view_storedAbortTransaction
  | checkpoint => exact view_storedCheckpoint
  | recover => exact view_storedRecover
  | syncToDisk => exact view_storedSyncToDisk
  | setMode mode => exact view_storedSetMode mode

/-! ### The rows behind those in use -/

theorem noDataBehind_storedInit (mode : JournalMode) : NoDataBehind (storedInit mode) :=
  fun _ _ ↦ rfl

/-- Assumes: an operation leaves the rows of entries behind those in use. -/
theorem NoDataBehind.of_kept {before after : StoredJournal} (hbehind : NoDataBehind before)
    (hcount : after.entryCount = before.entryCount)
    (hkept : ∀ i, before.entryCount ≤ i → after.entries i = before.entries i) :
    NoDataBehind after := by
  intro i hi
  rw [hcount] at hi
  rw [hkept i hi]
  exact hbehind i hi

/-- Assumes: the entry fits the list of its transaction. An add writes to the first row behind those
in use, which it takes into use. -/
theorem NoDataBehind.addEntry (hbehind : NoDataBehind journal) {type : JournalEntryType}
    {blockNum : UInt64} {dataLen : UInt32} {data : Option (Vector UInt8 dataLen.toNat)} {now : Int}
    (hfit : EntriesFit journal.view (.addEntry transId type blockNum dataLen data now)) :
    NoDataBehind (storedAddEntry overrun journal transId type blockNum dataLen data now) := by
  have hlength : journal.view.entries.length = journal.entryCount := length_firstOf
  rw [EntriesFit, hlength, journalGetTransaction_view] at hfit
  rw [storedAddEntry]
  split_ifs with hroom hsize
  · exact hbehind
  · exact hbehind
  · cases hrow : journal.transactionRow transId with
    | none => exact hbehind
    | some row =>
      rw [hrow] at hfit
      dsimp only
      split_ifs with hstate hfits
      · exact hbehind
      · intro i hi
        have hbelow : journal.entryCount + 1 ≤ i := hi
        simp only [StoredJournal.changeTransaction]
        rw [Function.update_of_ne (by omega)]
        exact hbehind i (by omega)
      · exact absurd (hfit (by omega) (by omega) _ rfl (not_not.mp hstate)) hfits

/-- Assumes: an entry that is added fits the list of its transaction. -/
theorem noDataBehind_storedStep {op : JournalOp} (hbehind : NoDataBehind journal)
    (hfit : EntriesFit journal.view op) : NoDataBehind (storedStep overrun journal op) := by
  cases op with
  | beginTransaction now =>
    rw [storedStep, storedBeginTransaction]
    split_ifs
    · exact hbehind
    · exact hbehind
  | addEntry transId type blockNum dataLen data now => exact hbehind.addEntry hfit
  | commitTransaction transId now =>
    rw [storedStep, storedCommitTransaction]
    cases journal.transactionRow transId with
    | none => exact hbehind
    | some row =>
      dsimp only
      split_ifs
      · exact hbehind
      · rw [setMarks_eq]
        exact hbehind.of_kept rfl fun i hi ↦ markRows_of_le true hi _ _
  | abortTransaction transId =>
    rw [storedStep, storedAbortTransaction]
    cases journal.transactionRow transId with
    | none => exact hbehind
    | some row =>
      dsimp only
      rw [setMarks_eq]
      exact hbehind.of_kept rfl fun i hi ↦ markRows_of_le false hi _ _
  | checkpoint => exact hbehind
  | recover =>
    have hrecovering := recovering_foldl_recoverTransaction journal journal.transactionCount
    exact hbehind.of_kept hrecovering.entryCount hrecovering.behind
  | syncToDisk => exact hbehind.of_kept rfl fun i hi ↦ mapSlots_of_le hi
  | setMode mode =>
    rw [storedStep, storedSetMode]
    split_ifs
    · exact hbehind
    · exact hbehind

/-! ### Runs -/

/-- The entries that are added fit the lists of their transactions, in every step of a run on the
arrays. -/
def StoredEntriesFit (overrun : StoredJournal → StoredJournal) (journal : StoredJournal)
    (ops : List JournalOp) : Prop :=
  EveryStep (storedStep overrun) (fun journal ↦ EntriesFit journal.view) journal ops

variable {ops : List JournalOp}

/-- Assumes: no data behind the entries in use, and the entries that are added fit. A run on the
arrays is the run on the lists. -/
theorem view_runFrom (hbehind : NoDataBehind journal)
    (hfit : StoredEntriesFit overrun journal ops) :
    (runFrom (storedStep overrun) journal ops).view =
      runFrom (journalStep other) journal.view ops := by
  induction ops generalizing journal with
  | nil => rfl
  | cons op ops ih =>
    obtain ⟨hfirst, hrest⟩ := everyStep_cons.mp hfit
    have hview : (storedStep overrun journal op).view = journalStep other journal.view op :=
      view_storedStep hbehind hfirst
    rw [runFrom_cons, runFrom_cons, ← hview]
    exact ih (noDataBehind_storedStep hbehind hfirst) hrest

/-- What holds of the rows in use in every state of a run on the arrays, holds in every state of the
run on the lists. -/
theorem alongRun_view_iff {property : FilesystemJournal → Prop} (hbehind : NoDataBehind journal)
    (hfit : StoredEntriesFit overrun journal ops) :
    AlongRun (storedStep overrun) (fun journal ↦ property journal.view) journal ops ↔
      AlongRun (journalStep other) property journal.view ops := by
  refine forall_congr' fun taken ↦ forall_congr' fun htaken ↦ ?_
  beta_reduce
  rw [view_runFrom hbehind (hfit.of_prefix htaken)]

/-- A condition on the rows in use is met by every step of a run on the arrays when it is in the run
on the lists. -/
theorem everyStep_view_iff {condition : FilesystemJournal → JournalOp → Prop}
    (hbehind : NoDataBehind journal) (hfit : StoredEntriesFit overrun journal ops) :
    EveryStep (storedStep overrun) (fun journal ↦ condition journal.view) journal ops ↔
      EveryStep (journalStep other) condition journal.view ops := by
  refine forall_congr' fun taken ↦ forall_congr' fun op ↦ forall_congr' fun htaken ↦ ?_
  have hbefore := (List.prefix_append taken [op]).trans htaken
  beta_reduce
  rw [view_runFrom hbehind (hfit.of_prefix hbefore)]

end OneOS.Filesystem.Journal
