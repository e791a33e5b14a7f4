import OneOS.Filesystem.JournalOwnership

/-!
# The room of the journal

`journal_add_entry` of `fs/fs_journal.c` looks at the number of entries of the whole journal, at
most 4096, and not at the number of entries of the transaction, whose list has 256 cells. The lists
stay inside their cells exactly when every entry that is added finds a free one (`countsFit_iff`).

`journal_checkpoint` drops transactions and none of their entries, so that the journal takes no more
than 4096 entries from its start on, whatever is committed in between. After a checkpoint an entry
can be added, as long as fewer than 4096 entries belong to a transaction that is left, exactly when
that number has not been used up (`freesSpace_iff`).
-/

set_option autoImplicit false
set_option relaxedAutoImplicit false

namespace OneOS.Filesystem.Journal

open Foundation

variable {overrun : FilesystemJournal → FilesystemJournal} {journal : FilesystemJournal}

/-! ### The cells of a list -/

/-- The cell of `entry_ids` that an operation writes, if it writes one. -/
def writtenCell (journal : FilesystemJournal) : JournalOp → Option ℕ
  | .addEntry transId _ _ dataLen _ _ =>
    if maxJournalEntries ≤ journal.entries.length then none
    else if journalEntrySize < dataLen.toNat then none
    else
      match journalGetTransaction journal transId with
      | none => none
      | some transaction =>
        if transaction.state ≠ .running then none else some transaction.entryIds.length
  | _ => none

/-- The cell that is written is one of the 256, and what the operation does does not depend on what
a write behind a list would do. -/
structure WritesInBounds (journal : FilesystemJournal) (op : JournalOp) : Prop where
  inside : ∀ cell ∈ writtenCell journal op, cell < maxTransactionEntries
  steps : ∀ first second : FilesystemJournal → FilesystemJournal,
    journalStep first journal op = journalStep second journal op

/-- No transaction counts more entries than its list has cells. -/
def CountsFit (journal : FilesystemJournal) : Prop :=
  ∀ transaction ∈ journal.transactions, transaction.entryIds.length ≤ maxTransactionEntries

theorem writtenCell_addEntry_iff {transId : UInt32} {type : JournalEntryType} {blockNum : UInt64}
    {dataLen : UInt32} {data : Option (Vector UInt8 dataLen.toNat)} {now : Int} {cell : ℕ} :
    writtenCell journal (.addEntry transId type blockNum dataLen data now) = some cell ↔
      journal.entries.length < maxJournalEntries ∧ dataLen.toNat ≤ journalEntrySize ∧
        ∃ transaction, journalGetTransaction journal transId = some transaction ∧
          transaction.state = .running ∧ transaction.entryIds.length = cell := by
  rw [writtenCell]
  split_ifs with hroom hsize
  · exact iff_of_false (by simp) fun hserved ↦ absurd hroom (Nat.not_le.mpr hserved.1)
  · exact iff_of_false (by simp) fun hserved ↦ absurd hsize (Nat.not_lt.mpr hserved.2.1)
  · cases journalGetTransaction journal transId with
    | none => simp
    | some transaction =>
      simp only [Option.some.injEq, exists_eq_left']
      by_cases hstate : transaction.state = .running
      · simp [hstate, Nat.not_le.mp hroom, Nat.not_lt.mp hsize]
      · simp [hstate]

/-- Assumes: an entry that is added finds a free cell. The operation does not come to a write behind
a list. -/
theorem journalStep_eq_of_entriesFit {op : JournalOp} (hfit : EntriesFit journal op)
    (first second : FilesystemJournal → FilesystemJournal) :
    journalStep first journal op = journalStep second journal op := by
  cases op with
  | addEntry transId type blockNum dataLen data now =>
    simp only [journalStep, journalAddEntry]
    split_ifs with hroom hsize
    · rfl
    · rfl
    · cases hfind : journalGetTransaction journal transId with
      | none => rfl
      | some transaction =>
        by_cases hstate : transaction.state = .running
        · have hfree := hfit (Nat.not_le.mp hroom) (Nat.not_lt.mp hsize) transaction hfind hstate
          simp only [if_pos hfree]
        · simp only [ne_eq, hstate, not_false_eq_true, if_true]
  | _ => rfl

/-- The write of an operation is in bounds exactly when an entry that is added finds a free cell. -/
theorem writesInBounds_iff {op : JournalOp} :
    WritesInBounds journal op ↔ EntriesFit journal op := by
  cases op with
  | addEntry transId type blockNum dataLen data now =>
    constructor
    · intro hbounds hroom hsize transaction hfind hstate
      exact hbounds.inside _
        (writtenCell_addEntry_iff.mpr ⟨hroom, hsize, transaction, hfind, hstate, rfl⟩)
    · refine fun hfit ↦ ⟨fun cell hcell ↦ ?_, journalStep_eq_of_entriesFit hfit⟩
      obtain ⟨hroom, hsize, transaction, hfind, hstate, rfl⟩ := writtenCell_addEntry_iff.mp hcell
      exact hfit hroom hsize transaction hfind hstate
  | _ => exact iff_of_true ⟨by simp [writtenCell], fun _ _ ↦ rfl⟩ trivial

/-- Assumes: an entry that is added finds a free cell. -/
theorem countsFit_step {op : JournalOp} (hcounts : CountsFit journal)
    (hfit : EntriesFit journal op) : CountsFit (journalStep overrun journal op) := by
  refine forall_transactions_step hfit hcounts ?_ ?_ ?_ ?_ ?_
  · intro now _
    exact Nat.zero_le _
  · intro transaction entryId _ _ hroom
    rw [Transaction.pushEntry, List.length_append, List.length_singleton]
    exact hroom
  · intro transaction now hold _
    exact hold
  · intro transaction hold
    exact hold
  · intro _ transaction _ hold
    rwa [Transaction.entryIds_recover]

/-- Over every run, no transaction counts more than 256 entries and every write to a list is in
bounds, exactly when every entry that is added goes to a transaction with fewer than 256. -/
theorem countsFit_iff (overrun : FilesystemJournal → FilesystemJournal) (mode : JournalMode)
    (ops : List JournalOp) :
    AlongRun (journalStep overrun) CountsFit (journalInit mode) ops ∧
        EveryStep (journalStep overrun) WritesInBounds (journalInit mode) ops ↔
      EveryStep (journalStep overrun) EntriesFit (journalInit mode) ops := by
  refine alongRun_and_everyStep_iff (fun _ ↦ True) (fun _ _ ↦ True) (fun _ _ _ _ ↦ trivial) ?_
    trivial (by simp [CountsFit, journalInit]) (fun _ _ _ ↦ trivial)
  intro journal op _ _ hcounts
  rw [writesInBounds_iff]
  exact and_iff_right_of_imp (countsFit_step hcounts)

/-! ### Filling the journal -/

/-- The journal has one transaction, which is running and lists so many entries. -/
structure Filling (journal : FilesystemJournal) (transId : UInt32) (listed stored : ℕ) : Prop where
  transaction : ∃ transaction, journal.transactions = [transaction] ∧
    transaction.transactionId = transId ∧ transaction.state = .running ∧
    transaction.entryIds.length = listed
  stored : journal.entries.length = stored
  current : journal.currentTransactionId = transId + 1

/-- An entry without data. -/
def emptyEntry (transId : UInt32) : JournalOp :=
  .addEntry transId .data 0 0 none 0

theorem Filling.addEntry {transId : UInt32} {listed stored : ℕ}
    (hfilling : Filling journal transId listed stored) (hlisted : listed < maxTransactionEntries)
    (hstored : stored < maxJournalEntries) :
    Filling (journalStep overrun journal (emptyEntry transId)) transId (listed + 1)
      (stored + 1) := by
  obtain ⟨⟨transaction, hone, rfl, hstate, rfl⟩, rfl, hcurrent⟩ := hfilling
  have hfound : hasTransactionId transaction.transactionId transaction = true := by
    simp [hasTransactionId]
  have hfind : journalGetTransaction journal transaction.transactionId = some transaction := by
    rw [journalGetTransaction, hone, List.find?_cons_of_pos hfound]
  have hsize : ¬ journalEntrySize < (0 : UInt32).toNat := by decide
  have hpushed (entryId : UInt32) :
      updateFirst (hasTransactionId transaction.transactionId) (Transaction.pushEntry entryId)
        journal.transactions = [transaction.pushEntry entryId] := by
    rw [hone, updateFirst_cons_of_pos hfound]
  simp only [emptyEntry, journalStep, journalAddEntry, hfind, hstate, if_pos hlisted,
    if_neg (Nat.not_le.mpr hstored), if_neg hsize, ne_eq, not_true_eq_false, if_false]
  refine ⟨⟨_, hpushed _, rfl, hstate, ?_⟩, ?_, hcurrent⟩
  · rw [Transaction.pushEntry, List.length_append, List.length_singleton]
  · rw [List.length_append, List.length_singleton]

/-- Assumes: the list and the journal have room. Entries are added one after the other. -/
theorem Filling.addEntries {transId : UInt32} {listed stored : ℕ} (more : ℕ)
    (hfilling : Filling journal transId listed stored)
    (hlisted : listed + more ≤ maxTransactionEntries)
    (hstored : stored + more ≤ maxJournalEntries) :
    Filling (runFrom (journalStep overrun) journal (List.replicate more (emptyEntry transId)))
      transId (listed + more) (stored + more) := by
  induction more generalizing journal listed stored with
  | zero => exact hfilling
  | succ more ih =>
    have hadded : Filling (journalStep overrun journal (emptyEntry transId)) transId (listed + 1)
        (stored + 1) := hfilling.addEntry (by omega) (by omega)
    rw [List.replicate_succ, runFrom_cons, Nat.add_comm more, ← Nat.add_assoc, ← Nat.add_assoc]
    exact ih hadded (by omega) (by omega)

/-- The journal has no transactions. -/
structure Emptied (journal : FilesystemJournal) (transId : UInt32) (stored : ℕ) : Prop where
  transactions : journal.transactions = []
  stored : journal.entries.length = stored
  current : journal.currentTransactionId = transId

theorem emptied_journalInit (mode : JournalMode) : Emptied (journalInit mode) 1 0 :=
  ⟨rfl, rfl, rfl⟩

theorem Emptied.beginTransaction {transId : UInt32} {stored : ℕ}
    (hemptied : Emptied journal transId stored) :
    Filling (journalStep overrun journal (.beginTransaction 0)) transId 0 stored := by
  obtain ⟨hnone, hstored, rfl⟩ := hemptied
  have hroom : ¬ maxJournalTransactions ≤ journal.transactions.length := by
    rw [hnone]
    decide
  rw [journalStep, journalBeginTransaction, if_neg hroom]
  refine ⟨⟨journal.newTransaction 0, ?_, rfl, rfl, rfl⟩, hstored, rfl⟩
  rw [hnone, List.nil_append]

/-- A commit of the one transaction and a checkpoint drop it and keep its entries. -/
theorem Filling.commit_checkpoint {transId : UInt32} {listed stored : ℕ}
    (hfilling : Filling journal transId listed stored) :
    Emptied (runFrom (journalStep overrun) journal [.commitTransaction transId 0, .checkpoint])
      (transId + 1) stored := by
  obtain ⟨⟨transaction, hone, rfl, hstate, rfl⟩, rfl, hcurrent⟩ := hfilling
  have hfound : hasTransactionId transaction.transactionId transaction = true := by
    simp [hasTransactionId]
  have hfind : journalGetTransaction journal transaction.transactionId = some transaction := by
    rw [journalGetTransaction, hone, List.find?_cons_of_pos hfound]
  rw [runFrom_cons, runFrom_cons, runFrom_nil, journalStep, journalCommitTransaction, hfind]
  simp only [hstate, ne_eq, not_true_eq_false, if_false]
  refine ⟨?_, ?_, hcurrent⟩
  · simp only [journalStep, journalCheckpoint, FilesystemJournal.updateTransaction, hone,
      updateFirst_cons_of_pos hfound]
    rfl
  · have hlength : (setSynced true transaction.entryIds journal.entries).length =
        journal.entries.length := by
      simpa using congrArg List.length
        (map_label_setSynced true transaction.entryIds journal.entries)
    exact hlength

/-- A transaction with 256 entries is begun, committed and dropped. -/
def fillRound (transId : UInt32) : List JournalOp :=
  .beginTransaction 0 ::
    (List.replicate maxTransactionEntries (emptyEntry transId) ++
      [.commitTransaction transId 0, .checkpoint])

theorem Emptied.fillRound {transId : UInt32} {stored : ℕ}
    (hemptied : Emptied journal transId stored)
    (hstored : stored + maxTransactionEntries ≤ maxJournalEntries) :
    Emptied (runFrom (journalStep overrun) journal (fillRound transId)) (transId + 1)
      (stored + maxTransactionEntries) := by
  rw [Journal.fillRound, runFrom_cons, runFrom_append]
  exact (hemptied.beginTransaction.addEntries maxTransactionEntries (by omega)
    hstored).commit_checkpoint

/-- So many rounds, with the ids from 1 on. -/
def fillRounds : ℕ → List JournalOp
  | 0 => []
  | rounds + 1 => fillRounds rounds ++ fillRound (UInt32.ofNat (rounds + 1))

theorem emptied_fillRounds {mode : JournalMode} (rounds : ℕ)
    (hrounds : rounds * maxTransactionEntries ≤ maxJournalEntries) :
    Emptied (runFrom (journalStep overrun) (journalInit mode) (fillRounds rounds))
      (UInt32.ofNat (rounds + 1)) (rounds * maxTransactionEntries) := by
  induction rounds with
  | zero => exact emptied_journalInit mode
  | succ rounds ih =>
    have hnext : UInt32.ofNat (rounds + 1) + 1 = UInt32.ofNat (rounds + 1 + 1) := by
      rw [UInt32.ofNat_add (rounds + 1) 1]
      rfl
    rw [Nat.succ_mul] at hrounds
    rw [Nat.succ_mul, fillRounds, runFrom_append, ← hnext]
    exact (ih (by omega)).fillRound hrounds

/-- A transaction that is begun and gets one entry more than its list has cells. -/
theorem not_writesInBounds_overfull {mode : JournalMode} {cells : ℕ}
    (hcells : cells = maxTransactionEntries) :
    ¬ EveryStep (journalStep overrun) WritesInBounds (journalInit mode)
      (.beginTransaction 0 :: List.replicate (cells + 1) (emptyEntry 1)) := by
  intro hbounds
  have hmax : maxTransactionEntries ≤ maxJournalEntries := by decide
  have hroom : maxTransactionEntries < maxJournalEntries := by decide
  have hfull : Filling (runFrom (journalStep overrun) (journalInit mode)
      (.beginTransaction 0 :: List.replicate cells (emptyEntry 1))) 1 (0 + cells) (0 + cells) :=
    (emptied_journalInit mode).beginTransaction.addEntries cells (by omega) (by omega)
  have hlast := hbounds (.beginTransaction 0 :: List.replicate cells (emptyEntry 1)) (emptyEntry 1)
    (by rw [List.cons_append, ← List.replicate_succ'])
  obtain ⟨⟨transaction, hone, hid, hstate, hlength⟩, hstored, -⟩ := hfull
  have hfound : hasTransactionId 1 transaction = true := by simp [hasTransactionId, hid]
  have hwritten := hlast.inside (0 + cells) (writtenCell_addEntry_iff.mpr
    ⟨by omega, by decide, transaction, by rw [journalGetTransaction, hone,
      List.find?_cons_of_pos hfound], hstate, hlength⟩)
  omega

/-- A transaction that is begun and gets 257 entries: the last one is written behind its list. -/
theorem not_writesInBounds_257_entries :
    ¬ (AlongRun (journalStep id) CountsFit (journalInit .ordered)
        (.beginTransaction 0 :: List.replicate 257 (emptyEntry 1)) ∧
      EveryStep (journalStep id) WritesInBounds (journalInit .ordered)
        (.beginTransaction 0 :: List.replicate 257 (emptyEntry 1))) :=
  fun hboth ↦ not_writesInBounds_overfull rfl hboth.2

/-! ### Space after a checkpoint -/

/-- The number of entries that belong to a transaction of the table. -/
def liveEntries (entries : List JournalEntry) (transactions : List Transaction) : ℕ :=
  entries.countP fun entry ↦ transactions.any fun transaction ↦
    transaction.entryIds.contains entry.entryId

/-- A transaction that takes an entry: it is found by its id, it is running, and it holds fewer than
256 entries. -/
structure Takes (transactions : List Transaction) (transId : UInt32) (transaction : Transaction) :
    Prop where
  found : transactions.find? (hasTransactionId transId) = some transaction
  running : transaction.state = .running
  room : transaction.entryIds.length < maxTransactionEntries

/-- Right after a checkpoint, while fewer than 4096 entries belong to a transaction that is left, an
entry whose data fit is added to every transaction that takes one. -/
def FreesSpace (overrun : FilesystemJournal → FilesystemJournal) (journal : FilesystemJournal) :
    Prop :=
  liveEntries (journalCheckpoint journal).1.entries (journalCheckpoint journal).1.transactions <
      maxJournalEntries →
    ∀ transId type blockNum dataLen data now transaction, dataLen.toNat ≤ journalEntrySize →
      Takes (journalCheckpoint journal).1.transactions transId transaction →
        (journalAddEntry overrun (journalCheckpoint journal).1 transId type blockNum dataLen data
          now).2 ≠ -1

/-- The number of entries that the operations of a run have added. -/
def addedEntries (overrun : FilesystemJournal → FilesystemJournal) (mode : JournalMode)
    (ops : List JournalOp) : ℕ :=
  tally (journalStep overrun) (fun journal op ↦ (writtenCell journal op).toList.length)
    (journalInit mode) ops

/-- The condition: fewer than 4096 entries were ever added, or none of the transactions that a
checkpoint keeps takes an entry, or all 4096 entries belong to them. -/
def SpaceLeft (added : ℕ) (journal : FilesystemJournal) : Prop :=
  added < maxJournalEntries ∨
    (∀ transId transaction,
      ¬ Takes (journal.transactions.filter Transaction.isKept) transId transaction) ∨
    maxJournalEntries ≤
      liveEntries journal.entries (journal.transactions.filter Transaction.isKept)

/-- Assumes: an entry that is added finds a free cell. An operation adds an entry exactly when it
writes a cell. -/
theorem length_entries_step {op : JournalOp} (hfit : EntriesFit journal op) :
    (journalStep overrun journal op).entries.length =
      journal.entries.length + (writtenCell journal op).toList.length := by
  cases op with
  | beginTransaction now =>
    rcases journalStep_beginTransaction_cases now with hstep | hstep
    · rw [hstep]
      rfl
    · rw [hstep]
      rfl
  | addEntry transId type blockNum dataLen data now =>
    simp only [journalStep, journalAddEntry, writtenCell]
    split_ifs with hroom hsize
    · rfl
    · rfl
    · cases hfind : journalGetTransaction journal transId with
      | none => rfl
      | some transaction =>
        by_cases hstate : transaction.state = .running
        · have hfree := hfit (by omega) (by omega) transaction hfind hstate
          simp only [hstate, ne_eq, not_true_eq_false, if_false, if_pos hfree]
          rw [List.length_append]
          rfl
        · simp only [ne_eq, hstate, not_false_eq_true, if_true]
          rfl
  | _ => exact (keepsLabels_step (by simp) (by simp)).length_entries

/-- Assumes: the entries that are added find a free cell. The journal holds every entry that was
ever added. -/
theorem length_entries_runFrom {ops : List JournalOp}
    (hfit : EveryStep (journalStep overrun) EntriesFit journal ops) :
    (runFrom (journalStep overrun) journal ops).entries.length =
      journal.entries.length + tally (journalStep overrun)
        (fun journal op ↦ (writtenCell journal op).toList.length) journal ops := by
  induction ops generalizing journal with
  | nil => rfl
  | cons op ops ih =>
    obtain ⟨hfirst, hrest⟩ := everyStep_cons.mp hfit
    rw [runFrom_cons, ih hrest, length_entries_step hfirst, tally, Nat.add_assoc]

/-- An entry is added to a transaction that takes one exactly when the journal is not full. -/
theorem journalAddEntry_ne_neg_one_iff {transId : UInt32} {type : JournalEntryType}
    {blockNum : UInt64} {dataLen : UInt32} {data : Option (Vector UInt8 dataLen.toNat)} {now : Int}
    {transaction : Transaction} (hsize : dataLen.toNat ≤ journalEntrySize)
    (htakes : Takes journal.transactions transId transaction) :
    (journalAddEntry overrun journal transId type blockNum dataLen data now).2 ≠ -1 ↔
      journal.entries.length < maxJournalEntries := by
  have hfind : journalGetTransaction journal transId = some transaction := htakes.found
  rw [journalAddEntry]
  split_ifs with hroom hlarge
  · exact iff_of_false (by simp) (Nat.not_lt.mpr hroom)
  · exact absurd hsize (Nat.not_le.mpr hlarge)
  · simp only [hfind, htakes.running, ne_eq, not_true_eq_false, if_false]
    exact iff_of_true (by omega) (Nat.not_le.mp hroom)

/-- Assumes: no transaction takes more than 256 entries. After every run a checkpoint frees the
space of the entries it drops exactly when there is space left. -/
theorem freesSpace_iff (overrun : FilesystemJournal → FilesystemJournal) (mode : JournalMode)
    (ops : List JournalOp)
    (hfit : EveryStep (journalStep overrun) EntriesFit (journalInit mode) ops) :
    FreesSpace overrun (runFrom (journalStep overrun) (journalInit mode) ops) ↔
      SpaceLeft (addedEntries overrun mode ops)
        (runFrom (journalStep overrun) (journalInit mode) ops) := by
  have hadded : (runFrom (journalStep overrun) (journalInit mode) ops).entries.length =
      addedEntries overrun mode ops := by
    rw [length_entries_runFrom hfit, addedEntries]
    exact Nat.zero_add _
  rw [SpaceLeft, ← hadded]
  generalize runFrom (journalStep overrun) (journalInit mode) ops = journal
  constructor
  · intro hfrees
    by_cases hlive : liveEntries journal.entries (journal.transactions.filter Transaction.isKept) <
        maxJournalEntries
    · by_cases htakes : ∃ transId transaction,
          Takes (journal.transactions.filter Transaction.isKept) transId transaction
      · obtain ⟨transId, transaction, htakes⟩ := htakes
        have hsize : (0 : UInt32).toNat ≤ journalEntrySize := by decide
        have hadded := hfrees hlive transId .data 0 0 none 0 transaction hsize htakes
        have hroom : (journalCheckpoint journal).1.entries.length < maxJournalEntries :=
          (journalAddEntry_ne_neg_one_iff hsize htakes).mp hadded
        exact Or.inl hroom
      · exact Or.inr (Or.inl fun transId transaction hone ↦ htakes ⟨transId, transaction, hone⟩)
    · exact Or.inr (Or.inr (Nat.not_lt.mp hlive))
  · rintro (hroom | hnone | hfull) hlive transId type blockNum dataLen data now transaction hsize
      htakes
    · exact (journalAddEntry_ne_neg_one_iff hsize htakes).mpr hroom
    · exact absurd htakes (hnone transId transaction)
    · exact absurd hlive (Nat.not_lt.mpr hfull)

/-- One committed transaction is dropped, and another one takes an entry. -/
theorem freesSpace_one_committed :
    FreesSpace id (runFrom (journalStep id) (journalInit .ordered)
      [.beginTransaction 0, emptyEntry 1, .commitTransaction 1 1, .beginTransaction 2]) := by
  refine (freesSpace_iff id .ordered _ ?_).mpr (Or.inl ?_)
  · simp only [emptyEntry, everyStep_cons, everyStep_nil, EntriesFit, true_and, and_true]
    intro _ _ transaction hfind _
    cases hfind
    decide
  · decide

/-- Assumes: the one transaction lists no entry and the journal is full. -/
theorem Filling.not_freesSpace {transId : UInt32} (hpos : 0 < transId)
    (hfilling : Filling journal transId 0 maxJournalEntries) : ¬ FreesSpace overrun journal := by
  intro hfrees
  obtain ⟨⟨transaction, hone, rfl, hstate, hlength⟩, hstored, -⟩ := hfilling
  have hempty : transaction.entryIds = [] := List.length_eq_zero_iff.mp hlength
  have hkept : (journalCheckpoint journal).1.transactions = [transaction] := by
    simp [journalCheckpoint, hone, Transaction.isKept, Transaction.isCheckpointed, hstate, hpos]
  have htakes : Takes (journalCheckpoint journal).1.transactions transaction.transactionId
      transaction := by
    refine ⟨?_, hstate, by rw [hlength]; decide⟩
    rw [hkept, List.find?_cons_of_pos (by simp [hasTransactionId])]
  have hlive : liveEntries (journalCheckpoint journal).1.entries
      (journalCheckpoint journal).1.transactions < maxJournalEntries := by
    rw [hkept]
    simp [liveEntries, hempty, maxJournalEntries]
  have hsize : (0 : UInt32).toNat ≤ journalEntrySize := by decide
  have hadded := hfrees hlive _ .data 0 0 none 0 transaction hsize htakes
  have hroom : (journalCheckpoint journal).1.entries.length < maxJournalEntries :=
    (journalAddEntry_ne_neg_one_iff hsize htakes).mp hadded
  exact absurd hstored (Nat.ne_of_lt hroom)

/-- Sixteen transactions with 256 entries each are committed and dropped: a new transaction gets no
entry, although no entry belongs to a transaction of the table. -/
theorem not_freesSpace_sixteen_rounds :
    ¬ FreesSpace id (runFrom (journalStep id) (journalInit .ordered)
      (fillRounds 16 ++ [.beginTransaction 0])) := by
  have hfull : 16 * maxTransactionEntries = maxJournalEntries := by decide
  have hemptied : Emptied (runFrom (journalStep id) (journalInit .ordered) (fillRounds 16))
      (UInt32.ofNat (16 + 1)) (16 * maxTransactionEntries) :=
    emptied_fillRounds 16 (by decide)
  rw [hfull] at hemptied
  have hfilling : Filling (runFrom (journalStep id) (journalInit .ordered)
      (fillRounds 16 ++ [.beginTransaction 0])) (UInt32.ofNat (16 + 1)) 0 maxJournalEntries := by
    rw [runFrom_append, runFrom_cons, runFrom_nil]
    exact hemptied.beginTransaction
  exact hfilling.not_freesSpace (by decide)

end OneOS.Filesystem.Journal
