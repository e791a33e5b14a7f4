import OneOS.Filesystem.JournalOwnership

/-!
# Recovery of the journal

`journal_recover` of `fs/fs_journal.c` is meant to leave every transaction whole: committed with all
its entries synced, or aborted with none (`AllOrNothing`). The entries of a transaction are the ones
its list names.

It falls short of this in two ways. It turns a running transaction into an aborted one without
clearing the marks of its entries, as `journal_abort_transaction` does, and `journal_sync_to_disk`
sets such marks. And it makes a committing transaction committed also when the checksum of an entry
does not verify and the entry stays unmarked. `allOrNothing_recover_iff` shows that these are the
only ways: after any run, an interruption of a commit at any point and any damage to the stored
bytes, recovery is all or nothing exactly when the journal it starts from is `RecoverySafe`.
-/

set_option autoImplicit false
set_option relaxedAutoImplicit false

namespace OneOS.Filesystem.Journal

open Foundation

variable {overrun : FilesystemJournal → FilesystemJournal} {journal : FilesystemJournal}

/-! ### What recovery is for -/

/-- Every transaction is committed with all its entries synced, or aborted with none of them
synced. -/
def AllOrNothing (journal : FilesystemJournal) : Prop :=
  ∀ transaction ∈ journal.transactions,
    (transaction.state = .committed ∧ ∀ entry ∈ journal.entries,
      entry.entryId ∈ transaction.entryIds → entry.isSynced = true) ∨
    (transaction.state = .aborted ∧ ∀ entry ∈ journal.entries,
      entry.entryId ∈ transaction.entryIds → entry.isSynced = false)

/-- The condition on the journal that recovery starts from: no entry of a running or aborted
transaction is synced, and every entry of a committing one is synced or verifies its checksum. -/
def RecoverySafe (journal : FilesystemJournal) : Prop :=
  ∀ transaction ∈ journal.transactions, ∀ entry ∈ journal.entries,
    entry.entryId ∈ transaction.entryIds →
      (transaction.state = .running ∨ transaction.state = .aborted → entry.isSynced = false) ∧
      (transaction.state = .committing → entry.isSynced = true ∨ journalVerifyChecksum entry = 0)

/-- A crash inside `journal_commit_transaction`: its arguments and the number of turns of its loop
that were made. -/
structure CommitCrash where
  transId : UInt32
  now : Int
  marked : ℕ

/-- The journal a crash leaves, if there is one. -/
def crashed (journal : FilesystemJournal) : Option CommitCrash → FilesystemJournal
  | none => journal
  | some crash => commitInterrupted journal crash.transId crash.now crash.marked

/-! ### What recovery does to an entry -/

/-- The ids that recovery goes through are those of the committing transactions. Assumes: no id is
listed by two transactions. -/
theorem mem_recoverableIds_iff (hlisted : EntriesListed journal) {transaction : Transaction}
    (htransaction : transaction ∈ journal.transactions) {entryId : UInt32}
    (hin : entryId ∈ transaction.entryIds) :
    entryId ∈ recoverableIds journal.transactions ↔ transaction.state = .committing := by
  constructor
  · intro hrecoverable
    obtain ⟨other, hother, hotherIn⟩ := List.mem_flatMap.mp hrecoverable
    obtain ⟨hotherMem, hstate⟩ := List.mem_filter.mp hother
    rw [hlisted.unique htransaction hotherMem hin hotherIn]
    exact beq_iff_eq.mp hstate
  · intro hstate
    exact List.mem_flatMap.mpr
      ⟨transaction, List.mem_filter.mpr ⟨htransaction, beq_iff_eq.mpr hstate⟩, hin⟩

/-- After recovery an entry is marked if it was, or if its transaction was committing and its
checksum verifies. -/
theorem isSynced_recoveredEntry_iff (hlisted : EntriesListed journal) {transaction : Transaction}
    (htransaction : transaction ∈ journal.transactions) {entry : JournalEntry}
    (hin : entry.entryId ∈ transaction.entryIds) :
    (recoveredEntry journal.transactions entry).isSynced = true ↔
      entry.isSynced = true ∨
        (transaction.state = .committing ∧ journalVerifyChecksum entry = 0) := by
  rw [recoveredEntry, ← mem_recoverableIds_iff hlisted htransaction hin]
  by_cases hrecoverable : entry.entryId ∈ recoverableIds journal.transactions
  · rw [if_pos hrecoverable, JournalEntry.recover]
    by_cases hverify : journalVerifyChecksum entry = 0
    · simp [hverify, hrecoverable, JournalEntry.setMark]
    · simp [hverify]
  · simp [hrecoverable]

/-! ### The journal that recovery starts from -/

/-- The entries of a committed transaction are synced. -/
def CommittedSynced (state : TransactionState) (mark : Bool) : Prop :=
  state = .committed → mark = true

/-- What holds of every journal that recovery can start from. -/
structure Recoverable (journal : FilesystemJournal) : Prop where
  listed : EntriesListed journal
  started : ∀ transaction ∈ journal.transactions, transaction.state ≠ .idle
  marks : Marks CommittedSynced journal

/-- What holds between operations: besides, no transaction is committing. -/
structure Resting (journal : FilesystemJournal) : Prop extends Recoverable journal where
  finished : ∀ transaction ∈ journal.transactions, transaction.state ≠ .committing

theorem resting_journalInit (mode : JournalMode) : Resting (journalInit mode) where
  listed := entriesListed_journalInit mode
  started := by simp [journalInit]
  marks := by simp [Marks, journalInit]
  finished := by simp [journalInit]

/-- A state that is neither idle nor committing. -/
def TransactionState.IsResting (state : TransactionState) : Prop :=
  state ≠ .idle ∧ state ≠ .committing

theorem Transaction.isResting_recover {transaction : Transaction}
    (hresting : transaction.state.IsResting) : transaction.recover.state.IsResting := by
  cases hstate : transaction.state with
  | idle => exact absurd hstate hresting.1
  | running => simp [Transaction.recover, hstate, TransactionState.IsResting]
  | committing => exact absurd hstate hresting.2
  | committed => simp [Transaction.recover, hstate, TransactionState.IsResting]
  | aborted => simp [Transaction.recover, hstate, TransactionState.IsResting]

/-- Every operation leaves the transactions in resting states. -/
theorem isResting_step {op : JournalOp} (hfit : EntriesFit journal op)
    (hresting : ∀ transaction ∈ journal.transactions, transaction.state.IsResting) :
    ∀ transaction ∈ (journalStep overrun journal op).transactions,
      transaction.state.IsResting := by
  refine forall_transactions_step hfit hresting ?_ ?_ ?_ ?_ ?_
  · intro now _
    simp [FilesystemJournal.newTransaction, TransactionState.IsResting]
  · intro transaction entryId hstate _ _
    exact hstate
  · intro transaction now _ _
    exact ⟨by simp [Transaction.finishCommit], by simp [Transaction.finishCommit]⟩
  · intro transaction _
    exact ⟨by simp [Transaction.abort], by simp [Transaction.abort]⟩
  · intro _ transaction _ hstate
    exact Transaction.isResting_recover hstate

/-- Every operation keeps the entries of committed transactions synced. -/
theorem committedSynced_step {op : JournalOp} (hresting : Resting journal)
    (hfit : EntriesFit journal op) : Marks CommittedSynced (journalStep overrun journal op) := by
  by_cases hrecover : op = .recover
  · rw [hrecover]
    intro transaction htransaction entry hentry hin hcommitted
    obtain ⟨old, hold, rfl⟩ := List.mem_map.mp htransaction
    have hstate : old.state = .committed := by
      cases hold' : old.state with
      | committed => rfl
      | committing => exact absurd hold' (hresting.finished old hold)
      | _ => simp [Transaction.recover, hold'] at hcommitted
    rw [journalStep, entries_recover hresting.listed.distinct] at hentry
    obtain ⟨oldEntry, holdEntry, rfl⟩ := List.mem_map.mp hentry
    rw [entryId_recoveredEntry, Transaction.entryIds_recover] at hin
    refine (isSynced_recoveredEntry_iff hresting.listed hold hin).mpr (Or.inl ?_)
    exact hresting.marks old hold oldEntry holdEntry hin hstate
  · by_cases hsync : op = .syncToDisk
    · rw [hsync]
      intro transaction _ entry hentry _ _
      obtain ⟨old, -, rfl⟩ := List.mem_map.mp hentry
      rfl
    · exact hresting.marks.step hresting.listed (by simp [CommittedSynced]) (fun _ ↦ rfl)
        (by simp [CommittedSynced]) hfit hrecover hsync

/-- Every operation leads from a resting journal to a resting one. Assumes: the entries fit. -/
theorem resting_step {op : JournalOp} (hresting : Resting journal)
    (hfit : EntriesFit journal op) : Resting (journalStep overrun journal op) := by
  have hstates : ∀ transaction ∈ (journalStep overrun journal op).transactions,
      transaction.state.IsResting := isResting_step hfit fun transaction htransaction ↦
    ⟨hresting.started transaction htransaction, hresting.finished transaction htransaction⟩
  exact {
    listed := entriesListed_step hresting.listed hfit
    started := fun transaction htransaction ↦ (hstates transaction htransaction).1
    marks := committedSynced_step hresting hfit
    finished := fun transaction htransaction ↦ (hstates transaction htransaction).2 }

/-- An interrupted commit of a resting journal leaves a recoverable one. -/
theorem recoverable_crashed (hresting : Resting journal) (crash : Option CommitCrash) :
    Recoverable (crashed journal crash) := by
  cases crash with
  | none => exact hresting.toRecoverable
  | some crash =>
    rw [crashed]
    rcases commitInterrupted_cases crash.transId crash.now crash.marked with
      hrefused | ⟨found, hfind, -, hcrashed⟩
    · rw [hrefused]
      exact hresting.toRecoverable
    · rw [hcrashed]
      refine ⟨?_, ?_, ?_⟩
      · exact hresting.listed.of_keepsLabels (keepsLabels_setSynced _ (by intro; rfl) true _)
      · apply (forall_mem_updateFirst_iff hresting.started).mpr
        intro transaction _
        simp [Transaction.startCommit]
      · refine hresting.marks.setSynced hresting.listed hfind rfl
          (fun _ hin ↦ List.mem_of_mem_take hin) ?_
        intro entry _ _ hstate
        cases hstate

/-- Damage to the stored bytes leaves a recoverable journal recoverable. -/
theorem recoverable_damageEntries (hrecoverable : Recoverable journal)
    (damage : ℕ → Vector UInt8 journalEntrySize → Vector UInt8 journalEntrySize) :
    Recoverable (damageEntries journal damage) where
  listed := by
    refine hrecoverable.listed.of_keepsLabels ⟨?_, List.Sublist.refl _, rfl⟩
    exact map_mapIdx_of_keep fun _ _ ↦ rfl
  started := hrecoverable.started
  marks := by
    intro transaction htransaction entry hentry hin
    obtain ⟨i, hi, rfl⟩ := List.mem_mapIdx.mp hentry
    exact hrecoverable.marks transaction htransaction journal.entries[i] (List.getElem_mem hi) hin

/-! ### When recovery is all or nothing -/

/-- Assumes: a recoverable journal. Recovery is all or nothing exactly when it starts from a safe
journal. -/
theorem Recoverable.allOrNothing_iff (hrecoverable : Recoverable journal) :
    AllOrNothing (journalRecover journal).1 ↔ RecoverySafe journal := by
  have htransactions : (journalRecover journal).1.transactions =
      journal.transactions.map Transaction.recover := rfl
  simp only [AllOrNothing, RecoverySafe, entries_recover hrecoverable.listed.distinct,
    htransactions, List.forall_mem_map, entryId_recoveredEntry, Transaction.entryIds_recover]
  refine forall₂_congr fun transaction htransaction ↦ ?_
  have hmark : ∀ entry, entry.entryId ∈ transaction.entryIds →
      ((recoveredEntry journal.transactions entry).isSynced = true ↔ entry.isSynced = true ∨
        (transaction.state = .committing ∧ journalVerifyChecksum entry = 0)) :=
    fun _ hin ↦ isSynced_recoveredEntry_iff hrecoverable.listed htransaction hin
  have hmarks := hrecoverable.marks transaction htransaction
  -- outside a committing transaction no mark changes
  have hsame : transaction.state ≠ .committing → ∀ entry, entry.entryId ∈ transaction.entryIds →
      (recoveredEntry journal.transactions entry).isSynced = entry.isSynced := by
    intro hstate entry hin
    rw [Bool.eq_iff_iff, hmark entry hin]
    simp [hstate]
  cases hstate : transaction.state with
  | idle => exact absurd hstate (hrecoverable.started transaction htransaction)
  | running =>
    have hafter : transaction.recover.state = .aborted := by simp [Transaction.recover, hstate]
    simp only [hafter, reduceCtorEq, false_and, true_and, false_or, or_false, true_imp_iff,
      false_imp_iff, and_true]
    refine forall₃_congr fun entry _ hin ↦ ?_
    rw [hsame (by simp [hstate]) entry hin]
  | committing =>
    have hafter : transaction.recover.state = .committed := by simp [Transaction.recover, hstate]
    simp only [hafter, reduceCtorEq, false_and, true_and, or_false, true_imp_iff, false_imp_iff]
    refine forall₃_congr fun entry _ hin ↦ ?_
    rw [hmark entry hin]
    simp [hstate]
  | committed =>
    have hafter : transaction.recover.state = .committed := by simp [Transaction.recover, hstate]
    simp only [hafter, reduceCtorEq, false_and, true_and, or_false, false_imp_iff, and_true,
      implies_true, iff_true]
    intro entry hentry hin
    rw [hsame (by simp [hstate]) entry hin]
    exact hmarks entry hentry hin hstate
  | aborted =>
    have hafter : transaction.recover.state = .aborted := by simp [Transaction.recover, hstate]
    simp only [hafter, reduceCtorEq, false_and, true_and, false_or, true_imp_iff, false_imp_iff,
      and_true]
    refine forall₃_congr fun entry _ hin ↦ ?_
    rw [hsame (by simp [hstate]) entry hin]

/-- Assumes: no transaction takes more than 256 entries. After any run, with a commit interrupted
at any point or not, and after any damage to the stored bytes, recovery is all or nothing exactly
when the journal it starts from is safe. -/
theorem allOrNothing_recover_iff (overrun : FilesystemJournal → FilesystemJournal)
    (mode : JournalMode) (ops : List JournalOp)
    (hfit : EveryStep (journalStep overrun) EntriesFit (journalInit mode) ops)
    (crash : Option CommitCrash)
    (damage : ℕ → Vector UInt8 journalEntrySize → Vector UInt8 journalEntrySize) :
    AllOrNothing (journalRecover (damageEntries
      (crashed (runFrom (journalStep overrun) (journalInit mode) ops) crash) damage)).1 ↔
    RecoverySafe (damageEntries
      (crashed (runFrom (journalStep overrun) (journalInit mode) ops) crash) damage) := by
  have hresting : Resting (runFrom (journalStep overrun) (journalInit mode) ops) :=
    runFrom_invariant Resting EntriesFit (fun _ _ hkept hfits ↦ resting_step hkept hfits)
      (resting_journalInit mode) hfit
  exact (recoverable_damageEntries (recoverable_crashed hresting crash) damage).allOrNothing_iff

/-- A commit is stopped before it has marked its only entry: recovery commits the transaction. -/
theorem allOrNothing_recover_interrupted :
    AllOrNothing (journalRecover (damageEntries
      (crashed (runFrom (journalStep id) (journalInit .ordered)
        [.beginTransaction 0, .addEntry 1 .data 7 2 (some (Vector.replicate 2 9)) 0])
        (some ⟨1, 0, 0⟩)) fun _ data ↦ data)).1 := by
  refine (allOrNothing_recover_iff id .ordered _ ?_ _ _).mpr ?_
  · simp only [everyStep_cons, everyStep_nil, EntriesFit, true_and, and_true]
    intro _ _ transaction hfind _
    cases hfind
    decide
  · unfold RecoverySafe
    decide +kernel

/-- An entry of a running transaction is synced by force: recovery aborts the transaction and the
entry stays synced. -/
theorem aborted_with_synced_entry :
    ¬ AllOrNothing (journalRecover (damageEntries
      (crashed (runFrom (journalStep id) (journalInit .ordered)
        [.beginTransaction 0, .addEntry 1 .data 7 0 none 0, .syncToDisk]) none)
        fun _ data ↦ data)).1 := by
  unfold AllOrNothing
  decide

end OneOS.Filesystem.Journal
