import OneOS.Filesystem.JournalRecovery

/-!
# Transactions in progress

A transaction of `fs/fs_journal.c` says twice whether it is still open: by its state, which is then
running or committing, and by the flag `in_progress`, which `journal_get_pending_transactions`,
`journal_set_mode` and `journal_checkpoint` go by. Begin, commit and abort write both, and a crash
inside a commit leaves both. Recovery gives an open transaction a final state and leaves its flag,
so that it stays pending for good, keeps the mode from being changed and, when it is committed, is
not dropped by a checkpoint.

`flagsFollow_iff` says that this is the only way: the flags follow the states, and recovery leaves
nothing pending, exactly in the runs in which recovery has no transaction to recover.
-/

set_option autoImplicit false
set_option relaxedAutoImplicit false

namespace OneOS.Filesystem.Journal

open Foundation

variable {overrun : FilesystemJournal → FilesystemJournal} {journal : FilesystemJournal}
  {transaction : Transaction}

/-! ### Runs with crashes -/

/-- What happens to a journal: a call that is run to its end, or a crash inside a commit. -/
inductive JournalEvent
  | call (op : JournalOp)
  | crash (crash : CommitCrash)

/-- The journal after an event. -/
def journalEvent (overrun : FilesystemJournal → FilesystemJournal) (journal : FilesystemJournal) :
    JournalEvent → FilesystemJournal
  | .call op => journalStep overrun journal op
  | .crash crash => crashed journal (some crash)

/-- An entry that is added fits the list of its transaction. -/
def EventFits (journal : FilesystemJournal) : JournalEvent → Prop
  | .call op => EntriesFit journal op
  | .crash _ => True

/-! ### Flags and states -/

/-- Running or committing. -/
def TransactionState.IsOpen (state : TransactionState) : Prop :=
  state = .running ∨ state = .committing

instance (state : TransactionState) : Decidable state.IsOpen :=
  inferInstanceAs (Decidable (state = .running ∨ state = .committing))

/-- The flag of a transaction follows its state. -/
def Transaction.FlagFollows (transaction : Transaction) : Prop :=
  transaction.inProgress = true ↔ transaction.state.IsOpen

instance (transaction : Transaction) : Decidable transaction.FlagFollows :=
  inferInstanceAs (Decidable (transaction.inProgress = true ↔ transaction.state.IsOpen))

/-- The flag of every transaction follows its state. -/
def FlagsFollow (journal : FilesystemJournal) : Prop :=
  ∀ transaction ∈ journal.transactions, transaction.FlagFollows

/-- After a recovery no transaction is pending, every change of the mode is served, and a checkpoint
drops every committed transaction. -/
structure LeavesNothingPending (journal : FilesystemJournal) : Prop where
  pending : journalGetPendingTransactions (journalRecover journal).1 = 0
  mode : ∀ mode, (journalSetMode (journalRecover journal).1 mode).2 = 0
  dropped : ∀ transaction ∈ (journalCheckpoint (journalRecover journal).1).1.transactions,
    transaction.state ≠ .committed

/-- What is asked of an event: a recovery leaves nothing pending. -/
def RecoversFully (journal : FilesystemJournal) : JournalEvent → Prop
  | .call .recover => LeavesNothingPending journal
  | _ => True

/-- The condition on an event: a recovery finds no transaction that is running or committing. -/
def NothingToRecover (journal : FilesystemJournal) : JournalEvent → Prop
  | .call .recover => ∀ transaction ∈ journal.transactions, ¬ transaction.state.IsOpen
  | _ => True

/-! ### One event -/

/-- Recovery leaves a transaction that is not open as it is. -/
theorem Transaction.recover_of_not_isOpen (hclosed : ¬ transaction.state.IsOpen) :
    transaction.recover = transaction := by
  rw [Transaction.recover]
  cases hstate : transaction.state with
  | running => exact absurd (Or.inl hstate) hclosed
  | committing => exact absurd (Or.inr hstate) hclosed
  | _ => rfl

/-- Recovery closes a transaction and leaves its flag. -/
theorem Transaction.recover_flag (transaction : Transaction) :
    ¬ transaction.recover.state.IsOpen ∧
      transaction.recover.inProgress = transaction.inProgress := by
  rw [Transaction.recover]
  cases hstate : transaction.state with
  | running => exact ⟨show ¬ TransactionState.aborted.IsOpen by decide, rfl⟩
  | committing => exact ⟨show ¬ TransactionState.committed.IsOpen by decide, rfl⟩
  | _ =>
    refine ⟨?_, rfl⟩
    rw [hstate]
    decide

/-- Assumes: the flags follow the states. They still do after a recovery exactly when it has nothing
to recover. -/
theorem flagsFollow_recover_iff (hfollow : FlagsFollow journal) :
    FlagsFollow (journalRecover journal).1 ↔
      ∀ transaction ∈ journal.transactions, ¬ transaction.state.IsOpen := by
  constructor
  · intro hafter transaction htransaction hopen
    obtain ⟨hclosed, hflag⟩ := transaction.recover_flag
    have hrecovered := hafter transaction.recover (List.mem_map_of_mem htransaction)
    exact hclosed (hrecovered.mp (hflag.trans ((hfollow transaction htransaction).mpr hopen)))
  · intro hclosed transaction htransaction
    obtain ⟨old, hold, rfl⟩ := List.mem_map.mp htransaction
    rw [Transaction.recover_of_not_isOpen (hclosed old hold)]
    exact hfollow old hold

/-- Assumes: the flags follow the states and there is nothing to recover. -/
theorem leavesNothingPending (hfollow : FlagsFollow journal)
    (hclosed : ∀ transaction ∈ journal.transactions, ¬ transaction.state.IsOpen) :
    LeavesNothingPending journal := by
  have hdone : ∀ transaction ∈ (journalRecover journal).1.transactions,
      transaction.inProgress = false := by
    intro transaction htransaction
    obtain ⟨old, hold, rfl⟩ := List.mem_map.mp htransaction
    rw [Transaction.recover_of_not_isOpen (hclosed old hold), ← Bool.not_eq_true]
    exact fun hflag ↦ hclosed old hold ((hfollow old hold).mp hflag)
  have hpending : journalGetPendingTransactions (journalRecover journal).1 = 0 := by
    rw [journalGetPendingTransactions, List.countP_eq_zero]
    intro transaction htransaction
    rw [hdone transaction htransaction]
    exact Bool.false_ne_true
  refine ⟨hpending, fun mode ↦ ?_, fun transaction htransaction hcommitted ↦ ?_⟩
  · rw [journalSetMode, if_neg (by omega)]
  · obtain ⟨hmem, hkept⟩ := List.mem_filter.mp htransaction
    simp [Transaction.isKept, Transaction.isCheckpointed, hcommitted, hdone transaction hmem]
      at hkept

/-- Assumes: an entry that is added fits the list of its transaction. Every call but a recovery lets
the flags follow the states. -/
theorem flagsFollow_step {op : JournalOp} (hfollow : FlagsFollow journal)
    (hfit : EntriesFit journal op) (hrecover : op ≠ .recover) :
    FlagsFollow (journalStep overrun journal op) := by
  refine forall_transactions_step hfit hfollow ?_ ?_ ?_ ?_ ?_
  · intro now _
    exact ⟨fun _ ↦ Or.inl rfl, fun _ ↦ rfl⟩
  · intro transaction entryId hold _ _
    exact hold
  · intro transaction now _ _
    exact show false = true ↔ TransactionState.committed.IsOpen by decide
  · intro transaction _
    exact show false = true ↔ TransactionState.aborted.IsOpen by decide
  · intro hop
    exact absurd hop hrecover

/-- A crash inside a commit leaves the flag of the committing transaction. -/
theorem flagsFollow_crashed (hfollow : FlagsFollow journal) (crash : CommitCrash) :
    FlagsFollow (crashed journal (some crash)) := by
  rcases commitInterrupted_cases crash.transId crash.now crash.marked with
    hcrash | ⟨found, hfind, hstate, hcrash⟩
  · rwa [crashed, hcrash]
  · rw [crashed, hcrash]
    apply (forall_mem_updateFirst_iff hfollow).mpr
    intro transaction hlookup
    obtain rfl : found = transaction := Option.some.inj (hfind.symm.trans hlookup)
    have hflag : found.inProgress = true :=
      (hfollow found (List.mem_of_find?_eq_some hfind)).mpr (Or.inl hstate)
    exact ⟨fun _ ↦ Or.inr rfl, fun _ ↦ hflag⟩

/-- Assumes: an entry that is added fits the list of its transaction, and the flags follow the
states. They still do after an event, and a recovery leaves nothing pending, exactly when a recovery
finds nothing to recover. -/
theorem flagsFollow_event_iff {event : JournalEvent} (hfollow : FlagsFollow journal)
    (hfit : EventFits journal event) :
    FlagsFollow (journalEvent overrun journal event) ∧ RecoversFully journal event ↔
      NothingToRecover journal event := by
  cases event with
  | crash crash => exact iff_of_true ⟨flagsFollow_crashed hfollow crash, trivial⟩ trivial
  | call op =>
    cases op with
    | recover =>
      constructor
      · intro hafter
        exact (flagsFollow_recover_iff hfollow).mp hafter.1
      · intro hclosed
        exact ⟨(flagsFollow_recover_iff hfollow).mpr hclosed, leavesNothingPending hfollow hclosed⟩
    | _ => exact iff_of_true ⟨flagsFollow_step hfollow hfit (by simp), trivial⟩ trivial

/-! ### Runs -/

/-- Assumes: no transaction takes more than 256 entries. Over every run of calls and crashes, the
flags follow the states and every recovery leaves nothing pending, exactly when no recovery finds a
transaction that is running or committing. -/
theorem flagsFollow_iff (overrun : FilesystemJournal → FilesystemJournal) (mode : JournalMode)
    (events : List JournalEvent)
    (hfit : EveryStep (journalEvent overrun) EventFits (journalInit mode) events) :
    AlongRun (journalEvent overrun) FlagsFollow (journalInit mode) events ∧
        EveryStep (journalEvent overrun) RecoversFully (journalInit mode) events ↔
      EveryStep (journalEvent overrun) NothingToRecover (journalInit mode) events :=
  alongRun_and_everyStep_iff (fun _ ↦ True) EventFits (fun _ _ _ _ ↦ trivial)
    (fun _ _ _ hfits hfollow ↦ flagsFollow_event_iff hfollow hfits) trivial
    (by simp [FlagsFollow, journalInit]) hfit

/-- A crash inside a commit, after which the transaction is aborted before the recovery. -/
theorem flagsFollow_aborted_recover :
    AlongRun (journalEvent id) FlagsFollow (journalInit .ordered)
        [.call (.beginTransaction 0), .crash ⟨1, 1, 0⟩, .call (.abortTransaction 1),
          .call .recover] ∧
      EveryStep (journalEvent id) RecoversFully (journalInit .ordered)
        [.call (.beginTransaction 0), .crash ⟨1, 1, 0⟩, .call (.abortTransaction 1),
          .call .recover] := by
  refine (flagsFollow_iff id .ordered _ ?_).mpr ?_
  · simp [EventFits, EntriesFit]
  · simp only [everyStep_cons, everyStep_nil, NothingToRecover, true_and, and_true]
    decide

/-- A crash inside a commit and a recovery: the transaction is committed and still in progress, one
transaction is pending, the mode cannot be changed, and a checkpoint keeps the transaction. -/
theorem not_flagsFollow_crash_recover :
    ¬ AlongRun (journalEvent id) FlagsFollow (journalInit .ordered)
        [.call (.beginTransaction 0), .crash ⟨1, 1, 0⟩, .call .recover] ∧
      ∃ journal, runFrom (journalEvent id) (journalInit .ordered)
          [.call (.beginTransaction 0), .crash ⟨1, 1, 0⟩, .call .recover] = journal ∧
        journalGetPendingTransactions journal = 1 ∧ (journalSetMode journal .data).2 = -1 ∧
        ∃ transaction ∈ (journalCheckpoint journal).1.transactions,
          transaction.state = .committed := by
  refine ⟨fun halong ↦ ?_, _, rfl, by decide, by decide, by decide⟩
  have hreached := halong _ (List.prefix_refl _)
  revert hreached
  rw [FlagsFollow]
  decide

end OneOS.Filesystem.Journal
