import OneOS.Filesystem.JournalOwnership
import OneOS.Foundation.RepeatableSteps

/-!
# Recovery that is stopped and begun again

`journal_recover` may itself be stopped by a crash: after a number of turns of its outer loop and of
the inner loop of the next turn (`recoverInterrupted`). The marks it has set and the states it has
changed stay, and it is begun again from the first transaction.

A recovered transaction is not gone through again, and marking an entry twice makes no difference.
So however often recovery is stopped, and wherever, it leaves in the end what it would have left
without a crash (`journalRecover_after_crashes`), on every journal. Only `recovered_transactions`
forgets what was done before: it counts the entries of the last attempt.
-/

set_option autoImplicit false
set_option relaxedAutoImplicit false

namespace OneOS.Filesystem.Journal

open Foundation

/-! ### Crashes -/

/-- The journal when `journal_recover` is stopped after a number of turns of its outer loop, and of
turns of the inner loop of the next one. -/
def recoverInterrupted (journal : FilesystemJournal) (turns marked : ℕ) : FilesystemJournal :=
  let finished := (journal.transactions.take turns).foldl recoverTransaction (journal.entries, 0)
  let stopped :=
    match journal.transactions[turns]? with
    | none => finished
    | some transaction =>
      recoverTransaction finished
        { transaction with entryIds := transaction.entryIds.take marked }
  { journal with
    entries := stopped.1
    transactions := (journal.transactions.take turns).map Transaction.recover ++
      journal.transactions.drop turns
    recoveryNeeded := false }

/-- The journal without the count of the last attempt. -/
def FilesystemJournal.withoutCount (journal : FilesystemJournal) : FilesystemJournal :=
  { journal with recoveredTransactions := 0 }

variable {journal : FilesystemJournal}

/-! ### Marking -/

/-- Marking an entry by its id, as recovery does it. -/
def markRecovered (entries : List JournalEntry) (entryId : UInt32) : List JournalEntry :=
  updateFirst (hasEntryId entryId) JournalEntry.recover entries

theorem hasEntryId_recover (entryId : UInt32) (entry : JournalEntry) :
    hasEntryId entryId entry.recover = hasEntryId entryId entry := by
  rw [hasEntryId, hasEntryId, entry.recover_label.1]

/-- Entries may be marked in any order, and again. -/
theorem repeatable_markRecovered : Repeatable markRecovered where
  comm := by
    intro entries first second
    by_cases hsame : first = second
    · rw [hsame]
    · refine updateFirst_comm (hasEntryId_recover second) (hasEntryId_recover first) ?_
      intro entry hfirst
      rw [hasEntryId, beq_iff_eq] at hfirst
      rw [hasEntryId, beq_eq_false_iff_ne, hfirst]
      exact hsame
  again := by
    intro entries entryId
    rw [markRecovered, markRecovered,
      updateFirst_updateFirst fun entry ↦ hasEntryId_recover entryId entry]
    exact congrArg (fun change ↦ updateFirst (hasEntryId entryId) change entries)
      (funext fun entry ↦ entry.recover_recover)

/-! ### What is left to do -/

/-- The entries after turns of the outer loop are those after one loop over the recoverable ids. -/
theorem fst_turns (recovering : List JournalEntry × UInt32) (transactions : List Transaction) :
    (transactions.foldl recoverTransaction recovering).1 =
      (recoverableIds transactions).foldl markRecovered recovering.1 :=
  fst_foldl_recoverTransaction recovering transactions

theorem entries_journalRecover (journal : FilesystemJournal) :
    (journalRecover journal).1.entries =
      (recoverableIds journal.transactions).foldl markRecovered journal.entries :=
  fst_turns _ _

theorem recoverableIds_append (earlier later : List Transaction) :
    recoverableIds (earlier ++ later) = recoverableIds earlier ++ recoverableIds later := by
  rw [recoverableIds, List.filter_append, List.flatMap_append]
  rfl

/-- A recovered transaction has no entries to recover. -/
theorem recoverableIds_map_recover (transactions : List Transaction) :
    recoverableIds (transactions.map Transaction.recover) = [] := by
  rw [recoverableIds, List.filter_eq_nil_iff.mpr]
  · rfl
  · intro transaction htransaction
    obtain ⟨old, -, rfl⟩ := List.mem_map.mp htransaction
    rw [Transaction.recover]
    cases hstate : old.state <;> simp [hstate]

theorem Transaction.recover_recover (transaction : Transaction) :
    transaction.recover.recover = transaction.recover := by
  rw [Transaction.recover]
  cases hstate : transaction.state <;> simp [Transaction.recover, hstate]

/-- The ids that a stopped recovery has gone through. -/
def idsBefore (journal : FilesystemJournal) (turns marked : ℕ) : List UInt32 :=
  recoverableIds (journal.transactions.take turns) ++
    (recoverableIds (journal.transactions[turns]?.toList)).take marked

theorem entries_recoverInterrupted (journal : FilesystemJournal) (turns marked : ℕ) :
    (recoverInterrupted journal turns marked).entries =
      (idsBefore journal turns marked).foldl markRecovered journal.entries := by
  rw [idsBefore, List.foldl_append]
  have hfinished := fst_turns (journal.entries, 0)
    (journal.transactions.take turns)
  rw [recoverInterrupted]
  cases hturn : journal.transactions[turns]? with
  | none =>
    rw [Option.toList_none, show recoverableIds [] = [] from rfl, List.take_nil]
    exact hfinished
  | some transaction =>
    have hstopped := fst_turns
      ((journal.transactions.take turns).foldl recoverTransaction (journal.entries, 0))
      [{ transaction with entryIds := transaction.entryIds.take marked }]
    rw [hfinished] at hstopped
    refine hstopped.trans ?_
    cases hstate : transaction.state <;> simp [recoverableIds, hstate]

/-- What a stopped recovery has gone through, the next one goes through again, but for the
transactions that are recovered. -/
theorem recoverInterrupted_recover (journal : FilesystemJournal) (turns marked : ℕ) :
    (journalRecover (recoverInterrupted journal turns marked)).1.withoutCount =
      (journalRecover journal).1.withoutCount := by
  have hids : recoverableIds (recoverInterrupted journal turns marked).transactions =
      recoverableIds (journal.transactions.drop turns) := by
    rw [recoverInterrupted, recoverableIds_append, recoverableIds_map_recover, List.nil_append]
  have hagain : (recoverableIds (journal.transactions[turns]?.toList)).take marked ⊆
      recoverableIds (journal.transactions.drop turns) := by
    refine List.Subset.trans (List.take_subset _ _) ?_
    rw [← List.head?_drop]
    cases hrest : journal.transactions.drop turns with
    | nil => exact List.nil_subset _
    | cons transaction later =>
      rw [List.head?_cons, ← List.singleton_append, recoverableIds_append]
      exact List.subset_append_left _ _
  have hentries : (journalRecover (recoverInterrupted journal turns marked)).1.entries =
      (journalRecover journal).1.entries := by
    rw [entries_journalRecover, entries_journalRecover, hids, entries_recoverInterrupted, idsBefore,
      List.foldl_append, ← List.foldl_append,
      foldl_append_of_subset repeatable_markRecovered hagain, ← List.foldl_append,
      ← recoverableIds_append, List.take_append_drop]
  have htransactions : (journalRecover (recoverInterrupted journal turns marked)).1.transactions =
      (journalRecover journal).1.transactions := by
    have hagain : Transaction.recover ∘ Transaction.recover = Transaction.recover :=
      funext Transaction.recover_recover
    simp only [journalRecover, recoverInterrupted]
    rw [List.map_append, List.map_map, hagain, ← List.map_append, List.take_append_drop]
  simp only [FilesystemJournal.withoutCount, hentries, htransactions]
  rfl

/-- However often recovery is stopped, and wherever, it leaves in the end what it would have left
without a crash, but for the count of the last attempt. -/
theorem journalRecover_after_crashes (journal : FilesystemJournal) (crashes : List (ℕ × ℕ)) :
    (journalRecover (crashes.foldl (fun journal crash ↦
        recoverInterrupted journal crash.1 crash.2) journal)).1.withoutCount =
      (journalRecover journal).1.withoutCount := by
  induction crashes generalizing journal with
  | nil => rfl
  | cons crash crashes ih => rw [List.foldl_cons, ih, recoverInterrupted_recover]

end OneOS.Filesystem.Journal
