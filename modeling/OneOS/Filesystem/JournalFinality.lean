import OneOS.Filesystem.Journal

/-!
# Finality of journal outcomes

A transaction of `fs/fs_journal.c` is decided once it is `COMMITTED` or `ABORTED`. It is followed
through a run by its row in the table: every operation leaves rows where they are except
`journal_checkpoint`, which moves a row it keeps down to the number of rows kept before it
(`rowAfter`, `rowAfterRun`). Ids do not serve for this, as the counter that hands them out wraps.

`OutcomesFinal` says that along a run a decided transaction keeps its outcome, and that only a
committed one leaves the table. `journal_commit_transaction` tests for `RUNNING` and
`journal_abort_transaction` does not, so it overwrites the outcome of a committed transaction; and
`journal_checkpoint` takes a row with id 0 for one it has zeroed. `outcomesFinal_iff` shows that
these are the only two ways in which an outcome is lost.
-/

set_option autoImplicit false
set_option relaxedAutoImplicit false

namespace OneOS.Filesystem.Journal

open Foundation

/-! ### Following a transaction through a run -/

/-- The transaction has its outcome. -/
def Transaction.IsDecided (transaction : Transaction) : Prop :=
  transaction.state = .committed ∨ transaction.state = .aborted

/-- The row in which an operation leaves the transaction of row `i`, if it leaves it in the
table. -/
def rowAfter (journal : FilesystemJournal) (i : ℕ) : JournalOp → Option ℕ
  | .checkpoint =>
    match journal.transactions[i]? with
    | none => none
    | some transaction =>
      if transaction.isKept then some ((journal.transactions.take i).countP Transaction.isKept)
      else none
  | _ => some i

variable (overrun : FilesystemJournal → FilesystemJournal)

/-- The row in which a run leaves the transaction of row `i`, if it leaves it in the table. -/
def rowAfterRun : FilesystemJournal → ℕ → List JournalOp → Option ℕ
  | _, i, [] => some i
  | journal, i, op :: ops =>
    (rowAfter journal i op).bind fun i ↦ rowAfterRun (journalStep overrun journal op) i ops

/-- What may become of a decided transaction: it is in the table with the same state, or it has
left the table and was committed. -/
def OutcomeKept (transaction : Transaction) (journal : FilesystemJournal) : Option ℕ → Prop
  | none => transaction.state = .committed
  | some i => ∃ after, journal.transactions[i]? = some after ∧ after.state = transaction.state

/-- Every transaction that is decided at some point of the run keeps its outcome from there on. -/
def OutcomesFinal (start : FilesystemJournal) (ops : List JournalOp) : Prop :=
  ∀ taken later i transaction, taken ++ later <+: ops →
    (runFrom (journalStep overrun) start taken).transactions[i]? = some transaction →
    transaction.IsDecided →
      OutcomeKept transaction (runFrom (journalStep overrun) start (taken ++ later))
        (rowAfterRun overrun (runFrom (journalStep overrun) start taken) i later)

/-- The condition on an operation: an abort does not find a committed transaction, and at a
checkpoint no aborted transaction has the id 0. -/
def RespectsOutcomes (journal : FilesystemJournal) : JournalOp → Prop
  | .abortTransaction transId => ∀ transaction,
      journalGetTransaction journal transId = some transaction → transaction.state ≠ .committed
  | .checkpoint => ∀ transaction ∈ journal.transactions,
      transaction.state = .aborted → transaction.transactionId ≠ 0
  | _ => True

/-! ### One operation -/

/-- Every transaction that is decided before the operation keeps its outcome. -/
def StepFinal (journal : FilesystemJournal) (op : JournalOp) : Prop :=
  ∀ i transaction, journal.transactions[i]? = some transaction → transaction.IsDecided →
    OutcomeKept transaction (journalStep overrun journal op) (rowAfter journal i op)

variable {overrun} {journal : FilesystemJournal}

/-- Assumes: the state of the first match is kept by the change. A decided transaction keeps its
outcome when the first match is changed. -/
theorem outcomeKept_updateFirst {test : Transaction → Bool} {change : Transaction → Transaction}
    {next : FilesystemJournal}
    (hnext : next.transactions = updateFirst test change journal.transactions)
    (hstate : ∀ found, journal.transactions.find? test = some found → found.IsDecided →
      (change found).state = found.state)
    {i : ℕ} {transaction : Transaction} (hrow : journal.transactions[i]? = some transaction)
    (hdecided : transaction.IsDecided) : OutcomeKept transaction next (some i) := by
  rw [OutcomeKept, hnext]
  have hupdated : (updateFirst test change journal.transactions)[i]? = some transaction ∨
      (journal.transactions.find? test = some transaction ∧
        (updateFirst test change journal.transactions)[i]? = some (change transaction)) :=
    getElem?_updateFirst hrow
  rcases hupdated with hsame | ⟨hfind, hchanged⟩
  · exact ⟨transaction, hsame, rfl⟩
  · exact ⟨change transaction, hchanged, hstate transaction hfind hdecided⟩

/-- A running transaction is not decided. -/
theorem Transaction.not_isDecided_of_running {transaction : Transaction}
    (hrunning : transaction.state = .running) : ¬ transaction.IsDecided := by
  rintro (hcommitted | haborted)
  · rw [hrunning] at hcommitted
    cases hcommitted
  · rw [hrunning] at haborted
    cases haborted

/-- A journal that is not changed keeps every outcome in its row. -/
theorem outcomeKept_self {i : ℕ} {transaction : Transaction}
    (hrow : journal.transactions[i]? = some transaction) :
    OutcomeKept transaction journal (some i) :=
  ⟨transaction, hrow, rfl⟩

theorem stepFinal_beginTransaction (now : Int) :
    StepFinal overrun journal (.beginTransaction now) := by
  intro i transaction hrow _
  rcases journalStep_beginTransaction_cases now with hstep | hstep
  · rw [hstep]
    exact outcomeKept_self hrow
  · rw [hstep]
    refine ⟨transaction, ?_, rfl⟩
    rw [List.getElem?_append_left (List.getElem?_eq_some_iff.mp hrow).1]
    exact hrow

/-- Assumes: the entry fits the list of its transaction. -/
theorem stepFinal_addEntry {transId : UInt32} {type : JournalEntryType} {blockNum : UInt64}
    {dataLen : UInt32} {data : Option (Vector UInt8 dataLen.toNat)} {now : Int}
    (hfit : EntriesFit journal (.addEntry transId type blockNum dataLen data now)) :
    StepFinal overrun journal (.addEntry transId type blockNum dataLen data now) := by
  intro i transaction hrow hdecided
  rcases journalStep_addEntry_cases hfit with hstep | ⟨found, entry, -, -, -, -, -, hstep⟩
  · rw [hstep]
    exact outcomeKept_self hrow
  · rw [hstep]
    refine outcomeKept_updateFirst rfl ?_ hrow hdecided
    intro _ _ _
    rfl

theorem stepFinal_commitTransaction (transId : UInt32) (now : Int) :
    StepFinal overrun journal (.commitTransaction transId now) := by
  intro i transaction hrow hdecided
  rcases journalStep_commitTransaction_cases transId now with
    hstep | ⟨found, hfind, hrunning, hstep⟩
  · rw [hstep]
    exact outcomeKept_self hrow
  · rw [hstep]
    refine outcomeKept_updateFirst rfl (fun other hother hotherDecided ↦ ?_) hrow hdecided
    obtain rfl : other = found := Option.some.inj (hother.symm.trans hfind)
    exact absurd hotherDecided (Transaction.not_isDecided_of_running hrunning)

/-- An abort keeps the outcomes exactly when it does not find a committed transaction. -/
theorem stepFinal_abortTransaction_iff (transId : UInt32) :
    StepFinal overrun journal (.abortTransaction transId) ↔
      RespectsOutcomes journal (.abortTransaction transId) := by
  rcases journalStep_abortTransaction_cases transId with ⟨hnone, hstep⟩ | ⟨found, hfind, hstep⟩
  · refine iff_of_true (fun i transaction hrow _ ↦ ?_) fun transaction hfind ↦ ?_
    · rw [hstep]
      exact outcomeKept_self hrow
    · rw [hnone] at hfind
      cases hfind
  · rw [StepFinal, hstep]
    constructor
    · intro hfinal other hother hcommitted
      obtain rfl : other = found := Option.some.inj (hother.symm.trans hfind)
      have hrow : ∃ i, journal.transactions[i]? = some other ∧
          (updateFirst (hasTransactionId transId) Transaction.abort journal.transactions)[i]? =
            some other.abort := getElem?_updateFirst_of_find? hfind
      obtain ⟨i, hrow, hupdated⟩ := hrow
      obtain ⟨after, hafter, hstate⟩ := hfinal i other hrow (Or.inl hcommitted)
      obtain rfl : after = other.abort := Option.some.inj (hafter.symm.trans hupdated)
      rw [hcommitted] at hstate
      cases hstate
    · intro hrespects i transaction hrow hdecided
      refine outcomeKept_updateFirst rfl (fun other hother hotherDecided ↦ ?_) hrow hdecided
      rcases hotherDecided with hcommitted | haborted
      · exact absurd hcommitted (hrespects other hother)
      · exact haborted.symm

/-- A checkpoint keeps the outcomes exactly when no aborted transaction has the id 0. -/
theorem stepFinal_checkpoint_iff :
    StepFinal overrun journal .checkpoint ↔ RespectsOutcomes journal .checkpoint := by
  -- a decided transaction that is dropped is committed, or aborted with the id 0
  constructor
  · intro hfinal transaction hmem haborted hzero
    obtain ⟨i, hrow⟩ := List.getElem?_of_mem hmem
    have hdropped : transaction.isKept = false := by
      simp [Transaction.isKept, hzero]
    have hkept := hfinal i transaction hrow (Or.inr haborted)
    simp only [rowAfter, hrow, hdropped, OutcomeKept] at hkept
    rw [haborted] at hkept
    cases hkept
  · intro hrespects i transaction hrow hdecided
    simp only [rowAfter, hrow]
    by_cases hkept : transaction.isKept = true
    · rw [if_pos hkept]
      exact ⟨transaction, getElem?_filter_countP hrow hkept, rfl⟩
    · rw [if_neg hkept]
      rcases hdecided with hcommitted | haborted
      · exact hcommitted
      · refine absurd ?_ hkept
        have hpositive := hrespects transaction (List.mem_of_getElem? hrow) haborted
        simp [Transaction.isKept, Transaction.isCheckpointed, haborted,
          UInt32.pos_iff_ne_zero.mpr hpositive]

theorem stepFinal_recover : StepFinal overrun journal .recover := by
  intro i transaction hrow hdecided
  refine ⟨transaction.recover, ?_, ?_⟩
  · simp only [journalStep, journalRecover, List.getElem?_map, hrow, Option.map_some]
  · rcases hdecided with hcommitted | haborted
    · simp only [Transaction.recover, hcommitted]
    · simp only [Transaction.recover, haborted]

variable (overrun) in
/-- Assumes: the entries fit. An operation keeps the outcomes exactly when it respects them. -/
theorem stepFinal_iff {op : JournalOp} (hfit : EntriesFit journal op) :
    StepFinal overrun journal op ↔ RespectsOutcomes journal op := by
  cases op with
  | beginTransaction now => exact iff_of_true (stepFinal_beginTransaction now) trivial
  | addEntry transId type blockNum dataLen data now =>
    exact iff_of_true (stepFinal_addEntry hfit) trivial
  | commitTransaction transId now =>
    exact iff_of_true (stepFinal_commitTransaction transId now) trivial
  | abortTransaction transId => exact stepFinal_abortTransaction_iff transId
  | checkpoint => exact stepFinal_checkpoint_iff
  | recover => exact iff_of_true stepFinal_recover trivial
  | syncToDisk => exact iff_of_true (fun _ transaction hrow _ ↦ ⟨transaction, hrow, rfl⟩) trivial
  | setMode mode =>
    refine iff_of_true (fun i transaction hrow _ ↦ ?_) trivial
    rw [journalStep_setMode]
    exact outcomeKept_self hrow

/-! ### Runs -/

variable (overrun) in
/-- The row after a run is found by going through the run operation by operation. -/
theorem outcomeKept_rowAfterRun {ops : List JournalOp} {i : ℕ} {transaction : Transaction}
    (hfinal : EveryStep (journalStep overrun) (StepFinal overrun) journal ops)
    (hrow : journal.transactions[i]? = some transaction) (hdecided : transaction.IsDecided) :
    OutcomeKept transaction (runFrom (journalStep overrun) journal ops)
      (rowAfterRun overrun journal i ops) := by
  induction ops generalizing journal i transaction with
  | nil => exact outcomeKept_self hrow
  | cons op ops ih =>
    obtain ⟨hfirst, hrest⟩ := everyStep_cons.mp hfinal
    have hstep := hfirst i transaction hrow hdecided
    rw [rowAfterRun, runFrom_cons]
    cases hafter : rowAfter journal i op with
    | none =>
      rw [hafter] at hstep
      exact hstep
    | some next =>
      rw [hafter] at hstep
      obtain ⟨after, hnext, hstate⟩ := hstep
      have hafterDecided : after.IsDecided := by
        rw [Transaction.IsDecided, hstate]
        exact hdecided
      have hkept := ih hrest hnext hafterDecided
      rw [Option.bind_some]
      cases hlast : rowAfterRun overrun (journalStep overrun journal op) next ops with
      | none =>
        rw [hlast] at hkept
        exact hstate.symm.trans hkept
      | some last =>
        rw [hlast] at hkept
        obtain ⟨final, hrowFinal, hfinalState⟩ := hkept
        exact ⟨final, hrowFinal, hfinalState.trans hstate⟩

/-- Assumes: no transaction takes more than 256 entries. Along a run every decided transaction
keeps its outcome exactly when every operation of the run respects the outcomes. -/
theorem outcomesFinal_iff (overrun : FilesystemJournal → FilesystemJournal) (mode : JournalMode)
    (ops : List JournalOp)
    (hfit : EveryStep (journalStep overrun) EntriesFit (journalInit mode) ops) :
    OutcomesFinal overrun (journalInit mode) ops ↔
      EveryStep (journalStep overrun) RespectsOutcomes (journalInit mode) ops := by
  constructor
  · intro hfinal taken op htaken
    refine (stepFinal_iff overrun (hfit taken op htaken)).mp ?_
    intro i transaction hrow hdecided
    have hkept := hfinal taken [op] i transaction htaken hrow hdecided
    rw [runFrom_append] at hkept
    simpa [rowAfterRun] using hkept
  · intro hrespects taken later i transaction hprefix hrow hdecided
    have hsteps : EveryStep (journalStep overrun) (StepFinal overrun)
        (journalInit mode) (taken ++ later) := fun earlier op hearlier ↦
      (stepFinal_iff overrun (hfit earlier op (hearlier.trans hprefix))).mpr
        (hrespects earlier op (hearlier.trans hprefix))
    rw [runFrom_append]
    exact outcomeKept_rowAfterRun overrun (everyStep_append.mp hsteps).2 hrow hdecided

/-- A run in which one transaction is committed, another aborted, and the journal checkpointed. -/
theorem outcomesFinal_commit_abort_checkpoint :
    OutcomesFinal id (journalInit .ordered)
      [.beginTransaction 0, .addEntry 1 .data 7 0 none 0, .beginTransaction 0,
        .commitTransaction 1 0, .abortTransaction 2, .checkpoint] := by
  refine (outcomesFinal_iff id .ordered _ ?_).mpr ?_
  · simp only [everyStep_cons, everyStep_nil, EntriesFit, true_and, and_true]
    intro _ _ transaction hfind _
    cases hfind
    decide
  · simp only [everyStep_cons, everyStep_nil, RespectsOutcomes, true_and, and_true]
    refine ⟨?_, by decide⟩
    intro transaction hfind
    cases hfind
    decide

/-- A transaction is committed and then aborted: the abort overwrites its outcome. -/
theorem committed_then_aborted :
    ¬ OutcomesFinal id (journalInit .ordered)
      [.beginTransaction 0, .commitTransaction 1 0, .abortTransaction 1] := by
  intro hfinal
  obtain ⟨after, hafter, hstate⟩ := hfinal [.beginTransaction 0, .commitTransaction 1 0]
    [.abortTransaction 1] 0 _ (List.prefix_refl _) rfl (Or.inl rfl)
  cases hafter
  cases hstate

end OneOS.Filesystem.Journal
