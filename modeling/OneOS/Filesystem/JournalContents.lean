import OneOS.Filesystem.JournalDurability
import OneOS.Filesystem.JournalRecovery
import OneOS.Filesystem.StoredJournal

/-!
# What the stored journal holds

Two results about the arrays of `fs/fs_journal.c` in every state of a run. Every stored entry
verifies its checksum: the writer takes the checksum of the bytes it is given and 0 when there are
none, the verifier that of the stored bytes, and they agree because the bytes of a row that is not
yet in use are 0 and the checksum of such bytes is 0.

And `journal_checkpoint` is an exact filter. It tells the transactions to drop by two fields and the
ones to keep by their id, so this rests on what every operation keeps: ids are positive while the
counter has not wrapped, and a committed transaction is not in progress. Recovery makes a committing
transaction committed without clearing its flag, but no call that is run to its end leaves one.
-/

set_option autoImplicit false
set_option relaxedAutoImplicit false

namespace OneOS.Filesystem.Journal

open Foundation

variable {overrun : FilesystemJournal → FilesystemJournal} {journal : FilesystemJournal}

/-! ### Checksums -/

/-- The checksum of bytes that are all 0 is 0. -/
theorem journalCalculateChecksum_of_zero {bytes : List UInt8} (hzero : ∀ byte ∈ bytes, byte = 0) :
    journalCalculateChecksum bytes = 0 := by
  rw [journalCalculateChecksum]
  induction bytes with
  | nil => rfl
  | cons byte bytes ih =>
    obtain ⟨rfl, hrest⟩ := List.forall_mem_cons.mp hzero
    rw [List.foldl_cons]
    exact ih hrest

/-- The bytes that a new entry stores, read up to their number, are those that were given. -/
theorem take_ofFn_getElem? {size length : ℕ} (bytes : Vector UInt8 length) (hsize : length ≤ size) :
    ((Vector.ofFn fun i : Fin size ↦ bytes[i.val]?.getD 0).toList).take length = bytes.toList := by
  refine List.ext_getElem (by simpa using hsize) fun i hfirst hsecond ↦ ?_
  have hi : i < length := by simpa using hsecond
  simp [hi]

/-- Assumes: the data fit in an entry. A new entry verifies its checksum. -/
theorem journalVerifyChecksum_newEntry (transId : UInt32) (type : JournalEntryType)
    (blockNum : UInt64) {dataLen : UInt32} (data : Option (Vector UInt8 dataLen.toNat)) (now : Int)
    (hsize : dataLen.toNat ≤ journalEntrySize) :
    journalVerifyChecksum (journal.newEntry transId type blockNum dataLen data now) = 0 := by
  rw [journalVerifyChecksum, if_pos]
  cases data with
  | none =>
    refine journalCalculateChecksum_of_zero fun byte hbyte ↦ ?_
    have hstored : Nonempty (Fin journalEntrySize) ∧ 0 = byte := by
      simpa [FilesystemJournal.newEntry] using List.mem_of_mem_take hbyte
    exact hstored.2.symm
  | some bytes =>
    simp only [FilesystemJournal.newEntry, Option.bind_some]
    rw [take_ofFn_getElem? bytes hsize]

/-- Marking an entry leaves what the checksum is taken of. -/
theorem journalVerifyChecksum_setMark (mark : Bool) (entry : JournalEntry) :
    journalVerifyChecksum (entry.setMark mark) = journalVerifyChecksum entry := rfl

theorem journalVerifyChecksum_recover (entry : JournalEntry) :
    journalVerifyChecksum entry.recover = journalVerifyChecksum entry := by
  rw [JournalEntry.recover]
  split_ifs
  · exact journalVerifyChecksum_setMark true entry
  · rfl

/-- Every entry verifies its checksum. -/
def EntriesVerify (journal : FilesystemJournal) : Prop :=
  ∀ entry ∈ journal.entries, journalVerifyChecksum entry = 0

/-- Entries with the same checksums as others verify when these do. -/
theorem EntriesVerify.of_map_eq {after : FilesystemJournal} (hverify : EntriesVerify journal)
    (hsame : after.entries.map journalVerifyChecksum =
      journal.entries.map journalVerifyChecksum) : EntriesVerify after := by
  intro entry hentry
  have hmem := List.mem_map_of_mem (f := journalVerifyChecksum) hentry
  rw [hsame] at hmem
  obtain ⟨old, hold, hequal⟩ := List.mem_map.mp hmem
  rw [← hequal]
  exact hverify old hold

/-- Assumes: an entry that is added fits the list of its transaction. -/
theorem entriesVerify_step {op : JournalOp} (hverify : EntriesVerify journal)
    (hfit : EntriesFit journal op) : EntriesVerify (journalStep overrun journal op) := by
  cases op with
  | beginTransaction now =>
    rcases journalStep_beginTransaction_cases now with hstep | hstep
    · rwa [hstep]
    · rw [hstep]
      exact hverify
  | addEntry transId type blockNum dataLen data now =>
    rcases journalStep_addEntry_cases hfit with
      hstep | ⟨found, entry, -, -, -, hsize, hnew, hstep⟩
    · rwa [hstep]
    · rw [hstep]
      refine List.forall_mem_append.mpr ⟨hverify, ?_⟩
      rw [List.forall_mem_singleton, hnew]
      exact journalVerifyChecksum_newEntry transId type blockNum data now hsize
  | commitTransaction transId now =>
    rcases journalStep_commitTransaction_cases transId now with hstep | ⟨found, -, -, hstep⟩
    · rwa [hstep]
    · rw [hstep]
      exact hverify.of_map_eq (map_foldl_updateFirst (JournalEntry.setMark true)
        (journalVerifyChecksum_setMark true) hasEntryId found.entryIds)
  | abortTransaction transId =>
    rcases journalStep_abortTransaction_cases transId with ⟨-, hstep⟩ | ⟨found, -, hstep⟩
    · rwa [hstep]
    · rw [hstep]
      exact hverify.of_map_eq (map_foldl_updateFirst (JournalEntry.setMark false)
        (journalVerifyChecksum_setMark false) hasEntryId found.entryIds)
  | checkpoint => exact hverify
  | recover =>
    refine hverify.of_map_eq ?_
    simp only [journalStep, journalRecover, fst_foldl_recoverTransaction]
    exact map_foldl_updateFirst JournalEntry.recover journalVerifyChecksum_recover hasEntryId _
  | syncToDisk =>
    refine hverify.of_map_eq ?_
    simp only [journalStep, journalSyncToDisk, List.map_map]
    rfl
  | setMode mode =>
    rw [journalStep_setMode]
    exact hverify

/-- Assumes: no transaction takes more than 256 entries. In every state of a run every stored entry
verifies its checksum. -/
theorem journalVerifyChecksum_stored (overrun : StoredJournal → StoredJournal) (mode : JournalMode)
    (ops : List JournalOp) (hfit : StoredEntriesFit overrun (storedInit mode) ops) :
    AlongRun (storedStep overrun)
      (fun journal ↦ ∀ i < journal.entryCount, journalVerifyChecksum (journal.entries i) = 0)
      (storedInit mode) ops := by
  have hbehind := noDataBehind_storedInit mode
  have hlisted : AlongRun (journalStep id) EntriesVerify (journalInit mode) ops :=
    alongRun_invariant EntriesVerify EntriesFit (fun _ _ ↦ entriesVerify_step)
      (by simp [EntriesVerify, journalInit]) ((everyStep_view_iff hbehind hfit).mp hfit)
  refine ((alongRun_view_iff hbehind hfit).mpr hlisted).imp fun journal hverify i hi ↦ ?_
  exact hverify (journal.entries i) (mem_firstOf.mpr ⟨i, hi, rfl⟩)

/-- A run that stores an entry with data, one with a length but no data, and one of length 0. -/
theorem journalVerifyChecksum_stored_three :
    AlongRun (storedStep id)
      (fun journal ↦ ∀ i < journal.entryCount, journalVerifyChecksum (journal.entries i) = 0)
      (storedInit .data)
      [.beginTransaction 0, .addEntry 1 .data 7 2 (some #v[5, 9]) 0,
        .addEntry 1 .metadata 8 512 none 1, .addEntry 1 .data 9 0 (some #v[]) 2,
        .commitTransaction 1 3, .recover, .checkpoint] := by
  refine journalVerifyChecksum_stored id .data _ ?_
  simp only [StoredEntriesFit, everyStep_cons, everyStep_nil, EntriesFit, true_and, and_true]
  refine ⟨fun _ _ transaction hfind _ ↦ ?_, fun _ _ transaction hfind _ ↦ ?_,
    fun _ _ transaction hfind _ ↦ ?_⟩
  · cases hfind
    decide
  · cases hfind
    decide
  · cases hfind
    decide

/-! ### Checkpoints -/

/-- A transaction between calls: it has a positive id, it is not committing, and it is not in
progress when it is committed. -/
structure Transaction.Settled (transaction : Transaction) : Prop where
  id_pos : 0 < transaction.transactionId
  not_committing : transaction.state ≠ .committing
  not_inProgress : transaction.state = .committed → transaction.inProgress = false

theorem Transaction.Settled.recover {transaction : Transaction} (hsettled : transaction.Settled) :
    transaction.recover.Settled := by
  obtain ⟨hid, hcommitting, hcommitted⟩ := hsettled
  rw [Transaction.recover]
  cases hstate : transaction.state with
  | committing => exact absurd hstate hcommitting
  | running => exact ⟨hid, by simp, by simp⟩
  | _ => exact ⟨hid, hcommitting, hcommitted⟩

/-- The transactions of a journal are settled, and the counter has not wrapped. -/
structure Settled (journal : FilesystemJournal) : Prop where
  transactions : ∀ transaction ∈ journal.transactions, transaction.Settled
  current_pos : 0 < journal.currentTransactionId

/-- Assumes: the entries fit and a begin does not wrap the counter. -/
theorem currentTransactionId_pos_step {op : JournalOp} (hpos : 0 < journal.currentTransactionId)
    (hfit : EntriesFit journal op) (hids : IdsLeft journal op) :
    0 < (journalStep overrun journal op).currentTransactionId := by
  cases op with
  | beginTransaction now =>
    rcases journalStep_beginTransaction_cases now with hstep | hstep
    · rwa [hstep]
    · rw [hstep, UInt32.lt_iff_toNat_lt, toNat_succ hids]
      exact Nat.succ_pos _
  | addEntry transId type blockNum dataLen data now =>
    rcases journalStep_addEntry_cases hfit with hstep | ⟨found, entry, -, -, -, -, -, hstep⟩
    · rwa [hstep]
    · rwa [hstep]
  | _ => rwa [(keepsLabels_step (by simp) (by simp)).current]

/-- Assumes: the entries fit and a begin does not wrap the counter. -/
theorem settled_step {op : JournalOp} (hsettled : Settled journal) (hfit : EntriesFit journal op)
    (hids : IdsLeft journal op) : Settled (journalStep overrun journal op) := by
  refine ⟨?_, currentTransactionId_pos_step hsettled.current_pos hfit hids⟩
  refine forall_transactions_step hfit hsettled.transactions ?_ ?_ ?_ ?_ ?_
  · intro now _
    exact ⟨hsettled.current_pos, by simp [FilesystemJournal.newTransaction],
      by simp [FilesystemJournal.newTransaction]⟩
  · rintro transaction entryId ⟨hid, hcommitting, hcommitted⟩ _ _
    exact ⟨hid, hcommitting, hcommitted⟩
  · intro transaction now hold _
    exact ⟨hold.id_pos, by simp [Transaction.finishCommit], fun _ ↦ rfl⟩
  · intro transaction hold
    exact ⟨hold.id_pos, by simp [Transaction.abort], fun _ ↦ rfl⟩
  · intro _ transaction _ hold
    exact hold.recover

/-- A settled transaction is kept exactly when it is not committed. -/
theorem Transaction.Settled.isKept_eq {transaction : Transaction} (hsettled : transaction.Settled) :
    transaction.isKept = decide (transaction.state ≠ .committed) := by
  obtain ⟨hid, -, hcommitted⟩ := hsettled
  rw [Transaction.isKept, Transaction.isCheckpointed, decide_eq_true hid, Bool.and_true]
  by_cases hstate : transaction.state = .committed
  · simp [hstate, hcommitted hstate]
  · simp [hstate]

/-- `journal_checkpoint` leaves exactly the transactions that are not committed, unchanged and in
order, and changes no entry. -/
structure ChecksOutExactly (journal : StoredJournal) : Prop where
  transactions : firstOf (storedCheckpoint journal).transactions
      (storedCheckpoint journal).transactionCount =
    (firstOf journal.transactions journal.transactionCount).filter fun transaction ↦
      decide (transaction.state ≠ .committed)
  entries : (storedCheckpoint journal).entries = journal.entries
  entryCount : (storedCheckpoint journal).entryCount = journal.entryCount

theorem checksOutExactly_of_settled {journal : StoredJournal} (hsettled : Settled journal.view) :
    ChecksOutExactly journal := by
  refine ⟨?_, rfl, rfl⟩
  have hview : (storedCheckpoint journal).view = (journalCheckpoint journal.view).1 :=
    view_storedCheckpoint
  refine (congrArg FilesystemJournal.transactions hview).trans
    (List.filter_congr fun transaction htransaction ↦ ?_)
  exact (hsettled.transactions transaction htransaction).isKept_eq

/-- Assumes: no transaction takes more than 256 entries, and there are fewer than 2^32 - 1 begins.
From every state of a run a checkpoint is an exact filter. -/
theorem checksOutExactly_alongRun (overrun : StoredJournal → StoredJournal) (mode : JournalMode)
    (ops : List JournalOp) (hfit : StoredEntriesFit overrun (storedInit mode) ops)
    (hbegins : ops.countP JournalOp.isBegin < 2 ^ 32 - 1) :
    AlongRun (storedStep overrun) ChecksOutExactly (storedInit mode) ops := by
  have hbehind := noDataBehind_storedInit mode
  have hlistedFit : EveryStep (journalStep id) EntriesFit (journalInit mode) ops :=
    (everyStep_view_iff hbehind hfit).mp hfit
  have hleft : EveryStep (journalStep id) IdsLeft (journalInit mode) ops := by
    refine everyStep_idsLeft hlistedFit ?_
    have hone : (journalInit mode).currentTransactionId.toNat = 1 := rfl
    omega
  have hlisted : AlongRun (journalStep id) Settled (journalInit mode) ops := by
    refine alongRun_invariant Settled (fun journal op ↦ EntriesFit journal op ∧ IdsLeft journal op)
      (fun journal op hsettled hallowed ↦ settled_step hsettled hallowed.1 hallowed.2) ?_ ?_
    · exact ⟨by simp [journalInit], show (0 : UInt32) < 1 by decide⟩
    · exact everyStep_and_iff.mpr ⟨hlistedFit, hleft⟩
  refine ((alongRun_view_iff hbehind hfit).mpr hlisted).imp fun journal hsettled ↦ ?_
  exact checksOutExactly_of_settled hsettled

/-- A run with a committed, an aborted and a recovered transaction. -/
theorem checksOutExactly_recovered :
    AlongRun (storedStep id) ChecksOutExactly (storedInit .ordered)
      [.beginTransaction 0, .beginTransaction 1, .addEntry 1 .data 7 0 none 2,
        .commitTransaction 1 3, .recover, .checkpoint, .beginTransaction 4,
        .abortTransaction 3] := by
  refine checksOutExactly_alongRun id .ordered _ ?_ (by decide)
  simp only [StoredEntriesFit, everyStep_cons, everyStep_nil, EntriesFit, true_and, and_true]
  intro _ _ transaction hfind _
  cases hfind
  decide

end OneOS.Filesystem.Journal
