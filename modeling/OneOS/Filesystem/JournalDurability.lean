import OneOS.Filesystem.JournalOwnership
import OneOS.Foundation.Counters

/-!
# Durability marks follow commit

In a run of `fs/fs_journal.c` without `journal_sync_to_disk`, an entry whose `transaction_id` names
a transaction of the table is marked as synced exactly when that transaction is committed
(`syncedIffCommitted_alongRun`).

The marks are written through the lists of ids, so the lists carry the proof: marks agree with
commits for listed entries (`Marks` of `MarkedIffCommitted`), and as long as the counter of
transaction ids has not wrapped an entry is listed by the transaction it names (`EntriesNamed`).
-/

set_option autoImplicit false
set_option relaxedAutoImplicit false

namespace OneOS.Filesystem.Journal

open Foundation

variable {overrun : FilesystemJournal → FilesystemJournal} {journal : FilesystemJournal}

/-- An entry whose transaction id names a transaction of the table is marked exactly when that
transaction is committed. -/
def SyncedIffCommitted (journal : FilesystemJournal) : Prop :=
  ∀ entry ∈ journal.entries, ∀ transaction ∈ journal.transactions,
    entry.transactionId = transaction.transactionId →
      (entry.isSynced = true ↔ transaction.state = .committed)

/-- The operation is a begin. -/
def JournalOp.isBegin : JournalOp → Bool
  | .beginTransaction _ => true
  | _ => false

/-! ### Entries name the transaction that lists them -/

/-- The ids of transactions are distinct and below the counter, and an entry is listed by the
transaction it names. -/
structure EntriesNamed (journal : FilesystemJournal) : Prop where
  distinct : (journal.transactions.map Transaction.transactionId).Nodup
  transaction_lt : ∀ transaction ∈ journal.transactions,
    transaction.transactionId < journal.currentTransactionId
  entry_lt : ∀ entry ∈ journal.entries, entry.transactionId < journal.currentTransactionId
  listed : ∀ entry ∈ journal.entries, ∀ transaction ∈ journal.transactions,
    entry.transactionId = transaction.transactionId → entry.entryId ∈ transaction.entryIds

theorem entriesNamed_journalInit (mode : JournalMode) : EntriesNamed (journalInit mode) where
  distinct := List.nodup_nil
  transaction_lt := by simp [journalInit]
  entry_lt := by simp [journalInit]
  listed := by simp [journalInit]

/-- A begin does not wrap the counter. -/
def IdsLeft (journal : FilesystemJournal) : JournalOp → Prop
  | .beginTransaction _ => journal.currentTransactionId.toNat + 1 < 2 ^ 32
  | _ => True

/-- Operations that keep the labels keep entries named. -/
theorem EntriesNamed.of_keepsLabels {before after : FilesystemJournal}
    (hnamed : EntriesNamed before) (hkeeps : KeepsLabels before after) : EntriesNamed after where
  distinct := by
    have hsublist := hkeeps.transactions.map Prod.fst
    rw [List.map_map, List.map_map] at hsublist
    exact hnamed.distinct.sublist hsublist
  transaction_lt := by
    intro transaction htransaction
    obtain ⟨old, hold, hid, -⟩ := hkeeps.transaction htransaction
    rw [hkeeps.current, ← hid]
    exact hnamed.transaction_lt old hold
  entry_lt := by
    intro entry hentry
    obtain ⟨old, hold, -, hid⟩ := hkeeps.entry hentry
    rw [hkeeps.current, ← hid]
    exact hnamed.entry_lt old hold
  listed := by
    intro entry hentry transaction htransaction hname
    obtain ⟨oldEntry, holdEntry, hentryId, hentryName⟩ := hkeeps.entry hentry
    obtain ⟨old, hold, hid, hids⟩ := hkeeps.transaction htransaction
    have hlisted := hnamed.listed oldEntry holdEntry old hold
      (hentryName.trans (hname.trans hid.symm))
    rwa [hentryId, hids] at hlisted

/-- Assumes: the counter does not wrap. A begin keeps entries named. -/
theorem EntriesNamed.beginTransaction (hnamed : EntriesNamed journal) {now : Int}
    (hleft : IdsLeft journal (.beginTransaction now)) :
    EntriesNamed (journalStep overrun journal (.beginTransaction now)) := by
  rcases journalStep_beginTransaction_cases now with hstep | hstep
  · rwa [hstep]
  · have hlt : journal.currentTransactionId < journal.currentTransactionId + 1 := by
      rw [UInt32.lt_iff_toNat_lt, toNat_succ hleft]
      exact Nat.lt_succ_self _
    rw [hstep]
    constructor
    · rw [List.map_append, List.nodup_append]
      refine ⟨hnamed.distinct, List.nodup_singleton _, fun oldId holdId newId hnewId ↦ ?_⟩
      obtain ⟨old, hold, rfl⟩ := List.mem_map.mp holdId
      obtain rfl : newId = journal.currentTransactionId := List.mem_singleton.mp hnewId
      exact UInt32.ne_of_lt (hnamed.transaction_lt old hold)
    · intro transaction htransaction
      rcases List.mem_append.mp htransaction with hold | hnew
      · exact UInt32.lt_trans (hnamed.transaction_lt transaction hold) hlt
      · rw [List.mem_singleton.mp hnew]
        exact hlt
    · exact fun entry hentry ↦ UInt32.lt_trans (hnamed.entry_lt entry hentry) hlt
    · intro entry hentry transaction htransaction hname
      rcases List.mem_append.mp htransaction with hold | hnew
      · exact hnamed.listed entry hentry transaction hold hname
      · rw [List.mem_singleton.mp hnew] at hname
        exact absurd hname (UInt32.ne_of_lt (hnamed.entry_lt entry hentry))

/-- Assumes: the entry fits the list of its transaction. An add keeps entries named. -/
theorem EntriesNamed.addEntry (hnamed : EntriesNamed journal) {transId : UInt32}
    {type : JournalEntryType} {blockNum : UInt64} {dataLen : UInt32}
    {data : Option (Vector UInt8 dataLen.toNat)} {now : Int}
    (hfit : EntriesFit journal (.addEntry transId type blockNum dataLen data now)) :
    EntriesNamed
      (journalStep overrun journal (.addEntry transId type blockNum dataLen data now)) := by
  rcases journalStep_addEntry_cases hfit with hstep | ⟨found, entry, hfind, -, -, -, hnew, hstep⟩
  · rwa [hstep]
  · have hname : entry.transactionId = transId := by
      rw [hnew]
      rfl
    have hmatched : hasTransactionId transId found = true := List.find?_some hfind
    have hfound : found.transactionId = transId := beq_iff_eq.mp hmatched
    -- ids of transactions are distinct, so the push reaches every transaction of that id
    have hupdate : updateFirst (hasTransactionId transId) (Transaction.pushEntry entry.entryId)
        journal.transactions = journal.transactions.map fun transaction ↦
          if hasTransactionId transId transaction = true then
            transaction.pushEntry entry.entryId else transaction :=
      updateFirst_eq_map hnamed.distinct fun _ ↦ beq_iff_eq.mp
    have hsame : (updateFirst (hasTransactionId transId) (Transaction.pushEntry entry.entryId)
        journal.transactions).map Transaction.transactionId =
          journal.transactions.map Transaction.transactionId :=
      map_updateFirst fun _ _ ↦ rfl
    rw [hstep]
    constructor
    · exact hsame ▸ hnamed.distinct
    · intro transaction htransaction
      have hid : transaction.transactionId ∈ journal.transactions.map Transaction.transactionId :=
        hsame ▸ List.mem_map_of_mem htransaction
      obtain ⟨old, hold, heq⟩ := List.mem_map.mp hid
      exact heq ▸ hnamed.transaction_lt old hold
    · intro other hother
      rcases List.mem_append.mp hother with hold | hlast
      · exact hnamed.entry_lt other hold
      · rw [List.mem_singleton.mp hlast, hname, ← hfound]
        exact hnamed.transaction_lt found (List.mem_of_find?_eq_some hfind)
    · intro other hother transaction htransaction hsameName
      simp only [hupdate, List.mem_map] at htransaction
      obtain ⟨old, hold, rfl⟩ := htransaction
      by_cases hmatch : hasTransactionId transId old = true
      · rw [if_pos hmatch] at hsameName ⊢
        rcases List.mem_append.mp hother with holdEntry | hlast
        · exact List.mem_append_left _ (hnamed.listed other holdEntry old hold hsameName)
        · rw [List.mem_singleton.mp hlast]
          exact List.mem_append_right _ List.mem_cons_self
      · rw [if_neg hmatch] at hsameName ⊢
        rcases List.mem_append.mp hother with holdEntry | hlast
        · exact hnamed.listed other holdEntry old hold hsameName
        · rw [List.mem_singleton.mp hlast, hname] at hsameName
          exact absurd (beq_iff_eq.mpr hsameName.symm) hmatch

/-- Every operation keeps entries named. Assumes: entries fit and the counter does not wrap. -/
theorem entriesNamed_step {op : JournalOp} (hnamed : EntriesNamed journal)
    (hfit : EntriesFit journal op) (hleft : IdsLeft journal op) :
    EntriesNamed (journalStep overrun journal op) := by
  cases op with
  | beginTransaction now => exact hnamed.beginTransaction hleft
  | addEntry transId type blockNum dataLen data now => exact hnamed.addEntry hfit
  | _ => exact hnamed.of_keepsLabels (keepsLabels_step (by simp) (by simp))

/-! ### Marks of listed entries -/

/-- A transaction that is committed has marked entries, any other one unmarked entries, and none
is being committed. -/
def MarkedIffCommitted (state : TransactionState) (mark : Bool) : Prop :=
  (mark = true ↔ state = .committed) ∧ state ≠ .committing

/-- No entry is listed by a committing transaction, so recovery only turns running transactions
into aborted ones. -/
theorem markedIffCommitted_recover (hmarks : Marks MarkedIffCommitted journal)
    (hlisted : EntriesListed journal) :
    Marks MarkedIffCommitted (journalStep overrun journal .recover) := by
  intro transaction htransaction entry hentry hin
  obtain ⟨old, hold, rfl⟩ := List.mem_map.mp htransaction
  rw [journalStep, entries_recover hlisted.distinct] at hentry
  obtain ⟨oldEntry, holdEntry, rfl⟩ := List.mem_map.mp hentry
  have hunlisted : oldEntry.entryId ∉ recoverableIds journal.transactions := by
    intro hrecoverable
    obtain ⟨committing, hcommitting, hids⟩ := List.mem_flatMap.mp hrecoverable
    obtain ⟨hmem, hstate⟩ := List.mem_filter.mp hcommitting
    exact (hmarks committing hmem oldEntry holdEntry hids).2 (beq_iff_eq.mp hstate)
  have hsame : recoveredEntry journal.transactions oldEntry = oldEntry := if_neg hunlisted
  rw [hsame, Transaction.entryIds_recover] at hin
  rw [hsame]
  have hbefore := hmarks old hold oldEntry holdEntry hin
  cases hstate : old.state with
  | running =>
    have hafter : old.recover.state = .aborted := by
      simp only [Transaction.recover, hstate]
    rw [hstate] at hbefore
    rw [hafter]
    exact ⟨by simpa using hbefore.1, by simp⟩
  | committing => exact absurd hstate hbefore.2
  | _ =>
    have hafter : old.recover.state = old.state := by
      simp only [Transaction.recover, hstate]
    rw [hafter]
    exact hbefore

/-- Every operation but the forced sync keeps the marks. -/
theorem markedIffCommitted_step {op : JournalOp} (hmarks : Marks MarkedIffCommitted journal)
    (hlisted : EntriesListed journal) (hfit : EntriesFit journal op) (hsync : op ≠ .syncToDisk) :
    Marks MarkedIffCommitted (journalStep overrun journal op) := by
  by_cases hrecover : op = .recover
  · rw [hrecover]
    exact markedIffCommitted_recover hmarks hlisted
  · exact hmarks.step hlisted ⟨by simp, by simp⟩ ⟨by simp, by simp⟩ ⟨by simp, by simp⟩ hfit
      hrecover hsync

/-! ### Runs -/

/-- The counter grows by one at a begin and by nothing otherwise. -/
theorem toNat_currentTransactionId_step_le {op : JournalOp} (hfit : EntriesFit journal op) :
    (journalStep overrun journal op).currentTransactionId.toNat ≤
      journal.currentTransactionId.toNat + if op.isBegin then 1 else 0 := by
  cases op with
  | beginTransaction now =>
    rcases journalStep_beginTransaction_cases now with hstep | hstep
    · rw [hstep]
      exact Nat.le_add_right _ _
    · rw [hstep]
      simp only [JournalOp.isBegin, if_true, UInt32.toNat_add, UInt32.toNat_one]
      exact Nat.mod_le _ _
  | addEntry transId type blockNum dataLen data now =>
    rcases journalStep_addEntry_cases hfit with hstep | ⟨found, entry, -, -, -, -, -, hstep⟩
    · rw [hstep]
      exact Nat.le_add_right _ _
    · rw [hstep]
      exact Nat.le_add_right _ _
  | _ =>
    rw [(keepsLabels_step (by simp) (by simp)).current]
    exact Nat.le_add_right _ _

/-- Assumes: the counter and the begins of the run stay below 2^32. No begin wraps the counter. -/
theorem everyStep_idsLeft {ops : List JournalOp}
    (hfit : EveryStep (journalStep overrun) EntriesFit journal ops)
    (hbegins : journal.currentTransactionId.toNat + ops.countP JournalOp.isBegin < 2 ^ 32) :
    EveryStep (journalStep overrun) IdsLeft journal ops := by
  induction ops generalizing journal with
  | nil => exact everyStep_nil
  | cons op ops ih =>
    obtain ⟨hfirst, hrest⟩ := everyStep_cons.mp hfit
    rw [List.countP_cons] at hbegins
    have hstep : (journalStep overrun journal op).currentTransactionId.toNat ≤
        journal.currentTransactionId.toNat + if op.isBegin then 1 else 0 :=
      toNat_currentTransactionId_step_le hfirst
    refine everyStep_cons.mpr ⟨?_, ih hrest (by omega)⟩
    cases op with
    | beginTransaction now =>
      simp only [JournalOp.isBegin, if_true] at hbegins
      exact Nat.lt_of_le_of_lt (by omega) hbegins
    | _ => exact trivial

/-- Assumes: no transaction takes more than 256 entries, there are fewer than 2^32 - 1 begins, and
the journal is not synced by force. In every state of the run an entry that names a transaction of
the table is marked exactly when that transaction is committed. -/
theorem syncedIffCommitted_alongRun (overrun : FilesystemJournal → FilesystemJournal)
    (mode : JournalMode) (ops : List JournalOp)
    (hfit : EveryStep (journalStep overrun) EntriesFit (journalInit mode) ops)
    (hbegins : ops.countP JournalOp.isBegin < 2 ^ 32 - 1) (hsync : ∀ op ∈ ops, op ≠ .syncToDisk) :
    AlongRun (journalStep overrun) SyncedIffCommitted (journalInit mode) ops := by
  have hleft : EveryStep (journalStep overrun) IdsLeft (journalInit mode) ops := by
    refine everyStep_idsLeft hfit ?_
    have hone : (journalInit mode).currentTransactionId.toNat = 1 := rfl
    omega
  have hkept : AlongRun (journalStep overrun)
      (fun journal ↦ EntriesListed journal ∧ EntriesNamed journal ∧
        Marks MarkedIffCommitted journal) (journalInit mode) ops := by
    refine alongRun_invariant _
      (fun journal op ↦ EntriesFit journal op ∧ IdsLeft journal op ∧ op ≠ .syncToDisk) ?_ ?_ ?_
    · rintro journal op ⟨hlisted, hnamed, hmarks⟩ ⟨hfits, hids, hforced⟩
      exact ⟨entriesListed_step hlisted hfits, entriesNamed_step hnamed hfits hids,
        markedIffCommitted_step hmarks hlisted hfits hforced⟩
    · refine ⟨entriesListed_journalInit mode, entriesNamed_journalInit mode, ?_⟩
      simp [Marks, journalInit]
    · intro taken op htaken
      exact ⟨hfit taken op htaken, hleft taken op htaken,
        hsync op (htaken.subset (List.mem_append_right _ List.mem_cons_self))⟩
  refine hkept.imp ?_
  rintro journal ⟨-, hnamed, hmarks⟩ entry hentry transaction htransaction hname
  exact (hmarks transaction htransaction entry hentry
    (hnamed.listed entry hentry transaction htransaction hname)).1

/-- A run that commits one transaction and leaves another to recovery. -/
theorem syncedIffCommitted_commit_recover :
    AlongRun (journalStep id) SyncedIffCommitted (journalInit .ordered)
      [.beginTransaction 0, .addEntry 1 .data 7 0 none 0, .commitTransaction 1 0,
        .beginTransaction 1, .addEntry 2 .metadata 8 0 none 1, .recover, .checkpoint] := by
  refine syncedIffCommitted_alongRun id .ordered _ ?_ (by decide) (by simp)
  simp only [everyStep_cons, everyStep_nil, EntriesFit, true_and, and_true]
  refine ⟨fun _ _ transaction hfind _ ↦ ?_, fun _ _ transaction hfind _ ↦ ?_⟩
  · cases hfind
    decide
  · cases hfind
    decide

end OneOS.Filesystem.Journal
