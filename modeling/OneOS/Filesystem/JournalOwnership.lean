import Mathlib.Data.List.Flatten
import Mathlib.Data.List.Pairwise
import OneOS.Filesystem.Journal

/-!
# Which transaction an entry belongs to

Commit, abort and recovery of `fs/fs_journal.c` reach an entry through the list of ids of a
transaction and a search of the shared table. `EntriesListed` is what makes this exact: entries have
distinct ids, the lists name existing entries, and no id is listed twice, in one list or in two. It
holds in every state of a run, also after ids of transactions have wrapped (`entriesListed_step`).

Two things follow. The loops over a list act on exactly the listed entries (`setSynced_eq_map`,
`entries_recover`). And a statement that relates the state of a transaction to the marks of its
entries, `Marks related`, is kept by begin, add, commit, abort and checkpoint as soon as it holds of
a new entry, of a commit and of an abort (`Marks.step`); durability and recovery are two instances.
-/

set_option autoImplicit false
set_option relaxedAutoImplicit false

namespace OneOS.Filesystem.Journal

open Foundation

variable {overrun : FilesystemJournal → FilesystemJournal} {journal : FilesystemJournal}

/-! ### The loops over listed entries -/

/-- Assumes: distinct entry ids. The loop of commit and abort marks exactly the listed entries. -/
theorem setSynced_eq_map {entries : List JournalEntry}
    (hdistinct : (entries.map JournalEntry.entryId).Nodup) (mark : Bool) (entryIds : List UInt32) :
    setSynced mark entryIds entries = entries.map fun entry ↦
      if entry.entryId ∈ entryIds then entry.setMark mark else entry :=
  foldl_updateFirst_eq_map (JournalEntry.setMark mark) hdistinct (fun _ ↦ rfl) (fun _ ↦ rfl)
    entryIds

/-- The ids that `journal_recover` goes through: those listed by committing transactions. -/
def recoverableIds (transactions : List Transaction) : List UInt32 :=
  (transactions.filter fun transaction ↦ transaction.state == .committing).flatMap
    Transaction.entryIds

theorem JournalEntry.recover_label (entry : JournalEntry) :
    entry.recover.entryId = entry.entryId ∧ entry.recover.transactionId = entry.transactionId := by
  unfold JournalEntry.recover
  split_ifs
  · exact ⟨rfl, rfl⟩
  · exact ⟨rfl, rfl⟩

/-- Recovering an entry twice makes no difference: the mark is not part of the checksum. -/
theorem JournalEntry.recover_recover (entry : JournalEntry) :
    entry.recover.recover = entry.recover := by
  by_cases hverify : journalVerifyChecksum entry = 0
  · have hmarked : entry.recover = entry.setMark true := if_pos hverify
    have hagain : journalVerifyChecksum (entry.setMark true) = 0 := hverify
    rw [hmarked, JournalEntry.recover, if_pos hagain]
    rfl
  · have hkept : entry.recover = entry := if_neg hverify
    rw [hkept, hkept]

/-- The entries after the inner loop of `journal_recover`, without the count. -/
theorem fst_foldl_recoverEntry (recovering : List JournalEntry × UInt32) (entryIds : List UInt32) :
    (entryIds.foldl recoverEntry recovering).1 =
      entryIds.foldl (fun entries entryId ↦
        updateFirst (hasEntryId entryId) JournalEntry.recover entries) recovering.1 := by
  induction entryIds generalizing recovering with
  | nil => rfl
  | cons entryId entryIds ih =>
    rw [List.foldl_cons, List.foldl_cons, ih, recoverEntry]
    cases hfind : journalGetEntry recovering.1 entryId with
    | none => rw [updateFirst_of_find?_eq_none hfind]
    | some entry => rfl

/-- The entries after `journal_recover` are those after one loop over the recoverable ids. -/
theorem fst_foldl_recoverTransaction (recovering : List JournalEntry × UInt32)
    (transactions : List Transaction) :
    (transactions.foldl recoverTransaction recovering).1 =
      (recoverableIds transactions).foldl (fun entries entryId ↦
        updateFirst (hasEntryId entryId) JournalEntry.recover entries) recovering.1 := by
  induction transactions generalizing recovering with
  | nil => rfl
  | cons transaction transactions ih =>
    rw [List.foldl_cons, ih]
    cases hstate : transaction.state with
    | committing =>
      simp only [recoverTransaction, hstate, fst_foldl_recoverEntry]
      simp [recoverableIds, hstate, List.foldl_append]
    | _ => simp [recoverTransaction, recoverableIds, hstate]

/-- What recovery makes of an entry: those that a committing transaction lists are marked when
their checksum verifies. -/
def recoveredEntry (transactions : List Transaction) (entry : JournalEntry) : JournalEntry :=
  if entry.entryId ∈ recoverableIds transactions then entry.recover else entry

@[simp] theorem entryId_recoveredEntry (transactions : List Transaction) (entry : JournalEntry) :
    (recoveredEntry transactions entry).entryId = entry.entryId := by
  unfold recoveredEntry
  split_ifs
  · exact entry.recover_label.1
  · rfl

/-- Assumes: distinct entry ids. Recovery acts on exactly the entries that a committing transaction
lists. -/
theorem entries_recover (hdistinct : (journal.entries.map JournalEntry.entryId).Nodup) :
    (journalRecover journal).1.entries =
      journal.entries.map (recoveredEntry journal.transactions) := by
  simp only [journalRecover, fst_foldl_recoverTransaction]
  exact foldl_updateFirst_eq_map JournalEntry.recover hdistinct (fun entry ↦ entry.recover_label.1)
    JournalEntry.recover_recover _

/-! ### Operations that keep ids and lists -/

/-- The two ids of an entry. -/
def JournalEntry.label (entry : JournalEntry) : UInt32 × UInt32 :=
  (entry.entryId, entry.transactionId)

/-- The id of a transaction and the ids of its entries. -/
def Transaction.label (transaction : Transaction) : UInt32 × List UInt32 :=
  (transaction.transactionId, transaction.entryIds)

/-- The entries keep their ids, the transactions that are left keep theirs and their lists, and no
id is handed out. -/
structure KeepsLabels (before after : FilesystemJournal) : Prop where
  entries : after.entries.map JournalEntry.label = before.entries.map JournalEntry.label
  transactions : (after.transactions.map Transaction.label).Sublist
    (before.transactions.map Transaction.label)
  current : after.currentTransactionId = before.currentTransactionId

theorem KeepsLabels.refl (journal : FilesystemJournal) : KeepsLabels journal journal :=
  ⟨rfl, List.Sublist.refl _, rfl⟩

/-- The label of an entry is kept by the loop of commit and abort. -/
theorem map_label_setSynced (mark : Bool) (entryIds : List UInt32) (entries : List JournalEntry) :
    (setSynced mark entryIds entries).map JournalEntry.label = entries.map JournalEntry.label :=
  map_foldl_updateFirst (JournalEntry.setMark mark) (fun _ ↦ rfl) hasEntryId entryIds

/-- Marking entries and writing to a transaction without touching its label keeps the labels. -/
theorem keepsLabels_setSynced {test : Transaction → Bool} (change : Transaction → Transaction)
    (hchange : ∀ transaction, (change transaction).label = transaction.label) (mark : Bool)
    (entryIds : List UInt32) :
    KeepsLabels journal { journal with
      entries := setSynced mark entryIds journal.entries
      transactions := updateFirst test change journal.transactions } where
  entries := map_label_setSynced mark entryIds journal.entries
  transactions := by rw [map_updateFirst fun transaction _ ↦ hchange transaction]
  current := rfl

theorem Transaction.label_recover (transaction : Transaction) :
    transaction.recover.label = transaction.label := by
  rw [Transaction.recover]
  split <;> rfl

@[simp] theorem Transaction.entryIds_recover (transaction : Transaction) :
    transaction.recover.entryIds = transaction.entryIds :=
  (Prod.mk.inj transaction.label_recover).2

/-- Every operation but begin and add keeps the labels. -/
theorem keepsLabels_step {op : JournalOp} (hbegin : ∀ now, op ≠ .beginTransaction now)
    (hadd : ∀ transId type blockNum dataLen data now,
      op ≠ .addEntry transId type blockNum dataLen data now) :
    KeepsLabels journal (journalStep overrun journal op) := by
  cases op with
  | beginTransaction now => exact absurd rfl (hbegin now)
  | addEntry transId type blockNum dataLen data now => exact absurd rfl (hadd _ _ _ _ _ _)
  | commitTransaction transId now =>
    rcases journalStep_commitTransaction_cases transId now with hstep | ⟨found, -, -, hstep⟩
    · rw [hstep]
      exact KeepsLabels.refl journal
    · rw [hstep]
      exact keepsLabels_setSynced _ (by intro; rfl) true _
  | abortTransaction transId =>
    rcases journalStep_abortTransaction_cases transId with ⟨-, hstep⟩ | ⟨found, -, hstep⟩
    · rw [hstep]
      exact KeepsLabels.refl journal
    · rw [hstep]
      exact keepsLabels_setSynced _ (by intro; rfl) false _
  | checkpoint => exact ⟨rfl, List.filter_sublist.map Transaction.label, rfl⟩
  | recover =>
    refine ⟨?_, ?_, rfl⟩
    · simp only [journalStep, journalRecover, fst_foldl_recoverTransaction]
      exact map_foldl_updateFirst JournalEntry.recover
        (fun entry ↦ Prod.ext entry.recover_label.1 entry.recover_label.2) hasEntryId _
    · have hlabel : Transaction.label ∘ Transaction.recover = Transaction.label :=
        funext Transaction.label_recover
      simp only [journalStep, journalRecover, List.map_map, hlabel]
      exact List.Sublist.refl _
  | syncToDisk =>
    refine ⟨?_, List.Sublist.refl _, rfl⟩
    simp only [journalStep, journalSyncToDisk, List.map_map]
    rfl
  | setMode mode =>
    rw [journalStep_setMode]
    exact ⟨rfl, List.Sublist.refl _, rfl⟩

/-! ### Every id is listed once -/

/-- Entry ids are distinct and at most the number of entries, the lists of the transactions name
such ids, and no id is listed twice. -/
structure EntriesListed (journal : FilesystemJournal) : Prop where
  length_le : journal.entries.length ≤ maxJournalEntries
  distinct : (journal.entries.map JournalEntry.entryId).Nodup
  entry_le : ∀ entry ∈ journal.entries, entry.entryId.toNat ≤ journal.entries.length
  listed_le : ∀ transaction ∈ journal.transactions, ∀ entryId ∈ transaction.entryIds,
    entryId.toNat ≤ journal.entries.length
  exclusive : (journal.transactions.flatMap Transaction.entryIds).Nodup

theorem entriesListed_journalInit (mode : JournalMode) : EntriesListed (journalInit mode) where
  length_le := Nat.zero_le _
  distinct := List.nodup_nil
  entry_le := by simp [journalInit]
  listed_le := by simp [journalInit]
  exclusive := List.nodup_nil

/-- Every entry after operations that keep the labels has the label of an entry before them. -/
theorem KeepsLabels.entry {before after : FilesystemJournal} (hkeeps : KeepsLabels before after)
    {entry : JournalEntry} (hentry : entry ∈ after.entries) :
    ∃ old ∈ before.entries, old.entryId = entry.entryId ∧
      old.transactionId = entry.transactionId := by
  have hlabel : entry.label ∈ before.entries.map JournalEntry.label :=
    hkeeps.entries ▸ List.mem_map_of_mem hentry
  obtain ⟨old, hold, heq⟩ := List.mem_map.mp hlabel
  exact ⟨old, hold, (Prod.mk.inj heq).1, (Prod.mk.inj heq).2⟩

/-- Every transaction after operations that keep the labels has the label of a transaction before
them. -/
theorem KeepsLabels.transaction {before after : FilesystemJournal}
    (hkeeps : KeepsLabels before after) {transaction : Transaction}
    (htransaction : transaction ∈ after.transactions) :
    ∃ old ∈ before.transactions, old.transactionId = transaction.transactionId ∧
      old.entryIds = transaction.entryIds := by
  have hlabel : transaction.label ∈ before.transactions.map Transaction.label :=
    hkeeps.transactions.subset (List.mem_map_of_mem htransaction)
  obtain ⟨old, hold, heq⟩ := List.mem_map.mp hlabel
  exact ⟨old, hold, (Prod.mk.inj heq).1, (Prod.mk.inj heq).2⟩

theorem KeepsLabels.length_entries {before after : FilesystemJournal}
    (hkeeps : KeepsLabels before after) : after.entries.length = before.entries.length := by
  simpa using congrArg List.length hkeeps.entries

/-- Operations that keep the labels keep every id listed once. -/
theorem EntriesListed.of_keepsLabels {before after : FilesystemJournal}
    (hlisted : EntriesListed before) (hkeeps : KeepsLabels before after) :
    EntriesListed after where
  length_le := by
    rw [hkeeps.length_entries]
    exact hlisted.length_le
  distinct := by
    have hids : after.entries.map JournalEntry.entryId =
        before.entries.map JournalEntry.entryId := by
      have hfst := congrArg (List.map Prod.fst) hkeeps.entries
      rwa [List.map_map, List.map_map] at hfst
    rw [hids]
    exact hlisted.distinct
  entry_le := by
    intro entry hentry
    obtain ⟨old, hold, hid, -⟩ := hkeeps.entry hentry
    rw [hkeeps.length_entries, ← hid]
    exact hlisted.entry_le old hold
  listed_le := by
    intro transaction htransaction entryId hentryId
    obtain ⟨old, hold, -, hids⟩ := hkeeps.transaction htransaction
    rw [hkeeps.length_entries]
    exact hlisted.listed_le old hold entryId (hids ▸ hentryId)
  exclusive := by
    have hsublist := hkeeps.transactions.map Prod.snd
    rw [List.map_map, List.map_map] at hsublist
    exact hlisted.exclusive.sublist (List.Sublist.flatten hsublist)

/-- The id of a new entry is the number of entries after it is added. -/
theorem toNat_entryId_newEntry (hroom : journal.entries.length < maxJournalEntries)
    (transId : UInt32) (type : JournalEntryType) (blockNum : UInt64) (dataLen : UInt32)
    (data : Option (Vector UInt8 dataLen.toNat)) (now : Int) :
    (journal.newEntry transId type blockNum dataLen data now).entryId.toNat =
      journal.entries.length + 1 := by
  have hbound : journal.entries.length < 4096 := hroom
  simp only [FilesystemJournal.newEntry, UInt32.toNat_add, UInt32.toNat_ofNat', UInt32.toNat_one]
  omega

/-- Pushing an id on the list of the first transaction found adds it to the listed ids. -/
theorem flatMap_pushEntry_perm {test : Transaction → Bool} {transactions : List Transaction}
    {found : Transaction} (hfind : transactions.find? test = some found) (entryId : UInt32) :
    ((updateFirst test (Transaction.pushEntry entryId) transactions).flatMap
      Transaction.entryIds).Perm (entryId :: transactions.flatMap Transaction.entryIds) := by
  obtain ⟨before, after, rfl, -, -, hupdate⟩ := updateFirst_split hfind
  rw [hupdate]
  simp only [List.flatMap_append, List.flatMap_cons, Transaction.pushEntry, List.append_assoc]
  rw [← List.append_assoc, ← List.append_assoc _ found.entryIds]
  exact List.perm_middle

/-- A begin keeps every id listed once: the new list is empty. -/
theorem EntriesListed.beginTransaction (hlisted : EntriesListed journal) (now : Int) :
    EntriesListed (journalStep overrun journal (.beginTransaction now)) := by
  rcases journalStep_beginTransaction_cases now with hstep | hstep
  · rwa [hstep]
  · rw [hstep]
    refine ⟨hlisted.length_le, hlisted.distinct, hlisted.entry_le, ?_, ?_⟩
    · intro transaction htransaction entryId hentryId
      rcases List.mem_append.mp htransaction with hold | hnew
      · exact hlisted.listed_le transaction hold entryId hentryId
      · rw [List.mem_singleton.mp hnew] at hentryId
        cases hentryId
    · simpa [FilesystemJournal.newTransaction] using hlisted.exclusive

/-- Assumes: the entry fits the list of its transaction. An add keeps every id listed once: the new
id is above all others. -/
theorem EntriesListed.addEntry (hlisted : EntriesListed journal) {transId : UInt32}
    {type : JournalEntryType} {blockNum : UInt64} {dataLen : UInt32}
    {data : Option (Vector UInt8 dataLen.toNat)} {now : Int}
    (hfit : EntriesFit journal (.addEntry transId type blockNum dataLen data now)) :
    EntriesListed
      (journalStep overrun journal (.addEntry transId type blockNum dataLen data now)) := by
  rcases journalStep_addEntry_cases hfit with
    hstep | ⟨found, entry, hfind, -, hroom, -, hnew, hstep⟩
  · rwa [hstep]
  · have hid : entry.entryId.toNat = journal.entries.length + 1 := by
      rw [hnew]
      exact toNat_entryId_newEntry hroom transId type blockNum dataLen data now
    rw [hstep]
    constructor
    · rw [List.length_append, List.length_singleton]
      exact hroom
    · rw [List.map_append, List.nodup_append]
      refine ⟨hlisted.distinct, List.nodup_singleton _, fun oldId holdId newId hnewId ↦ ?_⟩
      obtain ⟨old, hold, rfl⟩ := List.mem_map.mp holdId
      obtain rfl : newId = entry.entryId := List.mem_singleton.mp hnewId
      have hle := hlisted.entry_le old hold
      intro heq
      rw [heq] at hle
      omega
    · intro other hother
      rw [List.length_append, List.length_singleton]
      rcases List.mem_append.mp hother with hold | hlast
      · exact Nat.le_succ_of_le (hlisted.entry_le other hold)
      · rw [List.mem_singleton.mp hlast, hid]
    · intro transaction htransaction entryId hentryId
      rw [List.length_append, List.length_singleton]
      rcases mem_updateFirst htransaction with hold | ⟨old, hfound, rfl⟩
      · exact Nat.le_succ_of_le (hlisted.listed_le transaction hold entryId hentryId)
      · rcases List.mem_append.mp hentryId with hold | hlast
        · exact Nat.le_succ_of_le
            (hlisted.listed_le old (List.mem_of_find?_eq_some hfound) entryId hold)
        · rw [List.mem_singleton.mp hlast, hid]
    · rw [(flatMap_pushEntry_perm hfind entry.entryId).nodup_iff, List.nodup_cons]
      refine ⟨fun hmem ↦ ?_, hlisted.exclusive⟩
      obtain ⟨transaction, htransaction, hentryId⟩ := List.mem_flatMap.mp hmem
      have hle := hlisted.listed_le transaction htransaction entry.entryId hentryId
      omega

/-- Every operation keeps every id listed once. Assumes: the entries fit. -/
theorem entriesListed_step {op : JournalOp} (hlisted : EntriesListed journal)
    (hfit : EntriesFit journal op) : EntriesListed (journalStep overrun journal op) := by
  cases op with
  | beginTransaction now => exact hlisted.beginTransaction now
  | addEntry transId type blockNum dataLen data now => exact hlisted.addEntry hfit
  | _ => exact hlisted.of_keepsLabels (keepsLabels_step (by simp) (by simp))

/-- No id is listed by two transactions. -/
theorem EntriesListed.unique (hlisted : EntriesListed journal) {first second : Transaction}
    (hfirst : first ∈ journal.transactions) (hsecond : second ∈ journal.transactions)
    {entryId : UInt32} (hin : entryId ∈ first.entryIds) (hin' : entryId ∈ second.entryIds) :
    first = second := by
  by_contra hne
  have hsymm : Std.Symm (Function.onFun List.Disjoint Transaction.entryIds) :=
    ⟨fun _ _ ↦ List.disjoint_symm⟩
  have hpairwise := (List.nodup_flatMap.mp hlisted.exclusive).2
  have hdisjoint : List.Disjoint first.entryIds second.entryIds :=
    hpairwise.forall hfirst hsecond hne
  exact hdisjoint hin hin'

/-- When the first transaction found is changed, the others list none of its ids. -/
theorem EntriesListed.mem_updateFirst_cases (hlisted : EntriesListed journal)
    {test : Transaction → Bool} {change : Transaction → Transaction}
    {found transaction : Transaction} (hfind : journal.transactions.find? test = some found)
    (htransaction : transaction ∈ updateFirst test change journal.transactions) :
    transaction = change found ∨ (transaction ∈ journal.transactions ∧
      ∀ entryId ∈ transaction.entryIds, entryId ∉ found.entryIds) := by
  obtain ⟨before, after, hsplit, -, -, hupdate⟩ := updateFirst_split hfind
  have hexclusive := hlisted.exclusive
  rw [hsplit, List.flatMap_append, List.flatMap_cons] at hexclusive
  rw [hupdate, List.mem_append, List.mem_cons] at htransaction
  obtain ⟨-, hback, hfront⟩ := List.nodup_append.mp hexclusive
  rcases htransaction with hbefore | rfl | hafter
  · refine Or.inr ⟨by simp [hsplit, hbefore], fun entryId hentryId hshared ↦ ?_⟩
    exact hfront entryId (List.mem_flatMap.mpr ⟨transaction, hbefore, hentryId⟩) entryId
      (List.mem_append_left _ hshared) rfl
  · exact Or.inl rfl
  · refine Or.inr ⟨by simp [hsplit, hafter], fun entryId hentryId hshared ↦ ?_⟩
    exact (List.nodup_append.mp hback).2.2 entryId hshared entryId
      (List.mem_flatMap.mpr ⟨transaction, hafter, hentryId⟩) rfl

/-! ### The marks of the entries of a transaction -/

/-- The state of every transaction is related to the mark of each of its entries. -/
def Marks (related : TransactionState → Bool → Prop) (journal : FilesystemJournal) : Prop :=
  ∀ transaction ∈ journal.transactions, ∀ entry ∈ journal.entries,
    entry.entryId ∈ transaction.entryIds → related transaction.state entry.isSynced

variable {related : TransactionState → Bool → Prop}

/-- Marking entries of the first transaction found and changing its state. Assumes: the new state
is related to the marks its entries have then. -/
theorem Marks.setSynced (hmarks : Marks related journal) (hlisted : EntriesListed journal)
    {test : Transaction → Bool} {change : Transaction → Transaction} {found : Transaction}
    (hfind : journal.transactions.find? test = some found)
    (hids : (change found).entryIds = found.entryIds) {mark : Bool} {entryIds : List UInt32}
    (hsubset : ∀ entryId ∈ entryIds, entryId ∈ found.entryIds)
    (hnew : ∀ entry ∈ journal.entries, entry.entryId ∈ found.entryIds →
      related (change found).state (if entry.entryId ∈ entryIds then mark else entry.isSynced)) :
    Marks related { journal with
      entries := Journal.setSynced mark entryIds journal.entries
      transactions := updateFirst test change journal.transactions } := by
  intro transaction htransaction entry hentry hin
  simp only [setSynced_eq_map hlisted.distinct, List.mem_map] at hentry
  obtain ⟨old, hold, rfl⟩ := hentry
  have hid : (if old.entryId ∈ entryIds then old.setMark mark else old).entryId = old.entryId := by
    split_ifs <;> rfl
  have hmark : (if old.entryId ∈ entryIds then old.setMark mark else old).isSynced =
      if old.entryId ∈ entryIds then mark else old.isSynced := by
    split_ifs <;> rfl
  rw [hid] at hin
  rw [hmark]
  rcases hlisted.mem_updateFirst_cases hfind htransaction with rfl | ⟨hother, hdisjoint⟩
  · exact hnew old hold (hids ▸ hin)
  · rw [if_neg fun hlist ↦ hdisjoint old.entryId hin (hsubset old.entryId hlist)]
    exact hmarks transaction hother old hold hin

/-- Assumes: a running transaction may have an unmarked entry. Adding an entry keeps the marks. -/
theorem Marks.addEntry (hmarks : Marks related journal) (hlisted : EntriesListed journal)
    (hrunning : related .running false) {transId : UInt32} {type : JournalEntryType}
    {blockNum : UInt64} {dataLen : UInt32} {data : Option (Vector UInt8 dataLen.toNat)} {now : Int}
    (hfit : EntriesFit journal (.addEntry transId type blockNum dataLen data now)) :
    Marks related
      (journalStep overrun journal (.addEntry transId type blockNum dataLen data now)) := by
  rcases journalStep_addEntry_cases hfit with
    hstep | ⟨found, entry, hfind, hstate, hroom, -, hnew, hstep⟩
  · rwa [hstep]
  · have hid : entry.entryId.toNat = journal.entries.length + 1 := by
      rw [hnew]
      exact toNat_entryId_newEntry hroom transId type blockNum dataLen data now
    have hunmarked : entry.isSynced = false := by
      rw [hnew]
      rfl
    rw [hstep]
    intro transaction htransaction other hother hin
    have hfound := List.mem_of_find?_eq_some hfind
    rcases List.mem_append.mp hother with hold | hlast
    · -- the id of an older entry is in a list only if it was there before
      rcases hlisted.mem_updateFirst_cases hfind htransaction with rfl | ⟨hkept, -⟩
      · rcases List.mem_append.mp hin with hin | hpushed
        · exact hmarks found hfound other hold hin
        · have hle := hlisted.entry_le other hold
          rw [List.mem_singleton.mp hpushed] at hle
          omega
      · exact hmarks transaction hkept other hold hin
    · obtain rfl := List.mem_singleton.mp hlast
      rcases hlisted.mem_updateFirst_cases hfind htransaction with rfl | ⟨hkept, -⟩
      · rw [hunmarked]
        exact hstate ▸ hrunning
      · have hle := hlisted.listed_le transaction hkept other.entryId hin
        omega

/-- Assumes: the relation holds of a running transaction and an unmarked entry, of a committed one
and a marked entry, and of an aborted one and an unmarked entry. Every operation but recovery and
the forced sync keeps the marks. -/
theorem Marks.step (hmarks : Marks related journal) (hlisted : EntriesListed journal)
    (hrunning : related .running false) (hcommitted : related .committed true)
    (haborted : related .aborted false) {op : JournalOp} (hfit : EntriesFit journal op)
    (hrecover : op ≠ .recover) (hsync : op ≠ .syncToDisk) :
    Marks related (journalStep overrun journal op) := by
  cases op with
  | beginTransaction now =>
    rcases journalStep_beginTransaction_cases now with hstep | hstep
    · rwa [hstep]
    · rw [hstep]
      intro transaction htransaction entry hentry hin
      rcases List.mem_append.mp htransaction with hold | hnew
      · exact hmarks transaction hold entry hentry hin
      · rw [List.mem_singleton.mp hnew] at hin
        cases hin
  | addEntry transId type blockNum dataLen data now =>
    exact hmarks.addEntry hlisted hrunning hfit
  | commitTransaction transId now =>
    rcases journalStep_commitTransaction_cases transId now with hstep | ⟨found, hfind, -, hstep⟩
    · rwa [hstep]
    · rw [hstep]
      refine hmarks.setSynced hlisted hfind rfl (fun _ hin ↦ hin) fun entry _ hin ↦ ?_
      rw [if_pos hin]
      exact hcommitted
  | abortTransaction transId =>
    rcases journalStep_abortTransaction_cases transId with ⟨-, hstep⟩ | ⟨found, hfind, hstep⟩
    · rwa [hstep]
    · rw [hstep]
      refine hmarks.setSynced hlisted hfind rfl (fun _ hin ↦ hin) fun entry _ hin ↦ ?_
      rw [if_pos hin]
      exact haborted
  | checkpoint =>
    intro transaction htransaction entry hentry hin
    exact hmarks transaction (List.mem_of_mem_filter htransaction) entry hentry hin
  | recover => exact absurd rfl hrecover
  | syncToDisk => exact absurd rfl hsync
  | setMode mode =>
    rw [journalStep_setMode]
    exact hmarks

end OneOS.Filesystem.Journal
