import OneOS.Filesystem.JournalDurability
import OneOS.Filesystem.StoredJournal

/-!
# How the journal is numbered

The lookups of commit, abort and recovery rest on three things: the entry in row `i` has the id
`i + 1`, the ids of the transactions in the table increase strictly and are below the next one, and
the list of a transaction holds the ids of exactly the entries that carry its id, in the order of
the rows (`WellNumbered`). A begin hands out a new id, which no entry carries as long as the counter
has not wrapped (`EntriesNamed`); an add extends one list; and the other operations keep ids and
lists (`KeepsLabels`), also the checkpoint that compacts the table of transactions.

`wellNumbered_alongRun` states this of the rows in use of the arrays of the journal, in every state
of a run.
-/

set_option autoImplicit false
set_option relaxedAutoImplicit false

namespace OneOS.Filesystem.Journal

open Foundation

variable {overrun : FilesystemJournal → FilesystemJournal} {journal : FilesystemJournal}

/-- The ids of the entries that carry the id of a transaction, in the order of the rows. -/
def idsOf (entries : List JournalEntry) (transId : UInt32) : List UInt32 :=
  (entries.filter fun entry ↦ entry.transactionId = transId).map JournalEntry.entryId

/-- The numbering of entries and transactions. -/
structure WellNumbered (journal : FilesystemJournal) : Prop where
  entry_id : ∀ i entry, journal.entries[i]? = some entry → entry.entryId.toNat = i + 1
  increasing : journal.transactions.Pairwise fun earlier later ↦
    earlier.transactionId < later.transactionId
  below : ∀ transaction ∈ journal.transactions,
    transaction.transactionId < journal.currentTransactionId
  listed : ∀ transaction ∈ journal.transactions,
    transaction.entryIds = idsOf journal.entries transaction.transactionId

/-! ### One operation -/

theorem idsOf_eq_labels (entries : List JournalEntry) (transId : UInt32) :
    idsOf entries transId =
      ((entries.map JournalEntry.label).filter fun label ↦ label.2 = transId).map Prod.fst := by
  rw [List.filter_map, List.map_map]
  rfl

theorem idsOf_append (entries more : List JournalEntry) (transId : UInt32) :
    idsOf (entries ++ more) transId = idsOf entries transId ++ idsOf more transId := by
  rw [idsOf, List.filter_append, List.map_append]
  rfl

theorem idsOf_singleton (entry : JournalEntry) (transId : UInt32) :
    idsOf [entry] transId = if entry.transactionId = transId then [entry.entryId] else [] := by
  rw [idsOf, List.filter_singleton]
  split_ifs <;> simp_all

/-- Operations that keep the labels keep the numbering. -/
theorem WellNumbered.of_keepsLabels {after : FilesystemJournal}
    (hnumbered : WellNumbered journal) (hkeeps : KeepsLabels journal after) :
    WellNumbered after where
  entry_id := by
    intro i entry hentry
    have hlabel := congrArg (fun labels ↦ labels[i]?) hkeeps.entries
    rw [List.getElem?_map, List.getElem?_map, hentry] at hlabel
    obtain ⟨old, hold, hequal⟩ := Option.map_eq_some_iff.mp hlabel.symm
    rw [← hnumbered.entry_id i old hold, ← (Prod.mk.inj hequal).1]
  increasing := by
    have hbefore : (journal.transactions.map Transaction.label).Pairwise
        fun earlier later ↦ earlier.1 < later.1 :=
      List.pairwise_map.mpr hnumbered.increasing
    have hafter := hbefore.sublist hkeeps.transactions
    rw [List.pairwise_map] at hafter
    exact hafter
  below := by
    intro transaction htransaction
    obtain ⟨old, hold, hid, -⟩ := hkeeps.transaction htransaction
    rw [hkeeps.current, ← hid]
    exact hnumbered.below old hold
  listed := by
    intro transaction htransaction
    obtain ⟨old, hold, hid, hids⟩ := hkeeps.transaction htransaction
    rw [idsOf_eq_labels, hkeeps.entries, ← idsOf_eq_labels, ← hid, ← hids]
    exact hnumbered.listed old hold

/-- Assumes: the counter does not wrap. A begin keeps the numbering: no entry carries the new id,
and the new list is empty. -/
theorem WellNumbered.beginTransaction (hnumbered : WellNumbered journal)
    (hnamed : EntriesNamed journal) {now : Int} (hleft : IdsLeft journal (.beginTransaction now)) :
    WellNumbered (journalStep overrun journal (.beginTransaction now)) := by
  have hafter : EntriesNamed (journalStep overrun journal (.beginTransaction now)) :=
    hnamed.beginTransaction hleft
  have hbelow := hafter.transaction_lt
  rcases journalStep_beginTransaction_cases now with hstep | hstep
  · rwa [hstep]
  · rw [hstep] at hbelow ⊢
    refine ⟨hnumbered.entry_id, ?_, hbelow, ?_⟩
    · refine List.pairwise_append.mpr ⟨hnumbered.increasing, List.pairwise_singleton _ _, ?_⟩
      intro old hold new hnew
      rw [List.mem_singleton.mp hnew]
      exact hnumbered.below old hold
    · refine List.forall_mem_append.mpr ⟨hnumbered.listed, fun new hnew ↦ ?_⟩
      rw [List.mem_singleton.mp hnew]
      have hnone : journal.entries.filter
          (fun entry ↦ entry.transactionId = journal.currentTransactionId) = [] := by
        rw [List.filter_eq_nil_iff]
        intro entry hentry hcarries
        have hless := hnamed.entry_lt entry hentry
        rw [of_decide_eq_true hcarries] at hless
        exact UInt32.lt_irrefl _ hless
      exact (congrArg (List.map JournalEntry.entryId) hnone).symm

/-- Assumes: the entry fits the list of its transaction. An add keeps the numbering: the transaction
that the entry names lists its id, behind the others, and no other one does. -/
theorem WellNumbered.addEntry (hnumbered : WellNumbered journal) (hnamed : EntriesNamed journal)
    {transId : UInt32} {type : JournalEntryType} {blockNum : UInt64} {dataLen : UInt32}
    {data : Option (Vector UInt8 dataLen.toNat)} {now : Int}
    (hfit : EntriesFit journal (.addEntry transId type blockNum dataLen data now)) :
    WellNumbered
      (journalStep overrun journal (.addEntry transId type blockNum dataLen data now)) := by
  rcases journalStep_addEntry_cases hfit with
    hstep | ⟨found, entry, hfind, -, hroom, -, hnew, hstep⟩
  · rwa [hstep]
  · have hname : entry.transactionId = found.transactionId := by
      have htest : hasTransactionId transId found = true := List.find?_some hfind
      rw [beq_iff_eq.mp htest, hnew]
      rfl
    have hids : (updateFirst (hasTransactionId transId) (Transaction.pushEntry entry.entryId)
        journal.transactions).map Transaction.transactionId =
          journal.transactions.map Transaction.transactionId :=
      map_updateFirst fun _ _ ↦ rfl
    rw [hstep]
    refine ⟨?_, ?_, ?_, ?_⟩
    · intro i row hrow
      rcases getElem?_concat_cases hrow with ⟨-, hold⟩ | ⟨rfl, rfl⟩
      · exact hnumbered.entry_id i row hold
      · rw [hnew]
        exact toNat_entryId_newEntry hroom transId type blockNum dataLen data now
    · have hincreasing : (journal.transactions.map Transaction.transactionId).Pairwise (· < ·) :=
        List.pairwise_map.mpr hnumbered.increasing
      rw [← hids] at hincreasing
      exact List.pairwise_map.mp hincreasing
    · intro transaction htransaction
      rcases mem_updateFirst htransaction with hold | ⟨old, hold, rfl⟩
      · exact hnumbered.below transaction hold
      · exact hnumbered.below old (List.mem_of_find?_eq_some hold)
    · refine forall_mem_updateFirst_of_keys hnamed.distinct hfind hnumbered.listed ?_ ?_
      · intro hlisted
        rw [idsOf_append, idsOf_singleton, if_pos]
        · exact congrArg (· ++ [entry.entryId]) hlisted
        · exact hname
      · intro other hother hlisted
        rw [idsOf_append, idsOf_singleton, if_neg, List.append_nil]
        · exact hlisted
        · rw [hname]
          exact hother.symm

/-- Assumes: an entry that is added fits, and a begin does not wrap the counter. Every operation
keeps the numbering. -/
theorem WellNumbered.step (hnumbered : WellNumbered journal) (hnamed : EntriesNamed journal)
    {op : JournalOp} (hfit : EntriesFit journal op) (hleft : IdsLeft journal op) :
    WellNumbered (journalStep overrun journal op) := by
  cases op with
  | beginTransaction now => exact hnumbered.beginTransaction hnamed hleft
  | addEntry transId type blockNum dataLen data now => exact hnumbered.addEntry hnamed hfit
  | _ => exact hnumbered.of_keepsLabels (keepsLabels_step (by simp) (by simp))

/-! ### Every run -/

theorem wellNumbered_journalInit (mode : JournalMode) : WellNumbered (journalInit mode) where
  entry_id := by simp [journalInit]
  increasing := List.Pairwise.nil
  below := by simp [journalInit]
  listed := by simp [journalInit]

/-- Assumes: no transaction takes more than 256 entries, and there are fewer than 2^32 - 1 begins.
In every state of a run on the arrays of a new journal, the rows in use are well numbered. -/
theorem wellNumbered_alongRun (overrun : StoredJournal → StoredJournal) (mode : JournalMode)
    (ops : List JournalOp) (hfit : StoredEntriesFit overrun (storedInit mode) ops)
    (hbegins : ops.countP JournalOp.isBegin < 2 ^ 32 - 1) :
    AlongRun (storedStep overrun) (fun journal ↦ WellNumbered journal.view) (storedInit mode)
      ops := by
  have hbehind := noDataBehind_storedInit mode
  have hfits : EveryStep (journalStep id) EntriesFit (journalInit mode) ops :=
    (everyStep_view_iff hbehind hfit).mp hfit
  have hleft : EveryStep (journalStep id) IdsLeft (journalInit mode) ops := by
    refine everyStep_idsLeft hfits ?_
    have hone : (journalInit mode).currentTransactionId.toNat = 1 := rfl
    omega
  have hlists : AlongRun (journalStep id)
      (fun journal ↦ WellNumbered journal ∧ EntriesNamed journal) (journalInit mode) ops := by
    refine alongRun_invariant _ (fun journal op ↦ EntriesFit journal op ∧ IdsLeft journal op) ?_
      ⟨wellNumbered_journalInit mode, entriesNamed_journalInit mode⟩
      (everyStep_and_iff.mpr ⟨hfits, hleft⟩)
    rintro journal op ⟨hnumbered, hnamed⟩ ⟨hfit, hids⟩
    exact ⟨hnumbered.step hnamed hfit hids, entriesNamed_step hnamed hfit hids⟩
  exact (alongRun_view_iff hbehind hfit).mpr (hlists.imp fun journal hboth ↦ hboth.1)

/-- Entries are added to two transactions by turns, one of them is committed and dropped, and the
other one takes another entry. -/
theorem wellNumbered_by_turns :
    AlongRun (storedStep id) (fun journal ↦ WellNumbered journal.view) (storedInit .ordered)
      [.beginTransaction 0, .beginTransaction 1, .addEntry 1 .data 7 0 none 2,
        .addEntry 2 .data 8 0 none 3, .addEntry 1 .data 9 0 none 4, .commitTransaction 1 5,
        .checkpoint, .addEntry 2 .data 9 0 none 6] := by
  refine wellNumbered_alongRun id .ordered _ ?_ (by decide)
  simp only [StoredEntriesFit, everyStep_cons, everyStep_nil, EntriesFit, true_and, and_true]
  refine ⟨fun _ _ transaction hfind _ ↦ ?_, fun _ _ transaction hfind _ ↦ ?_,
    fun _ _ transaction hfind _ ↦ ?_, fun _ _ transaction hfind _ ↦ ?_⟩
  all_goals
    cases hfind
    decide

end OneOS.Filesystem.Journal
