import OneOS.Foundation.Ring
import OneOS.Foundation.Table
import OneOS.Logging.SystemLogger

/-!
# The newest entries

The log should hold the newest `MAX_LOG_ENTRIES` of the entries that were logged since it was made
or cleared, and reading it from the oldest one on, around the end of the array, should yield them in
the order in which they were logged (`KeepsNewest`).

`logger_log` writes to the slot `entry_count % MAX_LOG_ENTRIES`, and the count stays when the log is
full, so that every entry that follows is written to slot 0. The index of the oldest entry goes on
all the same.

`keepsNewest_iff`: the log is right as long as no more than one entry more was logged than it has
slots. Of the runs that log more, some go wrong for every number of entries, and all do up to the
number from which on ids are used again.
-/

set_option autoImplicit false
set_option relaxedAutoImplicit false

namespace OneOS.Logging

open Foundation

/-! ### What was logged -/

/-- The entry that a call writes, if it writes one. -/
def SystemLogger.accepted (logger : SystemLogger) : LoggerCall → Option LogEntry
  | .log level pid tid (some moduleName) (some message) now =>
    if level.value < logger.filterLevel.value then none
    else some (logger.newEntry level pid tid moduleName message now)
  | _ => none

/-- What was logged since the log was made or cleared, after one more call. -/
def loggedAfter (logger : SystemLogger) (call : LoggerCall) (logged : List LogEntry) :
    List LogEntry :=
  if call = .clearEntries then [] else logged ++ (logger.accepted call).toList

/-- The logger after a run, and what was logged since it was made or last cleared. -/
def loggedRun (calls : List LoggerCall) : SystemLogger × List LogEntry :=
  runFrom (withTrace loggerStep loggedAfter) (loggerInit, []) calls

/-- The entries that the log holds, by their indices. -/
def SystemLogger.held (logger : SystemLogger) : List LogEntry :=
  (List.range logger.entryCount).filterMap (loggerGetEntry logger)

/-- What is claimed of the log. It holds exactly the newest of the entries that were logged, and
they are in order from the oldest one on. -/
structure KeepsNewest (traced : SystemLogger × List LogEntry) : Prop where
  held : traced.1.held.Perm (traced.2.drop (traced.2.length - maxLogEntries))
  ordered : ringOf traced.1.entries maxLogEntries traced.1.oldestEntryIndex traced.1.entryCount =
    traced.2.drop (traced.2.length - maxLogEntries)

/-! ### What the log holds -/

variable {logger : SystemLogger} {logged : List LogEntry} {entry : LogEntry}

/-- How the log is: the count stops at the number of slots and the index of the oldest entry does
not; slot 0 holds the first entry, or the last one once there are more than slots, and every other
slot holds the entry with its number. -/
structure Buffered (logger : SystemLogger) (logged : List LogEntry) : Prop where
  count : logger.entryCount = min logged.length maxLogEntries
  oldest : logger.oldestEntryIndex = (logged.length - maxLogEntries) % maxLogEntries
  first : ∀ entry, logged[if maxLogEntries < logged.length then logged.length - 1 else 0]? =
    some entry → logger.entries 0 = entry
  behind : ∀ i, 0 < i → i < maxLogEntries → ∀ entry, logged[i]? = some entry →
    logger.entries i = entry

/-- The entries that are held are those of the slots in use. -/
theorem held_eq : logger.held = (List.range logger.entryCount).map logger.entries := by
  rw [SystemLogger.held, ← List.filterMap_eq_map]
  refine List.filterMap_congr fun i hi ↦ ?_
  rw [loggerGetEntry, if_neg (Nat.not_le.mpr (List.mem_range.mp hi))]
  rfl

/-- Writing an entry keeps the log as it is. -/
theorem Buffered.write (hbuffered : Buffered logger logged) (entry : LogEntry) :
    Buffered (logger.write entry) (logged ++ [entry]) := by
  have hcount := hbuffered.count
  have hslots : 0 < maxLogEntries := by decide
  -- the slot that is written
  have hindex : logger.entryCount % maxLogEntries =
      if logged.length < maxLogEntries then logged.length else 0 := by
    rw [hcount]
    split_ifs with hroom
    · rw [Nat.min_eq_left (Nat.le_of_lt hroom), Nat.mod_eq_of_lt hroom]
    · rw [Nat.min_eq_right (Nat.not_lt.mp hroom), Nat.mod_self]
  refine ⟨?_, ?_, fun written hwritten ↦ ?_, fun i hpos hlt written hwritten ↦ ?_⟩
  · rw [SystemLogger.write, List.length_append, List.length_singleton]
    dsimp only
    split_ifs <;> omega
  · rw [SystemLogger.write, List.length_append, List.length_singleton]
    dsimp only
    rw [hbuffered.oldest]
    split_ifs with hfull
    · have hmany : maxLogEntries ≤ logged.length := by omega
      rw [Nat.mod_add_mod, Nat.sub_add_comm hmany]
    · have hfew : logged.length < maxLogEntries := by omega
      rw [Nat.sub_eq_zero_of_le (Nat.le_of_lt hfew), Nat.sub_eq_zero_of_le hfew]
  · rw [SystemLogger.write]
    dsimp only
    rw [hindex]
    rw [List.length_append, List.length_singleton, Nat.add_sub_cancel] at hwritten
    by_cases hroom : logged.length < maxLogEntries
    · rw [if_neg (by omega)] at hwritten
      rw [if_pos hroom]
      rcases getElem?_concat_cases hwritten with ⟨hsome, hold⟩ | ⟨hnone, rfl⟩
      · rw [Function.update_of_ne (Nat.ne_of_lt hsome)]
        refine hbuffered.first written ?_
        rwa [if_neg (by omega)]
      · rw [← hnone, Function.update_self]
    · rw [if_pos (by omega), List.getElem?_concat_length] at hwritten
      rw [if_neg hroom, Function.update_self]
      exact Option.some.inj hwritten
  · rw [SystemLogger.write]
    dsimp only
    rw [hindex]
    rcases getElem?_concat_cases hwritten with ⟨hbound, hold⟩ | ⟨hnew, rfl⟩
    · rw [Function.update_of_ne (by split_ifs <;> omega)]
      exact hbuffered.behind i hpos hlt written hold
    · rw [if_pos (hnew ▸ hlt), ← hnew, Function.update_self]

/-- A log that is cleared holds nothing. -/
theorem buffered_clear (logger : SystemLogger) : Buffered (loggerClearEntries logger).1 [] :=
  ⟨rfl, rfl, fun _ hnone ↦ absurd hnone.symm (Option.some_ne_none _),
    fun _ _ _ _ hnone ↦ absurd hnone.symm (Option.some_ne_none _)⟩

/-- A call that does not clear the log and writes no entry adds nothing to what was logged. -/
theorem loggedAfter_of_none {call : LoggerCall} (hcall : call ≠ .clearEntries)
    (hnone : logger.accepted call = none) : loggedAfter logger call logged = logged := by
  rw [loggedAfter, if_neg hcall, hnone, Option.toList_none, List.append_nil]

/-- What a call does: it clears the log, it writes an entry with the next id, or it leaves the log
and may set the filter level. -/
theorem loggerStep_cases (logger : SystemLogger) (call : LoggerCall) (logged : List LogEntry) :
    (loggerStep logger call = (loggerClearEntries logger).1 ∧
        loggedAfter logger call logged = []) ∨
      (∃ entry, entry.logId = (logger.totalLogs + 1).toUInt32 ∧
        loggerStep logger call = logger.write entry ∧
          loggedAfter logger call logged = logged ++ [entry]) ∨
      ∃ level, loggerStep logger call = { logger with filterLevel := level } ∧
        loggedAfter logger call logged = logged := by
  cases call with
  | clearEntries => exact Or.inl ⟨rfl, if_pos rfl⟩
  | setFilterLevel level =>
    exact Or.inr (Or.inr ⟨level, rfl, loggedAfter_of_none LoggerCall.noConfusion rfl⟩)
  | log level pid tid moduleName message now =>
    have hquiet : logger.accepted (.log level pid tid moduleName message now) = none →
        loggedAfter logger (.log level pid tid moduleName message now) logged = logged :=
      loggedAfter_of_none LoggerCall.noConfusion
    cases moduleName with
    | none => exact Or.inr (Or.inr ⟨logger.filterLevel, rfl, hquiet rfl⟩)
    | some moduleName =>
      cases message with
      | none => exact Or.inr (Or.inr ⟨logger.filterLevel, rfl, hquiet rfl⟩)
      | some message =>
        rw [loggerStep, loggerLog]
        by_cases hbelow : level.value < logger.filterLevel.value
        · rw [if_pos hbelow]
          exact Or.inr (Or.inr ⟨logger.filterLevel, rfl, hquiet (if_pos hbelow)⟩)
        · refine Or.inr (Or.inl ⟨logger.newEntry level pid tid moduleName message now, rfl, ?_, ?_⟩)
          · rw [if_neg hbelow]
          · rw [loggedAfter, if_neg LoggerCall.noConfusion, SystemLogger.accepted, if_neg hbelow,
              Option.toList_some]

/-- Every call keeps the log as it is. -/
theorem Buffered.step (hbuffered : Buffered logger logged) (call : LoggerCall) :
    Buffered (loggerStep logger call) (loggedAfter logger call logged) := by
  rcases loggerStep_cases logger call logged with ⟨hstep, hlogged⟩ | ⟨entry, -, hstep, hlogged⟩ |
    ⟨level, hstep, hlogged⟩
  · rw [hstep, hlogged]
    exact buffered_clear logger
  · rw [hstep, hlogged]
    exact hbuffered.write entry
  · rw [hstep, hlogged]
    exact ⟨hbuffered.count, hbuffered.oldest, hbuffered.first, hbuffered.behind⟩

/-- The log is like that after every run. -/
theorem buffered_loggedRun (calls : List LoggerCall) :
    Buffered (loggedRun calls).1 (loggedRun calls).2 := by
  have hstart : Buffered loggerInit [] := buffered_clear loggerInit
  exact runFrom_invariant (fun traced : SystemLogger × List LogEntry ↦ Buffered traced.1 traced.2)
    (fun _ _ ↦ True) (fun _ call hbefore _ ↦ hbefore.step call) hstart fun _ _ _ ↦ trivial

/-! ### Up to one entry more than slots -/

/-- Read from the oldest entry on, the log yields the entries that it holds. -/
theorem Buffered.held_perm (hbuffered : Buffered logger logged) :
    (ringOf logger.entries maxLogEntries logger.oldestEntryIndex logger.entryCount).Perm
      logger.held := by
  rw [held_eq]
  rcases Nat.lt_or_ge logged.length maxLogEntries with hfew | hmany
  · have hcount : logger.entryCount = logged.length := by
      rw [hbuffered.count, Nat.min_eq_left (Nat.le_of_lt hfew)]
    have holdest : logger.oldestEntryIndex = 0 := by
      rw [hbuffered.oldest, Nat.sub_eq_zero_of_le (Nat.le_of_lt hfew), Nat.zero_mod]
    refine List.Perm.of_eq (List.map_congr_left fun i hi ↦ ?_)
    have hlt : i < logged.length := hcount ▸ List.mem_range.mp hi
    rw [holdest, Nat.zero_add, Nat.mod_eq_of_lt (Nat.lt_trans hlt hfew)]
  · rw [hbuffered.count, Nat.min_eq_right hmany]
    exact ringOf_full_perm _ _ _

/-- Assumes: no more than one entry more was logged than there are slots. Each of the newest entries
is in the slot that its number has around the end of the array. -/
theorem Buffered.slot_eq (hbuffered : Buffered logger logged)
    (hfew : logged.length ≤ maxLogEntries + 1) {i : ℕ}
    (hnewest : logged.length - maxLogEntries ≤ i) (hat : logged[i]? = some entry) :
    logger.entries (i % maxLogEntries) = entry := by
  have hlt := (List.getElem?_eq_some_iff.mp hat).1
  rcases Nat.lt_or_ge i maxLogEntries with hslot | hlast
  · rw [Nat.mod_eq_of_lt hslot]
    by_cases hzero : i = 0
    · subst hzero
      refine hbuffered.first entry ?_
      rwa [if_neg (by omega)]
    · exact hbuffered.behind i (Nat.pos_of_ne_zero hzero) hslot entry hat
  · -- the entry that was logged last, in slot 0
    have hindex : i = maxLogEntries := by omega
    subst hindex
    rw [Nat.mod_self]
    refine hbuffered.first entry ?_
    have hend : logged.length - 1 = maxLogEntries := by omega
    rwa [if_pos hlt, hend]

/-- The log is right as long as no more than one entry more was logged than it has slots. -/
theorem Buffered.keepsNewest (hbuffered : Buffered logger logged)
    (hfew : logged.length ≤ maxLogEntries + 1) : KeepsNewest (logger, logged) := by
  have hlength : (logged.drop (logged.length - maxLogEntries)).length = logger.entryCount := by
    rw [List.length_drop, hbuffered.count]
    omega
  have hordered :
      ringOf logger.entries maxLogEntries logger.oldestEntryIndex logger.entryCount =
        logged.drop (logged.length - maxLogEntries) := by
    refine List.ext_getElem (length_ringOf.trans hlength.symm) fun i _ hi ↦ ?_
    have hat := List.getElem?_eq_getElem hi
    rw [List.getElem?_drop] at hat
    have hslot := hbuffered.slot_eq hfew (Nat.le_add_right _ i) hat
    rw [← hslot, ← Nat.mod_add_mod, ← hbuffered.oldest]
    simp [ringOf]
  exact ⟨hbuffered.held_perm.symm.trans (List.Perm.of_eq hordered), hordered⟩

/-! ### More entries -/

/-- Assumes: the last entry but one was logged only once, and at least two entries more were logged
than there are slots. The log does not hold it. -/
theorem Buffered.not_keepsNewest (hbuffered : Buffered logger logged)
    (hmany : maxLogEntries + 2 ≤ logged.length) (hentry : logged[logged.length - 2]? = some entry)
    (honce : ∀ i, logged[i]? = some entry → i = logged.length - 2) :
    ¬ KeepsNewest (logger, logged) := by
  intro hkeeps
  have hslots : 2 ≤ maxLogEntries := by decide
  have hnewest : entry ∈ logged.drop (logged.length - maxLogEntries) := by
    have hindex : logged.length - maxLogEntries + (maxLogEntries - 2) = logged.length - 2 := by
      omega
    refine List.mem_iff_getElem?.mpr ⟨maxLogEntries - 2, ?_⟩
    rw [List.getElem?_drop, hindex]
    exact hentry
  have hheld := hkeeps.held.mem_iff.mpr hnewest
  rw [held_eq, hbuffered.count] at hheld
  obtain ⟨i, hi, hslot⟩ := List.mem_map.mp hheld
  have hlt : i < maxLogEntries := by
    have hbound := List.mem_range.mp hi
    omega
  by_cases hzero : i = 0
  · obtain ⟨last, hlast⟩ : ∃ last, logged[logged.length - 1]? = some last :=
      ⟨_, List.getElem?_eq_getElem (show logged.length - 1 < logged.length by omega)⟩
    have hfirst : logger.entries 0 = last := by
      refine hbuffered.first last ?_
      rwa [if_pos (by omega)]
    rw [hzero, hfirst] at hslot
    have hplace := honce (logged.length - 1) (hslot ▸ hlast)
    omega
  · have hat := List.getElem?_eq_getElem (show i < logged.length by omega)
    have hbehind := hbuffered.behind i (Nat.pos_of_ne_zero hzero) hlt _ hat
    have hplace := honce i (hat.trans (congrArg some (hbehind.symm.trans hslot)))
    omega

/-! ### Ids -/

/-- The ids of the entries that were logged count up to the total. -/
def Numbered (logger : SystemLogger) (logged : List LogEntry) : Prop :=
  ∀ i entry, logged[i]? = some entry →
    entry.logId + UInt32.ofNat (logged.length - 1 - i) = logger.totalLogs.toUInt32

/-- Writing an entry keeps the ids counting. -/
theorem Numbered.write (hnumbered : Numbered logger logged)
    (hid : entry.logId = (logger.totalLogs + 1).toUInt32) :
    Numbered (logger.write entry) (logged ++ [entry]) := by
  intro i written hwritten
  show written.logId + _ = (logger.totalLogs + 1).toUInt32
  rw [List.length_append, List.length_singleton, Nat.add_sub_cancel]
  rcases getElem?_concat_cases hwritten with ⟨hbound, hold⟩ | ⟨rfl, rfl⟩
  · have hcounted := hnumbered i written hold
    have hnext : logged.length - i = logged.length - 1 - i + 1 := by omega
    rw [hnext, UInt32.ofNat_add, ← UInt32.add_assoc, hcounted, UInt64.toUInt32_add]
    rfl
  · rw [Nat.sub_self, hid]
    exact UInt32.add_zero _

/-- Every call keeps the ids counting. -/
theorem Numbered.step (hnumbered : Numbered logger logged) (call : LoggerCall) :
    Numbered (loggerStep logger call) (loggedAfter logger call logged) := by
  rcases loggerStep_cases logger call logged with ⟨-, hlogged⟩ | ⟨entry, hid, hstep, hlogged⟩ |
    ⟨level, hstep, hlogged⟩
  · rw [hlogged]
    exact fun _ _ hnone ↦ absurd hnone.symm (Option.some_ne_none _)
  · rw [hstep, hlogged]
    exact hnumbered.write hid
  · rw [hstep, hlogged]
    exact hnumbered

/-- The ids count after every run. -/
theorem numbered_loggedRun (calls : List LoggerCall) :
    Numbered (loggedRun calls).1 (loggedRun calls).2 :=
  runFrom_invariant (fun traced : SystemLogger × List LogEntry ↦ Numbered traced.1 traced.2)
    (fun _ _ ↦ True) (fun _ call hbefore _ ↦ hbefore.step call)
    (fun _ _ hnone ↦ absurd hnone.symm (Option.some_ne_none _)) fun _ _ _ ↦ trivial

/-- Assumes: not more entries were logged than there are ids. Each was logged only once. -/
theorem Numbered.once (hnumbered : Numbered logger logged) (hfew : logged.length ≤ 2 ^ 32)
    {i j : ℕ} (hfirst : logged[i]? = some entry) (hsecond : logged[j]? = some entry) : i = j := by
  have hsame := (hnumbered i entry hfirst).trans (hnumbered j entry hsecond).symm
  have hback := congrArg UInt32.toNat ((UInt32.add_right_inj _).mp hsame)
  have hi := (List.getElem?_eq_some_iff.mp hfirst).1
  have hj := (List.getElem?_eq_some_iff.mp hsecond).1
  rw [UInt32.toNat_ofNat_of_lt' (show _ < 2 ^ 32 by omega),
    UInt32.toNat_ofNat_of_lt' (show _ < 2 ^ 32 by omega)] at hback
  omega

/-! ### Runs -/

/-- Calls that log an empty message for each of some processes. -/
def logCalls (pids : List UInt32) : List LoggerCall :=
  pids.map fun pid ↦ .log .debug pid 0 (some []) (some []) 0

/-- What such calls log are entries for these processes. -/
theorem sourcePid_loggedRun_logCalls (pids : List UInt32) :
    (loggedRun (logCalls pids)).2.map LogEntry.sourcePid = pids ∧
      (loggedRun (logCalls pids)).1.filterLevel = .debug := by
  induction pids using List.reverseRecOn with
  | nil => exact ⟨rfl, rfl⟩
  | append_singleton pids pid ih =>
    obtain ⟨hpids, hfilter⟩ := ih
    rw [logCalls, List.map_append, List.map_singleton, ← logCalls, loggedRun, runFrom_append,
      ← loggedRun]
    set traced := loggedRun (logCalls pids) with htraced
    have hnot : ¬ LogLevel.debug.value < traced.1.filterLevel.value := by
      rw [hfilter]
      exact Nat.lt_irrefl _
    rw [runFrom_cons, runFrom_nil, withTrace, loggedAfter, if_neg LoggerCall.noConfusion,
      SystemLogger.accepted, if_neg hnot, loggerStep, loggerLog, if_neg hnot]
    refine ⟨?_, hfilter⟩
    rw [Option.toList_some, List.map_append, hpids]
    rfl

/-- Assumes: more calls than slots. The log does not hold the last entry but one, which is for
another process than all others. -/
theorem not_keepsNewest_logCalls (count : ℕ) (hmany : maxLogEntries ≤ count) :
    (loggedRun (logCalls (List.replicate count 0 ++ [1, 0]))).2.length = count + 2 ∧
      ¬ KeepsNewest (loggedRun (logCalls (List.replicate count 0 ++ [1, 0]))) := by
  set traced := loggedRun (logCalls (List.replicate count 0 ++ [1, 0])) with htraced
  have hpids : traced.2.map LogEntry.sourcePid = List.replicate count 0 ++ [1, 0] :=
    (sourcePid_loggedRun_logCalls _).1
  have hlength : traced.2.length = count + 2 := by
    rw [← List.length_map (f := LogEntry.sourcePid), hpids, List.length_append,
      List.length_replicate]
    rfl
  obtain ⟨entry, hentry⟩ : ∃ entry, traced.2[count]? = some entry :=
    ⟨_, List.getElem?_eq_getElem (show count < traced.2.length by omega)⟩
  -- the processes of the entries, by their numbers
  have hpid (i : ℕ) (written : LogEntry) (hwritten : traced.2[i]? = some written) :
      (List.replicate count 0 ++ [1, 0])[i]? = some written.sourcePid := by
    rw [← hpids, List.getElem?_map, hwritten, Option.map_some]
  have hmarked : entry.sourcePid = 1 := by
    have hat := hpid count entry hentry
    rw [List.getElem?_append_right (List.length_replicate.le), List.length_replicate,
      Nat.sub_self] at hat
    exact (Option.some.inj hat).symm
  have hbuffered : Buffered traced.1 traced.2 := buffered_loggedRun _
  have hplace : traced.2.length - 2 = count := by omega
  refine ⟨hlength, hbuffered.not_keepsNewest (by omega) (hplace.symm ▸ hentry) fun i hi ↦ ?_⟩
  have hat := hpid i entry hi
  rw [hmarked] at hat
  rcases Nat.lt_trichotomy i count with hlt | heq | hgt
  · rw [List.getElem?_append_left (hlt.trans_eq List.length_replicate.symm),
      List.getElem?_replicate_of_lt hlt] at hat
    exact absurd (Option.some.inj hat) (by decide)
  · exact heq.trans hplace.symm
  · have hbound := (List.getElem?_eq_some_iff.mp hi).1
    have hlast : i = count + 1 := by omega
    rw [hlast, List.getElem?_append_right (by simp), List.length_replicate,
      Nat.add_sub_cancel_left] at hat
    exact absurd (Option.some.inj hat) (by decide)

/-- The log keeps the newest entries after every run that has logged `n` entries since it was made
or last cleared exactly when `n` is at most one more than the number of slots; up to the number of
ids, that is so for each of these runs. -/
theorem keepsNewest_iff (n : ℕ) :
    ((∀ calls, (loggedRun calls).2.length = n → KeepsNewest (loggedRun calls)) ↔
        n ≤ maxLogEntries + 1) ∧
      (n ≤ 2 ^ 32 → ∀ calls, (loggedRun calls).2.length = n →
        (KeepsNewest (loggedRun calls) ↔ n ≤ maxLogEntries + 1)) := by
  have hslots : 2 ≤ maxLogEntries := by decide
  have hfits : n ≤ maxLogEntries + 1 →
      ∀ calls, (loggedRun calls).2.length = n → KeepsNewest (loggedRun calls) := by
    intro hfew calls hlength
    exact (buffered_loggedRun calls).keepsNewest (hlength.trans_le hfew)
  refine ⟨⟨fun hkeeps ↦ ?_, hfits⟩, fun hids calls hlength ↦ ⟨fun hkeeps ↦ ?_, fun hfew ↦ ?_⟩⟩
  · by_contra hmany
    obtain ⟨hlength, hnot⟩ := not_keepsNewest_logCalls (n - 2) (by omega)
    refine hnot (hkeeps _ (hlength.trans ?_))
    omega
  · by_contra hmany
    obtain ⟨entry, hentry⟩ : ∃ entry,
        (loggedRun calls).2[(loggedRun calls).2.length - 2]? = some entry :=
      ⟨_, List.getElem?_eq_getElem (show _ < (loggedRun calls).2.length by omega)⟩
    refine (buffered_loggedRun calls).not_keepsNewest (by omega) hentry (fun i hi ↦ ?_) hkeeps
    exact (numbered_loggedRun calls).once (hlength.trans_le hids) hi hentry
  · exact hfits hfew calls hlength

/-- 10002 messages are logged, all for process 0 but the last one but one. -/
theorem not_keepsNewest_two_more :
    ¬ KeepsNewest (loggedRun (logCalls (List.replicate 10000 0 ++ [1, 0]))) :=
  (not_keepsNewest_logCalls maxLogEntries (Nat.le_refl _)).2

end OneOS.Logging
