import Mathlib.Data.List.Find
import OneOS.Foundation.Runs
import OneOS.Foundation.StoredTables

/-!
# The ARP table

`net/network_stack.c`: an array of 256 entries, of which the first `arp_count` are in use. An entry
has its address for ten minutes, `net_arp_purge_expired` takes a second off every entry and removes,
in place, those that had nothing left, and `net_arp_add_entry` gives an entry that there already is
a new address and ten minutes again. A table that is full refuses both.

What was last added for an address, and how many purges there were since, is recorded beside the run
(`trackAdds`). An entry is there as long as that were at most 600, and what it has left is what they
left (`Tracked`); `arpCorrect_alongRun` says so of every run. Left out are the checks of pointers.
-/

set_option autoImplicit false
set_option relaxedAutoImplicit false

namespace OneOS.Networking

open Foundation

/-! ### The table -/

/-- `MAX_ARP_ENTRIES`. -/
def maxArpEntries : ℕ := 256

/-- An address of six bytes. -/
abbrev MacAddress := Vector UInt8 6

/-- `ARPEntry`. -/
structure ArpEntry where
  ipAddress : UInt32
  macAddress : MacAddress
  ttlMs : UInt32
  isValid : Bool
  deriving DecidableEq, Repr

/-- An entry whose bytes are 0. -/
def ArpEntry.zero : ArpEntry where
  ipAddress := 0
  macAddress := Vector.replicate 6 0
  ttlMs := 0
  isValid := false

/-- The entries of `NetworkStack`: the rows of the array and the number of those in use. -/
structure ArpTable where
  arpTable : ℕ → ArpEntry
  arpCount : ℕ

/-- `net_stack_init`. -/
def arpTableInit : ArpTable where
  arpTable := fun _ ↦ ArpEntry.zero
  arpCount := 0

/-- The entries in use. -/
def ArpTable.entries (table : ArpTable) : List ArpEntry :=
  firstOf table.arpTable table.arpCount

/-- The entry that `net_arp_add_entry` writes. -/
def newArpEntry (ip : UInt32) (macAddr : MacAddress) : ArpEntry where
  ipAddress := ip
  macAddress := macAddr
  ttlMs := 600000
  isValid := true

/-- What `net_arp_add_entry` does to an entry that there already is. -/
def ArpEntry.refresh (macAddr : MacAddress) (entry : ArpEntry) : ArpEntry :=
  { entry with macAddress := macAddr, ttlMs := 600000 }

/-- `net_arp_add_entry`. -/
def netArpAddEntry (table : ArpTable) (ip : UInt32) (macAddr : MacAddress) : ArpTable × Int :=
  if maxArpEntries ≤ table.arpCount then (table, -1)
  else
    match firstSlot (fun entry ↦ entry.ipAddress = ip) table.arpCount table.arpTable with
    | some row =>
      ({ table with
        arpTable := Function.update table.arpTable row
          ((table.arpTable row).refresh macAddr) }, 0)
    | none =>
      ({ arpTable := Function.update table.arpTable table.arpCount (newArpEntry ip macAddr)
         arpCount := table.arpCount + 1 }, 0)

/-- `net_arp_resolve`: the address that is copied out, or none for -1. -/
def netArpResolve (table : ArpTable) (ip : UInt32) : Option MacAddress :=
  (firstSlot (fun entry ↦ entry.ipAddress = ip && entry.isValid) table.arpCount
    table.arpTable).map fun row ↦ (table.arpTable row).macAddress

/-- The test of the loop of `net_arp_purge_expired`. -/
def ArpEntry.hasTime (entry : ArpEntry) : Bool := 0 < entry.ttlMs

/-- What `net_arp_purge_expired` does to an entry that it keeps. -/
def ArpEntry.age (entry : ArpEntry) : ArpEntry := { entry with ttlMs := entry.ttlMs - 1000 }

/-- `net_arp_purge_expired`. -/
def netArpPurgeExpired (table : ArpTable) : ArpTable × Int :=
  let moved := compactWith ArpEntry.hasTime ArpEntry.age table.arpCount table.arpTable
  ({ arpTable := moved.1, arpCount := moved.2 }, 0)

/-- A call on the table. -/
inductive ArpCall
  | addEntry (ip : UInt32) (macAddr : MacAddress)
  | resolve (ip : UInt32)
  | purgeExpired
  deriving DecidableEq, Repr

/-- The table after a call. -/
def arpStep (table : ArpTable) : ArpCall → ArpTable
  | .addEntry ip macAddr => (netArpAddEntry table ip macAddr).1
  | .resolve _ => table
  | .purgeExpired => (netArpPurgeExpired table).1

/-! ### What is asked -/

/-- What was last added for an address, and how many purges there were since. -/
structure LastAdd where
  macAddr : MacAddress
  purges : ℕ
  deriving DecidableEq, Repr

/-- One more purge. -/
def LastAdd.purge (last : LastAdd) : LastAdd := { last with purges := last.purges + 1 }

/-- The record of the last successful adds after a call. -/
def trackAdds (table : ArpTable) (call : ArpCall) (adds : UInt32 → Option LastAdd) :
    UInt32 → Option LastAdd :=
  match call with
  | .addEntry ip macAddr =>
    if (netArpAddEntry table ip macAddr).2 = 0 then
      Function.update adds ip (some { macAddr := macAddr, purges := 0 })
    else adds
  | .resolve _ => adds
  | .purgeExpired => fun ip ↦ (adds ip).map LastAdd.purge

/-- What is claimed of a table, given the last successful adds. Addresses are distinct, what entries
have left is a whole number of seconds up to 600, and an address is resolved to what was last added
for it when there were fewer than 601 purges since, and not at all otherwise. -/
structure ArpCorrect (table : ArpTable) (adds : UInt32 → Option LastAdd) : Prop where
  distinct : (table.entries.map ArpEntry.ipAddress).Nodup
  seconds : ∀ entry ∈ table.entries, 1000 ∣ entry.ttlMs.toNat ∧ entry.ttlMs.toNat ≤ 600000
  resolved : ∀ ip last, adds ip = some last → last.purges < 601 →
    netArpResolve table ip = some last.macAddr
  unresolved : ∀ ip, (∀ last, adds ip = some last → 601 ≤ last.purges) →
    netArpResolve table ip = none

/-! ### What the calls do to the entries -/

variable {table : ArpTable} {adds : UInt32 → Option LastAdd} {ip : UInt32} {macAddr : MacAddress}

/-- An add is refused, or it refreshes the entry of the address, or there is none and the add
appends one. -/
theorem netArpAddEntry_cases (table : ArpTable) (ip : UInt32) (macAddr : MacAddress) :
    (netArpAddEntry table ip macAddr = (table, -1)) ∨
    ((netArpAddEntry table ip macAddr).2 = 0 ∧
      (netArpAddEntry table ip macAddr).1.entries =
        updateFirst (fun entry ↦ entry.ipAddress = ip) (ArpEntry.refresh macAddr) table.entries ∧
      ∃ entry, table.entries.find? (fun entry ↦ entry.ipAddress = ip) = some entry) ∨
    ((netArpAddEntry table ip macAddr).2 = 0 ∧
      (netArpAddEntry table ip macAddr).1.entries = table.entries ++ [newArpEntry ip macAddr] ∧
      table.entries.find? (fun entry ↦ entry.ipAddress = ip) = none) := by
  rw [netArpAddEntry]
  split_ifs with hfull
  · exact Or.inl rfl
  · cases hrow : firstSlot (fun entry ↦ entry.ipAddress = ip) table.arpCount table.arpTable with
    | some row =>
      refine Or.inr (Or.inl ⟨rfl, ?_, table.arpTable row, ?_⟩)
      · have hupdate : updateSlot (fun entry ↦ entry.ipAddress = ip) (ArpEntry.refresh macAddr)
            table.arpCount table.arpTable = Function.update table.arpTable row
              ((table.arpTable row).refresh macAddr) := by
          rw [updateSlot, hrow]
        rw [ArpTable.entries, ArpTable.entries, ← firstOf_updateSlot, hupdate]
      · rw [ArpTable.entries, find?_firstOf, hrow, Option.map_some]
    | none =>
      refine Or.inr (Or.inr ⟨rfl, firstOf_update_succ _, ?_⟩)
      rw [ArpTable.entries, find?_firstOf, hrow, Option.map_none]

theorem entries_netArpPurgeExpired (table : ArpTable) :
    (netArpPurgeExpired table).1.entries =
      (table.entries.filter ArpEntry.hasTime).map ArpEntry.age :=
  firstOf_compactWith

/-- An address is resolved by the first valid entry with it. -/
theorem netArpResolve_eq :
    netArpResolve table ip =
      (table.entries.find? fun entry ↦ entry.ipAddress = ip && entry.isValid).map
        ArpEntry.macAddress := by
  rw [netArpResolve, ArpTable.entries, find?_firstOf, Option.map_map]
  rfl

/-! ### The invariant -/

/-- The entry that the last successful add for an address leaves after the purges since, when these
are at most 600. -/
def LastAdd.rest (ip : UInt32) (last : LastAdd) : ArpEntry where
  ipAddress := ip
  macAddress := last.macAddr
  ttlMs := UInt32.ofNat (1000 * (600 - last.purges))
  isValid := true

/-- The entry that there is for an address. -/
def LastAdd.entry (ip : UInt32) (last : LastAdd) : Option ArpEntry :=
  if last.purges ≤ 600 then some (last.rest ip) else none

/-- There is one entry for an address at most, and it is what the last successful add left. -/
structure Tracked (entries : List ArpEntry) (adds : UInt32 → Option LastAdd) : Prop where
  distinct : (entries.map ArpEntry.ipAddress).Nodup
  found : ∀ ip, entries.find? (fun entry ↦ entry.ipAddress = ip) =
    (adds ip).bind (LastAdd.entry ip)

variable {last : LastAdd} {entries : List ArpEntry}

theorem toNat_ttlMs_rest (ip : UInt32) (last : LastAdd) :
    (last.rest ip).ttlMs.toNat = 1000 * (600 - last.purges) := by
  have hsize : UInt32.size = 2 ^ 32 := rfl
  exact UInt32.toNat_ofNat_of_lt' (by omega)

theorem hasTime_rest_iff : (last.rest ip).hasTime = true ↔ last.purges < 600 := by
  rw [ArpEntry.hasTime, decide_eq_true_iff, UInt32.lt_iff_toNat_lt, toNat_ttlMs_rest,
    UInt32.toNat_zero]
  omega

/-- Assumes: there was time left. A purge takes a second off what is left, without wrapping. -/
theorem age_rest (htime : last.purges < 600) : (last.rest ip).age = last.purge.rest ip := by
  have hseconds : (last.rest ip).ttlMs - 1000 = (last.purge.rest ip).ttlMs := by
    have hthousand : (1000 : UInt32).toNat = 1000 := rfl
    have hleft := toNat_ttlMs_rest ip last
    have hpurge : last.purge.purges = last.purges + 1 := rfl
    rw [← UInt32.toNat_inj, toNat_ttlMs_rest, hpurge, UInt32.toNat_sub_of_le, hleft, hthousand]
    · omega
    · rw [UInt32.le_iff_toNat_le, hleft, hthousand]
      omega
  rw [ArpEntry.age, hseconds]
  rfl

/-- A purge leaves what one more purge leaves. -/
theorem entry_purge (ip : UInt32) (last : LastAdd) :
    ((last.entry ip).filter ArpEntry.hasTime).map ArpEntry.age = last.purge.entry ip := by
  have hpurge : last.purge.purges = last.purges + 1 := rfl
  rw [LastAdd.entry, LastAdd.entry, hpurge]
  by_cases htime : last.purges < 600
  · rw [if_pos (by omega), if_pos (by omega), Option.filter_some_pos (hasTime_rest_iff.mpr htime),
      Option.map_some, age_rest htime]
  · have hnone : (last.rest ip).hasTime = false :=
      Bool.eq_false_iff.mpr fun hset ↦ htime (hasTime_rest_iff.mp hset)
    rw [if_neg (show ¬ last.purges + 1 ≤ 600 by omega)]
    split_ifs
    · rw [Option.filter_some_neg hnone, Option.map_none]
    · rfl

/-! ### One call -/

/-- Refreshing the entry of an address is adding for it anew. -/
theorem Tracked.refresh (htracked : Tracked entries adds) {entry : ArpEntry}
    (hfind : entries.find? (fun entry ↦ entry.ipAddress = ip) = some entry) :
    Tracked (updateFirst (fun entry ↦ entry.ipAddress = ip) (ArpEntry.refresh macAddr) entries)
      (Function.update adds ip (some { macAddr := macAddr, purges := 0 })) where
  distinct := by
    have hkeep : ∀ entry : ArpEntry, decide (entry.ipAddress = ip) = true →
        (entry.refresh macAddr).ipAddress = entry.ipAddress := fun _ _ ↦ rfl
    rw [map_updateFirst hkeep]
    exact htracked.distinct
  found := by
    intro other
    have hkeep : ∀ entry : ArpEntry, (entry.refresh macAddr).ipAddress = entry.ipAddress :=
      fun _ ↦ rfl
    rw [find?_key_updateFirst hkeep]
    split_ifs with hother
    · subst hother
      have hentry := hfind.symm.trans (htracked.found other)
      obtain ⟨last, -, hlast⟩ := Option.bind_eq_some_iff.mp hentry.symm
      rw [LastAdd.entry] at hlast
      split_ifs at hlast
      rw [hfind, Function.update_self, Option.bind_some, Option.map_some,
        ← Option.some.inj hlast]
      rfl
    · rw [Function.update_of_ne hother]
      exact htracked.found other

/-- Adding an entry for an address that has none. -/
theorem Tracked.concat (htracked : Tracked entries adds)
    (hfind : entries.find? (fun entry ↦ entry.ipAddress = ip) = none) :
    Tracked (entries ++ [newArpEntry ip macAddr])
      (Function.update adds ip (some { macAddr := macAddr, purges := 0 })) where
  distinct := by
    refine (nodup_map_concat_iff htracked.distinct).mpr fun entry hentry hsame ↦ ?_
    exact List.find?_eq_none.mp hfind entry hentry (decide_eq_true hsame)
  found := by
    intro other
    rw [List.find?_append, List.find?_singleton]
    by_cases hother : other = ip
    · subst hother
      have hnew : (newArpEntry other macAddr).ipAddress = other := rfl
      rw [hfind, Function.update_self, if_pos (decide_eq_true hnew)]
      rfl
    · rw [Function.update_of_ne hother, if_neg (fun hsame ↦ hother (of_decide_eq_true hsame).symm),
        Option.or_none]
      exact htracked.found other

/-- A purge is one more purge for every address. -/
theorem Tracked.purge (htracked : Tracked entries adds) :
    Tracked ((entries.filter ArpEntry.hasTime).map ArpEntry.age)
      (fun ip ↦ (adds ip).map LastAdd.purge) where
  distinct := by
    rw [List.map_map]
    exact htracked.distinct.sublist (List.filter_sublist.map _)
  found := by
    intro ip
    have hfilter : (entries.filter ArpEntry.hasTime).find? (fun entry ↦ entry.ipAddress = ip) =
        (entries.find? fun entry ↦ entry.ipAddress = ip).filter ArpEntry.hasTime :=
      find?_key_filter htracked.distinct ArpEntry.hasTime
    rw [List.find?_map]
    refine (congrArg (Option.map ArpEntry.age) hfilter).trans ?_
    rw [htracked.found ip]
    cases adds ip with
    | none => rfl
    | some last => exact entry_purge ip last

/-- Every call leaves what the last successful adds left. -/
theorem Tracked.step (htracked : Tracked table.entries adds) (call : ArpCall) :
    Tracked (arpStep table call).entries (trackAdds table call adds) := by
  cases call with
  | addEntry ip macAddr =>
    rw [arpStep, trackAdds]
    rcases netArpAddEntry_cases table ip macAddr with
      hrefused | ⟨hdone, hentries, entry, hfind⟩ | ⟨hdone, hentries, hfind⟩
    · rw [hrefused, if_neg (show ¬ (-1 : Int) = 0 by decide)]
      exact htracked
    · rw [if_pos hdone, hentries]
      exact htracked.refresh hfind
    · rw [if_pos hdone, hentries]
      exact htracked.concat hfind
  | resolve ip => exact htracked
  | purgeExpired =>
    rw [arpStep, trackAdds, entries_netArpPurgeExpired]
    exact htracked.purge

/-- Entries are valid, so the first entry with an address is the first valid one. -/
theorem Tracked.resolve_eq (htracked : Tracked table.entries adds) (ip : UInt32) :
    netArpResolve table ip = ((adds ip).bind (LastAdd.entry ip)).map ArpEntry.macAddress := by
  have hvalid : ∀ entry ∈ table.entries, entry.isValid = true := by
    intro entry hentry
    have hfind := htracked.found entry.ipAddress
    rw [find?_key_of_mem htracked.distinct hentry] at hfind
    obtain ⟨last, -, hlast⟩ := Option.bind_eq_some_iff.mp hfind.symm
    rw [LastAdd.entry] at hlast
    split_ifs at hlast
    rw [← Option.some.inj hlast]
    rfl
  rw [netArpResolve_eq, ← htracked.found]
  congr 1
  refine List.find?_congr fun entry hentry ↦ ?_
  rw [hvalid entry hentry, Bool.and_true]

/-- What is claimed of a table holds when it is what the last successful adds left. -/
theorem Tracked.arpCorrect (htracked : Tracked table.entries adds) : ArpCorrect table adds where
  distinct := htracked.distinct
  seconds := by
    intro entry hentry
    have hfind := htracked.found entry.ipAddress
    rw [find?_key_of_mem htracked.distinct hentry] at hfind
    obtain ⟨last, -, hlast⟩ := Option.bind_eq_some_iff.mp hfind.symm
    rw [LastAdd.entry] at hlast
    split_ifs at hlast
    rw [← Option.some.inj hlast, toNat_ttlMs_rest]
    exact ⟨Nat.dvd_mul_right 1000 _, by omega⟩
  resolved := by
    intro ip last hlast hfew
    rw [htracked.resolve_eq, hlast, Option.bind_some, LastAdd.entry,
      if_pos (Nat.le_of_lt_succ hfew)]
    rfl
  unresolved := by
    intro ip hover
    rw [htracked.resolve_eq]
    cases hlast : adds ip with
    | none => rfl
    | some last =>
      rw [Option.bind_some, LastAdd.entry, if_neg (Nat.not_le.mpr (hover last hlast))]
      rfl

/-! ### Runs -/

/-- Over every run of adds, resolutions and purges: addresses are distinct, what entries have left
is a whole number of seconds up to 600, and an address is resolved to what was last added for it
exactly as long as there were fewer than 601 purges since. -/
theorem arpCorrect_alongRun (calls : List ArpCall) :
    AlongRun (withTrace arpStep trackAdds) (fun traced ↦ ArpCorrect traced.1 traced.2)
      (arpTableInit, fun _ ↦ none) calls := by
  have hstart : Tracked arpTableInit.entries fun _ ↦ none := ⟨List.nodup_nil, fun _ ↦ rfl⟩
  have htracked : AlongRun (withTrace arpStep trackAdds)
      (fun traced ↦ Tracked traced.1.entries traced.2) (arpTableInit, fun _ ↦ none) calls := by
    refine alongRun_invariant _ (fun _ _ ↦ True) ?_ hstart fun _ _ _ ↦ trivial
    intro traced call htraced _
    exact htraced.step call
  exact htracked.imp fun traced htraced ↦ htraced.arpCorrect

end OneOS.Networking
