import Mathlib.Algebra.Order.BigOperators.Group.List
import Mathlib.Algebra.Order.Ring.Nat
import OneOS.Foundation.Counters
import OneOS.Foundation.Runs
import OneOS.Memory.MemoryOptimizer

/-!
# The accounts of the memory optimizer

What `used_memory` and `compressed_memory` say over runs of the operations on regions. Every region
weighs with its size as long as it is not swapped out, and with the difference of its size and its
compressed size as long as it is compressed.

The two counters, the compressed sizes and the identifiers are right in every state exactly when
every call meets `Accountable` in the state it is made in (`regionsAccounted_alongRun_iff`): no
operation is repeated on a region that is already in the state it leads to, a region is
unregistered only while it is neither swapped out nor compressed, a region that is compressed has a
size whose product with 70 fits in 32 bits, and the number that a new region gets, the number of
regions, is not the identifier of another one. `not_regionsAccounted_swapped_out_twice` is the
shortest run in which a counter goes wrong.
-/

set_option autoImplicit false
set_option relaxedAutoImplicit false

namespace OneOS.Memory.Optimizer

open Foundation

/-! ### Runs -/

/-- A call on the regions, with what the clock says when the call reads it. -/
inductive RegionCall
  | registerRegion (address : UInt64) (size : UInt32) (compression : CompressionType) (now : ℤ)
  | unregisterRegion (regionId : UInt32)
  | getRegion (regionId : UInt32) (now : ℤ)
  | compressRegion (regionId : UInt32) (now : ℤ)
  | decompressRegion (regionId : UInt32) (now : ℤ)
  | compressAll (now : ℕ → ℤ)
  | swapOut (regionId : UInt32) (now : ℤ)
  | swapIn (regionId : UInt32) (now : ℤ)

/-- The optimizer after a call. -/
def regionStep (optimizer : MemoryOptimizer) : RegionCall → MemoryOptimizer
  | .registerRegion address size compression now =>
    (memOptRegisterRegion optimizer address size compression now).1
  | .unregisterRegion regionId => (memOptUnregisterRegion optimizer regionId).1
  | .getRegion regionId now => (memOptGetRegion optimizer regionId now).1
  | .compressRegion regionId now => (memOptCompressRegion optimizer regionId now).1
  | .decompressRegion regionId now => (memOptDecompressRegion optimizer regionId now).1
  | .compressAll now => (memOptCompressAll optimizer now).1
  | .swapOut regionId now => (memOptSwapOut optimizer regionId now).1
  | .swapIn regionId now => (memOptSwapIn optimizer regionId now).1

/-! ### The accounts -/

/-- What a region adds to the used memory. -/
def MemoryRegion.residentBytes (region : MemoryRegion) : ℕ :=
  if region.isSwapped then 0 else region.size.toNat

/-- What a region saves by being compressed. -/
def MemoryRegion.savedBytes (region : MemoryRegion) : ℕ :=
  if region.isCompressed then region.size.toNat - region.compressedSize.toNat else 0

/-- The counters are the sums over the regions, every compressed region has 70 percent of its size,
rounded down, and no two regions have the same identifier. -/
structure RegionsAccounted (optimizer : MemoryOptimizer) : Prop where
  used : optimizer.usedMemory.toNat = (optimizer.regions.map MemoryRegion.residentBytes).sum
  compressed :
    optimizer.compressedMemory.toNat = (optimizer.regions.map MemoryRegion.savedBytes).sum
  ratio : ∀ region ∈ optimizer.regions, region.isCompressed = true →
    region.compressedSize.toNat = 70 * region.size.toNat / 100
  distinct : (optimizer.regions.map MemoryRegion.regionId).Nodup

/-- The region can be compressed: it is not compressed yet, and 70 times its size fits in 32
bits. -/
def MemoryRegion.Compressible (region : MemoryRegion) : Prop :=
  region.isCompressed = false ∧ 70 * region.size.toNat < 2 ^ 32

/-- The condition on a call: a new region gets a number that no other region has; a region is
unregistered while it is neither swapped out nor compressed; a region that is asked to be compressed
can be; and a region that is swapped out was not, and one that is swapped in was. -/
def Accountable (optimizer : MemoryOptimizer) : RegionCall → Prop
  | .registerRegion _ size _ _ =>
    optimizer.regions.length < maxMemoryRegions → size ≠ 0 → ∀ region ∈ optimizer.regions,
      region.regionId ≠ UInt32.ofNat optimizer.regions.length + 1
  | .unregisterRegion regionId => ∀ region,
      optimizer.regions.find? (hasRegionId regionId) = some region →
        region.isSwapped = false ∧ region.isCompressed = false
  | .getRegion _ _ => True
  | .compressRegion regionId _ => ∀ region,
      optimizer.regions.find? (hasRegionId regionId) = some region →
        region.compression ≠ .none → region.Compressible
  | .decompressRegion _ _ => True
  | .compressAll _ => ∀ region ∈ optimizer.regions,
      region.compression ≠ .none → region.Compressible
  | .swapOut regionId _ => ∀ region,
      optimizer.regions.find? (hasRegionId regionId) = some region → region.isSwapped = false
  | .swapIn regionId _ => ∀ region,
      optimizer.regions.find? (hasRegionId regionId) = some region → region.isSwapped = true

/-! ### What holds in every run -/

/-- What every run keeps of a region: it is not empty, it does not grow when it is compressed, and
a region that is not to be compressed never is. -/
structure MemoryRegion.WellFormed (region : MemoryRegion) : Prop where
  nonempty : 0 < region.size.toNat
  shrunk : region.compressedSize.toNat ≤ region.size.toNat
  plain : region.compression = .none → region.isCompressed = false

/-- What every run keeps of the regions. -/
structure RegionsWellFormed (optimizer : MemoryOptimizer) : Prop where
  room : optimizer.regions.length ≤ maxMemoryRegions
  regions : ∀ region ∈ optimizer.regions, region.WellFormed

/-- Assumes: well-formed regions, none of which weighs more than its size. They weigh less than
`2 ^ 44` together. -/
theorem sum_map_lt {optimizer : MemoryOptimizer} (hwell : RegionsWellFormed optimizer)
    {weight : MemoryRegion → ℕ} (hweight : ∀ region, weight region ≤ region.size.toNat) :
    (optimizer.regions.map weight).sum < 2 ^ 44 := by
  have hbound : ∀ bytes ∈ optimizer.regions.map weight, bytes ≤ 2 ^ 32 := by
    intro bytes hbytes
    obtain ⟨region, -, rfl⟩ := List.mem_map.mp hbytes
    exact (hweight region).trans region.size.toNat_lt.le
  have hsum := List.sum_le_card_nsmul _ _ hbound
  have hroom := hwell.room
  rw [List.length_map, Nat.nsmul_eq_mul] at hsum
  rw [maxMemoryRegions] at hroom
  omega

theorem residentBytes_le (region : MemoryRegion) : region.residentBytes ≤ region.size.toNat := by
  rw [MemoryRegion.residentBytes]
  split <;> omega

theorem savedBytes_le (region : MemoryRegion) : region.savedBytes ≤ region.size.toNat := by
  rw [MemoryRegion.savedBytes]
  split <;> omega

/-- Assumes: a well-formed region whose compressed size is 70 percent. It saves something exactly
when it is compressed. -/
theorem savedBytes_eq_zero_iff {region : MemoryRegion} (hwell : region.WellFormed)
    (hratio : region.isCompressed = true →
      region.compressedSize.toNat = 70 * region.size.toNat / 100) :
    region.savedBytes = 0 ↔ region.isCompressed = false := by
  have hnonempty := hwell.nonempty
  cases hcompressed : region.isCompressed with
  | false => simp [MemoryRegion.savedBytes, hcompressed]
  | true =>
    have hsize := hratio hcompressed
    simp only [MemoryRegion.savedBytes, hcompressed, if_true, Bool.true_eq_false, iff_false]
    omega

theorem toNat_sizeCompressed (region : MemoryRegion) :
    region.sizeCompressed.toNat = 70 * region.size.toNat % 2 ^ 32 / 100 := by
  rw [MemoryRegion.sizeCompressed, UInt32.toNat_div, UInt32.toNat_mul, Nat.mul_comm]
  rfl

/-- The computed size is at most the size, also where the product wraps. -/
theorem sizeCompressed_le (region : MemoryRegion) :
    region.sizeCompressed.toNat ≤ region.size.toNat := by
  have hwrapped := Nat.mod_le (70 * region.size.toNat) (2 ^ 32)
  rw [toNat_sizeCompressed]
  omega

/-- The computed size is 70 percent exactly when the product fits. -/
theorem toNat_sizeCompressed_eq_iff (region : MemoryRegion) :
    region.sizeCompressed.toNat = 70 * region.size.toNat / 100 ↔
      70 * region.size.toNat < 2 ^ 32 := by
  rw [toNat_sizeCompressed]
  omega

/-- The difference of two sizes, in 64 bits. -/
theorem toNat_toUInt64_sub {size smaller : UInt32} (hle : smaller.toNat ≤ size.toNat) :
    (size - smaller).toUInt64.toNat = size.toNat - smaller.toNat := by
  rw [UInt32.toNat_toUInt64, UInt32.toNat_sub_of_le _ _ (UInt32.le_iff_toNat_le.mpr hle)]

/-! ### One region changes -/

section OneRegion

variable {optimizer : MemoryOptimizer} {regionId : UInt32} {region : MemoryRegion}
  {change : MemoryRegion → MemoryRegion}

/-- Assumes: a change of the region found keeps it well formed. -/
theorem regionsWellFormed_change (hwell : RegionsWellFormed optimizer)
    (hfind : optimizer.regions.find? (hasRegionId regionId) = some region)
    (hchange : (change region).WellFormed) (usedMemory compressedMemory : UInt64) :
    RegionsWellFormed { optimizer with
      regions := updateFirst (hasRegionId regionId) change optimizer.regions
      usedMemory := usedMemory
      compressedMemory := compressedMemory } where
  room := by
    simp only [updateFirst, List.length_modify]
    exact hwell.room
  regions := by
    refine (forall_mem_updateFirst_iff hwell.regions).mpr fun found hfound ↦ ?_
    obtain rfl : region = found := Option.some.inj (hfind.symm.trans hfound)
    exact hchange

/-- Assumes: right accounts, and a change of the region found that keeps its identifier. The
accounts are right after the change exactly when each counter moves by the difference of what the
region weighs, and the region has the right compressed size. -/
theorem regionsAccounted_change_iff (haccounted : RegionsAccounted optimizer)
    (hfind : optimizer.regions.find? (hasRegionId regionId) = some region)
    (hid : ∀ row, (change row).regionId = row.regionId) (usedMemory compressedMemory : UInt64) :
    RegionsAccounted { optimizer with
        regions := updateFirst (hasRegionId regionId) change optimizer.regions
        usedMemory := usedMemory
        compressedMemory := compressedMemory } ↔
      usedMemory.toNat + region.residentBytes =
          optimizer.usedMemory.toNat + (change region).residentBytes ∧
        compressedMemory.toNat + region.savedBytes =
          optimizer.compressedMemory.toNat + (change region).savedBytes ∧
        ((change region).isCompressed = true →
          (change region).compressedSize.toNat = 70 * (change region).size.toNat / 100) := by
  have hused := haccounted.used
  have hcompressed := haccounted.compressed
  have hresident : ((updateFirst (hasRegionId regionId) change optimizer.regions).map
      MemoryRegion.residentBytes).sum + region.residentBytes =
        (optimizer.regions.map MemoryRegion.residentBytes).sum + (change region).residentBytes :=
    sum_map_updateFirst_add hfind change
  have hsaved : ((updateFirst (hasRegionId regionId) change optimizer.regions).map
      MemoryRegion.savedBytes).sum + region.savedBytes =
        (optimizer.regions.map MemoryRegion.savedBytes).sum + (change region).savedBytes :=
    sum_map_updateFirst_add hfind change
  constructor
  · intro hafter
    refine ⟨?_, ?_, (forall_mem_updateFirst_iff haccounted.ratio).mp hafter.ratio region hfind⟩
    · have hnext := hafter.used
      dsimp only at hnext
      omega
    · have hnext := hafter.compressed
      dsimp only at hnext
      omega
  · rintro ⟨husedNext, hcompressedNext, hratioNext⟩
    constructor
    · dsimp only
      omega
    · dsimp only
      omega
    · refine (forall_mem_updateFirst_iff haccounted.ratio).mpr fun found hfound ↦ ?_
      obtain rfl : region = found := Option.some.inj (hfind.symm.trans hfound)
      exact hratioNext
    · dsimp only
      rw [map_updateFirst fun row _ ↦ hid row]
      exact haccounted.distinct

end OneRegion

/-! ### The calls on one region -/

section OneRegionCalls

variable {optimizer : MemoryOptimizer} {regionId : UInt32} {region : MemoryRegion}

/-- A region is touched and then changed through the pointer to it. -/
theorem updateFirst_touch (regions : List MemoryRegion) (now : ℤ)
    (change : MemoryRegion → MemoryRegion) :
    updateFirst (hasRegionId regionId) change
        (updateFirst (hasRegionId regionId) (MemoryRegion.touch now) regions) =
      updateFirst (hasRegionId regionId) (fun row ↦ change (row.touch now)) regions :=
  updateFirst_updateFirst fun _ ↦ rfl

/-- What compressing leaves of a region: it is touched, and compressed unless it is a plain one. -/
def MemoryRegion.compress (now : ℤ) (row : MemoryRegion) : MemoryRegion :=
  if row.compression = .none then row.touch now
  else { row.touch now with compressedSize := row.sizeCompressed, isCompressed := true }

/-- What compressing a region adds to the compressed memory. -/
def MemoryRegion.compressGain (row : MemoryRegion) : UInt64 :=
  if row.compression = .none then 0 else (row.size - row.sizeCompressed).toUInt64

theorem memOptCompressRegion_of_find? (now : ℤ)
    (hfind : optimizer.regions.find? (hasRegionId regionId) = some region) :
    (memOptCompressRegion optimizer regionId now).1 = { optimizer with
      regions := updateFirst (hasRegionId regionId) (MemoryRegion.compress now) optimizer.regions
      compressedMemory := optimizer.compressedMemory + region.compressGain } := by
  simp only [memOptCompressRegion, memOptGetRegion, hfind, Option.map_some,
    MemoryOptimizer.changeRegion]
  by_cases hplain : region.compression = .none
  · have htouched : region.touch now = region.compress now := (if_pos hplain).symm
    rw [if_pos (show (region.touch now).compression = .none from hplain),
      MemoryRegion.compressGain, if_pos hplain, UInt64.add_zero, updateFirst_congr hfind htouched]
  · have hchanged : { region.touch now with
        compressedSize := (region.touch now).sizeCompressed, isCompressed := true } =
          region.compress now := (if_neg hplain).symm
    rw [if_neg (show ¬ (region.touch now).compression = .none from hplain),
      MemoryRegion.compressGain, if_neg hplain, updateFirst_touch,
      updateFirst_congr hfind hchanged]
    rfl

/-- What decompressing leaves of a region. -/
def MemoryRegion.decompress (now : ℤ) (row : MemoryRegion) : MemoryRegion :=
  if row.isCompressed then
    { row.touch now with isCompressed := false, compressedSize := row.size }
  else row.touch now

/-- What decompressing a region takes from the compressed memory. -/
def MemoryRegion.decompressLoss (row : MemoryRegion) : UInt64 :=
  if row.isCompressed then (row.size - row.compressedSize).toUInt64 else 0

theorem memOptDecompressRegion_of_find? (now : ℤ)
    (hfind : optimizer.regions.find? (hasRegionId regionId) = some region) :
    (memOptDecompressRegion optimizer regionId now).1 = { optimizer with
      regions := updateFirst (hasRegionId regionId) (MemoryRegion.decompress now)
        optimizer.regions
      compressedMemory := optimizer.compressedMemory - region.decompressLoss } := by
  simp only [memOptDecompressRegion, memOptGetRegion, hfind, Option.map_some,
    MemoryOptimizer.changeRegion]
  by_cases hcompressed : region.isCompressed = true
  · have hchanged : { region.touch now with
        isCompressed := false, compressedSize := (region.touch now).size } =
          region.decompress now := (if_pos hcompressed).symm
    rw [if_pos (show (region.touch now).isCompressed = true from hcompressed),
      MemoryRegion.decompressLoss, if_pos hcompressed, updateFirst_touch,
      updateFirst_congr hfind hchanged]
    rfl
  · have htouched : region.touch now = region.decompress now := (if_neg hcompressed).symm
    rw [if_neg (show ¬ (region.touch now).isCompressed = true from hcompressed),
      MemoryRegion.decompressLoss, if_neg hcompressed, UInt64.sub_zero,
      updateFirst_congr hfind htouched]

/-- What swapping a region out or in leaves of it. -/
def MemoryRegion.setSwapped (now : ℤ) (swapped : Bool) (row : MemoryRegion) : MemoryRegion :=
  { row.touch now with isSwapped := swapped }

theorem regionId_setSwapped (now : ℤ) (swapped : Bool) (row : MemoryRegion) :
    (row.setSwapped now swapped).regionId = row.regionId := rfl

theorem memOptSwapOut_of_find? (now : ℤ)
    (hfind : optimizer.regions.find? (hasRegionId regionId) = some region) :
    (memOptSwapOut optimizer regionId now).1 = { optimizer with
      regions := updateFirst (hasRegionId regionId) (MemoryRegion.setSwapped now true)
        optimizer.regions
      usedMemory := optimizer.usedMemory - region.size.toUInt64 } := by
  simp only [memOptSwapOut, memOptGetRegion, hfind, Option.map_some, MemoryOptimizer.changeRegion]
  rw [updateFirst_touch]
  rfl

theorem memOptSwapIn_of_find? (now : ℤ)
    (hfind : optimizer.regions.find? (hasRegionId regionId) = some region) :
    (memOptSwapIn optimizer regionId now).1 = { optimizer with
      regions := updateFirst (hasRegionId regionId) (MemoryRegion.setSwapped now false)
        optimizer.regions
      usedMemory := optimizer.usedMemory + region.size.toUInt64 } := by
  simp only [memOptSwapIn, memOptGetRegion, hfind, Option.map_some, MemoryOptimizer.changeRegion]
  rw [updateFirst_touch]
  rfl

/-- A call that finds no region changes nothing. -/
theorem memOptGetRegion_of_none (now : ℤ)
    (hfind : optimizer.regions.find? (hasRegionId regionId) = none) :
    memOptGetRegion optimizer regionId now = (optimizer, none) := by
  rw [memOptGetRegion, hfind, updateFirst_of_find?_eq_none hfind, Option.map_none]

theorem MemoryRegion.WellFormed.touch (hregion : region.WellFormed) (now : ℤ) :
    (region.touch now).WellFormed :=
  ⟨hregion.nonempty, hregion.shrunk, hregion.plain⟩

theorem MemoryRegion.WellFormed.compress (hregion : region.WellFormed) (now : ℤ) :
    (region.compress now).WellFormed := by
  rw [MemoryRegion.compress]
  split_ifs with hplain
  · exact hregion.touch now
  · exact ⟨hregion.nonempty, sizeCompressed_le region, fun hnone ↦ absurd hnone hplain⟩

theorem MemoryRegion.WellFormed.decompress (hregion : region.WellFormed) (now : ℤ) :
    (region.decompress now).WellFormed := by
  rw [MemoryRegion.decompress]
  split_ifs with hcompressed
  · exact ⟨hregion.nonempty, Nat.le_refl _, fun _ ↦ rfl⟩
  · exact hregion.touch now

theorem MemoryRegion.WellFormed.setSwapped (hregion : region.WellFormed) (now : ℤ)
    (swapped : Bool) : (region.setSwapped now swapped).WellFormed :=
  ⟨hregion.nonempty, hregion.shrunk, hregion.plain⟩

theorem residentBytes_compress (now : ℤ) :
    (region.compress now).residentBytes = region.residentBytes := by
  rw [MemoryRegion.compress]
  split <;> rfl

theorem residentBytes_decompress (now : ℤ) :
    (region.decompress now).residentBytes = region.residentBytes := by
  rw [MemoryRegion.decompress]
  split <;> rfl

theorem regionId_compress (now : ℤ) (row : MemoryRegion) :
    (row.compress now).regionId = row.regionId := by
  rw [MemoryRegion.compress]
  split <;> rfl

theorem regionId_decompress (now : ℤ) (row : MemoryRegion) :
    (row.decompress now).regionId = row.regionId := by
  rw [MemoryRegion.decompress]
  split <;> rfl

/-- What a compressed region saves after `mem_opt_compress_region`, and what was added for it. -/
theorem savedBytes_compress (now : ℤ) (hregion : region.WellFormed) :
    (region.compress now).savedBytes = region.compressGain.toNat := by
  rw [MemoryRegion.compress, MemoryRegion.compressGain]
  split_ifs with hplain
  · have hnot := hregion.plain hplain
    simp [MemoryRegion.savedBytes, MemoryRegion.touch, hnot]
  · rw [toNat_toUInt64_sub (sizeCompressed_le region)]
    rfl

theorem compressGain_le (row : MemoryRegion) : row.compressGain.toNat ≤ row.size.toNat := by
  rw [MemoryRegion.compressGain]
  split_ifs
  · exact Nat.zero_le _
  · rw [toNat_toUInt64_sub (sizeCompressed_le row)]
    exact Nat.sub_le _ _

/-- A region is as it should be after compressing exactly when it could be compressed or is a plain
one. -/
theorem compress_exact_iff (now : ℤ) (hregion : region.WellFormed)
    (hratio : region.isCompressed = true →
      region.compressedSize.toNat = 70 * region.size.toNat / 100) :
    (region.savedBytes = 0 ∧ ((region.compress now).isCompressed = true →
        (region.compress now).compressedSize.toNat = 70 * (region.compress now).size.toNat / 100)) ↔
      (region.compression ≠ .none → region.Compressible) := by
  rw [savedBytes_eq_zero_iff hregion hratio, MemoryRegion.compress]
  by_cases hplain : region.compression = .none
  · have hnot := hregion.plain hplain
    simp [hplain, hnot, MemoryRegion.touch]
  · rw [if_neg hplain, imp_iff_right hplain]
    exact and_congr_right fun _ ↦
      (imp_iff_right rfl).trans (toNat_sizeCompressed_eq_iff region)

end OneRegionCalls

/-! ### The accounts after one call -/

section Steps

variable {optimizer : MemoryOptimizer}

theorem regionsAccounted_compressRegion_iff (hwell : RegionsWellFormed optimizer)
    (haccounted : RegionsAccounted optimizer) (regionId : UInt32) (now : ℤ) :
    RegionsAccounted (memOptCompressRegion optimizer regionId now).1 ↔
      Accountable optimizer (.compressRegion regionId now) := by
  rw [Accountable]
  cases hfind : optimizer.regions.find? (hasRegionId regionId) with
  | none =>
    rw [memOptCompressRegion, memOptGetRegion_of_none now hfind]
    exact iff_of_true haccounted fun _ hsome ↦ nomatch hsome
  | some region =>
    have hmem := List.mem_of_find?_eq_some hfind
    have hregion := hwell.regions region hmem
    have hsaved := sum_map_lt hwell savedBytes_le
    have hcompressed := haccounted.compressed
    have hgain : region.compressGain.toNat < 2 ^ 32 := by
      rw [← savedBytes_compress now hregion]
      exact (savedBytes_le _).trans_lt (UInt32.toNat_lt _)
    rw [memOptCompressRegion_of_find? now hfind,
      regionsAccounted_change_iff haccounted hfind (regionId_compress now),
      residentBytes_compress, savedBytes_compress now hregion, UInt64.toNat_add,
      Nat.mod_eq_of_lt (by omega)]
    simp only [Option.some.injEq, forall_eq']
    rw [← compress_exact_iff now hregion (haccounted.ratio region hmem), true_and]
    exact and_congr_left' (by omega)

theorem regionsAccounted_decompressRegion (hwell : RegionsWellFormed optimizer)
    (haccounted : RegionsAccounted optimizer) (regionId : UInt32) (now : ℤ) :
    RegionsAccounted (memOptDecompressRegion optimizer regionId now).1 := by
  cases hfind : optimizer.regions.find? (hasRegionId regionId) with
  | none =>
    rw [memOptDecompressRegion, memOptGetRegion_of_none now hfind]
    exact haccounted
  | some region =>
    have hmem := List.mem_of_find?_eq_some hfind
    have hregion := hwell.regions region hmem
    have hcompressed := haccounted.compressed
    have hsaved : region.savedBytes ≤ (optimizer.regions.map MemoryRegion.savedBytes).sum :=
      List.le_sum_of_mem (List.mem_map_of_mem hmem)
    have hloss : region.decompressLoss.toNat = region.savedBytes := by
      rw [MemoryRegion.decompressLoss, MemoryRegion.savedBytes]
      split
      · exact toNat_toUInt64_sub hregion.shrunk
      · rfl
    have hnothing : (region.decompress now).savedBytes = 0 ∧
        (region.decompress now).isCompressed = false := by
      rw [MemoryRegion.decompress]
      split_ifs with hcompressed
      · exact ⟨rfl, rfl⟩
      · rw [Bool.not_eq_true] at hcompressed
        exact ⟨by simp [MemoryRegion.savedBytes, MemoryRegion.touch, hcompressed], hcompressed⟩
    rw [memOptDecompressRegion_of_find? now hfind,
      regionsAccounted_change_iff haccounted hfind (regionId_decompress now),
      residentBytes_decompress, hnothing.1, hnothing.2,
      UInt64.toNat_sub_of_le _ _ (UInt64.le_iff_toNat_le.mpr (by omega))]
    exact ⟨rfl, by omega, fun htrue ↦ absurd htrue Bool.false_ne_true⟩

theorem regionsAccounted_swapOut_iff (hwell : RegionsWellFormed optimizer)
    (haccounted : RegionsAccounted optimizer) (regionId : UInt32) (now : ℤ) :
    RegionsAccounted (memOptSwapOut optimizer regionId now).1 ↔
      Accountable optimizer (.swapOut regionId now) := by
  rw [Accountable]
  cases hfind : optimizer.regions.find? (hasRegionId regionId) with
  | none =>
    rw [memOptSwapOut, memOptGetRegion_of_none now hfind]
    exact iff_of_true haccounted fun _ hsome ↦ nomatch hsome
  | some region =>
    have hmem := List.mem_of_find?_eq_some hfind
    have hnonempty := (hwell.regions region hmem).nonempty
    have hused := haccounted.used
    have hbytes := sum_map_lt hwell residentBytes_le
    have hresident :
        region.residentBytes ≤ (optimizer.regions.map MemoryRegion.residentBytes).sum :=
      List.le_sum_of_mem (List.mem_map_of_mem hmem)
    have hsize : region.size.toUInt64.toNat = region.size.toNat := UInt32.toNat_toUInt64 _
    rw [memOptSwapOut_of_find? now hfind,
      regionsAccounted_change_iff haccounted hfind (regionId_setSwapped now true)]
    simp only [Option.some.injEq, forall_eq']
    cases hswapped : region.isSwapped with
    | false =>
      simp only [MemoryRegion.residentBytes, hswapped, Bool.false_eq_true, if_false] at hresident ⊢
      refine iff_of_true ⟨?_, rfl, haccounted.ratio region hmem⟩ trivial
      rw [UInt64.toNat_sub_of_le _ _ (UInt64.le_iff_toNat_le.mpr (by omega)), hsize]
      simp only [MemoryRegion.setSwapped, if_true]
      omega
    | true =>
      -- the size is taken a second time
      refine iff_of_false ?_ (show ¬ true = false by decide)
      rintro ⟨hmoved, -⟩
      simp only [MemoryRegion.residentBytes, MemoryRegion.setSwapped, hswapped, if_true,
        Nat.add_zero] at hmoved
      exact toNat_sub_amount_ne (by omega) hmoved

theorem regionsAccounted_swapIn_iff (hwell : RegionsWellFormed optimizer)
    (haccounted : RegionsAccounted optimizer) (regionId : UInt32) (now : ℤ) :
    RegionsAccounted (memOptSwapIn optimizer regionId now).1 ↔
      Accountable optimizer (.swapIn regionId now) := by
  rw [Accountable]
  cases hfind : optimizer.regions.find? (hasRegionId regionId) with
  | none =>
    rw [memOptSwapIn, memOptGetRegion_of_none now hfind]
    exact iff_of_true haccounted fun _ hsome ↦ nomatch hsome
  | some region =>
    have hmem := List.mem_of_find?_eq_some hfind
    have hnonempty := (hwell.regions region hmem).nonempty
    have hused := haccounted.used
    have hbytes := sum_map_lt hwell residentBytes_le
    have hlimit := region.size.toNat_lt
    rw [memOptSwapIn_of_find? now hfind,
      regionsAccounted_change_iff haccounted hfind (regionId_setSwapped now false),
      UInt64.toNat_add, UInt32.toNat_toUInt64, Nat.mod_eq_of_lt (by omega)]
    simp only [Option.some.injEq, forall_eq']
    have hratio := haccounted.ratio region hmem
    constructor
    · rintro ⟨hmoved, -⟩
      by_contra hresident
      simp only [MemoryRegion.residentBytes, MemoryRegion.setSwapped, MemoryRegion.touch,
        if_neg hresident, Bool.false_eq_true, if_false] at hmoved
      omega
    · intro hswapped
      refine ⟨?_, rfl, hratio⟩
      simp [MemoryRegion.residentBytes, MemoryRegion.setSwapped, MemoryRegion.touch, hswapped]

theorem regionsAccounted_getRegion (haccounted : RegionsAccounted optimizer) (regionId : UInt32)
    (now : ℤ) : RegionsAccounted (memOptGetRegion optimizer regionId now).1 := by
  cases hfind : optimizer.regions.find? (hasRegionId regionId) with
  | none =>
    rw [memOptGetRegion_of_none now hfind]
    exact haccounted
  | some region =>
    have hid : ∀ row : MemoryRegion, (row.touch now).regionId = row.regionId := fun _ ↦ rfl
    refine (regionsAccounted_change_iff haccounted hfind hid _ _).mpr ⟨rfl, rfl, ?_⟩
    exact haccounted.ratio region (List.mem_of_find?_eq_some hfind)

theorem regionsAccounted_registerRegion_iff (hwell : RegionsWellFormed optimizer)
    (haccounted : RegionsAccounted optimizer) (address : UInt64) (size : UInt32)
    (compression : CompressionType) (now : ℤ) :
    RegionsAccounted (memOptRegisterRegion optimizer address size compression now).1 ↔
      Accountable optimizer (.registerRegion address size compression now) := by
  rw [memOptRegisterRegion, Accountable]
  split_ifs with hfull hsize
  · exact iff_of_true haccounted fun hroom ↦ absurd hfull (Nat.not_le.mpr hroom)
  · exact iff_of_true haccounted fun _ hnonzero ↦ absurd hsize hnonzero
  · rw [imp_iff_right (Nat.lt_of_not_le hfull), imp_iff_right hsize]
    have hused := haccounted.used
    have hbytes := sum_map_lt hwell residentBytes_le
    have hlimit := size.toNat_lt
    constructor
    · intro hafter
      exact (nodup_map_concat_iff haccounted.distinct).mp hafter.distinct
    · intro hnew
      constructor
      · rw [UInt64.toNat_add, UInt32.toNat_toUInt64, Nat.mod_eq_of_lt (by omega), List.map_append,
          List.sum_append, ← hused]
        simp [MemoryRegion.residentBytes]
      · rw [List.map_append, List.sum_append, ← haccounted.compressed]
        simp [MemoryRegion.savedBytes]
      · intro region hregion hcompressed
        rcases List.mem_append.mp hregion with hold | hadded
        · exact haccounted.ratio region hold hcompressed
        · rw [List.mem_singleton.mp hadded] at hcompressed
          exact absurd hcompressed Bool.false_ne_true
      · exact (nodup_map_concat_iff haccounted.distinct).mpr hnew

theorem regionsAccounted_unregisterRegion_iff (hwell : RegionsWellFormed optimizer)
    (haccounted : RegionsAccounted optimizer) (regionId : UInt32) :
    RegionsAccounted (memOptUnregisterRegion optimizer regionId).1 ↔
      Accountable optimizer (.unregisterRegion regionId) := by
  rw [memOptUnregisterRegion, Accountable]
  cases hfind : optimizer.regions.find? (hasRegionId regionId) with
  | none => exact iff_of_true haccounted fun _ hsome ↦ nomatch hsome
  | some region =>
    have hmem := List.mem_of_find?_eq_some hfind
    have hregion := hwell.regions region hmem
    have hratio := haccounted.ratio region hmem
    have hused := haccounted.used
    have hcompressed := haccounted.compressed
    have hresident : ((optimizer.regions.eraseP (hasRegionId regionId)).map
        MemoryRegion.residentBytes).sum + region.residentBytes =
          (optimizer.regions.map MemoryRegion.residentBytes).sum := sum_map_eraseP_add hfind
    have hsaved : ((optimizer.regions.eraseP (hasRegionId regionId)).map
        MemoryRegion.savedBytes).sum + region.savedBytes =
          (optimizer.regions.map MemoryRegion.savedBytes).sum := sum_map_eraseP_add hfind
    have hsize : region.size.toUInt64.toNat = region.size.toNat := UInt32.toNat_toUInt64 _
    have hnonempty := hregion.nonempty
    simp only [Option.some.injEq, forall_eq']
    constructor
    · intro hafter
      have husedNext := hafter.used
      have hcompressedNext := hafter.compressed
      dsimp only at husedNext hcompressedNext
      refine ⟨?_, (savedBytes_eq_zero_iff hregion hratio).mp (by omega)⟩
      by_contra hswapped
      rw [Bool.not_eq_false] at hswapped
      -- the size is taken though it was not counted
      simp only [MemoryRegion.residentBytes, hswapped, if_true, Nat.add_zero] at hresident
      have hsame : (optimizer.usedMemory - region.size.toUInt64).toNat =
          optimizer.usedMemory.toNat := by omega
      exact toNat_sub_amount_ne (by omega) hsame
    · rintro ⟨hswapped, hplain⟩
      have hnone := (savedBytes_eq_zero_iff hregion hratio).mpr hplain
      simp only [MemoryRegion.residentBytes, hswapped, Bool.false_eq_true, if_false] at hresident
      constructor
      · rw [UInt64.toNat_sub_of_le _ _ (UInt64.le_iff_toNat_le.mpr (by omega)), hsize]
        dsimp only [MemoryRegion.residentBytes]
        omega
      · dsimp only
        omega
      · exact fun other hother ↦ haccounted.ratio other (List.mem_of_mem_eraseP hother)
      · exact nodup_map_eraseP haccounted.distinct

/-! ### The loop over all regions -/

/-- What the turns of `mem_opt_compress_all` before row `k` leave: the rows before it are
compressed, and what compressing them gains is added. -/
structure CompressedBefore (optimizer : MemoryOptimizer) (now : ℕ → ℤ) (k : ℕ)
    (after : MemoryOptimizer) : Prop where
  regions : after.regions =
    optimizer.regions.mapIdx fun i row ↦ if i < k then row.compress (now i) else row
  used : after.usedMemory = optimizer.usedMemory
  compressed : after.compressedMemory.toNat = optimizer.compressedMemory.toNat +
    ((optimizer.regions.take k).map fun row ↦ row.compressGain.toNat).sum

theorem compressedBefore_zero (now : ℕ → ℤ) : CompressedBefore optimizer now 0 optimizer where
  regions := by
    refine List.ext_getElem? fun i ↦ ?_
    simp
  used := rfl
  compressed := by simp

/-- Assumes: distinct identifiers, and gains that fit in the counter. One more turn. -/
theorem CompressedBefore.succ {after : MemoryOptimizer} {now : ℕ → ℤ} {k : ℕ}
    (hdistinct : (optimizer.regions.map MemoryRegion.regionId).Nodup)
    (hfits : optimizer.compressedMemory.toNat +
      (optimizer.regions.map fun row ↦ row.compressGain.toNat).sum < 2 ^ 64)
    (hk : k < optimizer.regions.length) (hbefore : CompressedBefore optimizer now k after) :
    CompressedBefore optimizer now (k + 1) (compressTurn now after k) := by
  have hregions := hbefore.regions
  have hcompressed := hbefore.compressed
  have hrow : after.regions[k]? = some optimizer.regions[k] := by
    rw [hregions, List.getElem?_mapIdx, List.getElem?_eq_getElem hk, Option.map_some,
      if_neg (Nat.lt_irrefl k)]
  have hkeys : (after.regions.map MemoryRegion.regionId).Nodup := by
    rw [hregions, map_mapIdx_of_keep]
    · exact hdistinct
    · intro i row
      split
      · exact regionId_compress _ row
      · rfl
  have hindex : after.regions.findIdx (hasRegionId optimizer.regions[k].regionId) = k :=
    findIdx_key_of_getElem? hkeys hrow
  have hfind : after.regions.find? (hasRegionId optimizer.regions[k].regionId) =
      some optimizer.regions[k] := by
    rw [List.find?_eq_getElem?_findIdx, hindex, hrow]
  have hturn : compressTurn now after k =
      (memOptCompressRegion after optimizer.regions[k].regionId (now k)).1 := by
    rw [compressTurn, hrow]
  -- the gains of the rows up to this one
  have hgains : ((optimizer.regions.take (k + 1)).map fun row ↦ row.compressGain.toNat).sum =
      ((optimizer.regions.take k).map fun row ↦ row.compressGain.toNat).sum +
        optimizer.regions[k].compressGain.toNat := by
    rw [List.take_add_one, List.getElem?_eq_getElem hk, Option.toList_some, List.map_append,
      List.sum_append, List.map_singleton, List.sum_singleton]
  have htake : (optimizer.regions.take (k + 1)).Sublist optimizer.regions := List.take_sublist _ _
  have hsum : ((optimizer.regions.take (k + 1)).map fun row ↦ row.compressGain.toNat).sum ≤
      (optimizer.regions.map fun row ↦ row.compressGain.toNat).sum :=
    (htake.map _).sum_le_sum fun _ _ ↦ Nat.zero_le _
  rw [hturn, memOptCompressRegion_of_find? (now k) hfind]
  constructor
  · rw [updateFirst, hindex]
    refine List.ext_getElem? fun i ↦ ?_
    rw [List.getElem?_modify, hregions, List.getElem?_mapIdx, List.getElem?_mapIdx,
      Option.map_eq_map, Option.map_map]
    congr 1
    funext row
    rcases Nat.lt_trichotomy i k with hless | rfl | hgreater
    · simp [hless, Nat.lt_succ_of_lt hless, Nat.ne_of_gt hless]
    · simp
    · simp [Nat.not_lt.mpr (Nat.le_of_lt hgreater), Nat.not_lt.mpr hgreater, Nat.ne_of_lt hgreater]
  · exact hbefore.used
  · dsimp only
    rw [UInt64.toNat_add, hcompressed, Nat.mod_eq_of_lt (by omega), hgains, Nat.add_assoc]

/-- What `mem_opt_compress_all` leaves. -/
theorem compressedBefore_compressAll (now : ℕ → ℤ)
    (hdistinct : (optimizer.regions.map MemoryRegion.regionId).Nodup)
    (hfits : optimizer.compressedMemory.toNat +
      (optimizer.regions.map fun row ↦ row.compressGain.toNat).sum < 2 ^ 64) :
    CompressedBefore optimizer now optimizer.regions.length
      (memOptCompressAll optimizer now).1 := by
  have hturns : ∀ k ≤ optimizer.regions.length,
      CompressedBefore optimizer now k ((List.range k).foldl (compressTurn now) optimizer) := by
    intro k hk
    induction k with
    | zero => exact compressedBefore_zero now
    | succ k ih =>
      rw [List.range_succ, List.foldl_append, List.foldl_cons, List.foldl_nil]
      exact (ih (Nat.le_of_succ_le hk)).succ hdistinct hfits hk
  exact hturns _ (Nat.le_refl _)

/-- Assumes: the accounts are right. The rows and counters after `mem_opt_compress_all`: the gains
are added, and the rows now save as much as was gained, whatever they saved before. -/
theorem compressAll_spec (hwell : RegionsWellFormed optimizer)
    (haccounted : RegionsAccounted optimizer) (now : ℕ → ℤ) :
    (memOptCompressAll optimizer now).1.regions =
        optimizer.regions.mapIdx (fun i row ↦ row.compress (now i)) ∧
      (memOptCompressAll optimizer now).1.usedMemory = optimizer.usedMemory ∧
      (memOptCompressAll optimizer now).1.compressedMemory.toNat =
        (optimizer.regions.map MemoryRegion.savedBytes).sum +
          ((memOptCompressAll optimizer now).1.regions.map MemoryRegion.savedBytes).sum := by
  have hcompressed := haccounted.compressed
  have hsaved := sum_map_lt hwell savedBytes_le
  have hgains := sum_map_lt hwell compressGain_le
  obtain ⟨hregions, hused, hadded⟩ := compressedBefore_compressAll now
    haccounted.distinct (by omega)
  have hrows : (memOptCompressAll optimizer now).1.regions =
      optimizer.regions.mapIdx fun i row ↦ row.compress (now i) := by
    rw [hregions]
    refine List.mapIdx_eq_mapIdx_iff.mpr fun i hi ↦ if_pos hi
  have hsums : (memOptCompressAll optimizer now).1.regions.map MemoryRegion.savedBytes =
      optimizer.regions.map fun row ↦ row.compressGain.toNat := by
    rw [hrows]
    refine List.ext_getElem (by simp) fun i hi _ ↦ ?_
    rw [List.getElem_map, List.getElem_mapIdx, List.getElem_map]
    exact savedBytes_compress (now i) (hwell.regions _ (List.getElem_mem _))
  refine ⟨hrows, hused, ?_⟩
  rw [hsums, hadded, List.take_length, hcompressed]

theorem regionsAccounted_compressAll_iff (hwell : RegionsWellFormed optimizer)
    (haccounted : RegionsAccounted optimizer) (now : ℕ → ℤ) :
    RegionsAccounted (memOptCompressAll optimizer now).1 ↔
      Accountable optimizer (.compressAll now) := by
  rw [Accountable]
  obtain ⟨hrows, hused, hadded⟩ := compressAll_spec hwell haccounted now
  have hexact : ∀ (i : ℕ) (hi : i < optimizer.regions.length),
      (optimizer.regions[i].savedBytes = 0 ∧
          ((optimizer.regions[i].compress (now i)).isCompressed = true →
            (optimizer.regions[i].compress (now i)).compressedSize.toNat =
              70 * (optimizer.regions[i].compress (now i)).size.toNat / 100)) ↔
        (optimizer.regions[i].compression ≠ .none → optimizer.regions[i].Compressible) :=
    fun i hi ↦ compress_exact_iff (now i) (hwell.regions _ (List.getElem_mem hi))
      (haccounted.ratio _ (List.getElem_mem hi))
  constructor
  · intro hafter region hregion
    obtain ⟨i, hi, rfl⟩ := List.mem_iff_getElem.mp hregion
    -- a row that saved something is counted twice now
    have hnone : (optimizer.regions.map MemoryRegion.savedBytes).sum = 0 := by
      have hnext := hafter.compressed
      omega
    refine (hexact i hi).mp ⟨?_, hafter.ratio _ ?_⟩
    · exact List.sum_eq_zero_iff_forall_eq_nat.mp hnone _ (List.mem_map_of_mem hregion)
    · rw [hrows, List.mem_mapIdx]
      exact ⟨i, hi, rfl⟩
  · intro haccountable
    have hnone : (optimizer.regions.map MemoryRegion.savedBytes).sum = 0 := by
      refine List.sum_eq_zero_iff_forall_eq_nat.mpr fun bytes hbytes ↦ ?_
      obtain ⟨region, hregion, rfl⟩ := List.mem_map.mp hbytes
      obtain ⟨i, hi, rfl⟩ := List.mem_iff_getElem.mp hregion
      exact ((hexact i hi).mpr (haccountable _ hregion)).1
    constructor
    · rw [hused, hrows, map_mapIdx_of_keep fun i row ↦ residentBytes_compress (now i),
        haccounted.used]
    · omega
    · intro row hrow
      rw [hrows, List.mem_mapIdx] at hrow
      obtain ⟨i, hi, rfl⟩ := hrow
      exact ((hexact i hi).mpr (haccountable _ (List.getElem_mem hi))).2
    · rw [hrows, map_mapIdx_of_keep fun i ↦ regionId_compress (now i)]
      exact haccounted.distinct

end Steps

/-! ### The accounts along a run -/

/-- Assumes: a call changes nothing when it finds no region, and else the region found, in a way
that keeps it well formed. -/
theorem regionsWellFormed_of_find? {optimizer after : MemoryOptimizer} {regionId : UInt32}
    {change : MemoryRegion → MemoryRegion} (hwell : RegionsWellFormed optimizer)
    (hchange : ∀ region : MemoryRegion, region.WellFormed → (change region).WellFormed)
    (hnone : optimizer.regions.find? (hasRegionId regionId) = none → after = optimizer)
    (hsome : ∀ region, optimizer.regions.find? (hasRegionId regionId) = some region →
      ∃ usedMemory compressedMemory, after = { optimizer with
        regions := updateFirst (hasRegionId regionId) change optimizer.regions
        usedMemory := usedMemory
        compressedMemory := compressedMemory }) : RegionsWellFormed after := by
  cases hfind : optimizer.regions.find? (hasRegionId regionId) with
  | none =>
    rw [hnone hfind]
    exact hwell
  | some region =>
    obtain ⟨usedMemory, compressedMemory, hafter⟩ := hsome region hfind
    rw [hafter]
    have hregion := hwell.regions region (List.mem_of_find?_eq_some hfind)
    exact regionsWellFormed_change hwell hfind (hchange region hregion) _ _

theorem regionsWellFormed_compressRegion {optimizer : MemoryOptimizer}
    (hwell : RegionsWellFormed optimizer) (regionId : UInt32) (now : ℤ) :
    RegionsWellFormed (memOptCompressRegion optimizer regionId now).1 :=
  regionsWellFormed_of_find? hwell (fun _ hregion ↦ hregion.compress now)
    (fun hnone ↦ by rw [memOptCompressRegion, memOptGetRegion_of_none now hnone])
    (fun _ hfind ↦ ⟨_, _, memOptCompressRegion_of_find? now hfind⟩)

/-- Every call keeps the regions well formed. -/
theorem regionsWellFormed_step {optimizer : MemoryOptimizer}
    (hwell : RegionsWellFormed optimizer) (call : RegionCall) :
    RegionsWellFormed (regionStep optimizer call) := by
  cases call with
  | registerRegion address size compression now =>
    rw [regionStep, memOptRegisterRegion]
    split_ifs with hfull hsize
    · exact hwell
    · exact hwell
    · refine ⟨?_, fun region hregion ↦ ?_⟩
      · rw [List.length_append, List.length_singleton]
        exact Nat.lt_of_not_le hfull
      · rcases List.mem_append.mp hregion with hold | hnew
        · exact hwell.regions region hold
        · rw [List.mem_singleton.mp hnew]
          exact ⟨toNat_pos hsize, Nat.le_refl _, fun _ ↦ rfl⟩
  | unregisterRegion regionId =>
    rw [regionStep, memOptUnregisterRegion]
    cases hfind : optimizer.regions.find? (hasRegionId regionId) with
    | none => exact hwell
    | some region =>
      refine ⟨(List.eraseP_sublist.length_le).trans hwell.room, fun other hother ↦ ?_⟩
      exact hwell.regions other (List.mem_of_mem_eraseP hother)
  | getRegion regionId now =>
    exact regionsWellFormed_of_find? hwell (fun _ hregion ↦ hregion.touch now)
      (fun hnone ↦ by rw [regionStep, memOptGetRegion_of_none now hnone])
      (fun _ _ ↦ ⟨_, _, rfl⟩)
  | compressRegion regionId now => exact regionsWellFormed_compressRegion hwell regionId now
  | decompressRegion regionId now =>
    exact regionsWellFormed_of_find? hwell (fun _ hregion ↦ hregion.decompress now)
      (fun hnone ↦ by rw [regionStep, memOptDecompressRegion, memOptGetRegion_of_none now hnone])
      (fun _ hfind ↦ ⟨_, _, memOptDecompressRegion_of_find? now hfind⟩)
  | compressAll now =>
    have hturns : ∀ turns : List ℕ, ∀ current : MemoryOptimizer, RegionsWellFormed current →
        RegionsWellFormed (turns.foldl (compressTurn now) current) := by
      intro turns
      induction turns with
      | nil => exact fun _ hcurrent ↦ hcurrent
      | cons turn turns ih =>
        intro current hcurrent
        refine ih _ ?_
        rw [compressTurn]
        split
        · exact hcurrent
        · exact regionsWellFormed_compressRegion hcurrent _ _
    exact hturns _ optimizer hwell
  | swapOut regionId now =>
    exact regionsWellFormed_of_find? hwell (fun _ hregion ↦ hregion.setSwapped now true)
      (fun hnone ↦ by rw [regionStep, memOptSwapOut, memOptGetRegion_of_none now hnone])
      (fun _ hfind ↦ ⟨_, _, memOptSwapOut_of_find? now hfind⟩)
  | swapIn regionId now =>
    exact regionsWellFormed_of_find? hwell (fun _ hregion ↦ hregion.setSwapped now false)
      (fun hnone ↦ by rw [regionStep, memOptSwapIn, memOptGetRegion_of_none now hnone])
      (fun _ hfind ↦ ⟨_, _, memOptSwapIn_of_find? now hfind⟩)

/-- Assumes: well-formed regions with right accounts. The accounts are right after a call exactly
when the call meets the condition. -/
theorem regionsAccounted_step_iff {optimizer : MemoryOptimizer}
    (hwell : RegionsWellFormed optimizer) (haccounted : RegionsAccounted optimizer)
    (call : RegionCall) :
    RegionsAccounted (regionStep optimizer call) ↔ Accountable optimizer call := by
  cases call with
  | registerRegion address size compression now =>
    exact regionsAccounted_registerRegion_iff hwell haccounted address size compression now
  | unregisterRegion regionId =>
    exact regionsAccounted_unregisterRegion_iff hwell haccounted regionId
  | getRegion regionId now =>
    exact iff_of_true (regionsAccounted_getRegion haccounted regionId now) trivial
  | compressRegion regionId now =>
    exact regionsAccounted_compressRegion_iff hwell haccounted regionId now
  | decompressRegion regionId now =>
    exact iff_of_true (regionsAccounted_decompressRegion hwell haccounted regionId now) trivial
  | compressAll now => exact regionsAccounted_compressAll_iff hwell haccounted now
  | swapOut regionId now => exact regionsAccounted_swapOut_iff hwell haccounted regionId now
  | swapIn regionId now => exact regionsAccounted_swapIn_iff hwell haccounted regionId now

theorem regionsWellFormed_init (totalMem : UInt64) : RegionsWellFormed (memOptInit totalMem) where
  room := Nat.zero_le _
  regions _ hregion := nomatch hregion

theorem regionsAccounted_init (totalMem : UInt64) : RegionsAccounted (memOptInit totalMem) where
  used := rfl
  compressed := rfl
  ratio _ hregion := nomatch hregion
  distinct := List.nodup_nil

/-- The accounts of the optimizer over every run. In every state that the calls on a new optimizer
pass through, `used_memory` is the sum of the sizes of the regions that are not swapped out,
`compressed_memory` what the compressed regions save, every compressed region has 70 percent of its
size, and the identifiers are distinct, exactly when every call meets the condition. -/
theorem regionsAccounted_alongRun_iff (totalMem : UInt64) (calls : List RegionCall) :
    AlongRun regionStep RegionsAccounted (memOptInit totalMem) calls ↔
      EveryStep regionStep Accountable (memOptInit totalMem) calls :=
  alongRun_iff_everyStep RegionsWellFormed (fun _ _ ↦ True)
    (fun _ call hwell _ ↦ regionsWellFormed_step hwell call)
    (fun _ call hwell _ haccounted ↦ regionsAccounted_step_iff hwell haccounted call)
    (regionsWellFormed_init totalMem) (regionsAccounted_init totalMem) (fun _ _ _ ↦ trivial)

/-- A region of 100 bytes is swapped out twice: its size is taken from `used_memory` twice. -/
theorem not_regionsAccounted_swapped_out_twice :
    ¬ AlongRun regionStep RegionsAccounted (memOptInit 4096)
      [.registerRegion 0 100 .none 0, .swapOut 1 1, .swapOut 1 2] := by
  intro halong
  have hused := (halong _ (List.prefix_refl _)).used
  exact absurd hused (by decide)

end OneOS.Memory.Optimizer
