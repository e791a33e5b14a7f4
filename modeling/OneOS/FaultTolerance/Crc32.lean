import OneOS.Foundation.ShiftRegisters

/-!
# The CRC-32 of checkpoints

`ft_crc32` of `services/fault_tolerance.c`, by which `ft_create_checkpoint` marks the data of a
checkpoint. A byte is taken in at once and followed by eight shifts, which is feeding its bits, the
lowest first, to a shift register of 32 places (`toBitVec_foldl_crcByte`). The polynomial has a bit
in the highest place, so data that are changed in a window of at most 32 consecutive bits are marked
differently (`ftCrc32_ne_of_burst`), however long they are and wherever the window is.
-/

set_option autoImplicit false
set_option relaxedAutoImplicit false

namespace OneOS.FaultTolerance

open Foundation

/-! ### The code -/

/-- One round of the inner loop of `ft_crc32`. -/
def crcShift (crc : UInt32) : UInt32 :=
  if crc &&& 1 ≠ 0 then (crc >>> 1) ^^^ 0xEDB88320 else crc >>> 1

/-- One round of the outer loop of `ft_crc32`. -/
def crcByte (crc : UInt32) (byte : UInt8) : UInt32 :=
  crcShift^[8] (crc ^^^ byte.toUInt32)

/-- `ft_crc32`. -/
def ftCrc32 (data : List UInt8) : UInt32 :=
  data.foldl crcByte 0xFFFFFFFF ^^^ 0xFFFFFFFF

/-! ### Bits in the order of processing -/

/-- The bits of a byte, the lowest first. -/
def byteBits (byte : UInt8) : List Bool :=
  (List.range 8).map byte.toNat.testBit

/-- The bits of data in the order in which they are processed. -/
def processedBits (data : List UInt8) : List Bool :=
  data.flatMap byteBits

@[simp] theorem length_byteBits (byte : UInt8) : (byteBits byte).length = 8 := by
  rw [byteBits, List.length_map, List.length_range]

/-- The bits of an exclusive or of bytes. -/
theorem byteBits_xor (first second : UInt8) :
    byteBits (first ^^^ second) = List.zipWith xor (byteBits first) (byteBits second) := by
  rw [byteBits, byteBits, byteBits, List.zipWith_map, List.zipWith_self]
  refine List.map_congr_left fun i _ ↦ ?_
  rw [UInt8.toNat_xor, Nat.testBit_xor]

/-- The bits of an exclusive or of data of one length. -/
theorem processedBits_xor {first second : List UInt8} (hlength : first.length = second.length) :
    processedBits (List.zipWith (· ^^^ ·) first second) =
      List.zipWith xor (processedBits first) (processedBits second) := by
  induction first generalizing second with
  | nil => rfl
  | cons byte first ih =>
    obtain ⟨other, second, rfl⟩ := List.exists_cons_of_length_eq_add_one hlength.symm
    rw [List.zipWith_cons_cons, processedBits, processedBits, processedBits, List.flatMap_cons,
      List.flatMap_cons, List.flatMap_cons, byteBits_xor,
      List.zipWith_append (by rw [length_byteBits, length_byteBits])]
    exact congrArg _ (ih (Nat.succ.inj hlength))

theorem length_processedBits (data : List UInt8) :
    (processedBits data).length = 8 * data.length := by
  induction data with
  | nil => rfl
  | cons byte data ih =>
    rw [processedBits, List.flatMap_cons, List.length_append, length_byteBits, List.length_cons]
    rw [processedBits] at ih
    omega

/-! ### The register -/

/-- The polynomial, as the taps of a register. -/
def crcTaps : BitVec 32 := 0xEDB88320

/-- A round of the inner loop shifts the register. -/
theorem toBitVec_crcShift (crc : UInt32) :
    (crcShift crc).toBitVec = shiftStep crcTaps crc.toBitVec := by
  have hlowest : crc &&& 1 ≠ 0 ↔ crc.toBitVec.getLsbD 0 = true := by
    have hword : (crc &&& 1).toBitVec = (BitVec.ofBool (crc.toBitVec.getLsbD 0)).setWidth 32 := by
      rw [UInt32.toBitVec_and]
      exact BitVec.and_one_eq_setWidth_ofBool_getLsbD
    rw [Ne, ← UInt32.toBitVec_inj, hword]
    cases crc.toBitVec.getLsbD 0 <;> decide
  rw [crcShift, shiftStep]
  by_cases hbit : crc &&& 1 ≠ 0
  · rw [if_pos hbit, if_pos (hlowest.mp hbit)]
    rfl
  · rw [if_neg hbit, if_neg (fun hset ↦ hbit (hlowest.mpr hset))]
    rfl

/-- The word of the bits of a byte is the byte. -/
theorem wordOf_byteBits (byte : UInt8) : wordOf 32 (byteBits byte) = byte.toUInt32.toBitVec := by
  refine BitVec.eq_of_getLsbD_eq fun i hi ↦ ?_
  rw [getLsbD_wordOf, UInt8.toBitVec_toUInt32, BitVec.getLsbD_setWidth, byteBits]
  congr 1
  by_cases hplace : i < 8
  · rw [List.getD_eq_getElem _ _ (by simpa using hplace)]
    simp [BitVec.getLsbD]
  · rw [List.getD_eq_default _ _ (by simpa using hplace), BitVec.getLsbD_of_ge _ _ (by omega)]

/-- A round of the outer loop feeds the bits of the byte. -/
theorem toBitVec_crcByte (crc : UInt32) (byte : UInt8) :
    (crcByte crc byte).toBitVec = feedAll crcTaps crc.toBitVec (byteBits byte) := by
  have hiterate : ∀ rounds crc, (crcShift^[rounds] crc).toBitVec =
      (shiftStep crcTaps)^[rounds] crc.toBitVec := by
    intro rounds
    induction rounds with
    | zero => intro crc; rfl
    | succ rounds ih =>
      intro crc
      rw [Function.iterate_succ_apply, Function.iterate_succ_apply, ih, toBitVec_crcShift]
  rw [feedAll_eq_iterate (by rw [length_byteBits]; decide), length_byteBits, wordOf_byteBits,
    crcByte, hiterate, UInt32.toBitVec_xor]

/-- The loops feed the bits of all bytes. -/
theorem toBitVec_foldl_crcByte (data : List UInt8) (crc : UInt32) :
    (data.foldl crcByte crc).toBitVec = feedAll crcTaps crc.toBitVec (processedBits data) := by
  induction data generalizing crc with
  | nil => rfl
  | cons byte data ih =>
    rw [List.foldl_cons, ih, toBitVec_crcByte, processedBits, processedBits, List.flatMap_cons,
      feedAll_append]

/-! ### Bursts -/

/-- Data of one length whose exclusive or is a burst of at most 32 consecutive bits have different
CRCs. -/
theorem ftCrc32_ne_of_burst (first second : List UInt8) (hlength : first.length = second.length)
    (hburst : BurstWithin 32 (processedBits (List.zipWith (· ^^^ ·) first second))) :
    ftCrc32 first ≠ ftCrc32 second := by
  intro hequal
  have hregisters := congrArg UInt32.toBitVec ((UInt32.xor_left_inj _).mp hequal)
  rw [toBitVec_foldl_crcByte, toBitVec_foldl_crcByte] at hregisters
  rw [processedBits_xor hlength] at hburst
  refine feedAll_ne_of_burst (by decide) ?_ hburst hregisters
  rw [length_processedBits, length_processedBits, hlength]

/-- A burst of seven bits across the border of two bytes. -/
theorem ftCrc32_ne_of_burst_across :
    ftCrc32 [0x41, 0x42, 0x43] ≠ ftCrc32 [0x41, 0xD2, 0x45] := by
  refine ftCrc32_ne_of_burst _ _ rfl ⟨by decide, 12, ?_⟩
  decide

end OneOS.FaultTolerance
