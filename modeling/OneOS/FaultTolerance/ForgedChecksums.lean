import OneOS.FaultTolerance.Crc32

/-!
# Checksums to order

The CRC-32 marks changes that come by accident, and no others: whatever the data of a checkpoint
are, four bytes behind them bring `ft_crc32` to every value that is wanted, and there is just one
choice of the four (`existsUnique_ftCrc32_append`). So data of the same length with another ending
can be found for every other beginning, with the same checksum.
-/

set_option autoImplicit false
set_option relaxedAutoImplicit false

namespace OneOS.FaultTolerance

open Foundation

/-! ### Bytes and bits -/

/-- The byte that eight bits make up, the lowest first. -/
def byteOf (bits : List Bool) : UInt8 :=
  UInt8.ofBitVec (wordOf 8 bits)

theorem byteBits_byteOf {bits : List Bool} (hlength : bits.length = 8) :
    byteBits (byteOf bits) = bits := by
  refine List.ext_getElem (by rw [length_byteBits, hlength]) fun i hi hi' ↦ ?_
  have hplace := @getLsbD_wordOf 8 bits i
  rw [List.getD_eq_getElem _ _ hi', decide_eq_true (by omega), Bool.true_and] at hplace
  rw [← hplace]
  simp [byteBits, byteOf, BitVec.getLsbD]

/-- Bytes with the same bits are the same. -/
theorem byteBits_injective : Function.Injective byteBits := by
  intro first second hbits
  have hwords := congrArg (wordOf 32) hbits
  rw [wordOf_byteBits, wordOf_byteBits] at hwords
  exact UInt8.toUInt32_inj.mp (UInt32.toBitVec_inj.mp hwords)

/-- Bits in whole bytes are those of just one choice of bytes. -/
theorem existsUnique_processedBits (count : ℕ) {bits : List Bool}
    (hlength : bits.length = 8 * count) :
    ∃! data : List UInt8, data.length = count ∧ processedBits data = bits := by
  induction count generalizing bits with
  | zero =>
    obtain rfl := List.length_eq_zero_iff.mp hlength
    exact ⟨[], ⟨rfl, rfl⟩, fun data hdata ↦ List.length_eq_zero_iff.mp hdata.1⟩
  | succ count ih =>
    have hfirst : (bits.take 8).length = 8 := by
      rw [List.length_take]
      omega
    obtain ⟨rest, ⟨hcount, hrest⟩, hunique⟩ := @ih (bits.drop 8) (by
      rw [List.length_drop]
      omega)
    refine ⟨byteOf (bits.take 8) :: rest, ⟨?_, ?_⟩, ?_⟩
    · rw [List.length_cons, hcount]
    · change byteBits _ ++ processedBits rest = bits
      rw [byteBits_byteOf hfirst, hrest, List.take_append_drop]
    · rintro data ⟨hdata, hbits⟩
      obtain ⟨byte, data, rfl⟩ := List.exists_cons_of_length_eq_add_one hdata
      change byteBits byte ++ processedBits data = bits at hbits
      rw [← List.take_append_drop 8 bits] at hbits
      obtain ⟨hbyte, hlater⟩ := List.append_inj hbits ((length_byteBits byte).trans hfirst.symm)
      rw [hunique data ⟨Nat.succ.inj hdata, hlater⟩]
      refine congrArg (· :: rest) (byteBits_injective ?_)
      rw [hbyte, byteBits_byteOf hfirst]

/-! ### Forging -/

/-- Whatever the data are, just one choice of four bytes behind them brings the checksum to the
value that is wanted. -/
theorem existsUnique_ftCrc32_append (data : List UInt8) (target : UInt32) :
    ∃! ending : List UInt8, ending.length = 4 ∧ ftCrc32 (data ++ ending) = target := by
  have hregister : ∀ ending, ftCrc32 (data ++ ending) = target ↔
      feedAll crcTaps (data.foldl crcByte 0xFFFFFFFF).toBitVec (processedBits ending) =
        (target ^^^ 0xFFFFFFFF).toBitVec := by
    intro ending
    rw [ftCrc32, List.foldl_append, ← toBitVec_foldl_crcByte, UInt32.toBitVec_inj]
    constructor
    · rintro rfl
      rw [UInt32.xor_assoc, UInt32.xor_self, UInt32.xor_zero]
    · intro hforged
      rw [hforged, UInt32.xor_assoc, UInt32.xor_self, UInt32.xor_zero]
  obtain ⟨bits, ⟨hlength, hfeed⟩, hbits⟩ := @existsUnique_feedAll _ crcTaps (by decide)
    (data.foldl crcByte 0xFFFFFFFF).toBitVec (target ^^^ 0xFFFFFFFF).toBitVec
  obtain ⟨ending, ⟨hfour, hending⟩, hunique⟩ := existsUnique_processedBits 4 hlength
  refine ⟨ending, ⟨hfour, (hregister ending).mpr (hending ▸ hfeed)⟩, ?_⟩
  rintro other ⟨hother, hforged⟩
  refine hunique other ⟨hother, hbits _ ⟨?_, (hregister other).mp hforged⟩⟩
  rw [length_processedBits, hother]

end OneOS.FaultTolerance
