import OneOS.Filesystem.Journal
import OneOS.Foundation.InjectiveFolds

/-!
# The checksum of the journal

`journal_calculate_checksum` of `fs/fs_journal.c` turns the checksum by one place and takes in the
next byte by exclusive or. Turning loses no bit, and an exclusive or with one number loses nothing
either, so the checksum tells any two sequences of bytes apart that differ in one byte only
(`journalCalculateChecksum_ne`). `journal_verify_checksum` therefore notices when one byte of the
data of an entry is replaced (`journalVerifyChecksum_replaced`).
-/

set_option autoImplicit false
set_option relaxedAutoImplicit false

namespace OneOS.Filesystem.Journal

open Foundation

/-- One round of `journal_calculate_checksum`. -/
def checksumRound (checksum : UInt32) (byte : UInt8) : UInt32 :=
  ((checksum <<< 1) ||| (checksum >>> 31)) ^^^ byte.toUInt32

theorem journalCalculateChecksum_eq_foldl (data : List UInt8) :
    journalCalculateChecksum data = data.foldl checksumRound 0 := rfl

/-- Turning by one place loses no bit: the bit of a place comes to the next one, and the last bit to
the first place. -/
theorem turn_injective :
    Function.Injective fun checksum : UInt32 ↦ (checksum <<< 1) ||| (checksum >>> 31) := by
  intro first second hequal
  refine UInt32.toBitVec_inj.mp (BitVec.eq_of_getElem_eq fun i hi ↦ ?_)
  have hbit := congrArg
    (fun checksum : UInt32 ↦ checksum.toBitVec.getLsbD ((i + 1) % 32)) hequal
  by_cases hlast : i = 31
  · subst hlast
    simpa using hbit
  · have hnext : (i + 1) % 32 = i + 1 := by omega
    have hplace : i + 1 < 32 := by omega
    have hout : first.toBitVec.getLsbD (31 + (i + 1)) = false :=
      BitVec.getLsbD_of_ge _ _ (by omega)
    have hout' : second.toBitVec.getLsbD (31 + (i + 1)) = false :=
      BitVec.getLsbD_of_ge _ _ (by omega)
    rw [hnext] at hbit
    simpa [hout, hout', hplace] using hbit

/-- Whatever byte is taken in, different checksums stay different. -/
theorem checksumRound_injective_left (byte : UInt8) :
    Function.Injective fun checksum ↦ checksumRound checksum byte := by
  intro first second hequal
  exact turn_injective (UInt32.xor_left_inj _ |>.mp hequal)

/-- Different bytes lead from one checksum to different ones. -/
theorem checksumRound_injective_right (checksum : UInt32) :
    Function.Injective (checksumRound checksum) := by
  intro first second hequal
  have hbytes : first.toUInt32 = second.toUInt32 := (UInt32.xor_right_inj _).mp hequal
  exact UInt8.toUInt32_inj.mp hbytes

/-- From any checksum on, bytes that differ once lead to different checksums. -/
theorem foldl_checksumRound_ne {first second : List UInt8} (hdiffers : DiffersOnce first second)
    (checksum : UInt32) :
    first.foldl checksumRound checksum ≠ second.foldl checksumRound checksum :=
  foldl_ne_of_differsOnce checksumRound_injective_left checksumRound_injective_right hdiffers
    checksum

/-- Two sequences of bytes that differ in one byte only have different checksums. -/
theorem journalCalculateChecksum_ne (first second : List UInt8)
    (hdiffers : DiffersOnce first second) :
    journalCalculateChecksum first ≠ journalCalculateChecksum second := by
  rw [journalCalculateChecksum_eq_foldl, journalCalculateChecksum_eq_foldl]
  exact foldl_checksumRound_ne hdiffers 0

/-- The last of three bytes is another one. -/
theorem journalCalculateChecksum_ne_last :
    journalCalculateChecksum [200, 7, 1] ≠ journalCalculateChecksum [200, 7, 2] := by
  have hdiffers : DiffersOnce ([200, 7, 1] : List UInt8) (List.set [200, 7, 1] 2 2) :=
    differsOnce_set (by decide) (by decide)
  exact journalCalculateChecksum_ne _ _ hdiffers

/-- Assumes: an entry verifies its checksum. It does not when one of the bytes that the checksum was
taken of is replaced by another one. -/
theorem journalVerifyChecksum_replaced (entry : JournalEntry)
    (hverify : journalVerifyChecksum entry = 0) {i : ℕ} (hsize : i < journalEntrySize)
    (hlength : i < entry.dataLength.toNat) {byte : UInt8} (hbyte : byte ≠ entry.data[i]) :
    journalVerifyChecksum { entry with data := entry.data.set i byte } = -1 := by
  have hchecksum : journalCalculateChecksum (entry.data.toList.take entry.dataLength.toNat) =
      entry.checksum := by
    by_contra hwrong
    rw [journalVerifyChecksum, if_neg hwrong] at hverify
    exact absurd hverify (by decide)
  have hdiffers : DiffersOnce (entry.data.toList.take entry.dataLength.toNat)
      ((entry.data.toList.take entry.dataLength.toNat).set i byte) := by
    refine differsOnce_set ?_ ?_
    · rw [List.length_take, Vector.length_toList]
      exact lt_min hlength hsize
    · simpa using hbyte
  rw [journalVerifyChecksum, if_neg]
  dsimp only
  rw [Vector.toList_set, List.take_set, ← hchecksum, journalCalculateChecksum_eq_foldl,
    journalCalculateChecksum_eq_foldl]
  exact (foldl_checksumRound_ne hdiffers 0).symm

end OneOS.Filesystem.Journal
