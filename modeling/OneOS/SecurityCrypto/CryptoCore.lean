import OneOS.Foundation.AffineFolds
import Mathlib.Data.UInt

/-!
# Hashes and message authentication codes

`crypto_hash` and `crypto_hmac` of `security-crypto/crypto_core.c`. The algorithm that is asked for
is not looked at: a hash multiplies by 33 and adds the next byte, and a code begins with the
exclusive or of the bytes of the key instead of 0. The four bytes that are written are a word.

So a key has no more than 256 effects, and what it does to one message is what it does to every
other: the code of one message tells the codes of all messages, without the key
(`cryptoHmac_forged`). Two keys give one message the same code exactly when they give every message
the same code (`cryptoHmac_eq_iff`), and two messages with another pair of neighbouring bytes have
the same code under every key exactly when one byte makes up for the other (`cryptoHmac_pair_iff`).

Left out are the checks of pointers, the table of keys with what encrypts and decrypts by it, the
cipher suites and the jobs.
-/

set_option autoImplicit false
set_option relaxedAutoImplicit false

namespace OneOS.SecurityCrypto

open Foundation
open scoped UInt32.CommRing

/-! ### The code -/

/-- One round of the loops over the data. -/
def hashByte (value : UInt32) (byte : UInt8) : UInt32 :=
  ((value <<< 5) + value) + byte.toUInt32

/-- The exclusive or of the bytes of a key. -/
def keyXor (key : List UInt8) : UInt32 :=
  key.foldl (fun value byte ↦ value ^^^ byte.toUInt32) 0

/-- `crypto_hash`, without a digest when there are no data. -/
def cryptoHash (data : List UInt8) : Option UInt32 :=
  if data = [] then none else some (data.foldl hashByte 0)

/-- `crypto_hmac`, without a code when there is no key or there are no data. -/
def cryptoHmac (key data : List UInt8) : Option UInt32 :=
  if key = [] ∨ data = [] then none else some (data.foldl hashByte (keyXor key))

/-! ### Loops as affine folds -/

variable {key other data message : List UInt8}

theorem hashByte_eq (value : UInt32) (byte : UInt8) :
    hashByte value byte = 33 * value + byte.toUInt32 := by
  have hshift : value <<< 5 = 32 * value := by
    rw [← UInt32.toBitVec_inj, UInt32.toBitVec_shiftLeft, UInt32.toBitVec_mul]
    change value.toBitVec <<< (5 : ℕ) = _
    rw [BitVec.shiftLeft_eq_mul_twoPow, BitVec.mul_comm]
    rfl
  rw [hashByte, hshift]
  grind

theorem foldl_hashByte (start : UInt32) (data : List UInt8) :
    data.foldl hashByte start = affineFold 33 UInt8.toUInt32 start data := by
  rw [affineFold, funext fun value ↦ funext fun byte ↦ hashByte_eq value byte]

/-- The inverse of 33 modulo 2³². -/
def inverse33 : UInt32 := 1041204193

theorem isUnit_33 : IsUnit (33 : UInt32) :=
  IsUnit.of_mul_eq_one inverse33 (by decide)

theorem cryptoHmac_of_nonempty (hkey : key ≠ []) (hdata : data ≠ []) :
    cryptoHmac key data = some (affineFold 33 UInt8.toUInt32 (keyXor key) data) := by
  rw [cryptoHmac, if_neg (not_or.mpr ⟨hkey, hdata⟩), foldl_hashByte]

/-! ### Codes without the key -/

/-- The effect of a key, from the code of one message. -/
def effectOf (data : List UInt8) (mac : UInt32) : UInt32 :=
  inverse33 ^ data.length * (mac - data.foldl hashByte 0)

/-- The code of another message, from the code of one. -/
def forgeMac (data : List UInt8) (mac : UInt32) (other : List UInt8) : UInt32 :=
  other.foldl hashByte (effectOf data mac)

theorem effectOf_affineFold (start : UInt32) (data : List UInt8) :
    effectOf data (affineFold 33 UInt8.toUInt32 start data) = start := by
  have hinverse : inverse33 ^ data.length * 33 ^ data.length = 1 := by
    rw [← mul_pow, show inverse33 * 33 = 1 from by decide, one_pow]
  rw [effectOf, foldl_hashByte, affineFold_start, add_sub_cancel_right, ← mul_assoc, hinverse,
    one_mul]

/-- Whatever the key is, the code of every message is told from the code of one. -/
theorem cryptoHmac_forged (key data other : List UInt8) (hdata : data ≠ []) (hother : other ≠ []) :
    cryptoHmac key other = (cryptoHmac key data).map fun mac ↦ forgeMac data mac other := by
  by_cases hkey : key = []
  · rw [cryptoHmac, cryptoHmac, if_pos (Or.inl hkey), if_pos (Or.inl hkey)]
    rfl
  · rw [cryptoHmac_of_nonempty hkey hdata, cryptoHmac_of_nonempty hkey hother, Option.map_some,
      forgeMac, effectOf_affineFold, foldl_hashByte]

/-- A code of three bytes tells the code of two others. -/
theorem cryptoHmac_forged_example :
    cryptoHmac [7, 9] [1, 2] = (cryptoHmac [7, 9] [3, 4, 5]).map fun mac ↦
      forgeMac [3, 4, 5] mac [1, 2] :=
  cryptoHmac_forged [7, 9] [3, 4, 5] [1, 2] (by decide) (by decide)

/-! ### Codes that agree -/

/-- Two keys give a message the same code exactly when the exclusive or of their bytes is the same:
then they give every message the same code. -/
theorem cryptoHmac_eq_iff (hkey : key ≠ []) (hother : other ≠ []) (hdata : data ≠ []) :
    cryptoHmac key data = cryptoHmac other data ↔ keyXor key = keyXor other := by
  rw [cryptoHmac_of_nonempty hkey hdata, cryptoHmac_of_nonempty hother hdata, Option.some_inj,
    affineFold_start_iff isUnit_33]

/-- What two neighbouring bytes add up to. -/
def pairSum (first second : UInt8) : ℕ :=
  33 * first.toNat + second.toNat

theorem pairSum_eq_iff (first second first' second' : UInt8) :
    (33 : UInt32) * (first.toUInt32 - first'.toUInt32) = second'.toUInt32 - second.toUInt32 ↔
      pairSum first second = pairSum first' second' := by
  have hnat : ∀ first second : UInt8,
      (33 * first.toUInt32 + second.toUInt32).toNat = pairSum first second := by
    intro first second
    have hfirst := first.toNat_lt
    have hsecond := second.toNat_lt
    rw [UInt32.toNat_add, UInt32.toNat_mul, UInt8.toNat_toUInt32, UInt8.toNat_toUInt32, pairSum]
    change (33 * first.toNat % 2 ^ 32 + second.toNat) % 2 ^ 32 = _
    omega
  rw [← hnat, ← hnat first' second', UInt32.toNat_inj]
  constructor
  · intro hsame
    linear_combination hsame
  · intro hsame
    linear_combination hsame

/-- Two messages that differ in a pair of neighbouring bytes have the same code, under whatever key,
exactly when the pairs add up to the same. -/
theorem cryptoHmac_pair_iff (key before after : List UInt8) (hkey : key ≠ [])
    (first second first' second' : UInt8) :
    cryptoHmac key (before ++ first :: second :: after) =
        cryptoHmac key (before ++ first' :: second' :: after) ↔
      pairSum first second = pairSum first' second' := by
  rw [cryptoHmac_of_nonempty hkey (by simp), cryptoHmac_of_nonempty hkey (by simp), Option.some_inj,
    affineFold_pair_iff isUnit_33, pairSum_eq_iff]

/-- `ab` and `bA` have the same code under a key of one byte. -/
theorem cryptoHmac_pair_iff_example :
    cryptoHmac [42] ([120] ++ 97 :: 98 :: [121]) = cryptoHmac [42] ([120] ++ 98 :: 65 :: [121]) ↔
      pairSum 97 98 = pairSum 98 65 :=
  cryptoHmac_pair_iff [42] [120] [121] (by decide) 97 98 98 65

end OneOS.SecurityCrypto
